import CreamBots.Data.Dict
import CreamBots.Builders.Record
import CreamBots.Builders.TwoPool
import CreamBots.Builders.ThreePool
import CreamBots.Builders.LpFetcher
import CreamBots.Builders.Liquidity.Ticks
import CreamBots.Builders.Liquidity.Replay
import CreamBots.Builders.Liquidity.Snapshot
import CreamBots.Builders.Liquidity.Fetcher
import CreamBots.Builders.Liquidity.Ledger
import CreamBots.Builders.Liquidity.Schedule
import CreamBots.App.AffectedArbs
import CreamBots.App.OnchainArbs
import CreamBots.App.PoolService
import CreamBots.App.ArbBot
import CreamBots.App.BlacklistService
import CreamBots.App.BlacklistUpdates
import CreamBots.App.Selection
import CreamBots.Builders.LpRequests
import CreamBots.Data.Heap
import CreamBots.Builders.Liquidity.Sharing
import CreamBots.Builders.Liquidity.Entry
import CreamBots.App.EventHandlers
import CreamBots.App.EventLoop
import CreamBots.App.Notifications
import CreamBots.App.PoolManagers
import CreamBots.App.PoolIdentity
import CreamBots.App.LiquidityCount
import CreamBots.App.SelectionInput
import CreamBots.Builders.Liquidity.BlockSpan
import CreamBots.App.AllOrNothing
import CreamBots.App.FinderTask
import CreamBots.App.Reconnect
import CreamBots.App.PendingTransactions
import CreamBots.App.ExchangeService
import CreamBots.App.BootstrapService
import CreamBots.Builders.Liquidity.SnapshotFile
import CreamBots.Data.Spans
import CreamBots.Builders.Liquidity.Profile
import CreamBots.Builders.DataDir
import CreamBots.App.Toolchain
import CreamBots.App.Trading
import CreamBots.App.CallbackBot
import CreamBots.App.WholeBot
import CreamBots.App.ChainReserves
import CreamBots.App.ChainLiquidity
