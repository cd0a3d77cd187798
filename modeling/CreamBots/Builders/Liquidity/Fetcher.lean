import CreamBots.Builders.Liquidity.Replay
import CreamBots.Builders.Liquidity.Snapshot

/-! The liquidity fetcher.

A run loads the LP files and the snapshot, asks for the Mint logs and then for the
Burn logs of the blocks after the snapshot's, replays them pool by pool on the
snapshot's tick maps and writes the snapshot at the newest block. A request that
fails is asked again for a shorter range, one that succeeds lets the next be
longer; of the lengths only that they are natural numbers matters.

The successful requests of a run lie end to end from the block after the snapshot's
to the newest (`fetch_tiles`), and since that is the block saved with the snapshot,
so do those of all runs together (`every_block_asked_once`). -/
namespace CreamBots.Builders.Liquidity
open Data

def uniswapV3StartBlock : Nat := 1000

/-- `BLOCK_SPAN`. -/
def initialBlockSpan : Nat := 10000

/-- `TICKSPACING_BY_FEE`. -/
def tickSpacingByFee : Dict Nat Nat :=
  Dict.ofList [(100, 1), (200, 4), (300, 6), (400, 8), (500, 10), (2500, 50), (3000, 60),
    (10000, 200)]

/-- Why a run ends without writing a snapshot: a request is still to be answered,
an LP file is missing, an exception. -/
inductive Stop where
  | unanswered
  | missingFile
  | raised (error : PyError)

/-! ### Requests -/

/-- `int(0.75 * block_span)` after a failure, `int(1.05 * block_span)` after a success. -/
structure SpanRule where
  shrink : Nat → Nat
  grow : Nat → Nat

/-- The answered requests of a run for one kind of event. -/
structure Fetched where
  ranges : List BlockRange
  events : List LiquidityEvent

section Requests
variable (span : SpanRule) (log : EventLog LiquidityEvent.blockNumber) (newestBlock : Nat)

/-- `while not done`; `answers` says of each request whether it succeeds. -/
def fetchLoop : List Bool → Nat → Nat → Fetched → Except Stop Fetched
  | [], _, _, _ => .error .unanswered
  | false :: answers, startBlock, blockSpan, fetched =>
    fetchLoop answers startBlock (span.shrink blockSpan) fetched
  | true :: answers, startBlock, blockSpan, fetched =>
    let endBlock := min newestBlock (startBlock + blockSpan)
    let fetched : Fetched :=
      ⟨fetched.ranges ++ [⟨startBlock, endBlock⟩], fetched.events ++ log.getLogs startBlock endBlock⟩
    if endBlock = newestBlock then .ok fetched
    else fetchLoop answers (endBlock + 1) (span.grow blockSpan) fetched

def startBlock (snapshotLastBlock : Option Nat) : Nat :=
  match snapshotLastBlock with
  | some block => max uniswapV3StartBlock (block + 1)
  | none => uniswapV3StartBlock

def fetch (snapshotLastBlock : Option Nat) (answers : List Bool) : Except Stop Fetched :=
  fetchLoop span log newestBlock answers (startBlock snapshotLastBlock) initialBlockSpan ⟨[], []⟩

variable {span log newestBlock}

theorem fetchLoop_tiles {answers : List Bool} : ∀ {start blockSpan : Nat} {fetched result : Fetched},
    start ≤ newestBlock →
    fetchLoop span log newestBlock answers start blockSpan fetched = .ok result →
    ∃ ranges, result.ranges = fetched.ranges ++ ranges ∧ Tiles ranges start (newestBlock + 1) ∧
      result.events = fetched.events ++
        ranges.flatMap fun r => log.getLogs r.fromBlock r.toBlock := by
  induction answers with
  | nil =>
    intro start blockSpan fetched result _ h
    cases h
  | cons answer answers ih =>
    intro start blockSpan fetched result hstart h
    cases answer with
    | false => exact ih hstart h
    | true =>
      rw [fetchLoop] at h
      split at h
      · rename_i hend
        cases h
        refine ⟨[⟨start, newestBlock⟩], ?_, ⟨rfl, hstart, rfl⟩, ?_⟩
        · simp only [hend]
        · simp [hend]
      · rename_i hend
        have hnext : min newestBlock (start + blockSpan) + 1 ≤ newestBlock := by omega
        obtain ⟨ranges, hr, htiles, he⟩ := ih hnext h
        refine ⟨⟨start, min newestBlock (start + blockSpan)⟩ :: ranges, ?_, ⟨rfl, ?_, htiles⟩, ?_⟩
        · rw [hr, List.append_assoc]
          rfl
        · show start ≤ min newestBlock (start + blockSpan)
          omega
        · rw [he, List.append_assoc, List.flatMap_cons]

/-- The answered requests of a run lie end to end, and their events are all it has. -/
theorem fetch_tiles {snapshotLastBlock : Option Nat} {answers : List Bool} {result : Fetched}
    (hstart : startBlock snapshotLastBlock ≤ newestBlock)
    (h : fetch span log newestBlock snapshotLastBlock answers = .ok result) :
    Tiles result.ranges (startBlock snapshotLastBlock) (newestBlock + 1) ∧
      result.events = result.ranges.flatMap fun r => log.getLogs r.fromBlock r.toBlock := by
  obtain ⟨ranges, hr, htiles, he⟩ := fetchLoop_tiles hstart h
  rw [hr, he]
  exact ⟨htiles, rfl⟩

/-- The events of a run are those of the blocks from the start block to the newest;
there are none where the chain has not come to the start block. -/
theorem fetch_events {snapshotLastBlock : Option Nat} {answers : List Bool} {result : Fetched}
    (h : fetch span log newestBlock snapshotLastBlock answers = .ok result) :
    result.events = log.between (startBlock snapshotLastBlock) (newestBlock + 1) := by
  by_cases hstart : startBlock snapshotLastBlock ≤ newestBlock
  · obtain ⟨htiles, he⟩ := fetch_tiles hstart h
    rw [he, htiles.getLogs log]
  · rw [fetch] at h
    generalize initialBlockSpan = blockSpan at h
    induction answers generalizing blockSpan with
    | nil => cases h
    | cons answer answers ih =>
      cases answer with
      | false => exact ih _ h
      | true =>
        have hend : min newestBlock (startBlock snapshotLastBlock + blockSpan) = newestBlock := by
          omega
        rw [fetchLoop, if_pos hend] at h
        cases h
        rw [hend, log.getLogs_eq_between]
        rfl

variable (span log) in
theorem fetchLoop_ends {answers : List Bool} : ∀ {start : Nat} (blockSpan : Nat) (fetched : Fetched),
    newestBlock - start < answers.count true →
    ∃ result, fetchLoop span log newestBlock answers start blockSpan fetched = .ok result := by
  induction answers with
  | nil =>
    intro start blockSpan fetched h
    exact absurd h (Nat.not_lt_zero _)
  | cons answer answers ih =>
    intro start blockSpan fetched h
    cases answer with
    | false => exact ih _ _ h
    | true =>
      rw [List.count_cons_self] at h
      rw [fetchLoop]
      split
      · exact ⟨_, rfl⟩
      · exact ih _ _ (by omega)

/-- Each success moves the start block on, whatever fails in between, so as many as
there are blocks to ask for are enough. -/
theorem fetch_ends {snapshotLastBlock : Option Nat} {answers : List Bool}
    (h : newestBlock - startBlock snapshotLastBlock < answers.count true) :
    ∃ result, fetch span log newestBlock snapshotLastBlock answers = .ok result :=
  fetchLoop_ends span log initialBlockSpan ⟨[], []⟩ h

end Requests

/-! ### One run -/

/-- `lp_data[lp["pool_address"]] = lp`, file by file. -/
def loadLps (files : List (List PoolRecord)) : Dict Address PoolRecord :=
  files.foldl (fun lpData file => file.foldl (fun lpData lp => lpData.set lp.poolAddress lp) lpData)
    Dict.empty

/-- The LP files, unless one does not exist. -/
def readLpFiles (files : List (Option (List PoolRecord))) : Except Stop (List (List PoolRecord)) :=
  files.mapM fun file =>
    match file with
    | some content => .ok content
    | none => .error .missingFile

section Main
variable (degenbot : Degenbot) (span : SpanRule)
  (logs : EventName → EventLog LiquidityEvent.blockNumber)

/-- `lp_helper` set up for a pool. -/
def poolHelper (snapshotLastBlock : Option Nat) (maps : TickMaps) (fee tickSpacing : Nat) : Helper :=
  -- `snapshot_last_block or UNISWAPV3_START_BLOCK`: block 0 counts as none.
  let updateBlock := match snapshotLastBlock with
    | some (block + 1) => block + 1
    | _ => uniswapV3StartBlock
  { address := Address.fill 0
    liquidity := 2 ^ 256
    tickData := maps.tickData
    tickBitmap := maps.tickBitmap
    updateBlock
    liquidityUpdateBlock := updateBlock
    tick := 0
    fee
    tickSpacing }

/-- `liquidity_snapshot[pool_address][...].update(lp_helper...)`. Where `external_update`
works in place and the pool had an entry, the entry's dictionaries are the helper's. -/
def merge (entry : Option TickMaps) (helper : Helper) : TickMaps :=
  let held := match entry with
    | some maps => if degenbot.inPlace then helper.maps else maps
    | none => TickMaps.empty
  ⟨held.tickBitmap.update helper.tickBitmap, held.tickData.update helper.tickData⟩

/-- What a listed pool's entry becomes. -/
def replayEntry (lp : PoolRecord) (snapshotLastBlock : Option Nat) (queue : List QueuedEvent)
    (entry : Option TickMaps) : Except PyError TickMaps :=
  match lp.fee with
  | none => .error .keyError
  | some fee =>
    match tickSpacingByFee.get? fee with
    | none => .error .keyError
    | some tickSpacing =>
      let helper := poolHelper snapshotLastBlock (entry.getD TickMaps.empty) fee tickSpacing
      .ok (merge degenbot entry (replay degenbot helper (sortedUpdates queue)))

/-- One round of the loop over `liquidity_events`. -/
def replayPool (lpData : Dict Address PoolRecord) (snapshotLastBlock : Option Nat)
    (queue : EventQueue) (snapshot : Snapshot) (pool : Address) : Except PyError Snapshot :=
  match lpData.get? pool with
  | none => .ok snapshot
  | some lp => do
    let maps ← replayEntry degenbot lp snapshotLastBlock ((queue.get? pool).getD [])
      (snapshot.get? pool)
    return snapshot.set pool maps

/-- The chain's height and what becomes of the requests. -/
structure Run where
  newestBlock : Nat
  answers : EventName → List Bool

/-- What a run that writes a snapshot has asked for and written. -/
structure Written where
  fetched : EventName → Fetched
  file : SnapshotFile

/-- The queue of the run. -/
def Written.queue (written : Written) : EventQueue :=
  collect (written.fetched .mint).events (written.fetched .burn).events

def orRaise {α : Type} : Except PyError α → Except Stop α
  | .ok a => .ok a
  | .error e => .error (.raised e)

/-- `main` for one chain. -/
def main (lpFiles : List (Option (List PoolRecord))) (snapshotFile : Option SnapshotFile)
    (run : Run) : Except Stop Written := do
  let lps ← readLpFiles lpFiles
  let lpData := loadLps lps
  let (snapshotLastBlock, snapshot) ← orRaise (loadSnapshot snapshotFile run.newestBlock)
  let mints ← fetch span (logs .mint) run.newestBlock snapshotLastBlock (run.answers .mint)
  let burns ← fetch span (logs .burn) run.newestBlock snapshotLastBlock (run.answers .burn)
  let queue := collect mints.events burns.events
  -- `pool=lp`: the variable of the loop over the LP records.
  if lps.flatten.isEmpty then throw (.raised (.unboundLocalError "lp"))
  let snapshot ← orRaise
    (queue.keys.foldlM (replayPool degenbot lpData snapshotLastBlock queue) snapshot)
  return ⟨fun | .mint => mints | .burn => burns, saveSnapshot snapshot run.newestBlock⟩

/-! ### The loop over the queue -/

section Queue
variable {degenbot} {lpData : Dict Address PoolRecord} {last : Option Nat} {queue : EventQueue}

theorem replayPool_eq_ok {snapshot snapshot' : Snapshot} {pool : Address}
    (h : replayPool degenbot lpData last queue snapshot pool = .ok snapshot') :
    (lpData.get? pool = none ∧ snapshot' = snapshot) ∨
      ∃ lp maps, lpData.get? pool = some lp ∧
        replayEntry degenbot lp last ((queue.get? pool).getD []) (snapshot.get? pool) = .ok maps ∧
        snapshot' = snapshot.set pool maps := by
  rw [replayPool] at h
  cases hlp : lpData.get? pool with
  | none =>
    rw [hlp] at h
    cases h
    exact .inl ⟨rfl, rfl⟩
  | some lp =>
    rw [hlp] at h
    obtain ⟨maps, hmaps, h⟩ := bind_eq_ok.mp h
    cases h
    exact .inr ⟨lp, maps, rfl, hmaps, rfl⟩

/-- A pool without events or without record is left as it is. -/
theorem replayPools_other {keys : List Address} {pool : Address}
    (hpool : pool ∉ keys ∨ lpData.get? pool = none) :
    ∀ {snapshot snapshot' : Snapshot},
      keys.foldlM (replayPool degenbot lpData last queue) snapshot = .ok snapshot' →
      snapshot'.get? pool = snapshot.get? pool := by
  induction keys with
  | nil =>
    intro snapshot snapshot' h
    cases h
    rfl
  | cons key keys ih =>
    intro snapshot snapshot' h
    rw [List.foldlM_cons] at h
    obtain ⟨next, hnext, hrest⟩ := bind_eq_ok.mp h
    have hkeys : pool ∉ keys ∨ lpData.get? pool = none :=
      hpool.imp_left fun hp hm => hp (List.mem_cons_of_mem key hm)
    rw [ih hkeys hrest]
    rcases replayPool_eq_ok hnext with ⟨_, rfl⟩ | ⟨lp, maps, hlp, _, rfl⟩
    · rfl
    · have hne : pool ≠ key := by
        intro he
        subst he
        rcases hpool with hp | hp
        · exact hp (List.mem_cons_self ..)
        · rw [hp] at hlp
          cases hlp
      rw [Dict.get?_set, if_neg hne]

/-- A listed pool that has events is replayed once. -/
theorem replayPools_listed {keys : List Address} (hnodup : keys.Nodup) {pool : Address}
    (hpool : pool ∈ keys) {lp : PoolRecord} (hlp : lpData.get? pool = some lp) :
    ∀ {snapshot snapshot' : Snapshot},
      keys.foldlM (replayPool degenbot lpData last queue) snapshot = .ok snapshot' →
      ∃ maps, replayEntry degenbot lp last ((queue.get? pool).getD []) (snapshot.get? pool) =
        .ok maps ∧ snapshot'.get? pool = some maps := by
  induction keys with
  | nil => cases hpool
  | cons key keys ih =>
    intro snapshot snapshot' h
    obtain ⟨hkey, hnodup⟩ := List.nodup_cons.mp hnodup
    rw [List.foldlM_cons] at h
    obtain ⟨next, hnext, hrest⟩ := bind_eq_ok.mp h
    rcases replayPool_eq_ok hnext with ⟨hnone, rfl⟩ | ⟨lp', maps, hlp', hmaps, rfl⟩
    · rcases List.mem_cons.mp hpool with rfl | hm
      · rw [hlp] at hnone
        cases hnone
      · exact ih hnodup hm hrest
    · rcases List.mem_cons.mp hpool with rfl | hm
      · cases hlp.symm.trans hlp'
        refine ⟨maps, hmaps, ?_⟩
        rw [replayPools_other (.inl hkey) hrest, Dict.get?_set_self]
      · have hne : pool ≠ key := fun he => hkey (he ▸ hm)
        have hlater := ih hnodup hm hrest
        rw [Dict.get?_set, if_neg hne] at hlater
        exact hlater

end Queue

variable {degenbot span logs}

theorem orRaise_eq_ok {α : Type} {e : Except PyError α} {a : α} :
    orRaise e = .ok a ↔ e = .ok a := by
  cases e <;> simp [orRaise]

/-- What a run that writes a snapshot has gone through. -/
theorem main_eq_ok {lpFiles : List (Option (List PoolRecord))} {file : Option SnapshotFile}
    {run : Run} {written : Written}
    (h : main degenbot span logs lpFiles file run = .ok written) :
    ∃ lps last snapshot snapshot', readLpFiles lpFiles = .ok lps ∧
      loadSnapshot file run.newestBlock = .ok (last, snapshot) ∧
      (∀ name, fetch span (logs name) run.newestBlock last (run.answers name) =
        .ok (written.fetched name)) ∧
      lps.flatten ≠ [] ∧
      written.queue.keys.foldlM (replayPool degenbot (loadLps lps) last written.queue) snapshot =
        .ok snapshot' ∧
      written.file = saveSnapshot snapshot' run.newestBlock := by
  obtain ⟨lps, hlps, h⟩ := bind_eq_ok.mp h
  obtain ⟨⟨last, snapshot⟩, hload, h⟩ := bind_eq_ok.mp h
  obtain ⟨mints, hmints, h⟩ := bind_eq_ok.mp h
  obtain ⟨burns, hburns, h⟩ := bind_eq_ok.mp h
  split at h
  · cases h
  rename_i hne
  obtain ⟨snapshot', hreplay, h⟩ := bind_eq_ok.mp h
  cases h
  refine ⟨lps, last, snapshot, snapshot', hlps, orRaise_eq_ok.mp hload, fun name => ?_,
    fun he => hne (by rw [he]; rfl), orRaise_eq_ok.mp hreplay, rfl⟩
  cases name
  · exact hmints
  · exact hburns

/-! ### The block a snapshot was saved at -/

def savedBlock (file : Option SnapshotFile) : Option Nat :=
  match file.bind fun json => json.get? .snapshotBlock with
  | some (.block n) => some n
  | _ => none

theorem savedBlock_saveSnapshot (snapshot : Snapshot) (newestBlock : Nat) :
    savedBlock (some (saveSnapshot snapshot newestBlock)) = some newestBlock := by
  rw [savedBlock, Option.bind_some, get?_saveSnapshot]

theorem loadSnapshot_block {file : Option SnapshotFile} {newestBlock : Nat} {last : Option Nat}
    {snapshot : Snapshot} (h : loadSnapshot file newestBlock = .ok (last, snapshot)) :
    last = savedBlock file ∧ ∀ block, last = some block → block < newestBlock := by
  unfold loadSnapshot at h
  cases file with
  | none =>
    cases h
    exact ⟨rfl, fun block hb => by cases hb⟩
  | some json =>
    rw [savedBlock, Option.bind_some]
    cases hget : json.get? .snapshotBlock with
    | none =>
      simp only [hget] at h
      cases h
    | some value =>
      simp only [hget] at h
      cases value with
      | maps _ => cases h
      | block n =>
        simp only at h
        split at h
        · rename_i hlt
          obtain ⟨_, _, h⟩ := bind_eq_ok.mp h
          cases h
          exact ⟨rfl, fun block hb => by cases hb; exact hlt⟩
        · cases h

theorem startBlock_some {block : Nat} (h : uniswapV3StartBlock ≤ block) :
    startBlock (some block) = block + 1 := by
  show max uniswapV3StartBlock (block + 1) = block + 1
  omega

theorem startBlock_le {last : Option Nat} {newestBlock : Nat}
    (hlast : ∀ block, last = some block → block < newestBlock)
    (h : uniswapV3StartBlock ≤ newestBlock) : startBlock last ≤ newestBlock := by
  cases last with
  | none => exact h
  | some block =>
    have := hlast block rfl
    show max uniswapV3StartBlock (block + 1) ≤ newestBlock
    omega

/-! ### All runs together -/

/-- What a run finds and meets. -/
structure Session where
  lpFiles : List (Option (List PoolRecord))
  run : Run

variable (degenbot span logs)

/-- Runs one after the other, each from the snapshot the one before has written. -/
def runAll (file : Option SnapshotFile) : List Session → Except Stop (List Written)
  | [] => .ok []
  | session :: rest => do
    let written ← main degenbot span logs session.lpFiles file session.run
    let later ← runAll (some written.file) rest
    return written :: later

/-- Requests that ask for every block from the start block to `newestBlock` once,
and whose events are what they were answered. -/
structure AskedOnce (log : EventLog LiquidityEvent.blockNumber) (asked : List Fetched)
    (newestBlock : Nat) : Prop where
  contiguous : (asked.flatMap Fetched.ranges).IsChain fun r r' => r'.fromBlock = r.toBlock + 1
  disjoint : (asked.flatMap Fetched.ranges).Pairwise fun r r' => ∀ n, ¬(r.Has n ∧ r'.Has n)
  cover : ∀ n, (∃ r ∈ asked.flatMap Fetched.ranges, r.Has n) ↔
    uniswapV3StartBlock ≤ n ∧ n ≤ newestBlock
  events : ∀ fetched ∈ asked, fetched.events =
    fetched.ranges.flatMap fun r => log.getLogs r.fromBlock r.toBlock

variable {degenbot span logs}

/-- One run's requests for either kind of event. -/
theorem main_tiles {lpFiles : List (Option (List PoolRecord))} {file : Option SnapshotFile}
    {run : Run} {written : Written}
    (h : main degenbot span logs lpFiles file run = .ok written)
    (hrun : uniswapV3StartBlock ≤ run.newestBlock) (name : EventName) :
    Tiles (written.fetched name).ranges (startBlock (savedBlock file)) (run.newestBlock + 1) ∧
      (written.fetched name).events =
        (written.fetched name).ranges.flatMap fun r => (logs name).getLogs r.fromBlock r.toBlock := by
  obtain ⟨_, last, _, _, _, hload, hfetch, _, _, _⟩ := main_eq_ok h
  obtain ⟨rfl, hlast⟩ := loadSnapshot_block hload
  exact fetch_tiles (startBlock_le hlast hrun) (hfetch name)

theorem main_savedBlock {lpFiles : List (Option (List PoolRecord))} {file : Option SnapshotFile}
    {run : Run} {written : Written}
    (h : main degenbot span logs lpFiles file run = .ok written) :
    savedBlock (some written.file) = some run.newestBlock := by
  obtain ⟨_, _, _, snapshot', _, _, _, _, _, hfile⟩ := main_eq_ok h
  rw [hfile, savedBlock_saveSnapshot]

/-- The runs' requests in order lie end to end too: each run starts at the block after
the one its predecessor has saved. -/
theorem runAll_tiles (name : EventName) (sessions : List Session) :
    ∀ (file : Option SnapshotFile) (written : List Written),
      runAll degenbot span logs file sessions = .ok written →
      (∀ session ∈ sessions, uniswapV3StartBlock ≤ session.run.newestBlock) →
      Tiles ((written.map (·.fetched name)).flatMap Fetched.ranges) (startBlock (savedBlock file))
        (match sessions.getLast? with
          | some session => session.run.newestBlock + 1
          | none => startBlock (savedBlock file)) ∧
      ∀ fetched ∈ written.map (·.fetched name), fetched.events =
        fetched.ranges.flatMap fun r => (logs name).getLogs r.fromBlock r.toBlock := by
  induction sessions with
  | nil =>
    intro file written h _
    cases h
    exact ⟨rfl, by simp⟩
  | cons session rest ih =>
    intro file written h hheights
    obtain ⟨w, hw, h⟩ := bind_eq_ok.mp h
    obtain ⟨later, hlater, h⟩ := bind_eq_ok.mp h
    cases h
    have hsession := hheights session (List.mem_cons_self ..)
    obtain ⟨htiles, hevents⟩ := main_tiles hw hsession name
    obtain ⟨hrest, hrestEvents⟩ := ih _ _ hlater fun s hs => hheights s (List.mem_cons_of_mem _ hs)
    rw [main_savedBlock hw, startBlock_some hsession] at hrest
    refine ⟨?_, ?_⟩
    · rw [List.map_cons, List.flatMap_cons]
      refine htiles.append ?_
      cases rest with
      | nil => exact hrest
      | cons s rest => exact hrest
    · intro fetched hf
      rcases List.mem_cons.mp hf with rfl | hf
      · exact hevents
      · exact hrestEvents fetched hf

/-- Over any completed runs at growing heights, whatever requests fail and whatever
the spans, every block from the start block to the last height is asked for once,
for Mint and for Burn, and failed requests add nothing. -/
theorem every_block_asked_once (degenbot : Degenbot) (span : SpanRule)
    (logs : EventName → EventLog LiquidityEvent.blockNumber) (sessions : List Session)
    (last : Session) (written : List Written)
    (h : runAll degenbot span logs none (sessions ++ [last]) = .ok written)
    (hheights : (sessions ++ [last]).Pairwise fun s s' => s.run.newestBlock < s'.run.newestBlock)
    (hfirst : ∀ first, (sessions ++ [last]).head? = some first →
      uniswapV3StartBlock ≤ first.run.newestBlock) (name : EventName) :
    AskedOnce (logs name) (written.map (·.fetched name)) last.run.newestBlock := by
  have hall : ∀ session ∈ sessions ++ [last], uniswapV3StartBlock ≤ session.run.newestBlock := by
    intro session hs
    cases hcases : sessions ++ [last] with
    | nil =>
      rw [hcases] at hs
      cases hs
    | cons first rest =>
      rw [hcases] at hs hheights
      have hf := hfirst first (by rw [hcases]; rfl)
      rcases List.mem_cons.mp hs with rfl | hs
      · exact hf
      · have := (List.pairwise_cons.mp hheights).1 session hs
        omega
  obtain ⟨htiles, hevents⟩ := runAll_tiles name _ _ _ h hall
  rw [List.getLast?_concat] at htiles
  refine ⟨htiles.contiguous, htiles.disjoint, fun n => ?_, hevents⟩
  rw [htiles.cover, Nat.lt_succ_iff]
  rfl

/-- The factors read as 3/4 and 21/20. -/
def exactSpan : SpanRule := ⟨fun n => 3 * n / 4, fun n => 21 * n / 20⟩

/-- A run over one listed pool, its first request for either kind of event failing. -/
def retriedSession (newestBlock : Nat) : Session where
  lpFiles := [some [⟨Address.fill 1, some 500, Address.fill 2, Address.fill 3, 900, none, .uniswapV3,
    "uniswap"⟩]]
  run := ⟨newestBlock, fun _ => [false, true, true, true]⟩

def noEvents : EventName → EventLog LiquidityEvent.blockNumber := fun _ => .ofHistory [] .nil

theorem every_block_asked_once_two_runs : ∃ written,
    runAll (tickAccounting true) exactSpan noEvents none
      ([retriedSession 1500] ++ [retriedSession 12000]) = .ok written ∧
    AskedOnce (noEvents .burn) (written.map (·.fetched .burn)) 12000 :=
  ⟨_, rfl, every_block_asked_once (tickAccounting true) exactSpan noEvents [retriedSession 1500]
    (retriedSession 12000) _ rfl (by decide) (by simp [retriedSession, uniswapV3StartBlock]) .burn⟩

end Main
end CreamBots.Builders.Liquidity
