import CreamBots.App.Reserves
import CreamBots.App.StartUp

/-! The reserves that the bot trades with, and those of the chain.

`load_pools` builds the helper of a V2 pool from the state after the block before the first
event, and the Syncs do the rest. A bot that has received the Syncs of the pool from the
first event on, those of each block in order and none from before, has the reserves that the
pool has on the chain (`started_bot_has_chain_reserves`). -/
namespace CreamBots.App
open Data Builders

variable {Topic σ τ Id : Type}

def Reserves.amounts (r : Reserves) : Nat × Nat := (r.reserves0, r.reserves1)

/-- What a pool has after these Syncs. -/
def chainReserves (history : List Reserves) : Nat × Nat :=
  match history.getLast? with
  | none => (0, 0)
  | some last => last.amounts

/-- A helper that is built for the pool has its reserves after the block, and the block. -/
def HelperCalls.BuildsReserves (degenbot : HelperCalls σ τ) (factoryOf : Address → Address)
    (reserves : σ → Option Reserves) (poolAddress : Address) (history : List Reserves) : Prop :=
  ∀ stateBlock helper, degenbot.Builds factoryOf stateBlock poolAddress helper →
    ∃ first, reserves helper = some first ∧ first.updateBlock = stateBlock ∧
      first.amounts = chainReserves (history.filter fun r => r.updateBlock ≤ stateBlock)

/-- The Syncs from the first event on make up for what the helper was built without. -/
theorem amounts_latest {history : List Reserves} {first : Reserves} {firstEvent : Nat}
    (hblock : first.updateBlock = firstEvent - 1)
    (hfirst : first.amounts =
      chainReserves (history.filter fun r => r.updateBlock ≤ firstEvent - 1))
    (hsorted : history.Pairwise fun r r' => r.updateBlock ≤ r'.updateBlock) :
    (latest Reserves.updateBlock first
      (history.filter fun r => firstEvent ≤ r.updateBlock)).amounts = chainReserves history := by
  induction history using List.reverseRecOn with
  | nil => exact hfirst
  | append_singleton before r _ =>
    have hbefore : ∀ r' ∈ before, r'.updateBlock ≤ r.updateBlock := fun r' hr' =>
      (List.pairwise_append.mp hsorted).2.2 r' hr' r (List.mem_singleton_self r)
    by_cases hr : firstEvent ≤ r.updateBlock
    · rw [List.filter_append, List.filter_cons_of_pos (by simpa using hr), List.filter_nil,
        latest_concat_of_le, chainReserves, List.getLast?_concat]
      intro r' hr'
      rcases List.mem_cons.mp hr' with rfl | hr'
      · omega
      · exact hbefore r' (List.mem_of_mem_filter hr')
    · -- The helper was built after the last Sync.
      have hearly : ∀ r' ∈ before ++ [r], r'.updateBlock ≤ firstEvent - 1 := by
        intro r' hr'
        rcases List.mem_append.mp hr' with hr' | hr'
        · have hle := hbefore r' hr'
          omega
        · rw [List.mem_singleton.mp hr']
          omega
      have hnone : (before ++ [r]).filter (fun r => firstEvent ≤ r.updateBlock) = [] := by
        rw [List.filter_eq_nil_iff]
        intro r' hr'
        have hle := hearly r' hr'
        rw [decide_eq_true_iff]
        omega
      have hall : (before ++ [r]).filter (fun r => r.updateBlock ≤ firstEvent - 1) = before ++ [r] :=
        List.filter_eq_self.mpr fun r' hr' => decide_eq_true (hearly r' hr')
      rw [hnone]
      rw [hall] at hfirst
      exact hfirst

/-- **A bot that has received the Syncs of a V2 pool has its reserves.** However the running
bot is interleaved, if no app state unsets the first event: once the bot has received the Syncs
from the first event on, those of each block in order, and none of an earlier block, the helper
that a cycle has of the pool is the managed one and has the reserves that the pool has on the
chain. -/
theorem started_bot_has_chain_reserves [DecidableEq Topic] [DecidableEq Id] (degenbot : HelperCalls σ τ)
    (factoryOf : Address → Address) (hlawful : degenbot.Lawful factoryOf)
    (reserves : σ → Option Reserves) (state : BotState Id) (helpers : Heap σ) (snapshot : τ)
    (hmanagers : state.poolManagers = createPoolManagers (degenbot.managerClasses factoryOf
      (newManagers state.chainData helpers snapshot)) state.chainData state.firstEvent)
    (hpools : state.allPools = Dict.empty) (harbs : state.allArbs = Dict.empty)
    (setOrder : List Address → List Address) (lpFiles : List (List PoolRecord))
    (arbPaths2 arbPaths3 : Dict Id (ArbPath Id)) (loaded : Loaded Id)
    (hloaded : loadPools setOrder state lpFiles arbPaths2 arbPaths3 = .ok loaded)
    (abi : EthAbi Topic) (events : Events Topic) (missed : List (Log Topic))
    (steps : List (LiveBot.Step Topic σ τ Id)) (hset : LiveBot.NeverUnset steps)
    (hsteps : ∀ degenbot, .receive degenbot ∈ steps →
      degenbot.Lawful factoryOf ∧ degenbot.TakesReserves reserves) :
    let s := (newManagers state.chainData helpers snapshot).made degenbot factoryOf
      (state.firstEvent - 1) loaded.botState.allPools.keys
    ∃ last : LiveBot Topic σ τ Id,
      (LiveBot.start missed state.firstEvent s.poolManagers s.helpers s.snapshot).after abi events
        loaded.botState.allArbs steps = .ok last ∧
      ∀ arb ∈ loaded.botState.allArbs.cycles, ∀ pool ∈ arb.swapPools, ∀ history : List Reserves,
        degenbot.BuildsReserves factoryOf reserves pool.address history →
        (history.Pairwise fun r r' => r.updateBlock ≤ r'.updateBlock) →
        IsV2 events pool.address last.creamEvents.received →
        (∀ block, ((syncs abi events pool.address last.creamEvents.received).filter fun r =>
            r.updateBlock = block) =
          (history.filter fun r => state.firstEvent ≤ r.updateBlock).filter fun r =>
            r.updateBlock = block) →
        helperOf factoryOf last.trading.pipeline.handlers.poolManagers pool.address = some pool ∧
          (reserves (last.trading.pipeline.handlers.helpers.get pool.object)).map Reserves.amounts =
            some (chainReserves history) := by
  intro s
  obtain ⟨hworking, last, hlast, hstart⟩ := exists_started
    (tracks_loaded hlawful hmanagers hpools hloaded) hloaded harbs abi events state.firstEvent missed steps
  refine ⟨last, hlast, fun arb harb pool hpool history hbuilds hsorted hv2 hsyncs => ?_⟩
  obtain ⟨hsees, hbuilt⟩ := hstart arb harb pool hpool
  obtain ⟨first, hfirst, hblock, hamounts⟩ := hbuilds _ _ hbuilt
  obtain ⟨hmanaged, hreserves⟩ := LiveBot.reserves_after hworking rfl
    (Option.some_ne_none state.firstEvent) hset hsees hsteps hlast hv2 hfirst
  refine ⟨hmanaged, ?_⟩
  rw [hreserves, Option.map_some, latest_congr hsyncs,
    amounts_latest hblock hamounts hsorted]

/-! ### Three Syncs of pool 1 -/

def threeSyncs : List Reserves := [⟨3, 4, 2⟩, ⟨5, 5, 5⟩, ⟨7, 7, 6⟩]

/-- Builds helpers with the reserves after the block. -/
def buildingReserves : HelperCalls Reserves Unit :=
  oneFactory (.fill 20)
    (fun _ stateBlock =>
      let block := (stateBlock.getD 0).toNat
      let amounts := chainReserves (threeSyncs.filter fun r => r.updateBlock ≤ block)
      ⟨amounts.1, amounts.2, block⟩)
    takingReserves.update takingReserves.updateSnapshot

theorem buildingReserves_builds (poolAddress : Address) :
    buildingReserves.BuildsReserves (fun _ => .fill 20) some poolAddress threeSyncs :=
  fun _ helper hbuilt => ⟨helper, rfl, by rw [oneFactory_builds hbuilt]; rfl,
    by rw [oneFactory_builds hbuilt]; rfl⟩

/-- The two Syncs from the first event on; that of block 6 comes before that of block 5. -/
def lastSyncs : List (LiveBot.Step Unit Reserves Unit (List UInt8)) :=
  [.publish ⟨.fill 1, 6, [()], [7, 7]⟩, .publish (syncAt 5), .receive takingReserves,
    .updateBotState (some (some 5)), .receive takingReserves]

theorem started_bot_has_chain_reserves_overtaken : ∃ (loaded : Loaded (List UInt8))
    (s : HandlerState Reserves Unit) (last : LiveBot Unit Reserves Unit (List UInt8)),
    loadPools id (managersMade buildingReserves (.fill 20) ⟨fun _ => ⟨0, 0, 0⟩, 0⟩ ())
      [[v2Pool 1 8, v2Pool 2 8]] (.ofList [(arbOfTwo.id, arbOfTwo)]) .empty = .ok loaded ∧
    (LiveBot.start [] 5 s.poolManagers s.helpers s.snapshot).after twoBytes onlySync
      loaded.botState.allArbs lastSyncs = .ok last ∧
    (last.trading.pipeline.handlers.helpers.get 0).amounts = (7, 7) := by
  have hlawful : ∀ degenbot, .receive degenbot ∈ lastSyncs →
      degenbot.Lawful (fun _ => .fill 20) ∧ degenbot.TakesReserves some := by
    intro degenbot hmem
    simp only [lastSyncs, List.mem_cons, List.not_mem_nil, or_false, reduceCtorEq, false_or,
      LiveBot.Step.receive.injEq, or_self] at hmem
    rw [hmem]
    exact ⟨oneFactory_lawful .., takingReserves_takes⟩
  obtain ⟨last, hlast, hpools⟩ := started_bot_has_chain_reserves buildingReserves (fun _ => .fill 20)
    (oneFactory_lawful ..) some (managersMade buildingReserves (.fill 20) ⟨fun _ => ⟨0, 0, 0⟩, 0⟩ ())
    ⟨fun _ => ⟨0, 0, 0⟩, 0⟩ () rfl rfl rfl id [[v2Pool 1 8, v2Pool 2 8]]
    (.ofList [(arbOfTwo.id, arbOfTwo)]) .empty _ rfl twoBytes onlySync [] lastSyncs (by simp [lastSyncs])
    hlawful
  refine ⟨_, _, last, rfl, hlast, ?_⟩
  cases hlast
  obtain ⟨_, hamounts⟩ := hpools
    (arbDetails stateBeforeLoading.chainData arbOfTwo [⟨.fill 1, 0⟩, ⟨.fill 2, 1⟩]).lpCycle
    (by decide) ⟨.fill 1, 0⟩ (by decide) threeSyncs (buildingReserves_builds _) (by decide)
    (onlySync_isV2 _ _) fun block => by
      -- The Syncs that were received, and those of the chain.
      show ([⟨7, 7, 6⟩, ⟨5, 5, 5⟩] : List Reserves).filter (fun r => r.updateBlock = block) =
        ([⟨5, 5, 5⟩, ⟨7, 7, 6⟩] : List Reserves).filter fun r => r.updateBlock = block
      by_cases h5 : block = 5
      · subst h5
        rfl
      · simp [List.filter_cons, Ne.symm h5]
  exact Option.some.inj hamounts

end CreamBots.App
