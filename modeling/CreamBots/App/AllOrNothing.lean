import CreamBots.App.PoolIdentity

/-! Whether a Mint or a Burn is handled all or nothing.

The helper and the snapshot are updated in one `try`, the helper first. A log is
*handled* when both calls complete and a task for the address is created, and leaves
the state *untouched* when helper, snapshot and tasks stay as they were. A call that
raises changes nothing by itself, but if it is that of `update_snapshot`, the helper
has been changed before and is not changed back: this is the only way in which a log
is neither handled nor without effect (`all_or_nothing_iff`). -/
namespace CreamBots.App
open Data Builders

variable {Topic σ τ : Type}

/-- A call that raises leaves its own object unchanged. -/
structure HelperCalls.RaisesClean (degenbot : HelperCalls σ τ) : Prop where
  update : ∀ {update helper e helper'}, degenbot.update update helper = (.error e, helper') →
    helper' = helper
  updateSnapshot : ∀ {eventAddress helper snapshot e snapshot'},
    degenbot.updateSnapshot eventAddress helper snapshot = (.error e, snapshot') →
      snapshot' = snapshot

namespace Handling

section Liquidity
variable (abi : EthAbi Topic)

/-- A Mint or a Burn with liquidity in it, and the update that it stands for. -/
inductive LiquidityLog (call : Handling Topic σ τ) : PoolUpdate → Prop where
  | mint {tickLower tickUpper : Int} {liquidity : Nat} (hfunc : call.processFunc = .processMintEvent)
    (hread : readLiquidity abi abi.mint call.log = .ok (tickLower, tickUpper, liquidity))
    (hliquidity : liquidity ≠ 0) :
    LiquidityLog call (.liquidityChange call.log.blockNumber liquidity tickLower tickUpper)
  | burn {tickLower tickUpper : Int} {liquidity : Nat} (hfunc : call.processFunc = .processBurnEvent)
    (hread : readLiquidity abi abi.burn call.log = .ok (tickLower, tickUpper, liquidity))
    (hliquidity : liquidity ≠ 0) :
    LiquidityLog call (.liquidityChange call.log.blockNumber (-liquidity) tickLower tickUpper)

/-- The helper is what the update makes of it, its maps are recorded in the snapshot, and
a task for the address is created. -/
def Handled (call : Handling Topic σ τ) (s found : HandlerState σ τ) (pool : Pool)
    (update : PoolUpdate) : Prop :=
  ∃ helper snapshot,
    call.degenbot.update update (found.helpers.get pool.object) = (.ok (), helper) ∧
    call.degenbot.updateSnapshot call.log.address helper s.snapshot = (.ok (), snapshot) ∧
    (call.next abi s).helpers.get pool.object = helper ∧
    (call.next abi s).snapshot = snapshot ∧
    (call.next abi s).putTasks = s.putTasks ++ [call.log.address]

/-- The helper is as it was found, the snapshot as it was, and there is no new task. -/
def Untouched (call : Handling Topic σ τ) (s found : HandlerState σ τ) (pool : Pool) : Prop :=
  (call.next abi s).helpers.get pool.object = found.helpers.get pool.object ∧
    (call.next abi s).snapshot = s.snapshot ∧ (call.next abi s).putTasks = s.putTasks

/-- The helper can be updated, and is changed by it, but the snapshot cannot. -/
def HalfDone (call : Handling Topic σ τ) (s found : HandlerState σ τ) (pool : Pool)
    (update : PoolUpdate) : Prop :=
  ∃ helper e snapshot,
    call.degenbot.update update (found.helpers.get pool.object) = (.ok (), helper) ∧
    helper ≠ found.helpers.get pool.object ∧
    call.degenbot.updateSnapshot call.log.address helper s.snapshot = (.error e, snapshot)

variable {abi} {call : Handling Topic σ τ} {s found : HandlerState σ τ} {pool : Pool}
  {update : PoolUpdate}

theorem LiquidityLog.readUpdate (h : LiquidityLog abi call update) :
    call.readUpdate abi = .ok (some update) := by
  cases h with
  | mint hfunc hread hliquidity =>
    rw [Handling.readUpdate, hfunc]
    simp only [readLiquidityUpdate, hread, if_neg hliquidity, one_mul]
  | burn hfunc hread hliquidity =>
    rw [Handling.readUpdate, hfunc]
    simp only [readLiquidityUpdate, hread, if_neg hliquidity, Int.neg_mul, Int.one_mul]

theorem LiquidityLog.attempt (h : LiquidityLog abi call update) :
    call.attempt = HandlerState.updateAndRecord call.degenbot call.log.address := by
  cases h with
  | mint hfunc _ _ => rw [Handling.attempt, hfunc]
  | burn hfunc _ _ => rw [Handling.attempt, hfunc]

/-- The update step of such a log, on the helper that is found. -/
theorem LiquidityLog.updateStep (h : LiquidityLog abi call update)
    (hfound : call.lookup s = (.ok (some pool), found)) :
    call.updateStep abi s =
      some (pool, found.updateAndRecord call.degenbot call.log.address pool update) := by
  refine updateStep_eq_some.mpr ⟨update, found, h.readUpdate, hfound, ?_⟩
  rw [h.attempt]

/-- The lookup itself touches neither the snapshot nor the tasks. -/
theorem found_frame (hfound : call.lookup s = (.ok (some pool), found)) :
    found.snapshot = s.snapshot ∧ found.putTasks = s.putTasks := by
  obtain ⟨poolManagers, helpers, hframe⟩ := call.lookup_frame s
  rw [hfound] at hframe
  subst hframe
  exact ⟨rfl, rfl⟩

/-- An exception goes on from the state that the update step has left. -/
theorem next_of_error {after : HandlerState σ τ} {e : PyError}
    (h : call.updateStep abi s = some (pool, (.error e, after))) :
    (call.next abi s).helpers = after.helpers ∧ (call.next abi s).snapshot = after.snapshot ∧
      (call.next abi s).putTasks = after.putTasks := by
  obtain ⟨poolManagers, hframe⟩ := call.onError_frame pool e after
  rw [next_of_failed h, hframe]
  exact ⟨rfl, rfl, rfl⟩

end Liquidity

/-! ### The three ways through the `try` -/

section Outcomes
variable {abi : EthAbi Topic} {call : Handling Topic σ τ} {s found : HandlerState σ τ} {pool : Pool}
  {update : PoolUpdate} {helper : σ} {snapshot : τ}

/-- The helper cannot be updated. -/
theorem LiquidityLog.untouched (hlog : LiquidityLog abi call update)
    (hfound : call.lookup s = (.ok (some pool), found)) (hclean : call.degenbot.RaisesClean)
    {e : PyError}
    (hupdate : call.degenbot.update update (found.helpers.get pool.object) = (.error e, helper)) :
    Untouched abi call s found pool := by
  have hstep := hlog.updateStep hfound
  rw [HandlerState.updateAndRecord, HandlerState.externalUpdate, hupdate] at hstep
  obtain ⟨hhelpers, hsnapshot, htasks⟩ := next_of_error hstep
  obtain ⟨hsnapshot', htasks'⟩ := found_frame hfound
  rw [Untouched, hhelpers, hsnapshot, htasks, hclean.update hupdate]
  exact ⟨Heap.get_write_self .., hsnapshot', htasks'⟩

/-- The helper is updated, the snapshot cannot be. -/
theorem LiquidityLog.notRecorded (hlog : LiquidityLog abi call update)
    (hfound : call.lookup s = (.ok (some pool), found)) (hclean : call.degenbot.RaisesClean)
    (hupdate : call.degenbot.update update (found.helpers.get pool.object) = (.ok (), helper))
    {e : PyError}
    (hrecord : call.degenbot.updateSnapshot call.log.address helper s.snapshot = (.error e, snapshot)) :
    (call.next abi s).helpers.get pool.object = helper ∧ (call.next abi s).snapshot = s.snapshot ∧
      (call.next abi s).putTasks = s.putTasks := by
  obtain ⟨hsnapshot', htasks'⟩ := found_frame hfound
  have hstep := hlog.updateStep hfound
  rw [HandlerState.updateAndRecord, HandlerState.externalUpdate, hupdate] at hstep
  simp only [HandlerState.updateSnapshot, Heap.get_write_self, hsnapshot', hrecord] at hstep
  obtain ⟨hhelpers, hsnapshot, htasks⟩ := next_of_error hstep
  rw [hhelpers, hsnapshot, htasks, hclean.updateSnapshot hrecord]
  exact ⟨Heap.get_write_self .., rfl, htasks'⟩

/-- Both calls complete. -/
theorem LiquidityLog.handled (hlog : LiquidityLog abi call update)
    (hfound : call.lookup s = (.ok (some pool), found))
    (hupdate : call.degenbot.update update (found.helpers.get pool.object) = (.ok (), helper))
    (hrecord : call.degenbot.updateSnapshot call.log.address helper s.snapshot = (.ok (), snapshot)) :
    Handled abi call s found pool update := by
  obtain ⟨hsnapshot', htasks'⟩ := found_frame hfound
  have hstep := hlog.updateStep hfound
  rw [HandlerState.updateAndRecord, HandlerState.externalUpdate, hupdate] at hstep
  simp only [HandlerState.updateSnapshot, Heap.get_write_self, hsnapshot', hrecord] at hstep
  refine ⟨helper, snapshot, hupdate, hrecord, ?_⟩
  rw [next_of_completed hstep]
  refine ⟨Heap.get_write_self .., rfl, ?_⟩
  rw [← htasks']
  rfl

end Outcomes
end Handling

/-- **A Mint or a Burn is handled all or nothing exactly if `update_snapshot` does not
raise once the helper has been changed.** -/
theorem all_or_nothing_iff (abi : EthAbi Topic) (call : Handling Topic σ τ)
    (s found : HandlerState σ τ) (pool : Pool) (update : PoolUpdate)
    (hclean : call.degenbot.RaisesClean) (hlog : call.LiquidityLog abi update)
    (hfound : call.lookup s = (.ok (some pool), found)) :
    call.Handled abi s found pool update ∨ call.Untouched abi s found pool ↔
      ¬call.HalfDone s found pool update := by
  constructor
  · intro hdone hhalf
    obtain ⟨helper, e, snapshot, hupdate, hchanged, hrecord⟩ := hhalf
    rcases hdone with ⟨helper', _, hupdate', hrecord', _⟩ | ⟨hhelper, _⟩
    · -- The same two calls cannot both raise and complete.
      rw [hupdate] at hupdate'
      cases hupdate'
      rw [hrecord] at hrecord'
      cases hrecord'
    · rw [(hlog.notRecorded hfound hclean hupdate hrecord).1] at hhelper
      exact hchanged hhelper
  · intro hhalf
    rcases hupdate : call.degenbot.update update (found.helpers.get pool.object) with ⟨e | _, helper⟩
    · exact .inr (hlog.untouched hfound hclean hupdate)
    · rcases hrecord : call.degenbot.updateSnapshot call.log.address helper s.snapshot with
        ⟨e | _, snapshot⟩
      · refine .inr ?_
        have hunchanged : helper = found.helpers.get pool.object := by
          by_contra hchanged
          exact hhalf ⟨helper, e, snapshot, hupdate, hchanged, hrecord⟩
        rw [Handling.Untouched, ← hunchanged]
        exact hlog.notRecorded hfound hclean hupdate hrecord
      · exact .inl (hlog.handled hfound hupdate hrecord)

/-! ### A Mint of pool 1 -/

/-- Helpers and snapshot count their updates; those of the snapshot end like this. -/
def recordsEnd (outcome : Except PyError Unit) : HelperCalls Nat Nat :=
  oneFactory (.fill 20) (fun _ _ => 0) (fun _ helper => (.ok (), helper + 1)) fun _ _ snapshot =>
    (outcome, match outcome with
      | .ok _ => snapshot + 1
      | .error _ => snapshot)

theorem recordsEnd_raisesClean (outcome : Except PyError Unit) : (recordsEnd outcome).RaisesClean where
  update h := by cases h
  updateSnapshot h := by
    cases outcome with
    | ok _ => cases h
    | error e =>
      cases h
      rfl

/-- The helper of pool 1 and a snapshot, both not updated yet. -/
def withPool1 : HandlerState Nat Nat where
  poolManagers := .ofList [(.fill 20, .ofList [(.fill 1, ⟨.fill 1, 0⟩)])]
  helpers := ⟨fun _ => 0, 1⟩
  snapshot := 0
  putTasks := []

def mintOfPool1 (outcome : Except PyError Unit) : Handling Unit Nat Nat :=
  ⟨.processMintEvent, logOfPool1, recordsEnd outcome⟩

theorem mintOfPool1_liquidity (outcome : Except PyError Unit) :
    (mintOfPool1 outcome).LiquidityLog someLiquidity (.liquidityChange 100 1 0 0) :=
  .mint rfl rfl Nat.one_ne_zero

/-- The Mint is in the helper, not in the snapshot, and no task is created. -/
theorem helper_changed_only : ¬∀ (abi : EthAbi Unit) (call : Handling Unit Nat Nat)
    (s found : HandlerState Nat Nat) (pool : Pool) (update : PoolUpdate),
    call.degenbot.RaisesClean → call.LiquidityLog abi update →
    call.lookup s = (.ok (some pool), found) →
      call.Handled abi s found pool update ∨ call.Untouched abi s found pool := by
  intro h
  rcases h someLiquidity (mintOfPool1 (.error .keyError)) withPool1 withPool1 ⟨.fill 1, 0⟩
    (.liquidityChange 100 1 0 0) (recordsEnd_raisesClean _) (mintOfPool1_liquidity _) rfl with
    ⟨_, _, _, _, _, _, htasks⟩ | ⟨hhelper, _⟩
  · exact absurd htasks (by decide)
  · exact absurd hhelper (by decide)

/-- With a snapshot that can be updated all is done. -/
theorem all_or_nothing_iff_mint : (mintOfPool1 (.ok ())).Handled someLiquidity withPool1 withPool1
      ⟨.fill 1, 0⟩ (.liquidityChange 100 1 0 0) ∨
    (mintOfPool1 (.ok ())).Untouched someLiquidity withPool1 withPool1 ⟨.fill 1, 0⟩ := by
  refine (all_or_nothing_iff someLiquidity (mintOfPool1 (.ok ())) withPool1 withPool1 ⟨.fill 1, 0⟩
    (.liquidityChange 100 1 0 0) (recordsEnd_raisesClean _) (mintOfPool1_liquidity _) rfl).mpr ?_
  intro hhalf
  obtain ⟨helper, e, snapshot, _, _, hrecord⟩ := hhalf
  cases hrecord

end CreamBots.App
