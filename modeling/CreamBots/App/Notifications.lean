import CreamBots.App.AffectedArbs
import CreamBots.App.EventHandlers
import Mathlib.Data.List.Perm.Basic

/-! From the handlers to the arb finder.

A handler leaves a task behind that is to put the address of its pool into
`pools_to_process`; the tasks run in any order and `find_onchain_arbs` takes what is
there. However these steps are interleaved, an address is in exactly one place until it
is taken: each step moves it on (`Pipeline.Accounts.step`), so at every point the addresses
taken, queued and still to be put are those of the completed updates
(`no_notification_lost`). -/
namespace CreamBots.App
open Data Builders

variable {Topic σ τ Id : Type}

/-- The handlers and the finder, with the queue between them. -/
structure Pipeline (σ τ Id : Type) where
  handlers : HandlerState σ τ
  finder : Finder Id

namespace Pipeline

/-- A handler is called, one of the tasks runs, or the finder does a round. -/
inductive Step (Topic σ τ Id : Type) where
  | handle (call : Handling Topic σ τ)
  | runPut (i : Nat)
  | iterate (lookup : Address → Except PyError (List (UniswapLpCycle Id)))

/-- Nothing was handled yet. -/
def start (poolManagers : Dict Address TrackedPools) (helpers : Heap σ) (snapshot : τ) : Pipeline σ τ Id :=
  ⟨⟨poolManagers, helpers, snapshot, []⟩, .start⟩

/-- The i-th task puts its address. -/
def runPut (w : Pipeline σ τ Id) (i : Nat) : Pipeline σ τ Id :=
  match w.handlers.putTasks[i]? with
  | none => w
  | some poolAddress =>
    ⟨{w.handlers with putTasks := w.handlers.putTasks.eraseIdx i}, w.finder.put poolAddress⟩

section Run
variable (abi : EthAbi Topic)

def step (w : Pipeline σ τ Id) : Step Topic σ τ Id → Except PyError (Pipeline σ τ Id)
  | .handle call => .ok {w with handlers := call.next abi w.handlers}
  | .runPut i => .ok (w.runPut i)
  | .iterate lookup => do
    let finder ← w.finder.iteration lookup
    return {w with finder}

/-- The address of the pool, if a handler is called and completes its update. -/
def completed (w : Pipeline σ τ Id) : Step Topic σ τ Id → List Address
  | .handle call => call.completed abi w.handlers
  | .runPut _ => []
  | .iterate _ => []

/-- The state after some steps, and the addresses of the updates that were completed. -/
def run (w : Pipeline σ τ Id) : List (Step Topic σ τ Id) → Except PyError (Pipeline σ τ Id × List Address)
  | [] => .ok (w, [])
  | s :: rest => do
    let next ← w.step abi s
    let (last, addresses) ← next.run rest
    return (last, w.completed abi s ++ addresses)

end Run

/-- Dequeued, queued, and to be queued. -/
def notifications (w : Pipeline σ τ Id) : List Address :=
  w.finder.taken ++ w.finder.poolsToProcess ++ w.handlers.putTasks

/-- What every step keeps: the queue counts its items, and the notifications are those of
the completed updates. -/
structure Accounts (w : Pipeline σ τ Id) (addresses : List Address) : Prop where
  counted : w.finder.unfinished = w.finder.poolsToProcess.length
  notified : w.notifications.Perm addresses

variable {w : Pipeline σ τ Id} {addresses : List Address}

theorem Accounts.runPut (h : w.Accounts addresses) (i : Nat) : (w.runPut i).Accounts addresses := by
  unfold Pipeline.runPut
  cases hget : w.handlers.putTasks[i]? with
  | none => exact h
  | some poolAddress =>
    obtain ⟨hi, hget⟩ := List.getElem?_eq_some_iff.mp hget
    refine ⟨?_, .trans ?_ h.notified⟩
    · show w.finder.unfinished + 1 = (w.finder.poolsToProcess ++ [poolAddress]).length
      rw [h.counted, List.length_append, List.length_singleton]
    · show (w.finder.taken ++ (w.finder.poolsToProcess ++ [poolAddress]) ++
        w.handlers.putTasks.eraseIdx i).Perm w.notifications
      have hput : (poolAddress :: w.handlers.putTasks.eraseIdx i).Perm w.handlers.putTasks := by
        rw [← hget]
        exact List.getElem_cons_eraseIdx_perm hi
      rw [← List.append_assoc, List.append_assoc]
      exact hput.append_left _

/-- A round moves the first address from the queue to those taken, whatever its lookup
does. -/
theorem Accounts.iteration (h : w.Accounts addresses)
    (lookup : Address → Except PyError (List (UniswapLpCycle Id))) :
    ∃ finder, w.finder.iteration lookup = .ok finder ∧ Accounts {w with finder} addresses := by
  rw [Finder.iteration]
  cases hqueue : w.finder.poolsToProcess with
  | nil => exact ⟨w.finder, rfl, h⟩
  | cons poolAddress rest =>
    have hcount := h.counted
    rw [hqueue, List.length_cons] at hcount
    let got := {w.finder with poolsToProcess := rest, taken := w.finder.taken ++ [poolAddress]}
    let asked := got.createTask (lookup poolAddress)
    obtain ⟨hpools, hunfinished, htaken⟩ : asked.poolsToProcess = rest ∧
        asked.unfinished = w.finder.unfinished ∧ asked.taken = w.finder.taken ++ [poolAddress] :=
      Finder.createTask_queue ..
    refine ⟨{asked with unfinished := asked.unfinished - 1}, ?_, ?_, ?_⟩
    · exact if_neg (by rw [hunfinished]; omega)
    · show asked.unfinished - 1 = asked.poolsToProcess.length
      rw [hunfinished, hpools, hcount]
      rfl
    · have hsame : asked.taken ++ asked.poolsToProcess ++ w.handlers.putTasks = w.notifications := by
        rw [htaken, hpools, notifications, hqueue, List.append_assoc w.finder.taken]
        rfl
      show (asked.taken ++ asked.poolsToProcess ++ w.handlers.putTasks).Perm addresses
      rw [hsame]
      exact h.notified

theorem Accounts.handle (h : w.Accounts addresses) (abi : EthAbi Topic) (call : Handling Topic σ τ) :
    Accounts {w with handlers := call.next abi w.handlers}
      (addresses ++ call.completed abi w.handlers) := by
  refine ⟨h.counted, ?_⟩
  show (w.finder.taken ++ w.finder.poolsToProcess ++ (call.next abi w.handlers).putTasks).Perm _
  rw [call.putTasks_next, ← List.append_assoc]
  exact h.notified.append_right _

/-- No step raises, and what it completes is all that is added. -/
theorem Accounts.step (h : w.Accounts addresses) (abi : EthAbi Topic) (s : Step Topic σ τ Id) :
    ∃ next, w.step abi s = .ok next ∧ next.Accounts (addresses ++ w.completed abi s) := by
  cases s with
  | handle call => exact ⟨_, rfl, h.handle abi call⟩
  | runPut i =>
    refine ⟨_, rfl, ?_⟩
    rw [completed, List.append_nil]
    exact h.runPut i
  | iterate lookup =>
    obtain ⟨finder, hfinder, haccounts⟩ := h.iteration lookup
    refine ⟨_, bind_eq_ok.mpr ⟨finder, hfinder, rfl⟩, ?_⟩
    rw [completed, List.append_nil]
    exact haccounts

theorem Accounts.run (abi : EthAbi Topic) (steps : List (Step Topic σ τ Id)) :
    ∀ {w : Pipeline σ τ Id} {addresses : List Address}, w.Accounts addresses →
      ∃ last more, w.run abi steps = .ok (last, more) ∧ last.Accounts (addresses ++ more) := by
  induction steps with
  | nil =>
    intro w addresses h
    refine ⟨w, [], rfl, ?_⟩
    rw [List.append_nil]
    exact h
  | cons s rest ih =>
    intro w addresses h
    obtain ⟨next, hnext, haccounts⟩ := h.step abi s
    obtain ⟨last, more, hlast, haccounts⟩ := ih haccounts
    refine ⟨last, w.completed abi s ++ more, ?_, ?_⟩
    · exact bind_eq_ok.mpr ⟨next, hnext, bind_eq_ok.mpr ⟨(last, more), hlast, rfl⟩⟩
    · rw [← List.append_assoc]
      exact haccounts

end Pipeline

/-! ### What is completed -/

namespace Handling
variable {abi : EthAbi Topic} {call : Handling Topic σ τ} {s : HandlerState σ τ}

/-- An unknown pool. -/
theorem completed_of_unknown {found : HandlerState σ τ} (h : call.lookup s = (.ok none, found)) :
    call.completed abi s = [] := by
  simp [completed, updateStep, h]

/-- A Mint or a Burn without liquidity. -/
theorem completed_of_no_liquidity {decode : List UInt8 → Except PyError Nat} {tickLower tickUpper : Int}
    (hfunc : call.processFunc = .processMintEvent ∧ decode = abi.mint ∨
      call.processFunc = .processBurnEvent ∧ decode = abi.burn)
    (h : readLiquidity abi decode call.log = .ok (tickLower, tickUpper, 0)) :
    call.completed abi s = [] := by
  have hread : call.readUpdate abi = .ok none := by
    rcases hfunc with ⟨hfunc, rfl⟩ | ⟨hfunc, rfl⟩
    · simp [readUpdate, hfunc, readLiquidityUpdate, h]
    · simp [readUpdate, hfunc, readLiquidityUpdate, h]
  simp [completed, updateStep, hread]

end Handling

/-- **Addresses taken, queued and still to be put are those of the completed updates**,
at every point of every run; what is no completed update adds none. -/
theorem no_notification_lost (abi : EthAbi Topic) (poolManagers : Dict Address TrackedPools)
    (helpers : Heap σ) (snapshot : τ) (steps : List (Pipeline.Step Topic σ τ Id)) :
    (∃ (w : Pipeline σ τ Id) (addresses : List Address),
        (Pipeline.start poolManagers helpers snapshot).run abi steps = .ok (w, addresses) ∧
        (w.finder.taken ++ w.finder.poolsToProcess ++ w.handlers.putTasks).Perm addresses) ∧
      ∀ (call : Handling Topic σ τ) (s : HandlerState σ τ),
        ((∃ pool after, call.updateStep abi s = some (pool, (.ok (), after))) →
          call.completed abi s = [call.log.address]) ∧
        ((∃ pool e after, call.updateStep abi s = some (pool, (.error e, after))) →
          call.completed abi s = []) ∧
        ((∃ found, call.lookup s = (.ok none, found)) → call.completed abi s = []) ∧
        ∀ tickLower tickUpper,
          (call.processFunc = .processMintEvent ∧
              readLiquidity abi abi.mint call.log = .ok (tickLower, tickUpper, 0) ∨
            call.processFunc = .processBurnEvent ∧
              readLiquidity abi abi.burn call.log = .ok (tickLower, tickUpper, 0)) →
          call.completed abi s = [] := by
  refine ⟨?_, fun call s => ⟨?_, ?_, ?_, fun tickLower tickUpper => ?_⟩⟩
  · have hstart : (Pipeline.start poolManagers helpers snapshot : Pipeline σ τ Id).Accounts [] :=
      ⟨rfl, .refl _⟩
    obtain ⟨w, addresses, hrun, haccounts⟩ := Pipeline.Accounts.run abi steps hstart
    exact ⟨w, addresses, hrun, haccounts.notified⟩
  · intro hstep
    obtain ⟨pool, after, h⟩ := hstep
    rw [Handling.completed, h]
  · intro hstep
    obtain ⟨pool, e, after, h⟩ := hstep
    rw [Handling.completed, h]
  · intro hfound
    obtain ⟨found, h⟩ := hfound
    exact Handling.completed_of_unknown h
  · intro hcases
    rcases hcases with ⟨hfunc, h⟩ | ⟨hfunc, h⟩
    · exact Handling.completed_of_no_liquidity (.inl ⟨hfunc, rfl⟩) h
    · exact Handling.completed_of_no_liquidity (.inr ⟨hfunc, rfl⟩) h

end CreamBots.App
