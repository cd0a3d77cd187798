import CreamBots.Builders.Liquidity.Fetcher
import Mathlib.Logic.Function.Iterate

/-! How long the requests of the liquidity fetcher are.

A failed request is asked again with three quarters of the span, a successful one lets
the next be a twentieth longer, both rounded down. Below 20 a twentieth is nothing, so
from there no number of successes makes the span larger: it recovers from a burst of
failures exactly if the burst has left 20 or more (`span_recovers_iff`,
`span_stays_small`). -/
namespace CreamBots.Builders.Liquidity
open Data

/-! ### Where the loop stands -/

/-- The two variables that `while not done` goes by. -/
structure Cursor where
  startBlock : Nat
  blockSpan : Nat
deriving DecidableEq

namespace Cursor

/-- Before the first request for a kind of event. -/
def start (snapshotLastBlock : Option Nat) : Cursor :=
  ⟨Liquidity.startBlock snapshotLastBlock, initialBlockSpan⟩

section Loop
variable (span : SpanRule) (newestBlock : Nat)

/-- One round, for a request that fails or succeeds; none when it was the last. -/
def next (cursor : Cursor) : Bool → Option Cursor
  | false => some {cursor with blockSpan := span.shrink cursor.blockSpan}
  | true =>
    let endBlock := min newestBlock (cursor.startBlock + cursor.blockSpan)
    if endBlock = newestBlock then none else some ⟨endBlock + 1, span.grow cursor.blockSpan⟩

def after (cursor : Cursor) (answers : List Bool) : Option Cursor :=
  answers.foldlM (fun cursor answer => cursor.next span newestBlock answer) cursor

/-- In the run of these answers a request succeeds and leaves blocks to fetch: where the
loop stands at it and after it. -/
def LeavesBlocks (first : Cursor) (answers : List Bool) (cursor later : Cursor) : Prop :=
  ∃ earlier rest, answers = earlier ++ true :: rest ∧
    first.after span newestBlock earlier = some cursor ∧
    cursor.next span newestBlock true = some later

variable {span newestBlock}

/-- The loop goes on from there. -/
theorem fetchLoop_after {log : EventLog LiquidityEvent.blockNumber} (answers rest : List Bool) :
    ∀ {cursor later : Cursor} (fetched : Fetched), cursor.after span newestBlock answers = some later →
      ∃ fetched', fetchLoop span log newestBlock (answers ++ rest) cursor.startBlock
          cursor.blockSpan fetched =
        fetchLoop span log newestBlock rest later.startBlock later.blockSpan fetched' := by
  induction answers with
  | nil =>
    intro cursor later fetched h
    cases h
    exact ⟨fetched, rfl⟩
  | cons answer answers ih =>
    intro cursor later fetched h
    obtain ⟨middle, hmiddle, hrest⟩ := Option.bind_eq_some_iff.mp h
    cases answer with
    | false =>
      cases hmiddle
      exact ih fetched hrest
    | true =>
      have hmiddle : cursor.next span newestBlock true = some middle := hmiddle
      rw [next] at hmiddle
      split at hmiddle
      · cases hmiddle
      · rename_i hend
        cases hmiddle
        rw [List.cons_append, fetchLoop, if_neg hend]
        exact ih _ hrest

theorem next_true_eq_some {cursor later : Cursor} (h : cursor.next span newestBlock true = some later) :
    later.blockSpan = span.grow cursor.blockSpan := by
  rw [next] at h
  split at h
  · cases h
  · cases h
    rfl

/-- Failures shrink the span one by one. -/
theorem blockSpan_failures (failures : Nat) : ∀ {cursor later : Cursor},
    cursor.after span newestBlock (List.replicate failures false) = some later →
      later.blockSpan = span.shrink^[failures] cursor.blockSpan := by
  induction failures with
  | zero =>
    intro cursor later h
    cases h
    rfl
  | succ failures ih =>
    intro cursor later h
    exact ih h

/-- Successes let it grow. -/
theorem blockSpan_successes (successes : Nat) : ∀ {cursor later : Cursor},
    cursor.after span newestBlock (List.replicate successes true) = some later →
      later.blockSpan = span.grow^[successes] cursor.blockSpan := by
  induction successes with
  | zero =>
    intro cursor later h
    cases h
    rfl
  | succ successes ih =>
    intro cursor later h
    obtain ⟨middle, hmiddle, hrest⟩ := Option.bind_eq_some_iff.mp h
    rw [Function.iterate_succ_apply, ← next_true_eq_some hmiddle]
    exact ih hrest

theorem blockSpan_burst {failures successes : Nat} {cursor later : Cursor}
    (h : cursor.after span newestBlock
      (List.replicate failures false ++ List.replicate successes true) = some later) :
    later.blockSpan = span.grow^[successes] (span.shrink^[failures] cursor.blockSpan) := by
  rw [after, List.foldlM_append] at h
  obtain ⟨low, hlow, hlater⟩ := Option.bind_eq_some_iff.mp h
  rw [blockSpan_successes successes hlater, blockSpan_failures failures hlow]

end Loop
end Cursor

/-! ### The rule with its factors read exactly -/

/-- A twentieth of less than 20 is nothing. -/
theorem lt_grow_iff {n : Nat} : n < exactSpan.grow n ↔ 20 ≤ n := by
  show n < 21 * n / 20 ↔ 20 ≤ n
  omega

theorem grow_of_small {n : Nat} (h : n < 20) : exactSpan.grow n = n := by
  show 21 * n / 20 = n
  omega

theorem grow_iterate_of_small {n : Nat} (h : n < 20) (successes : Nat) :
    exactSpan.grow^[successes] n = n :=
  Function.iterate_fixed (grow_of_small h) successes

/-- From 20 on each success adds a block at least. -/
theorem add_le_grow_iterate {n : Nat} (h : 20 ≤ n) (successes : Nat) :
    n + successes ≤ exactSpan.grow^[successes] n := by
  induction successes with
  | zero => exact Nat.le_refl n
  | succ successes ih =>
    rw [Function.iterate_succ_apply']
    have hgrow := lt_grow_iff.mpr ((h.trans (Nat.le_add_right n successes)).trans ih)
    omega

/-- What was lost is regained exactly if nothing was lost or 20 are left. -/
theorem regains_iff {low span : Nat} :
    (∀ value < span, ∃ successes, value < exactSpan.grow^[successes] low) ↔ 20 ≤ low ∨ span ≤ low := by
  constructor
  · intro h
    by_cases hlow : 20 ≤ low
    · exact .inl hlow
    · refine .inr (Nat.le_of_not_lt fun hlost => ?_)
      obtain ⟨successes, hgrown⟩ := h low hlost
      rw [grow_iterate_of_small (Nat.lt_of_not_le hlow)] at hgrown
      exact Nat.lt_irrefl low hgrown
  · intro hleft value hvalue
    rcases hleft with hlow | hlow
    · refine ⟨value + 1, ?_⟩
      have hgrown := add_le_grow_iterate hlow (value + 1)
      omega
    · exact ⟨0, Nat.lt_of_lt_of_le hvalue hlow⟩

/-- **The span recovers exactly where it is at least 20**: in every run a success that
leaves blocks makes it larger just then, and after a burst of failures successes bring
it back above what it was before just if the burst left as much. -/
theorem span_recovers_iff (newestBlock : Nat) (snapshotLastBlock : Option Nat) (answers : List Bool) :
    ((∀ cursor later, Cursor.LeavesBlocks exactSpan newestBlock (.start snapshotLastBlock) answers
          cursor later → cursor.blockSpan < later.blockSpan) ↔
      ∀ cursor later, Cursor.LeavesBlocks exactSpan newestBlock (.start snapshotLastBlock) answers
          cursor later → 20 ≤ cursor.blockSpan) ∧
    ∀ cursor, (Cursor.start snapshotLastBlock).after exactSpan newestBlock answers = some cursor →
      ∀ failures,
        ((∀ value < cursor.blockSpan, ∃ successes,
            value < exactSpan.grow^[successes] (exactSpan.shrink^[failures] cursor.blockSpan)) ↔
          20 ≤ exactSpan.shrink^[failures] cursor.blockSpan ∨
            cursor.blockSpan ≤ exactSpan.shrink^[failures] cursor.blockSpan) ∧
        ∀ successes later, cursor.after exactSpan newestBlock
            (List.replicate failures false ++ List.replicate successes true) = some later →
          later.blockSpan = exactSpan.grow^[successes] (exactSpan.shrink^[failures] cursor.blockSpan) := by
  refine ⟨forall₃_congr fun cursor later hleaves => ?_, fun cursor _ failures =>
    ⟨regains_iff, fun successes later => Cursor.blockSpan_burst⟩⟩
  obtain ⟨_, _, _, _, hlater⟩ := hleaves
  rw [Cursor.next_true_eq_some hlater]
  exact lt_grow_iff

/-- 22 failures leave a span of 16, and a success leaves it at that. -/
theorem span_stays_small : ¬∀ (newestBlock : Nat) (snapshotLastBlock : Option Nat) (answers : List Bool)
    (cursor later : Cursor), Cursor.LeavesBlocks exactSpan newestBlock (.start snapshotLastBlock)
      answers cursor later → cursor.blockSpan < later.blockSpan := by
  intro h
  have hstays := h 2000 none (List.replicate 22 false ++ [true]) ⟨1000, 16⟩ ⟨1017, 16⟩
    ⟨List.replicate 22 false, [], rfl, by decide, by decide⟩
  exact absurd hstays (Nat.lt_irrefl 16)

end CreamBots.Builders.Liquidity
