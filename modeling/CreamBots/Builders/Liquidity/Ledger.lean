import CreamBots.Builders.Liquidity.Fetcher

/-! Tick maps that reflect a ledger.

The ledger of a pool is the list of updates it has been through since its maps were
empty. Maps `Reflect` a ledger when each tick is the account its postings leave and
has its bit. A ledger determines its maps (`Reflects.agrees`); replaying updates
extends it, while merging, writing and loading leave it alone. The fetcher's ledger
and the chain's, which differ in the order inside a transaction, are reflected by the
same maps on any history a pool can have (`Reflects.chain_order`). -/
namespace CreamBots.Builders.Liquidity
open Data

structure Reflects (tickSpacing : Nat) (maps : TickMaps) (ledger : List ExternalUpdate) : Prop where
  ticks : ∀ tick, maps.tickData.get? tick =
    Account.postAll LiquidityAtTick.Unreferenced none (postings ledger tick)
  bits : BitsMatch tickSpacing maps

/-- The same ticks, and the same words that have bits. -/
structure Agrees (maps maps' : TickMaps) : Prop where
  tickData : ∀ tick, maps.tickData.get? tick = maps'.tickData.get? tick
  tickBitmap : ∀ w, maps.tidy.tickBitmap.get? w = maps'.tidy.tickBitmap.get? w

theorem TickMaps.get?_tidy (maps : TickMaps) (w : Int) :
    maps.tidy.tickBitmap.get? w = if maps.word w = 0 then none else some ⟨maps.word w⟩ := by
  rw [tidy, Dict.get?_filterValues, word]
  cases maps.tickBitmap.get? w with
  | none => rfl
  | some value =>
    rw [Option.filter_some, Option.map_some, Option.getD_some]
    by_cases h : value.bitmap = 0
    · simp [h]
    · simp [h]

theorem TickMaps.word_tidy (maps : TickMaps) (w : Int) : maps.tidy.word w = maps.word w := by
  have h := maps.get?_tidy w
  rw [word, h]
  split
  · rename_i hzero
    exact hzero.symm
  · rfl

/-- A pool's helper before any update. -/
def freshHelper (fee tickSpacing : Nat) : Helper := poolHelper none TickMaps.empty fee tickSpacing

namespace Reflects
variable {tickSpacing : Nat} {maps maps' : TickMaps} {ledger : List ExternalUpdate}

theorem empty (tickSpacing : Nat) : Reflects tickSpacing TickMaps.empty [] :=
  ⟨fun _ => rfl, bitsMatch_empty tickSpacing⟩

/-- Reading the same is reflecting the same. -/
theorem congr (h : Reflects tickSpacing maps ledger)
    (hticks : ∀ tick, maps'.tickData.get? tick = maps.tickData.get? tick)
    (hwords : ∀ w, maps'.word w = maps.word w) : Reflects tickSpacing maps' ledger := by
  refine ⟨fun tick => (hticks tick).trans (h.ticks tick), fun w bit => ?_⟩
  rw [hwords, h.bits w bit, ticksAt_congr hticks]

theorem tidy (h : Reflects tickSpacing maps ledger) : Reflects tickSpacing maps.tidy ledger :=
  h.congr (fun _ => rfl) maps.word_tidy

theorem agrees (h : Reflects tickSpacing maps ledger) (h' : Reflects tickSpacing maps' ledger) :
    Agrees maps maps' := by
  have hticks : ∀ tick, maps.tickData.get? tick = maps'.tickData.get? tick :=
    fun tick => (h.ticks tick).trans (h'.ticks tick).symm
  refine ⟨hticks, fun w => ?_⟩
  rw [TickMaps.get?_tidy, TickMaps.get?_tidy, h.bits.word_eq h'.bits hticks]

variable {degenbot : Degenbot} {helper : Helper}

theorem replay (h : Reflects helper.tickSpacing helper.maps ledger)
    (updates : List ExternalUpdate) :
    Reflects helper.tickSpacing (replay degenbot helper updates).maps (ledger ++ updates) := by
  refine ⟨fun tick => ?_, bitsMatch_replay helper updates h.bits⟩
  have hhelper : helper.tickData.get? tick = _ := h.ticks tick
  show (Liquidity.replay degenbot helper updates).tickData.get? tick = _
  rw [get?_replay, hhelper, postings_append, Account.postAll_append]

theorem fromScratch (fee tickSpacing : Nat) (updates : List ExternalUpdate) :
    Reflects tickSpacing (Liquidity.replay degenbot (freshHelper fee tickSpacing) updates).maps
      updates := by
  have h : Reflects (freshHelper fee tickSpacing).tickSpacing (freshHelper fee tickSpacing).maps [] :=
    empty tickSpacing
  exact h.replay updates

/-- Merged in place, or where there was no entry, the entry is the helper's maps. -/
theorem merge (h : Reflects tickSpacing helper.maps ledger) (hplace : degenbot.inPlace = true)
    (entry : Option TickMaps) : Reflects tickSpacing (merge degenbot entry helper) ledger := by
  have hor : ∀ {α : Type} (x : Option α), x.or x = x := fun x => by cases x <;> rfl
  cases entry with
  | none =>
    refine h.congr (fun tick => ?_) fun w => ?_
    · exact (Dict.get?_update ..).trans Option.or_none
    · show ((Dict.get? (Dict.update _ _) w).map _).getD 0 = _
      rw [Dict.get?_update, TickMaps.empty, Dict.get?_empty, Option.or_none]
      rfl
  | some maps =>
    rw [Liquidity.merge]
    simp only [hplace, if_true]
    refine h.congr (fun tick => ?_) fun w => ?_
    · exact (Dict.get?_update ..).trans (hor _)
    · show ((Dict.get? (Dict.update helper.tickBitmap helper.tickBitmap) w).map _).getD 0 = _
      rw [Dict.get?_update, hor]
      rfl

/-- Where the chain's own replay never goes negative and empties ticks clean, the maps
of the fetcher's order are the maps of the chain's. -/
theorem chain_order {fee : Nat} {pool : Address} {events : List LiquidityEvent}
    (h : Reflects tickSpacing maps (fetchUpdates pool events)) (horder : ChainOrdered events)
    (hnonneg : NeverNegative degenbot (freshHelper fee tickSpacing) (chainUpdates pool events))
    (hclean : EmptiesClean degenbot (freshHelper fee tickSpacing) (chainUpdates pool events)) :
    Reflects tickSpacing maps (chainUpdates pool events) := by
  refine ⟨fun tick => ?_, h.bits⟩
  have hsum := atTick_fetchUpdates horder hnonneg (fun tick => hclean.closesClean tick) tick
  rw [atTick_replay, atTick_replay] at hsum
  rw [h.ticks]
  exact (Account.live_none.postAll _).eq_of_getD_eq (Account.live_none.postAll _) rfl hsum

end Reflects
end CreamBots.Builders.Liquidity
