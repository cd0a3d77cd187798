import CreamBots.Builders.Record
import CreamBots.Data.Account
import Mathlib.Algebra.BigOperators.Group.List.Basic
import Mathlib.Data.Nat.Bitwise

/-! The tick maps of a V3 pool and the accounting that `external_update` does on them.

A pool's liquidity is kept at the ticks its ranges end on: `tick_data` maps a tick
to its net and gross liquidity, `tick_bitmap` has one bit for each tick that is in
`tick_data`, 256 to a word. `external_update` is a method of degenbot; what the
fetcher relies on of it is `Degenbot`. Tick by tick it is posting to an account
(`Data.Account`) that closes when no liquidity refers to the tick any more
(`get?_replay`), and the bitmap follows the ticks (`bitsMatch_replay`). -/
namespace CreamBots.Builders.Liquidity
open Data

@[ext] structure LiquidityAtTick where
  liquidityNet : Int
  liquidityGross : Int
deriving DecidableEq

namespace LiquidityAtTick

instance : Zero LiquidityAtTick := ⟨⟨0, 0⟩⟩

instance : Add LiquidityAtTick :=
  ⟨fun a b => ⟨a.liquidityNet + b.liquidityNet, a.liquidityGross + b.liquidityGross⟩⟩

@[simp] theorem zero_net : (0 : LiquidityAtTick).liquidityNet = 0 := rfl
@[simp] theorem zero_gross : (0 : LiquidityAtTick).liquidityGross = 0 := rfl
@[simp] theorem add_net (a b : LiquidityAtTick) :
    (a + b).liquidityNet = a.liquidityNet + b.liquidityNet := rfl
@[simp] theorem add_gross (a b : LiquidityAtTick) :
    (a + b).liquidityGross = a.liquidityGross + b.liquidityGross := rfl

instance : AddCommMonoid LiquidityAtTick where
  add_assoc a b c := by ext <;> simp [Int.add_assoc]
  zero_add a := by ext <;> simp
  add_zero a := by ext <;> simp
  add_comm a b := by ext <;> simp [Int.add_comm]
  nsmul := nsmulRec

theorem sum_gross (xs : List LiquidityAtTick) :
    xs.sum.liquidityGross = (xs.map liquidityGross).sum := by
  induction xs with
  | nil => rfl
  | cons x xs ih => simp [ih]

/-- No liquidity refers to the tick. -/
def Unreferenced (l : LiquidityAtTick) : Prop := l.liquidityGross = 0

instance : DecidablePred Unreferenced := fun l => decEq l.liquidityGross 0

end LiquidityAtTick

structure BitmapAtWord where
  bitmap : Nat
deriving DecidableEq

structure TickMaps where
  tickBitmap : Dict Int BitmapAtWord
  tickData : Dict Int LiquidityAtTick

namespace TickMaps

def empty : TickMaps := ⟨Dict.empty, Dict.empty⟩

/-- The bits of a word; a word that is not there has none. -/
def word (maps : TickMaps) (w : Int) : Nat :=
  ((maps.tickBitmap.get? w).map BitmapAtWord.bitmap).getD 0

/-- What is held at a tick, nothing if the tick is not there. -/
def atTick (maps : TickMaps) (tick : Int) : LiquidityAtTick := (maps.tickData.get? tick).getD 0

end TickMaps

/-- `liquidity_change`: an amount, negative for a burn, and the range's ticks. -/
structure LiquidityChange where
  amount : Int
  tickLower : Int
  tickUpper : Int
  lower_lt_upper : tickLower < tickUpper

/-- What a change posts to a tick, if it is one of its two. -/
def LiquidityChange.posting (change : LiquidityChange) (tick : Int) : Option LiquidityAtTick :=
  if tick = change.tickLower then some ⟨change.amount, change.amount⟩
  else if tick = change.tickUpper then some ⟨-change.amount, change.amount⟩
  else none

theorem LiquidityChange.posting_eq_some {change : LiquidityChange} {tick : Int}
    {x : LiquidityAtTick} (h : change.posting tick = some x) :
    tick = change.tickLower ∧ x = ⟨change.amount, change.amount⟩ ∨
      tick = change.tickUpper ∧ x = ⟨-change.amount, change.amount⟩ := by
  rw [posting] at h
  split at h
  · cases h
    exact .inl ⟨‹_›, rfl⟩
  split at h
  · cases h
    exact .inr ⟨‹_›, rfl⟩
  · cases h

structure ExternalUpdate where
  blockNumber : Nat
  liquidityChange : LiquidityChange

/-- `lp_helper`, as far as `main` fills it. -/
structure Helper where
  address : Address
  liquidity : Nat
  tickData : Dict Int LiquidityAtTick
  tickBitmap : Dict Int BitmapAtWord
  updateBlock : Nat
  liquidityUpdateBlock : Nat
  tick : Int
  fee : Nat
  tickSpacing : Nat

def Helper.maps (helper : Helper) : TickMaps := ⟨helper.tickBitmap, helper.tickData⟩

/-- The word and the bit of a tick. -/
def slot (tickSpacing : Nat) (tick : Int) : Int × Nat :=
  (tick / tickSpacing / 256, (tick / tickSpacing % 256).toNat)

/-- A tick appears in one of two dictionaries and not in the other. -/
def flips (before after : TickMaps) (tick : Int) : Bool :=
  before.tickData.contains tick ^^ after.tickData.contains tick

/-- What the fetcher relies on of degenbot: `external_update` adds the amount to the
gross liquidity of both ticks, plus to the net of the lower and minus to the net of
the upper, removes a tick whose gross becomes 0, and flips the bit of a tick that
comes or goes. `inPlace` says whether it changes the dictionaries it was given or
puts changed copies in their place. -/
structure Degenbot where
  externalUpdate : Helper → ExternalUpdate → Helper
  inPlace : Bool
  tickSpacing_eq : ∀ helper update,
    (externalUpdate helper update).tickSpacing = helper.tickSpacing
  get?_tickData : ∀ helper update tick,
    (externalUpdate helper update).tickData.get? tick =
      match update.liquidityChange.posting tick with
      | some x => Account.post LiquidityAtTick.Unreferenced (helper.tickData.get? tick) x
      | none => helper.tickData.get? tick
  testBit_word : ∀ helper update w bit,
    ((externalUpdate helper update).maps.word w).testBit bit =
      ((helper.maps.word w).testBit bit ^^
        (decide (slot helper.tickSpacing update.liquidityChange.tickLower = (w, bit)) &&
          flips helper.maps (externalUpdate helper update).maps update.liquidityChange.tickLower) ^^
        (decide (slot helper.tickSpacing update.liquidityChange.tickUpper = (w, bit)) &&
          flips helper.maps (externalUpdate helper update).maps update.liquidityChange.tickUpper))

/-! ### Replaying updates -/

section Replay
variable (degenbot : Degenbot)

def replay (helper : Helper) (updates : List ExternalUpdate) : Helper :=
  updates.foldl degenbot.externalUpdate helper

/-- The postings of a list of updates to one tick. -/
def postings (updates : List ExternalUpdate) (tick : Int) : List LiquidityAtTick :=
  updates.filterMap fun update => update.liquidityChange.posting tick

theorem postings_append (a b : List ExternalUpdate) (tick : Int) :
    postings (a ++ b) tick = postings a tick ++ postings b tick :=
  List.filterMap_append ..

/-- Tick by tick a replay is a list of postings. -/
theorem get?_replay (helper : Helper) (updates : List ExternalUpdate) (tick : Int) :
    (replay degenbot helper updates).tickData.get? tick =
      Account.postAll LiquidityAtTick.Unreferenced (helper.tickData.get? tick)
        (postings updates tick) := by
  induction updates generalizing helper with
  | nil => rfl
  | cons update rest ih =>
    show (replay degenbot (degenbot.externalUpdate helper update) rest).tickData.get? tick = _
    rw [ih, degenbot.get?_tickData]
    simp only [postings, List.filterMap_cons]
    cases update.liquidityChange.posting tick <;> rfl

variable {degenbot}

/-- What an update adds at a tick, nothing at most of them. -/
def ExternalUpdate.share (update : ExternalUpdate) (tick : Int) : LiquidityAtTick :=
  (update.liquidityChange.posting tick).getD 0

/-- What a list of updates adds at a tick. -/
def posted (updates : List ExternalUpdate) (tick : Int) : LiquidityAtTick :=
  (updates.map fun update => update.share tick).sum

@[simp] theorem posted_nil (tick : Int) : posted [] tick = 0 := rfl

theorem posted_cons (update : ExternalUpdate) (rest : List ExternalUpdate) (tick : Int) :
    posted (update :: rest) tick = update.share tick + posted rest tick := rfl

theorem sum_postings (updates : List ExternalUpdate) (tick : Int) :
    (postings updates tick).sum = posted updates tick := by
  induction updates with
  | nil => rfl
  | cons update rest ih =>
    rw [posted_cons, ← ih, ExternalUpdate.share, postings, List.filterMap_cons]
    cases update.liquidityChange.posting tick <;> simp [postings]

theorem atTick_replay (helper : Helper) (updates : List ExternalUpdate) (tick : Int) :
    (replay degenbot helper updates).maps.atTick tick =
      (Account.postAll LiquidityAtTick.Unreferenced (helper.tickData.get? tick)
        (postings updates tick)).getD 0 :=
  congrArg (fun entry : Option LiquidityAtTick => entry.getD 0)
    (get?_replay degenbot helper updates tick)

theorem gross_externalUpdate (helper : Helper) (update : ExternalUpdate) (tick : Int) :
    ((degenbot.externalUpdate helper update).maps.atTick tick).liquidityGross =
      (helper.maps.atTick tick).liquidityGross + (update.share tick).liquidityGross := by
  show (((degenbot.externalUpdate helper update).tickData.get? tick).getD 0).liquidityGross =
    ((helper.tickData.get? tick).getD 0).liquidityGross + _
  rw [degenbot.get?_tickData, ExternalUpdate.share]
  cases update.liquidityChange.posting tick with
  | none => simp
  | some x =>
    show ((Account.post _ _ x).getD 0).liquidityGross = _
    rw [Account.post, Option.getD_some]
    split
    · -- What is removed has no gross liquidity to forget.
      rename_i hdead
      exact hdead.symm
    · rfl

/-- Gross liquidity is never forgotten. -/
theorem gross_replay (helper : Helper) (updates : List ExternalUpdate) (tick : Int) :
    ((replay degenbot helper updates).maps.atTick tick).liquidityGross =
      (helper.maps.atTick tick).liquidityGross + (posted updates tick).liquidityGross := by
  induction updates generalizing helper with
  | nil => simp [replay]
  | cons update rest ih =>
    show ((replay degenbot (degenbot.externalUpdate helper update) rest).maps.atTick
      tick).liquidityGross = _
    rw [ih, gross_externalUpdate, posted_cons, LiquidityAtTick.add_gross, add_assoc]

/-- No prefix of the replay holds a negative gross liquidity. -/
def NeverNegative (degenbot : Degenbot) (helper : Helper) (updates : List ExternalUpdate) : Prop :=
  ∀ q, q <+: updates → ∀ tick, 0 ≤ ((replay degenbot helper q).maps.atTick tick).liquidityGross

/-- A tick whose gross liquidity an update brings to 0 has no net liquidity either. -/
def EmptiesClean (degenbot : Degenbot) (helper : Helper) (updates : List ExternalUpdate) : Prop :=
  ∀ q update, q ++ [update] <+: updates → ∀ tick x,
    update.liquidityChange.posting tick = some x →
    ((replay degenbot helper q).maps.atTick tick + x).liquidityGross = 0 →
    ((replay degenbot helper q).maps.atTick tick + x).liquidityNet = 0

/-- The element a filtered prefix ends with. -/
theorem exists_of_concat_prefix_filterMap {α β : Type} {f : α → Option β} {l : List α} {q : List β}
    {x : β} (h : q ++ [x] <+: l.filterMap f) :
    ∃ p a, p ++ [a] <+: l ∧ f a = some x ∧ p.filterMap f = q := by
  induction l using List.reverseRecOn with
  | nil => simp at h
  | append_singleton l a ih =>
    have hold : q ++ [x] <+: l.filterMap f →
        ∃ p a', p ++ [a'] <+: l ++ [a] ∧ f a' = some x ∧ p.filterMap f = q := by
      intro hq
      obtain ⟨p, a', hp, ha', hpq⟩ := ih hq
      exact ⟨p, a', hp.trans (List.prefix_append ..), ha', hpq⟩
    rw [List.filterMap_append, List.filterMap_cons, List.filterMap_nil] at h
    cases ha : f a with
    | none =>
      rw [ha, List.append_nil] at h
      exact hold h
    | some b =>
      rw [ha] at h
      rcases List.prefix_concat_iff.mp h with heq | hq
      · obtain ⟨rfl, hxb⟩ := List.append_inj' heq rfl
        cases hxb
        exact ⟨l, a, List.prefix_refl _, ha, rfl⟩
      · exact hold hq

theorem EmptiesClean.closesClean {helper : Helper} {updates : List ExternalUpdate}
    (h : EmptiesClean degenbot helper updates) (tick : Int) :
    Account.ClosesClean LiquidityAtTick.Unreferenced (helper.tickData.get? tick)
      (postings updates tick) := by
  apply Account.closesClean_of_steps
  intro q x hq hdead
  obtain ⟨p, update, hp, hx, rfl⟩ := exists_of_concat_prefix_filterMap hq
  have hnet := h p update hp tick x hx
  rw [atTick_replay] at hnet
  exact LiquidityAtTick.ext (hnet hdead) hdead

/-- A replay that empties ticks clean leaves at each tick what it was given and the
sum of what was posted. -/
theorem atTick_replay_eq {helper : Helper} {updates : List ExternalUpdate} {tick : Int}
    (h : Account.ClosesClean LiquidityAtTick.Unreferenced (helper.tickData.get? tick)
      (postings updates tick)) :
    (replay degenbot helper updates).maps.atTick tick =
      helper.maps.atTick tick + posted updates tick := by
  rw [atTick_replay, Account.getD_postAll h, sum_postings]
  rfl

variable (degenbot)

/-! ### The bitmap follows the ticks -/

/-- How many ticks of the map have a bit: more than one only if a tick is no
multiple of the spacing. -/
def TickMaps.ticksAt (maps : TickMaps) (tickSpacing : Nat) (s : Int × Nat) : Nat :=
  maps.tickData.keys.countP fun tick => decide (slot tickSpacing tick = s)

/-- Each bit has been flipped once for each of its ticks that is there. -/
def BitsMatch (tickSpacing : Nat) (maps : TickMaps) : Prop :=
  ∀ w bit, (maps.word w).testBit bit = (maps.ticksAt tickSpacing (w, bit)).bodd

theorem bitsMatch_empty (tickSpacing : Nat) : BitsMatch tickSpacing TickMaps.empty := by
  intro w bit
  show (0 : Nat).testBit bit = _
  rw [Nat.zero_testBit]
  exact Nat.bodd_zero.symm

/-- Counting apart from one key. -/
theorem countP_split {κ : Type} [DecidableEq κ] (P : κ → Bool) {l : List κ} (h : l.Nodup) (a : κ) :
    l.countP P = (l.filter fun k => decide (k ≠ a)).countP P + (decide (a ∈ l) && P a).toNat := by
  induction l with
  | nil => rfl
  | cons k rest ih =>
    rw [List.nodup_cons] at h
    by_cases hk : k = a
    · subst hk
      rw [List.filter_cons_of_neg (by simp), List.countP_cons, ih h.2]
      cases P k <;> simp [h.1]
    · have hmem : decide (a ∈ k :: rest) = decide (a ∈ rest) := by simp [Ne.symm hk]
      rw [List.filter_cons_of_pos (by simpa using hk), List.countP_cons, List.countP_cons, ih h.2,
        hmem]
      omega

theorem bodd_toNat (b : Bool) : b.toNat.bodd = b := by
  cases b <;> rfl

/-- Keys that come or go, two at most, turn the parity of a count once each. -/
theorem bodd_countP {κ : Type} [DecidableEq κ] (P : κ → Bool) {l l' : List κ} (h : l.Nodup)
    (h' : l'.Nodup) {a b : κ} (hab : a ≠ b) (hsame : ∀ k, k ≠ a → k ≠ b → (k ∈ l ↔ k ∈ l')) :
    (l'.countP P).bodd = ((l.countP P).bodd ^^ (P a && (decide (a ∈ l) ^^ decide (a ∈ l'))) ^^
      (P b && (decide (b ∈ l) ^^ decide (b ∈ l')))) := by
  have hperm : ((l.filter fun k => decide (k ≠ a)).filter fun k => decide (k ≠ b)).Perm
      ((l'.filter fun k => decide (k ≠ a)).filter fun k => decide (k ≠ b)) := by
    rw [List.perm_ext_iff_of_nodup ((h.filter _).filter _) ((h'.filter _).filter _)]
    intro k
    simp only [List.mem_filter, decide_eq_true_eq]
    by_cases hka : k = a
    · simp [hka]
    by_cases hkb : k = b
    · simp [hkb]
    simp [hka, hkb, hsame k hka hkb]
  have hmem : ∀ m : List κ, decide (b ∈ m.filter fun k => decide (k ≠ a)) = decide (b ∈ m) := by
    intro m
    simp [Ne.symm hab]
  rw [countP_split P h a, countP_split P (h.filter _) b, countP_split P h' a,
    countP_split P (h'.filter _) b, hmem, hmem, hperm.countP_eq]
  simp only [Nat.bodd_add, bodd_toNat]
  -- Both sides are now sums of seven bits.
  generalize Nat.bodd _ = others
  generalize decide (a ∈ l) = al
  generalize decide (a ∈ l') = al'
  generalize decide (b ∈ l) = bl
  generalize decide (b ∈ l') = bl'
  generalize P a = pa
  generalize P b = pb
  revert others al al' bl bl' pa pb
  decide

variable {degenbot}

theorem bitsMatch_externalUpdate {helper : Helper} (update : ExternalUpdate)
    (h : BitsMatch helper.tickSpacing helper.maps) :
    BitsMatch helper.tickSpacing (degenbot.externalUpdate helper update).maps := by
  intro w bit
  have hkeys : ∀ maps : TickMaps, ∀ tick, maps.tickData.contains tick =
      decide (tick ∈ maps.tickData.keys) := by
    intro maps tick
    rw [Bool.eq_iff_iff, Dict.contains_iff, decide_eq_true_iff]
  rw [degenbot.testBit_word, h w bit, flips, flips, hkeys, hkeys, hkeys, hkeys]
  symm
  apply bodd_countP _ helper.tickData.nodup_keys
    (degenbot.externalUpdate helper update).tickData.nodup_keys
    (Int.ne_of_lt update.liquidityChange.lower_lt_upper)
  intro tick hl hu
  show tick ∈ helper.tickData.keys ↔ tick ∈ (degenbot.externalUpdate helper update).tickData.keys
  rw [← Dict.contains_iff, ← Dict.contains_iff, Dict.contains, Dict.contains,
    degenbot.get?_tickData, LiquidityChange.posting, if_neg hl, if_neg hu]

theorem bitsMatch_replay (helper : Helper) (updates : List ExternalUpdate)
    (h : BitsMatch helper.tickSpacing helper.maps) :
    BitsMatch helper.tickSpacing (replay degenbot helper updates).maps := by
  induction updates generalizing helper with
  | nil => exact h
  | cons update rest ih =>
    show BitsMatch helper.tickSpacing (replay degenbot (degenbot.externalUpdate helper update) rest).maps
    rw [← degenbot.tickSpacing_eq helper update]
    apply ih
    rw [degenbot.tickSpacing_eq]
    exact bitsMatch_externalUpdate update h

theorem ticksAt_congr {maps maps' : TickMaps}
    (hticks : ∀ tick, maps.tickData.get? tick = maps'.tickData.get? tick) (tickSpacing : Nat)
    (s : Int × Nat) : maps.ticksAt tickSpacing s = maps'.ticksAt tickSpacing s := by
  have hperm : maps.tickData.keys.Perm maps'.tickData.keys := by
    rw [List.perm_ext_iff_of_nodup maps.tickData.nodup_keys maps'.tickData.nodup_keys]
    intro tick
    rw [Dict.mem_keys, Dict.mem_keys, hticks]
  rw [TickMaps.ticksAt, TickMaps.ticksAt, hperm.countP_eq]

/-- Maps with the same ticks have the same words. -/
theorem BitsMatch.word_eq {tickSpacing : Nat} {maps maps' : TickMaps} (h : BitsMatch tickSpacing maps)
    (h' : BitsMatch tickSpacing maps')
    (hticks : ∀ tick, maps.tickData.get? tick = maps'.tickData.get? tick) (w : Int) :
    maps.word w = maps'.word w := by
  apply Nat.eq_of_testBit_eq
  intro bit
  rw [h w bit, h' w bit, ticksAt_congr hticks]

end Replay

/-! ### An `external_update` that does this -/

namespace TickMaps

/-- Post to one tick and flip its bit if it comes or goes. -/
def touch (tickSpacing : Nat) (maps : TickMaps) (tick : Int) (x : LiquidityAtTick) : TickMaps :=
  let tickData := match Account.post LiquidityAtTick.Unreferenced (maps.tickData.get? tick) x with
    | some l => maps.tickData.set tick l
    | none => maps.tickData.erase tick
  let (w, bit) := slot tickSpacing tick
  { tickData
    tickBitmap := if maps.tickData.contains tick ^^ tickData.contains tick
      then maps.tickBitmap.set w ⟨maps.word w ^^^ 2 ^ bit⟩ else maps.tickBitmap }

theorem get?_touch (tickSpacing : Nat) (maps : TickMaps) (tick : Int) (x : LiquidityAtTick)
    (t : Int) : (touch tickSpacing maps tick x).tickData.get? t =
      if t = tick then Account.post LiquidityAtTick.Unreferenced (maps.tickData.get? tick) x
      else maps.tickData.get? t := by
  rw [touch]
  cases h : Account.post LiquidityAtTick.Unreferenced (maps.tickData.get? tick) x with
  | some l => exact Dict.get?_set ..
  | none => exact Dict.get?_erase ..

theorem word_set (bitmap : Dict Int BitmapAtWord) (tickData : Dict Int LiquidityAtTick) (w w' : Int)
    (n : Nat) : word ⟨bitmap.set w ⟨n⟩, tickData⟩ w' =
      if w' = w then n else word ⟨bitmap, tickData⟩ w' := by
  rw [word, Dict.get?_set]
  split <;> rfl

theorem testBit_touch (tickSpacing : Nat) (maps : TickMaps) (tick : Int) (x : LiquidityAtTick)
    (w : Int) (bit : Nat) : ((touch tickSpacing maps tick x).word w).testBit bit =
      ((maps.word w).testBit bit ^^ (decide (slot tickSpacing tick = (w, bit)) &&
        flips maps (touch tickSpacing maps tick x) tick)) := by
  have hflips : flips maps (touch tickSpacing maps tick x) tick =
      (maps.tickData.contains tick ^^ (touch tickSpacing maps tick x).tickData.contains tick) := rfl
  rw [hflips]
  cases h : maps.tickData.contains tick ^^ (touch tickSpacing maps tick x).tickData.contains tick
  · have hsame : (touch tickSpacing maps tick x).tickBitmap = maps.tickBitmap := by
      simp only [touch] at h ⊢
      rw [h]
      rfl
    rw [Bool.and_false, Bool.xor_false, word, hsame, word]
  · have hset : (touch tickSpacing maps tick x).tickBitmap = maps.tickBitmap.set
        (slot tickSpacing tick).1 ⟨maps.word (slot tickSpacing tick).1 ^^^
          2 ^ (slot tickSpacing tick).2⟩ := by
      simp only [touch] at h ⊢
      rw [h]
      rfl
    have hword := word_set maps.tickBitmap (touch tickSpacing maps tick x).tickData
      (slot tickSpacing tick).1 w (maps.word (slot tickSpacing tick).1 ^^^
        2 ^ (slot tickSpacing tick).2)
    rw [← hset] at hword
    rw [Bool.and_true, hword]
    by_cases hw : w = (slot tickSpacing tick).1
    · subst hw
      rw [if_pos rfl, Nat.testBit_xor, Nat.testBit_two_pow]
      simp [Prod.ext_iff]
    · rw [if_neg hw, decide_eq_false (fun he => hw (by rw [he])), Bool.xor_false]
      rfl

end TickMaps

/-- Uniswap V3 tick accounting done as documented. -/
def tickAccounting (inPlace : Bool) : Degenbot where
  externalUpdate helper update :=
    let change := update.liquidityChange
    let lower := helper.maps.touch helper.tickSpacing change.tickLower ⟨change.amount, change.amount⟩
    let both := lower.touch helper.tickSpacing change.tickUpper ⟨-change.amount, change.amount⟩
    {helper with
      tickData := both.tickData
      tickBitmap := both.tickBitmap
      updateBlock := update.blockNumber
      liquidityUpdateBlock := update.blockNumber}
  inPlace
  tickSpacing_eq _ _ := rfl
  get?_tickData helper update tick := by
    simp only [TickMaps.get?_touch, LiquidityChange.posting]
    have hne := Int.ne_of_lt update.liquidityChange.lower_lt_upper
    by_cases hl : tick = update.liquidityChange.tickLower
    · subst hl
      simp [hne, Helper.maps]
    · by_cases hu : tick = update.liquidityChange.tickUpper
      · subst hu
        simp [hl, Helper.maps]
      · simp [hl, hu, Helper.maps]
  testBit_word helper update w bit := by
    have hne := Int.ne_of_lt update.liquidityChange.lower_lt_upper
    show ((TickMaps.touch _ (TickMaps.touch _ helper.maps _ _) _ _).word w).testBit bit = _
    rw [TickMaps.testBit_touch, TickMaps.testBit_touch]
    -- Touching one of the two ticks leaves the other where it is.
    simp only [flips, Dict.contains, Helper.maps, TickMaps.get?_touch, if_pos, if_neg hne,
      if_neg hne.symm]

end CreamBots.Builders.Liquidity
