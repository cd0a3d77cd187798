import CreamBots.App.AllOrNothing

/-! What the helpers hold after a run of the handlers.

The handlers share the managers and the heap of helpers, and each pool is nevertheless on
its own. A call writes to the managed helper of the pool of its log, or to one that it has
just built, and to no other (`Handling.writes_next`). So the helper that a pool has at some
point holds what the pool's own logs make of it from then on, each of them once and in
order, whatever comes between them; a Burn that removes the helper is the last that it sees
(`helper_sees_own_logs`). -/
namespace CreamBots.App
open Data Builders

variable {Topic σ τ : Type}

/-- The managed helpers have been made, and no two pools have the same. -/
structure OwnObjects (factoryOf : Address → Address) (s : HandlerState σ τ) : Prop where
  made : ∀ poolAddress pool, helperOf factoryOf s.poolManagers poolAddress = some pool →
    pool.object < s.helpers.next
  own : ∀ poolAddress poolAddress' pool pool',
    helperOf factoryOf s.poolManagers poolAddress = some pool →
    helperOf factoryOf s.poolManagers poolAddress' = some pool' → pool.object = pool'.object →
      poolAddress = poolAddress'

/-- No manager has this helper any more. -/
def Loose (factoryOf : Address → Address) (s : HandlerState σ τ) (object : Nat) : Prop :=
  object < s.helpers.next ∧ ∀ poolAddress pool,
    helperOf factoryOf s.poolManagers poolAddress = some pool → pool.object ≠ object

/-- What is managed was managed before, or has been made since. -/
structure Extends (factoryOf : Address → Address) (s s' : HandlerState σ τ) : Prop where
  next : s.helpers.next ≤ s'.helpers.next
  managed : ∀ poolAddress pool, helperOf factoryOf s'.poolManagers poolAddress = some pool →
    helperOf factoryOf s.poolManagers poolAddress = some pool ∨ s.helpers.next ≤ pool.object

/-- Helpers are made at most, for pools that had none. -/
structure Makes (factoryOf : Address → Address) (s s' : HandlerState σ τ) : Prop
    extends Extends factoryOf s s' where
  get : ∀ object < s.helpers.next, s'.helpers.get object = s.helpers.get object
  own : OwnObjects factoryOf s → OwnObjects factoryOf s'

/-- What a call makes of the helper of its pool. -/
def Handling.applied (abi : EthAbi Topic) (call : Handling Topic σ τ) (helper : σ) : σ :=
  match call.readUpdate abi with
  | .ok (some update) => (call.degenbot.update update helper).2
  | _ => helper

section States
variable {factoryOf : Address → Address} {s s' s'' : HandlerState σ τ}

/-- A helper that is not managed is not found again. -/
theorem Loose.extends {object : Nat} (h : Loose factoryOf s object) (hextends : Extends factoryOf s s') :
    Loose factoryOf s' object := by
  refine ⟨h.1.trans_le hextends.next, fun poolAddress pool hpool => ?_⟩
  rcases hextends.managed poolAddress pool hpool with hpool | hnew
  · exact h.2 poolAddress pool hpool
  · exact (h.1.trans_le hnew).ne'

theorem Makes.refl (s : HandlerState σ τ) : Makes factoryOf s s :=
  ⟨⟨Nat.le_refl _, fun _ _ => .inl⟩, fun _ _ => rfl, id⟩

theorem Makes.trans (h : Makes factoryOf s s') (h' : Makes factoryOf s' s'') : Makes factoryOf s s'' := by
  refine ⟨⟨h.next.trans h'.next, fun poolAddress pool hpool => ?_⟩, fun object hmade => ?_, h'.own ∘ h.own⟩
  · rcases h'.managed poolAddress pool hpool with hpool | hnew
    · exact h.managed poolAddress pool hpool
    · exact .inr (h.next.trans hnew)
  · rw [h'.get object (hmade.trans_le h.next), h.get object hmade]

end States

/-! ### Looking for a helper -/

section Lookup
variable {factoryOf : Address → Address} {degenbot : HelperCalls σ τ} {s : HandlerState σ τ}
  {poolAddress : Address}

/-- The new helper is no other pool's. -/
theorem OwnObjects.register (h : OwnObjects factoryOf s) {tracked : TrackedPools} (helper : σ)
    (hmanager : s.poolManagers.get? (factoryOf poolAddress) = some tracked) :
    OwnObjects factoryOf (s.register (factoryOf poolAddress) tracked poolAddress helper) := by
  have hcases : ∀ a pool, helperOf factoryOf
      (s.register (factoryOf poolAddress) tracked poolAddress helper).poolManagers a = some pool →
      (a = poolAddress ∧ pool.object = s.helpers.next) ∨
        (helperOf factoryOf s.poolManagers a = some pool ∧ pool.object < s.helpers.next) := by
    intro a pool hpool
    rw [helperOf_register helper hmanager] at hpool
    split at hpool
    · rename_i haddress
      cases hpool
      exact .inl ⟨haddress, rfl⟩
    · exact .inr ⟨hpool, h.made a pool hpool⟩
  refine ⟨fun a pool hpool => ?_, fun a a' pool pool' hpool hpool' hsame => ?_⟩
  · show pool.object < s.helpers.next + 1
    rcases hcases a pool hpool with ⟨_, hnew⟩ | ⟨_, hmade⟩
    · omega
    · omega
  · rcases hcases a pool hpool with ⟨ha, hnew⟩ | ⟨hold, hmade⟩
    · rcases hcases a' pool' hpool' with ⟨ha', _⟩ | ⟨_, hmade'⟩
      · rw [ha, ha']
      · omega
    · rcases hcases a' pool' hpool' with ⟨_, hnew'⟩ | ⟨hold', _⟩
      · omega
      · exact h.own a a' pool pool' hold hold' hsame

theorem makes_register {tracked : TrackedPools} (helper : σ)
    (hmanager : s.poolManagers.get? (factoryOf poolAddress) = some tracked) :
    Makes factoryOf s (s.register (factoryOf poolAddress) tracked poolAddress helper) := by
  refine ⟨⟨Nat.le_succ _, fun poolAddress' pool hpool => ?_⟩,
    fun object hmade => Heap.get_alloc_of_lt hmade helper, fun h => h.register helper hmanager⟩
  rw [helperOf_register helper hmanager] at hpool
  split at hpool
  · cases hpool
    exact .inr (Nat.le_refl _)
  · exact .inl hpool

theorem Found.makes {outcome : Except PyError (Option Pool)} {found : HandlerState σ τ}
    (h : Found factoryOf s poolAddress (outcome, found)) : Makes factoryOf s found := by
  cases h with
  | built helper hmanager _ => exact makes_register helper hmanager
  | _ => exact .refl _

/-- Asking one manager. -/
theorem HelperCalls.Lawful.getPool_makes (hlawful : degenbot.Lawful factoryOf) {factory : Address}
    {tracked : TrackedPools} (hmanager : s.poolManagers.get? factory = some tracked)
    (stateBlock : Option Int) :
    Makes factoryOf s (s.getPool degenbot factory tracked poolAddress stateBlock).2 := by
  cases hpool : tracked.get? poolAddress with
  | some pool =>
    rw [getPool_of_unchanged hmanager (hlawful.managed hpool)]
    exact .refl _
  | none =>
    rcases hlawful.getPool_untracked hmanager hpool with ⟨e, he⟩ | ⟨rfl, helper, hbuilt⟩
    · rw [he]
      exact .refl _
    · rw [hbuilt]
      exact makes_register helper hmanager

/-- A manager without pools. -/
theorem makes_newManager {factory : Address} (hmanager : s.poolManagers.get? factory = none) :
    Makes factoryOf s {s with poolManagers := s.poolManagers.set factory Dict.empty} := by
  have hsame : ∀ a, helperOf factoryOf (s.poolManagers.set factory Dict.empty) a =
      helperOf factoryOf s.poolManagers a := by
    intro a
    rw [helperOf_set]
    split
    · rename_i hfactory
      rw [helperOf, hfactory, hmanager]
      rfl
    · rfl
  refine ⟨⟨Nat.le_refl _, fun a pool hpool => ?_⟩, fun _ _ => rfl, fun h => ?_⟩
  · rw [hsame] at hpool
    exact .inl hpool
  · refine ⟨fun a pool => ?_, fun a a' pool pool' => ?_⟩
    · rw [hsame]
      exact h.made a pool
    · rw [hsame, hsame]
      exact h.own a a' pool pool'

theorem HelperCalls.Lawful.addPool_makes (hlawful : degenbot.Lawful factoryOf)
    (factory poolAddress : Address) (blockNumber : Nat) :
    Makes factoryOf s (s.addPool degenbot factory poolAddress blockNumber) := by
  rw [HandlerState.addPool, HandlerState.ensureManager]
  cases hmanager : s.poolManagers.get? factory with
  | some tracked => exact hlawful.getPool_makes hmanager _
  | none =>
    cases hnew : degenbot.newManager factory with
    | error e => exact .refl _
    | ok tracked =>
      rw [hlawful.newManager hnew]
      exact (makes_newManager hmanager).trans (hlawful.getPool_makes (Dict.get?_set_self ..) _)

end Lookup

/-! ### What a call does to the helpers -/

/-- The object that a pool has. -/
def objectOf (factoryOf : Address → Address) (s : HandlerState σ τ) (poolAddress : Address) : Option Nat :=
  (helperOf factoryOf s.poolManagers poolAddress).map Pool.object

namespace Handling

/-- Of the helpers that there are a call writes to that of its pool, and to no other. -/
structure Writes (factoryOf : Address → Address) (abi : EthAbi Topic) (call : Handling Topic σ τ)
    (s s' : HandlerState σ τ) : Prop extends Extends factoryOf s s' where
  get : ∀ object < s.helpers.next, s'.helpers.get object =
    if objectOf factoryOf s call.log.address = some object then call.applied abi (s.helpers.get object)
    else s.helpers.get object
  own : OwnObjects factoryOf s → OwnObjects factoryOf s'

section Step
variable {factoryOf : Address → Address} {abi : EthAbi Topic} {call : Handling Topic σ τ}
  {s : HandlerState σ τ}

/-- Without an update step the log says nothing to a helper. -/
theorem applied_of_no_step (hlawful : call.degenbot.Lawful factoryOf)
    (hregistered : Registered factoryOf s.poolManagers) (hstep : call.updateStep abi s = none)
    {object : Nat} (hobject : objectOf factoryOf s call.log.address = some object) (helper : σ) :
    call.applied abi helper = helper := by
  obtain ⟨pool, hpool, _⟩ := Option.map_eq_some_iff.mp hobject
  have hlookup : call.lookup s = (.ok (some pool), s) := hlawful.findHelper_managed hregistered hpool
  rw [updateStep, hlookup] at hstep
  rw [applied]
  rcases hread : call.readUpdate abi with e | _ | update
  · rfl
  · rfl
  · rw [hread] at hstep
    cases hstep

theorem writes_of_no_step (hlawful : call.degenbot.Lawful factoryOf)
    (hregistered : Registered factoryOf s.poolManagers) (hstep : call.updateStep abi s = none)
    {s' : HandlerState σ τ} (h : Makes factoryOf s s') : Writes factoryOf abi call s s' := by
  refine ⟨h.toExtends, fun object hmade => ?_, h.own⟩
  rw [h.get object hmade]
  split
  · rename_i hobject
    exact (applied_of_no_step hlawful hregistered hstep hobject _).symm
  · rfl

theorem attempt_helpers (call : Handling Topic σ τ) (pool : Pool) (update : PoolUpdate)
    (s : HandlerState σ τ) : (call.attempt pool update s).2.helpers =
      s.helpers.write pool.object (call.degenbot.update update (s.helpers.get pool.object)).2 := by
  have hrecord : (s.updateAndRecord call.degenbot call.log.address pool update).2.helpers =
      s.helpers.write pool.object (call.degenbot.update update (s.helpers.get pool.object)).2 := by
    rw [HandlerState.updateAndRecord, HandlerState.externalUpdate]
    rcases call.degenbot.update update (s.helpers.get pool.object) with ⟨e | _, helper⟩
    · rfl
    · rfl
  unfold attempt
  cases call.processFunc with
  | processMintEvent => exact hrecord
  | processBurnEvent => exact hrecord
  | _ => rfl

/-- The managed helper of a pool that was looked up. -/
theorem objectOf_found {pool : Pool} {found : HandlerState σ τ} {poolAddress : Address}
    (h : Found factoryOf s poolAddress (.ok (some pool), found)) {object : Nat}
    (hmade : object < s.helpers.next) :
    objectOf factoryOf s poolAddress = some object ↔ pool.object = object := by
  rw [objectOf]
  cases h with
  | managed hpool => rw [hpool, Option.map_some, Option.some.injEq]
  | built helper hmanager hnone =>
    have hunknown : helperOf factoryOf s.poolManagers poolAddress = none := by
      rw [helperOf, hmanager]
      exact hnone
    rw [hunknown, Option.map_none]
    exact iff_of_false (Option.some_ne_none object).symm hmade.ne'

/-- After the update step. -/
theorem writes_of_step (hlawful : call.degenbot.Lawful factoryOf)
    (hregistered : Registered factoryOf s.poolManagers) {pool : Pool} {outcome : Except PyError Unit}
    {after : HandlerState σ τ} (h : call.updateStep abi s = some (pool, (outcome, after))) :
    Writes factoryOf abi call s after := by
  obtain ⟨update, found, hread, hfound, hattempt⟩ := updateStep_eq_some.mp h
  have hlookup := hlawful.findHelper hregistered call.log.address call.stateBlock
  rw [← lookup.eq_1, hfound] at hlookup
  have hmakes := hlookup.makes
  obtain ⟨_, _, hframe⟩ := call.attempt_frame pool update found
  have hhelpers := call.attempt_helpers pool update found
  rw [← hattempt] at hframe hhelpers
  have hframe : after = _ := hframe
  have hmanagers : after.poolManagers = found.poolManagers := by rw [hframe]
  have hhelpers : after.helpers = _ := hhelpers
  have hnext : after.helpers.next = found.helpers.next := by
    rw [hhelpers]
    rfl
  refine ⟨⟨?_, fun a p hp => ?_⟩, fun object hmade => ?_, fun hown => ?_⟩
  · rw [hnext]
    exact hmakes.next
  · rw [hmanagers] at hp
    exact hmakes.managed a p hp
  · have hsame := hmakes.get object hmade
    have hfound := objectOf_found hlookup hmade
    rw [hhelpers]
    by_cases hobject : pool.object = object
    · rw [if_pos (hfound.mpr hobject), ← hsame, ← hobject, Heap.get_write_self, applied, hread]
    · rw [if_neg fun h => hobject (hfound.mp h), Heap.get_write_of_ne (Ne.symm hobject), hsame]
  · obtain ⟨hmade, hone⟩ := hmakes.own hown
    refine ⟨fun a p hp => ?_, fun a a' p p' hp hp' => ?_⟩
    · rw [hmanagers] at hp
      rw [hnext]
      exact hmade a p hp
    · rw [hmanagers] at hp hp'
      exact hone a a' p p' hp hp'

/-- What is done about an exception takes at most a helper away. -/
theorem onError_managed (hlawful : call.degenbot.Lawful factoryOf) {after : HandlerState σ τ}
    (hregistered : Registered factoryOf after.poolManagers) {pool : Pool}
    (hpool : helperOf factoryOf after.poolManagers call.log.address = some pool) (e : PyError)
    (poolAddress : Address) (pool' : Pool)
    (h : helperOf factoryOf (call.onError pool e after).2.poolManagers poolAddress = some pool') :
    helperOf factoryOf after.poolManagers poolAddress = some pool' := by
  by_cases hassertion : call.processFunc = .processBurnEvent ∧ ∃ message, e = .assertionError message
  · obtain ⟨hburn, message, rfl⟩ := hassertion
    rw [(onError_removes hlawful hregistered hpool hburn message).2] at h
    split at h
    · cases h
    · exact h
  · rw [onError_goesOn hassertion] at h
    exact h

variable (abi) in
theorem writes_next (hlawful : call.degenbot.Lawful factoryOf)
    (hregistered : Registered factoryOf s.poolManagers) :
    Writes factoryOf abi call s (call.next abi s) := by
  have hturn := call.turn abi s
  generalize call.next abi s = next at hturn ⊢
  cases hturn with
  | unread h => exact writes_of_no_step hlawful hregistered h (.refl s)
  | looked h =>
    refine writes_of_no_step hlawful hregistered h ?_
    exact (hlawful.findHelper hregistered call.log.address call.stateBlock).makes
  | added h poolAddress _ =>
    exact writes_of_no_step hlawful hregistered h (hlawful.addPool_makes ..)
  | updated h =>
    have hwrites := writes_of_step hlawful hregistered h
    refine ⟨⟨hwrites.next, hwrites.managed⟩, hwrites.get, fun hown => ?_⟩
    obtain ⟨hmade, hone⟩ := hwrites.own hown
    exact ⟨hmade, hone⟩
  | @failed pool e after h =>
    have hwrites := writes_of_step hlawful hregistered h
    obtain ⟨hafter, hpool, _⟩ := updateStep_managed hlawful hregistered h
    have hmanaged := onError_managed hlawful hafter hpool e
    obtain ⟨_, hframe⟩ := call.onError_frame pool e after
    have hhelpers : (call.onError pool e after).2.helpers = after.helpers := by rw [hframe]
    refine ⟨⟨?_, fun a p hp => hwrites.managed a p (hmanaged a p hp)⟩, fun object hmade => ?_,
      fun hown => ?_⟩
    · rw [hhelpers]
      exact hwrites.next
    · rw [hhelpers]
      exact hwrites.get object hmade
    · obtain ⟨hmade, hone⟩ := hwrites.own hown
      refine ⟨fun a p hp => ?_, fun a a' p p' hp hp' => ?_⟩
      · rw [hhelpers]
        exact hmade a p (hmanaged a p hp)
      · exact hone a a' p p' (hmanaged a p hp) (hmanaged a' p' hp')

end Step
end Handling

/-! ### A run -/

section Run
variable (factoryOf : Address → Address) (abi : EthAbi Topic) (poolAddress : Address) (pool : Pool)
  (helper : σ)

/-- What the logs of a pool make of its helper. -/
def appliedAll (calls : List (Handling Topic σ τ)) (helper : σ) : σ :=
  (calls.filter fun call => call.log.address = poolAddress).foldl
    (fun helper call => call.applied abi helper) helper

/-- The pool still has the helper, which holds what these calls have made of it. -/
structure Sees (seen : List (Handling Topic σ τ)) (s : HandlerState σ τ) : Prop where
  registered : Registered factoryOf s.poolManagers
  own : OwnObjects factoryOf s
  managed : helperOf factoryOf s.poolManagers poolAddress = some pool
  holds : s.helpers.get pool.object = appliedAll abi poolAddress seen helper

/-- The pool has the helper no more, and what it holds stays as these calls have left it. -/
structure Dropped (seen : List (Handling Topic σ τ)) (s : HandlerState σ τ) : Prop where
  registered : Registered factoryOf s.poolManagers
  own : OwnObjects factoryOf s
  loose : Loose factoryOf s pool.object
  holds : s.helpers.get pool.object = appliedAll abi poolAddress seen helper

/-- The call is a Burn of the pool that takes its helper away. -/
def TakesAway (call : Handling Topic σ τ) (s : HandlerState σ τ) : Prop :=
  call.log.address = poolAddress ∧ call.Removes abi s

variable {factoryOf abi poolAddress pool helper} {seen : List (Handling Topic σ τ)}
  {call : Handling Topic σ τ} {s : HandlerState σ τ}

theorem appliedAll_concat : appliedAll abi poolAddress (seen ++ [call]) helper =
    if call.log.address = poolAddress then call.applied abi (appliedAll abi poolAddress seen helper)
    else appliedAll abi poolAddress seen helper := by
  rw [appliedAll, List.filter_append, List.foldl_append]
  split
  · rename_i haddress
    simp [haddress, appliedAll]
  · rename_i haddress
    simp [haddress, appliedAll]

/-- What the helper of the pool holds after a call. -/
theorem Sees.holds_next (h : Sees factoryOf abi poolAddress pool helper seen s)
    (hlawful : call.degenbot.Lawful factoryOf) : (call.next abi s).helpers.get pool.object =
      appliedAll abi poolAddress (seen ++ [call]) helper := by
  have hwrites := Handling.writes_next abi hlawful h.registered
  have hobject : objectOf factoryOf s call.log.address = some pool.object ↔
      call.log.address = poolAddress := by
    rw [objectOf, Option.map_eq_some_iff]
    constructor
    · intro hsame
      obtain ⟨pool', hpool', hsame⟩ := hsame
      exact h.own.own _ _ _ _ hpool' h.managed hsame
    · intro haddress
      rw [haddress]
      exact ⟨pool, h.managed, rfl⟩
  rw [hwrites.get _ (h.own.made _ _ h.managed), h.holds, appliedAll_concat]
  simp only [hobject]

/-- A call of any log: the pool keeps its helper, or a Burn of the pool takes it away. -/
theorem Sees.next (h : Sees factoryOf abi poolAddress pool helper seen s)
    (hlawful : call.degenbot.Lawful factoryOf) :
    (¬TakesAway abi poolAddress call s ∧
        Sees factoryOf abi poolAddress pool helper (seen ++ [call]) (call.next abi s)) ∨
      TakesAway abi poolAddress call s ∧
        Dropped factoryOf abi poolAddress pool helper (seen ++ [call]) (call.next abi s) := by
  have hwrites := Handling.writes_next abi hlawful h.registered
  obtain ⟨hregistered, hkeeps⟩ := Handling.helperOf_next abi call hlawful h.registered
  by_cases htakes : TakesAway abi poolAddress call s
  · refine .inr ⟨htakes, hregistered, hwrites.own h.own, ⟨?_, fun a pool' hpool' => ?_⟩,
      h.holds_next hlawful⟩
    · exact (h.own.made _ _ h.managed).trans_le hwrites.next
    · obtain ⟨rfl, hremoves⟩ := htakes
      have hnone := (hremoves.next hlawful h.registered).2.1
      intro hsame
      rcases hwrites.managed a pool' hpool' with hbefore | hnew
      · rw [h.own.own _ _ _ _ hbefore h.managed hsame, hnone] at hpool'
        cases hpool'
      · exact ((h.own.made _ _ h.managed).trans_le hnew).ne hsame.symm
  · refine .inl ⟨htakes, hregistered, hwrites.own h.own, ?_, h.holds_next hlawful⟩
    exact hkeeps poolAddress pool h.managed fun hboth => htakes ⟨hboth.2, hboth.1⟩

/-- No call finds it again. -/
theorem Dropped.next (h : Dropped factoryOf abi poolAddress pool helper seen s)
    (hlawful : call.degenbot.Lawful factoryOf) :
    Dropped factoryOf abi poolAddress pool helper seen (call.next abi s) := by
  have hwrites := Handling.writes_next abi hlawful h.registered
  refine ⟨(Handling.helperOf_next abi call hlawful h.registered).1, hwrites.own h.own,
    h.loose.extends hwrites.toExtends, ?_⟩
  rw [hwrites.get _ h.loose.1, if_neg, h.holds]
  intro hobject
  obtain ⟨pool', hpool', hsame⟩ := Option.map_eq_some_iff.mp hobject
  exact h.loose.2 _ _ hpool' hsame

theorem Dropped.run {calls : List (Handling Topic σ τ)} : ∀ {s : HandlerState σ τ},
    Dropped factoryOf abi poolAddress pool helper seen s →
    (∀ call ∈ calls, call.degenbot.Lawful factoryOf) →
      Dropped factoryOf abi poolAddress pool helper seen (Handling.run abi calls s) := by
  induction calls with
  | nil => exact fun h _ => h
  | cons call rest ih =>
    intro s h hlawful
    exact ih (h.next (hlawful call (List.mem_cons_self ..)))
      fun c hc => hlawful c (List.mem_cons_of_mem call hc)

variable (abi poolAddress) in
/-- No call of the run takes the helper of the pool away. -/
def Keeps (calls : List (Handling Topic σ τ)) (s : HandlerState σ τ) : Prop :=
  ∀ before call after, calls = before ++ call :: after →
    ¬TakesAway abi poolAddress call (Handling.run abi before s)

theorem Keeps.cons {rest : List (Handling Topic σ τ)} (hfirst : ¬TakesAway abi poolAddress call s)
    (hrest : Keeps abi poolAddress rest (call.next abi s)) : Keeps abi poolAddress (call :: rest) s := by
  intro before call' after hsplit
  cases before with
  | nil =>
    cases hsplit
    exact hfirst
  | cons _ before =>
    cases hsplit
    exact hrest before call' after rfl

/-- The calls are seen to the end, or up to the first that takes the helper away. -/
theorem Sees.run (calls : List (Handling Topic σ τ)) :
    ∀ {seen : List (Handling Topic σ τ)} {s : HandlerState σ τ},
    Sees factoryOf abi poolAddress pool helper seen s →
    (∀ call ∈ calls, call.degenbot.Lawful factoryOf) →
    (Keeps abi poolAddress calls s ∧
      Sees factoryOf abi poolAddress pool helper (seen ++ calls) (Handling.run abi calls s)) ∨
    ∃ before last after, calls = before ++ last :: after ∧ Keeps abi poolAddress before s ∧
      TakesAway abi poolAddress last (Handling.run abi before s) ∧
      Dropped factoryOf abi poolAddress pool helper (seen ++ (before ++ [last]))
        (Handling.run abi calls s) := by
  induction calls with
  | nil =>
    intro seen s h _
    refine .inl ⟨fun before call after hsplit => ?_, ?_⟩
    · simp at hsplit
    · rw [List.append_nil]
      exact h
  | cons call rest ih =>
    intro seen s h hlawful
    have hrest := fun c hc => hlawful c (List.mem_cons_of_mem call hc)
    rcases h.next (hlawful call (List.mem_cons_self ..)) with ⟨hkeeps, hsees⟩ | ⟨htakes, hdropped⟩
    · rcases ih hsees hrest with ⟨hall, hsees⟩ | ⟨before, last, after, rfl, hbefore, htakes, hdropped⟩
      · rw [List.append_assoc] at hsees
        exact .inl ⟨hall.cons hkeeps, hsees⟩
      · rw [List.append_assoc] at hdropped
        exact .inr ⟨call :: before, last, after, rfl, hbefore.cons hkeeps, htakes, hdropped⟩
    · refine .inr ⟨[], call, rest, rfl, fun before call' after hsplit => ?_, htakes, hdropped.run hrest⟩
      simp at hsplit

end Run

/-- **Every helper sees the logs of its own pool, each once and in order, and no others.**
The helper that a pool has at the start holds, after any run, what the logs of the pool have
made of it: all of them, and it is still the pool's; or those up to the first Burn that took
it away, and no manager ever has it again. -/
theorem helper_sees_own_logs (abi : EthAbi Topic) (factoryOf : Address → Address)
    (s : HandlerState σ τ) (hregistered : Registered factoryOf s.poolManagers)
    (hown : OwnObjects factoryOf s) (poolAddress : Address) (pool : Pool)
    (hpool : helperOf factoryOf s.poolManagers poolAddress = some pool)
    (calls : List (Handling Topic σ τ)) (hlawful : ∀ call ∈ calls, call.degenbot.Lawful factoryOf) :
    ∃ seen unseen, calls = seen ++ unseen ∧
      (Handling.run abi calls s).helpers.get pool.object =
        (seen.filter fun call => call.log.address = poolAddress).foldl
          (fun helper call => call.applied abi helper) (s.helpers.get pool.object) ∧
      ((unseen = [] ∧ Keeps abi poolAddress calls s ∧
          helperOf factoryOf (Handling.run abi calls s).poolManagers poolAddress = some pool) ∨
        ∃ before last, seen = before ++ [last] ∧ Keeps abi poolAddress before s ∧
          TakesAway abi poolAddress last (Handling.run abi before s) ∧
          Loose factoryOf (Handling.run abi calls s) pool.object) := by
  have hstart : Sees factoryOf abi poolAddress pool (s.helpers.get pool.object) [] s :=
    ⟨hregistered, hown, hpool, rfl⟩
  rcases hstart.run calls hlawful with
    ⟨hkeeps, hsees⟩ | ⟨before, last, after, rfl, hkeeps, htakes, hdropped⟩
  · exact ⟨calls, [], (List.append_nil _).symm, hsees.holds, .inl ⟨rfl, hkeeps, hsees.managed⟩⟩
  · refine ⟨before ++ [last], after, ?_, hdropped.holds,
      .inr ⟨before, last, rfl, hkeeps, htakes, hdropped.loose⟩⟩
    rw [List.append_assoc]
    rfl

/-! ### Three logs of two pools -/

/-- The helpers of pools 1 and 2, not updated yet; they count their updates. -/
def twoCounters : HandlerState Nat Nat := ⟨afterTwoPools.poolManagers, ⟨fun _ => 0, 2⟩, 0, []⟩

theorem twoCounters_registered : Registered (fun _ => .fill 20) twoCounters.poolManagers :=
  afterTwoPools_registered

theorem twoCounters_own : OwnObjects (fun _ => .fill 20) twoCounters := by
  have hcases : ∀ a pool, helperOf (fun _ => .fill 20) twoCounters.poolManagers a = some pool →
      (a = .fill 1 ∧ pool.object = 0) ∨ (a = .fill 2 ∧ pool.object = 1) := by
    intro a pool hpool
    obtain ⟨tracked, hmanager, hget⟩ := helperOf_eq_some.mp hpool
    cases hmanager
    have hmem : (a, pool) ∈
        [((.fill 1 : Address), (⟨.fill 1, 0⟩ : Pool)), (.fill 2, ⟨.fill 2, 1⟩)] := Dict.get?_eq_some.mp hget
    rcases List.mem_cons.mp hmem with h | h
    · cases h
      exact .inl ⟨rfl, rfl⟩
    · cases List.mem_singleton.mp h
      exact .inr ⟨rfl, rfl⟩
  refine ⟨fun a pool hpool => ?_, fun a a' pool pool' hpool hpool' hsame => ?_⟩
  · show pool.object < 2
    rcases hcases a pool hpool with ⟨_, h⟩ | ⟨_, h⟩
    · omega
    · omega
  · rcases hcases a pool hpool with ⟨ha, h⟩ | ⟨ha, h⟩
    · rcases hcases a' pool' hpool' with ⟨ha', h'⟩ | ⟨ha', h'⟩
      · rw [ha, ha']
      · omega
    · rcases hcases a' pool' hpool' with ⟨ha', h'⟩ | ⟨ha', h'⟩
      · omega
      · rw [ha, ha']

def swapOfPool2 : Handling Unit Nat Nat :=
  ⟨.processSwapEvent, ⟨.fill 2, 100, [], []⟩, recordsEnd (.ok ())⟩

/-- A Swap of pool 2 between two Mints of pool 1, whose helper counts the two. -/
def threeLogs : List (Handling Unit Nat Nat) :=
  [mintOfPool1 (.ok ()), swapOfPool2, mintOfPool1 (.ok ())]

theorem threeLogs_lawful : ∀ call ∈ threeLogs, call.degenbot.Lawful fun _ => .fill 20 := by
  simp only [threeLogs, List.forall_mem_cons, List.not_mem_nil, false_imp_iff, implies_true, and_true]
  exact ⟨oneFactory_lawful .., oneFactory_lawful .., oneFactory_lawful ..⟩

theorem helper_sees_own_logs_two_mints :
    (Handling.run someLiquidity threeLogs twoCounters).helpers.get 0 = 2 := by
  obtain ⟨seen, unseen, hsplit, hholds, hall | ⟨before, last, rfl, _, htakes, _⟩⟩ :=
    helper_sees_own_logs someLiquidity (fun _ => .fill 20) twoCounters twoCounters_registered
      twoCounters_own (.fill 1) ⟨.fill 1, 0⟩ rfl threeLogs threeLogs_lawful
  · obtain ⟨rfl, _⟩ := hall
    rw [List.append_nil] at hsplit
    subst hsplit
    exact hholds
  · -- None of them is a Burn.
    have hmem : last ∈ threeLogs := by
      rw [hsplit]
      simp
    have hburn := htakes.2.1
    simp only [threeLogs, List.mem_cons, List.not_mem_nil, or_false] at hmem
    rcases hmem with rfl | rfl | rfl
    · cases hburn
    · cases hburn
    · cases hburn

end CreamBots.App
