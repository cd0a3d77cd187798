import CreamBots.App.EventHandlers

/-! The managers, as degenbot keeps them.

A manager tracks pools of its own factory. Asked for a pool it gives the helper that it
tracks; of its own factory's other pools it builds one, if it can, and tracks it from
then on; pools of other factories it refuses (`HelperCalls.Lawful`). So the handlers,
which ask every manager in turn, find the managed helper of a pool whenever there is
one (`HelperCalls.Lawful.findHelper`), and no call takes it away but a Burn whose update
fails an assertion (`Handling.helperOf_next`). -/
namespace CreamBots.App
open Data Builders

variable {Topic σ τ : Type}

/-- What the handlers rely on of degenbot. Each pool belongs to one factory. -/
structure HelperCalls.Lawful (degenbot : HelperCalls σ τ) (factoryOf : Address → Address) : Prop where
  newManager : ∀ {factory tracked}, degenbot.newManager factory = .ok tracked → tracked = Dict.empty
  managed : ∀ {factory} {tracked : TrackedPools} {helpers poolAddress stateBlock pool},
    tracked.get? poolAddress = some pool →
      degenbot.getPool factory tracked helpers poolAddress stateBlock = (.ok pool, tracked, helpers)
  foreign : ∀ {factory} {tracked : TrackedPools} {helpers poolAddress stateBlock},
    tracked.get? poolAddress = none → factoryOf poolAddress ≠ factory →
      degenbot.getPool factory tracked helpers poolAddress stateBlock =
        (.error .managerError, tracked, helpers)
  built : ∀ (tracked : TrackedPools) helpers poolAddress stateBlock,
    tracked.get? poolAddress = none →
      (∃ e, degenbot.getPool (factoryOf poolAddress) tracked helpers poolAddress stateBlock =
        (.error e, tracked, helpers)) ∨
      ∃ helper, degenbot.getPool (factoryOf poolAddress) tracked helpers poolAddress stateBlock =
        (.ok ⟨poolAddress, helpers.next⟩, tracked.set poolAddress ⟨poolAddress, helpers.next⟩,
          helpers.alloc helper)
  delItem : ∀ tracked poolAddress, degenbot.delItem tracked poolAddress =
    if poolAddress ∈ tracked.keys then .ok (tracked.erase poolAddress) else .error .keyError

/-- What is tracked is tracked under its own address and by the manager of its factory. -/
def Registered (factoryOf : Address → Address) (managers : Dict Address TrackedPools) : Prop :=
  ∀ factory tracked, managers.get? factory = some tracked → ∀ poolAddress pool,
    tracked.get? poolAddress = some pool → factoryOf poolAddress = factory ∧ pool.address = poolAddress

/-- Some manager tracks this very object. -/
def Managed (managers : Dict Address TrackedPools) (pool : Pool) : Prop :=
  ∃ factory tracked, managers.get? factory = some tracked ∧ tracked.get? pool.address = some pool

/-- The managed helper of an address. -/
def helperOf (factoryOf : Address → Address) (managers : Dict Address TrackedPools)
    (poolAddress : Address) : Option Pool :=
  (managers.get? (factoryOf poolAddress)).bind fun tracked => tracked.get? poolAddress

/-- The manager of the factory tracks a helper that was just built. -/
def HandlerState.register (s : HandlerState σ τ) (factory : Address) (tracked : TrackedPools)
    (poolAddress : Address) (helper : σ) : HandlerState σ τ :=
  {s with
    poolManagers := s.poolManagers.set factory (tracked.set poolAddress ⟨poolAddress, s.helpers.next⟩)
    helpers := s.helpers.alloc helper}

section Managers
variable {factoryOf : Address → Address} {managers : Dict Address TrackedPools} {poolAddress : Address}

theorem helperOf_eq_some {pool : Pool} : helperOf factoryOf managers poolAddress = some pool ↔
    ∃ tracked, managers.get? (factoryOf poolAddress) = some tracked ∧
      tracked.get? poolAddress = some pool := Option.bind_eq_some_iff

theorem helperOf_eq_none : helperOf factoryOf managers poolAddress = none ↔
    ∀ tracked, managers.get? (factoryOf poolAddress) = some tracked →
      tracked.get? poolAddress = none := Option.bind_eq_none_iff

theorem Registered.address (h : Registered factoryOf managers) {pool : Pool}
    (hpool : helperOf factoryOf managers poolAddress = some pool) : pool.address = poolAddress := by
  obtain ⟨tracked, hmanager, hget⟩ := helperOf_eq_some.mp hpool
  exact (h _ tracked hmanager poolAddress pool hget).2

theorem Registered.managed_iff (h : Registered factoryOf managers) {pool : Pool} :
    Managed managers pool ↔ helperOf factoryOf managers pool.address = some pool := by
  rw [helperOf_eq_some]
  refine ⟨fun ⟨factory, tracked, hmanager, hget⟩ => ⟨tracked, ?_, hget⟩,
    fun ⟨tracked, hmanager, hget⟩ => ⟨_, tracked, hmanager, hget⟩⟩
  rw [(h factory tracked hmanager pool.address pool hget).1]
  exact hmanager

/-- A manager goes on to track only what it may. -/
theorem Registered.set (h : Registered factoryOf managers) {factory : Address} {tracked : TrackedPools}
    (hnew : ∀ poolAddress pool, tracked.get? poolAddress = some pool →
      factoryOf poolAddress = factory ∧ pool.address = poolAddress) :
    Registered factoryOf (managers.set factory tracked) := by
  intro factory' tracked' hmanager
  rw [Dict.get?_set] at hmanager
  split at hmanager
  · rename_i hfactory
    rw [hfactory, ← Option.some.inj hmanager]
    exact hnew
  · exact h factory' tracked' hmanager

theorem helperOf_set (factory : Address) (tracked : TrackedPools) :
    helperOf factoryOf (managers.set factory tracked) poolAddress =
      if factoryOf poolAddress = factory then tracked.get? poolAddress
      else helperOf factoryOf managers poolAddress := by
  rw [helperOf, Dict.get?_set]
  split <;> rfl

end Managers

/-! ### Looking for a helper -/

section Lookup
variable {factoryOf : Address → Address} {degenbot : HelperCalls σ τ} {s : HandlerState σ τ}
  {poolAddress : Address} {stateBlock : Option Int}

/-- What asking for a pool can come to: the managed helper, a new one, none, or an
exception. -/
inductive Found (factoryOf : Address → Address) (s : HandlerState σ τ) (poolAddress : Address) :
    Outcome σ τ (Option Pool) → Prop where
  | managed {pool : Pool} (h : helperOf factoryOf s.poolManagers poolAddress = some pool) :
    Found factoryOf s poolAddress (.ok (some pool), s)
  | built {tracked : TrackedPools} (helper : σ)
    (hmanager : s.poolManagers.get? (factoryOf poolAddress) = some tracked)
    (h : tracked.get? poolAddress = none) :
    Found factoryOf s poolAddress (.ok (some ⟨poolAddress, s.helpers.next⟩),
      s.register (factoryOf poolAddress) tracked poolAddress helper)
  | unknown (h : helperOf factoryOf s.poolManagers poolAddress = none) :
    Found factoryOf s poolAddress (.ok none, s)
  | raised (h : helperOf factoryOf s.poolManagers poolAddress = none) (e : PyError) :
    Found factoryOf s poolAddress (.error e, s)

/-- A call that leaves the manager and the helpers as they are. -/
theorem getPool_of_unchanged {factory : Address} {tracked : TrackedPools}
    {outcome : Except PyError Pool} (hmanager : s.poolManagers.get? factory = some tracked)
    (h : degenbot.getPool factory tracked s.helpers poolAddress stateBlock =
      (outcome, tracked, s.helpers)) :
    s.getPool degenbot factory tracked poolAddress stateBlock = (outcome, s) := by
  rw [HandlerState.getPool, h]
  simp only [Dict.set_of_get? hmanager]

/-- Asked for a pool that it does not track, a manager raises or builds it. -/
theorem HelperCalls.Lawful.getPool_untracked (hlawful : degenbot.Lawful factoryOf) {factory : Address}
    {tracked : TrackedPools} (hmanager : s.poolManagers.get? factory = some tracked)
    (hpool : tracked.get? poolAddress = none) :
    (∃ e, s.getPool degenbot factory tracked poolAddress stateBlock = (.error e, s)) ∨
      factoryOf poolAddress = factory ∧ ∃ helper,
        s.getPool degenbot factory tracked poolAddress stateBlock =
          (.ok ⟨poolAddress, s.helpers.next⟩, s.register factory tracked poolAddress helper) := by
  by_cases hfactory : factoryOf poolAddress = factory
  · subst hfactory
    rcases hlawful.built tracked s.helpers poolAddress stateBlock hpool with ⟨e, he⟩ | ⟨helper, hbuilt⟩
    · exact .inl ⟨e, getPool_of_unchanged hmanager he⟩
    · refine .inr ⟨rfl, helper, ?_⟩
      rw [HandlerState.getPool, hbuilt]
      rfl
  · exact .inl ⟨_, getPool_of_unchanged hmanager (hlawful.foreign hpool hfactory)⟩

/-- The loop goes past the managers that do not track the pool to the one that does. -/
theorem HelperCalls.Lawful.searchManaged (hlawful : degenbot.Lawful factoryOf)
    (hregistered : Registered factoryOf s.poolManagers) {tracked : TrackedPools} {pool : Pool}
    (hpool : tracked.get? poolAddress = some pool) {managers : List (Address × TrackedPools)}
    (hcurrent : ∀ manager ∈ managers, s.poolManagers.get? manager.1 = some manager.2)
    (hmem : (factoryOf poolAddress, tracked) ∈ managers) :
    HandlerState.searchManagers degenbot poolAddress stateBlock managers s = (.ok (some pool), s) := by
  induction managers with
  | nil => cases hmem
  | cons manager rest ih =>
    obtain ⟨factory, tracked'⟩ := manager
    have hmanager := hcurrent (factory, tracked') (List.mem_cons_self ..)
    have hcurrent := fun m hm => hcurrent m (List.mem_cons_of_mem _ hm)
    rw [HandlerState.searchManagers]
    rcases List.mem_cons.mp hmem with heq | hmem
    · cases heq
      rw [getPool_of_unchanged hmanager (hlawful.managed hpool)]
    · by_cases hfactory : factoryOf poolAddress = factory
      · -- The manager of the factory stands in the list once.
        rw [← hfactory, hcurrent _ hmem] at hmanager
        cases hmanager
        rw [← hfactory, getPool_of_unchanged (hcurrent _ hmem) (hlawful.managed hpool)]
      · have huntracked : tracked'.get? poolAddress = none := by
          rw [Option.eq_none_iff_forall_ne_some]
          exact fun p hp => hfactory (hregistered factory tracked' hmanager poolAddress p hp).1
        rw [getPool_of_unchanged hmanager (hlawful.foreign huntracked hfactory)]
        exact ih hcurrent hmem

/-- The loop over managers of which the one of the pool's factory does not track it. -/
theorem HelperCalls.Lawful.searchUntracked (hlawful : degenbot.Lawful factoryOf)
    (hregistered : Registered factoryOf s.poolManagers)
    (hnone : helperOf factoryOf s.poolManagers poolAddress = none)
    {managers : List (Address × TrackedPools)}
    (hcurrent : ∀ manager ∈ managers, s.poolManagers.get? manager.1 = some manager.2) :
    Found factoryOf s poolAddress
      (HandlerState.searchManagers degenbot poolAddress stateBlock managers s) := by
  induction managers with
  | nil => exact .unknown hnone
  | cons manager rest ih =>
    obtain ⟨factory, tracked⟩ := manager
    have hmanager := hcurrent (factory, tracked) (List.mem_cons_self ..)
    have hrest := ih fun m hm => hcurrent m (List.mem_cons_of_mem _ hm)
    have huntracked : tracked.get? poolAddress = none := by
      by_cases hfactory : factoryOf poolAddress = factory
      · exact helperOf_eq_none.mp hnone tracked (hfactory ▸ hmanager)
      · rw [Option.eq_none_iff_forall_ne_some]
        exact fun p hp => hfactory (hregistered factory tracked hmanager poolAddress p hp).1
    rw [HandlerState.searchManagers]
    rcases hlawful.getPool_untracked hmanager huntracked with ⟨e, he⟩ | ⟨rfl, helper, hbuilt⟩
    · rw [he]
      cases e with
      | managerError => exact hrest
      | _ => exact .raised hnone _
    · rw [hbuilt]
      exact .built helper hmanager huntracked

/-- A managed helper is found. -/
theorem HelperCalls.Lawful.findHelper_managed (hlawful : degenbot.Lawful factoryOf)
    (hregistered : Registered factoryOf s.poolManagers) {pool : Pool}
    (hpool : helperOf factoryOf s.poolManagers poolAddress = some pool) :
    s.findHelper degenbot poolAddress stateBlock = (.ok (some pool), s) := by
  obtain ⟨tracked, hmanager, hget⟩ := helperOf_eq_some.mp hpool
  exact hlawful.searchManaged hregistered hget (fun manager hmem => Dict.get?_eq_some.mpr hmem)
    (Dict.get?_eq_some.mp hmanager)

/-- The search of the handlers. -/
theorem HelperCalls.Lawful.findHelper (hlawful : degenbot.Lawful factoryOf)
    (hregistered : Registered factoryOf s.poolManagers) (poolAddress : Address)
    (stateBlock : Option Int) :
    Found factoryOf s poolAddress (s.findHelper degenbot poolAddress stateBlock) := by
  cases hpool : helperOf factoryOf s.poolManagers poolAddress with
  | none =>
    exact hlawful.searchUntracked hregistered hpool fun manager hmem => Dict.get?_eq_some.mpr hmem
  | some pool =>
    rw [hlawful.findHelper_managed hregistered hpool]
    exact .managed hpool

/-! ### Registering and removing -/

/-- The new helper is the managed one, and no other address is concerned. -/
theorem helperOf_register {tracked : TrackedPools} (helper : σ)
    (hmanager : s.poolManagers.get? (factoryOf poolAddress) = some tracked) (poolAddress' : Address) :
    helperOf factoryOf
        (s.register (factoryOf poolAddress) tracked poolAddress helper).poolManagers poolAddress' =
      if poolAddress' = poolAddress then some ⟨poolAddress, s.helpers.next⟩
      else helperOf factoryOf s.poolManagers poolAddress' := by
  show helperOf factoryOf (s.poolManagers.set _ _) poolAddress' = _
  rw [helperOf_set, Dict.get?_set]
  by_cases haddress : poolAddress' = poolAddress
  · rw [if_pos (by rw [haddress]), if_pos haddress, if_pos haddress]
  · rw [if_neg haddress, if_neg haddress]
    split
    · rename_i hfactory
      rw [helperOf, hfactory, hmanager]
      rfl
    · rfl

theorem Registered.register (hregistered : Registered factoryOf s.poolManagers) {tracked : TrackedPools}
    (helper : σ) (hmanager : s.poolManagers.get? (factoryOf poolAddress) = some tracked) :
    Registered factoryOf (s.register (factoryOf poolAddress) tracked poolAddress helper).poolManagers := by
  apply hregistered.set
  intro poolAddress' pool hget
  rw [Dict.get?_set] at hget
  split at hget
  · rename_i haddress
    rw [haddress, ← Option.some.inj hget]
    exact ⟨rfl, rfl⟩
  · exact hregistered _ tracked hmanager poolAddress' pool hget

/-- A lookup keeps the helpers that are managed. -/
theorem Found.keeps (hregistered : Registered factoryOf s.poolManagers)
    {outcome : Except PyError (Option Pool)} {found : HandlerState σ τ}
    (h : Found factoryOf s poolAddress (outcome, found)) :
    Registered factoryOf found.poolManagers ∧ ∀ poolAddress' pool,
      helperOf factoryOf s.poolManagers poolAddress' = some pool →
        helperOf factoryOf found.poolManagers poolAddress' = some pool := by
  cases h with
  | managed _ => exact ⟨hregistered, fun _ _ hpool => hpool⟩
  | unknown _ => exact ⟨hregistered, fun _ _ hpool => hpool⟩
  | raised _ _ => exact ⟨hregistered, fun _ _ hpool => hpool⟩
  | built helper hmanager hnone =>
    refine ⟨hregistered.register helper hmanager, fun poolAddress' pool hpool => ?_⟩
    rw [helperOf_register helper hmanager, if_neg, hpool]
    intro haddress
    subst haddress
    obtain ⟨tracked, hmanager', hget⟩ := helperOf_eq_some.mp hpool
    rw [hmanager] at hmanager'
    cases hmanager'
    rw [hnone] at hget
    cases hget

/-- The helper that is found is the managed one from then on. -/
theorem Found.helperOf_eq {pool : Pool} {found : HandlerState σ τ}
    (h : Found factoryOf s poolAddress (.ok (some pool), found)) :
    helperOf factoryOf found.poolManagers poolAddress = some pool := by
  cases h with
  | managed hpool => exact hpool
  | built helper hmanager _ => rw [helperOf_register helper hmanager, if_pos rfl]

/-- Asking one manager. -/
theorem HelperCalls.Lawful.getPool_keeps (hlawful : degenbot.Lawful factoryOf)
    (hregistered : Registered factoryOf s.poolManagers) {factory : Address} {tracked : TrackedPools}
    (hmanager : s.poolManagers.get? factory = some tracked) :
    Registered factoryOf (s.getPool degenbot factory tracked poolAddress stateBlock).2.poolManagers ∧
      ∀ poolAddress' pool, helperOf factoryOf s.poolManagers poolAddress' = some pool →
        helperOf factoryOf (s.getPool degenbot factory tracked poolAddress stateBlock).2.poolManagers
          poolAddress' = some pool := by
  cases hpool : tracked.get? poolAddress with
  | some pool =>
    rw [getPool_of_unchanged hmanager (hlawful.managed hpool)]
    exact ⟨hregistered, fun _ _ h => h⟩
  | none =>
    rcases hlawful.getPool_untracked hmanager hpool with ⟨e, he⟩ | ⟨rfl, helper, hbuilt⟩
    · rw [he]
      exact ⟨hregistered, fun _ _ h => h⟩
    · rw [hbuilt]
      exact (Found.built helper hmanager hpool).keeps hregistered

/-- A pool that is added takes no other's place. -/
theorem HelperCalls.Lawful.addPool_keeps (hlawful : degenbot.Lawful factoryOf)
    (hregistered : Registered factoryOf s.poolManagers) (factory poolAddress : Address)
    (blockNumber : Nat) :
    Registered factoryOf (s.addPool degenbot factory poolAddress blockNumber).poolManagers ∧
      ∀ poolAddress' pool, helperOf factoryOf s.poolManagers poolAddress' = some pool →
        helperOf factoryOf (s.addPool degenbot factory poolAddress blockNumber).poolManagers
          poolAddress' = some pool := by
  rw [HandlerState.addPool, HandlerState.ensureManager]
  cases hmanager : s.poolManagers.get? factory with
  | some tracked => exact hlawful.getPool_keeps hregistered hmanager
  | none =>
    cases hnew : degenbot.newManager factory with
    | error e => exact ⟨hregistered, fun _ _ h => h⟩
    | ok tracked =>
      rw [hlawful.newManager hnew]
      let s' := {s with poolManagers := s.poolManagers.set factory Dict.empty}
      have hregistered' : Registered factoryOf s'.poolManagers := by
        apply hregistered.set
        intro poolAddress pool h
        cases h
      obtain ⟨hafter, hkeeps⟩ := hlawful.getPool_keeps (s := s') hregistered'
        (Dict.get?_set_self ..)
      refine ⟨hafter, fun poolAddress' pool hpool => hkeeps poolAddress' pool ?_⟩
      show helperOf factoryOf (s.poolManagers.set factory Dict.empty) poolAddress' = some pool
      rw [helperOf_set, if_neg, hpool]
      intro haddress
      subst haddress
      rw [helperOf, hmanager] at hpool
      cases hpool

/-- The loop goes past the managers that do not track the pool. -/
theorem HelperCalls.Lawful.removeFrom (hlawful : degenbot.Lawful factoryOf)
    (hregistered : Registered factoryOf s.poolManagers) {tracked : TrackedPools} {pool : Pool}
    (hpool : tracked.get? poolAddress = some pool) {managers : List (Address × TrackedPools)}
    (hcurrent : ∀ manager ∈ managers, s.poolManagers.get? manager.1 = some manager.2)
    (hmem : (factoryOf poolAddress, tracked) ∈ managers) :
    HandlerState.removeFrom degenbot poolAddress managers s = (.ok (), {s with
      poolManagers := s.poolManagers.set (factoryOf poolAddress) (tracked.erase poolAddress)}) := by
  induction managers with
  | nil => cases hmem
  | cons manager rest ih =>
    obtain ⟨factory, tracked'⟩ := manager
    have hmanager := hcurrent (factory, tracked') (List.mem_cons_self ..)
    rw [HandlerState.removeFrom, hlawful.delItem]
    by_cases hfactory : factoryOf poolAddress = factory
    · subst hfactory
      rw [hcurrent _ hmem] at hmanager
      cases hmanager
      rw [if_pos (Dict.mem_keys.mpr ⟨pool, hpool⟩)]
    · have huntracked : poolAddress ∉ tracked'.keys := by
        intro hkey
        obtain ⟨p, hp⟩ := Dict.mem_keys.mp hkey
        exact hfactory (hregistered factory tracked' hmanager poolAddress p hp).1
      rw [if_neg huntracked]
      rcases List.mem_cons.mp hmem with heq | hmem
      · cases heq
        exact absurd rfl hfactory
      · exact ih (fun m hm => hcurrent m (List.mem_cons_of_mem _ hm)) hmem

/-- The manager that tracks the pool drops it. -/
theorem HelperCalls.Lawful.removeHelper (hlawful : degenbot.Lawful factoryOf)
    (hregistered : Registered factoryOf s.poolManagers) {tracked : TrackedPools} {pool : Pool}
    (hmanager : s.poolManagers.get? (factoryOf poolAddress) = some tracked)
    (hpool : tracked.get? poolAddress = some pool) :
    s.removeHelper degenbot poolAddress = (.ok (), {s with
      poolManagers := s.poolManagers.set (factoryOf poolAddress) (tracked.erase poolAddress)}) :=
  hlawful.removeFrom hregistered hpool (fun _ hmem => Dict.get?_eq_some.mpr hmem)
    (Dict.get?_eq_some.mp hmanager)

theorem Registered.erase (hregistered : Registered factoryOf s.poolManagers) {tracked : TrackedPools}
    (hmanager : s.poolManagers.get? (factoryOf poolAddress) = some tracked) :
    Registered factoryOf
      (s.poolManagers.set (factoryOf poolAddress) (tracked.erase poolAddress)) := by
  apply hregistered.set
  intro poolAddress' pool hget
  rw [Dict.get?_erase] at hget
  split at hget
  · cases hget
  · exact hregistered _ tracked hmanager poolAddress' pool hget

/-- No manager has the pool any more; other pools are not concerned. -/
theorem helperOf_erase {tracked : TrackedPools}
    (hmanager : s.poolManagers.get? (factoryOf poolAddress) = some tracked) (poolAddress' : Address) :
    helperOf factoryOf (s.poolManagers.set (factoryOf poolAddress) (tracked.erase poolAddress))
        poolAddress' =
      if poolAddress' = poolAddress then none else helperOf factoryOf s.poolManagers poolAddress' := by
  rw [helperOf_set, Dict.get?_erase]
  by_cases haddress : poolAddress' = poolAddress
  · rw [if_pos (by rw [haddress]), if_pos haddress, if_pos haddress]
  · rw [if_neg haddress, if_neg haddress]
    split
    · rename_i hfactory
      rw [helperOf, hfactory, hmanager]
      rfl
    · rfl

end Lookup

/-! ### What a call does to the managers -/

namespace Handling

/-- The call is a Burn whose update step fails an assertion. -/
def Removes (abi : EthAbi Topic) (call : Handling Topic σ τ) (s : HandlerState σ τ) : Prop :=
  call.processFunc = .processBurnEvent ∧ ∃ pool message after,
    call.updateStep abi s = some (pool, (.error (.assertionError message), after))

section Step
variable {abi : EthAbi Topic} {call : Handling Topic σ τ} {s : HandlerState σ τ}
  {factoryOf : Address → Address}

/-- The helper that is updated is the managed one. -/
theorem updateStep_managed (hlawful : call.degenbot.Lawful factoryOf)
    (hregistered : Registered factoryOf s.poolManagers) {pool : Pool} {outcome : Except PyError Unit}
    {after : HandlerState σ τ} (h : call.updateStep abi s = some (pool, (outcome, after))) :
    Registered factoryOf after.poolManagers ∧
      helperOf factoryOf after.poolManagers call.log.address = some pool ∧
      ∀ poolAddress pool', helperOf factoryOf s.poolManagers poolAddress = some pool' →
        helperOf factoryOf after.poolManagers poolAddress = some pool' := by
  obtain ⟨found, helpers, snapshot, hfound, rfl⟩ := updateStep_frame h
  have hlookup := hlawful.findHelper hregistered call.log.address call.stateBlock
  rw [← lookup.eq_1, hfound] at hlookup
  obtain ⟨hafter, hkeeps⟩ := hlookup.keeps hregistered
  exact ⟨hafter, hlookup.helperOf_eq, hkeeps⟩

/-- After the error of a Burn. -/
theorem onError_removes (hlawful : call.degenbot.Lawful factoryOf)
    {after : HandlerState σ τ} (hregistered : Registered factoryOf after.poolManagers) {pool : Pool}
    (hpool : helperOf factoryOf after.poolManagers call.log.address = some pool)
    (hburn : call.processFunc = .processBurnEvent) (message : String) :
    Registered factoryOf (call.onError pool (.assertionError message) after).2.poolManagers ∧
      ∀ poolAddress, helperOf factoryOf
          (call.onError pool (.assertionError message) after).2.poolManagers poolAddress =
        if poolAddress = call.log.address then none
        else helperOf factoryOf after.poolManagers poolAddress := by
  obtain ⟨tracked, hmanager, hget⟩ := helperOf_eq_some.mp hpool
  have haddress : pool.address = call.log.address := hregistered.address hpool
  have hremove : (call.onError pool (.assertionError message) after).2 = {after with
      poolManagers := after.poolManagers.set (factoryOf call.log.address)
        (tracked.erase call.log.address)} := by
    rw [onError, hburn]
    show (after.removeHelper call.degenbot pool.address).2 = _
    rw [haddress, hlawful.removeHelper hregistered hmanager hget]
  rw [hremove]
  exact ⟨hregistered.erase hmanager, helperOf_erase hmanager⟩

/-- Any other error changes nothing. -/
theorem onError_goesOn {pool : Pool} {e : PyError} {after : HandlerState σ τ}
    (h : ¬(call.processFunc = .processBurnEvent ∧ ∃ message, e = .assertionError message)) :
    (call.onError pool e after).2 = after := by
  unfold onError
  cases hfunc : call.processFunc with
  | processBurnEvent =>
    cases e with
    | assertionError message => exact absurd ⟨hfunc, message, rfl⟩ h
    | _ => rfl
  | _ => rfl

variable (abi) in
/-- A call that does not remove keeps what is managed. -/
theorem keeps_next (hlawful : call.degenbot.Lawful factoryOf)
    (hregistered : Registered factoryOf s.poolManagers) (hremoves : ¬call.Removes abi s) :
    Registered factoryOf (call.next abi s).poolManagers ∧ ∀ poolAddress pool,
      helperOf factoryOf s.poolManagers poolAddress = some pool →
        helperOf factoryOf (call.next abi s).poolManagers poolAddress = some pool := by
  have hturn := call.turn abi s
  generalize call.next abi s = next at hturn ⊢
  cases hturn with
  | unread _ => exact ⟨hregistered, fun _ _ hpool => hpool⟩
  | looked _ =>
    have hlookup := hlawful.findHelper hregistered call.log.address call.stateBlock
    exact hlookup.keeps hregistered
  | added _ poolAddress _ =>
    exact hlawful.addPool_keeps hregistered call.log.address poolAddress call.log.blockNumber
  | updated h =>
    obtain ⟨hafter, _, hkeeps⟩ := updateStep_managed hlawful hregistered h
    exact ⟨hafter, hkeeps⟩
  | @failed pool e after h =>
    obtain ⟨hafter, _, hkeeps⟩ := updateStep_managed hlawful hregistered h
    have hother : ¬(call.processFunc = .processBurnEvent ∧ ∃ message, e = .assertionError message) := by
      intro hassertion
      obtain ⟨hburn, message, rfl⟩ := hassertion
      exact hremoves ⟨hburn, pool, message, after, h⟩
    rw [onError_goesOn hother]
    exact ⟨hafter, hkeeps⟩

/-- A call that removes takes the helper of its address away and keeps all others. -/
theorem Removes.next (hremoves : call.Removes abi s) (hlawful : call.degenbot.Lawful factoryOf)
    (hregistered : Registered factoryOf s.poolManagers) :
    Registered factoryOf (call.next abi s).poolManagers ∧
      helperOf factoryOf (call.next abi s).poolManagers call.log.address = none ∧
      ∀ poolAddress pool, poolAddress ≠ call.log.address →
        helperOf factoryOf s.poolManagers poolAddress = some pool →
        helperOf factoryOf (call.next abi s).poolManagers poolAddress = some pool := by
  obtain ⟨hburn, pool, message, after, h⟩ := hremoves
  obtain ⟨hafter, hpool, hkeeps⟩ := updateStep_managed hlawful hregistered h
  obtain ⟨hremoved, hhelper⟩ := onError_removes hlawful hafter hpool hburn message
  rw [next_of_failed h]
  refine ⟨hremoved, ?_, fun poolAddress pool' hne hpool' => ?_⟩
  · rw [hhelper, if_pos rfl]
  · rw [hhelper, if_neg hne]
    exact hkeeps poolAddress pool' hpool'

variable (abi) (call) in
/-- A managed helper stays the managed one, unless the call removes it. -/
theorem helperOf_next (hlawful : call.degenbot.Lawful factoryOf)
    (hregistered : Registered factoryOf s.poolManagers) :
    Registered factoryOf (call.next abi s).poolManagers ∧
      ∀ poolAddress pool, helperOf factoryOf s.poolManagers poolAddress = some pool →
        ¬(call.Removes abi s ∧ call.log.address = poolAddress) →
        helperOf factoryOf (call.next abi s).poolManagers poolAddress = some pool := by
  by_cases hremoves : call.Removes abi s
  · obtain ⟨hafter, _, hkeeps⟩ := hremoves.next hlawful hregistered
    refine ⟨hafter, fun poolAddress pool hpool hother => hkeeps poolAddress pool ?_ hpool⟩
    exact fun haddress => hother ⟨hremoves, haddress.symm⟩
  · obtain ⟨hafter, hkeeps⟩ := keeps_next abi hlawful hregistered hremoves
    exact ⟨hafter, fun poolAddress pool hpool _ => hkeeps poolAddress pool hpool⟩

theorem registered_run {calls : List (Handling Topic σ τ)}
    (hlawful : ∀ call ∈ calls, call.degenbot.Lawful factoryOf)
    (hregistered : Registered factoryOf s.poolManagers) :
    Registered factoryOf (run abi calls s).poolManagers := by
  induction calls generalizing s with
  | nil => exact hregistered
  | cons call rest ih =>
    apply ih fun c hc => hlawful c (List.mem_cons_of_mem call hc)
    exact (helperOf_next abi call (hlawful call (List.mem_cons_self ..)) hregistered).1

end Step
end Handling

/-! ### A degenbot of one factory -/

/-- All pools are of this factory, and what is asked for is built. -/
def oneFactory (factory : Address) (build : Address → Option Int → σ)
    (update : PoolUpdate → σ → Except PyError Unit × σ)
    (updateSnapshot : Address → σ → τ → Except PyError Unit × τ) : HelperCalls σ τ where
  newManager _ := .ok .empty
  getPool factory' tracked helpers poolAddress stateBlock :=
    match tracked.get? poolAddress with
    | some pool => (.ok pool, tracked, helpers)
    | none =>
      if factory' = factory then (.ok ⟨poolAddress, helpers.next⟩,
        tracked.set poolAddress ⟨poolAddress, helpers.next⟩,
        helpers.alloc (build poolAddress stateBlock))
      else (.error .managerError, tracked, helpers)
  delItem tracked poolAddress :=
    if poolAddress ∈ tracked.keys then .ok (tracked.erase poolAddress) else .error .keyError
  update := update
  updateSnapshot := updateSnapshot

theorem oneFactory_lawful (factory : Address) (build : Address → Option Int → σ)
    (update : PoolUpdate → σ → Except PyError Unit × σ)
    (updateSnapshot : Address → σ → τ → Except PyError Unit × τ) :
    (oneFactory factory build update updateSnapshot).Lawful fun _ => factory where
  newManager h := (Except.ok.inj h).symm
  managed h := by simp only [oneFactory, h]
  foreign h hfactory := by simp only [oneFactory, h, if_neg (Ne.symm hfactory)]
  built tracked helpers poolAddress stateBlock h :=
    .inr ⟨build poolAddress stateBlock, by simp only [oneFactory, h, if_pos]⟩
  delItem _ _ := rfl

end CreamBots.App
