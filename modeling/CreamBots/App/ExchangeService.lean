import CreamBots.Builders.Record
import CreamBots.Data.Listen
import CreamBots.Data.Raise

/-! Registering the exchanges of a chain.

`add_deployments` goes through the factories of `chain_data` and registers those that
degenbot does not know. The deployment to be registered is a variable that lives across
the rounds, and a V3 factory of an exchange that is neither `uniswap` nor `pancakeswap`
does not set it: what is registered for such a factory is what an earlier one has left
there, or nothing at all. Every factory is registered as itself exactly if no such
factory meets a deployment of another, and is left out just if it is the only one of its
address (`factories_registered_iff`, `registered_as_another`). -/
namespace CreamBots.App
open Data Builders

/-! ### Deployments -/

inductive PoolAbi where
  | uniswapV2
  | uniswapV3
  | pancakeswapV3
deriving DecidableEq

structure FactoryDeployment where
  address : Address
  deployer : Option Address
  poolInitHash : Option String
  poolAbi : PoolAbi
deriving DecidableEq

/-- A V2 exchange has no tick lens. -/
structure ExchangeDeployment where
  name : String
  chainId : Nat
  factory : FactoryDeployment
  tickLens : Option Address
deriving DecidableEq

/-- What `chain_data` has of a factory. -/
structure FactoryInfo where
  factoryAddress : Option String
  poolInitHash : Option String
  tickLens : Option String

/-- A factory, with the version and the exchange that it is listed under. -/
structure FactoryEntry where
  version : String
  exchangeName : String
  info : FactoryInfo

/-- What is read of `chain_data`. -/
structure ChainFactories where
  chainId : Nat
  chainName : String
  factories : Dict String (Dict String FactoryInfo)

/-- The factories in the order of the two loops. -/
def ChainFactories.entries (chain : ChainFactories) : List FactoryEntry :=
  chain.factories.items.flatMap fun p => p.2.items.map fun q => ⟨p.1, q.1, q.2⟩

/-- `FACTORY_DEPLOYMENTS[chain_id]`. -/
abbrev FactoryDeployments := Dict Address ExchangeDeployment

/-- `to_checksum_address`, and the n-th call of `register_exchange`. -/
structure ExchangeSurroundings where
  toChecksumAddress : Option String → Except PyError Address
  registerExchange : Nat → ExchangeDeployment → FactoryDeployments →
    Except PyError Unit × FactoryDeployments

/-- What `register_exchange` is relied on for. -/
def ExchangeSurroundings.Records (python : ExchangeSurroundings) : Prop :=
  ∀ {n deployment before after},
    python.registerExchange n deployment before = (.ok (), after) →
      after = before.set deployment.factory.address deployment

/-- A call of `register_exchange`, made for the factory of this address. -/
structure RegisterCall where
  factoryAddress : Address
  deployment : ExchangeDeployment
  outcome : Except PyError Unit

/-- The variable `factory_deployment`, none as long as it is unbound; what is registered;
and the calls that were made. -/
structure Deployments where
  factoryDeployment : Option ExchangeDeployment
  factoryDeployments : FactoryDeployments
  calls : List RegisterCall

/-! ### add_deployments -/

section Add
variable (python : ExchangeSurroundings) (chain : ChainFactories)

def exchangeDeployment (entry : FactoryEntry) (factoryAddress : Address) (poolAbi : PoolAbi)
    (tickLens : Option Address) : ExchangeDeployment where
  name := chain.chainName ++ " " ++ entry.exchangeName ++ " " ++ entry.version
  chainId := chain.chainId
  factory := ⟨factoryAddress, none, entry.info.poolInitHash, poolAbi⟩
  tickLens := tickLens

namespace Deployments

def start (factoryDeployments : FactoryDeployments) : Deployments := ⟨none, factoryDeployments, []⟩

/-- `try: register_exchange(factory_deployment)`. While the variable is unbound there is
no call but an `UnboundLocalError`, which is logged as well. -/
def register (s : Deployments) (factoryAddress : Address) : Deployments :=
  match s.factoryDeployment with
  | none => s
  | some deployment =>
    match python.registerExchange s.calls.length deployment s.factoryDeployments with
    | (outcome, factoryDeployments) =>
      {s with factoryDeployments, calls := s.calls ++ [⟨factoryAddress, deployment, outcome⟩]}

/-- A round of the loops: the state after it and what it raises. -/
def addDeployment (s : Deployments) (entry : FactoryEntry) : Deployments × Option PyError :=
  match python.toChecksumAddress entry.info.factoryAddress with
  | .error e => (s, some e)
  | .ok factoryAddress =>
    if factoryAddress ∈ s.factoryDeployments.keys then (s, none)
    else if entry.version = "v2" then
      let own := exchangeDeployment chain entry factoryAddress .uniswapV2 none
      ({s with factoryDeployment := some own}.register python factoryAddress, none)
    else if entry.version = "v3" then
      match python.toChecksumAddress entry.info.tickLens with
      | .error e => (s, some e)
      | .ok tickLens =>
        if entry.exchangeName = "uniswap" then
          let own := exchangeDeployment chain entry factoryAddress .uniswapV3 (some tickLens)
          ({s with factoryDeployment := some own}.register python factoryAddress, none)
        else if entry.exchangeName = "pancakeswap" then
          let own := exchangeDeployment chain entry factoryAddress .pancakeswapV3 (some tickLens)
          ({s with factoryDeployment := some own}.register python factoryAddress, none)
        -- The variable is what it was.
        else (s.register python factoryAddress, none)
    else (s, none)

end Deployments

/-- What is raised, if anything, comes with the factories that are not reached. -/
def addDeployments (factoryDeployments : FactoryDeployments) :
    Deployments × Option (PyError × List FactoryEntry) :=
  forEach (Deployments.addDeployment python chain) (.start factoryDeployments) chain.entries

end Add

/-! ### What a round can come to -/

/-- A deployment is made for such a factory. -/
def FactoryEntry.Recognised (entry : FactoryEntry) : Prop :=
  entry.version = "v2" ∨
    entry.version = "v3" ∧ (entry.exchangeName = "uniswap" ∨ entry.exchangeName = "pancakeswap")

/-- A V3 factory of any other exchange. -/
def FactoryEntry.Unrecognised (entry : FactoryEntry) : Prop :=
  entry.version = "v3" ∧ entry.exchangeName ≠ "uniswap" ∧ entry.exchangeName ≠ "pancakeswap"

theorem FactoryEntry.Unrecognised.not_recognised {entry : FactoryEntry} (h : entry.Unrecognised) :
    ¬entry.Recognised := by
  intro hrecognised
  obtain ⟨hv3, huniswap, hpancakeswap⟩ := h
  rcases hrecognised with hv2 | ⟨_, hname⟩
  · rw [hv2] at hv3
    exact absurd hv3 (by decide)
  · exact hname.elim huniswap hpancakeswap

namespace Deployments
section Turns
variable (python : ExchangeSurroundings)

/-- The factory is not recognised nor registered, and the last deployment that was made is
of another one. -/
def Stale (s : Deployments) (entry : FactoryEntry) : Prop :=
  entry.Unrecognised ∧ ∃ factoryAddress tickLens deployment,
    python.toChecksumAddress entry.info.factoryAddress = .ok factoryAddress ∧
    factoryAddress ∉ s.factoryDeployments.keys ∧
    python.toChecksumAddress entry.info.tickLens = .ok tickLens ∧
    s.factoryDeployment = some deployment ∧ deployment.factory.address ≠ factoryAddress

variable {python} in
/-- Where the address can be read, it is the one that is not registered. -/
theorem stale_iff {s : Deployments} {entry : FactoryEntry} {factoryAddress : Address}
    (haddress : python.toChecksumAddress entry.info.factoryAddress = .ok factoryAddress) :
    Stale python s entry ↔ entry.Unrecognised ∧ factoryAddress ∉ s.factoryDeployments.keys ∧
      ∃ tickLens deployment, python.toChecksumAddress entry.info.tickLens = .ok tickLens ∧
        s.factoryDeployment = some deployment ∧ deployment.factory.address ≠ factoryAddress := by
  constructor
  · intro hstale
    obtain ⟨hunrecognised, factoryAddress', tickLens, deployment, haddress', hnew, hrest⟩ := hstale
    rw [haddress] at haddress'
    cases haddress'
    exact ⟨hunrecognised, hnew, tickLens, deployment, hrest⟩
  · intro h
    obtain ⟨hunrecognised, hnew, tickLens, deployment, hrest⟩ := h
    exact ⟨hunrecognised, factoryAddress, tickLens, deployment, haddress, hnew, hrest⟩

/-- An address that cannot be read; a factory that is registered already; one that is
recognised; one that is not; one of another version. -/
inductive Turn (s : Deployments) (entry : FactoryEntry) : Deployments × Option PyError → Prop where
  | raised (e : PyError) (hstale : ¬Stale python s entry) : Turn s entry (s, some e)
  | known {factoryAddress : Address}
    (haddress : python.toChecksumAddress entry.info.factoryAddress = .ok factoryAddress)
    (hknown : factoryAddress ∈ s.factoryDeployments.keys) : Turn s entry (s, none)
  | own {factoryAddress : Address} {own : ExchangeDeployment}
    (haddress : python.toChecksumAddress entry.info.factoryAddress = .ok factoryAddress)
    (hrecognised : entry.Recognised) (hown : own.factory.address = factoryAddress) :
    Turn s entry ({s with factoryDeployment := some own}.register python factoryAddress, none)
  | left {factoryAddress tickLens : Address}
    (haddress : python.toChecksumAddress entry.info.factoryAddress = .ok factoryAddress)
    (hnew : factoryAddress ∉ s.factoryDeployments.keys)
    (htick : python.toChecksumAddress entry.info.tickLens = .ok tickLens)
    (hunrecognised : entry.Unrecognised) : Turn s entry (s.register python factoryAddress, none)
  | other {factoryAddress : Address}
    (haddress : python.toChecksumAddress entry.info.factoryAddress = .ok factoryAddress)
    (hv2 : entry.version ≠ "v2") (hv3 : entry.version ≠ "v3") : Turn s entry (s, none)

theorem turn (chain : ChainFactories) (s : Deployments) (entry : FactoryEntry) :
    Turn python s entry (s.addDeployment python chain entry) := by
  unfold addDeployment
  cases haddress : python.toChecksumAddress entry.info.factoryAddress with
  | error e =>
    refine .raised e ?_
    intro hstale
    obtain ⟨_, _, _, _, haddress', _⟩ := hstale
    rw [haddress] at haddress'
    cases haddress'
  | ok factoryAddress =>
    dsimp only
    by_cases hknown : factoryAddress ∈ s.factoryDeployments.keys
    · rw [if_pos hknown]
      exact .known haddress hknown
    rw [if_neg hknown]
    by_cases hv2 : entry.version = "v2"
    · rw [if_pos hv2]
      exact .own haddress (.inl hv2) rfl
    rw [if_neg hv2]
    by_cases hv3 : entry.version = "v3"
    · rw [if_pos hv3]
      cases htick : python.toChecksumAddress entry.info.tickLens with
      | error e =>
        refine .raised e ?_
        intro hstale
        obtain ⟨_, _, _, _, _, _, htick', _⟩ := hstale
        rw [htick] at htick'
        cases htick'
      | ok tickLens =>
        dsimp only
        split_ifs with huniswap hpancakeswap
        · exact .own haddress (.inr ⟨hv3, .inl huniswap⟩) rfl
        · exact .own haddress (.inr ⟨hv3, .inr hpancakeswap⟩) rfl
        · exact .left haddress hknown htick ⟨hv3, huniswap, hpancakeswap⟩
    · rw [if_neg hv3]
      exact .other haddress hv2 hv3

/-! ### The calls -/

/-- Every call passes a deployment of the factory that it is made for. -/
def CallsOwn (s : Deployments) : Prop :=
  ∀ call ∈ s.calls, call.deployment.factory.address = call.factoryAddress

/-- No call has raised. -/
def NoneRaised (s : Deployments) : Prop := ∀ call ∈ s.calls, call.outcome = .ok ()

variable {python} {s : Deployments} {entry : FactoryEntry}

theorem register_unbound (h : s.factoryDeployment = none) (factoryAddress : Address) :
    s.register python factoryAddress = s := by
  rw [register, h]

variable (python) in
theorem register_bound {deployment : ExchangeDeployment} (h : s.factoryDeployment = some deployment)
    (factoryAddress : Address) : ∃ outcome factoryDeployments,
      python.registerExchange s.calls.length deployment s.factoryDeployments =
        (outcome, factoryDeployments) ∧
      s.register python factoryAddress = {s with
        factoryDeployments, calls := s.calls ++ [⟨factoryAddress, deployment, outcome⟩]} := by
  rw [register, h]
  exact ⟨_, _, rfl, rfl⟩

theorem callsOwn_register {deployment : ExchangeDeployment}
    (h : s.factoryDeployment = some deployment) (factoryAddress : Address) :
    (s.register python factoryAddress).CallsOwn ↔
      s.CallsOwn ∧ deployment.factory.address = factoryAddress := by
  obtain ⟨outcome, factoryDeployments, _, hregister⟩ := register_bound python h factoryAddress
  rw [hregister, CallsOwn, CallsOwn, List.forall_mem_append, List.forall_mem_singleton]

/-- A round passes a deployment of another factory exactly if it meets one. -/
theorem callsOwn_addDeployment (chain : ChainFactories) (s : Deployments) (entry : FactoryEntry) :
    (s.addDeployment python chain entry).1.CallsOwn ↔ s.CallsOwn ∧ ¬Stale python s entry := by
  have hturn := turn python chain s entry
  generalize s.addDeployment python chain entry = after at hturn ⊢
  cases hturn with
  | raised e hstale => exact (and_iff_left hstale).symm
  | known haddress hknown =>
    refine (and_iff_left ?_).symm
    rw [stale_iff haddress]
    exact fun hstale => hstale.2.1 hknown
  | own haddress hrecognised hown =>
    rw [callsOwn_register rfl]
    exact and_congr Iff.rfl (iff_of_true hown fun hstale => hstale.1.not_recognised hrecognised)
  | @left factoryAddress tickLens haddress hnew htick hunrecognised =>
    rw [stale_iff haddress]
    cases hdeployment : s.factoryDeployment with
    | none =>
      rw [register_unbound hdeployment]
      refine (and_iff_left ?_).symm
      intro hstale
      obtain ⟨_, _, _, _, _, hbound, _⟩ := hstale
      cases hbound
    | some deployment =>
      rw [callsOwn_register hdeployment]
      refine and_congr Iff.rfl ⟨?_, fun hstale => ?_⟩
      · intro hown hstale
        obtain ⟨_, _, _, _, _, hbound, hother⟩ := hstale
        cases hbound
        exact hother hown
      · by_contra hother
        exact hstale ⟨hunrecognised, hnew, tickLens, deployment, htick, rfl, hother⟩
  | other haddress hv2 hv3 =>
    refine (and_iff_left ?_).symm
    intro hstale
    obtain ⟨⟨hv3', _⟩, _⟩ := hstale
    exact hv3 hv3'

/-! ### What is registered -/

/-- While nothing raises, the last deployment that was made is registered. -/
def LastRegistered (s : Deployments) : Prop :=
  ∀ deployment, s.factoryDeployment = some deployment →
    deployment.factory.address ∈ s.factoryDeployments.keys

theorem noneRaised_of_register {factoryAddress : Address}
    (h : (s.register python factoryAddress).NoneRaised) : s.NoneRaised := by
  cases hdeployment : s.factoryDeployment with
  | none => rwa [register_unbound hdeployment] at h
  | some deployment =>
    obtain ⟨outcome, factoryDeployments, _, hregister⟩ :=
      register_bound python hdeployment factoryAddress
    rw [hregister] at h
    exact fun call hcall => h call (List.mem_append_left _ hcall)

theorem noneRaised_of_addDeployment (chain : ChainFactories) (s : Deployments) (entry : FactoryEntry)
    (h : (s.addDeployment python chain entry).1.NoneRaised) : s.NoneRaised := by
  have hturn := turn python chain s entry
  generalize s.addDeployment python chain entry = after at hturn h
  cases hturn with
  | raised _ _ => exact h
  | known _ _ => exact h
  | own _ _ _ =>
    intro call hcall
    exact noneRaised_of_register h call hcall
  | left _ _ _ _ => exact noneRaised_of_register h
  | other _ _ _ => exact h

/-- A call that does not raise registers what it passes. -/
theorem keys_register (hrecords : python.Records) {deployment : ExchangeDeployment}
    (h : s.factoryDeployment = some deployment) {factoryAddress : Address}
    (hnone : (s.register python factoryAddress).NoneRaised) :
    (s.register python factoryAddress).factoryDeployment = some deployment ∧
      ∀ address, address ∈ (s.register python factoryAddress).factoryDeployments.keys ↔
        address = deployment.factory.address ∨ address ∈ s.factoryDeployments.keys := by
  obtain ⟨outcome, factoryDeployments, hcall, hregister⟩ :=
    register_bound python h factoryAddress
  rw [hregister] at hnone ⊢
  have houtcome : outcome = .ok () :=
    hnone ⟨factoryAddress, deployment, outcome⟩ (List.mem_append_right _ (List.mem_singleton_self _))
  rw [houtcome] at hcall
  refine ⟨h, fun address => ?_⟩
  rw [hrecords hcall]
  exact Dict.mem_keys_set

/-- A round that meets no deployment of another factory registers its own one, if it makes
one. -/
theorem keys_addDeployment (hrecords : python.Records) {chain : ChainFactories} {after : Deployments}
    (h : s.addDeployment python chain entry = (after, none)) (hnone : after.NoneRaised)
    (hstale : ¬Stale python s entry) (hlast : s.LastRegistered) :
    after.LastRegistered ∧ ∃ factoryAddress,
      python.toChecksumAddress entry.info.factoryAddress = .ok factoryAddress ∧
      ∀ address, address ∈ after.factoryDeployments.keys ↔
        (entry.Recognised ∧ address = factoryAddress) ∨ address ∈ s.factoryDeployments.keys := by
  have hturn := turn python chain s entry
  rw [h] at hturn
  cases hturn with
  | @known factoryAddress haddress hknown =>
    refine ⟨hlast, factoryAddress, haddress, fun address => (or_iff_right_of_imp ?_).symm⟩
    intro hown
    obtain ⟨_, rfl⟩ := hown
    exact hknown
  | @own factoryAddress own haddress hrecognised hown =>
    obtain ⟨hbound, hkeys⟩ := keys_register hrecords rfl hnone
    refine ⟨fun deployment hdeployment => ?_, factoryAddress, haddress, fun address => ?_⟩
    · rw [hbound] at hdeployment
      cases hdeployment
      exact (hkeys _).mpr (.inl rfl)
    · rw [hkeys, hown, and_iff_right hrecognised]
  | @left factoryAddress tickLens haddress hnew htick hunrecognised =>
    cases hdeployment : s.factoryDeployment with
    | none =>
      rw [register_unbound hdeployment]
      refine ⟨hlast, factoryAddress, haddress, fun address => (or_iff_right ?_).symm⟩
      exact fun hown => hunrecognised.not_recognised hown.1
    | some deployment =>
      -- What it would be registered as is registered already, so it is not its own.
      refine absurd ⟨hunrecognised, factoryAddress, tickLens, deployment, haddress, hnew, htick,
        hdeployment, ?_⟩ hstale
      intro hsame
      subst hsame
      exact hnew (hlast deployment hdeployment)
  | @other factoryAddress haddress hv2 hv3 =>
    refine ⟨hlast, factoryAddress, haddress, fun address => (or_iff_right ?_).symm⟩
    intro hown
    rcases hown with ⟨hrecognised | ⟨hrecognised, _⟩, _⟩
    · exact hv2 hrecognised
    · exact hv3 hrecognised

/-- Over all rounds. -/
theorem keys_forEach (hrecords : python.Records) {chain : ChainFactories} {final : Deployments}
    (hnone : final.NoneRaised) (entries : List FactoryEntry) : ∀ {s : Deployments},
    forEach (addDeployment python chain) s entries = (final, none) →
    (∀ before entry after, entries = before ++ entry :: after → ∀ s',
      forEach (addDeployment python chain) s before = (s', none) → ¬Stale python s' entry) →
    s.LastRegistered →
    (∀ entry ∈ entries, ∃ factoryAddress,
      python.toChecksumAddress entry.info.factoryAddress = .ok factoryAddress) ∧
    ∀ address, address ∈ final.factoryDeployments.keys ↔
      (∃ entry ∈ entries, entry.Recognised ∧
        python.toChecksumAddress entry.info.factoryAddress = .ok address) ∨
      address ∈ s.factoryDeployments.keys := by
  induction entries with
  | nil =>
    intro s h _ _
    cases h
    simp
  | cons entry rest ih =>
    intro s h hstale hlast
    obtain ⟨middle, hstep, hrest⟩ := forEach_cons_eq_none.mp h
    obtain ⟨hfirst, hlater⟩ := forall_met_cons.mp hstale
    have hnone' : middle.NoneRaised :=
      of_forEach (fun s entry => noneRaised_of_addDeployment chain s entry) (by rwa [hrest])
    obtain ⟨hlast', factoryAddress, haddress, hkeys⟩ :=
      keys_addDeployment hrecords hstep hnone' hfirst hlast
    obtain ⟨haddresses, hkeys'⟩ := ih hrest (hlater middle hstep) hlast'
    refine ⟨List.forall_mem_cons.mpr ⟨⟨factoryAddress, haddress⟩, haddresses⟩, fun address => ?_⟩
    have hfirst' : entry.Recognised ∧
        python.toChecksumAddress entry.info.factoryAddress = .ok address ↔
          entry.Recognised ∧ address = factoryAddress := by
      rw [haddress, Except.ok.injEq]
      exact and_congr_right fun _ => eq_comm
    rw [hkeys', hkeys, List.exists_mem_cons_iff, hfirst']
    exact or_left_comm.trans or_assoc.symm

end Turns
end Deployments

/-! ### Every factory as itself -/

section Main
variable (python : ExchangeSurroundings) (chain : ChainFactories)

/-- Each V2 and each V3 factory has its address registered. -/
def AllRegistered (factoryDeployments : FactoryDeployments) : Prop :=
  ∀ entry ∈ chain.entries, entry.version = "v2" ∨ entry.version = "v3" → ∃ factoryAddress,
    python.toChecksumAddress entry.info.factoryAddress = .ok factoryAddress ∧
    factoryAddress ∈ factoryDeployments.keys

/-- The factories that are not recognised are registered beforehand, or have the address of
one that is recognised. -/
def Covered (factoryDeployments : FactoryDeployments) : Prop :=
  ∀ entry ∈ chain.entries, entry.Unrecognised → ∃ factoryAddress,
    python.toChecksumAddress entry.info.factoryAddress = .ok factoryAddress ∧
    ((∃ entry' ∈ chain.entries, entry'.Recognised ∧
        python.toChecksumAddress entry'.info.factoryAddress = .ok factoryAddress) ∨
      factoryAddress ∈ factoryDeployments.keys)

theorem FactoryEntry.recognised_or_unrecognised {entry : FactoryEntry}
    (h : entry.version = "v2" ∨ entry.version = "v3") : entry.Recognised ∨ entry.Unrecognised := by
  by_cases hrecognised : entry.Recognised
  · exact .inl hrecognised
  · rw [FactoryEntry.Recognised, not_or, not_and, not_or] at hrecognised
    obtain ⟨hv2, hname⟩ := hrecognised
    have hv3 := h.resolve_left hv2
    exact .inr ⟨hv3, hname hv3⟩

variable {python chain}

/-- If nothing is stale and nothing raises. -/
theorem allRegistered_iff (hrecords : python.Records) {factoryDeployments : FactoryDeployments}
    {final : Deployments} (h : addDeployments python chain factoryDeployments = (final, none))
    (hnone : final.NoneRaised)
    (hstale : ∀ before entry after, chain.entries = before ++ entry :: after → ∀ s,
      forEach (Deployments.addDeployment python chain) (.start factoryDeployments) before = (s, none) →
        ¬Deployments.Stale python s entry) :
    AllRegistered python chain final.factoryDeployments ↔ Covered python chain factoryDeployments := by
  have hstart : (Deployments.start factoryDeployments).LastRegistered := by
    intro deployment hdeployment
    cases hdeployment
  obtain ⟨haddresses, hkeys⟩ := Deployments.keys_forEach hrecords hnone chain.entries h hstale hstart
  constructor
  · intro hall entry hentry hunrecognised
    obtain ⟨factoryAddress, haddress, hregistered⟩ := hall entry hentry (.inr hunrecognised.1)
    exact ⟨factoryAddress, haddress, (hkeys factoryAddress).mp hregistered⟩
  · intro hcovered entry hentry hversion
    rcases FactoryEntry.recognised_or_unrecognised hversion with hrecognised | hunrecognised
    · obtain ⟨factoryAddress, haddress⟩ := haddresses entry hentry
      exact ⟨factoryAddress, haddress,
        (hkeys factoryAddress).mpr (.inl ⟨entry, hentry, hrecognised, haddress⟩)⟩
    · obtain ⟨factoryAddress, haddress, hshared⟩ := hcovered entry hentry hunrecognised
      exact ⟨factoryAddress, haddress, (hkeys factoryAddress).mpr hshared⟩

end Main

/-- **Every factory is registered as itself exactly if no factory that is not recognised
meets a deployment of another**, and then none is left out just if all such factories are
covered. -/
theorem factories_registered_iff (python : ExchangeSurroundings) (hrecords : python.Records)
    (chain : ChainFactories) (factoryDeployments : FactoryDeployments) :
    ((addDeployments python chain factoryDeployments).1.CallsOwn ∧
        ((addDeployments python chain factoryDeployments).2 = none →
          (addDeployments python chain factoryDeployments).1.NoneRaised →
            AllRegistered python chain
              (addDeployments python chain factoryDeployments).1.factoryDeployments)) ↔
      (∀ before entry after, chain.entries = before ++ entry :: after → ∀ s,
        forEach (Deployments.addDeployment python chain) (.start factoryDeployments) before =
          (s, none) → ¬Deployments.Stale python s entry) ∧
        ((addDeployments python chain factoryDeployments).2 = none →
          (addDeployments python chain factoryDeployments).1.NoneRaised →
            Covered python chain factoryDeployments) := by
  have hcalls : (addDeployments python chain factoryDeployments).1.CallsOwn ↔
      ∀ before entry after, chain.entries = before ++ entry :: after → ∀ s,
        forEach (Deployments.addDeployment python chain) (.start factoryDeployments) before =
          (s, none) → ¬Deployments.Stale python s entry := by
    refine (forEach_iff (Deployments.callsOwn_addDeployment chain) chain.entries _).trans ?_
    exact and_iff_right fun call hcall => absurd hcall List.not_mem_nil
  rw [hcalls]
  refine and_congr_right fun hstale => forall₂_congr fun hdone hnone => ?_
  exact allRegistered_iff hrecords (Prod.ext rfl hdone) hnone hstale

/-! ### Two exchanges -/

/-- Addresses of two digits. -/
def readDigits : Option String → Except PyError Address
  | some "01" => .ok (.fill 1)
  | some "02" => .ok (.fill 2)
  | _ => .error .valueError

/-- A factory cannot be registered twice. -/
def registerOnce (deployment : ExchangeDeployment) (factoryDeployments : FactoryDeployments) :
    Except PyError Unit × FactoryDeployments :=
  if deployment.factory.address ∈ factoryDeployments.keys then (.error .valueError, factoryDeployments)
  else (.ok (), factoryDeployments.set deployment.factory.address deployment)

def twoExchanges : ExchangeSurroundings := ⟨readDigits, fun _ => registerOnce⟩

theorem twoExchanges_records : twoExchanges.Records := by
  intro n deployment before after h
  have h : registerOnce deployment before = (.ok (), after) := h
  rw [registerOnce] at h
  split_ifs at h
  · cases h
  · cases h
    rfl

/-- Uniswap, and then an exchange of this name. -/
def uniswapAnd (exchangeName : String) : ChainFactories where
  chainId := 1
  chainName := "ethereum"
  factories := .ofList [("v3", .ofList [("uniswap", ⟨some "01", none, some "01"⟩),
    (exchangeName, ⟨some "02", none, some "01"⟩)])]

/-- The deployment that is passed for Sushiswap is that of Uniswap. -/
theorem registered_as_another : ¬∀ python : ExchangeSurroundings, python.Records →
    ∀ (chain : ChainFactories) (factoryDeployments : FactoryDeployments),
      (addDeployments python chain factoryDeployments).1.CallsOwn ∧
        ((addDeployments python chain factoryDeployments).2 = none →
          (addDeployments python chain factoryDeployments).1.NoneRaised →
            AllRegistered python chain
              (addDeployments python chain factoryDeployments).1.factoryDeployments) := by
  intro h
  have hown := (h twoExchanges twoExchanges_records (uniswapAnd "sushiswap") .empty).1
  unfold Deployments.CallsOwn at hown
  revert hown
  decide

/-- Pancakeswap has a deployment of its own. -/
theorem factories_registered_iff_pancakeswap :
    (addDeployments twoExchanges (uniswapAnd "pancakeswap") .empty).1.CallsOwn := by
  have hnames : ∀ entry ∈ (uniswapAnd "pancakeswap").entries, ¬entry.Unrecognised := by
    unfold FactoryEntry.Unrecognised
    decide
  refine ((factories_registered_iff twoExchanges twoExchanges_records (uniswapAnd "pancakeswap")
    .empty).mpr ⟨fun before entry after hsplit s _ hstale => ?_, fun _ _ entry hentry hname => ?_⟩).1
  · exact hnames entry (by rw [hsplit]; simp) hstale.1
  · exact absurd hname (hnames entry hentry)

end CreamBots.App
