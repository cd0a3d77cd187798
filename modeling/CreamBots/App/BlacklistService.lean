import CreamBots.App.PoolService

/-! Loading the blacklists, and what `load_pools` makes of them.

Ids are tested against the arbs and pools against the pools. The tokens of a pool are
tested as well, but against the list of pools: what is in the list of tokens is only
left out of a count that is logged. So the first two lists are honoured whatever the
files hold, and the third exactly if no entry of the arb files that nothing else keeps from
being traded runs through a pool whose LP record has a listed token
(`blacklists_honoured_iff`, `blacklisted_token_traded`). -/
namespace CreamBots.App
open Data Builders

variable {Id : Type}

/-! ### load_blacklists -/

/-- The four files; one that does not exist is `none`. -/
structure BlacklistFiles (Id : Type) where
  arbs : Option (List Id)
  deployers : Option (List Address)
  pools : Option (List Address)
  tokens : Option (List Address)

def loadBlacklist {α : Type} (file : Option (List α)) : List α := file.getD []

def loadBlacklists (files : BlacklistFiles Id) : Blacklists Id :=
  ⟨loadBlacklist files.arbs, loadBlacklist files.deployers, loadBlacklist files.pools,
    loadBlacklist files.tokens⟩

/-! ### Which entries of the arb files are traded -/

/-- Helpers are registered under their own addresses. -/
def AllPools.OwnAddresses (allPools : AllPools) : Prop :=
  ∀ poolAddress pool, allPools.get? poolAddress = some pool → pool.address = poolAddress

/-- It is settled of which pools `get_pool` makes a helper in the state after the block: that
is registered under its own address, and nothing else is touched. -/
structure PoolManager.Makes (manager : PoolManager) (stateBlock : Nat)
    (makes : Address → Option Nat → Prop) : Prop where
  made : ∀ allPools {poolAddress fee}, makes poolAddress fee →
    ∃ pool, pool.address = poolAddress ∧ manager.getPool allPools poolAddress stateBlock fee =
      (.ok pool, allPools.set poolAddress pool)
  refused : ∀ allPools {poolAddress fee}, ¬makes poolAddress fee →
    ∃ e, manager.getPool allPools poolAddress stateBlock fee = (.error e, allPools)

/-- The factory whose manager is asked for the pool of a record, and the fee that it is told. -/
def askedFor (chainData : ChainData) (poolData : PoolRecord) : Option (Address × Option Nat) :=
  match poolData.type with
  | .uniswapV2 => (chainData.v2Factories.get? poolData.exchange).map fun factory => (factory, none)
  | .uniswapV3 => (chainData.v3Factories.get? poolData.exchange).bind fun factory =>
    poolData.fee.map fun fee => (factory, some fee)
  | .other _ => none

/-- The manager of its factory makes a helper of the pool of a record. -/
def HasHelper (chainData : ChainData) (makes : Address → Address → Option Nat → Prop)
    (poolData : PoolRecord) : Prop :=
  ∃ factory fee, askedFor chainData poolData = some (factory, fee) ∧
    makes factory poolData.poolAddress fee

/-- The last record of its pool in the LP files that no test leaves out. -/
def IsRead (blacklists : Blacklists Id) (lpFiles : List (List PoolRecord)) (r : PoolRecord) : Prop :=
  ∃ before after, lpFiles.flatten = before ++ r :: after ∧ Unlisted blacklists r ∧
    ∀ later ∈ after, Unlisted blacklists later → later.poolAddress ≠ r.poolAddress

/-- Nothing that is tested keeps the entry of an arb file from being traded. -/
structure Eligible (state : BotState Id) (makes : Address → Address → Option Nat → Prop)
    (lpFiles : List (List PoolRecord)) (entry : Id × ArbPath Id) : Prop where
  key : entry.1 ∉ state.blacklists.arbs
  id : entry.2.id ∉ state.blacklists.arbs
  pools : ∀ poolAddress ∈ entry.2.path, ∃ r, r.poolAddress = poolAddress ∧
    IsRead state.blacklists lpFiles r ∧
    (poolAddress ∈ state.allPools.keys ∨ HasHelper state.chainData makes r)

/-- What the blacklists allow of a cycle. -/
structure Honours (blacklists : Blacklists Id) (liquidityPoolData : LpData)
    (arb : UniswapLpCycle Id) : Prop where
  id : arb.id ∉ blacklists.arbs
  pools : ∀ pool ∈ arb.swapPools, pool.address ∉ blacklists.pools
  tokens : ∀ pool ∈ arb.swapPools, ∀ poolData,
    liquidityPoolData.get? pool.address = some poolData →
      poolData.token0 ∉ blacklists.tokens ∧ poolData.token1 ∉ blacklists.tokens

variable {state : BotState Id} {blacklists : Blacklists Id} {allPools : AllPools}
  {makes : Address → Address → Option Nat → Prop} {lpFiles : List (List PoolRecord)}

/-! ### The helpers -/

/-- The helpers that are registered under the addresses of a path are the pools of it. -/
theorem addresses_of_path (hown : allPools.OwnAddresses) :
    ∀ {pools : List Pool} {path : List Address}, pools.map some = path.map allPools.get? →
      pools.map Pool.address = path
  | [], [], _ => rfl
  | [], _ :: _, h => by cases h
  | _ :: _, [], h => by cases h
  | pool :: _, poolAddress :: _, h => by
    obtain ⟨hpool, hrest⟩ := List.cons.inj h
    rw [List.map_cons, hown poolAddress pool hpool.symm, addresses_of_path hown hrest]

/-- The managers of the bot make helpers as the factories do. -/
def Makers (state : BotState Id) (makes : Address → Address → Option Nat → Prop) : Prop :=
  ∀ factory manager, state.poolManagers.get? factory = some manager →
    manager.Makes (state.firstEvent - 1) (makes factory)

theorem managerOf_eq_ok {factories : Dict String Address} {exchange : String} {manager : PoolManager}
    (h : managerOf state factories exchange = .ok manager) :
    ∃ factory, factories.get? exchange = some factory ∧
      state.poolManagers.get? factory = some manager := by
  rw [managerOf] at h
  cases hfactory : factories.get? exchange with
  | none =>
    rw [hfactory] at h
    cases h
  | some factory =>
    simp only [hfactory] at h
    cases hmanager : state.poolManagers.get? factory with
    | none =>
      rw [hmanager] at h
      cases h
    | some manager' =>
      rw [hmanager] at h
      cases h
      exact ⟨factory, rfl, hmanager⟩

/-- A helper is made and registered, or it is not and nothing changes. -/
theorem Makers.createPoolHelper (hmakes : Makers state makes) {poolData : PoolRecord}
    {helper : Option Pool} {after : AllPools}
    (h : createPoolHelper state allPools poolData.poolAddress poolData = (.ok helper, after)) :
    (HasHelper state.chainData makes poolData ∧ ∃ pool, pool.address = poolData.poolAddress ∧
        after = allPools.set poolData.poolAddress pool) ∨
      ¬HasHelper state.chainData makes poolData ∧ after = allPools := by
  have hasked : ∀ {factory fee manager}, askedFor state.chainData poolData = some (factory, fee) →
      state.poolManagers.get? factory = some manager →
      exceptManagerError (manager.getPool allPools poolData.poolAddress (state.firstEvent - 1) fee) =
        (.ok helper, after) →
      (HasHelper state.chainData makes poolData ∧ ∃ pool, pool.address = poolData.poolAddress ∧
          after = allPools.set poolData.poolAddress pool) ∨
        ¬HasHelper state.chainData makes poolData ∧ after = allPools := by
    intro factory fee manager hasked hmanager hgot
    by_cases hmade : makes factory poolData.poolAddress fee
    · obtain ⟨pool, hown, hpool⟩ := (hmakes factory manager hmanager).made allPools hmade
      rw [hpool] at hgot
      cases hgot
      exact .inl ⟨⟨factory, fee, hasked, hmade⟩, pool, hown, rfl⟩
    · obtain ⟨e, he⟩ := (hmakes factory manager hmanager).refused allPools hmade
      rw [he] at hgot
      refine .inr ⟨fun hhelper => ?_, ?_⟩
      · obtain ⟨factory', fee', hasked', hmade'⟩ := hhelper
        cases hasked.symm.trans hasked'
        exact hmade hmade'
      · cases e <;> cases hgot
        rfl
  rw [App.createPoolHelper] at h
  split at h
  · rename_i htype
    cases hof : managerOf state state.chainData.v2Factories poolData.exchange with
    | error e =>
      rw [hof] at h
      cases h
    | ok manager =>
      rw [hof] at h
      obtain ⟨factory, hfactory, hmanager⟩ := managerOf_eq_ok hof
      refine hasked ?_ hmanager h
      rw [askedFor, htype, hfactory]
      rfl
  · rename_i htype
    cases hof : managerOf state state.chainData.v3Factories poolData.exchange with
    | error e =>
      rw [hof] at h
      cases h
    | ok manager =>
      simp only [hof] at h
      obtain ⟨factory, hfactory, hmanager⟩ := managerOf_eq_ok hof
      cases hfee : poolData.fee with
      | none =>
        rw [hfee] at h
        cases h
      | some fee =>
        rw [hfee] at h
        refine hasked ?_ hmanager h
        rw [askedFor, htype, hfactory, hfee]
        rfl
  · rename_i htype
    cases h
    refine .inr ⟨fun hhelper => ?_, rfl⟩
    obtain ⟨factory, fee, hnone, _⟩ := hhelper
    rw [askedFor, htype] at hnone
    cases hnone

/-- After all rounds there are the helpers that there were, and those that are made. -/
theorem Makers.createPoolHelpers (hmakes : Makers state makes) {liquidityPoolData : LpData}
    (hdata : ∀ poolAddress r, liquidityPoolData.get? poolAddress = some r → r.poolAddress = poolAddress)
    (hown : state.allPools.OwnAddresses) {addresses : List Address}
    (h : createPoolHelpers state liquidityPoolData addresses = .ok allPools) :
    allPools.OwnAddresses ∧ ∀ poolAddress, poolAddress ∈ allPools.keys ↔
      poolAddress ∈ state.allPools.keys ∨ poolAddress ∈ addresses ∧
        ∃ r, liquidityPoolData.get? poolAddress = some r ∧ HasHelper state.chainData makes r := by
  induction addresses using List.reverseRecOn generalizing allPools with
  | nil =>
    cases h
    exact ⟨hown, by simp⟩
  | append_singleton addresses first ih =>
    rw [App.createPoolHelpers, List.foldlM_append] at h
    obtain ⟨before, hbefore, hround⟩ := bind_eq_ok.mp h
    obtain ⟨hownBefore, hkeys⟩ := ih hbefore
    rw [List.foldlM_cons] at hround
    obtain ⟨last, hround, hlast⟩ := bind_eq_ok.mp hround
    cases hlast
    cases hread : liquidityPoolData.get? first with
    | none =>
      rw [hread] at hround
      cases hround
    | some r =>
      obtain rfl := hdata first r hread
      simp only [hread] at hround
      rcases hhelper : App.createPoolHelper state before r.poolAddress r with ⟨e | helper, after⟩
      · rw [hhelper] at hround
        cases hround
      · rw [hhelper] at hround
        cases hround
        have hnew : ∀ poolAddress, poolAddress ∈ addresses ++ [r.poolAddress] ↔
            poolAddress ∈ addresses ∨ poolAddress = r.poolAddress := by simp
        rcases hmakes.createPoolHelper hhelper with ⟨hmade, pool, hpool, rfl⟩ | ⟨hnone, rfl⟩
        · refine ⟨fun a p hget => ?_, fun a => ?_⟩
          · rw [Dict.get?_set] at hget
            split_ifs at hget with ha
            · cases hget
              rw [hpool, ha]
            · exact hownBefore a p hget
          · rw [Dict.mem_keys_set, hkeys, hnew]
            by_cases ha : a = r.poolAddress
            · subst ha
              simp [hread, hmade]
            · simp [ha]
        · refine ⟨hownBefore, fun a => ?_⟩
          rw [hkeys, hnew]
          by_cases ha : a = r.poolAddress
          · subst ha
            simp [hread, hnone]
          · simp [ha]

/-! ### The entries -/

/-- What is read of a pool is its last record that is not left out. -/
theorem isRead_iff {r : PoolRecord} :
    IsRead blacklists lpFiles r ↔ (admittedPools blacklists lpFiles).get? r.poolAddress = some r := by
  rw [admittedPools_eq, Dict.get?_ofList, Dict.lastValue?_map_filter]
  simp only [decide_eq_true_eq, Prod.mk.injEq]
  constructor
  · intro hread
    obtain ⟨before, after, hsplit, hunlisted, hafter⟩ := hread
    exact ⟨before, r, after, hsplit, hunlisted, ⟨rfl, rfl⟩, hafter⟩
  · intro hread
    obtain ⟨before, r, after, hsplit, hunlisted, ⟨_, rfl⟩, hafter⟩ := hread
    exact ⟨before, after, hsplit, hunlisted, hafter⟩

section Load
variable [DecidableEq Id]

theorem length_swapPools_iff {path : List Address} :
    (swapPools allPools path).length = path.length ↔ ∀ poolAddress ∈ path, poolAddress ∈ allPools.keys := by
  induction path with
  | nil => simp [swapPools]
  | cons poolAddress rest ih =>
    rw [swapPools, List.forall_mem_cons, Dict.mem_keys]
    cases hget : allPools.get? poolAddress with
    | none => simp
    | some pool => simp [ih]

/-- The cycles in the table are those of the entries that pass all tests, the last of each
id. -/
theorem mem_cycles_foldl_addArb {liquidityPoolData : LpData} {arbPaths2 arbPaths3 : Dict Id (ArbPath Id)}
    {cycle : UniswapLpCycle Id} :
    cycle ∈ ((arbPaths state.blacklists liquidityPoolData [arbPaths2, arbPaths3]).foldl
        (addArb state allPools) Dict.empty).cycles ↔
      ∃ before entry after, arbPaths2.items ++ arbPaths3.items = before ++ entry :: after ∧
        (passedChecks state.blacklists liquidityPoolData entry && isLoaded state allPools entry.2) = true ∧
        (∀ later ∈ after, (passedChecks state.blacklists liquidityPoolData later &&
          isLoaded state allPools later.2) = true → later.2.id ≠ entry.2.id) ∧
        (arbEntry state allPools entry.2).2.lpCycle = cycle := by
  have hpassing : ((arbPaths state.blacklists liquidityPoolData [arbPaths2, arbPaths3]).filter
      (isLoaded state allPools)).map (arbEntry state allPools) =
        ((arbPaths2.items ++ arbPaths3.items).filter fun entry =>
          passedChecks state.blacklists liquidityPoolData entry && isLoaded state allPools entry.2).map
            fun entry => arbEntry state allPools entry.2 := by
    simp only [arbPaths, List.flatMap_cons, List.flatMap_nil, List.append_nil, ← List.map_append,
      ← List.filter_append, List.filter_map, List.map_map, List.filter_filter]
    exact congrArg _ (List.filter_congr fun entry _ => Bool.and_comm ..)
  rw [AllArbs.mem_cycles, foldl_addArb, hpassing]
  show (∃ id details, (Dict.ofList _).get? id = some details ∧ _) ↔ _
  simp only [Dict.get?_ofList, Dict.lastValue?_map_filter]
  constructor
  · intro hset
    obtain ⟨id, details, ⟨before, entry, after, hsplit, hpasses, hentry, hafter⟩, hcycle⟩ := hset
    obtain ⟨rfl, rfl⟩ := Prod.mk.inj hentry
    exact ⟨before, entry, after, hsplit, hpasses, hafter, hcycle⟩
  · intro hset
    obtain ⟨before, entry, after, hsplit, hpasses, hafter, hcycle⟩ := hset
    exact ⟨entry.2.id, _, ⟨before, entry, after, hsplit, hpasses, rfl, hafter⟩, hcycle⟩

/-- An entry passes all tests exactly if it is eligible. -/
theorem passes_iff_eligible (hmakes : Makers state makes) (hown : state.allPools.OwnAddresses)
    {setOrder : List Address → List Address} (hset : ∀ l, (setOrder l).Perm l)
    {arbPaths2 arbPaths3 : Dict Id (ArbPath Id)}
    (hcreated : createPoolHelpers state (admittedPools state.blacklists lpFiles) (setOrder
      (uniquePoolAddresses (admittedPools state.blacklists lpFiles) (arbPaths state.blacklists
        (admittedPools state.blacklists lpFiles) [arbPaths2, arbPaths3]))) = .ok allPools)
    {entry : Id × ArbPath Id} (hentry : entry ∈ arbPaths2.items ++ arbPaths3.items) :
    (passedChecks state.blacklists (admittedPools state.blacklists lpFiles) entry &&
      isLoaded state allPools entry.2) = true ↔ Eligible state makes lpFiles entry := by
  obtain ⟨_, hkeys⟩ := hmakes.createPoolHelpers (fun _ _ hget => (get?_admittedPools hget).2.1) hown
    hcreated
  simp only [Bool.and_eq_true, passedChecks, isLoaded, decide_eq_true_eq, List.all_eq_true,
    Dict.contains_iff, length_swapPools_iff]
  have hread : ∀ {poolAddress}, poolAddress ∈ (admittedPools state.blacklists lpFiles).keys ↔
      ∃ r, r.poolAddress = poolAddress ∧ IsRead state.blacklists lpFiles r := by
    intro poolAddress
    rw [Dict.mem_keys]
    constructor
    · intro hkey
      obtain ⟨r, hr⟩ := hkey
      obtain rfl := (get?_admittedPools hr).2.1
      exact ⟨r, rfl, isRead_iff.mpr hr⟩
    · intro hread
      obtain ⟨r, rfl, hr⟩ := hread
      exact ⟨r, isRead_iff.mp hr⟩
  constructor
  · intro hpasses
    obtain ⟨⟨hkey, hlisted⟩, hid, hloaded⟩ := hpasses
    refine ⟨hkey, hid, fun poolAddress hpool => ?_⟩
    obtain ⟨r, rfl, hr⟩ := hread.mp (hlisted poolAddress hpool)
    refine ⟨r, rfl, hr, ((hkeys _).mp (hloaded _ hpool)).imp_right fun hmade => ?_⟩
    obtain ⟨_, r', hr', hhelper⟩ := hmade
    rw [isRead_iff.mp hr] at hr'
    cases hr'
    exact hhelper
  · intro heligible
    have hlisted : ∀ poolAddress ∈ entry.2.path,
        poolAddress ∈ (admittedPools state.blacklists lpFiles).keys := by
      intro poolAddress hpool
      obtain ⟨r, hr, hisRead, _⟩ := heligible.pools poolAddress hpool
      exact hread.mpr ⟨r, hr, hisRead⟩
    refine ⟨⟨heligible.key, hlisted⟩, heligible.id, fun poolAddress hpool => ?_⟩
    obtain ⟨r, rfl, hisRead, hhelper⟩ := heligible.pools poolAddress hpool
    refine (hkeys _).mpr (hhelper.imp_right fun hmade => ⟨?_, r, isRead_iff.mp hisRead, hmade⟩)
    rw [(hset _).mem_iff, mem_uniquePoolAddresses]
    refine ⟨⟨entry.2, ?_, hpool⟩, hlisted _ hpool⟩
    simp only [arbPaths, List.flatMap_cons, List.flatMap_nil, List.append_nil, ← List.map_append,
      ← List.filter_append]
    refine List.mem_map_of_mem (List.mem_filter.mpr ⟨hentry, ?_⟩)
    simp only [passedChecks, Bool.and_eq_true, decide_eq_true_eq, List.all_eq_true, Dict.contains_iff]
    exact ⟨heligible.key, hlisted⟩

/-- **The list of tokens is honoured exactly if no entry of the arb files that is eligible, and
the last such of its id, runs through a pool whose LP record has a listed token.** The other
lists always are. -/
theorem blacklists_honoured_iff (files : BlacklistFiles Id)
    (setOrder : List Address → List Address) (hset : ∀ l, (setOrder l).Perm l) (state : BotState Id)
    (lpFiles : List (List PoolRecord)) (arbPaths2 arbPaths3 : Dict Id (ArbPath Id))
    (hfiles : state.blacklists = loadBlacklists files) (hempty : state.allArbs = Dict.empty)
    (hown : AllPools.OwnAddresses state.allPools)
    (makes : Address → Address → Option Nat → Prop) (hmakes : Makers state makes)
    (loaded : Loaded Id) (h : loadPools setOrder state lpFiles arbPaths2 arbPaths3 = .ok loaded) :
    (∀ cycle ∈ loaded.botState.allArbs.cycles,
        Honours (loadBlacklists files) loaded.liquidityPoolData cycle) ↔
      ∀ before entry after, arbPaths2.items ++ arbPaths3.items = before ++ entry :: after →
        Eligible state makes lpFiles entry →
        (∀ later ∈ after, Eligible state makes lpFiles later → later.2.id ≠ entry.2.id) →
        ∀ r, r.poolAddress ∈ entry.2.path → IsRead (loadBlacklists files) lpFiles r →
          r.token0 ∉ (loadBlacklists files).tokens ∧ r.token1 ∉ (loadBlacklists files).tokens := by
  obtain ⟨hdata, hcreated, hallArbs⟩ := loadPools_eq_ok h
  rw [hdata] at hcreated hallArbs
  obtain ⟨hregistered, _⟩ := hmakes.createPoolHelpers (fun _ _ hget => (get?_admittedPools hget).2.1)
    hown hcreated
  have hpasses := fun {entry : Id × ArbPath Id} (hentry : entry ∈ arbPaths2.items ++ arbPaths3.items) =>
    passes_iff_eligible hmakes hown hset hcreated hentry
  rw [hempty] at hallArbs
  rw [hallArbs, hdata, ← hfiles]
  -- The pools of a cycle are those of the path it was built from.
  have hpath : ∀ {entry : Id × ArbPath Id}, isLoaded state loaded.botState.allPools entry.2 = true →
      (arbEntry state loaded.botState.allPools entry.2).2.lpCycle.swapPools.map Pool.address =
        entry.2.path := by
    intro entry hloaded
    exact addresses_of_path hregistered (swapPools_complete.mpr ⟨(of_decide_eq_true hloaded).2, rfl⟩)
  constructor
  · intro hall before entry after hsplit heligible hafter r hr hread
    have hmem : ∀ later ∈ entry :: after, later ∈ arbPaths2.items ++ arbPaths3.items := by
      intro later hlater
      rw [hsplit]
      exact List.mem_append_right _ hlater
    have hpass := (hpasses (hmem entry (List.mem_cons_self ..))).mpr heligible
    have hhonours := hall _ (mem_cycles_foldl_addArb.mpr ⟨before, entry, after, hsplit, hpass,
      fun later hlater hlaterPasses => hafter later hlater
        ((hpasses (hmem later (List.mem_cons_of_mem _ hlater))).mp hlaterPasses), rfl⟩)
    rw [← hpath ((Bool.and_eq_true ..).mp hpass).2] at hr
    obtain ⟨pool, hpool, haddress⟩ := List.mem_map.mp hr
    refine hhonours.tokens pool hpool r ?_
    rw [haddress]
    exact isRead_iff.mp hread
  · intro hall cycle hcycle
    obtain ⟨before, entry, after, hsplit, hpass, hafter, rfl⟩ := mem_cycles_foldl_addArb.mp hcycle
    have hmem : ∀ later ∈ entry :: after, later ∈ arbPaths2.items ++ arbPaths3.items := by
      intro later hlater
      rw [hsplit]
      exact List.mem_append_right _ hlater
    have heligible := (hpasses (hmem entry (List.mem_cons_self ..))).mp hpass
    have hpools : ∀ pool ∈ (arbEntry state loaded.botState.allPools entry.2).2.lpCycle.swapPools,
        pool.address ∈ entry.2.path := by
      intro pool hpool
      rw [← hpath ((Bool.and_eq_true ..).mp hpass).2]
      exact List.mem_map_of_mem hpool
    refine ⟨heligible.id, fun pool hpool => ?_, fun pool hpool poolData hget => ?_⟩
    · obtain ⟨r, hr, hread, _⟩ := heligible.pools _ (hpools pool hpool)
      rw [← hr]
      exact (get?_admittedPools (isRead_iff.mp hread)).2.2.1
    · obtain hr := (get?_admittedPools hget).2.1
      rw [← hr] at hget
      refine hall before entry after hsplit heligible (fun later hlater hlaterEligible => ?_) poolData ?_
        (isRead_iff.mpr hget)
      · exact hafter later hlater ((hpasses (hmem later (List.mem_cons_of_mem _ hlater))).mpr hlaterEligible)
      · rw [hr]
        exact hpools pool hpool

end Load

/-! ### A token that is blacklisted and traded -/

theorem ownAddresses_empty : AllPools.OwnAddresses .empty := by
  intro poolAddress pool hget
  cases hget

/-- The manager of the examples makes a helper of any pool but pool 3. -/
theorem manager_makes (stateBlock : Nat) :
    manager.Makes stateBlock fun poolAddress _ => poolAddress ≠ .fill 3 where
  made allPools poolAddress fee hmade := by
    refine ⟨⟨poolAddress, stateBlock⟩, rfl, ?_⟩
    simp only [manager, if_neg hmade]
  refused allPools poolAddress fee hrefused := by
    refine ⟨.managerError, ?_⟩
    simp only [manager, if_pos (not_not.mp hrefused)]

/-- The files of a chain on which one token is blacklisted. -/
def tokenListed (token : Address) : BlacklistFiles (List UInt8) := ⟨none, none, none, some [token]⟩

def stateWith (files : BlacklistFiles (List UInt8)) : BotState (List UInt8) :=
  {stateBeforeLoading with blacklists := loadBlacklists files}

theorem stateWith_makers (files : BlacklistFiles (List UInt8)) :
    Makers (stateWith files) fun _ poolAddress _ => poolAddress ≠ .fill 3 := by
  intro factory manager' hget
  have hmem : (factory, manager') ∈ [(.fill 20, manager), (.fill 21, manager)] :=
    Dict.get?_eq_some.mp hget
  rcases List.mem_cons.mp hmem with h | h
  · rw [(Prod.mk.inj h).2]
    exact manager_makes _
  · rw [(Prod.mk.inj (List.mem_singleton.mp h)).2]
    exact manager_makes _

/-- Token 8 is on the list of tokens, and the arb through two of its pools is built. -/
theorem blacklisted_token_traded : ¬∀ (files : BlacklistFiles (List UInt8))
    (setOrder : List Address → List Address) (state : BotState (List UInt8))
    (lpFiles : List (List PoolRecord)) (arbPaths2 arbPaths3 : Dict (List UInt8) (ArbPath (List UInt8)))
    (makes : Address → Address → Option Nat → Prop),
    (∀ l, (setOrder l).Perm l) → state.blacklists = loadBlacklists files →
    state.allArbs = Dict.empty → AllPools.OwnAddresses state.allPools → Makers state makes →
    ∀ loaded, loadPools setOrder state lpFiles arbPaths2 arbPaths3 = .ok loaded →
      ∀ cycle ∈ loaded.botState.allArbs.cycles,
        Honours (loadBlacklists files) loaded.liquidityPoolData cycle := by
  intro h
  have hall := h (tokenListed (.fill 8)) id (stateWith (tokenListed (.fill 8)))
    [[v2Pool 1 8, v2Pool 2 8]] (.ofList [(arbOfTwo.id, arbOfTwo)]) .empty _ List.Perm.refl rfl rfl
    ownAddresses_empty (stateWith_makers _) _ rfl
  have hcycle := hall (arbDetails stateBeforeLoading.chainData arbOfTwo
    [⟨.fill 1, 99⟩, ⟨.fill 2, 99⟩]).lpCycle (by decide)
  exact (hcycle.tokens ⟨.fill 1, 99⟩ (by decide) (v2Pool 1 8) (by decide)).2 (by decide)

/-- With token 7 on the list, which neither pool has, the arb is built and honours it. -/
theorem blacklists_honoured_iff_unused : ∃ loaded, loadPools id (stateWith (tokenListed (.fill 7)))
      [[v2Pool 1 8, v2Pool 2 8]] (.ofList [(arbOfTwo.id, arbOfTwo)]) .empty = .ok loaded ∧
    loaded.botState.allArbs.cycles ≠ [] ∧ ∀ cycle ∈ loaded.botState.allArbs.cycles,
      Honours (loadBlacklists (tokenListed (.fill 7))) loaded.liquidityPoolData cycle := by
  obtain ⟨loaded, hloaded⟩ : ∃ loaded, loadPools id (stateWith (tokenListed (.fill 7)))
      [[v2Pool 1 8, v2Pool 2 8]] (.ofList [(arbOfTwo.id, arbOfTwo)]) .empty = .ok loaded := ⟨_, rfl⟩
  refine ⟨loaded, hloaded, ?_, ?_⟩
  · cases hloaded
    decide
  · apply (blacklists_honoured_iff (tokenListed (.fill 7)) id List.Perm.refl _ _ _ _ rfl rfl
      ownAddresses_empty _ (stateWith_makers _) loaded hloaded).mpr
    intro before entry after _ _ _ r _ hread
    have hlisted : ∀ r ∈ [v2Pool 1 8, v2Pool 2 8],
        r.token0 ∉ (loadBlacklists (tokenListed (.fill 7))).tokens ∧
          r.token1 ∉ (loadBlacklists (tokenListed (.fill 7))).tokens := by decide
    exact hlisted r (get?_admittedPools (isRead_iff.mp hread)).1

end CreamBots.App
