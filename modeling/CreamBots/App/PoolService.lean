import CreamBots.App.Cycle
import CreamBots.Data.Raise
import Mathlib.Data.List.Dedup

/-! Loading the pools and the arbs.

`load_pools` reads the LP files less what is blacklisted, keeps the arbs of the two
path files whose pools are all among them, has a helper made for each of these pools
and builds a cycle of every arb whose pools all have one. The second filter is a
`break` in the middle of a path and a comparison of lengths (`swapPools_complete`).
Both files go into one table; since an id hashes the addresses of the path end to end
and the paths of the two files differ in length, no arb takes another's place
(`admissible_arbs_loaded`). -/
namespace CreamBots.App
open Data Builders

/-! ### What the service works on -/

def maxInput : Nat := 4722 * 10 ^ 18

structure Blacklists (Id : Type) where
  arbs : List Id
  deployers : List Address
  pools : List Address
  tokens : List Address

/-- The helpers that exist, by address. -/
abbrev AllPools := Dict Address Pool

/-- A pool manager of degenbot: `get_pool` for an address, a state block and the fee
of a V3 pool, against the helpers there are. -/
structure PoolManager where
  getPool : AllPools → Address → Nat → Option Nat → Except PyError Pool × AllPools

/-- The factory address of each exchange, and the wrapped token. -/
structure ChainData where
  v2Factories : Dict String Address
  v3Factories : Dict String Address
  wrappedToken : Address

/-- What `load_pools` reads and sets of the bot's state, once the first event is known. -/
structure BotState (Id : Type) where
  chainData : ChainData
  blacklists : Blacklists Id
  firstEvent : Nat
  poolManagers : Dict Address PoolManager
  allPools : AllPools
  allArbs : AllArbs Id
  poolsLoaded : Bool
  live : Bool

variable {Id : Type}

/-! ### create_pool_managers and create_pool_helper -/

/-- degenbot's classes of pool managers. A V3 manager reads liquidity from the snapshot,
which is told by the block it was brought up to. -/
structure ManagerClasses where
  uniswapV2LiquidityPoolManager : Address → PoolManager
  uniswapV3LiquidityPoolManager : Address → Nat → PoolManager

/-- `create_pool_managers`, once the first event is known. -/
def createPoolManagers (degenbot : ManagerClasses) (chainData : ChainData) (firstEvent : Nat) :
    Dict Address PoolManager :=
  .ofList (chainData.v2Factories.values.map (fun factoryAddress =>
      (factoryAddress, degenbot.uniswapV2LiquidityPoolManager factoryAddress)) ++
    chainData.v3Factories.values.map fun factoryAddress =>
      (factoryAddress, degenbot.uniswapV3LiquidityPoolManager factoryAddress (firstEvent - 1)))

/-- `pool_managers[factories[pool_exchange]["factory_address"]]`. -/
def managerOf (state : BotState Id) (factories : Dict String Address) (exchange : String) :
    Except PyError PoolManager :=
  match factories.get? exchange with
  | none => .error .keyError
  | some factory =>
    match state.poolManagers.get? factory with
    | none => .error .keyError
    | some manager => .ok manager

/-- `except ManagerError`: no helper. -/
def exceptManagerError : Except PyError Pool × AllPools → Except PyError (Option Pool) × AllPools
  | (.ok pool, allPools) => (.ok (some pool), allPools)
  | (.error .managerError, allPools) => (.ok none, allPools)
  | (.error e, allPools) => (.error e, allPools)

def createPoolHelper (state : BotState Id) (allPools : AllPools) (poolAddress : Address)
    (poolData : PoolRecord) : Except PyError (Option Pool) × AllPools :=
  match poolData.type with
  | .uniswapV2 =>
    match managerOf state state.chainData.v2Factories poolData.exchange with
    | .error e => (.error e, allPools)
    | .ok manager => exceptManagerError
      (manager.getPool allPools poolAddress (state.firstEvent - 1) none)
  | .uniswapV3 =>
    match managerOf state state.chainData.v3Factories poolData.exchange with
    | .error e => (.error e, allPools)
    | .ok manager =>
      match poolData.fee with
      | none => (.error .keyError, allPools)
      | some fee => exceptManagerError
        (manager.getPool allPools poolAddress (state.firstEvent - 1) (some fee))
  | .other _ => (.ok none, allPools)

/-- `create_pool_helpers`, one address after the other. -/
def createPoolHelpers (state : BotState Id) (liquidityPoolData : LpData)
    (uniquePoolAddresses : List Address) : Except PyError AllPools :=
  uniquePoolAddresses.foldlM (fun allPools poolAddress =>
    match liquidityPoolData.get? poolAddress with
    | none => .error .keyError
    | some poolData =>
      match createPoolHelper state allPools poolAddress poolData with
      | (.ok _, allPools) => .ok allPools
      | (.error e, _) => .error e) state.allPools

/-! ### load_pools -/

section Load
variable [DecidableEq Id]

/-- One record of an LP file. -/
def admitPool (blacklists : Blacklists Id) (data : LpData) (pool : PoolRecord) : LpData :=
  if pool.poolAddress ∈ blacklists.pools then data
  else if pool.token0 ∈ blacklists.pools then data
  else if pool.token1 ∈ blacklists.pools then data
  else data.set pool.poolAddress pool

/-- `liquidity_pool_data`. -/
def admittedPools (blacklists : Blacklists Id) (lpFiles : List (List PoolRecord)) : LpData :=
  lpFiles.foldl (fun data file => file.foldl (admitPool blacklists) data) Dict.empty

/-- `passed_checks`, for an entry of an arb path file. -/
def passedChecks (blacklists : Blacklists Id) (liquidityPoolData : LpData)
    (entry : Id × ArbPath Id) : Bool :=
  decide (entry.1 ∉ blacklists.arbs) && entry.2.path.all liquidityPoolData.contains

/-- `arb_paths`, file by file. -/
def arbPaths (blacklists : Blacklists Id) (liquidityPoolData : LpData)
    (arbFiles : List (Dict Id (ArbPath Id))) : List (ArbPath Id) :=
  arbFiles.flatMap fun file =>
    (file.items.filter (passedChecks blacklists liquidityPoolData)).map Prod.snd

/-- `unique_pool_addresses`. -/
def uniquePoolAddresses (liquidityPoolData : LpData) (arbs : List (ArbPath Id)) : List Address :=
  ((arbs.flatMap ArbPath.path).filter liquidityPoolData.contains).dedup

/-- The tokens of one slot. A pool that is null in the file has no `get`. -/
def slotTokens (blacklists : Blacklists Id) (liquidityPoolData : LpData) (arbs : List (ArbPath Id))
    (slot : PoolRecord → Address) : Except PyError (List Address) := do
  let rounds := arbs.flatMap fun arb => arb.path.flatMap fun poolAddress =>
    arb.pools.values.map fun poolDict => (poolAddress, poolDict)
  let tokens ← rounds.mapM fun round =>
    match round.2 with
    | none => .error .attributeError
    | some poolDict => .ok (round.1, slot poolDict)
  return (tokens.filter fun token =>
    decide (token.2 ∉ blacklists.tokens) && liquidityPoolData.contains token.1).map Prod.snd

/-- `unique_tokens`, whose number is logged. -/
def uniqueTokens (blacklists : Blacklists Id) (liquidityPoolData : LpData)
    (arbs : List (ArbPath Id)) : Except PyError (List Address) := do
  let token0s ← slotTokens blacklists liquidityPoolData arbs PoolRecord.token0
  let token1s ← slotTokens blacklists liquidityPoolData arbs PoolRecord.token1
  return (token0s ++ token1s).dedup

/-- The pool objects of a path, up to the first that is not there. -/
def swapPools (allPools : AllPools) : List Address → List Pool
  | [] => []
  | poolAddress :: rest =>
    match allPools.get? poolAddress with
    | none => []
    | some pool => pool :: swapPools allPools rest

/-- The cycle of an arb over these pools, as it goes into the table. -/
def arbDetails (chainData : ChainData) (arb : ArbPath Id) (pools : List Pool) : ArbDetails Id :=
  ⟨⟨arb.id, chainData.wrappedToken, pools, maxInput⟩, "load"⟩

/-- One round of the loop that builds the cycles. -/
def addArb (state : BotState Id) (allPools : AllPools) (allArbs : AllArbs Id) (arb : ArbPath Id) :
    AllArbs Id :=
  if arb.id ∈ state.blacklists.arbs then allArbs
  else if (swapPools allPools arb.path).length ≠ arb.path.length then allArbs
  else allArbs.set arb.id (arbDetails state.chainData arb (swapPools allPools arb.path))

/-- What `load_pools` leaves in the service and in the bot's state. -/
structure Loaded (Id : Type) where
  liquidityPoolData : LpData
  uniquePoolAddresses : List Address
  botState : BotState Id

/-- `load_pools`. The LP files come in the order of the factories, V2 first; `setOrder`
is the order in which Python goes through the set of addresses. -/
def loadPools (setOrder : List Address → List Address) (state : BotState Id)
    (lpFiles : List (List PoolRecord)) (arbPaths2 arbPaths3 : Dict Id (ArbPath Id)) :
    Except PyError (Loaded Id) := do
  let liquidityPoolData := admittedPools state.blacklists lpFiles
  let arbs := arbPaths state.blacklists liquidityPoolData [arbPaths2, arbPaths3]
  let addresses := uniquePoolAddresses liquidityPoolData arbs
  let _ ← uniqueTokens state.blacklists liquidityPoolData arbs
  let allPools ← createPoolHelpers state liquidityPoolData (setOrder addresses)
  let allArbs := arbs.foldl (addArb state allPools) state.allArbs
  return ⟨liquidityPoolData, addresses,
    {state with allPools, allArbs, poolsLoaded := true, live := true}⟩

/-- What a call that returns has gone through. -/
theorem loadPools_eq_ok {setOrder : List Address → List Address} {state : BotState Id}
    {lpFiles : List (List PoolRecord)} {arbPaths2 arbPaths3 : Dict Id (ArbPath Id)}
    {loaded : Loaded Id} (h : loadPools setOrder state lpFiles arbPaths2 arbPaths3 = .ok loaded) :
    loaded.liquidityPoolData = admittedPools state.blacklists lpFiles ∧
      createPoolHelpers state loaded.liquidityPoolData (setOrder (uniquePoolAddresses
        loaded.liquidityPoolData (arbPaths state.blacklists loaded.liquidityPoolData
          [arbPaths2, arbPaths3]))) = .ok loaded.botState.allPools ∧
      loaded.botState.allArbs = (arbPaths state.blacklists loaded.liquidityPoolData
        [arbPaths2, arbPaths3]).foldl (addArb state loaded.botState.allPools) state.allArbs := by
  obtain ⟨_, _, h⟩ := bind_eq_ok.mp h
  obtain ⟨allPools, hcreated, h⟩ := bind_eq_ok.mp h
  cases h
  exact ⟨rfl, hcreated, rfl⟩

/-! ### The two filters -/

/-- A path's pool objects are complete just when every address has one. -/
theorem swapPools_complete {allPools : AllPools} {path : List Address} {pools : List Pool} :
    pools.map some = path.map allPools.get? ↔
      (swapPools allPools path).length = path.length ∧ pools = swapPools allPools path := by
  induction path generalizing pools with
  | nil => simp [swapPools]
  | cons poolAddress rest ih =>
    rw [swapPools, List.map_cons]
    cases hget : allPools.get? poolAddress with
    | none =>
      refine ⟨fun h => ?_, fun h => ?_⟩
      · cases pools with
        | nil => cases h
        | cons p pools => cases h
      · cases h.1
    | some pool =>
      cases pools with
      | nil =>
        refine ⟨fun h => ?_, fun h => ?_⟩
        · cases h
        · cases h.2
      | cons p pools =>
        rw [List.map_cons, List.cons.injEq, Option.some.injEq, ih, List.length_cons,
          List.length_cons, Nat.add_right_cancel_iff, List.cons.injEq]
        refine ⟨fun ⟨hp, hlength, hpools⟩ => ⟨hlength, hp, hpools⟩,
          fun ⟨hlength, hp, hpools⟩ => ⟨hp, hlength, hpools⟩⟩

/-- An arb that may be traded, with its pool objects: its id is not blacklisted, its
pools are in the pool data and these are their helpers, in the order of the path. -/
structure Admissible (blacklists : Blacklists Id) (liquidityPoolData : LpData)
    (allPools : AllPools) (arb : ArbPath Id) (pools : List Pool) : Prop where
  allowed : arb.id ∉ blacklists.arbs
  listed : ∀ poolAddress ∈ arb.path, poolAddress ∈ liquidityPoolData.keys
  helpers : pools.map some = arb.path.map allPools.get?

variable {keccak : List UInt8 → Id} {blacklists : Blacklists Id} {liquidityPoolData : LpData}
  {arbPaths2 arbPaths3 : Dict Id (ArbPath Id)}

theorem mem_arbPaths (h2 : WrittenBy keccak 2 arbPaths2) (h3 : WrittenBy keccak 3 arbPaths3)
    {arb : ArbPath Id} :
    arb ∈ arbPaths blacklists liquidityPoolData [arbPaths2, arbPaths3] ↔
      (arb ∈ arbPaths2.values ∨ arb ∈ arbPaths3.values) ∧ arb.id ∉ blacklists.arbs ∧
        ∀ poolAddress ∈ arb.path, poolAddress ∈ liquidityPoolData.keys := by
  have hfile : ∀ {n : Nat} {file : Dict Id (ArbPath Id)}, WrittenBy keccak n file →
      (arb ∈ (file.items.filter (passedChecks blacklists liquidityPoolData)).map Prod.snd ↔
        arb ∈ file.values ∧ arb.id ∉ blacklists.arbs ∧
          ∀ poolAddress ∈ arb.path, poolAddress ∈ liquidityPoolData.keys) := by
    intro n file hwritten
    simp only [List.mem_map, List.mem_filter, passedChecks, Bool.and_eq_true, decide_eq_true_eq,
      List.all_eq_true, Dict.contains_iff, Dict.mem_values]
    refine ⟨fun ⟨⟨id, e⟩, ⟨hmem, hid, hpath⟩, he⟩ => ?_,
      fun ⟨⟨id, hget⟩, hid, hpath⟩ => ⟨(id, arb), ⟨Dict.get?_eq_some.mp hget, ?_, hpath⟩, rfl⟩⟩
    · subst he
      have hget : file.get? id = some e := Dict.get?_eq_some.mpr hmem
      have hown : e.id = id := hwritten.own_id id e hget
      exact ⟨⟨id, hget⟩, hown ▸ hid, hpath⟩
    · rw [← hwritten.own_id id arb hget]
      exact hid
  rw [arbPaths, List.flatMap_cons, List.flatMap_cons, List.flatMap_nil, List.append_nil,
    List.mem_append, hfile h2, hfile h3, or_and_right]

/-- Arbs of the two files with one id are one arb. -/
theorem arb_eq_of_id_eq (h2 : WrittenBy keccak 2 arbPaths2) (h3 : WrittenBy keccak 3 arbPaths3)
    (hfree : CollisionFree keccak
      {path | ∃ arb, (arb ∈ arbPaths2.values ∨ arb ∈ arbPaths3.values) ∧ arb.path = path})
    {arb arb' : ArbPath Id} (harb : arb ∈ arbPaths2.values ∨ arb ∈ arbPaths3.values)
    (harb' : arb' ∈ arbPaths2.values ∨ arb' ∈ arbPaths3.values) (hid : arb.id = arb'.id) :
    arb = arb' := by
  have hsame : ∀ {n : Nat} {file : Dict Id (ArbPath Id)}, WrittenBy keccak n file →
      arb ∈ file.values → arb' ∈ file.values → arb = arb' := by
    intro n file hwritten h h'
    obtain ⟨id, hget⟩ := Dict.mem_values.mp h
    obtain ⟨id', hget'⟩ := Dict.mem_values.mp h'
    have hkey : id = id' := by
      rw [← hwritten.own_id id arb hget, ← hwritten.own_id id' arb' hget', hid]
    rw [hkey, hget'] at hget
    exact (Option.some.inj hget).symm
  have hhashed : ∀ {e : ArbPath Id}, e ∈ arbPaths2.values ∨ e ∈ arbPaths3.values →
      e.id = pathId keccak e.path := fun h => h.elim (h2.hashed _) (h3.hashed _)
  have hpath : arb.path = arb'.path := by
    apply hfree.path_eq ⟨arb, harb, rfl⟩ ⟨arb', harb', rfl⟩
    rw [← hhashed harb, ← hhashed harb', hid]
  -- Paths of different files have different lengths.
  rcases harb with h | h
  · rcases harb' with h' | h'
    · exact hsame h2 h h'
    · have hlength := h2.length arb h
      rw [hpath, h3.length arb' h'] at hlength
      cases hlength
  · rcases harb' with h' | h'
    · have hlength := h3.length arb h
      rw [hpath, h2.length arb' h'] at hlength
      cases hlength
    · exact hsame h3 h h'

/-! ### What is loaded -/

omit [DecidableEq Id] in
/-- Nothing is null in arbs of these files, so collecting tokens does not raise. -/
theorem uniqueTokens_ok {arbs : List (ArbPath Id)} (h : ∀ arb ∈ arbs, none ∉ arb.pools.values) :
    ∃ tokens, uniqueTokens blacklists liquidityPoolData arbs = .ok tokens := by
  have hslot : ∀ slot, ∃ tokens, slotTokens blacklists liquidityPoolData arbs slot = .ok tokens := by
    intro slot
    obtain ⟨tokens, htokens⟩ : ∃ tokens, (arbs.flatMap fun arb => arb.path.flatMap fun poolAddress =>
        arb.pools.values.map fun poolDict => (poolAddress, poolDict)).mapM (fun round =>
          match round.2 with
          | none => Except.error PyError.attributeError
          | some poolDict => .ok (round.1, slot poolDict)) = .ok tokens := by
      apply exists_mapM_ok
      intro round hround
      obtain ⟨arb, harb, hround⟩ := List.mem_flatMap.mp hround
      obtain ⟨_, _, hround⟩ := List.mem_flatMap.mp hround
      obtain ⟨poolDict, hpool, rfl⟩ := List.mem_map.mp hround
      cases poolDict with
      | none => exact absurd hpool (h arb harb)
      | some poolDict => exact ⟨_, rfl⟩
    exact ⟨_, bind_eq_ok.mpr ⟨tokens, htokens, rfl⟩⟩
  obtain ⟨token0s, h0⟩ := hslot PoolRecord.token0
  obtain ⟨token1s, h1⟩ := hslot PoolRecord.token1
  exact ⟨_, bind_eq_ok.mpr ⟨token0s, h0, bind_eq_ok.mpr ⟨token1s, h1, rfl⟩⟩⟩

variable {state : BotState Id}

/-- Helper creation raises nothing but what is caught. -/
def HelpersCreated (state : BotState Id) (liquidityPoolData : LpData) : Prop :=
  ∀ allPools poolAddress poolData, liquidityPoolData.get? poolAddress = some poolData →
    ∃ helper, (createPoolHelper state allPools poolAddress poolData).1 = .ok helper

omit [DecidableEq Id] in
theorem createPoolHelpers_ok (h : HelpersCreated state liquidityPoolData) {addresses : List Address}
    (haddresses : ∀ poolAddress ∈ addresses, poolAddress ∈ liquidityPoolData.keys) :
    ∃ allPools, createPoolHelpers state liquidityPoolData addresses = .ok allPools := by
  apply exists_foldlM_ok
  intro allPools poolAddress hmem
  obtain ⟨poolData, hdata⟩ := Dict.mem_keys.mp (haddresses poolAddress hmem)
  obtain ⟨helper, hhelper⟩ := h allPools poolAddress poolData hdata
  rw [hdata]
  cases hcreated : createPoolHelper state allPools poolAddress poolData with
  | mk outcome allPools' =>
    rw [hcreated] at hhelper
    cases hhelper
    exact ⟨allPools', by simp only [hcreated]⟩

/-- The test between an arb and its entry. -/
def isLoaded (state : BotState Id) (allPools : AllPools) (arb : ArbPath Id) : Bool :=
  decide (arb.id ∉ state.blacklists.arbs ∧ (swapPools allPools arb.path).length = arb.path.length)

def arbEntry (state : BotState Id) (allPools : AllPools) (arb : ArbPath Id) : Id × ArbDetails Id :=
  (arb.id, arbDetails state.chainData arb (swapPools allPools arb.path))

theorem addArb_eq (allPools : AllPools) (allArbs : AllArbs Id) (arb : ArbPath Id) :
    addArb state allPools allArbs arb =
      if isLoaded state allPools arb then
        allArbs.set (arbEntry state allPools arb).1 (arbEntry state allPools arb).2
      else allArbs := by
  unfold addArb isLoaded
  by_cases hid : arb.id ∈ state.blacklists.arbs
  · simp [hid]
  · by_cases hlength : (swapPools allPools arb.path).length = arb.path.length
    · simp [hid, hlength, arbEntry]
    · simp [hid, hlength]

/-- The loop sets the entries of the arbs that pass, one after the other. -/
theorem foldl_addArb (allPools : AllPools) (allArbs : AllArbs Id) (arbs : List (ArbPath Id)) :
    arbs.foldl (addArb state allPools) allArbs =
      allArbs.setAll ((arbs.filter (isLoaded state allPools)).map (arbEntry state allPools)) := by
  rw [Dict.setAll, List.foldl_map, List.foldl_filter]
  congr 1
  funext allArbs arb
  exact addArb_eq allPools allArbs arb

/-- What the loop leaves in an empty table, if an id belongs to one arb. -/
theorem get?_foldl_addArb {allPools : AllPools} {arbs : List (ArbPath Id)}
    (hid : ∀ arb ∈ arbs, ∀ arb' ∈ arbs, arb.id = arb'.id → arb = arb') {id : Id}
    {details : ArbDetails Id} :
    (arbs.foldl (addArb state allPools) Dict.empty).get? id = some details ↔
      ∃ arb ∈ arbs, isLoaded state allPools arb = true ∧ arbEntry state allPools arb = (id, details) := by
  rw [foldl_addArb]
  show (Dict.ofList _).get? id = some details ↔ _
  rw [Dict.get?_ofList_of_functional]
  · simp only [List.mem_map, List.mem_filter, and_assoc]
  · intro p hp q hq hpq
    obtain ⟨arb, harb, rfl⟩ := List.mem_map.mp hp
    obtain ⟨arb', harb', rfl⟩ := List.mem_map.mp hq
    rw [hid arb (List.mem_of_mem_filter harb) arb' (List.mem_of_mem_filter harb') hpq]

/-- An arb of the files passes both filters just when it is admissible, and its pools
are then those that the loop collects. -/
theorem isLoaded_iff (h2 : WrittenBy keccak 2 arbPaths2) (h3 : WrittenBy keccak 3 arbPaths3)
    {allPools : AllPools} {arb : ArbPath Id} {pools : List Pool} :
    (arb ∈ arbPaths state.blacklists liquidityPoolData [arbPaths2, arbPaths3] ∧
      isLoaded state allPools arb = true ∧ pools = swapPools allPools arb.path) ↔
      (arb ∈ arbPaths2.values ∨ arb ∈ arbPaths3.values) ∧
        Admissible state.blacklists liquidityPoolData allPools arb pools := by
  rw [mem_arbPaths h2 h3, isLoaded, decide_eq_true_iff]
  refine ⟨fun ⟨⟨hfile, hid, hlisted⟩, ⟨_, hlength⟩, hpools⟩ => ?_, fun ⟨hfile, hadmissible⟩ => ?_⟩
  · exact ⟨hfile, hid, hlisted, swapPools_complete.mpr ⟨hlength, hpools⟩⟩
  · obtain ⟨hlength, hpools⟩ := swapPools_complete.mp hadmissible.helpers
    exact ⟨⟨hfile, hadmissible.allowed, hadmissible.listed⟩, ⟨hadmissible.allowed, hlength⟩, hpools⟩

omit [DecidableEq Id] in
/-- The pools that helpers are made for are in the pool data. -/
theorem mem_uniquePoolAddresses {arbs : List (ArbPath Id)} {poolAddress : Address} :
    poolAddress ∈ uniquePoolAddresses liquidityPoolData arbs ↔
      (∃ arb ∈ arbs, poolAddress ∈ arb.path) ∧ poolAddress ∈ liquidityPoolData.keys := by
  rw [uniquePoolAddresses, List.mem_dedup, List.mem_filter, List.mem_flatMap, Dict.contains_iff]

/-- `load_pools` returns, and what it puts into an empty table are the admissible arbs. -/
theorem exists_loaded {setOrder : List Address → List Address} (hset : ∀ l, (setOrder l).Perm l)
    {lpFiles : List (List PoolRecord)} (h2 : WrittenBy keccak 2 arbPaths2)
    (h3 : WrittenBy keccak 3 arbPaths3)
    (hfree : CollisionFree keccak
      {path | ∃ arb, (arb ∈ arbPaths2.values ∨ arb ∈ arbPaths3.values) ∧ arb.path = path})
    (hempty : state.allArbs = Dict.empty)
    (hhelpers : HelpersCreated state (admittedPools state.blacklists lpFiles)) :
    ∃ loaded, loadPools setOrder state lpFiles arbPaths2 arbPaths3 = .ok loaded ∧
      ∀ id details, loaded.botState.allArbs.get? id = some details ↔
        ∃ arb pools, (arb ∈ arbPaths2.values ∨ arb ∈ arbPaths3.values) ∧ arb.id = id ∧
          Admissible state.blacklists (admittedPools state.blacklists lpFiles)
            loaded.botState.allPools arb pools ∧ details = arbDetails state.chainData arb pools := by
  let data := admittedPools state.blacklists lpFiles
  let arbs := arbPaths state.blacklists data [arbPaths2, arbPaths3]
  have hfile : ∀ arb ∈ arbs, arb ∈ arbPaths2.values ∨ arb ∈ arbPaths3.values :=
    fun arb harb => ((mem_arbPaths h2 h3).mp harb).1
  obtain ⟨tokens, htokens⟩ : ∃ tokens, uniqueTokens state.blacklists data arbs = .ok tokens :=
    uniqueTokens_ok fun arb harb => (hfile arb harb).elim (h2.filled arb) (h3.filled arb)
  obtain ⟨allPools, hcreated⟩ : ∃ allPools,
      createPoolHelpers state data (setOrder (uniquePoolAddresses data arbs)) = .ok allPools :=
    createPoolHelpers_ok hhelpers fun _ hmem =>
      (mem_uniquePoolAddresses.mp ((hset _).mem_iff.mp hmem)).2
  obtain ⟨loaded, hloaded⟩ : ∃ loaded, loadPools setOrder state lpFiles arbPaths2 arbPaths3 =
      .ok loaded := exists_bind_eq_ok htokens (exists_bind_eq_ok hcreated ⟨_, rfl⟩)
  refine ⟨loaded, hloaded, fun id details => ?_⟩
  obtain ⟨hdata, _, hallArbs⟩ := loadPools_eq_ok hloaded
  rw [hallArbs, hempty, hdata, get?_foldl_addArb fun arb harb arb' harb' =>
    arb_eq_of_id_eq h2 h3 hfree (hfile arb harb) (hfile arb' harb')]
  constructor
  · intro hbuilt
    obtain ⟨arb, harb, hpasses, hentry⟩ := hbuilt
    obtain ⟨hown, hdetails⟩ := Prod.mk.inj hentry
    obtain ⟨hmem, hadmissible⟩ := (isLoaded_iff h2 h3).mp ⟨harb, hpasses, rfl⟩
    exact ⟨arb, _, hmem, hown, hadmissible, hdetails.symm⟩
  · intro hadmitted
    obtain ⟨arb, pools, hmem, hown, hadmissible, hdetails⟩ := hadmitted
    obtain ⟨harb, hpasses, hpools⟩ := (isLoaded_iff h2 h3).mpr ⟨hmem, hadmissible⟩
    refine ⟨arb, harb, hpasses, ?_⟩
    rw [arbEntry, hown, hdetails, hpools]

/-- **`load_pools` loads exactly the admissible arbs, whole.** -/
theorem admissible_arbs_loaded (keccak : List UInt8 → Id)
    (setOrder : List Address → List Address) (hset : ∀ l, (setOrder l).Perm l)
    (state : BotState Id) (lpFiles : List (List PoolRecord))
    (arbPaths2 arbPaths3 : Dict Id (ArbPath Id)) (h2 : WrittenBy keccak 2 arbPaths2)
    (h3 : WrittenBy keccak 3 arbPaths3)
    (hfree : CollisionFree keccak
      {path | ∃ arb, (arb ∈ arbPaths2.values ∨ arb ∈ arbPaths3.values) ∧ arb.path = path})
    (hempty : state.allArbs = Dict.empty)
    (hhelpers : HelpersCreated state (admittedPools state.blacklists lpFiles)) :
    ∃ loaded, loadPools setOrder state lpFiles arbPaths2 arbPaths3 = .ok loaded ∧
      loaded.liquidityPoolData = admittedPools state.blacklists lpFiles ∧
      (∀ id details, loaded.botState.allArbs.get? id = some details ↔
        ∃ arb pools, (arb ∈ arbPaths2.values ∨ arb ∈ arbPaths3.values) ∧ arb.id = id ∧
          Admissible state.blacklists loaded.liquidityPoolData loaded.botState.allPools arb pools ∧
          details = arbDetails state.chainData arb pools) ∧
      ∀ arb arb', (arb ∈ arbPaths2.values ∨ arb ∈ arbPaths3.values) →
        (arb' ∈ arbPaths2.values ∨ arb' ∈ arbPaths3.values) → arb.id = arb'.id → arb = arb' := by
  obtain ⟨loaded, hloaded, hall⟩ := exists_loaded hset h2 h3 hfree hempty hhelpers
  have hdata := (loadPools_eq_ok hloaded).1
  refine ⟨loaded, hloaded, hdata, ?_, fun arb arb' => arb_eq_of_id_eq h2 h3 hfree⟩
  rw [hdata]
  exact hall

end Load

/-! ### Admitted pools and their managers -/

section Admitted
variable {blacklists : Blacklists Id} {degenbot : ManagerClasses}

/-- No test of `load_pools` leaves the record out. -/
def Unlisted (blacklists : Blacklists Id) (r : PoolRecord) : Prop :=
  r.poolAddress ∉ blacklists.pools ∧ r.token0 ∉ blacklists.pools ∧ r.token1 ∉ blacklists.pools

instance (blacklists : Blacklists Id) (r : PoolRecord) : Decidable (Unlisted blacklists r) :=
  inferInstanceAs (Decidable (_ ∧ _ ∧ _))

theorem admittedPools_eq (lpFiles : List (List PoolRecord)) :
    admittedPools blacklists lpFiles = Dict.ofList
      ((lpFiles.flatten.filter fun r => decide (Unlisted blacklists r)).map
        fun r => (r.poolAddress, r)) := by
  rw [admittedPools, Dict.ofList, Dict.setAll, List.foldl_map, List.foldl_filter, List.foldl_flatten]
  congr 1
  funext data file
  congr 1
  funext data pool
  unfold admitPool Unlisted
  split_ifs <;> simp_all

theorem get?_admittedPools {lpFiles : List (List PoolRecord)} {poolAddress : Address} {r : PoolRecord}
    (h : (admittedPools blacklists lpFiles).get? poolAddress = some r) :
    r ∈ lpFiles.flatten ∧ r.poolAddress = poolAddress ∧ Unlisted blacklists r := by
  rw [admittedPools_eq, Dict.get?_ofList] at h
  obtain ⟨r', hr', he⟩ := List.mem_map.mp (Dict.lastValue?_mem h)
  obtain ⟨rfl, rfl⟩ := Prod.mk.inj he
  obtain ⟨hmem, hunlisted⟩ := List.mem_filter.mp hr'
  exact ⟨hmem, rfl, of_decide_eq_true hunlisted⟩

theorem mem_keys_admittedPools {lpFiles : List (List PoolRecord)} {poolAddress : Address} :
    poolAddress ∈ (admittedPools blacklists lpFiles).keys ↔
      ∃ r ∈ lpFiles.flatten, r.poolAddress = poolAddress ∧ Unlisted blacklists r := by
  rw [Dict.mem_keys]
  constructor
  · intro hkey
    obtain ⟨r, hr⟩ := hkey
    exact ⟨r, get?_admittedPools hr⟩
  · intro hlisted
    obtain ⟨r, hr, rfl, hunlisted⟩ := hlisted
    rw [admittedPools_eq, Dict.get?_ofList]
    exact Dict.lastValue?_isSome (List.mem_map.mpr
      ⟨r, List.mem_filter.mpr ⟨hr, decide_eq_true hunlisted⟩, rfl⟩)

/-- `get_pool` raises nothing but `ManagerError`. -/
def PoolManager.Caught (manager : PoolManager) : Prop :=
  ∀ allPools poolAddress stateBlock fee,
    (manager.getPool allPools poolAddress stateBlock fee).1 = .error .managerError ∨
      ∃ pool, (manager.getPool allPools poolAddress stateBlock fee).1 = .ok pool

/-- So it is for the managers of all factories. -/
structure ManagerClasses.Caught (degenbot : ManagerClasses) : Prop where
  v2 : ∀ factoryAddress, (degenbot.uniswapV2LiquidityPoolManager factoryAddress).Caught
  v3 : ∀ factoryAddress block, (degenbot.uniswapV3LiquidityPoolManager factoryAddress block).Caught

theorem PoolManager.Caught.helper {manager : PoolManager} (h : manager.Caught) (allPools : AllPools)
    (poolAddress : Address) (stateBlock : Nat) (fee : Option Nat) :
    ∃ helper, (exceptManagerError (manager.getPool allPools poolAddress stateBlock fee)).1 =
      .ok helper := by
  have hcaught := h allPools poolAddress stateBlock fee
  generalize manager.getPool allPools poolAddress stateBlock fee = outcome at hcaught ⊢
  obtain ⟨outcome, after⟩ := outcome
  rcases hcaught with hraised | ⟨pool, hpool⟩
  · obtain rfl : outcome = .error .managerError := hraised
    exact ⟨none, rfl⟩
  · obtain rfl : outcome = .ok pool := hpool
    exact ⟨some pool, rfl⟩

/-- `create_pool_managers` makes a manager for the address of every factory. -/
theorem exists_manager (hcaught : degenbot.Caught) (firstEvent : Nat) {chainData : ChainData}
    {factoryAddress : Address} (h : factoryAddress ∈ chainData.v2Factories.values ∨
      factoryAddress ∈ chainData.v3Factories.values) :
    ∃ manager, (createPoolManagers degenbot chainData firstEvent).get? factoryAddress = some manager ∧
      manager.Caught := by
  have hkey : ∃ manager, (createPoolManagers degenbot chainData firstEvent).get? factoryAddress =
      some manager := by
    rw [createPoolManagers, Dict.get?_ofList]
    rcases h with h | h
    · exact Dict.lastValue?_isSome
        (List.mem_append_left _ (List.mem_map.mpr ⟨factoryAddress, h, rfl⟩))
    · exact Dict.lastValue?_isSome
        (List.mem_append_right _ (List.mem_map.mpr ⟨factoryAddress, h, rfl⟩))
  obtain ⟨manager, hmanager⟩ := hkey
  refine ⟨manager, hmanager, ?_⟩
  rw [createPoolManagers, Dict.get?_ofList] at hmanager
  rcases List.mem_append.mp (Dict.lastValue?_mem hmanager) with hmem | hmem
  · obtain ⟨a, _, he⟩ := List.mem_map.mp hmem
    rw [← (Prod.mk.inj he).2]
    exact hcaught.v2 a
  · obtain ⟨a, _, he⟩ := List.mem_map.mp hmem
    rw [← (Prod.mk.inj he).2]
    exact hcaught.v3 a _

end Admitted

/-! ### Two arbs, one of them through a pool without a helper -/

/-- Makes a helper of every pool but pool 3. -/
def manager : PoolManager where
  getPool allPools poolAddress stateBlock _ :=
    if poolAddress = .fill 3 then (.error .managerError, allPools)
    else (.ok ⟨poolAddress, stateBlock⟩, allPools.set poolAddress ⟨poolAddress, stateBlock⟩)

def stateBeforeLoading : BotState (List UInt8) where
  chainData := ⟨.ofList [("a", .fill 20)], .ofList [("b", .fill 21)], .fill 9⟩
  blacklists := ⟨[], [], [], []⟩
  firstEvent := 100
  poolManagers := .ofList [(.fill 20, manager), (.fill 21, manager)]
  allPools := .empty
  allArbs := .empty
  poolsLoaded := false
  live := false

def v2Pool (n token : UInt8) : PoolRecord :=
  ⟨.fill n, some 3, .fill 9, .fill token, 7, some 0, .uniswapV2, "a"⟩

def arbThrough (path : List Address) (pools : List PoolRecord) : ArbPath (List UInt8) :=
  ⟨pathId id path, .ofList (pools.map fun r => (r.poolAddress, some r)), [], path⟩

def arbOfTwo : ArbPath (List UInt8) :=
  arbThrough [.fill 1, .fill 2] [v2Pool 1 8, v2Pool 2 8]

def arbOfThree : ArbPath (List UInt8) :=
  arbThrough [.fill 1, .fill 3, .fill 2] [v2Pool 1 8, v2Pool 3 8, v2Pool 2 8]

theorem manager_creates (allPools : AllPools) (poolAddress : Address) (poolData : PoolRecord)
    (h : poolData.type = .uniswapV2 ∧ poolData.exchange = "a") :
    ∃ helper, (createPoolHelper stateBeforeLoading allPools poolAddress poolData).1 = .ok helper := by
  have hmanager : managerOf stateBeforeLoading stateBeforeLoading.chainData.v2Factories "a" =
      .ok manager := rfl
  simp only [createPoolHelper, h.1, h.2, hmanager, manager]
  split
  · exact ⟨none, rfl⟩
  · exact ⟨some _, rfl⟩

theorem admissible_arbs_loaded_two :
    ∃ loaded, loadPools id stateBeforeLoading [[v2Pool 1 8, v2Pool 2 8, v2Pool 3 8]]
        (.ofList [(arbOfTwo.id, arbOfTwo)]) (.ofList [(arbOfThree.id, arbOfThree)]) = .ok loaded ∧
      ∀ key details, loaded.botState.allArbs.get? key = some details ↔
        ∃ arb pools, (arb ∈ (Dict.ofList [(arbOfTwo.id, arbOfTwo)]).values ∨
            arb ∈ (Dict.ofList [(arbOfThree.id, arbOfThree)]).values) ∧ arb.id = key ∧
          Admissible stateBeforeLoading.blacklists loaded.liquidityPoolData loaded.botState.allPools
            arb pools ∧
          details = arbDetails stateBeforeLoading.chainData arb pools := by
  have h2 : WrittenBy id 2 (.ofList [(arbOfTwo.id, arbOfTwo)]) := by
    apply writtenBy_ofList (l := [arbOfTwo]) <;> decide
  have h3 : WrittenBy id 3 (.ofList [(arbOfThree.id, arbOfThree)]) := by
    apply writtenBy_ofList (l := [arbOfThree]) <;> decide
  have hlisted : ∀ p ∈ (admittedPools stateBeforeLoading.blacklists
      [[v2Pool 1 8, v2Pool 2 8, v2Pool 3 8]]).items,
      p.2.type = .uniswapV2 ∧ p.2.exchange = "a" := by decide
  obtain ⟨loaded, hloaded, _, hall, _⟩ := admissible_arbs_loaded id id List.Perm.refl
    stateBeforeLoading [[v2Pool 1 8, v2Pool 2 8, v2Pool 3 8]] (.ofList [(arbOfTwo.id, arbOfTwo)])
    (.ofList [(arbOfThree.id, arbOfThree)]) h2 h3 Function.injective_id.injOn rfl
    fun allPools poolAddress poolData hdata => manager_creates allPools poolAddress poolData
      (hlisted (poolAddress, poolData) (Dict.get?_eq_some.mp hdata))
  exact ⟨loaded, hloaded, hall⟩

end CreamBots.App
