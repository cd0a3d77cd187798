import CreamBots.App.PoolService
import CreamBots.Builders.DataDir

/-! The bot after the programs that fill its data directory.

What a builder has read is still listed when the bot starts, since LP files only grow.
So a start raises only while an arb file is missing, and the bot trades the cycles of
the pools that were listed when each builder last ran, less what is blacklisted or has no
helper (`start_trades_cycles`). A pool that was listed since waits for the builders; one
that the fetchers listed before them does not (`created_cycles_traded`). -/
namespace CreamBots.App.Toolchain
open Data Builders Builders.Toolchain

/-- The chain data that the bot reads. -/
def chainData (chain : Chain) : ChainData where
  v2Factories := .ofList (List.ofFn fun i =>
    ((chain.factory .v2 i).exchangeName, chain.factoryAddress .v2 i))
  v3Factories := .ofList (List.ofFn fun i =>
    ((chain.factory .v3 i).exchangeName, chain.factoryAddress .v3 i))
  wrappedToken := chain.wrappedToken

/-- A start of the bot: pool managers, the blacklists, `load_pools`. Nothing if a file
does not exist. -/
def start {chain : Chain} {Id : Type} [DecidableEq Id] (degenbot : ManagerClasses)
    (setOrder : List Address → List Address) (blacklists : Blacklists Id) (firstEvent : Nat)
    (dir : DataDir chain Id) : Option (Except PyError (Loaded Id)) := do
  let v2Files ← dir.readLpFiles .v2
  let v3Files ← dir.readLpFiles .v3
  let arbPaths2 ← dir.arbFiles .arbs2Pool
  let arbPaths3 ← dir.arbFiles .arbs3Pool
  let state : BotState Id :=
    ⟨(chainData chain), blacklists, firstEvent,
      createPoolManagers degenbot (chainData chain) firstEvent, .empty, .empty, false, false⟩
  return loadPools setOrder state (v2Files ++ v3Files) arbPaths2 arbPaths3

/-! ### What a start loads -/

variable {chain : Chain} {Id : Type} {dir : DataDir chain Id}

section Start
variable [DecidableEq Id] {blacklists : Blacklists Id} {v2Files v3Files : List (List PoolRecord)}
  {firstEvent : Nat} {degenbot : ManagerClasses}

/-- Exchanges have different names, so each name leads to its factory. -/
theorem get?_factories (chain : Chain) (v : LpFetcher.Version) (i : Fin (chain.factories v)) :
    (Dict.ofList (List.ofFn fun i => ((chain.factory v i).exchangeName, chain.factoryAddress v i))).get?
      (chain.factory v i).exchangeName = some (chain.factoryAddress v i) := by
  rw [Dict.get?_ofList_of_functional]
  · exact List.mem_ofFn.mpr ⟨i, rfl⟩
  · intro p hp q hq hpq
    obtain ⟨j, rfl⟩ := List.mem_ofFn.mp hp
    obtain ⟨k, rfl⟩ := List.mem_ofFn.mp hq
    have hjk : j = k := chain.names_injective v hpq
    rw [hjk]

theorem mem_created {chain : Chain} {v : LpFetcher.Version} {r : PoolRecord} :
    r ∈ chain.created v ↔
      ∃ i, ∃ e ∈ (chain.creations v i).history, (chain.factory v i).record v e = r := by
  simp only [Chain.created, List.mem_flatten, List.mem_ofFn]
  constructor
  · intro hmem
    obtain ⟨_, ⟨i, rfl⟩, hr⟩ := hmem
    exact ⟨i, List.mem_map.mp hr⟩
  · intro hmem
    obtain ⟨i, hr⟩ := hmem
    exact ⟨_, ⟨i, rfl⟩, List.mem_map.mpr hr⟩

omit [DecidableEq Id] in
/-- A pool of the files has the manager of its factory, and what the manager raises is
caught. -/
theorem helpersCreated (hcaught : degenbot.Caught) {chain : Chain} {state : BotState Id}
    (hchain : state.chainData = (chainData chain))
    (hmanagers : state.poolManagers = createPoolManagers degenbot (chainData chain) firstEvent)
    {lpFiles : List (List PoolRecord)}
    (h : lpFiles.flatten ⊆ chain.created .v2 ++ chain.created .v3) :
    HelpersCreated state (admittedPools blacklists lpFiles) := by
  intro allPools poolAddress poolData hdata
  obtain ⟨hmem, _, _⟩ := get?_admittedPools hdata
  have hmanager : ∀ {factories : Dict String Address} {exchange factoryAddress},
      factories.get? exchange = some factoryAddress →
      (factoryAddress ∈ (chainData chain).v2Factories.values ∨
        factoryAddress ∈ (chainData chain).v3Factories.values) →
      ∃ manager, managerOf state factories exchange = .ok manager ∧ manager.Caught := by
    intro factories exchange factoryAddress hget hvalue
    obtain ⟨manager, hmanager, hok⟩ := exists_manager hcaught firstEvent hvalue
    rw [← hmanagers] at hmanager
    exact ⟨manager, by simp only [managerOf, hget, hmanager], hok⟩
  rcases List.mem_append.mp (h hmem) with hv2 | hv3
  · obtain ⟨i, e, _, rfl⟩ := mem_created.mp hv2
    have hget : (chainData chain).v2Factories.get? _ = some _ := get?_factories chain .v2 i
    obtain ⟨manager, hof, hok⟩ := hmanager hget (.inl (Dict.mem_values.mpr ⟨_, hget⟩))
    have hcreate : createPoolHelper state allPools poolAddress ((chain.factory .v2 i).record .v2 e) =
        exceptManagerError (manager.getPool allPools poolAddress (state.firstEvent - 1) none) := by
      simp only [createPoolHelper, LpFetcher.Factory.record, LpFetcher.Factory.v2Record, hchain, hof]
    rw [hcreate]
    exact hok.helper ..
  · obtain ⟨i, e, _, rfl⟩ := mem_created.mp hv3
    have hget : (chainData chain).v3Factories.get? _ = some _ := get?_factories chain .v3 i
    obtain ⟨manager, hof, hok⟩ := hmanager hget (.inr (Dict.mem_values.mpr ⟨_, hget⟩))
    have hcreate : createPoolHelper state allPools poolAddress ((chain.factory .v3 i).record .v3 e) =
        exceptManagerError (manager.getPool allPools poolAddress (state.firstEvent - 1)
          (some e.args.fee)) := by
      simp only [createPoolHelper, LpFetcher.Factory.record, LpFetcher.Factory.v3Record, hchain, hof]
    rw [hcreate]
    exact hok.helper ..

/-- A path that no blacklist keeps a start from loading. -/
structure Tradable (keccak : List UInt8 → Id) (blacklists : Blacklists Id) (records : List PoolRecord)
    (path : List Address) : Prop where
  allowed : pathId keccak path ∉ blacklists.arbs
  listed : ∀ poolAddress ∈ path, ∃ r ∈ records, r.poolAddress = poolAddress ∧ Unlisted blacklists r

/-- The table holds the tradable ones of these cycles whose pools all have helpers, each
under its id, and nothing else. -/
def Trades (keccak : List UInt8 → Id) (wrappedToken : Address) (blacklists : Blacklists Id)
    (records : List PoolRecord) (isCycle : List Address → Prop) (botState : BotState Id) : Prop :=
  ∀ id details, botState.allArbs.get? id = some details ↔ ∃ path pools, isCycle path ∧
    Tradable keccak blacklists records path ∧ pools.map some = path.map botState.allPools.get? ∧
    id = pathId keccak path ∧ details = ⟨⟨id, wrappedToken, pools, maxInput⟩, "load"⟩

variable {M : Multigraph Address ThreePool.EdgeData} {keccak : List UInt8 → Id}

theorem arbFiles_of_start {setOrder : List Address → List Address} {loaded : Loaded Id}
    (h : start degenbot setOrder blacklists firstEvent dir = some (.ok loaded)) (b : Builder) :
    ∃ paths, dir.arbFiles b = some paths := by
  obtain ⟨_, _, h⟩ := Option.bind_eq_some_iff.mp h
  obtain ⟨_, _, h⟩ := Option.bind_eq_some_iff.mp h
  obtain ⟨paths2, h2, h⟩ := Option.bind_eq_some_iff.mp h
  obtain ⟨paths3, h3, _⟩ := Option.bind_eq_some_iff.mp h
  cases b with
  | arbs2Pool => exact ⟨paths2, h2⟩
  | arbs3Pool => exact ⟨paths3, h3⟩

/-- With both arb files a start gets through. -/
theorem exists_start (hgenuine : chain.Genuine) (hfree : chain.CollisionFree keccak)
    (hcaught : degenbot.Caught) {setOrder : List Address → List Address}
    (hset : ∀ l, (setOrder l).Perm l) (blacklists : Blacklists Id) (firstEvent : Nat)
    (programs : List (Program chain))
    (h : ∀ b, ∃ paths, (DataDir.after M keccak programs).arbFiles b = some paths) :
    ∃ (loaded : Loaded Id) (before : Builder → List (Program chain)),
      start degenbot setOrder blacklists firstEvent (DataDir.after M keccak programs) =
          some (.ok loaded) ∧
        (∀ b, LastRun b programs (before b)) ∧
        Trades keccak chain.wrappedToken blacklists (DataDir.after M keccak programs).records
          (fun path => ∃ b : Builder, b.IsCycle (DataDir.after M keccak (before b)).records
            chain.wrappedToken path) loaded.botState := by
  choose paths hpaths using h
  choose before hlast hbuild using fun b => lastRun_of_file hgenuine programs (hpaths b)
  have hwritten : ∀ b, Written keccak (DataDir.after M keccak (before b)) b (paths b) :=
    fun b => written_of_build hgenuine hfree (scanned_after M keccak _) (hbuild b)
  obtain ⟨later, hprograms, _⟩ := hlast .arbs2Pool
  have hgrows := grows_after M keccak (before .arbs2Pool) (.builder .arbs2Pool :: later)
  rw [← hprograms] at hgrows
  obtain ⟨_, _, h2, h3, _⟩ := build_eq_some (hbuild .arbs2Pool)
  obtain ⟨v2Files, hread2⟩ := hgrows.readLpFiles h2
  obtain ⟨v3Files, hread3⟩ := hgrows.readLpFiles h3
  have hrecords := flatten_read hread2 hread3
  let state : BotState Id := ⟨(chainData chain), blacklists, firstEvent,
    createPoolManagers degenbot (chainData chain) firstEvent, .empty, .empty, false, false⟩
  have hcycle : ∀ arb, (arb ∈ (paths .arbs2Pool).values ∨ arb ∈ (paths .arbs3Pool).values) →
      ∃ b : Builder, b.IsCycle (DataDir.after M keccak (before b)).records chain.wrappedToken
        arb.path := by
    intro arb harb
    rcases harb with harb | harb
    · exact ⟨_, ((hwritten _).cycles _).mp ⟨arb, harb, rfl⟩⟩
    · exact ⟨_, ((hwritten _).cycles _).mp ⟨arb, harb, rfl⟩⟩
  have hid : ∀ arb, (arb ∈ (paths .arbs2Pool).values ∨ arb ∈ (paths .arbs3Pool).values) →
      arb.id = pathId keccak arb.path :=
    fun arb harb => harb.elim ((hwritten _).writtenBy.hashed arb) ((hwritten _).writtenBy.hashed arb)
  have hhelpers : HelpersCreated state (admittedPools blacklists (v2Files ++ v3Files)) :=
    helpersCreated hcaught rfl rfl (hrecords ▸ (scanned_after M keccak programs).records_subset)
  obtain ⟨loaded, hloaded, hall⟩ := exists_loaded hset (hwritten .arbs2Pool).writtenBy
    (hwritten .arbs3Pool).writtenBy (hfree.mono fun path hpath => by
      obtain ⟨arb, harb, rfl⟩ := hpath
      obtain ⟨b, hb⟩ := hcycle arb harb
      exact ⟨b, hb.mono (scanned_after M keccak _).records_subset⟩) rfl hhelpers
  refine ⟨loaded, before, ?_, hlast, fun id details => ?_⟩
  · simp only [start, hread2, hread3, hpaths, Option.bind_eq_bind, Option.bind_some]
    exact congrArg some hloaded
  rw [hall]
  constructor
  · intro hbuilt
    obtain ⟨arb, pools, harb, rfl, hadmissible, rfl⟩ := hbuilt
    refine ⟨arb.path, pools, hcycle arb harb, ⟨hid arb harb ▸ hadmissible.allowed, ?_⟩,
      hadmissible.helpers, hid arb harb, rfl⟩
    intro poolAddress hpool
    rw [← hrecords]
    exact mem_keys_admittedPools.mp (hadmissible.listed poolAddress hpool)
  · intro htraded
    obtain ⟨path, pools, ⟨b, hb⟩, htradable, hpools, rfl, rfl⟩ := htraded
    obtain ⟨arb, harb, rfl⟩ := ((hwritten b).cycles path).mpr hb
    have harb : arb ∈ (paths .arbs2Pool).values ∨ arb ∈ (paths .arbs3Pool).values := by
      cases b with
      | arbs2Pool => exact .inl harb
      | arbs3Pool => exact .inr harb
    rw [← hid arb harb]
    refine ⟨arb, pools, harb, rfl, ⟨hid arb harb ▸ htradable.allowed, ?_, hpools⟩, rfl⟩
    intro poolAddress hpool
    rw [mem_keys_admittedPools, hrecords]
    exact htradable.listed poolAddress hpool

/-- **A start raises only while an arb file is missing, and the bot trades the cycles of
the pools that were listed when each builder last ran**, whatever was run in between. -/
theorem start_trades_cycles (chain : Chain) (M : Multigraph Address ThreePool.EdgeData)
    (keccak : List UInt8 → Id) (hgenuine : chain.Genuine) (hfree : chain.CollisionFree keccak)
    (degenbot : ManagerClasses) (hcaught : degenbot.Caught) (setOrder : List Address → List Address)
    (hset : ∀ l, (setOrder l).Perm l) (blacklists : Blacklists Id) (firstEvent : Nat)
    (programs : List (Program chain)) :
    let dir := DataDir.after M keccak programs
    ((∃ loaded, start degenbot setOrder blacklists firstEvent dir = some (.ok loaded)) ↔
      ∀ b, ∃ paths, dir.arbFiles b = some paths) ∧
    ∀ loaded, start degenbot setOrder blacklists firstEvent dir = some (.ok loaded) →
      ∃ before : Builder → List (Program chain), (∀ b, LastRun b programs (before b)) ∧
        Trades keccak chain.wrappedToken blacklists dir.records
          (fun path => ∃ b : Builder, b.IsCycle (DataDir.after M keccak (before b)).records
            chain.wrappedToken path) loaded.botState := by
  intro dir
  have hstart := exists_start (M := M) hgenuine hfree hcaught hset blacklists firstEvent programs
  refine ⟨⟨fun h => ?_, fun h => ?_⟩, fun loaded h => ?_⟩
  · obtain ⟨loaded, h⟩ := h
    exact arbFiles_of_start h
  · obtain ⟨loaded, _, h, _⟩ := hstart h
    exact ⟨loaded, h⟩
  · obtain ⟨loaded', before, h', hlast, htrades⟩ := hstart (arbFiles_of_start h)
    cases h.symm.trans h'
    exact ⟨before, hlast, htrades⟩

end Start

/-! ### Up to date -/

section Listed
variable [DecidableEq Id] {keccak : List UInt8 → Id}

omit [DecidableEq Id] in
theorem Tradable.mono {blacklists : Blacklists Id} {records records' : List PoolRecord}
    {path : List Address} (h : Tradable keccak blacklists records path) (hle : records ⊆ records') :
    Tradable keccak blacklists records' path := by
  refine ⟨h.allowed, fun poolAddress hpool => ?_⟩
  obtain ⟨r, hr, hown⟩ := h.listed poolAddress hpool
  exact ⟨r, hle hr, hown⟩

/-- **Once the fetchers and then the builders have run, a start trades every cycle of the
pools created until then**, after the blocks in which their factories were deployed, if no
blacklist names it and its pools have helpers. -/
theorem created_cycles_traded (chain : Chain) (M : Multigraph Address ThreePool.EdgeData)
    (keccak : List UInt8 → Id) (hgenuine : chain.Genuine) (hfree : chain.CollisionFree keccak)
    (degenbot : ManagerClasses) (hcaught : degenbot.Caught) (setOrder : List Address → List Address)
    (hset : ∀ l, (setOrder l).Perm l) (blacklists : Blacklists Id) (firstEvent n : Nat)
    (programs : List (Program chain))
    (hfetched : ∀ b before, LastRun b programs before → Fetched n before) (loaded : Loaded Id)
    (h : start degenbot setOrder blacklists firstEvent (DataDir.after M keccak programs) =
      some (.ok loaded)) (b : Builder) (path : List Address)
    (hcycle : b.IsCycle (chain.createdAfterDeployment n .v2 ++ chain.createdAfterDeployment n .v3)
      chain.wrappedToken path)
    (htradable : Tradable keccak blacklists
      (chain.createdAfterDeployment n .v2 ++ chain.createdAfterDeployment n .v3) path)
    (pools : List Pool) (hpools : pools.map some = path.map loaded.botState.allPools.get?) :
    loaded.botState.allArbs.get? (pathId keccak path) =
      some ⟨⟨pathId keccak path, chain.wrappedToken, pools, maxInput⟩, "load"⟩ := by
  obtain ⟨loaded', before, h', hlast, htrades⟩ := exists_start hgenuine hfree hcaught hset blacklists
    firstEvent programs (arbFiles_of_start h)
  cases h.symm.trans h'
  have hbefore : ∀ v, (DataDir.after M keccak (before b)).Lists n v :=
    (hfetched b _ (hlast b)).lists
  obtain ⟨later, hprograms, _⟩ := hlast b
  have hgrows := grows_after M keccak (before b) (.builder b :: later)
  rw [← hprograms] at hgrows
  have hnow : ∀ v, (DataDir.after M keccak programs).Lists n v :=
    fun v => List.Subset.trans (hbefore v) hgrows.content_subset
  exact (htrades _ _).mpr ⟨path, pools, ⟨b, hcycle.mono (records_of_lists hbefore)⟩,
    htradable.mono (records_of_lists hnow), hpools, rfl, rfl⟩

end Listed

/-! ### Two pairs -/

def pairCreated (n : UInt8) (blockNumber : Nat) : LpFetcher.Event .v2 :=
  ⟨⟨.fill 8, .fill 9, .fill n, none⟩, blockNumber⟩

/-- The V2 factory makes two pairs of tokens 8 and 9, the V3 factory nothing. -/
def twoPairs : Chain where
  wrappedToken := .fill 9
  factories _ := 1
  factory _ _ := ⟨"a", 0, some 3⟩
  names_injective _ _ _ _ := Subsingleton.elim _ _
  factoryAddress _ _ := .fill 20
  creations v _ :=
    match v with
    | .v2 => .ofHistory [pairCreated 1 3, pairCreated 2 4] (by decide)
    | .v3 => .ofHistory [] .nil

theorem twoPairs_genuine : twoPairs.Genuine :=
  ⟨⟨by decide, by decide⟩, by decide⟩

/-- One undisturbed run of each fetcher, then the builders. -/
def twoPairsPrograms : List (Program twoPairs) :=
  [.lpFetcher .v2 fun _ => ⟨5, none, none⟩, .lpFetcher .v3 fun _ => ⟨5, none, none⟩,
    .builder .arbs2Pool, .builder .arbs3Pool]

/-- The manager of the examples for every factory. -/
def oneManager : ManagerClasses := ⟨fun _ => manager, fun _ _ => manager⟩

theorem manager_caught : manager.Caught := by
  intro allPools poolAddress stateBlock fee
  unfold manager
  by_cases h : poolAddress = .fill 3
  · simp [h]
  · simp [h]

theorem oneManager_caught : oneManager.Caught := ⟨fun _ => manager_caught, fun _ _ => manager_caught⟩

theorem start_trades_cycles_twoPairs : ∃ loaded, start oneManager id ⟨[], [], [], []⟩ 100
    (DataDir.after Multigraph.edgeList id twoPairsPrograms) = some (.ok loaded) :=
  (start_trades_cycles twoPairs Multigraph.edgeList id twoPairs_genuine Function.injective_id.injOn
    oneManager oneManager_caught id List.Perm.refl ⟨[], [], [], []⟩ 100 twoPairsPrograms).1.mpr
    fun b => by
      cases b with
      | arbs2Pool => exact ⟨_, rfl⟩
      | arbs3Pool => exact ⟨_, rfl⟩

theorem twoPairsPrograms_fetched (b : Builder) (before : List (Program twoPairs))
    (h : LastRun b twoPairsPrograms before) : Fetched 4 before := by
  obtain ⟨later, hprograms, _⟩ := h
  cases before with
  | nil => cases hprograms
  | cons first before =>
    obtain ⟨rfl, hrest⟩ := List.cons.inj hprograms
    cases before with
    | nil => cases hrest
    | cons second before =>
      obtain ⟨rfl, _⟩ := List.cons.inj hrest
      intro v
      cases v with
      | v2 => exact ⟨[], _, _, rfl, fun _ => ⟨rfl, rfl, by decide⟩⟩
      | v3 => exact ⟨[_], _, _, rfl, fun _ => ⟨rfl, rfl, by decide⟩⟩

theorem created_cycles_traded_twoPairs : ∃ loaded, start oneManager id ⟨[], [], [], []⟩ 100
      (DataDir.after Multigraph.edgeList id twoPairsPrograms) = some (.ok loaded) ∧
    loaded.botState.allArbs.get? (pathId id [.fill 2, .fill 1]) =
      some ⟨⟨pathId id [.fill 2, .fill 1], .fill 9, [⟨.fill 2, 99⟩, ⟨.fill 1, 99⟩], maxInput⟩,
        "load"⟩ := by
  obtain ⟨loaded, hloaded⟩ : ∃ loaded, start oneManager id ⟨[], [], [], []⟩ 100
    (DataDir.after Multigraph.edgeList id twoPairsPrograms) = some (.ok loaded) := ⟨_, rfl⟩
  refine ⟨loaded, hloaded, created_cycles_traded twoPairs Multigraph.edgeList id twoPairs_genuine
    Function.injective_id.injOn oneManager oneManager_caught id List.Perm.refl ⟨[], [], [], []⟩ 100 4
    twoPairsPrograms twoPairsPrograms_fetched loaded hloaded .arbs2Pool [.fill 2, .fill 1] ?_
    ⟨by decide, by decide⟩ _ ?_⟩
  · exact ⟨.fill 2, .fill 1, .fill 8, rfl, by decide, by decide, by unfold Builders.Holds; decide,
      by unfold Builders.Holds; decide⟩
  · cases hloaded
    decide

end CreamBots.App.Toolchain
