import CreamBots.Builders.Record
import CreamBots.Data.Multigraph
import CreamBots.Data.Raise

/-! The three-pool path builder.

Tokens are nodes and pools are edges. For each unordered pair of neighbours of
the wrapped token that have degree above one and a pool between them, the
builder takes every choice of a pool on each of the three sides of the triangle
and stores it in both directions. `three_pool_paths_listed`: whatever the graph
library, the builder does not raise and the result is exactly the triples that
leave the wrapped token, pass two other tokens and come back. -/
namespace CreamBots.Builders.ThreePool
open Data

/-- What an edge carries. -/
structure EdgeData where
  lpAddress : Address
  poolType : PoolType
deriving DecidableEq

/-- `itertools.combinations(tokens, 2)`. -/
def combinations {α : Type} : List α → List (α × α)
  | [] => []
  | a :: rest => rest.map (fun b => (a, b)) ++ combinations rest

/-- `itertools.product` of three lists. -/
def product {α : Type} (xs ys zs : List α) : List (α × α × α) :=
  xs.flatMap fun x => ys.flatMap fun y => zs.map fun z => (x, y, z)

section Graph
variable (M : Multigraph Address EdgeData)

def addPools (poolType : PoolType) (lpData : LpData) (g : M.Graph) : M.Graph :=
  lpData.values.foldl (fun g pool =>
    M.addEdge g pool.token0 pool.token1 ⟨pool.poolAddress, poolType⟩) g

def buildGraph (v2LpData v3LpData : LpData) : M.Graph :=
  addPools M .uniswapV3 v3LpData (addPools M .uniswapV2 v2LpData M.empty)

/-- `[edge for edge in G.get_edge_data(u, v).values()]`, which raises on `None`. -/
def edgesBetween (g : M.Graph) (u v : Address) : Except PyError (List EdgeData) :=
  match M.edgeData g u v with
  | none => .error .attributeError
  | some edges => .ok edges

end Graph

/-- The record of an edge's pool, looked up in the dictionary of its type. -/
def poolDict (v2LpData v3LpData : LpData) (pool : EdgeData) : Except PyError (Option PoolRecord) :=
  match pool.poolType with
  | .uniswapV2 => .ok (v2LpData.get? pool.lpAddress)
  | .uniswapV3 => .ok (v3LpData.get? pool.lpAddress)
  | .other _ => .error (.exception "could not identify pool")

section Build
variable (M : Multigraph Address EdgeData) {Id : Type} [DecidableEq Id] (keccak : List UInt8 → Id)

/-- A pool of a path and what was looked up for it. -/
abbrev Side := EdgeData × Option PoolRecord

def entry (poolA poolB poolC : Side) : ArbPath Id where
  id := pathId keccak [poolA.1.lpAddress, poolB.1.lpAddress, poolC.1.lpAddress]
  pools := ((Dict.empty.set poolA.1.lpAddress poolA.2).set poolB.1.lpAddress poolB.2).set
    poolC.1.lpAddress poolC.2
  arbTypes := ["cycle", "flash_borrow_lp_swap"]
  path := [poolA.1.lpAddress, poolB.1.lpAddress, poolC.1.lpAddress]

/-- `paths[id] = {"id": (id := …), …}`: the value is evaluated before the key, so
the entry is stored under the id it has just computed. -/
def addPath (paths : Dict Id (ArbPath Id)) (e : ArbPath Id) : Dict Id (ArbPath Id) :=
  paths.set e.id e

/-- One choice of three pools, stored in both directions. -/
def addTriangle (v2LpData v3LpData : LpData) (paths : Dict Id (ArbPath Id))
    (swapPools : EdgeData × EdgeData × EdgeData) : Except PyError (Dict Id (ArbPath Id)) := do
  let (poolA, poolB, poolC) := swapPools
  let poolADict ← poolDict v2LpData v3LpData poolA
  let poolBDict ← poolDict v2LpData v3LpData poolB
  let poolCDict ← poolDict v2LpData v3LpData poolC
  let paths := addPath paths (entry keccak (poolA, poolADict) (poolB, poolBDict) (poolC, poolCDict))
  return addPath paths (entry keccak (poolC, poolCDict) (poolB, poolBDict) (poolA, poolADict))

def addTokenPair (wrappedToken : Address) (v2LpData v3LpData : LpData) (g : M.Graph)
    (paths : Dict Id (ArbPath Id)) (tokens : Address × Address) :
    Except PyError (Dict Id (ArbPath Id)) := do
  let (tokenA, tokenB) := tokens
  if M.hasEdge g tokenA tokenB then
    let outsidePoolsTokenA ← edgesBetween M g tokenA wrappedToken
    let insidePools ← edgesBetween M g tokenA tokenB
    let outsidePoolsTokenB ← edgesBetween M g tokenB wrappedToken
    (product outsidePoolsTokenA insidePools outsidePoolsTokenB).foldlM
      (addTriangle keccak v2LpData v3LpData) paths
  else return paths

def main (wrappedToken : Address) (v2Files v3Files : List (List PoolRecord)) :
    Except PyError (Dict Id (ArbPath Id)) := do
  let v2LpData := loadLpData v2Files
  let v3LpData := loadLpData v3Files
  let g := buildGraph M v2LpData v3LpData
  let allTokensWithWethPool ← match M.neighbors g wrappedToken with
    | none => throw .networkXError
    | some tokens => pure tokens
  let filteredTokens := allTokensWithWethPool.filter fun token => decide (1 < M.degree g token)
  (combinations filteredTokens).foldlM (addTokenPair M keccak wrappedToken v2LpData v3LpData g)
    Dict.empty

end Build

/-! ### The two iterators -/

theorem mem_product {α : Type} {xs ys zs : List α} {x y z : α} :
    (x, y, z) ∈ product xs ys zs ↔ x ∈ xs ∧ y ∈ ys ∧ z ∈ zs := by
  simp [product]

theorem mem_of_combinations {α : Type} {l : List α} {a b : α} (h : (a, b) ∈ combinations l) :
    a ∈ l ∧ b ∈ l := by
  induction l with
  | nil => cases h
  | cons c rest ih =>
    rcases List.mem_append.mp h with h | h
    · obtain ⟨b', hb, he⟩ := List.mem_map.mp h
      obtain ⟨rfl, rfl⟩ := Prod.mk.inj he
      exact ⟨List.mem_cons_self .., List.mem_cons_of_mem _ hb⟩
    · exact ⟨List.mem_cons_of_mem _ (ih h).1, List.mem_cons_of_mem _ (ih h).2⟩

/-- Two different elements meet in one of the two orders. -/
theorem combinations_complete {α : Type} {l : List α} {a b : α} (ha : a ∈ l) (hb : b ∈ l)
    (hne : a ≠ b) : (a, b) ∈ combinations l ∨ (b, a) ∈ combinations l := by
  induction l with
  | nil => cases ha
  | cons c rest ih =>
    simp only [combinations, List.mem_append]
    rcases List.mem_cons.mp ha with rfl | ha'
    · have hb' : b ∈ rest := (List.mem_cons.mp hb).resolve_left hne.symm
      exact .inl (.inl (List.mem_map_of_mem hb'))
    · rcases List.mem_cons.mp hb with rfl | hb'
      · exact .inr (.inl (List.mem_map_of_mem ha'))
      · exact (ih ha' hb').imp .inr .inr

/-! ### The graph -/

/-- The edge of a pool. -/
def poolEdge (poolType : PoolType) (r : PoolRecord) : Edge Address EdgeData :=
  ⟨r.token0, r.token1, ⟨r.poolAddress, poolType⟩⟩

theorem edges_addPools (M : Multigraph Address EdgeData) (poolType : PoolType) (lpData : LpData)
    (g : M.Graph) :
    M.edges (addPools M poolType lpData g) = M.edges g ++ lpData.values.map (poolEdge poolType) := by
  unfold addPools
  induction lpData.values generalizing g with
  | nil => simp
  | cons r rest ih =>
    rw [List.foldl_cons, ih, M.edges_addEdge, List.append_assoc]
    rfl

/-- An edge's data and the record it stands for. -/
def Loaded (v2LpData v3LpData : LpData) (d : EdgeData) (r : PoolRecord) : Prop :=
  r ∈ v2LpData.values ∧ d = ⟨r.poolAddress, .uniswapV2⟩ ∨
    r ∈ v3LpData.values ∧ d = ⟨r.poolAddress, .uniswapV3⟩

theorem Loaded.lpAddress {v2LpData v3LpData : LpData} {d : EdgeData} {r : PoolRecord}
    (h : Loaded v2LpData v3LpData d r) : d.lpAddress = r.poolAddress := by
  rcases h with ⟨_, rfl⟩ | ⟨_, rfl⟩ <;> rfl

theorem mem_edges_buildGraph (M : Multigraph Address EdgeData) {v2LpData v3LpData : LpData}
    {e : Edge Address EdgeData} :
    e ∈ M.edges (buildGraph M v2LpData v3LpData) ↔
      ∃ r, Loaded v2LpData v3LpData e.data r ∧ e = ⟨r.token0, r.token1, e.data⟩ := by
  rw [buildGraph, edges_addPools, edges_addPools, M.edges_empty, List.nil_append, List.mem_append,
    List.mem_map, List.mem_map]
  refine ⟨fun h => ?_, fun h => ?_⟩
  · rcases h with ⟨r, hr, rfl⟩ | ⟨r, hr, rfl⟩
    · exact ⟨r, .inl ⟨hr, rfl⟩, rfl⟩
    · exact ⟨r, .inr ⟨hr, rfl⟩, rfl⟩
  · obtain ⟨r, ⟨hr, hd⟩ | ⟨hr, hd⟩, he⟩ := h
    · exact .inl ⟨r, hr, by rw [he, hd]; rfl⟩
    · exact .inr ⟨r, hr, by rw [he, hd]; rfl⟩

/-- Between two tokens stand the pools that hold them. -/
theorem exists_edge_iff (M : Multigraph Address EdgeData) {v2LpData v3LpData : LpData}
    {u v : Address} {d : EdgeData} :
    (∃ e ∈ M.edges (buildGraph M v2LpData v3LpData), e.ends = s(u, v) ∧ e.data = d) ↔
      ∃ r, Loaded v2LpData v3LpData d r ∧ r.tokenPair = s(u, v) := by
  refine ⟨fun h => ?_, fun h => ?_⟩
  · obtain ⟨e, he, hends, rfl⟩ := h
    obtain ⟨r, hr, heq⟩ := (mem_edges_buildGraph M).mp he
    exact ⟨r, hr, by rw [← hends, heq]; rfl⟩
  · obtain ⟨r, hr, ht⟩ := h
    exact ⟨⟨r.token0, r.token1, d⟩, (mem_edges_buildGraph M).mpr ⟨r, hr, rfl⟩, ht, rfl⟩

/-! ### What the loops store -/

section Loops
variable (M : Multigraph Address EdgeData) {Id : Type} [DecidableEq Id] (keccak : List UInt8 → Id)
  (v2LpData v3LpData : LpData)

/-- The lookup of a pool whose type is known. -/
def recordOf (d : EdgeData) : Option PoolRecord :=
  if d.poolType = .uniswapV2 then v2LpData.get? d.lpAddress else v3LpData.get? d.lpAddress

def sideOf (d : EdgeData) : Side := (d, recordOf v2LpData v3LpData d)

/-- The two entries of one choice of pools. -/
def triangleEntries (t : EdgeData × EdgeData × EdgeData) : List (ArbPath Id) :=
  let side := sideOf v2LpData v3LpData
  [entry keccak (side t.1) (side t.2.1) (side t.2.2),
    entry keccak (side t.2.2) (side t.2.1) (side t.1)]

/-- The choices of pools for one pair of tokens; none unless there is a pool between them. -/
def triangles (wrappedToken : Address) (g : M.Graph) (tokens : Address × Address) :
    List (EdgeData × EdgeData × EdgeData) :=
  if M.hasEdge g tokens.1 tokens.2 then
    product ((M.edgeData g tokens.1 wrappedToken).getD [])
      ((M.edgeData g tokens.1 tokens.2).getD []) ((M.edgeData g tokens.2 wrappedToken).getD [])
  else []

variable {v2LpData v3LpData}

theorem Loaded.poolDict {d : EdgeData} {r : PoolRecord} (h : Loaded v2LpData v3LpData d r) :
    poolDict v2LpData v3LpData d = .ok (recordOf v2LpData v3LpData d) := by
  rcases h with ⟨_, rfl⟩ | ⟨_, rfl⟩
  · rfl
  · rfl

theorem Loaded.recordOf (hv2 : Keyed v2LpData) (hv3 : Keyed v3LpData) {d : EdgeData}
    {r : PoolRecord} (h : Loaded v2LpData v3LpData d r) :
    recordOf v2LpData v3LpData d = some r := by
  rcases h with ⟨hr, rfl⟩ | ⟨hr, rfl⟩
  · exact hv2.get?_of_mem hr
  · exact hv3.get?_of_mem hr

/-- The sides of a triangle are pools of the graph. -/
theorem mem_edgeData_loaded {u v : Address} {d : EdgeData}
    (h : d ∈ (M.edgeData (buildGraph M v2LpData v3LpData) u v).getD []) :
    ∃ r, Loaded v2LpData v3LpData d r ∧ r.tokenPair = s(u, v) := by
  cases he : M.edgeData (buildGraph M v2LpData v3LpData) u v with
  | none =>
    rw [he] at h
    cases h
  | some l =>
    rw [he] at h
    exact (exists_edge_iff M).mp ((M.mem_edgeData he).mp h)

theorem mem_edgeData_of_loaded {u v : Address} {d : EdgeData} {r : PoolRecord}
    (h : Loaded v2LpData v3LpData d r) (ht : r.tokenPair = s(u, v)) :
    ∃ l, M.edgeData (buildGraph M v2LpData v3LpData) u v = some l ∧ d ∈ l := by
  have hex := (exists_edge_iff M).mpr ⟨r, h, ht⟩
  cases he : M.edgeData (buildGraph M v2LpData v3LpData) u v with
  | none =>
    obtain ⟨e, hmem, hends, _⟩ := hex
    exact absurd hends ((M.edgeData_eq_none _ _ _).mp he e hmem)
  | some l => exact ⟨l, rfl, (M.mem_edgeData he).mpr hex⟩

/-- One choice of pools of the graph does not raise and sets its two entries. -/
theorem addTriangle_ok {t : EdgeData × EdgeData × EdgeData} {ra rb rc : PoolRecord}
    (ha : Loaded v2LpData v3LpData t.1 ra) (hb : Loaded v2LpData v3LpData t.2.1 rb)
    (hc : Loaded v2LpData v3LpData t.2.2 rc) (paths : Dict Id (ArbPath Id)) :
    addTriangle keccak v2LpData v3LpData paths t =
      .ok ((triangleEntries keccak v2LpData v3LpData t).foldl addPath paths) := by
  simp only [addTriangle, ha.poolDict, hb.poolDict, hc.poolDict]
  rfl

/-- A pair of neighbours of the wrapped token does not raise and sets the entries
of its triangles. -/
theorem addTokenPair_ok {wrappedToken : Address} {tokens : Address × Address}
    (hA : ∃ d r, Loaded v2LpData v3LpData d r ∧ r.tokenPair = s(tokens.1, wrappedToken))
    (hB : ∃ d r, Loaded v2LpData v3LpData d r ∧ r.tokenPair = s(tokens.2, wrappedToken))
    (paths : Dict Id (ArbPath Id)) :
    addTokenPair M keccak wrappedToken v2LpData v3LpData (buildGraph M v2LpData v3LpData) paths
        tokens =
      .ok (((triangles M wrappedToken (buildGraph M v2LpData v3LpData) tokens).flatMap
        (triangleEntries keccak v2LpData v3LpData)).foldl addPath paths) := by
  obtain ⟨tokenA, tokenB⟩ := tokens
  by_cases hab : M.hasEdge (buildGraph M v2LpData v3LpData) tokenA tokenB = true
  · obtain ⟨_, _, hA, htA⟩ := hA
    obtain ⟨_, _, hB, htB⟩ := hB
    obtain ⟨e, he, hends⟩ := (M.hasEdge_iff _ _ _).mp hab
    obtain ⟨_, hI, htI⟩ := (exists_edge_iff M).mp ⟨e, he, hends, rfl⟩
    obtain ⟨outsideA, hoA, _⟩ := mem_edgeData_of_loaded M hA htA
    obtain ⟨inside, hin, _⟩ := mem_edgeData_of_loaded M hI htI
    obtain ⟨outsideB, hoB, _⟩ := mem_edgeData_of_loaded M hB htB
    dsimp only at hoA hoB
    simp only [addTokenPair, triangles, edgesBetween, hab, if_true, hoA, hin, hoB,
      Option.getD_some, List.foldl_flatMap]
    apply foldlM_ok
    intro s t ht
    obtain ⟨ha, hb, hc⟩ := mem_product.mp ht
    obtain ⟨ra, hra, _⟩ := mem_edgeData_loaded M (by rw [hoA]; exact ha)
    obtain ⟨rb, hrb, _⟩ := mem_edgeData_loaded M (by rw [hin]; exact hb)
    obtain ⟨rc, hrc, _⟩ := mem_edgeData_loaded M (by rw [hoB]; exact hc)
    exact addTriangle_ok keccak hra hrb hrc s
  · simp only [addTokenPair, triangles, hab, Bool.false_eq_true, if_false]
    rfl

end Loops

/-! ### The paths -/

/-- Out of the wrapped token, through two other tokens, and back. -/
def IsCycle (records : List PoolRecord) (wrappedToken : Address) (path : List Address) : Prop :=
  ∃ p₁ p₂ p₃ a b, path = [p₁, p₂, p₃] ∧ a ≠ b ∧ a ≠ wrappedToken ∧ b ≠ wrappedToken ∧
    Holds records p₁ wrappedToken a ∧ Holds records p₂ a b ∧ Holds records p₃ b wrappedToken

theorem IsCycle.reverse {records : List PoolRecord} {wrappedToken p₁ p₂ p₃ : Address}
    (h : IsCycle records wrappedToken [p₁, p₂, p₃]) :
    IsCycle records wrappedToken [p₃, p₂, p₁] := by
  obtain ⟨q₁, q₂, q₃, a, b, he, hab, ha, hb, h₁, h₂, h₃⟩ := h
  obtain ⟨rfl, rfl, rfl⟩ : p₁ = q₁ ∧ p₂ = q₂ ∧ p₃ = q₃ := by simpa using he
  exact ⟨p₃, p₂, p₁, b, a, rfl, hab.symm, hb, ha, h₃.symm, h₂.symm, h₁.symm⟩

section Paths
variable {M : Multigraph Address EdgeData} {Id : Type} [DecidableEq Id]
  {keccak : List UInt8 → Id} {wrappedToken : Address} {v2Files v3Files : List (List PoolRecord)}

/-- No address is listed both as a V2 and as a V3 pool. -/
def Separate (v2Files v3Files : List (List PoolRecord)) : Prop :=
  ∀ r ∈ v2Files.flatten, ∀ r' ∈ v3Files.flatten, r.poolAddress ≠ r'.poolAddress

/-- With the two kinds apart, the loaded records are the last ones over all files. -/
theorem loaded_iff (hsep : Separate v2Files v3Files) {r : PoolRecord} :
    (∃ d, Loaded (loadLpData v2Files) (loadLpData v3Files) d r) ↔
      lastRecord? (v2Files ++ v3Files) r.poolAddress = some r := by
  rw [← get?_update_loadLpData, Dict.get?_update]
  refine ⟨fun h => ?_, fun h => ?_⟩
  · obtain ⟨d, ⟨hr, rfl⟩ | ⟨hr, rfl⟩⟩ := h
    · have h2 := (keyed_loadLpData v2Files).get?_of_mem hr
      have h3 : (loadLpData v3Files).get? r.poolAddress = none := by
        rw [get?_loadLpData, Option.eq_none_iff_forall_ne_some]
        intro r' hr'
        rw [get?_loadLpData] at h2
        obtain ⟨r₂, hr₂, hp₂, _⟩ := lastRecord?_eq_some h2
        obtain ⟨r₃, hr₃, hp₃, _⟩ := lastRecord?_eq_some hr'
        exact hsep r₂ hr₂ r₃ hr₃ (hp₂.trans hp₃.symm)
      rw [h3, h2]
      rfl
    · rw [(keyed_loadLpData v3Files).get?_of_mem hr]
      rfl
  · cases h3 : (loadLpData v3Files).get? r.poolAddress with
    | some r' =>
      rw [h3, Option.some_or] at h
      rw [h] at h3
      exact ⟨_, .inr ⟨Dict.mem_values.mpr ⟨_, h3⟩, rfl⟩⟩
    | none =>
      rw [h3, Option.none_or] at h
      exact ⟨_, .inl ⟨Dict.mem_values.mpr ⟨_, h⟩, rfl⟩⟩

/-- A listed pool has an edge, which finds its last record. -/
theorem loaded_of_holds (hc : Consistent (v2Files ++ v3Files).flatten)
    (hsep : Separate v2Files v3Files) {p a b : Address}
    (h : Holds (v2Files ++ v3Files).flatten p a b) :
    ∃ d r, Loaded (loadLpData v2Files) (loadLpData v3Files) d r ∧ r.tokenPair = s(a, b) ∧
      d.lpAddress = p := by
  obtain ⟨r, hr, ht⟩ := (holds_iff_lastRecord? hc).mp h
  have hp := lastRecord?_poolAddress hr
  obtain ⟨d, hd⟩ := (loaded_iff hsep).mpr (hp.symm ▸ hr)
  exact ⟨d, r, hd, ht, hd.lpAddress.trans hp⟩

theorem Loaded.holds (hc : Consistent (v2Files ++ v3Files).flatten)
    (hsep : Separate v2Files v3Files) {d : EdgeData} {r : PoolRecord} {a b : Address}
    (h : Loaded (loadLpData v2Files) (loadLpData v3Files) d r) (ht : r.tokenPair = s(a, b)) :
    Holds (v2Files ++ v3Files).flatten d.lpAddress a b := by
  rw [h.lpAddress]
  exact (holds_iff_lastRecord? hc).mpr ⟨r, (loaded_iff hsep).mp ⟨d, h⟩, ht⟩

/-- A pool's two tokens differ. -/
theorem Loaded.token_ne (hc : Consistent (v2Files ++ v3Files).flatten)
    (hsep : Separate v2Files v3Files) {d : EdgeData} {r : PoolRecord} {a b : Address}
    (h : Loaded (loadLpData v2Files) (loadLpData v3Files) d r) (ht : r.tokenPair = s(a, b)) :
    a ≠ b := by
  obtain ⟨r₀, hr₀, _, rfl⟩ := lastRecord?_eq_some ((loaded_iff hsep).mp ⟨d, h⟩)
  intro hab
  have hdiag : s(r₀.token0, r₀.token1).IsDiag := by
    show r₀.withoutPoolId.tokenPair.IsDiag
    rw [ht, hab]
    exact Sym2.mk_isDiag_iff.mpr rfl
  exact hc.token_ne r₀ hr₀ (Sym2.mk_isDiag_iff.mp hdiag)

theorem Loaded.lastRecord? (hsep : Separate v2Files v3Files) {d : EdgeData} {r : PoolRecord}
    (h : Loaded (loadLpData v2Files) (loadLpData v3Files) d r) :
    lastRecord? (v2Files ++ v3Files) d.lpAddress = some r := by
  rw [h.lpAddress]
  exact (loaded_iff hsep).mp ⟨d, h⟩

theorem Loaded.sideOf (hsep : Separate v2Files v3Files) {d : EdgeData} {r : PoolRecord}
    (h : Loaded (loadLpData v2Files) (loadLpData v3Files) d r) :
    sideOf (loadLpData v2Files) (loadLpData v3Files) d =
      (d, Builders.lastRecord? (v2Files ++ v3Files) d.lpAddress) := by
  rw [ThreePool.sideOf, h.recordOf (keyed_loadLpData _) (keyed_loadLpData _), h.lastRecord? hsep]

/-- The triangles of all pairs of tokens with degree above one. -/
def allTriangles (M : Multigraph Address EdgeData) (wrappedToken : Address) (g : M.Graph)
    (tokens : List Address) : List (EdgeData × EdgeData × EdgeData) :=
  (combinations (tokens.filter fun token => decide (1 < M.degree g token))).flatMap
    (triangles M wrappedToken g)

/-- Three pools of the graph on the sides of a triangle. -/
structure Triangle (v2LpData v3LpData : LpData) (wrappedToken : Address)
    (t : EdgeData × EdgeData × EdgeData) : Prop where
  sides : ∃ ra rb rc a b, Loaded v2LpData v3LpData t.1 ra ∧ Loaded v2LpData v3LpData t.2.1 rb ∧
    Loaded v2LpData v3LpData t.2.2 rc ∧ ra.tokenPair = s(a, wrappedToken) ∧
    rb.tokenPair = s(a, b) ∧ rc.tokenPair = s(b, wrappedToken)

theorem triangle_of_mem {v2LpData v3LpData : LpData} {tokens : List Address}
    {t : EdgeData × EdgeData × EdgeData}
    (h : t ∈ allTriangles M wrappedToken (buildGraph M v2LpData v3LpData) tokens) :
    Triangle v2LpData v3LpData wrappedToken t := by
  obtain ⟨⟨tokenA, tokenB⟩, _, ht⟩ := List.mem_flatMap.mp h
  unfold triangles at ht
  split at ht
  · obtain ⟨ha, hb, hc⟩ := mem_product.mp ht
    obtain ⟨ra, hra, hta⟩ := mem_edgeData_loaded M ha
    obtain ⟨rb, hrb, htb⟩ := mem_edgeData_loaded M hb
    obtain ⟨rc, hrc, htc⟩ := mem_edgeData_loaded M hc
    exact ⟨ra, rb, rc, tokenA, tokenB, hra, hrb, hrc, hta, htb, htc⟩
  · cases ht

/-- Every triangle's two paths are cycles. -/
theorem Triangle.isCycle (hc : Consistent (v2Files ++ v3Files).flatten)
    (hsep : Separate v2Files v3Files) {t : EdgeData × EdgeData × EdgeData}
    (h : Triangle (loadLpData v2Files) (loadLpData v3Files) wrappedToken t) :
    IsCycle (v2Files ++ v3Files).flatten wrappedToken
      [t.1.lpAddress, t.2.1.lpAddress, t.2.2.lpAddress] := by
  obtain ⟨ra, rb, rc, a, b, ha, hb, hc', hta, htb, htc⟩ := h.sides
  exact ⟨_, _, _, a, b, rfl, hb.token_ne hc hsep htb, ha.token_ne hc hsep hta,
    hc'.token_ne hc hsep htc, (ha.holds hc hsep hta).symm, hb.holds hc hsep htb,
    hc'.holds hc hsep htc⟩

/-- A token that neighbours the wrapped token and is on a pool without it passes the
degree filter. -/
theorem mem_filteredTokens {g : M.Graph} {tokens : List Address}
    (hn : M.neighbors g wrappedToken = some tokens) {x : Address} {e e' : Edge Address EdgeData}
    (he : e ∈ M.edges g) (he' : e' ∈ M.edges g) (hx : e.ends = s(x, wrappedToken))
    (hx' : x ∈ e'.ends) (hw : wrappedToken ∉ e'.ends) :
    x ∈ tokens.filter fun token => decide (1 < M.degree g token) := by
  have hne : e ≠ e' := by
    intro hee
    rw [← hee, hx] at hw
    exact hw (Sym2.mem_mk_right x wrappedToken)
  have hxe : x ∈ e.ends := hx ▸ Sym2.mem_mk_left x wrappedToken
  have hdegree := M.two_le_degree he he' hne hxe hx'
  refine List.mem_filter.mpr ⟨(M.mem_neighbors _ _ _ hn x).mpr ⟨e, he, ?_⟩, decide_eq_true hdegree⟩
  rw [hx, Sym2.eq_swap]

/-- Every cycle is one of the two paths of a triangle the loops reach: its two
tokens neighbour the wrapped token and the middle pool gives both degree two. -/
theorem cycle_reached (hc : Consistent (v2Files ++ v3Files).flatten)
    (hsep : Separate v2Files v3Files) {tokens : List Address}
    (hn : M.neighbors (buildGraph M (loadLpData v2Files) (loadLpData v3Files)) wrappedToken =
      some tokens) {path : List Address}
    (h : IsCycle (v2Files ++ v3Files).flatten wrappedToken path) :
    ∃ t ∈ allTriangles M wrappedToken
        (buildGraph M (loadLpData v2Files) (loadLpData v3Files)) tokens,
      path = [t.1.lpAddress, t.2.1.lpAddress, t.2.2.lpAddress] ∨
        path = [t.2.2.lpAddress, t.2.1.lpAddress, t.1.lpAddress] := by
  obtain ⟨p₁, p₂, p₃, a, b, rfl, hab, ha, hb, h₁, h₂, h₃⟩ := h
  obtain ⟨d₁, r₁, hd₁, ht₁, rfl⟩ := loaded_of_holds hc hsep h₁.symm
  obtain ⟨d₂, r₂, hd₂, ht₂, rfl⟩ := loaded_of_holds hc hsep h₂
  obtain ⟨d₃, r₃, hd₃, ht₃, rfl⟩ := loaded_of_holds hc hsep h₃
  obtain ⟨l₁, hl₁, hm₁⟩ := mem_edgeData_of_loaded M hd₁ ht₁
  obtain ⟨l₂, hl₂, hm₂⟩ := mem_edgeData_of_loaded M hd₂ ht₂
  obtain ⟨l₂', hl₂', hm₂'⟩ := mem_edgeData_of_loaded M hd₂ (ht₂.trans Sym2.eq_swap)
  obtain ⟨l₃, hl₃, hm₃⟩ := mem_edgeData_of_loaded M hd₃ ht₃
  obtain ⟨e₁, he₁, hends₁, _⟩ := (exists_edge_iff M).mpr ⟨r₁, hd₁, ht₁⟩
  obtain ⟨e₂, he₂, hends₂, _⟩ := (exists_edge_iff M).mpr ⟨r₂, hd₂, ht₂⟩
  obtain ⟨e₃, he₃, hends₃, _⟩ := (exists_edge_iff M).mpr ⟨r₃, hd₃, ht₃⟩
  have hw : wrappedToken ∉ e₂.ends := by
    rw [hends₂, Sym2.mem_iff]
    exact fun hw => hw.elim (fun hw => ha hw.symm) fun hw => hb hw.symm
  have hta := mem_filteredTokens hn he₁ he₂ hends₁ (hends₂ ▸ Sym2.mem_mk_left a b) hw
  have htb := mem_filteredTokens hn he₃ he₂ hends₃ (hends₂ ▸ Sym2.mem_mk_right a b) hw
  rcases combinations_complete hta htb hab with hcomb | hcomb
  · refine ⟨(d₁, d₂, d₃), List.mem_flatMap.mpr ⟨(a, b), hcomb, ?_⟩, .inl rfl⟩
    have hedge := (M.hasEdge_iff _ a b).mpr ⟨e₂, he₂, hends₂⟩
    rw [triangles, if_pos hedge, hl₁, hl₂, hl₃]
    exact mem_product.mpr ⟨hm₁, hm₂, hm₃⟩
  · refine ⟨(d₃, d₂, d₁), List.mem_flatMap.mpr ⟨(b, a), hcomb, ?_⟩, .inr rfl⟩
    have hedge := (M.hasEdge_iff _ b a).mpr ⟨e₂, he₂, hends₂.trans Sym2.eq_swap⟩
    rw [triangles, if_pos hedge, hl₁, hl₂', hl₃]
    exact mem_product.mpr ⟨hm₃, hm₂', hm₁⟩

variable (M keccak) in
/-- With a pool on the wrapped token the builder does not raise, and what it
returns is the entries of the triangles, set one after the other. -/
theorem main_ok (hw : ∃ r ∈ (v2Files ++ v3Files).flatten, wrappedToken ∈ r.tokenPair)
    (hc : Consistent (v2Files ++ v3Files).flatten) (hsep : Separate v2Files v3Files) :
    ∃ tokens, M.neighbors (buildGraph M (loadLpData v2Files) (loadLpData v3Files)) wrappedToken =
        some tokens ∧
      main M keccak wrappedToken v2Files v3Files =
        .ok (Dict.ofList (((allTriangles M wrappedToken
          (buildGraph M (loadLpData v2Files) (loadLpData v3Files)) tokens).flatMap
            (triangleEntries keccak (loadLpData v2Files) (loadLpData v3Files))).map
              fun e => (e.id, e))) := by
  cases hn : M.neighbors (buildGraph M (loadLpData v2Files) (loadLpData v3Files)) wrappedToken with
  | none =>
    exfalso
    obtain ⟨r, hr, hwr⟩ := hw
    obtain ⟨x, hx⟩ := Sym2.mem_iff_exists.mp hwr
    have hh : Holds (v2Files ++ v3Files).flatten r.poolAddress wrappedToken x := ⟨r, hr, rfl, hx⟩
    obtain ⟨d, r', hd, ht, _⟩ := loaded_of_holds hc hsep hh
    obtain ⟨e, he, hends, _⟩ := (exists_edge_iff M).mpr ⟨r', hd, ht⟩
    exact (M.neighbors_eq_none _ _).mp hn e he (hends ▸ Sym2.mem_mk_left wrappedToken x)
  | some tokens =>
    refine ⟨tokens, rfl, ?_⟩
    have hside : ∀ x ∈ tokens, ∃ d r, Loaded (loadLpData v2Files) (loadLpData v3Files) d r ∧
        r.tokenPair = s(x, wrappedToken) := by
      intro x hx
      obtain ⟨e, he, hends⟩ := (M.mem_neighbors _ _ _ hn x).mp hx
      obtain ⟨r, hr, ht⟩ := (exists_edge_iff M).mp ⟨e, he, hends, rfl⟩
      exact ⟨e.data, r, hr, ht.trans Sym2.eq_swap⟩
    simp only [main, hn]
    show List.foldlM _ _ _ = _
    rw [allTriangles, List.flatMap_assoc, Dict.ofList, Dict.setAll, List.foldl_map,
      List.foldl_flatMap]
    apply foldlM_ok
    intro s pair hpair
    obtain ⟨hA, hB⟩ := mem_of_combinations hpair
    exact addTokenPair_ok M keccak (hside _ (List.mem_filter.mp hA).1)
      (hside _ (List.mem_filter.mp hB).1) s

omit [DecidableEq Id] in
/-- The three pools of an entry, and no others, are filled in. -/
theorem entry_pools {files : List (List PoolRecord)} {a b c : EdgeData}
    (hr : ∀ p ∈ [a.lpAddress, b.lpAddress, c.lpAddress], ∃ r, lastRecord? files p = some r) :
    let side := fun d : EdgeData => (d, lastRecord? files d.lpAddress)
    let e := entry keccak (side a) (side b) (side c)
    (∀ p ∈ e.path, ∃ r, lastRecord? files p = some r ∧ e.pools.get? p = some (some r)) ∧
      ∀ p, p ∉ e.path → e.pools.get? p = none := by
  intro side e
  have hget : ∀ p, e.pools.get? p = if p = c.lpAddress then some (lastRecord? files c.lpAddress)
      else if p = b.lpAddress then some (lastRecord? files b.lpAddress)
      else if p = a.lpAddress then some (lastRecord? files a.lpAddress) else none := by
    intro p
    simp only [e, side, entry, Dict.get?_set, Dict.get?_empty]
  refine ⟨fun p hp => ?_, fun p hp => ?_⟩
  · obtain ⟨r, hpr⟩ := hr p hp
    refine ⟨r, hpr, ?_⟩
    have hp' : p = a.lpAddress ∨ p = b.lpAddress ∨ p = c.lpAddress := by
      simpa [e, side, entry] using hp
    rw [hget, ← hpr]
    by_cases hc : p = c.lpAddress
    · rw [if_pos hc, hc]
    · rw [if_neg hc]
      by_cases hb : p = b.lpAddress
      · rw [if_pos hb, hb]
      · rw [if_neg hb, if_pos ((hp'.resolve_right fun h => h.elim hb hc)),
          hp'.resolve_right fun h => h.elim hb hc]
  · have hp' : ¬(p = a.lpAddress ∨ p = b.lpAddress ∨ p = c.lpAddress) := by
      simpa [e, side, entry] using hp
    rw [hget, if_neg fun h => hp' (.inr (.inr h)), if_neg fun h => hp' (.inr (.inl h)),
      if_neg fun h => hp' (.inl h)]

omit [DecidableEq Id] in
/-- What is known of a stored entry: it is a triangle read in one of the two
directions, with the last records of its pools. -/
theorem mem_entries (hsep : Separate v2Files v3Files)
    {triangles : List (EdgeData × EdgeData × EdgeData)}
    (htri : ∀ t ∈ triangles,
      Triangle (loadLpData v2Files) (loadLpData v3Files) wrappedToken t) {e : ArbPath Id} :
    e ∈ triangles.flatMap (triangleEntries keccak (loadLpData v2Files) (loadLpData v3Files)) ↔
      ∃ t ∈ triangles, ∃ a b c, (t = (a, b, c) ∨ t = (c, b, a)) ∧
        e = entry keccak (a, lastRecord? (v2Files ++ v3Files) a.lpAddress)
          (b, lastRecord? (v2Files ++ v3Files) b.lpAddress)
          (c, lastRecord? (v2Files ++ v3Files) c.lpAddress) := by
  rw [List.mem_flatMap]
  refine exists_congr fun t => and_congr_right fun ht => ?_
  obtain ⟨_, _, _, _, _, ha, hb, hc, _⟩ := (htri t ht).sides
  obtain ⟨a, b, c⟩ := t
  simp only [triangleEntries, ha.sideOf hsep, hb.sideOf hsep, hc.sideOf hsep, List.mem_cons,
    List.not_mem_nil, or_false]
  refine ⟨fun h => ?_, fun h => ?_⟩
  · rcases h with rfl | rfl
    · exact ⟨a, b, c, .inl rfl, rfl⟩
    · exact ⟨c, b, a, .inr rfl, rfl⟩
  · obtain ⟨a', b', c', ht' | ht', rfl⟩ := h
    · cases ht'
      exact .inl rfl
    · cases ht'
      exact .inr rfl

omit [DecidableEq Id] in
theorem stored_pools (hsep : Separate v2Files v3Files)
    {triangles : List (EdgeData × EdgeData × EdgeData)}
    (htri : ∀ t ∈ triangles,
      Triangle (loadLpData v2Files) (loadLpData v3Files) wrappedToken t) {e : ArbPath Id}
    (he : e ∈ triangles.flatMap (triangleEntries keccak (loadLpData v2Files) (loadLpData v3Files))) :
    (∀ p ∈ e.path, ∃ r, lastRecord? (v2Files ++ v3Files) p = some r ∧
      e.pools.get? p = some (some r)) ∧ ∀ p, p ∉ e.path → e.pools.get? p = none := by
  obtain ⟨t, ht, a, b, c, hdir, rfl⟩ := (mem_entries hsep htri).mp he
  apply entry_pools
  obtain ⟨ra, rb, rc, _, _, ha, hb, hc, _⟩ := (htri t ht).sides
  have hlast : ∀ p ∈ [t.1.lpAddress, t.2.1.lpAddress, t.2.2.lpAddress],
      ∃ r, lastRecord? (v2Files ++ v3Files) p = some r := by
    simp only [List.forall_mem_cons]
    exact ⟨⟨ra, ha.lastRecord? hsep⟩, ⟨rb, hb.lastRecord? hsep⟩, ⟨rc, hc.lastRecord? hsep⟩,
      fun _ h => absurd h List.not_mem_nil⟩
  rcases hdir with rfl | rfl
  · exact hlast
  · intro p hp
    apply hlast
    simp only [List.mem_cons, List.not_mem_nil, or_false] at hp ⊢
    tauto

variable (M keccak) in
/-- The file is one of paths of three pools. -/
theorem main_writtenBy (hw : ∃ r ∈ (v2Files ++ v3Files).flatten, wrappedToken ∈ r.tokenPair)
    (hc : Consistent (v2Files ++ v3Files).flatten) (hsep : Separate v2Files v3Files) :
    ∃ paths, main M keccak wrappedToken v2Files v3Files = .ok paths ∧ WrittenBy keccak 3 paths := by
  obtain ⟨tokens, _, hmain⟩ := main_ok M keccak hw hc hsep
  refine ⟨_, hmain, ?_⟩
  have htri : ∀ t ∈ allTriangles M wrappedToken
      (buildGraph M (loadLpData v2Files) (loadLpData v3Files)) tokens,
      Triangle (loadLpData v2Files) (loadLpData v3Files) wrappedToken t :=
    fun _ ht => triangle_of_mem ht
  refine writtenBy_ofList keccak (fun e he => ?_) (fun e he => ?_) fun e he =>
    filled_of_pools (stored_pools hsep htri he)
  · obtain ⟨_, _, a, b, c, _, rfl⟩ := (mem_entries hsep htri).mp he
    rfl
  · obtain ⟨_, _, a, b, c, _, rfl⟩ := (mem_entries hsep htri).mp he
    rfl

/-- The three-pool builder gets through only with a pool on the wrapped token. -/
theorem wrapped_of_main_ok (h : main M keccak wrappedToken v2Files v3Files = .ok paths) :
    ∃ r ∈ (v2Files ++ v3Files).flatten, wrappedToken ∈ r.tokenPair := by
  by_contra hnone
  have hneighbors : M.neighbors (buildGraph M (loadLpData v2Files) (loadLpData v3Files))
      wrappedToken = none := by
    rw [M.neighbors_eq_none]
    intro e he hend
    obtain ⟨r, hloaded, hedge⟩ := (mem_edges_buildGraph M).mp he
    rw [hedge] at hend
    have hlisted : ∀ {files : List (List PoolRecord)}, r ∈ (loadLpData files).values →
        ∃ r₀ ∈ files.flatten, wrappedToken ∈ r₀.tokenPair := by
      intro files hr
      have hget := (keyed_loadLpData files).get?_of_mem hr
      rw [get?_loadLpData] at hget
      obtain ⟨r₀, hr₀, _, rfl⟩ := lastRecord?_eq_some hget
      exact ⟨r₀, hr₀, hend⟩
    apply hnone
    rw [List.flatten_append]
    rcases hloaded with ⟨hr, _⟩ | ⟨hr, _⟩
    · obtain ⟨r₀, hr₀, hw⟩ := hlisted hr
      exact ⟨r₀, List.mem_append_left _ hr₀, hw⟩
    · obtain ⟨r₀, hr₀, hw⟩ := hlisted hr
      exact ⟨r₀, List.mem_append_right _ hr₀, hw⟩
  simp only [main, hneighbors] at h
  cases h

/-- Without collisions the paths in the file are the cycles. -/
theorem main_paths (hc : Consistent (v2Files ++ v3Files).flatten)
    (hsep : Separate v2Files v3Files)
    (hfree : CollisionFree keccak
      {path | IsCycle (v2Files ++ v3Files).flatten wrappedToken path})
    (h : main M keccak wrappedToken v2Files v3Files = .ok paths) :
    (∃ e ∈ paths.values, e.path = path) ↔
      IsCycle (v2Files ++ v3Files).flatten wrappedToken path := by
  obtain ⟨tokens, hn, hmain⟩ := main_ok M keccak (wrapped_of_main_ok h) hc hsep
  cases h.symm.trans hmain
  let all := allTriangles M wrappedToken
    (buildGraph M (loadLpData v2Files) (loadLpData v3Files)) tokens
  have htri : ∀ t ∈ all,
      Triangle (loadLpData v2Files) (loadLpData v3Files) wrappedToken t :=
    fun _ ht => triangle_of_mem ht
  have hsound : ∀ e ∈ all.flatMap (triangleEntries keccak (loadLpData v2Files)
      (loadLpData v3Files)), e.id = pathId keccak e.path ∧
        IsCycle (v2Files ++ v3Files).flatten wrappedToken e.path := by
    intro e he
    obtain ⟨t, ht, x, y, z, hdir, rfl⟩ := (mem_entries hsep htri).mp he
    have hcycle := (htri t ht).isCycle hc hsep
    rcases hdir with rfl | rfl
    · exact ⟨rfl, hcycle⟩
    · exact ⟨rfl, hcycle.reverse⟩
  rw [exists_path_ofList keccak (fun e he => (hsound e he).1) (hfree.mono ?_)]
  · constructor
    · intro hlisted
      obtain ⟨e, he, rfl⟩ := hlisted
      exact (hsound e he).2
    · intro hcycle
      obtain ⟨⟨x, y, z⟩, ht, hpath⟩ := cycle_reached hc hsep hn hcycle
      rcases hpath with rfl | rfl
      · exact ⟨_, (mem_entries hsep htri).mpr ⟨_, ht, x, y, z, .inl rfl, rfl⟩, rfl⟩
      · exact ⟨_, (mem_entries hsep htri).mpr ⟨_, ht, z, y, x, .inr rfl, rfl⟩, rfl⟩
  · intro path hlisted
    obtain ⟨e, he, rfl⟩ := hlisted
    exact (hsound e he).2

variable (M) in
/-- **The three-pool builder is sound and complete**: it does not raise, and its
file lists exactly the cycles. -/
theorem three_pool_paths_listed
    (hw : ∃ r ∈ (v2Files ++ v3Files).flatten, wrappedToken ∈ r.tokenPair)
    (hc : Consistent (v2Files ++ v3Files).flatten) (hsep : Separate v2Files v3Files)
    (hfree : CollisionFree keccak
      {path | IsCycle (v2Files ++ v3Files).flatten wrappedToken path}) :
    ∃ paths, main M keccak wrappedToken v2Files v3Files = .ok paths ∧
      Lists (v2Files ++ v3Files) paths
        (IsCycle (v2Files ++ v3Files).flatten wrappedToken) := by
  obtain ⟨tokens, hn, hmain⟩ := main_ok M keccak hw hc hsep
  refine ⟨_, hmain, ?_⟩
  have htri : ∀ t ∈ allTriangles M wrappedToken
      (buildGraph M (loadLpData v2Files) (loadLpData v3Files)) tokens,
      Triangle (loadLpData v2Files) (loadLpData v3Files) wrappedToken t :=
    fun _ ht => triangle_of_mem ht
  have hcycle : ∀ t ∈ allTriangles M wrappedToken
      (buildGraph M (loadLpData v2Files) (loadLpData v3Files)) tokens,
      IsCycle (v2Files ++ v3Files).flatten wrappedToken
        [t.1.lpAddress, t.2.1.lpAddress, t.2.2.lpAddress] :=
    fun t ht => (htri t ht).isCycle hc hsep
  refine lists_ofList keccak (fun e he => ?_) hfree (fun e he => ?_) (fun path h => ?_)
    (fun e he e' he' hp => ?_) fun e he => ?_
  · obtain ⟨_, _, a, b, c, _, rfl⟩ := (mem_entries hsep htri).mp he
    rfl
  · obtain ⟨t, ht, a, b, c, rfl | rfl, rfl⟩ := (mem_entries hsep htri).mp he
    · exact hcycle _ ht
    · exact (hcycle _ ht).reverse
  · obtain ⟨⟨a, b, c⟩, ht, hp⟩ := cycle_reached hc hsep hn h
    rcases hp with rfl | rfl
    · exact ⟨_, (mem_entries hsep htri).mpr ⟨_, ht, a, b, c, .inl rfl, rfl⟩, rfl⟩
    · exact ⟨_, (mem_entries hsep htri).mpr ⟨_, ht, c, b, a, .inr rfl, rfl⟩, rfl⟩
  · obtain ⟨_, _, a, b, c, _, rfl⟩ := (mem_entries hsep htri).mp he
    obtain ⟨_, _, a', b', c', _, rfl⟩ := (mem_entries hsep htri).mp he'
    simp only [entry, List.cons.injEq, and_true] at hp
    obtain ⟨ha, hb, hc⟩ := hp
    simp only [entry, ha, hb, hc]
  · exact stored_pools hsep htri he

end Paths

/-- A triangle of one V3 and two V2 pools on tokens 1, 2 and 3. -/
theorem three_pool_paths_listed_triangle :
    let r₁ : PoolRecord := ⟨.fill 10, some 3, .fill 1, .fill 2, 7, some 0, .uniswapV2, "a"⟩
    let r₂ : PoolRecord := ⟨.fill 11, some 3, .fill 3, .fill 1, 7, some 1, .uniswapV2, "a"⟩
    let r₃ : PoolRecord := ⟨.fill 12, some 500, .fill 3, .fill 2, 8, none, .uniswapV3, "b"⟩
    ∃ paths, main Multigraph.edgeList id (.fill 1) [[r₁, r₂]] [[r₃]] = .ok paths ∧
      Lists [[r₁, r₂], [r₃]] paths (IsCycle [r₁, r₂, r₃] (.fill 1)) := by
  intro r₁ r₂ r₃
  have hw : ∃ r ∈ ([[r₁, r₂]] ++ [[r₃]]).flatten, Address.fill 1 ∈ r.tokenPair :=
    ⟨r₁, by decide, by decide⟩
  have hc : Consistent ([[r₁, r₂]] ++ [[r₃]]).flatten := ⟨by decide, by decide⟩
  have hsep : Separate [[r₁, r₂]] [[r₃]] := by
    unfold Separate
    decide
  exact three_pool_paths_listed Multigraph.edgeList hw hc hsep Function.injective_id.injOn

end CreamBots.Builders.ThreePool
