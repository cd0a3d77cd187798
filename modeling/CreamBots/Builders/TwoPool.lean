import CreamBots.Builders.Record

/-! The two-pool path builder.

Pools are indexed under both their tokens. From every pool that holds the
wrapped token the builder takes the other token, scans the pools listed under
it for one that leads back to the wrapped token, skips the pool itself, and
stores the pair under the hash of the two addresses. `two_pool_paths_listed`: the
result is exactly the ordered pairs of different pools that hold the wrapped token
and one common other token. -/
namespace CreamBots.Builders.TwoPool
open Data

abbrev Index := Dict Address (List PoolRecord)

/-- The pools listed under a token: `token_to_pools.get(token, [])`. -/
def listed (index : Index) (token : Address) : List PoolRecord := (index.get? token).getD []

def indexPool (index : Index) (pool : PoolRecord) : Index :=
  let index := if index.contains pool.token0 then index else index.set pool.token0 []
  let index := if index.contains pool.token1 then index else index.set pool.token1 []
  let index := index.set pool.token0 (listed index pool.token0 ++ [pool])
  index.set pool.token1 (listed index pool.token1 ++ [pool])

def tokenToPools (pools : List PoolRecord) : Index := pools.foldl indexPool Dict.empty

def holdsToken (token : Address) (pool : PoolRecord) : Bool :=
  pool.token0 = token || pool.token1 = token

def otherToken (startToken : Address) (pool : PoolRecord) : Address :=
  if pool.token0 = startToken then pool.token1 else pool.token0

section Build
variable {Id : Type} [DecidableEq Id] (keccak : List UInt8 → Id)

def entry (poolA poolB : PoolRecord) : ArbPath Id where
  id := pathId keccak [poolA.poolAddress, poolB.poolAddress]
  pools := (Dict.empty.set poolA.poolAddress (some poolA)).set poolB.poolAddress (some poolB)
  arbTypes := ["cycle"]
  path := [poolA.poolAddress, poolB.poolAddress]

def addPath (poolA : PoolRecord) (paths : Dict Id (ArbPath Id)) (poolB : PoolRecord) :
    Dict Id (ArbPath Id) :=
  paths.set (entry keccak poolA poolB).id (entry keccak poolA poolB)

/-- The second scan, for one first pool. -/
def scan (startToken : Address) (index : Index) (paths : Dict Id (ArbPath Id))
    (poolA : PoolRecord) : Dict Id (ArbPath Id) :=
  if !holdsToken startToken poolA then paths
  else (listed index (otherToken startToken poolA)).foldl (fun paths poolB =>
    if holdsToken startToken poolB then
      if poolB.poolAddress = poolA.poolAddress then paths else addPath keccak poolA paths poolB
    else paths) paths

def twoPoolArbPaths (startToken : Address) (allPools : LpData) : Dict Id (ArbPath Id) :=
  let index := tokenToPools allPools.values
  (listed index startToken).foldl (scan keccak startToken index) Dict.empty

/-- `{**v2_lp_data, **v3_lp_data}`. -/
def allPools (v2Files v3Files : List (List PoolRecord)) : LpData :=
  (loadLpData v2Files).update (loadLpData v3Files)

def main (wrappedToken : Address) (v2Files v3Files : List (List PoolRecord)) :
    Dict Id (ArbPath Id) :=
  twoPoolArbPaths keccak wrappedToken (allPools v2Files v3Files)

end Build

/-! ### The index -/

theorem listed_set (index : Index) (k t : Address) (l : List PoolRecord) :
    listed (index.set k l) t = if t = k then l else listed index t := by
  unfold listed
  rw [Dict.get?_set]
  split <;> rfl

/-- Making room for a token lists nothing. -/
theorem listed_room (index : Index) (k t : Address) :
    listed (if index.contains k then index else index.set k []) t = listed index t := by
  split
  · rfl
  · rename_i h
    rw [listed_set]
    split
    · rename_i ht
      subst ht
      have hn : index.get? t = none := Dict.get?_eq_none.mpr (mt Dict.contains_iff.mpr h)
      simp [listed, hn]
    · rfl

theorem mem_listed_indexPool (index : Index) (pool r : PoolRecord) (t : Address) :
    r ∈ listed (indexPool index pool) t ↔
      r ∈ listed index t ∨ r = pool ∧ holdsToken t pool = true := by
  simp only [indexPool, listed_set, listed_room, holdsToken, Bool.or_eq_true, decide_eq_true_eq]
  by_cases h1 : t = pool.token1
  · subst h1
    by_cases h0 : pool.token1 = pool.token0
    · simp [h0]
    · simp [h0]
  · by_cases h0 : t = pool.token0
    · subst h0
      simp [h1]
    · simp [h0, h1, Ne.symm h0, Ne.symm h1]

/-- The index lists a pool under a token exactly if the pool holds it. -/
theorem mem_tokenToPools (pools : List PoolRecord) (t : Address) (r : PoolRecord) :
    r ∈ listed (tokenToPools pools) t ↔ r ∈ pools ∧ holdsToken t r = true := by
  suffices ∀ index : Index, r ∈ listed (pools.foldl indexPool index) t ↔
      r ∈ listed index t ∨ r ∈ pools ∧ holdsToken t r = true by
    rw [tokenToPools, this]
    simp [listed]
  induction pools with
  | nil => simp
  | cons pool rest ih =>
    intro index
    rw [List.foldl_cons, ih, mem_listed_indexPool, List.mem_cons]
    constructor
    · intro hcases
      rcases hcases with (h | ⟨rfl, h⟩) | ⟨hr, h⟩
      · exact .inl h
      · exact .inr ⟨.inl rfl, h⟩
      · exact .inr ⟨.inr hr, h⟩
    · intro hcases
      rcases hcases with h | ⟨rfl | hr, h⟩
      · exact .inl (.inl h)
      · exact .inl (.inr ⟨rfl, h⟩)
      · exact .inr ⟨hr, h⟩

/-! ### The pairs that are stored -/

/-- The pairs in the order they are stored. -/
def pairs (startToken : Address) (pools : List PoolRecord) : List (PoolRecord × PoolRecord) :=
  let index := tokenToPools pools
  (listed index startToken).flatMap fun poolA =>
    ((listed index (otherToken startToken poolA)).filter fun poolB =>
      holdsToken startToken poolB && decide (poolB.poolAddress ≠ poolA.poolAddress)).map
        fun poolB => (poolA, poolB)

theorem mem_pairs {startToken : Address} {pools : List PoolRecord} {a b : PoolRecord} :
    (a, b) ∈ pairs startToken pools ↔
      (a ∈ pools ∧ holdsToken startToken a = true) ∧
        (b ∈ pools ∧ holdsToken (otherToken startToken a) b = true) ∧
          holdsToken startToken b = true ∧ b.poolAddress ≠ a.poolAddress := by
  simp only [pairs, List.mem_flatMap, List.mem_map, List.mem_filter, mem_tokenToPools,
    Bool.and_eq_true, decide_eq_true_eq, Prod.mk.injEq]
  constructor
  · intro hpair
    obtain ⟨a', ha, b', ⟨hb, hw⟩, rfl, rfl⟩ := hpair
    exact ⟨ha, hb, hw⟩
  · intro hpair
    obtain ⟨ha, hb, hw⟩ := hpair
    exact ⟨a, ha, b, ⟨hb, hw⟩, rfl, rfl⟩

section Build
variable {Id : Type} [DecidableEq Id] (keccak : List UInt8 → Id)

/-- The nested scans set the pairs' entries one after the other. -/
theorem twoPoolArbPaths_eq (startToken : Address) (pools : LpData) :
    twoPoolArbPaths keccak startToken pools =
      Dict.ofList (((pairs startToken pools.values).map fun p => entry keccak p.1 p.2).map
        fun e => (e.id, e)) := by
  have hstep : ∀ (paths : Dict Id (ArbPath Id)) (poolA : PoolRecord),
      poolA ∈ listed (tokenToPools pools.values) startToken →
      scan keccak startToken (tokenToPools pools.values) paths poolA =
        (((listed (tokenToPools pools.values) (otherToken startToken poolA)).filter fun poolB =>
          holdsToken startToken poolB && decide (poolB.poolAddress ≠ poolA.poolAddress)).map
            fun poolB => (poolA, poolB)).foldl (fun paths p => addPath keccak p.1 paths p.2) paths := by
    intro paths poolA hA
    have hw : holdsToken startToken poolA = true := ((mem_tokenToPools _ _ _).mp hA).2
    rw [scan, hw, Bool.not_true, if_neg (by decide), List.foldl_map, List.foldl_filter]
    congr 1
    funext paths poolB
    by_cases hb : holdsToken startToken poolB <;>
      by_cases he : poolB.poolAddress = poolA.poolAddress <;> simp [hb, he]
  rw [twoPoolArbPaths, Dict.ofList, Dict.setAll, List.foldl_map, List.foldl_map, pairs,
    List.foldl_flatMap]
  exact List.foldl_ext _ _ _ fun paths poolA hA => hstep paths poolA hA

end Build

/-! ### The paths -/

/-- Two different pools that hold the wrapped token and one common other token. -/
def IsCycle (records : List PoolRecord) (wrappedToken : Address) (path : List Address) : Prop :=
  ∃ p q x, path = [p, q] ∧ p ≠ q ∧ x ≠ wrappedToken ∧
    Holds records p wrappedToken x ∧ Holds records q wrappedToken x

theorem IsCycle.reverse {records : List PoolRecord} {wrappedToken p q : Address}
    (h : IsCycle records wrappedToken [p, q]) : IsCycle records wrappedToken [q, p] := by
  obtain ⟨p', q', x, he, hne, hx, hp, hq⟩ := h
  obtain ⟨rfl, rfl⟩ : p = p' ∧ q = q' := by simpa using he
  exact ⟨q, p, x, rfl, hne.symm, hx, hq, hp⟩

/-- A pool with two tokens that holds the start token holds it and the other one. -/
theorem tokenPair_otherToken {startToken : Address} {r : PoolRecord}
    (h : holdsToken startToken r = true) : r.tokenPair = s(startToken, otherToken startToken r) := by
  simp only [holdsToken, Bool.or_eq_true, decide_eq_true_eq] at h
  unfold PoolRecord.tokenPair otherToken
  by_cases h0 : r.token0 = startToken
  · rw [if_pos h0, h0]
  · have h1 : r.token1 = startToken := h.resolve_left h0
    rw [if_neg h0, h1, Sym2.eq_swap]

theorem otherToken_ne (startToken : Address) {r : PoolRecord} (hr : r.token0 ≠ r.token1) :
    otherToken startToken r ≠ startToken := by
  unfold otherToken
  split
  · rename_i h
    rw [← h]
    exact hr.symm
  · assumption

theorem holdsToken_iff {t : Address} {r : PoolRecord} : holdsToken t r = true ↔ t ∈ r.tokenPair := by
  simp only [holdsToken, PoolRecord.tokenPair, Sym2.mem_iff, Bool.or_eq_true, decide_eq_true_eq]
  exact or_congr eq_comm eq_comm

section Build
variable {Id : Type} [DecidableEq Id] {keccak : List UInt8 → Id} {wrappedToken : Address}
  {v2Files v3Files : List (List PoolRecord)}

theorem keyed_allPools : Keyed (allPools v2Files v3Files) :=
  (keyed_loadLpData v2Files).update (keyed_loadLpData v3Files)

theorem mem_allPools {r : PoolRecord} : r ∈ (allPools v2Files v3Files).values ↔
    lastRecord? (v2Files ++ v3Files) r.poolAddress = some r := by
  rw [keyed_allPools.mem_values, allPools, get?_update_loadLpData]

theorem loaded_token_ne (hc : Consistent (v2Files ++ v3Files).flatten) {r : PoolRecord}
    (hr : r ∈ (allPools v2Files v3Files).values) : r.token0 ≠ r.token1 := by
  obtain ⟨r₀, hr₀, _, he⟩ := lastRecord?_eq_some (mem_allPools.mp hr)
  rw [he]
  exact hc.token_ne r₀ hr₀

/-- What is stored is a cycle. -/
theorem pairs_sound (hc : Consistent (v2Files ++ v3Files).flatten) {a b : PoolRecord}
    (h : (a, b) ∈ pairs wrappedToken (allPools v2Files v3Files).values) :
    IsCycle (v2Files ++ v3Files).flatten wrappedToken [a.poolAddress, b.poolAddress] := by
  obtain ⟨⟨ha, haw⟩, ⟨hb, hbx⟩, hbw, hne⟩ := mem_pairs.mp h
  have hx := otherToken_ne wrappedToken (loaded_token_ne hc ha)
  have hpair : b.tokenPair = s(wrappedToken, otherToken wrappedToken a) :=
    (Sym2.mem_and_mem_iff hx.symm).mp ⟨holdsToken_iff.mp hbw, holdsToken_iff.mp hbx⟩
  exact ⟨_, _, _, rfl, hne.symm, hx,
    (holds_iff_lastRecord? hc).mpr ⟨a, mem_allPools.mp ha, tokenPair_otherToken haw⟩,
    (holds_iff_lastRecord? hc).mpr ⟨b, mem_allPools.mp hb, hpair⟩⟩

/-- Every cycle is stored. -/
theorem pairs_complete (hc : Consistent (v2Files ++ v3Files).flatten) {path : List Address}
    (h : IsCycle (v2Files ++ v3Files).flatten wrappedToken path) :
    ∃ a b, (a, b) ∈ pairs wrappedToken (allPools v2Files v3Files).values ∧
      path = [a.poolAddress, b.poolAddress] := by
  obtain ⟨p, q, x, rfl, hne, hx, hp, hq⟩ := h
  obtain ⟨a, ha, hat⟩ := (holds_iff_lastRecord? hc).mp hp
  obtain ⟨b, hb, hbt⟩ := (holds_iff_lastRecord? hc).mp hq
  have hpa := lastRecord?_poolAddress ha
  have hqb := lastRecord?_poolAddress hb
  have hav : a ∈ (allPools v2Files v3Files).values := mem_allPools.mpr (hpa ▸ ha)
  have hbv : b ∈ (allPools v2Files v3Files).values := mem_allPools.mpr (hqb ▸ hb)
  have haw : holdsToken wrappedToken a = true :=
    holdsToken_iff.mpr (hat ▸ Sym2.mem_mk_left wrappedToken x)
  have hox : otherToken wrappedToken a = x := by
    have ht := (tokenPair_otherToken haw).symm.trans hat
    exact Sym2.congr_right.mp ht
  refine ⟨a, b, mem_pairs.mpr ⟨⟨hav, haw⟩, ⟨hbv, ?_⟩, ?_, ?_⟩, by rw [hpa, hqb]⟩
  · rw [hox]
    exact holdsToken_iff.mpr (hbt ▸ Sym2.mem_mk_right wrappedToken x)
  · exact holdsToken_iff.mpr (hbt ▸ Sym2.mem_mk_left wrappedToken x)
  · rw [hpa, hqb]
    exact hne.symm

omit [DecidableEq Id] in
/-- The two pools of an entry, and no others, are filled in. -/
theorem entry_pools {a b : PoolRecord} (ha : a ∈ (allPools v2Files v3Files).values)
    (hb : b ∈ (allPools v2Files v3Files).values) :
    (∀ p ∈ (entry keccak a b).path, ∃ r, lastRecord? (v2Files ++ v3Files) p = some r ∧
      (entry keccak a b).pools.get? p = some (some r)) ∧
        ∀ p, p ∉ (entry keccak a b).path → (entry keccak a b).pools.get? p = none := by
  simp only [entry, Dict.get?_set, Dict.get?_empty]
  refine ⟨fun p hp => ?_, fun p hp => ?_⟩
  · by_cases hpb : p = b.poolAddress
    · exact ⟨b, by rw [hpb]; exact mem_allPools.mp hb, by rw [if_pos hpb]⟩
    · have hpa : p = a.poolAddress := by simpa [hpb] using hp
      exact ⟨a, by rw [hpa]; exact mem_allPools.mp ha, by rw [if_neg hpb, if_pos hpa]⟩
  · simp only [List.mem_cons, List.not_mem_nil, or_false, not_or] at hp
    rw [if_neg hp.2, if_neg hp.1]

omit [DecidableEq Id] in
/-- Two entries with one path are one entry. -/
theorem entry_of_path {a b a' b' : PoolRecord} (ha : a ∈ (allPools v2Files v3Files).values)
    (hb : b ∈ (allPools v2Files v3Files).values) (ha' : a' ∈ (allPools v2Files v3Files).values)
    (hb' : b' ∈ (allPools v2Files v3Files).values)
    (h : (entry keccak a b).path = (entry keccak a' b').path) :
    entry keccak a b = entry keccak a' b' := by
  obtain ⟨haa, hbb⟩ : a.poolAddress = a'.poolAddress ∧ b.poolAddress = b'.poolAddress := by
    simpa [entry] using h
  have hA : a = a' := Option.some.inj
    ((mem_allPools.mp ha).symm.trans (haa ▸ mem_allPools.mp ha'))
  have hB : b = b' := Option.some.inj
    ((mem_allPools.mp hb).symm.trans (hbb ▸ mem_allPools.mp hb'))
  rw [hA, hB]

variable (keccak wrappedToken v2Files v3Files) in
/-- Whatever the LP files hold, the file is one of paths of two pools. -/
theorem main_writtenBy : WrittenBy keccak 2 (main keccak wrappedToken v2Files v3Files) := by
  rw [main, twoPoolArbPaths_eq]
  apply writtenBy_ofList
  · rw [List.forall_mem_map]
    exact fun _ _ => rfl
  · rw [List.forall_mem_map]
    exact fun _ _ => rfl
  · rw [List.forall_mem_map]
    intro p hp
    have h := mem_pairs.mp hp
    exact filled_of_pools (entry_pools h.1.1 h.2.1.1)

/-- Without collisions the paths in the file are the cycles. -/
theorem main_paths (hc : Consistent (v2Files ++ v3Files).flatten)
    (hfree : CollisionFree keccak
      {path | IsCycle (v2Files ++ v3Files).flatten wrappedToken path}) :
    (∃ e ∈ (main keccak wrappedToken v2Files v3Files).values, e.path = path) ↔
      IsCycle (v2Files ++ v3Files).flatten wrappedToken path := by
  have hsound : ∀ e ∈ (pairs wrappedToken (allPools v2Files v3Files).values).map
      (fun p => entry keccak p.1 p.2),
      e.id = pathId keccak e.path ∧ IsCycle (v2Files ++ v3Files).flatten wrappedToken e.path := by
    rw [List.forall_mem_map]
    exact fun p hp => ⟨rfl, pairs_sound hc hp⟩
  rw [main, twoPoolArbPaths_eq,
    exists_path_ofList keccak (fun e he => (hsound e he).1) (hfree.mono ?_)]
  · constructor
    · intro hlisted
      obtain ⟨e, he, rfl⟩ := hlisted
      exact (hsound e he).2
    · intro hcycle
      obtain ⟨a, b, hab, rfl⟩ := pairs_complete hc hcycle
      exact ⟨_, List.mem_map_of_mem hab, rfl⟩
  · intro path hlisted
    obtain ⟨e, he, rfl⟩ := hlisted
    exact (hsound e he).2

/-- **The two-pool builder is sound and complete**: its file lists exactly the
cycles, and with a pair the reversed pair. -/
theorem two_pool_paths_listed (hc : Consistent (v2Files ++ v3Files).flatten)
    (hfree : CollisionFree keccak
      {path | IsCycle (v2Files ++ v3Files).flatten wrappedToken path}) :
    Lists (v2Files ++ v3Files) (main keccak wrappedToken v2Files v3Files)
        (IsCycle (v2Files ++ v3Files).flatten wrappedToken) ∧
      ∀ p q, (∃ e ∈ (main keccak wrappedToken v2Files v3Files).values, e.path = [p, q]) ↔
        ∃ e ∈ (main keccak wrappedToken v2Files v3Files).values, e.path = [q, p] := by
  have hlists : Lists (v2Files ++ v3Files) (main keccak wrappedToken v2Files v3Files)
      (IsCycle (v2Files ++ v3Files).flatten wrappedToken) := by
    rw [main, twoPoolArbPaths_eq]
    refine lists_ofList keccak ?_ hfree ?_ (fun path h => ?_) ?_ ?_ <;>
      try rw [List.forall_mem_map]
    · exact fun _ _ => rfl
    · exact fun _ h => pairs_sound hc h
    · obtain ⟨a, b, hab, hpath⟩ := pairs_complete hc h
      exact ⟨_, List.mem_map_of_mem hab, hpath.symm⟩
    · intro p hp
      rw [List.forall_mem_map]
      intro q hq
      have h := mem_pairs.mp hp
      have h' := mem_pairs.mp hq
      exact entry_of_path h.1.1 h.2.1.1 h'.1.1 h'.2.1.1
    · intro p hp
      have h := mem_pairs.mp hp
      exact entry_pools h.1.1 h.2.1.1
  refine ⟨hlists, fun p q => ?_⟩
  rw [hlists.exact, hlists.exact]
  exact ⟨IsCycle.reverse, IsCycle.reverse⟩

end Build

/-- A V2 pool and a V3 pool on tokens 1 and 2. -/
theorem two_pool_paths_listed_pair :
    let v2 : PoolRecord := ⟨.fill 10, some 3, .fill 1, .fill 2, 7, some 0, .uniswapV2, "a"⟩
    let v3 : PoolRecord := ⟨.fill 11, some 500, .fill 2, .fill 1, 8, none, .uniswapV3, "b"⟩
    Lists [[v2], [v3]] (main id (.fill 1) [[v2]] [[v3]]) (IsCycle [v2, v3] (.fill 1)) ∧
      ∀ p q, (∃ e ∈ (main id (.fill 1) [[v2]] [[v3]]).values, e.path = [p, q]) ↔
        ∃ e ∈ (main id (.fill 1) [[v2]] [[v3]]).values, e.path = [q, p] := by
  intro v2 v3
  have hc : Consistent ([[v2]] ++ [[v3]]).flatten := ⟨by decide, by decide⟩
  exact two_pool_paths_listed hc Function.injective_id.injOn

end CreamBots.Builders.TwoPool
