import CreamBots.Data.Dict
import Mathlib.Data.Sym.Sym2
import Mathlib.Data.Set.Function

/-! What the builders read and write: pool records and arb paths.

The LP fetchers append one record per pool to a JSON list per factory; the path
builders, the liquidity fetcher and the pool service load those lists into
dictionaries keyed by pool address. An arb path is stored under the keccak hash
of its pools' addresses, twenty bytes each, end to end (`pathBytes`). -/
namespace CreamBots.Builders
open Data

/-- An address. The files spell it as its checksum text, one text for each
twenty bytes; what is hashed is the bytes. -/
structure Address where
  bytes : List UInt8
  length_bytes : bytes.length = 20
deriving DecidableEq

/-- Twenty equal bytes: addresses to write examples with. -/
def Address.fill (b : UInt8) : Address := ⟨List.replicate 20 b, List.length_replicate⟩

inductive PoolType where
  | uniswapV2
  | uniswapV3
  | other (name : String)
deriving DecidableEq

/-- One record of an LP file. Only V2 records carry a `pool_id`. -/
structure PoolRecord where
  poolAddress : Address
  fee : Option Nat
  token0 : Address
  token1 : Address
  blockNumber : Nat
  poolId : Option Nat
  type : PoolType
  exchange : String
deriving DecidableEq

namespace PoolRecord

/-- `{key: value for key, value in pool.items() if key != "pool_id"}`. -/
def withoutPoolId (r : PoolRecord) : PoolRecord := {r with poolId := none}

@[simp] theorem withoutPoolId_poolAddress (r : PoolRecord) :
    r.withoutPoolId.poolAddress = r.poolAddress := rfl

def tokenPair (r : PoolRecord) : Sym2 Address := s(r.token0, r.token1)

end PoolRecord

/-! ### Loading the LP files -/

abbrev LpData := Dict Address PoolRecord

/-- `lp_data[pool["pool_address"]] = record`, file by file. -/
def loadLpData (files : List (List PoolRecord)) : LpData :=
  files.foldl (fun data file =>
    file.foldl (fun data pool => data.set pool.poolAddress pool.withoutPoolId) data) Dict.empty

/-- The last record loaded for an address. -/
def lastRecord? (files : List (List PoolRecord)) (a : Address) : Option PoolRecord :=
  (files.flatten.reverse.find? fun r => decide (r.poolAddress = a)).map PoolRecord.withoutPoolId

theorem loadLpData_eq (files : List (List PoolRecord)) :
    loadLpData files =
      Dict.ofList (files.flatten.map fun r => (r.poolAddress, r.withoutPoolId)) := by
  simp only [loadLpData, Dict.ofList, Dict.setAll, List.foldl_map, List.foldl_flatten]

theorem get?_loadLpData (files : List (List PoolRecord)) (a : Address) :
    (loadLpData files).get? a = lastRecord? files a := by
  rw [loadLpData_eq, Dict.get?_ofList, Dict.lastValue?, lastRecord?, ← List.map_reverse,
    List.find?_map, Option.map_map]
  rfl

theorem lastRecord?_eq_some {files : List (List PoolRecord)} {a : Address} {r : PoolRecord}
    (h : lastRecord? files a = some r) :
    ∃ r₀ ∈ files.flatten, r₀.poolAddress = a ∧ r = r₀.withoutPoolId := by
  obtain ⟨r₀, hr₀, rfl⟩ := Option.map_eq_some_iff.mp h
  exact ⟨r₀, List.mem_reverse.mp (List.mem_of_find?_eq_some hr₀),
    by simpa using List.find?_some hr₀, rfl⟩

theorem lastRecord?_poolAddress {files : List (List PoolRecord)} {a : Address} {r : PoolRecord}
    (h : lastRecord? files a = some r) : r.poolAddress = a := by
  obtain ⟨r₀, _, rfl, rfl⟩ := lastRecord?_eq_some h
  rfl

theorem lastRecord?_isSome {files : List (List PoolRecord)} {r : PoolRecord}
    (h : r ∈ files.flatten) : ∃ r', lastRecord? files r.poolAddress = some r' := by
  cases hl : lastRecord? files r.poolAddress with
  | some r' => exact ⟨r', rfl⟩
  | none =>
    rw [lastRecord?, Option.map_eq_none_iff, List.find?_eq_none] at hl
    exact absurd (hl r (List.mem_reverse.mpr h)) (by simp)

/-- Every record sits under its own address. -/
def Keyed (data : LpData) : Prop := ∀ a r, data.get? a = some r → r.poolAddress = a

theorem keyed_loadLpData (files : List (List PoolRecord)) : Keyed (loadLpData files) := by
  intro a r h
  rw [get?_loadLpData] at h
  exact lastRecord?_poolAddress h

theorem Keyed.update {d e : LpData} (hd : Keyed d) (he : Keyed e) : Keyed (d.update e) := by
  intro a r h
  rw [Dict.get?_update] at h
  cases hr : e.get? a with
  | some r' =>
    rw [hr, Option.some_or, Option.some.injEq] at h
    subst h
    exact he a r' hr
  | none =>
    rw [hr, Option.none_or] at h
    exact hd a r h

theorem Keyed.get?_of_mem {d : LpData} (h : Keyed d) {r : PoolRecord} (hr : r ∈ d.values) :
    d.get? r.poolAddress = some r := by
  obtain ⟨a, ha⟩ := Dict.mem_values.mp hr
  rw [h a r ha]
  exact ha

theorem Keyed.mem_values {d : LpData} (h : Keyed d) {r : PoolRecord} :
    r ∈ d.values ↔ d.get? r.poolAddress = some r :=
  ⟨h.get?_of_mem, fun hr => Dict.mem_values.mpr ⟨_, hr⟩⟩

/-- Loading more files over loaded ones is loading them all. -/
theorem get?_update_loadLpData (first second : List (List PoolRecord)) (a : Address) :
    ((loadLpData first).update (loadLpData second)).get? a = lastRecord? (first ++ second) a := by
  rw [Dict.get?_update, get?_loadLpData, get?_loadLpData]
  simp only [lastRecord?, List.flatten_append, List.reverse_append, List.find?_append]
  cases second.flatten.reverse.find? fun r => decide (r.poolAddress = a) <;> rfl

/-! ### What the factories promise about records -/

/-- Two tokens, and one pair of tokens for an address however often it is listed. -/
structure Consistent (records : List PoolRecord) : Prop where
  token_ne : ∀ r ∈ records, r.token0 ≠ r.token1
  pair : ∀ r ∈ records, ∀ r' ∈ records, r.poolAddress = r'.poolAddress →
    r.tokenPair = r'.tokenPair

/-- A listed pool and the two tokens it holds. -/
def Holds (records : List PoolRecord) (p a b : Address) : Prop :=
  ∃ r ∈ records, r.poolAddress = p ∧ r.tokenPair = s(a, b)

theorem Holds.symm {records : List PoolRecord} {p a b : Address} (h : Holds records p a b) :
    Holds records p b a := by
  obtain ⟨r, hr, hp, ht⟩ := h
  exact ⟨r, hr, hp, ht.trans Sym2.eq_swap⟩

theorem Consistent.mono {records records' : List PoolRecord} (h : Consistent records')
    (hle : records ⊆ records') : Consistent records :=
  ⟨fun r hr => h.token_ne r (hle hr), fun r hr r' hr' => h.pair r (hle hr) r' (hle hr')⟩

theorem Holds.mono {records records' : List PoolRecord} {p a b : Address} (h : Holds records p a b)
    (hle : records ⊆ records') : Holds records' p a b := by
  obtain ⟨r, hr, hp, ht⟩ := h
  exact ⟨r, hle hr, hp, ht⟩

/-- The last record of a listed pool tells what it holds. -/
theorem holds_iff_lastRecord? {files : List (List PoolRecord)} (hc : Consistent files.flatten)
    {p a b : Address} :
    Holds files.flatten p a b ↔ ∃ r, lastRecord? files p = some r ∧ r.tokenPair = s(a, b) := by
  refine ⟨fun h => ?_, fun h => ?_⟩
  · obtain ⟨r₀, hr₀, rfl, ht⟩ := h
    obtain ⟨r, hr⟩ := lastRecord?_isSome hr₀
    obtain ⟨r₁, hr₁, hp, rfl⟩ := lastRecord?_eq_some hr
    exact ⟨_, hr, (hc.pair r₁ hr₁ r₀ hr₀ hp).trans ht⟩
  · obtain ⟨r, hr, ht⟩ := h
    obtain ⟨r₀, hr₀, hp, rfl⟩ := lastRecord?_eq_some hr
    exact ⟨r₀, hr₀, hp, ht⟩

/-! ### Arb paths and their ids -/

/-- The bytes that are hashed: the addresses end to end. -/
def pathBytes (path : List Address) : List UInt8 := path.flatMap Address.bytes

theorem pathBytes_cons (a : Address) (path : List Address) :
    pathBytes (a :: path) = a.bytes ++ pathBytes path := by
  simp [pathBytes]

theorem pathBytes_length (path : List Address) : (pathBytes path).length = 20 * path.length := by
  induction path with
  | nil => rfl
  | cons a path ih =>
    rw [pathBytes_cons, List.length_append, a.length_bytes, ih, List.length_cons]
    omega

/-- Addresses have one length, so the bytes determine the path. -/
theorem pathBytes_injective : Function.Injective pathBytes := by
  intro p
  induction p with
  | nil =>
    intro q h
    have hl := congrArg List.length h
    rw [pathBytes_length, pathBytes_length, List.length_nil] at hl
    exact (List.length_eq_zero_iff.mp (by omega)).symm
  | cons a p ih =>
    intro q h
    cases q with
    | nil =>
      have hl := congrArg List.length h
      rw [pathBytes_length, pathBytes_length, List.length_cons, List.length_nil] at hl
      omega
    | cons b q =>
      rw [pathBytes_cons, pathBytes_cons] at h
      obtain ⟨hab, hpq⟩ := List.append_inj h (a.length_bytes.trans b.length_bytes.symm)
      obtain rfl : a = b := by
        cases a
        cases b
        cases hab
        rfl
      rw [ih hpq]

/-- One entry of an arb path file. A pool whose record was not found is null. -/
structure ArbPath (Id : Type) where
  id : Id
  pools : Dict Address (Option PoolRecord)
  arbTypes : List String
  path : List Address

section Hash
variable {Id : Type} (keccak : List UInt8 → Id)

def pathId (path : List Address) : Id := keccak (pathBytes path)

/-- No two of these paths' byte strings have the same hash. -/
def CollisionFree (paths : Set (List Address)) : Prop :=
  Set.InjOn keccak (Set.image pathBytes paths)

theorem CollisionFree.path_eq {keccak : List UInt8 → Id} {paths : Set (List Address)}
    (h : CollisionFree keccak paths) {p q : List Address} (hp : p ∈ paths) (hq : q ∈ paths)
    (he : pathId keccak p = pathId keccak q) : p = q :=
  pathBytes_injective (h ⟨p, hp, rfl⟩ ⟨q, hq, rfl⟩ he)

/-- A path file lists exactly these paths: each in one entry, stored under the
entry's own id, with the last record loaded for each of its pools and nothing else. -/
structure Lists {Id : Type} [DecidableEq Id] (files : List (List PoolRecord))
    (paths : Dict Id (ArbPath Id)) (cycle : List Address → Prop) : Prop where
  exact : ∀ path, (∃ e ∈ paths.values, e.path = path) ↔ cycle path
  once : ∀ id id' e e', paths.get? id = some e → paths.get? id' = some e' → e.path = e'.path →
    id = id'
  own_id : ∀ id e, paths.get? id = some e → e.id = id
  pools : ∀ e ∈ paths.values,
    (∀ a ∈ e.path, ∃ r, lastRecord? files a = some r ∧ e.pools.get? a = some (some r)) ∧
      ∀ a, a ∉ e.path → e.pools.get? a = none

/-- An entry that was set and is found. -/
theorem mem_of_get?_ofList [DecidableEq Id] {l : List (ArbPath Id)} {id : Id} {e : ArbPath Id}
    (h : (Dict.ofList (l.map fun e => (e.id, e))).get? id = some e) : e ∈ l ∧ e.id = id := by
  rw [Dict.get?_ofList] at h
  obtain ⟨e', he', hp⟩ := List.mem_map.mp (Dict.lastValue?_mem h)
  obtain ⟨rfl, rfl⟩ := Prod.mk.inj hp
  exact ⟨he', rfl⟩

theorem CollisionFree.mono {keccak : List UInt8 → Id} {paths paths' : Set (List Address)}
    (h : CollisionFree keccak paths') (hle : paths ⊆ paths') : CollisionFree keccak paths :=
  Set.InjOn.mono (Set.image_mono hle) h

/-- No path of the entries is lost to another one's id. -/
theorem exists_path_ofList [DecidableEq Id] {l : List (ArbPath Id)}
    (hid : ∀ e ∈ l, e.id = pathId keccak e.path)
    (hfree : CollisionFree keccak {path | ∃ e ∈ l, e.path = path}) {path : List Address} :
    (∃ e ∈ (Dict.ofList (l.map fun e => (e.id, e))).values, e.path = path) ↔
      ∃ e ∈ l, e.path = path := by
  constructor
  · intro hstored
    obtain ⟨e, he, hpath⟩ := hstored
    obtain ⟨id, hget⟩ := Dict.mem_values.mp he
    exact ⟨e, (mem_of_get?_ofList hget).1, hpath⟩
  · intro hlisted
    obtain ⟨e, he, rfl⟩ := hlisted
    obtain ⟨e', hget⟩ : ∃ e', (Dict.ofList (l.map fun e => (e.id, e))).get? e.id = some e' := by
      rw [Dict.get?_ofList]
      exact Dict.lastValue?_isSome (List.mem_map.mpr ⟨e, he, rfl⟩)
    obtain ⟨he', hown⟩ := mem_of_get?_ofList hget
    refine ⟨e', Dict.mem_values.mpr ⟨_, hget⟩, hfree.path_eq ⟨e', he', rfl⟩ ⟨e, he, rfl⟩ ?_⟩
    rw [← hid e' he', hown, hid e he]

/-- Setting entries one by one under the hashes of their paths gives such a file. -/
theorem lists_ofList [DecidableEq Id] {files : List (List PoolRecord)} {l : List (ArbPath Id)}
    {cycle : List Address → Prop} (hid : ∀ e ∈ l, e.id = pathId keccak e.path)
    (hfree : CollisionFree keccak {path | cycle path}) (hsound : ∀ e ∈ l, cycle e.path)
    (hcomplete : ∀ path, cycle path → ∃ e ∈ l, e.path = path)
    (hfun : ∀ e ∈ l, ∀ e' ∈ l, e.path = e'.path → e = e')
    (hpools : ∀ e ∈ l,
      (∀ a ∈ e.path, ∃ r, lastRecord? files a = some r ∧ e.pools.get? a = some (some r)) ∧
        ∀ a, a ∉ e.path → e.pools.get? a = none) :
    Lists files (Dict.ofList (l.map fun e => (e.id, e))) cycle := by
  have hset : ∀ e ∈ l, (Dict.ofList (l.map fun e => (e.id, e))).get? e.id = some e := by
    intro e he
    rw [Dict.get?_ofList_of_functional]
    · exact List.mem_map.mpr ⟨e, he, rfl⟩
    · intro x hx y hy hxy
      obtain ⟨e₁, h₁, rfl⟩ := List.mem_map.mp hx
      obtain ⟨e₂, h₂, rfl⟩ := List.mem_map.mp hy
      apply hfun e₁ h₁ e₂ h₂
      apply hfree.path_eq (hsound e₁ h₁) (hsound e₂ h₂)
      rw [← hid e₁ h₁, ← hid e₂ h₂]
      exact hxy
  have hvalues : ∀ e, e ∈ (Dict.ofList (l.map fun e => (e.id, e))).values ↔ e ∈ l := by
    intro e
    rw [Dict.mem_values]
    exact ⟨fun ⟨id, h⟩ => (mem_of_get?_ofList h).1, fun h => ⟨e.id, hset e h⟩⟩
  refine ⟨fun path => ⟨fun ⟨e, he, hp⟩ => ?_, fun h => ?_⟩, fun id id' e e' h h' hp => ?_,
    fun id e h => (mem_of_get?_ofList h).2, fun e he => hpools e ((hvalues e).mp he)⟩
  · rw [← hp]
    exact hsound e ((hvalues e).mp he)
  · obtain ⟨e, he, hp⟩ := hcomplete path h
    exact ⟨e, (hvalues e).mpr he, hp⟩
  · obtain ⟨he, rfl⟩ := mem_of_get?_ofList h
    obtain ⟨he', rfl⟩ := mem_of_get?_ofList h'
    rw [hid e he, hid e' he', hp]

/-- What is told of a path file without its LP files: each entry is stored under its
own id, the hash of its path, which has `n` pools, and none of its pools is null. -/
structure WrittenBy {Id : Type} [DecidableEq Id] (keccak : List UInt8 → Id) (n : Nat)
    (paths : Dict Id (ArbPath Id)) : Prop where
  own_id : ∀ id e, paths.get? id = some e → e.id = id
  hashed : ∀ e ∈ paths.values, e.id = pathId keccak e.path
  length : ∀ e ∈ paths.values, e.path.length = n
  filled : ∀ e ∈ paths.values, none ∉ e.pools.values

theorem writtenBy_ofList [DecidableEq Id] {n : Nat} {l : List (ArbPath Id)}
    (hid : ∀ e ∈ l, e.id = pathId keccak e.path) (hlength : ∀ e ∈ l, e.path.length = n)
    (hfilled : ∀ e ∈ l, none ∉ e.pools.values) :
    WrittenBy keccak n (Dict.ofList (l.map fun e => (e.id, e))) := by
  have hvalues : ∀ e ∈ (Dict.ofList (l.map fun e => (e.id, e))).values, e ∈ l := by
    intro e he
    obtain ⟨id, h⟩ := Dict.mem_values.mp he
    exact (mem_of_get?_ofList h).1
  exact ⟨fun id e h => (mem_of_get?_ofList h).2, fun e he => hid e (hvalues e he),
    fun e he => hlength e (hvalues e he), fun e he => hfilled e (hvalues e he)⟩

omit keccak in
/-- Pools that are filled in along the path and absent elsewhere are not null. -/
theorem filled_of_pools {files : List (List PoolRecord)} {e : ArbPath Id}
    (h : (∀ a ∈ e.path, ∃ r, lastRecord? files a = some r ∧ e.pools.get? a = some (some r)) ∧
      ∀ a, a ∉ e.path → e.pools.get? a = none) : none ∉ e.pools.values := by
  intro hnone
  obtain ⟨a, ha⟩ := Dict.mem_values.mp hnone
  by_cases hp : a ∈ e.path
  · obtain ⟨r, _, hr⟩ := h.1 a hp
    rw [hr] at ha
    cases ha
  · rw [h.2 a hp] at ha
    cases ha

end Hash

end CreamBots.Builders
