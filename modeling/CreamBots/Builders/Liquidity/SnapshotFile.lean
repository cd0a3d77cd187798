import CreamBots.Builders.Liquidity.Snapshot
import CreamBots.Data.SortedDict
import Mathlib.Data.String.Basic

/-! The snapshot file, key by key.

On the disk every key is a text: those of ticks and words are decimal, and the entry
`snapshot_block` stands among the pools. Writing and loading are two comprehensions that
have to fit each other, whatever the pools are called and whatever classes the values
belong to: what is written is loaded but for the words without bits, and as the keys are
written in order, writing it again with a later block changes that block only
(`snapshot_file_round_trip`). The typed file of `Snapshot` is this one with the
addresses spelled out (`loadFile_spelled`). -/
namespace CreamBots.Builders.Liquidity
open Data

/-- A class of degenbot's with `to_dict`, and a constructor that takes the fields back. -/
structure DictClass (α β : Type) where
  toDict : α → β
  ofDict : β → Except PyError α
  ofDict_toDict : ∀ a, ofDict (toDict a) = .ok a

/-- `UniswapV3LiquidityAtTick` and `UniswapV3BitmapAtWord`, the latter with its bits. -/
structure TickClasses (Tick Word TickJson WordJson : Type) where
  liquidityAtTick : DictClass Tick TickJson
  bitmapAtWord : DictClass Word WordJson
  bitmap : Word → Nat

/-- The entry of a pool in memory. -/
structure PoolMaps (Tick Word : Type) where
  tickBitmap : Dict Int Word
  tickData : Dict Int Tick

/-- An entry of the file: of a pool, or `snapshot_block`. -/
inductive FileEntry (TickJson WordJson : Type) where
  | block (n : Nat)
  | pool (tickData : Dict String TickJson) (tickBitmap : Dict String WordJson)

section File
variable {Tick Word TickJson WordJson α β : Type} (classes : TickClasses Tick Word TickJson WordJson)

/-! ### Writing -/

/-- Each value by `to_dict`, each key as its decimal text, in the order of the keys. -/
def DictClass.writeItems (valueClass : DictClass α β) (d : Dict Int α) : Dict String β :=
  saveKeys (d.mapValues valueClass.toDict).sortKeys

/-- `if value.bitmap`. -/
def TickClasses.hasBits (word : Word) : Bool := decide (classes.bitmap word ≠ 0)

def writePool (maps : PoolMaps Tick Word) : FileEntry TickJson WordJson :=
  .pool (classes.liquidityAtTick.writeItems maps.tickData)
    (classes.bitmapAtWord.writeItems (maps.tickBitmap.filterValues classes.hasBits))

/-- `ujson.dump` with `sort_keys=True`. -/
def writeFile (snapshot : Dict String (PoolMaps Tick Word)) (newestBlock : Nat) :
    Dict String (FileEntry TickJson WordJson) :=
  ((snapshot.mapValues (writePool classes)).set "snapshot_block" (.block newestBlock)).sortKeys

/-! ### Loading -/

/-- `{int(k): Class(**v) for k, v in items}`. -/
def DictClass.loadItem (valueClass : DictClass α β) (loaded : Dict Int α) (p : String × β) :
    Except PyError (Dict Int α) :=
  match p.1.toInt? with
  | none => .error .valueError
  | some k => do
    let value ← valueClass.ofDict p.2
    return loaded.set k value

def DictClass.loadItems (valueClass : DictClass α β) (d : Dict String β) : Except PyError (Dict Int α) :=
  d.items.foldlM valueClass.loadItem Dict.empty

/-- One round of the loop over the loaded object. -/
def loadPool (snapshot : Dict String (PoolMaps Tick Word))
    (p : String × FileEntry TickJson WordJson) : Except PyError (Dict String (PoolMaps Tick Word)) :=
  match p.2 with
  | .block _ => .error .typeError
  | .pool tickDataJson tickBitmapJson => do
    let tickBitmap ← classes.bitmapAtWord.loadItems tickBitmapJson
    let tickData ← classes.liquidityAtTick.loadItems tickDataJson
    return snapshot.set p.1 ⟨tickBitmap, tickData⟩

/-- The block, which is popped, and the pools. -/
def loadFile (file : Dict String (FileEntry TickJson WordJson)) (newestBlock : Nat) :
    Except PyError (Nat × Dict String (PoolMaps Tick Word)) :=
  match file.get? "snapshot_block" with
  | none => .error .keyError
  | some (.pool _ _) => .error .typeError
  | some (.block snapshotLastBlock) =>
    if snapshotLastBlock < newestBlock then do
      let snapshot ← (file.erase "snapshot_block").items.foldlM (loadPool classes) Dict.empty
      return (snapshotLastBlock, snapshot)
    else .error (.assertionError s!"Aborting, snapshot block ({snapshotLastBlock}) is newer than current chain height ({newestBlock})")

/-! ### One entry -/

/-- What is written of a pool. -/
def PoolMaps.written (maps : PoolMaps Tick Word) : PoolMaps Tick Word where
  tickBitmap := (maps.tickBitmap.filterValues classes.hasBits).sortKeys
  tickData := maps.tickData.sortKeys

/-- The same ticks, and the same words that have bits. -/
structure PoolMaps.LoadsAs (maps loaded : PoolMaps Tick Word) : Prop where
  tickData : ∀ tick, loaded.tickData.get? tick = maps.tickData.get? tick
  tickBitmap : ∀ word, loaded.tickBitmap.get? word =
    (maps.tickBitmap.get? word).filter classes.hasBits

theorem PoolMaps.loadsAs_written (maps : PoolMaps Tick Word) :
    maps.LoadsAs classes (maps.written classes) := by
  refine ⟨fun tick => Dict.get?_sortKeys .., fun word => ?_⟩
  rw [written, Dict.get?_sortKeys, Dict.get?_filterValues]

theorem DictClass.loadItems_writeItems (valueClass : DictClass α β) (d : Dict Int α) :
    valueClass.loadItems (valueClass.writeItems d) = .ok d.sortKeys := by
  rw [writeItems, Dict.sortKeys_mapValues, loadItems, items_saveKeys, List.foldlM_map]
  show List.foldlM _ _ (d.sortKeys.items.map fun p => (p.1, valueClass.toDict p.2)) = _
  rw [List.foldlM_map, foldlM_ok (g := fun (loaded : Dict Int α) p => loaded.set p.1 p.2)]
  · exact congrArg Except.ok d.sortKeys.ofList_items
  · intro loaded p _
    rw [loadItem, Int.toInt?_repr]
    simp only [valueClass.ofDict_toDict]
    rfl

theorem loadPool_writePool (snapshot : Dict String (PoolMaps Tick Word)) (pool : String)
    (maps : PoolMaps Tick Word) :
    loadPool classes snapshot (pool, writePool classes maps) =
      .ok (snapshot.set pool (maps.written classes)) := by
  rw [loadPool, writePool]
  simp only [DictClass.loadItems_writeItems]
  rfl

/-- Written again it is the same. -/
theorem writePool_written (maps : PoolMaps Tick Word) :
    writePool classes (maps.written classes) = writePool classes maps := by
  have hwords : ((maps.tickBitmap.filterValues classes.hasBits).sortKeys.filterValues
      classes.hasBits).sortKeys = (maps.tickBitmap.filterValues classes.hasBits).sortKeys := by
    refine (Dict.sorted_sortKeys _).ext (Dict.sorted_sortKeys _) fun word => ?_
    simp only [Dict.get?_sortKeys, Dict.get?_filterValues, Option.filter_filter, Bool.and_self]
  have hticks : maps.tickData.sortKeys.sortKeys = maps.tickData.sortKeys :=
    (Dict.sorted_sortKeys _).ext (Dict.sorted_sortKeys _) fun tick => Dict.get?_sortKeys ..
  rw [writePool, writePool, PoolMaps.written, DictClass.writeItems, DictClass.writeItems,
    DictClass.writeItems, DictClass.writeItems, Dict.sortKeys_mapValues, Dict.sortKeys_mapValues,
    Dict.sortKeys_mapValues, Dict.sortKeys_mapValues, hwords, hticks]

/-! ### The file -/

section RoundTrip
variable {classes} {snapshot : Dict String (PoolMaps Tick Word)}

theorem get?_writeFile (snapshot : Dict String (PoolMaps Tick Word)) (block : Nat) (key : String) :
    (writeFile classes snapshot block).get? key =
      if key = "snapshot_block" then some (.block block)
      else (snapshot.get? key).map (writePool classes) := by
  rw [writeFile, Dict.get?_sortKeys, Dict.get?_set, Dict.get?_mapValues]

theorem sorted_writeFile (snapshot : Dict String (PoolMaps Tick Word)) (block : Nat) :
    (writeFile classes snapshot block).Sorted := Dict.sorted_sortKeys _

/-- Beside the block there are the pools. -/
theorem erase_writeFile (hkey : "snapshot_block" ∉ snapshot.keys) (block : Nat) :
    (writeFile classes snapshot block).erase "snapshot_block" =
      snapshot.sortKeys.mapValues (writePool classes) := by
  refine ((sorted_writeFile snapshot block).erase _).ext
    ((Dict.sorted_sortKeys snapshot).mapValues _) fun key => ?_
  rw [Dict.get?_erase, get?_writeFile, Dict.get?_mapValues, Dict.get?_sortKeys]
  split_ifs with hblock
  · rw [hblock, Dict.get?_eq_none.mpr hkey]
    rfl
  · rfl

theorem loadFile_writeFile (hkey : "snapshot_block" ∉ snapshot.keys) {block newestBlock : Nat}
    (h : block < newestBlock) : loadFile classes (writeFile classes snapshot block) newestBlock =
      .ok (block, snapshot.sortKeys.mapValues (PoolMaps.written classes)) := by
  rw [loadFile, get?_writeFile, if_pos rfl]
  simp only [if_pos h]
  rw [erase_writeFile hkey]
  show (List.foldlM _ _ (snapshot.sortKeys.items.map fun p => (p.1, writePool classes p.2)) >>= _) = _
  rw [List.foldlM_map, foldlM_ok (g := fun (loaded : Dict String (PoolMaps Tick Word)) p =>
    loaded.set p.1 (p.2.written classes))]
  · have hset : snapshot.sortKeys.items.foldl (fun (loaded : Dict String (PoolMaps Tick Word)) p =>
        loaded.set p.1 (p.2.written classes)) Dict.empty =
        Dict.ofList (snapshot.sortKeys.mapValues (PoolMaps.written classes)).items := by
      show _ = List.foldl _ _ (snapshot.sortKeys.items.map _)
      rw [List.foldl_map]
    rw [hset, Dict.ofList_items]
    rfl
  · exact fun loaded p _ => loadPool_writePool classes loaded p.1 p.2

theorem writeFile_loaded (snapshot : Dict String (PoolMaps Tick Word)) (block newestBlock : Nat) :
    writeFile classes (snapshot.sortKeys.mapValues (PoolMaps.written classes)) newestBlock =
      (writeFile classes snapshot block).set "snapshot_block" (.block newestBlock) := by
  have hblock : "snapshot_block" ∈ (writeFile classes snapshot block).keys :=
    Dict.mem_keys.mpr ⟨.block block, by rw [get?_writeFile, if_pos rfl]⟩
  refine (sorted_writeFile _ newestBlock).ext ((sorted_writeFile snapshot block).set hblock _)
    fun key => ?_
  rw [get?_writeFile, Dict.get?_set, get?_writeFile, Dict.get?_mapValues, Dict.get?_sortKeys,
    Option.map_map]
  split_ifs
  · rfl
  · exact congrArg (fun write => (snapshot.get? key).map write)
      (funext fun maps => writePool_written classes maps)

end RoundTrip
end File

/-- **The snapshot file round-trips**: with the chain past its block it gives back the block
and every pool, but for words without bits, and written again it is the same file with
another block. With the chain not past it loading fails the assertion. -/
theorem snapshot_file_round_trip {Tick Word TickJson WordJson : Type}
    (classes : TickClasses Tick Word TickJson WordJson) (snapshot : Dict String (PoolMaps Tick Word))
    (hkey : "snapshot_block" ∉ snapshot.keys) (block newestBlock : Nat) :
    (block < newestBlock → ∃ loaded,
      loadFile classes (writeFile classes snapshot block) newestBlock = .ok (block, loaded) ∧
      (∀ pool, Option.Rel (PoolMaps.LoadsAs classes) (snapshot.get? pool) (loaded.get? pool)) ∧
      writeFile classes loaded newestBlock =
        (writeFile classes snapshot block).set "snapshot_block" (.block newestBlock)) ∧
    (¬block < newestBlock → ∃ message,
      loadFile classes (writeFile classes snapshot block) newestBlock =
        .error (.assertionError message)) := by
  constructor
  · intro h
    refine ⟨_, loadFile_writeFile hkey h, fun pool => ?_, writeFile_loaded snapshot block newestBlock⟩
    rw [Dict.get?_mapValues, Dict.get?_sortKeys]
    cases snapshot.get? pool with
    | none => exact .none
    | some maps => exact .some (maps.loadsAs_written classes)
  · intro h
    rw [loadFile, get?_writeFile, if_pos rfl]
    exact ⟨_, if_neg h⟩

/-- A pool with a tick and two words, one of them without bits. -/
def onePool : Dict String (PoolMaps Nat Nat) :=
  .ofList [("0x01", ⟨.ofList [(0, 1), (-1, 0)], .ofList [(-60, 5)]⟩)]

/-- Ticks and words that are numbers, as they are written. -/
def plainClasses : TickClasses Nat Nat Nat Nat :=
  ⟨⟨id, .ok, fun _ => rfl⟩, ⟨id, .ok, fun _ => rfl⟩, id⟩

theorem snapshot_file_round_trip_onePool : ∃ loaded,
    loadFile plainClasses (writeFile plainClasses onePool 5) 6 = .ok (5, loaded) ∧
    (∀ pool, Option.Rel (PoolMaps.LoadsAs plainClasses) (onePool.get? pool) (loaded.get? pool)) ∧
    writeFile plainClasses loaded 6 =
      (writeFile plainClasses onePool 5).set "snapshot_block" (.block 6) :=
  (snapshot_file_round_trip plainClasses onePool (by decide) 5 6).1 (by decide)

/-! ### The typed file -/

/-- The classes of the typed file, whose values are written as they are. -/
def tickClasses : TickClasses LiquidityAtTick BitmapAtWord LiquidityAtTick BitmapAtWord :=
  ⟨⟨id, .ok, fun _ => rfl⟩, ⟨id, .ok, fun _ => rfl⟩, BitmapAtWord.bitmap⟩

def TickMaps.untyped (maps : TickMaps) : PoolMaps LiquidityAtTick BitmapAtWord :=
  ⟨maps.tickBitmap, maps.tickData⟩

/-- A snapshot with its addresses spelled out. -/
def spelled (spell : Address → String) (snapshot : Snapshot) :
    Dict String (PoolMaps LiquidityAtTick BitmapAtWord) :=
  Dict.ofList (snapshot.items.map fun p => (spell p.1, p.2.untyped))

section Spelled
variable {spell : Address → String} (hspell : Function.Injective spell)
include hspell

theorem items_spelled (snapshot : Snapshot) :
    (spelled spell snapshot).items = snapshot.items.map fun p => (spell p.1, p.2.untyped) := by
  apply Dict.items_ofList
  have h : (snapshot.keys.map spell).Nodup := snapshot.nodup_keys.map hspell
  rw [Dict.keys, List.map_map] at h
  rw [List.map_map]
  exact h

theorem get?_spelled (snapshot : Snapshot) (address : Address) :
    (spelled spell snapshot).get? (spell address) = (snapshot.get? address).map TickMaps.untyped := by
  ext maps
  rw [Dict.get?_eq_some, items_spelled hspell, List.mem_map, Option.map_eq_some_iff]
  constructor
  · intro ⟨p, hp, he⟩
    obtain ⟨haddress, rfl⟩ := Prod.mk.inj he
    rw [← hspell haddress]
    exact ⟨p.2, Dict.get?_eq_some.mpr hp, rfl⟩
  · intro ⟨typed, hget, he⟩
    exact ⟨(address, typed), Dict.get?_eq_some.mp hget, by rw [← he]⟩

/-- Of a pool the typed file gives back what this one does. -/
theorem loadFile_spelled (hblock : ∀ address, spell address ≠ "snapshot_block") (snapshot : Snapshot)
    {block newestBlock : Nat} (h : block < newestBlock) : ∃ typed loaded,
      loadSnapshot (some (saveSnapshot snapshot block)) newestBlock = .ok (some block, typed) ∧
      loadFile tickClasses (writeFile tickClasses (spelled spell snapshot) block) newestBlock =
        .ok (block, loaded) ∧
      ∀ address, Option.Rel (fun (maps : TickMaps) maps' =>
          (∀ tick, maps'.tickData.get? tick = maps.tickData.get? tick) ∧
            ∀ word, maps'.tickBitmap.get? word = maps.tickBitmap.get? word)
        (typed.get? address) (loaded.get? (spell address)) := by
  have hkey : "snapshot_block" ∉ (spelled spell snapshot).keys := by
    rw [Dict.keys, items_spelled hspell, List.map_map]
    intro hmem
    obtain ⟨p, _, hp⟩ := List.mem_map.mp hmem
    exact hblock p.1 hp
  refine ⟨_, _, loadSnapshot_saveSnapshot snapshot h, loadFile_writeFile hkey h, fun address => ?_⟩
  rw [Dict.get?_mapValues, Dict.get?_mapValues, Dict.get?_sortKeys, get?_spelled hspell]
  cases snapshot.get? address with
  | none => exact .none
  | some maps =>
    have hloads := maps.untyped.loadsAs_written tickClasses
    refine .some ⟨hloads.tickData, fun word => ?_⟩
    rw [hloads.tickBitmap, TickMaps.tidy, Dict.get?_filterValues]
    rfl

end Spelled
end CreamBots.Builders.Liquidity
