import CreamBots.Builders.Liquidity.Ticks
import CreamBots.Data.Raise
import Std.Data.String.ToInt

/-! The liquidity snapshot and its file.

In memory a snapshot maps pools to tick maps. The file is one JSON object: an
entry for each pool, whose maps have the decimal text of a tick for a key and no
word without bits, and beside the pools the entry `snapshot_block`. What is
written is read back but for these words (`loadSnapshot_saveSnapshot`). The order
of keys that `sort_keys` gives the text is not modelled: nothing reads it. -/
namespace CreamBots.Builders.Liquidity
open Data

abbrev Snapshot := Dict Address TickMaps

/-! ### The file -/

/-- A key of the top-level object. No address is spelled `snapshot_block`. -/
inductive SnapshotKey where
  | snapshotBlock
  | pool (address : Address)
deriving DecidableEq

/-- The entry of a pool, with the keys as text. -/
structure JsonMaps where
  tickData : Dict String LiquidityAtTick
  tickBitmap : Dict String BitmapAtWord

inductive SnapshotValue where
  | block (n : Nat)
  | maps (json : JsonMaps)

abbrev SnapshotFile := Dict SnapshotKey SnapshotValue

/-! ### Writing -/

/-- Integer keys become their decimal text. -/
def saveKeys {α : Type} (d : Dict Int α) : Dict String α :=
  Dict.ofList (d.items.map fun p => (p.1.repr, p.2))

/-- `if value.bitmap`. -/
def TickMaps.tidy (maps : TickMaps) : TickMaps :=
  {maps with tickBitmap := maps.tickBitmap.filterValues fun value => decide (value.bitmap ≠ 0)}

def saveMaps (maps : TickMaps) : JsonMaps where
  tickData := saveKeys maps.tickData
  tickBitmap := saveKeys maps.tidy.tickBitmap

def saveSnapshot (snapshot : Snapshot) (newestBlock : Nat) : SnapshotFile :=
  (Dict.ofList (snapshot.items.map fun p =>
    (SnapshotKey.pool p.1, SnapshotValue.maps (saveMaps p.2)))).set .snapshotBlock
      (.block newestBlock)

/-! ### Loading -/

/-- `int(k)` for every key. -/
def loadKeys {α : Type} (d : Dict String α) : Except PyError (Dict Int α) :=
  d.items.foldlM (fun (loaded : Dict Int α) p =>
    match p.1.toInt? with
    | some k => .ok (loaded.set k p.2)
    | none => .error .valueError) Dict.empty

def loadMaps (json : JsonMaps) : Except PyError TickMaps := do
  let tickBitmap ← loadKeys json.tickBitmap
  let tickData ← loadKeys json.tickData
  return ⟨tickBitmap, tickData⟩

/-- One round of the loop over the loaded object; `snapshot_block` has been popped. -/
def loadEntry (snapshot : Snapshot) : SnapshotKey × SnapshotValue → Except PyError Snapshot
  | (.pool address, .maps json) => do
    let maps ← loadMaps json
    return snapshot.set address maps
  | _ => .error .typeError

/-- The block the snapshot was taken at and the snapshot. A file that cannot be
read is taken for none. -/
def loadSnapshot (file : Option SnapshotFile) (newestBlock : Nat) :
    Except PyError (Option Nat × Snapshot) :=
  match file with
  | none => .ok (none, Dict.empty)
  | some json =>
    match json.get? .snapshotBlock with
    | none => .error .keyError
    | some (.maps _) => .error .typeError
    | some (.block snapshotLastBlock) =>
      if snapshotLastBlock < newestBlock then do
        let snapshot ← (json.erase .snapshotBlock).items.foldlM loadEntry Dict.empty
        return (some snapshotLastBlock, snapshot)
      else .error (.assertionError s!"Aborting, snapshot block ({snapshotLastBlock}) is newer than current chain height ({newestBlock})")

/-! ### What is written is read back -/

theorem items_saveKeys {α : Type} (d : Dict Int α) :
    (saveKeys d).items = d.items.map fun p => (p.1.repr, p.2) := by
  apply Dict.items_ofList
  have h : (d.keys.map Int.repr).Nodup := d.nodup_keys.map fun a b hab => Int.repr_injective hab
  rw [Dict.keys, List.map_map] at h
  rw [List.map_map]
  exact h

theorem loadKeys_saveKeys {α : Type} (d : Dict Int α) : loadKeys (saveKeys d) = .ok d := by
  rw [loadKeys, items_saveKeys, List.foldlM_map,
    foldlM_ok (g := fun (loaded : Dict Int α) p => loaded.set p.1 p.2)]
  · exact congrArg Except.ok d.ofList_items
  · intro loaded p _
    rw [Int.toInt?_repr]

theorem loadMaps_saveMaps (maps : TickMaps) : loadMaps (saveMaps maps) = .ok maps.tidy := by
  rw [loadMaps, saveMaps, loadKeys_saveKeys, loadKeys_saveKeys]
  rfl

theorem items_saveSnapshot (snapshot : Snapshot) (newestBlock : Nat) :
    (saveSnapshot snapshot newestBlock).items =
      (snapshot.items.map fun p => (SnapshotKey.pool p.1, SnapshotValue.maps (saveMaps p.2))) ++
        [(.snapshotBlock, .block newestBlock)] := by
  have hnodup : (snapshot.items.map fun p =>
      (SnapshotKey.pool p.1, SnapshotValue.maps (saveMaps p.2))).map Prod.fst |>.Nodup := by
    have h : (snapshot.keys.map SnapshotKey.pool).Nodup :=
      snapshot.nodup_keys.map fun a b hab => by injection hab
    rw [Dict.keys, List.map_map] at h
    rw [List.map_map]
    exact h
  have hitems := Dict.items_ofList hnodup
  rw [saveSnapshot, Dict.items_set_of_not_mem, hitems]
  rw [Dict.keys, hitems]
  simp

theorem get?_saveSnapshot (snapshot : Snapshot) (newestBlock : Nat) :
    (saveSnapshot snapshot newestBlock).get? .snapshotBlock = some (.block newestBlock) :=
  Dict.get?_set_self ..

/-- A written snapshot is read back, its empty words gone. -/
theorem loadSnapshot_saveSnapshot (snapshot : Snapshot) {block newestBlock : Nat}
    (h : block < newestBlock) :
    loadSnapshot (some (saveSnapshot snapshot block)) newestBlock =
      .ok (some block, snapshot.mapValues TickMaps.tidy) := by
  have herase : ((saveSnapshot snapshot block).erase .snapshotBlock).items =
      snapshot.items.map fun p => (SnapshotKey.pool p.1, SnapshotValue.maps (saveMaps p.2)) := by
    show (saveSnapshot snapshot block).items.filter _ = _
    rw [items_saveSnapshot, List.filter_append, List.filter_eq_self.mpr]
    · simp
    · intro p hp
      obtain ⟨_, _, rfl⟩ := List.mem_map.mp hp
      rfl
  rw [loadSnapshot, get?_saveSnapshot]
  simp only [h, if_true]
  rw [herase, List.foldlM_map,
    foldlM_ok (g := fun (loaded : Snapshot) p => loaded.set p.1 p.2.tidy)]
  · have hset : snapshot.items.foldl
        (fun (loaded : Snapshot) p => loaded.set p.1 p.2.tidy) Dict.empty =
        Dict.ofList (snapshot.mapValues TickMaps.tidy).items := by
      show _ = List.foldl _ _ (snapshot.items.map _)
      rw [List.foldl_map]
    rw [hset, Dict.ofList_items]
    rfl
  · intro loaded p _
    rw [loadEntry, loadMaps_saveMaps]
    rfl

end CreamBots.Builders.Liquidity
