import CreamBots.Builders.LpFetcher
import CreamBots.Builders.ThreePool
import CreamBots.Builders.TwoPool
import Mathlib.Data.List.OfFn

/-! The data directory of one chain, under any schedule of the programs that fill it.

The LP fetchers extend the LP files and the path builders make arb files of them, each
when somebody runs it. LP files only grow (`grows_after`), so a builder that has got
through once gets through ever after, and an arb file is what the builder's last run
made of the files it found (`lastRun_of_file`, `written_of_build`). -/
namespace CreamBots.Builders.Toolchain
open Data

/-! ### The data directory -/

/-- The factories of the chain data, and the creations the node answers for each. -/
structure Chain where
  wrappedToken : Address
  factories : LpFetcher.Version → Nat
  factory : (v : LpFetcher.Version) → Fin (factories v) → LpFetcher.Factory
  names_injective : ∀ v, Function.Injective fun i => (factory v i).exchangeName
  factoryAddress : (v : LpFetcher.Version) → Fin (factories v) → Address
  creations : (v : LpFetcher.Version) → Fin (factories v) →
    EventLog (LpFetcher.Event.blockNumber (v := v))

inductive Builder where
  | arbs2Pool
  | arbs3Pool
deriving DecidableEq

/-- The files of the chain; one that does not exist is `none`. -/
structure DataDir (chain : Chain) (Id : Type) where
  lpFiles : (v : LpFetcher.Version) → Fin (chain.factories v) → Option (List PoolRecord)
  arbFiles : Builder → Option (Dict Id (ArbPath Id))

inductive Program (chain : Chain) where
  | lpFetcher (v : LpFetcher.Version) (runs : Fin (chain.factories v) → LpFetcher.Run)
  | builder (b : Builder)

/-- A loop that opens one file after the other; nothing if one does not exist. -/
def openFiles {α : Type} (files : List (Option α)) : Option (List α) := files.mapM id

namespace DataDir
variable {chain : Chain} {Id : Type}

def empty : DataDir chain Id := ⟨fun _ _ => none, fun _ => none⟩

def readLpFiles (dir : DataDir chain Id) (v : LpFetcher.Version) : Option (List (List PoolRecord)) :=
  openFiles (List.ofFn (dir.lpFiles v))

/-- An LP fetcher's loop over the factories. A request that raises ends the program. -/
def fetch (v : LpFetcher.Version) (runs : Fin (chain.factories v) → LpFetcher.Run) :
    List (Fin (chain.factories v)) → (Fin (chain.factories v) → Option (List PoolRecord)) →
    Fin (chain.factories v) → Option (List PoolRecord)
  | [], files => files
  | i :: rest, files =>
    let node := chain.creations v i
    let fetched := Function.update files i
      (LpFetcher.fileAfter node (chain.factory v i) (files i) (runs i))
    if (LpFetcher.main node (chain.factory v i) (files i) (runs i)).ending = .raised then fetched
    else fetch v runs rest fetched

section Run
variable (M : Multigraph Address ThreePool.EdgeData) [DecidableEq Id] (keccak : List UInt8 → Id)

/-- What a path builder writes; nothing if it raises. -/
def build (dir : DataDir chain Id) (b : Builder) : Option (Dict Id (ArbPath Id)) := do
  let v2Files ← dir.readLpFiles .v2
  let v3Files ← dir.readLpFiles .v3
  match b with
  | .arbs2Pool => some (TwoPool.main keccak chain.wrappedToken v2Files v3Files)
  | .arbs3Pool => (ThreePool.main M keccak chain.wrappedToken v2Files v3Files).toOption

def step (dir : DataDir chain Id) : Program chain → DataDir chain Id
  | .lpFetcher v runs =>
    let fetched := fetch v runs (List.finRange (chain.factories v)) (dir.lpFiles v)
    {dir with lpFiles := Function.update dir.lpFiles v fetched}
  | .builder b =>
    -- A builder that raises leaves the file of an earlier run as it is.
    let written := (dir.build M keccak b).or (dir.arbFiles b)
    {dir with arbFiles := Function.update dir.arbFiles b written}

/-- The directory after some programs, the first of which found it empty. -/
def after (programs : List (Program chain)) : DataDir chain Id :=
  programs.foldl (fun dir program => dir.step M keccak program) empty

end Run

/-- The records of the LP files of one version. -/
def content (dir : DataDir chain Id) (v : LpFetcher.Version) : List PoolRecord :=
  (List.ofFn fun i => (dir.lpFiles v i).getD []).flatten

def records (dir : DataDir chain Id) : List PoolRecord := dir.content .v2 ++ dir.content .v3

end DataDir

namespace Chain
variable (chain : Chain)

/-- The records of all pools that the factories ever create. -/
def created (v : LpFetcher.Version) : List PoolRecord :=
  (List.ofFn fun i => (chain.creations v i).history.map ((chain.factory v i).record v)).flatten

/-- What the factories promise: two tokens for a pool, one pair of tokens and one
version for an address. -/
structure Genuine : Prop where
  consistent : Consistent (chain.created .v2 ++ chain.created .v3)
  separate : ∀ r ∈ chain.created .v2, ∀ r' ∈ chain.created .v3, r.poolAddress ≠ r'.poolAddress

end Chain

/-- The cycles that a builder looks for. -/
def Builder.IsCycle : Builder → List PoolRecord → Address → List Address → Prop
  | .arbs2Pool => TwoPool.IsCycle
  | .arbs3Pool => ThreePool.IsCycle

def Builder.length : Builder → Nat
  | .arbs2Pool => 2
  | .arbs3Pool => 3

/-! ### LP files only grow -/

theorem openFiles_eq_some {α : Type} {files : List (Option α)} {contents : List α} :
    openFiles files = some contents ↔ files = contents.map some := by
  unfold openFiles
  induction files generalizing contents with
  | nil => cases contents <;> simp
  | cons file files ih =>
    cases file with
    | none => cases contents <;> simp
    | some content =>
      cases contents with
      | nil => simp [Option.bind_eq_some_iff]
      | cons first rest => simp [Option.bind_eq_some_iff, ih, and_comm]

/-- What a fetcher's work on one factory keeps of its file, the whole loop keeps. -/
theorem fetch_keeps {chain : Chain} {v : LpFetcher.Version}
    {Q : Fin (chain.factories v) → Option (List PoolRecord) → Prop}
    (h : ∀ i file run, Q i file →
      Q i (LpFetcher.fileAfter (chain.creations v i) (chain.factory v i) file run))
    (runs : Fin (chain.factories v) → LpFetcher.Run) (order : List (Fin (chain.factories v))) :
    ∀ files, (∀ i, Q i (files i)) → ∀ i, Q i (DataDir.fetch v runs order files i) := by
  induction order with
  | nil => exact fun _ hfiles => hfiles
  | cons j rest ih =>
    intro files hfiles
    have hround : ∀ i, Q i (Function.update files j (LpFetcher.fileAfter (chain.creations v j)
        (chain.factory v j) (files j) (runs j)) i) := by
      intro i
      by_cases hi : i = j
      · subst hi
        rw [Function.update_self]
        exact h i _ _ (hfiles i)
      · rw [Function.update_of_ne hi]
        exact hfiles i
    rw [DataDir.fetch]
    split
    · exact hround
    · exact ih _ hround

variable {chain : Chain} {Id : Type} {dir dir' : DataDir chain Id} {v : LpFetcher.Version}

section Grow
variable {M : Multigraph Address ThreePool.EdgeData} [DecidableEq Id] {keccak : List UInt8 → Id}

/-- Every LP file is one that a fetcher of its factory has left. -/
def DataDir.Scanned (dir : DataDir chain Id) : Prop :=
  ∀ v i, LpFetcher.FileScanned (chain.creations v i) (chain.factory v i) (dir.lpFiles v i)

def DataDir.Grows (dir dir' : DataDir chain Id) : Prop :=
  ∀ v i, LpFetcher.Grows (dir.lpFiles v i) (dir'.lpFiles v i)

variable (M keccak) in
/-- So every program keeps it. -/
theorem keeps_step {Q : (v : LpFetcher.Version) → Fin (chain.factories v) →
      Option (List PoolRecord) → Prop}
    (h : ∀ v i file run, Q v i file →
      Q v i (LpFetcher.fileAfter (chain.creations v i) (chain.factory v i) file run))
    (hdir : ∀ v i, Q v i (dir.lpFiles v i)) (program : Program chain) (v : LpFetcher.Version)
    (i : Fin (chain.factories v)) : Q v i ((dir.step M keccak program).lpFiles v i) := by
  cases program with
  | builder b => exact hdir v i
  | lpFetcher w runs =>
    show Q v i (Function.update dir.lpFiles w _ v i)
    by_cases hv : v = w
    · subst hv
      rw [Function.update_self]
      exact fetch_keeps (h v) runs _ _ (hdir v) i
    · rw [Function.update_of_ne hv]
      exact hdir v i

theorem DataDir.Scanned.step (h : dir.Scanned) (program : Program chain) :
    (dir.step M keccak program).Scanned :=
  keeps_step M keccak (Q := fun v i file =>
      LpFetcher.FileScanned (chain.creations v i) (chain.factory v i) file)
    (fun _ _ _ run hfile => LpFetcher.fileScanned_after hfile run) h program

theorem DataDir.Grows.step (h : dir.Grows dir') (program : Program chain) :
    dir.Grows (dir'.step M keccak program) :=
  keeps_step M keccak (Q := fun v i file => LpFetcher.Grows (dir.lpFiles v i) file)
    (fun _ _ file run hfile => hfile.trans (LpFetcher.grows_fileAfter _ _ file run)) h program

theorem arbFiles_step_self (dir : DataDir chain Id) (b : Builder) :
    (dir.step M keccak (.builder b)).arbFiles b = (dir.build M keccak b).or (dir.arbFiles b) := by
  simp [DataDir.step]

theorem arbFiles_step_of_ne (dir : DataDir chain Id) {b b' : Builder} (h : b' ≠ b) :
    (dir.step M keccak (.builder b)).arbFiles b' = dir.arbFiles b' := by
  simp [DataDir.step, h]

theorem after_concat (programs : List (Program chain)) (program : Program chain) :
    DataDir.after M keccak (programs ++ [program]) =
      (DataDir.after M keccak programs).step M keccak program := by
  rw [DataDir.after, List.foldl_append]
  rfl

variable (M keccak) in
theorem scanned_after (programs : List (Program chain)) :
    (DataDir.after M keccak programs).Scanned := by
  induction programs using List.reverseRecOn with
  | nil => exact fun v i content h => (by cases h)
  | append_singleton programs program ih =>
    rw [after_concat]
    exact ih.step program

variable (M keccak) in
/-- What is listed stays listed, in its place. -/
theorem grows_after (programs more : List (Program chain)) :
    (DataDir.after M keccak programs).Grows (DataDir.after M keccak (programs ++ more)) := by
  induction more using List.reverseRecOn with
  | nil =>
    rw [List.append_nil]
    exact fun v i => LpFetcher.Grows.refl _
  | append_singleton more program ih =>
    rw [← List.append_assoc, after_concat]
    exact ih.step program

end Grow

/-! ### What the LP files list -/

theorem mem_content {r : PoolRecord} :
    r ∈ dir.content v ↔ ∃ i file, dir.lpFiles v i = some file ∧ r ∈ file := by
  simp only [DataDir.content, List.mem_flatten, List.mem_ofFn]
  constructor
  · intro hmem
    obtain ⟨_, ⟨i, rfl⟩, hr⟩ := hmem
    cases hfile : dir.lpFiles v i with
    | none =>
      rw [hfile] at hr
      cases hr
    | some file =>
      rw [hfile] at hr
      exact ⟨i, file, hfile, hr⟩
  · intro hmem
    obtain ⟨i, file, hfile, hr⟩ := hmem
    exact ⟨_, ⟨i, rfl⟩, by rw [hfile]; exact hr⟩

/-- A loop over the factories opens every file if there is one for each. -/
theorem exists_readLpFiles :
    (∃ files, dir.readLpFiles v = some files) ↔ ∀ i, ∃ file, dir.lpFiles v i = some file := by
  simp only [DataDir.readLpFiles, openFiles_eq_some]
  constructor
  · intro hread i
    obtain ⟨files, hfiles⟩ := hread
    have hmem : dir.lpFiles v i ∈ files.map some := hfiles ▸ List.mem_ofFn.mpr ⟨i, rfl⟩
    obtain ⟨file, _, hfile⟩ := List.mem_map.mp hmem
    exact ⟨file, hfile.symm⟩
  · intro hall
    choose file hfile using hall
    refine ⟨List.ofFn file, ?_⟩
    rw [List.map_ofFn]
    exact congrArg List.ofFn (funext hfile)

theorem flatten_readLpFiles {files : List (List PoolRecord)} (h : dir.readLpFiles v = some files) :
    files.flatten = dir.content v := by
  have hfiles := openFiles_eq_some.mp h
  have hall : List.ofFn (fun i => (dir.lpFiles v i).getD []) = files := by
    have hmap := congrArg (List.map fun file => file.getD []) hfiles
    rw [List.map_ofFn, List.map_map] at hmap
    exact hmap.trans (List.map_id files)
  rw [DataDir.content, hall]

theorem DataDir.Scanned.content_subset (h : dir.Scanned) : dir.content v ⊆ chain.created v := by
  intro r hr
  obtain ⟨i, file, hfile, hmem⟩ := mem_content.mp hr
  obtain ⟨b, hb⟩ := h v i file hfile
  obtain ⟨e, he, _, rfl⟩ := hb.real r hmem
  exact List.mem_flatten.mpr ⟨_, List.mem_ofFn.mpr ⟨i, rfl⟩, List.mem_map_of_mem he⟩

theorem DataDir.Grows.content_subset (h : dir.Grows dir') : dir.content v ⊆ dir'.content v := by
  intro r hr
  obtain ⟨i, file, hfile, hmem⟩ := mem_content.mp hr
  obtain ⟨file', hfile', hprefix⟩ := h v i file hfile
  exact mem_content.mpr ⟨i, file', hfile', hprefix.subset hmem⟩

theorem DataDir.Grows.readLpFiles (h : dir.Grows dir') {files : List (List PoolRecord)}
    (hread : dir.readLpFiles v = some files) : ∃ files', dir'.readLpFiles v = some files' := by
  rw [exists_readLpFiles]
  intro i
  obtain ⟨file, hfile⟩ := exists_readLpFiles.mp ⟨files, hread⟩ i
  obtain ⟨file', hfile', _⟩ := h v i file hfile
  exact ⟨file', hfile'⟩

/-! ### What the builders write -/

section Build
variable {M : Multigraph Address ThreePool.EdgeData} [DecidableEq Id] {keccak : List UInt8 → Id}
  {wrappedToken : Address} {v2Files v3Files : List (List PoolRecord)} {paths : Dict Id (ArbPath Id)}
  {b : Builder} {path : List Address}

theorem Builder.IsCycle.mono {records records' : List PoolRecord} (hle : records ⊆ records')
    (h : b.IsCycle records wrappedToken path) : b.IsCycle records' wrappedToken path := by
  cases b with
  | arbs2Pool =>
    obtain ⟨p, q, x, hpath, hne, hx, hp, hq⟩ := h
    exact ⟨p, q, x, hpath, hne, hx, hp.mono hle, hq.mono hle⟩
  | arbs3Pool =>
    obtain ⟨p₁, p₂, p₃, x, y, hpath, hne, hx, hy, h₁, h₂, h₃⟩ := h
    exact ⟨p₁, p₂, p₃, x, y, hpath, hne, hx, hy, h₁.mono hle, h₂.mono hle, h₃.mono hle⟩

/-- What is told of an arb file by the LP files its builder has read. -/
structure Written (keccak : List UInt8 → Id) (dir : DataDir chain Id) (b : Builder)
    (paths : Dict Id (ArbPath Id)) : Prop where
  cycles : ∀ path, (∃ e ∈ paths.values, e.path = path) ↔
    b.IsCycle dir.records chain.wrappedToken path
  writtenBy : WrittenBy keccak b.length paths

/-- No two cycles of pools of the chain have one id. -/
def Chain.CollisionFree (chain : Chain) (keccak : List UInt8 → Id) : Prop :=
  Builders.CollisionFree keccak
    {path | ∃ b : Builder, b.IsCycle (chain.created .v2 ++ chain.created .v3) chain.wrappedToken path}

omit [DecidableEq Id] in
theorem DataDir.Scanned.records_subset (h : dir.Scanned) :
    dir.records ⊆ chain.created .v2 ++ chain.created .v3 :=
  List.append_subset.mpr ⟨List.subset_append_of_subset_left _ h.content_subset,
    List.subset_append_of_subset_right _ h.content_subset⟩

omit [DecidableEq Id] in
theorem DataDir.Scanned.separate (h : dir.Scanned) (hgenuine : chain.Genuine)
    (h2 : dir.readLpFiles .v2 = some v2Files) (h3 : dir.readLpFiles .v3 = some v3Files) :
    ThreePool.Separate v2Files v3Files := by
  intro r hr r' hr'
  rw [flatten_readLpFiles h2] at hr
  rw [flatten_readLpFiles h3] at hr'
  exact hgenuine.separate r (h.content_subset hr) r' (h.content_subset hr')

omit [DecidableEq Id] in
theorem flatten_read (h2 : dir.readLpFiles .v2 = some v2Files)
    (h3 : dir.readLpFiles .v3 = some v3Files) : (v2Files ++ v3Files).flatten = dir.records := by
  rw [List.flatten_append, flatten_readLpFiles h2, flatten_readLpFiles h3, DataDir.records]

/-- A builder that gets through has read all LP files. -/
theorem build_eq_some (h : dir.build M keccak b = some paths) :
    ∃ v2Files v3Files, dir.readLpFiles .v2 = some v2Files ∧ dir.readLpFiles .v3 = some v3Files ∧
      (b = .arbs2Pool → paths = TwoPool.main keccak chain.wrappedToken v2Files v3Files) ∧
      (b = .arbs3Pool →
        ThreePool.main M keccak chain.wrappedToken v2Files v3Files = .ok paths) := by
  obtain ⟨v2Files, h2, h⟩ := Option.bind_eq_some_iff.mp h
  obtain ⟨v3Files, h3, h⟩ := Option.bind_eq_some_iff.mp h
  refine ⟨v2Files, v3Files, h2, h3, ?_⟩
  cases b with
  | arbs2Pool => exact ⟨fun _ => (Option.some.inj h).symm, fun hb => (by cases hb)⟩
  | arbs3Pool =>
    refine ⟨fun hb => (by cases hb), fun _ => ?_⟩
    cases hmain : ThreePool.main M keccak chain.wrappedToken v2Files v3Files with
    | error e =>
      rw [hmain] at h
      cases h
    | ok paths' =>
      rw [hmain] at h
      cases h
      rfl

theorem written_of_build (hgenuine : chain.Genuine) (hfree : chain.CollisionFree keccak)
    (hdir : dir.Scanned) (h : dir.build M keccak b = some paths) : Written keccak dir b paths := by
  obtain ⟨v2Files, v3Files, h2, h3, htwo, hthree⟩ := build_eq_some h
  have hrecords := flatten_read h2 h3
  have hc : Consistent (v2Files ++ v3Files).flatten := by
    rw [hrecords]
    exact hgenuine.consistent.mono hdir.records_subset
  have hfree' : Builders.CollisionFree keccak
      {path | b.IsCycle (v2Files ++ v3Files).flatten chain.wrappedToken path} := by
    rw [hrecords]
    exact hfree.mono fun path hpath => ⟨b, hpath.mono hdir.records_subset⟩
  have hsep := hdir.separate hgenuine h2 h3
  cases b with
  | arbs2Pool =>
    obtain rfl := htwo rfl
    exact ⟨fun path => hrecords ▸ TwoPool.main_paths hc hfree', TwoPool.main_writtenBy ..⟩
  | arbs3Pool =>
    refine ⟨fun path => hrecords ▸ ThreePool.main_paths hc hsep hfree' (hthree rfl), ?_⟩
    obtain ⟨paths', hmain, hwritten⟩ :=
      ThreePool.main_writtenBy M keccak (ThreePool.wrapped_of_main_ok (hthree rfl)) hc hsep
    cases (hthree rfl).symm.trans hmain
    exact hwritten

/-- A builder that got through once gets through on files that have grown since. -/
theorem DataDir.Grows.build (hgrows : dir.Grows dir') (hgenuine : chain.Genuine)
    (hdir : dir'.Scanned) (h : dir.build M keccak b = some paths) :
    ∃ paths', dir'.build M keccak b = some paths' := by
  obtain ⟨v2Files, v3Files, h2, h3, _, hthree⟩ := build_eq_some h
  obtain ⟨v2Files', h2'⟩ := hgrows.readLpFiles h2
  obtain ⟨v3Files', h3'⟩ := hgrows.readLpFiles h3
  cases b with
  | arbs2Pool =>
    exact ⟨_, Option.bind_eq_some_iff.mpr ⟨_, h2', Option.bind_eq_some_iff.mpr ⟨_, h3', rfl⟩⟩⟩
  | arbs3Pool =>
    obtain ⟨r, hr, hw⟩ := ThreePool.wrapped_of_main_ok (hthree rfl)
    have hr' : r ∈ (v2Files' ++ v3Files').flatten := by
      rw [flatten_read h2' h3']
      rw [flatten_read h2 h3] at hr
      rcases List.mem_append.mp hr with hr | hr
      · exact List.mem_append_left _ (hgrows.content_subset hr)
      · exact List.mem_append_right _ (hgrows.content_subset hr)
    have hc : Consistent (v2Files' ++ v3Files').flatten := by
      rw [flatten_read h2' h3']
      exact hgenuine.consistent.mono hdir.records_subset
    obtain ⟨paths', hmain, _⟩ := ThreePool.main_writtenBy M keccak ⟨r, hr', hw⟩ hc
      (hdir.separate hgenuine h2' h3')
    refine ⟨paths', Option.bind_eq_some_iff.mpr ⟨_, h2', Option.bind_eq_some_iff.mpr ⟨_, h3', ?_⟩⟩⟩
    simp only [hmain]
    rfl

/-- `before` are the programs that ran before the builder's last run. -/
def LastRun (b : Builder) (programs before : List (Program chain)) : Prop :=
  ∃ later, programs = before ++ .builder b :: later ∧ .builder b ∉ later

theorem LastRun.concat {programs before : List (Program chain)} (h : LastRun b programs before)
    {program : Program chain} (hne : program ≠ .builder b) :
    LastRun b (programs ++ [program]) before := by
  obtain ⟨later, rfl, hlater⟩ := h
  refine ⟨later ++ [program], by simp, ?_⟩
  simp [hlater, Ne.symm hne]

/-- An arb file is what its builder's last run made of the LP files there were then. -/
theorem lastRun_of_file (hgenuine : chain.Genuine) (programs : List (Program chain))
    (h : (DataDir.after M keccak programs).arbFiles b = some paths) :
    ∃ before, LastRun b programs before ∧
      (DataDir.after M keccak before).build M keccak b = some paths := by
  induction programs using List.reverseRecOn with
  | nil => cases h
  | append_singleton programs program ih =>
    rw [after_concat] at h
    cases program with
    | lpFetcher v runs =>
      obtain ⟨before, hlast, hbuild⟩ := ih h
      exact ⟨before, hlast.concat (by simp), hbuild⟩
    | builder b' =>
      by_cases hb : b' = b
      · subst hb
        rw [arbFiles_step_self] at h
        cases hbuild : (DataDir.after M keccak programs).build M keccak b' with
        | some paths' =>
          rw [hbuild, Option.some_or] at h
          exact ⟨programs, ⟨[], rfl, List.not_mem_nil⟩, hbuild.trans h⟩
        | none =>
          -- A run that did not get through comes before any that did.
          rw [hbuild, Option.none_or] at h
          obtain ⟨before, ⟨later, rfl, _⟩, hbefore⟩ := ih h
          obtain ⟨paths', hpaths'⟩ := (grows_after M keccak before _).build hgenuine
            (scanned_after M keccak _) hbefore
          rw [hbuild] at hpaths'
          cases hpaths'
      · rw [arbFiles_step_of_ne _ (Ne.symm hb)] at h
        obtain ⟨before, hlast, hbuild⟩ := ih h
        exact ⟨before, hlast.concat (by simpa using hb), hbuild⟩

end Build

/-! ### Up to date -/

/-- Nothing stops the run, and it is at block `n` or later. -/
structure Reaches (n : Nat) (run : LpFetcher.Run) : Prop where
  signal : run.signal = none
  failure : run.failure = none
  height : n ≤ run.currentBlock

/-- The records of the pools that were created after the block in which their factory was
deployed, up to block `n`. -/
def Chain.createdAfterDeployment (chain : Chain) (n : Nat) (v : LpFetcher.Version) : List PoolRecord :=
  (List.ofFn fun i => ((chain.creations v i).history.filter fun e =>
    decide ((chain.factory v i).factoryDeploymentBlock < e.blockNumber ∧ e.blockNumber ≤ n)).map
      ((chain.factory v i).record v)).flatten

/-- A fetcher that nothing stops goes to every factory once. -/
theorem fetch_undisturbed {v : LpFetcher.Version} {runs : Fin (chain.factories v) → LpFetcher.Run}
    {n : Nat} (h : ∀ i, Reaches n (runs i)) (i : Fin (chain.factories v))
    (order : List (Fin (chain.factories v))) : ∀ files, order.Nodup →
    DataDir.fetch v runs order files i = if i ∈ order then
      LpFetcher.fileAfter (chain.creations v i) (chain.factory v i) (files i) (runs i)
    else files i := by
  induction order with
  | nil => exact fun _ _ => rfl
  | cons j rest ih =>
    intro files hnodup
    obtain ⟨hj, hrest⟩ := List.nodup_cons.mp hnodup
    have hfinished := LpFetcher.main_finished (chain.creations v j) (chain.factory v j) (files j)
      (runs j) (h j).signal (h j).failure
    rw [DataDir.fetch, if_neg (by rw [hfinished]; decide), ih _ hrest]
    by_cases hi : i = j
    · subst hi
      rw [if_neg hj, if_pos (List.mem_cons_self ..), Function.update_self]
    · rw [Function.update_of_ne hi]
      simp [hi]

/-- The LP files of one version list every pool created up to block `n`, after the block in which
its factory was deployed. -/
def DataDir.Lists (dir : DataDir chain Id) (n : Nat) (v : LpFetcher.Version) : Prop :=
  chain.createdAfterDeployment n v ⊆ dir.content v

theorem records_of_lists {n : Nat} (h : ∀ v, dir.Lists n v) :
    chain.createdAfterDeployment n .v2 ++ chain.createdAfterDeployment n .v3 ⊆ dir.records :=
  List.append_subset.mpr ⟨List.subset_append_of_subset_left _ (h .v2),
    List.subset_append_of_subset_right _ (h .v3)⟩

theorem lists_of_file {n : Nat} (h : ∀ i, ∀ e ∈ (chain.creations v i).history,
    (chain.factory v i).factoryDeploymentBlock < e.blockNumber → e.blockNumber ≤ n →
      (chain.factory v i).record v e ∈ (dir.lpFiles v i).getD []) : dir.Lists n v := by
  intro r hr
  simp only [Chain.createdAfterDeployment, List.mem_flatten, List.mem_ofFn] at hr
  obtain ⟨_, ⟨i, rfl⟩, hr⟩ := hr
  obtain ⟨e, he, rfl⟩ := List.mem_map.mp hr
  obtain ⟨hmem, hblock⟩ := List.mem_filter.mp he
  obtain ⟨hlow, hhigh⟩ := of_decide_eq_true hblock
  exact List.mem_flatten.mpr ⟨_, List.mem_ofFn.mpr ⟨i, rfl⟩, h i e hmem hlow hhigh⟩

section Listed
variable [DecidableEq Id] {M : Multigraph Address ThreePool.EdgeData} {keccak : List UInt8 → Id}
  {n : Nat}

/-- An undisturbed run of a fetcher at block `n` lists every pool created until then. -/
theorem DataDir.Scanned.lists_step (hdir : dir.Scanned)
    {runs : Fin (chain.factories v) → LpFetcher.Run} (h : ∀ i, Reaches n (runs i)) :
    (dir.step M keccak (.lpFetcher v runs)).Lists n v := by
  apply lists_of_file
  intro i e he hlow hhigh
  have hfile : (dir.step M keccak (.lpFetcher v runs)).lpFiles v i =
      LpFetcher.fileAfter (chain.creations v i) (chain.factory v i) (dir.lpFiles v i) (runs i) := by
    simp only [DataDir.step, Function.update_self]
    rw [fetch_undisturbed h i _ _ (List.nodup_finRange _), if_pos (List.mem_finRange i)]
  obtain ⟨b, hb, hreach⟩ := (LpFetcher.main_sound (hdir v i) (runs i)).held
  have hfinished := LpFetcher.main_finished (chain.creations v i) (chain.factory v i)
    (dir.lpFiles v i) (runs i) (h i).signal (h i).failure
  rw [hfile, LpFetcher.main_held]
  exact hb.complete e he hlow (hhigh.trans ((h i).height.trans (hreach hfinished)))

/-- `before` is a schedule in which both fetchers have had an undisturbed run at block
`n` or later. -/
def Fetched (n : Nat) (before : List (Program chain)) : Prop :=
  ∀ v, ∃ earlier runs later, before = earlier ++ .lpFetcher v runs :: later ∧ ∀ i, Reaches n (runs i)

theorem Fetched.lists {before : List (Program chain)} (h : Fetched n before) (v : LpFetcher.Version) :
    (DataDir.after M keccak before).Lists n v := by
  obtain ⟨earlier, runs, later, rfl, hruns⟩ := h v
  have hlists : ((DataDir.after M keccak earlier).step M keccak (.lpFetcher v runs)).Lists n v :=
    (scanned_after M keccak earlier).lists_step hruns
  rw [← after_concat] at hlists
  have hgrows := grows_after M keccak (earlier ++ [.lpFetcher v runs]) later
  rw [List.append_assoc, List.singleton_append] at hgrows
  exact List.Subset.trans hlists hgrows.content_subset

end Listed
end CreamBots.Builders.Toolchain
