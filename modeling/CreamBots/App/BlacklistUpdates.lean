import CreamBots.App.BlacklistService
import CreamBots.Data.Copies
import Mathlib.Data.Finset.Sort
import Mathlib.Data.String.Basic

/-! Updating the blacklists, over restarts.

The service has each blacklist as a set, empty until `load_blacklists` reads it from its
file, and `update_blacklist` writes the whole set over the file. No other file is touched
and nothing else comes into one. But an update before the blacklists have been loaded
leaves in the file only what this service was given: so an address stays blacklisted over
every sequence of calls and restarts exactly if whatever is older than a service is given
again to it, where it updates that blacklist unloaded (`blacklists_kept_iff`,
`blacklisted_address_dropped`). Both bots load first (`blacklists_kept_of_load`). -/
namespace CreamBots.App
open Data

inductive BlacklistType where
  | arbs
  | deployers
  | pools
  | tokens
  deriving DecidableEq

namespace BlacklistType

/-- The keys of `self.blacklists`. -/
def name : BlacklistType → String
  | arbs => "arbs"
  | deployers => "deployers"
  | pools => "pools"
  | tokens => "tokens"

theorem name_injective : Function.Injective name := by
  intro a b h
  cases a <;> cases b <;> first | rfl | exact absurd h (by decide)

/-- The order in which `load_blacklists` goes through them. -/
def all : List BlacklistType := [arbs, deployers, pools, tokens]

end BlacklistType

/-- JSON files with lists of strings, by the path below the package; `none` where there is
no file. -/
abbrev JsonFiles := List String → Option (List String)

/-- The order in which Python goes through a set. -/
structure SetOrder where
  list : Finset String → List String
  list_val : ∀ s, (list s : Multiset String) = s.val

theorem SetOrder.mem_list (setOrder : SetOrder) {s : Finset String} {a : String} :
    a ∈ setOrder.list s ↔ a ∈ s := by
  rw [← Multiset.mem_coe, setOrder.list_val]
  rfl

/-! ### The service -/

structure BlacklistService where
  chainName : String
  blacklists : BlacklistType → Finset String

/-- `self.data_dir / f"{self.chain_name}_blacklist_{blacklist_type}.json"`. -/
def blacklistFilepath (chainName : String) (blacklistType : BlacklistType) : List String :=
  ["data", chainName, chainName ++ "_blacklist_" ++ blacklistType.name ++ ".json"]

/-- The addresses in the file of a blacklist. -/
def blacklistFile (chainName : String) (files : JsonFiles) (blacklistType : BlacklistType) : List String :=
  loadBlacklist (files (blacklistFilepath chainName blacklistType))

def fileSets (chainName : String) (files : JsonFiles) (blacklistType : BlacklistType) : Set String :=
  {address | address ∈ blacklistFile chainName files blacklistType}

namespace BlacklistService

def init (chainName : String) : BlacklistService := ⟨chainName, fun _ => ∅⟩

def loadBlacklist (s : BlacklistService) (files : JsonFiles) (blacklistType : BlacklistType) :
    Finset String := (blacklistFile s.chainName files blacklistType).toFinset

def loadBlacklists (s : BlacklistService) (files : JsonFiles) : BlacklistService :=
  BlacklistType.all.foldl (fun s blacklistType =>
    {s with blacklists := Function.update s.blacklists blacklistType (s.loadBlacklist files blacklistType)}) s

/-- The set with the address, and the files with the whole of it. -/
def updateBlacklist (setOrder : SetOrder) (s : BlacklistService) (files : JsonFiles)
    (blacklistType : BlacklistType) (address : String) : BlacklistService × JsonFiles :=
  let blacklists := Function.update s.blacklists blacklistType (insert address (s.blacklists blacklistType))
  ({s with blacklists := blacklists},
    Function.update files (blacklistFilepath s.chainName blacklistType)
      (some (setOrder.list (blacklists blacklistType))))

def isBlacklisted (s : BlacklistService) (blacklistType : BlacklistType) (address : String) : Bool :=
  decide (address ∈ s.blacklists blacklistType)

theorem loadBlacklists_eq (s : BlacklistService) (files : JsonFiles) :
    s.loadBlacklists files = ⟨s.chainName, s.loadBlacklist files⟩ := by
  show BlacklistService.mk _ _ = _
  congr 1
  funext blacklistType
  cases blacklistType <;> rfl

/-- After loading, what is in the file is blacklisted. -/
theorem isBlacklisted_loadBlacklists {s : BlacklistService} {files : JsonFiles}
    {blacklistType : BlacklistType} {address : String} :
    (s.loadBlacklists files).isBlacklisted blacklistType address = true ↔
      address ∈ blacklistFile s.chainName files blacklistType := by
  rw [loadBlacklists_eq, isBlacklisted, decide_eq_true_iff]
  exact List.mem_toFinset

end BlacklistService

theorem blacklistFilepath_injective (chainName : String) :
    Function.Injective (blacklistFilepath chainName) := by
  intro a b h
  have hnames : chainName ++ "_blacklist_" ++ a.name ++ ".json" =
      chainName ++ "_blacklist_" ++ b.name ++ ".json" := by
    simpa [blacklistFilepath] using h
  rw [String.append_left_inj, String.append_right_inj] at hnames
  exact BlacklistType.name_injective hnames

/-! ### What the pools are loaded with -/

theorem loadBlacklist_map {α β : Type} (read : α → β) (file : Option (List α)) :
    loadBlacklist (file.map (List.map read)) = (loadBlacklist file).map read := by
  cases file <;> rfl

/-- The four files, with their entries read as ids of arbs and as addresses. -/
def readBlacklists {Id : Type} (readId : String → Id) (readAddress : String → Builders.Address)
    (chainName : String) (files : JsonFiles) : BlacklistFiles Id where
  arbs := (files (blacklistFilepath chainName .arbs)).map (List.map readId)
  deployers := (files (blacklistFilepath chainName .deployers)).map (List.map readAddress)
  pools := (files (blacklistFilepath chainName .pools)).map (List.map readAddress)
  tokens := (files (blacklistFilepath chainName .tokens)).map (List.map readAddress)

/-- The blacklists that `load_pools` tests against are those that the service loads. -/
theorem loadBlacklists_read {Id : Type} (readId : String → Id) (readAddress : String → Builders.Address)
    (chainName : String) (files : JsonFiles) :
    loadBlacklists (readBlacklists readId readAddress chainName files) =
      ⟨(blacklistFile chainName files .arbs).map readId,
        (blacklistFile chainName files .deployers).map readAddress,
        (blacklistFile chainName files .pools).map readAddress,
        (blacklistFile chainName files .tokens).map readAddress⟩ := by
  simp only [loadBlacklists, readBlacklists, blacklistFile, loadBlacklist_map]

/-! ### Calls and restarts -/

/-- A service, its files, and what it has set `bot_state.blacklists` to. -/
structure BlacklistHost where
  files : JsonFiles
  service : BlacklistService
  botBlacklists : Option (BlacklistType → Finset String)

/-- A restart, `load_blacklists` or `update_blacklist`. None of them awaits, so each is
over before the next. -/
abbrev BlacklistCall := CopyStep BlacklistType String

namespace BlacklistHost
variable (setOrder : SetOrder)

/-- The service is created, for a new `bot_state`. -/
def start (chainName : String) (files : JsonFiles) : BlacklistHost :=
  ⟨files, .init chainName, none⟩

def next (s : BlacklistHost) : BlacklistCall → BlacklistHost
  | .create => start s.service.chainName s.files
  | .load =>
    let service := s.service.loadBlacklists s.files
    ⟨s.files, service, some service.blacklists⟩
  | .update blacklistType address =>
    let updated := s.service.updateBlacklist setOrder s.files blacklistType address
    ⟨updated.2, updated.1, some updated.1.blacklists⟩

def run (s : BlacklistHost) (calls : List BlacklistCall) : BlacklistHost := calls.foldl (next setOrder) s

/-- What is in memory and what is in the files. -/
def copies (s : BlacklistHost) : Copies BlacklistType String :=
  ⟨fun blacklistType => ↑(s.service.blacklists blacklistType), fileSets s.service.chainName s.files⟩

variable {setOrder}

theorem chainName_next (s : BlacklistHost) (call : BlacklistCall) :
    (s.next setOrder call).service.chainName = s.service.chainName := by
  cases call <;> rfl

theorem chainName_run (s : BlacklistHost) (calls : List BlacklistCall) :
    (s.run setOrder calls).service.chainName = s.service.chainName :=
  List.foldlRecOn (motive := fun s' => s'.service.chainName = s.service.chainName) calls _ rfl
    fun s' hs' call _ => (chainName_next s' call).trans hs'

theorem copies_load (s : BlacklistHost) :
    (s.next setOrder .load).copies = s.copies.next .load := by
  have hmemory : (fun blacklistType =>
      (((s.service.loadBlacklists s.files).blacklists blacklistType : Finset String) : Set String)) =
        fileSets s.service.chainName s.files := by
    funext blacklistType
    rw [BlacklistService.loadBlacklists_eq]
    exact List.coe_toFinset _
  exact congrArg (Copies.mk · _) hmemory

/-- The file of another blacklist has another path. -/
theorem copies_update (s : BlacklistHost) (blacklistType : BlacklistType) (address : String) :
    (s.next setOrder (.update blacklistType address)).copies =
      s.copies.next (.update blacklistType address) := by
  have hmemory : (fun t => ((Function.update s.service.blacklists blacklistType
        (insert address (s.service.blacklists blacklistType)) t : Finset String) : Set String)) =
      Function.update (fun t => (s.service.blacklists t : Set String)) blacklistType
        (insert address ↑(s.service.blacklists blacklistType)) := by
    funext t
    by_cases ht : t = blacklistType
    · subst ht
      simp
    · simp [ht]
  have hfile : fileSets s.service.chainName (s.next setOrder (.update blacklistType address)).files =
      Function.update (fileSets s.service.chainName s.files) blacklistType
        (insert address ↑(s.service.blacklists blacklistType)) := by
    funext t
    by_cases ht : t = blacklistType
    · subst ht
      ext a
      simp [next, fileSets, blacklistFile, BlacklistService.updateBlacklist, App.loadBlacklist,
        setOrder.mem_list]
    · have hpath : blacklistFilepath s.service.chainName t ≠
          blacklistFilepath s.service.chainName blacklistType :=
        fun h => ht (blacklistFilepath_injective _ h)
      rw [Function.update_of_ne ht]
      simp [next, fileSets, blacklistFile, BlacklistService.updateBlacklist, Function.update_of_ne hpath]
  show Copies.mk _ _ = Copies.mk _ _
  rw [Function.update_self]
  exact congrArg₂ Copies.mk hmemory hfile

/-- The service and its files do what any copies do. -/
theorem copies_next (s : BlacklistHost) (call : BlacklistCall) :
    (s.next setOrder call).copies = s.copies.next call := by
  cases call with
  | create => simp [next, start, copies, Copies.next, BlacklistService.init]
  | load => exact copies_load s
  | update blacklistType address => exact copies_update s blacklistType address

theorem copies_run (s : BlacklistHost) (calls : List BlacklistCall) :
    (s.run setOrder calls).copies = s.copies.run calls := by
  induction calls generalizing s with
  | nil => rfl
  | cons call rest ih =>
    show ((s.next setOrder call).run setOrder rest).copies = (s.copies.next call).run rest
    rw [ih, copies_next]

/-- The files after a run from the creation of the service. -/
theorem copies_start_run (setOrder : SetOrder) (chainName : String) (files : JsonFiles)
    (calls : List BlacklistCall) : ((start chainName files).run setOrder calls).copies =
      (Copies.loaded (fileSets chainName files)).run (.create :: calls) := by
  have hstart : (start chainName files).copies =
      (Copies.loaded (fileSets chainName files)).next .create := by
    simp [start, copies, Copies.next, Copies.loaded, BlacklistService.init]
  rw [copies_run, hstart]
  rfl

theorem mem_file_run {chainName : String} {files : JsonFiles} {calls : List BlacklistCall}
    {blacklistType : BlacklistType} {address : String} :
    address ∈ blacklistFile chainName ((start chainName files).run setOrder calls).files blacklistType ↔
      address ∈ ((Copies.loaded (fileSets chainName files)).run (.create :: calls)).file
        blacklistType := by
  rw [← copies_start_run setOrder]
  show _ ↔ address ∈ blacklistFile ((start chainName files).run setOrder calls).service.chainName _ _
  rw [chainName_run]
  rfl

/-- The creation of the service gives nothing. -/
theorem given_fileSets {chainName : String} {files : JsonFiles} {calls : List BlacklistCall}
    {blacklistType : BlacklistType} {address : String} :
    Copies.Given (fileSets chainName files) (.create :: calls) blacklistType address ↔
      address ∈ blacklistFile chainName files blacklistType ∨ .update blacklistType address ∈ calls := by
  simp [Copies.Given, fileSets]

/-- Once the service has set the blacklists of the bot, they are its own. -/
theorem botBlacklists_run (chainName : String) (files : JsonFiles) (calls : List BlacklistCall) :
    ∀ blacklists ∈ ((start chainName files).run setOrder calls).botBlacklists,
      blacklists = ((start chainName files).run setOrder calls).service.blacklists := by
  refine List.foldlRecOn (motive := fun s : BlacklistHost =>
    ∀ blacklists ∈ s.botBlacklists, blacklists = s.service.blacklists) calls _ ?_ ?_
  · intro blacklists hbot
    cases hbot
  · intro s _ call _ blacklists hbot
    cases call <;> cases hbot <;> rfl

/-- Only the files of the four blacklists are written. -/
theorem files_run {chainName : String} (files : JsonFiles) (calls : List BlacklistCall)
    {path : List String} (hpath : ∀ blacklistType, path ≠ blacklistFilepath chainName blacklistType) :
    ((start chainName files).run setOrder calls).files path = files path := by
  have hrun := List.foldlRecOn (motive := fun s : BlacklistHost =>
    s.service.chainName = chainName ∧ s.files path = files path) calls (next setOrder)
      (b := start chainName files) ⟨rfl, rfl⟩ ?_
  · exact hrun.2
  · intro s hs call _
    obtain ⟨hname, hfile⟩ := hs
    refine ⟨(chainName_next s call).trans hname, ?_⟩
    cases call with
    | create => exact hfile
    | load => exact hfile
    | update blacklistType address =>
      have hne : path ≠ blacklistFilepath s.service.chainName blacklistType := by
        rw [hname]
        exact hpath blacklistType
      exact (Function.update_of_ne hne ..).trans hfile

end BlacklistHost

/-- Each file has the addresses that it had and those that it was updated with, and no
other. -/
def BlacklistsKept (setOrder : SetOrder) (chainName : String) (files : JsonFiles)
    (calls : List BlacklistCall) : Prop :=
  ∀ (blacklistType : BlacklistType) (address : String),
    address ∈ blacklistFile chainName ((BlacklistHost.start chainName files).run setOrder calls).files
        blacklistType ↔
      address ∈ blacklistFile chainName files blacklistType ∨ .update blacklistType address ∈ calls

theorem blacklistsKept_iff_not_lost {setOrder : SetOrder} {chainName : String} {files : JsonFiles}
    {calls : List BlacklistCall} : BlacklistsKept setOrder chainName files calls ↔
      ∀ blacklistType address,
        ¬Copies.Lost (fileSets chainName files) (.create :: calls) blacklistType address := by
  simp only [BlacklistsKept, BlacklistHost.mem_file_run, ← BlacklistHost.given_fileSets]
  exact Copies.file_run_iff

/-- **A blacklisted address stays blacklisted exactly if no service updates, without having
loaded, a blacklist with older addresses that it is not given again.** -/
theorem blacklists_kept_iff (setOrder : SetOrder) (chainName : String) (files : JsonFiles)
    (calls : List BlacklistCall) : BlacklistsKept setOrder chainName files calls ↔
      ∀ (before since : List BlacklistCall) (blacklistType : BlacklistType) (address : String)
        (after : List BlacklistCall),
        .create :: calls = before ++ .create :: since ++ .update blacklistType address :: after →
        .load ∉ since → ∀ older : String, older ∈ blacklistFile chainName files blacklistType ∨
            .update blacklistType older ∈ before →
          .update blacklistType older ∈ since ++ .update blacklistType address :: after := by
  rw [blacklistsKept_iff_not_lost]
  constructor
  · intro h before since blacklistType address after hcalls hload older holder
    by_contra hupdate
    exact h blacklistType older ⟨before, since, address, after, hcalls, hload, holder, hupdate⟩
  · intro h blacklistType older hlost
    obtain ⟨before, since, address, after, hcalls, hload, holder, hupdate⟩ := hlost
    exact hupdate (h before since blacklistType address after hcalls hload older holder)

/-- Nothing is lost where every service loads before it updates. -/
theorem blacklists_kept_of_load (setOrder : SetOrder) (chainName : String) (files : JsonFiles)
    {calls : List BlacklistCall} (hload : ∀ (before since : List BlacklistCall)
      (blacklistType : BlacklistType) (address : String) (after : List BlacklistCall),
      .create :: calls = before ++ .create :: since ++ .update blacklistType address :: after →
        .load ∈ since) : BlacklistsKept setOrder chainName files calls :=
  blacklistsKept_iff_not_lost.mpr fun _ _ => Copies.not_lost_of_load hload

/-! ### A restart without loading -/

def SetOrder.sorted : SetOrder := ⟨fun s => s.sort, fun s => s.sort_eq (· ≤ ·)⟩

/-- The token 0a is in the file, and a new service is given 0b. -/
theorem blacklisted_address_dropped : ¬∀ (setOrder : SetOrder) (chainName : String)
    (files : JsonFiles) (calls : List BlacklistCall),
    BlacklistsKept setOrder chainName files calls := by
  intro h
  have hkept := (h .sorted "base" (fun _ => some ["0a"]) [.update .tokens "0b"] .tokens "0a").mpr
    (.inl (List.mem_singleton_self _))
  have hwritten : SetOrder.sorted.list (insert "0b" ∅) = ["0b"] := Finset.sort_singleton ..
  change "0a" ∈ SetOrder.sorted.list (insert "0b" ∅) at hkept
  rw [hwritten] at hkept
  exact absurd hkept (by decide)

end CreamBots.App
