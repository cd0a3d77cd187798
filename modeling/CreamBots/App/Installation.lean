import CreamBots.App.BlacklistUpdates
import CreamBots.App.Toolchain

/-! An installation of the bot, from its first program on.

Somebody runs the fetchers and the builders, services are created and load, and addresses
are blacklisted, in any order. Then the bot is started. It trades the cycles of the pools
that were listed when each builder last ran, less those that anything ever blacklisted
stands against, except for what an update by a service that had not loaded has dropped
from its file (`ever_blacklisted_not_traded`). -/
namespace CreamBots.App.Toolchain
open Data Builders Builders.Toolchain

/-- The data directory, and the files of the blacklists with the service that last was
created. -/
structure Installation (chain : Chain) (Id : Type) where
  dir : DataDir chain Id
  blacklisting : BlacklistHost

/-- A program is run, or a service is created or called. -/
inductive Event (chain : Chain) where
  | program (program : Program chain)
  | call (call : BlacklistCall)

/-- `bot_state.blacklists`, of the texts that are ids and addresses. -/
def readSets {Id : Type} (setOrder : SetOrder) (readId : String → Option Id)
    (readAddress : String → Option Address) (sets : BlacklistType → Finset String) : Blacklists Id where
  arbs := (setOrder.list (sets .arbs)).filterMap readId
  deployers := (setOrder.list (sets .deployers)).filterMap readAddress
  pools := (setOrder.list (sets .pools)).filterMap readAddress
  tokens := (setOrder.list (sets .tokens)).filterMap readAddress

namespace Installation
variable {chain : Chain} {Id : Type}

/-- No program has run. -/
def new (chainName : String) (files : JsonFiles) : Installation chain Id :=
  ⟨.empty, .start chainName files⟩

section Run
variable (M : Multigraph Address ThreePool.EdgeData) [DecidableEq Id] (keccak : List UInt8 → Id)
  (setOrder : SetOrder)

def step (w : Installation chain Id) : Event chain → Installation chain Id
  | .program program => {w with dir := w.dir.step M keccak program}
  | .call call => {w with blacklisting := w.blacklisting.next setOrder call}

def run (w : Installation chain Id) (events : List (Event chain)) : Installation chain Id :=
  events.foldl (step M keccak setOrder) w

end Run

/-- `initialize`: the bot creates its service, loads the blacklists, and then the pools. -/
def startBot [DecidableEq Id] (degenbot : ManagerClasses) (setOrder : SetOrder)
    (addressOrder : List Address → List Address) (readId : String → Option Id)
    (readAddress : String → Option Address) (firstEvent : Nat) (w : Installation chain Id) :
    Option (Except PyError (Loaded Id)) :=
  let started := (w.blacklisting.next setOrder .create).next setOrder .load
  start degenbot addressOrder (readSets setOrder readId readAddress started.service.blacklists)
    firstEvent w.dir

end Installation

section Events
variable {chain : Chain}

def programs (events : List (Event chain)) : List (Program chain) :=
  events.filterMap fun event =>
    match event with
    | .program program => some program
    | .call _ => none

def calls (events : List (Event chain)) : List BlacklistCall :=
  events.filterMap fun event =>
    match event with
    | .program _ => none
    | .call call => some call

/-- The text stands in a blacklist: it was in the file at the start or has been given
since, and no service that had not loaded has dropped it. -/
def Listed (chainName : String) (files : JsonFiles) (events : List (Event chain))
    (blacklistType : BlacklistType) (text : String) : Prop :=
  (text ∈ blacklistFile chainName files blacklistType ∨
      .call (.update blacklistType text) ∈ events) ∧
    ¬Copies.Lost (fileSets chainName files) (.create :: calls events) blacklistType text

end Events

/-! ### The files after the run -/

namespace Installation
variable {chain : Chain} {Id : Type} [DecidableEq Id] {M : Multigraph Address ThreePool.EdgeData}
  {keccak : List UInt8 → Id} {setOrder : SetOrder} {readId : String → Option Id}
  {readAddress : String → Option Address}

/-- The two halves do not meet. -/
theorem run_eq (events : List (Event chain)) : ∀ w : Installation chain Id,
    w.run M keccak setOrder events =
      ⟨(programs events).foldl (fun dir program => dir.step M keccak program) w.dir,
        w.blacklisting.run setOrder (calls events)⟩ := by
  induction events with
  | nil => exact fun w => rfl
  | cons event rest ih =>
    intro w
    have hrun : w.run M keccak setOrder (event :: rest) =
        (w.step M keccak setOrder event).run M keccak setOrder rest := rfl
    rw [hrun, ih]
    cases event <;> rfl

theorem dir_run (chainName : String) (files : JsonFiles) (events : List (Event chain)) :
    ((new chainName files : Installation chain Id).run M keccak setOrder events).dir =
      DataDir.after M keccak (programs events) := by
  rw [run_eq]
  rfl

theorem mem_calls {events : List (Event chain)} {blacklistType : BlacklistType} {text : String} :
    .update blacklistType text ∈ (calls events) ↔ .call (.update blacklistType text) ∈ events := by
  simp only [calls, List.mem_filterMap]
  constructor
  · intro h
    obtain ⟨event, hevent, hcall⟩ := h
    cases event with
    | program program => cases hcall
    | call call =>
      cases hcall
      exact hevent
  · exact fun h => ⟨_, h, rfl⟩

/-- A bot that is started has in memory what is listed. -/
theorem mem_started (chainName : String) (files : JsonFiles) (events : List (Event chain))
    {blacklistType : BlacklistType} {text : String} :
    text ∈ ((((new chainName files : Installation chain Id).run M keccak setOrder
        events).blacklisting.next setOrder .create).next setOrder .load).service.blacklists
          blacklistType ↔ Listed chainName files events blacklistType text := by
  have hfile : text ∈ blacklistFile chainName
      ((BlacklistHost.start chainName files).run setOrder (calls events)).files blacklistType ↔ _ :=
    BlacklistHost.mem_file_run
  rw [Listed, ← mem_calls, ← BlacklistHost.given_fileSets, ← Copies.mem_file_run_iff, ← hfile, run_eq]
  have hname : (new chainName files : Installation chain Id).blacklisting.service.chainName =
      chainName := rfl
  simp only [BlacklistHost.next, BlacklistHost.start, BlacklistService.loadBlacklists_eq,
    BlacklistService.loadBlacklist, BlacklistService.init, BlacklistHost.chainName_run, hname,
    List.mem_toFinset]
  rfl

theorem mem_readSets {α : Type} {texts : Finset String} {read : String → Option α} {a : α} :
    a ∈ (setOrder.list texts).filterMap read ↔ ∃ text ∈ texts, read text = some a := by
  simp [setOrder.mem_list]

end Installation

/-- **What has ever been blacklisted is not traded, and all else is.** Of the pools that were
listed when each builder last ran a start trades the cycles that no text in the list of arbs
or of pools stands against and whose pools have helpers. A text stays in its list over all
restarts unless a service that had not loaded drops it; the other two lists do nothing. -/
theorem ever_blacklisted_not_traded {Id : Type} [DecidableEq Id] (chain : Chain)
    (M : Multigraph Address ThreePool.EdgeData) (keccak : List UInt8 → Id)
    (hgenuine : chain.Genuine) (hfree : chain.CollisionFree keccak) (degenbot : ManagerClasses)
    (hcaught : degenbot.Caught) (addressOrder : List Address → List Address)
    (horder : ∀ l, (addressOrder l).Perm l) (setOrder : SetOrder) (readId : String → Option Id)
    (readAddress : String → Option Address) (chainName : String) (files : JsonFiles)
    (firstEvent : Nat) (events : List (Event chain)) (loaded : Loaded Id)
    (h : ((Installation.new chainName files).run M keccak setOrder events).startBot degenbot setOrder
      addressOrder readId readAddress firstEvent = some (.ok loaded)) :
    ∃ (blacklists : Blacklists Id) (before : Builder → List (Program chain)),
      (∀ id, id ∈ blacklists.arbs ↔
        ∃ text, Listed chainName files events .arbs text ∧ readId text = some id) ∧
      (∀ address, address ∈ blacklists.pools ↔
        ∃ text, Listed chainName files events .pools text ∧ readAddress text = some address) ∧
      (∀ b, LastRun b (programs events) (before b)) ∧
      Trades keccak chain.wrappedToken blacklists (DataDir.after M keccak (programs events)).records
        (fun path => ∃ b : Builder, b.IsCycle (DataDir.after M keccak (before b)).records
          chain.wrappedToken path) loaded.botState := by
  rw [Installation.startBot, Installation.dir_run] at h
  obtain ⟨loaded', before, h', hlast, htrades⟩ := exists_start hgenuine hfree hcaught horder _
    firstEvent (programs events) (arbFiles_of_start h)
  cases h.symm.trans h'
  refine ⟨_, before, ?_, ?_, hlast, htrades⟩
  · intro id
    simp only [readSets, Installation.mem_readSets, Installation.mem_started]
  · intro address
    simp only [readSets, Installation.mem_readSets, Installation.mem_started]

/-! ### A pool that is blacklisted -/

/-- The service loads, then pool 1 is blacklisted, then the programs are run. -/
def poolListed : List (Event twoPairs) :=
  .call .load :: .call (.update .pools "01") :: twoPairsPrograms.map .program

def readPool1 (text : String) : Option Address := if text = "01" then some (.fill 1) else none

theorem listed_pool1 : Listed "base" (fun _ => none) poolListed .pools "01" := by
  refine ⟨.inr (List.mem_cons_of_mem _ (List.mem_cons_self ..)), ?_⟩
  have hcalls : calls poolListed = [.load, .update .pools "01"] := rfl
  rw [hcalls]
  refine (Copies.mem_file_run_iff.mp ?_).2
  simp [Copies.run, Copies.next]

theorem ever_blacklisted_not_traded_listed : ∃ loaded : Loaded (List UInt8),
    ((Installation.new "base" fun _ => none).run Multigraph.edgeList id .sorted poolListed).startBot
        oneManager .sorted id (fun _ => none) readPool1 100 = some (.ok loaded) ∧
      ∀ arbId details, loaded.botState.allArbs.get? arbId = some details →
        ∃ path, arbId = pathId id path ∧ .fill 1 ∉ path := by
  obtain ⟨loaded, _, hloaded, _⟩ := exists_start (M := Multigraph.edgeList) twoPairs_genuine
    Function.injective_id.injOn oneManager_caught List.Perm.refl
    (readSets .sorted (fun _ => none) readPool1 _) 100 twoPairsPrograms fun b => by
      cases b with
      | arbs2Pool => exact ⟨_, rfl⟩
      | arbs3Pool => exact ⟨_, rfl⟩
  refine ⟨loaded, hloaded, fun arbId details hget => ?_⟩
  obtain ⟨blacklists, before, _, hpools, _, htrades⟩ := ever_blacklisted_not_traded twoPairs
    Multigraph.edgeList id twoPairs_genuine Function.injective_id.injOn oneManager oneManager_caught id
    List.Perm.refl .sorted (fun _ => none) readPool1 "base" (fun _ => none) 100 poolListed loaded hloaded
  obtain ⟨path, pools, _, htradable, _, rfl, _⟩ := (htrades arbId details).mp hget
  refine ⟨path, rfl, fun hmem => ?_⟩
  obtain ⟨r, _, hown, hunlisted⟩ := htradable.listed _ hmem
  exact hunlisted.1 ((hpools _).mpr ⟨"01", listed_pool1, by rw [hown]; rfl⟩)

end CreamBots.App.Toolchain
