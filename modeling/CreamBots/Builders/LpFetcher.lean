import CreamBots.Builders.Record
import CreamBots.Data.EventLog

/-! The LP fetchers: the pools a factory has created, appended to its data file.

`lp_fetcher_v2.py` and `lp_fetcher_v3.py` are one program but for the event they
ask for and the record they make of it (`Version`). A run scans the blocks after
the last record's block in requests of up to `blockSpan` blocks more than one,
rewriting the file after each. It can be stopped by the signal flag, which is
read before each request, or by a request that raises.

Where to resume is not stored. `Scanned` ties the file to the blocks behind it:
up to some block every creation has a record and no record is later. One request
moves that block forward (`Scanned.chunk`), and the last record is always a place
to take up again (`Scanned.resume`). -/
namespace CreamBots.Builders.LpFetcher
open Data

/-- Maximum blocks to process with getLogs. -/
def blockSpan : Nat := 10000

/-! ### Creation events and their records -/

/-- `PairCreated` of a V2 factory. Its last argument has no name. -/
structure PairCreated where
  token0 : Address
  token1 : Address
  pair : Address
  unnamed : Option Nat
deriving DecidableEq

/-- `PoolCreated` of a V3 factory. -/
structure PoolCreated where
  token0 : Address
  token1 : Address
  fee : Nat
  pool : Address
deriving DecidableEq

inductive Version where
  | v2
  | v3
deriving DecidableEq

def Version.Args : Version → Type
  | v2 => PairCreated
  | v3 => PoolCreated

structure Event (v : Version) where
  args : v.Args
  blockNumber : Nat

/-- The entry of a factory in the chain data. A V3 fetcher does not read `fee`. -/
structure Factory where
  exchangeName : String
  factoryDeploymentBlock : Nat
  fee : Option Nat

namespace Factory
variable (factory : Factory)

def v2Record (event : Event .v2) : PoolRecord where
  poolAddress := event.args.pair
  fee := factory.fee
  token0 := event.args.token0
  token1 := event.args.token1
  blockNumber := event.blockNumber
  poolId := event.args.unnamed
  type := .uniswapV2
  exchange := factory.exchangeName

def v3Record (event : Event .v3) : PoolRecord where
  poolAddress := event.args.pool
  fee := some event.args.fee
  token0 := event.args.token0
  token1 := event.args.token1
  blockNumber := event.blockNumber
  poolId := none
  type := .uniswapV3
  exchange := factory.exchangeName

def record : (v : Version) → Event v → PoolRecord
  | .v2 => factory.v2Record
  | .v3 => factory.v3Record

@[simp] theorem record_blockNumber (v : Version) (event : Event v) :
    (factory.record v event).blockNumber = event.blockNumber := by
  cases v <;> rfl

end Factory

/-! ### One run -/

/-- What a run meets: the height of the chain, the reading of the signal flag
that first finds it cleared, and the request that raises, if any. -/
structure Run where
  currentBlock : Nat
  signal : Option Nat
  failure : Option Nat

namespace Run

/-- `keep_running` at its k-th reading. -/
def keepRunning (run : Run) (k : Nat) : Bool :=
  match run.signal with
  | none => true
  | some n => decide (k < n)

def raises (run : Run) (k : Nat) : Bool := decide (run.failure = some k)

def endBlock (run : Run) (i : Nat) : Nat :=
  if i + blockSpan > run.currentBlock then run.currentBlock else i + blockSpan

end Run

inductive Ending where
  | finished
  | interrupted
  | raised
deriving DecidableEq

/-- How a run left the loop, the records it held then, how often it had read the
flag, and what it has written to the file, oldest first. -/
structure Progress where
  ending : Ending
  lpData : List PoolRecord
  readings : Nat
  writes : List (List PoolRecord)

section Fetcher
variable {v : Version} (node : EventLog (Event.blockNumber (v := v))) (factory : Factory)

/-- `range(previous_block + 1, current_block + 1, BLOCK_SPAN)`. -/
def chunkStarts (previousBlock currentBlock : Nat) : List Nat :=
  List.range' (previousBlock + 1) ((currentBlock - previousBlock + (blockSpan - 1)) / blockSpan)
    blockSpan

/-- The loop through the blocks; `k` counts the readings of the flag. -/
def scan (run : Run) : List Nat → Nat → List PoolRecord → List (List PoolRecord) → Progress
  | [], k, lpData, writes => ⟨.finished, lpData, k, writes⟩
  | i :: starts, k, lpData, writes =>
    if !run.keepRunning k then ⟨.interrupted, lpData, k + 1, writes⟩
    else if run.raises k then ⟨.raised, lpData, k + 1, writes⟩
    else
      let found := lpData ++ (node.getLogs i (run.endBlock i)).map (factory.record v)
      scan run starts (k + 1) found (writes ++ [found])

def previousBlock (lpData : List PoolRecord) : Nat :=
  match lpData.getLast? with
  | some record => record.blockNumber
  | none => factory.factoryDeploymentBlock

/-- `main` for one factory, from what its data file holds (`none`: no file). -/
def main (file : Option (List PoolRecord)) (run : Run) : Progress :=
  let lpData := file.getD []
  let p := scan node factory run
    (chunkStarts (previousBlock factory lpData) run.currentBlock) 0 lpData []
  -- A raised request leaves `main` at once; otherwise the flag is read once more.
  if p.ending ≠ .raised ∧ run.keepRunning p.readings = false then
    {p with writes := p.writes ++ [p.lpData]}
  else p

/-- The data file after a run. -/
def fileAfter (file : Option (List PoolRecord)) (run : Run) : Option (List PoolRecord) :=
  (main node factory file run).writes.getLast?.or file

/-- The data file after a sequence of runs that started without one. -/
def fileAfterRuns (runs : List Run) : Option (List PoolRecord) :=
  runs.foldl (fileAfter node factory) none

/-! ### How far a file reaches -/

/-- The file has scanned the blocks up to `b`: real pools of later blocks than the
deployment's, in order, none after `b` and none missing up to `b`. -/
structure Scanned (lpData : List PoolRecord) (b : Nat) : Prop where
  real : ∀ r ∈ lpData, ∃ e ∈ node.history,
    factory.factoryDeploymentBlock < e.blockNumber ∧ r = factory.record v e
  sorted : (lpData.map PoolRecord.blockNumber).Pairwise (· ≤ ·)
  bound : ∀ r ∈ lpData, r.blockNumber ≤ b
  complete : ∀ e ∈ node.history, factory.factoryDeploymentBlock < e.blockNumber →
    e.blockNumber ≤ b → factory.record v e ∈ lpData

variable {node factory}

/-- Nothing has happened up to the deployment. -/
theorem Scanned.empty : Scanned node factory [] factory.factoryDeploymentBlock := by
  refine ⟨by simp, by simp, by simp, ?_⟩
  intro e _ hlow hhigh
  omega

/-- One request. Its first block may be the last one scanned: what is found there
a second time is only repeated. -/
theorem Scanned.chunk {lpData : List PoolRecord} {b i j : Nat} (h : Scanned node factory lpData b)
    (hdeployed : factory.factoryDeploymentBlock < i) (hb : b ≤ i) (hi : i ≤ b + 1) (hj : i ≤ j) :
    Scanned node factory (lpData ++ (node.getLogs i j).map (factory.record v)) j := by
  refine ⟨?_, ?_, ?_, ?_⟩
  · intro r hr
    rcases List.mem_append.mp hr with hold | hnew
    · exact h.real r hold
    · obtain ⟨e, he, rfl⟩ := List.mem_map.mp hnew
      obtain ⟨hmem, hlow, _⟩ := node.mem_getLogs.mp he
      exact ⟨e, hmem, by omega, rfl⟩
  · rw [List.map_append, List.pairwise_append]
    refine ⟨h.sorted, ?_, ?_⟩
    · have ho := node.getLogs_ordered i j
      rw [List.map_map, List.pairwise_map]
      exact ho.imp fun hle => by simpa using hle
    · intro x hx y hy
      obtain ⟨r, hr, rfl⟩ := List.mem_map.mp hx
      obtain ⟨_, hnew, rfl⟩ := List.mem_map.mp hy
      obtain ⟨e, he, rfl⟩ := List.mem_map.mp hnew
      have hlow := (node.mem_getLogs.mp he).2.1
      have hr := h.bound r hr
      rw [factory.record_blockNumber]
      omega
  · intro r hr
    rcases List.mem_append.mp hr with hold | hnew
    · have := h.bound r hold
      omega
    · obtain ⟨e, he, rfl⟩ := List.mem_map.mp hnew
      rw [factory.record_blockNumber]
      exact (node.mem_getLogs.mp he).2.2
  · intro e he hlow hhigh
    rw [List.mem_append]
    by_cases hscanned : e.blockNumber ≤ b
    · exact .inl (h.complete e he hlow hscanned)
    · exact .inr (List.mem_map.mpr ⟨e, node.mem_getLogs.mpr ⟨he, by omega, hhigh⟩, rfl⟩)

omit v in
theorem previousBlock_concat (before : List PoolRecord) (last : PoolRecord) :
    previousBlock factory (before ++ [last]) = last.blockNumber := by
  rw [previousBlock, List.getLast?_concat]

/-- The last record is a place to resume: in a sorted file none is later. -/
theorem Scanned.resume {lpData : List PoolRecord} {b : Nat} (h : Scanned node factory lpData b) :
    Scanned node factory lpData (previousBlock factory lpData) := by
  rcases List.eq_nil_or_concat' lpData with rfl | ⟨before, last, rfl⟩
  · exact Scanned.empty
  rw [previousBlock_concat]
  refine ⟨h.real, h.sorted, ?_, ?_⟩
  · intro r hr
    have hs := h.sorted
    rw [List.map_append, List.pairwise_append] at hs
    rw [List.mem_append, List.mem_singleton] at hr
    rcases hr with hbefore | rfl
    · exact hs.2.2 _ (List.mem_map.mpr ⟨r, hbefore, rfl⟩) _ (List.mem_singleton.mpr rfl)
    · exact Nat.le_refl _
  · intro e he hlow hhigh
    have hlast := h.bound last (by simp)
    exact h.complete e he hlow (by omega)

theorem Scanned.deployment_le {lpData : List PoolRecord} {b : Nat}
    (h : Scanned node factory lpData b) :
    factory.factoryDeploymentBlock ≤ previousBlock factory lpData := by
  rcases List.eq_nil_or_concat' lpData with rfl | ⟨before, last, rfl⟩
  · exact Nat.le_refl _
  · obtain ⟨e, _, hlow, he⟩ := h.real last (by simp)
    have hb := factory.record_blockNumber v e
    rw [previousBlock_concat, he]
    omega

/-! ### One run keeps the file scanned -/

/-- `n` chunks from `i` on reach the current block and none starts beyond it. -/
structure Covers (currentBlock i n : Nat) : Prop where
  reach : currentBlock < i + n * blockSpan
  start : ∀ k < n, i + k * blockSpan ≤ currentBlock

theorem covers_chunks (previousBlock currentBlock : Nat) :
    Covers currentBlock (previousBlock + 1)
      ((currentBlock - previousBlock + (blockSpan - 1)) / blockSpan) := by
  refine ⟨?_, fun k hk => ?_⟩
  · show currentBlock < previousBlock + 1 + (currentBlock - previousBlock + 9999) / 10000 * 10000
    omega
  · have hk : k < (currentBlock - previousBlock + 9999) / 10000 := hk
    show previousBlock + 1 + k * 10000 ≤ currentBlock
    omega

theorem Covers.next {currentBlock i n : Nat} (h : Covers currentBlock i (n + 1)) :
    i ≤ currentBlock ∧ Covers currentBlock (i + blockSpan) n := by
  refine ⟨?_, ?_, fun k hk => ?_⟩
  · have := h.start 0 (Nat.succ_pos n)
    omega
  · have := h.reach
    rw [Nat.succ_mul] at this
    omega
  · have := h.start (k + 1) (by omega)
    rw [Nat.succ_mul] at this
    omega

/-- A chunk ends at the next one's start or at the current block. -/
theorem Run.endBlock_spec (run : Run) {i : Nat} (h : i ≤ run.currentBlock) :
    i ≤ run.endBlock i ∧ run.endBlock i ≤ i + blockSpan ∧
      (i + blockSpan ≤ run.endBlock i ∨ run.currentBlock ≤ run.endBlock i) := by
  unfold Run.endBlock
  split <;> omega

/-- Everything the run wrote and what it holds at the end is scanned, up to the
current block if the loop was not left. -/
structure Progress.Sound (node : EventLog (Event.blockNumber (v := v))) (factory : Factory)
    (run : Run) (p : Progress) : Prop where
  held : ∃ b, Scanned node factory p.lpData b ∧ (p.ending = .finished → run.currentBlock ≤ b)
  written : ∀ content ∈ p.writes, ∃ b, Scanned node factory content b

/-- The induction is on the chunks to come. The file reaches the block before the
next start, that start itself after a full chunk, or the current block. -/
theorem scan_sound (run : Run) (n : Nat) : ∀ (i k b : Nat) (lpData : List PoolRecord)
    (writes : List (List PoolRecord)), Covers run.currentBlock i n →
    factory.factoryDeploymentBlock < i → b ≤ i → (i ≤ b + 1 ∨ run.currentBlock ≤ b) →
    Scanned node factory lpData b → (∀ content ∈ writes, ∃ b, Scanned node factory content b) →
    (scan node factory run (List.range' i n blockSpan) k lpData writes).Sound node factory run := by
  induction n with
  | zero =>
    intro i k b lpData writes hcovers _ _ hnext h hwrites
    have hreach := hcovers.reach
    refine ⟨⟨b, h, fun _ => ?_⟩, hwrites⟩
    omega
  | succ n ih =>
    intro i k b lpData writes hcovers hdeployed hb hnext h hwrites
    obtain ⟨hi, hcovers⟩ := hcovers.next
    rw [List.range'_succ, scan]
    split
    · exact ⟨⟨b, h, fun hf => by cases hf⟩, hwrites⟩
    split
    · exact ⟨⟨b, h, fun hf => by cases hf⟩, hwrites⟩
    obtain ⟨hlow, hhigh, hend⟩ := run.endBlock_spec hi
    have hchunk := h.chunk hdeployed hb (by omega) hlow
    refine ih _ _ _ _ _ hcovers (by omega) hhigh (by omega) hchunk ?_
    intro content hc
    rcases List.mem_append.mp hc with hold | hnew
    · exact hwrites content hold
    · rw [List.mem_singleton.mp hnew]
      exact ⟨_, hchunk⟩

variable (node factory) in
/-- A run that meets neither the signal nor a failure goes through all its chunks. -/
theorem scan_finished (run : Run) (hs : run.signal = none) (hf : run.failure = none)
    (starts : List Nat) : ∀ (k : Nat) (lpData : List PoolRecord) (writes : List (List PoolRecord)),
    (scan node factory run starts k lpData writes).ending = .finished := by
  induction starts with
  | nil => intro k lpData writes; rfl
  | cons i starts ih =>
    intro k lpData writes
    have hk : run.keepRunning k = true := by simp [Run.keepRunning, hs]
    have hr : run.raises k = false := by simp [Run.raises, hf]
    rw [scan, hk, hr]
    exact ih _ _ _

/-- The file a run starts from: none yet, or one that is scanned. -/
def FileScanned (node : EventLog (Event.blockNumber (v := v))) (factory : Factory)
    (file : Option (List PoolRecord)) : Prop :=
  ∀ content, file = some content → ∃ b, Scanned node factory content b

variable (node factory) in
/-- What the loop leaves is written once more, or not. -/
theorem main_cases (file : Option (List PoolRecord)) (run : Run) :
    ∃ p, p = scan node factory run
        (chunkStarts (previousBlock factory (file.getD [])) run.currentBlock) 0 (file.getD []) [] ∧
      (main node factory file run = {p with writes := p.writes ++ [p.lpData]} ∨
        main node factory file run = p) := by
  refine ⟨_, rfl, ?_⟩
  rw [main]
  split
  · exact .inl rfl
  · exact .inr rfl

theorem main_sound {file : Option (List PoolRecord)} (h : FileScanned node factory file)
    (run : Run) : (main node factory file run).Sound node factory run := by
  have hstart : ∃ b, Scanned node factory (file.getD []) b := by
    cases file with
    | none => exact ⟨_, Scanned.empty⟩
    | some content => exact h content rfl
  obtain ⟨b, hb⟩ := hstart
  have hscan := scan_sound run _ _ 0 _ _ [] (covers_chunks (previousBlock factory (file.getD []))
    run.currentBlock) (by have := hb.deployment_le; omega) (Nat.le_succ _) (.inl (Nat.le_refl _))
    hb.resume (by simp)
  rw [← chunkStarts] at hscan
  obtain ⟨p, hp, hmain⟩ := main_cases node factory file run
  rw [← hp] at hscan
  rcases hmain with hmain | hmain <;> rw [hmain]
  · refine ⟨hscan.held, fun content hc => ?_⟩
    rcases List.mem_append.mp hc with hold | hnew
    · exact hscan.written content hold
    · obtain ⟨b', hb', _⟩ := hscan.held
      rw [List.mem_singleton.mp hnew]
      exact ⟨b', hb'⟩
  · exact hscan

variable (node factory) in
/-- The loop writes whatever it has added, so the file holds what the run holds. -/
theorem scan_held (file : Option (List PoolRecord)) (run : Run) (starts : List Nat) :
    ∀ (k : Nat) (lpData : List PoolRecord) (writes : List (List PoolRecord)),
      (writes.getLast?.or file).getD [] = lpData →
      ((scan node factory run starts k lpData writes).writes.getLast?.or file).getD [] =
        (scan node factory run starts k lpData writes).lpData := by
  induction starts with
  | nil => intro k lpData writes h; exact h
  | cons i starts ih =>
    intro k lpData writes h
    rw [scan]
    split
    · exact h
    split
    · exact h
    · apply ih
      rw [List.getLast?_concat, Option.some_or, Option.getD_some]

variable (node factory) in
theorem main_held (file : Option (List PoolRecord)) (run : Run) :
    (fileAfter node factory file run).getD [] = (main node factory file run).lpData := by
  have h := scan_held node factory file run
    (chunkStarts (previousBlock factory (file.getD [])) run.currentBlock) 0 (file.getD []) [] rfl
  obtain ⟨p, hp, hmain⟩ := main_cases node factory file run
  rw [← hp] at h
  rw [fileAfter]
  rcases hmain with hmain | hmain <;> rw [hmain]
  · rw [List.getLast?_concat, Option.some_or, Option.getD_some]
  · exact h

variable (node factory) in
theorem main_finished (file : Option (List PoolRecord)) (run : Run) (hs : run.signal = none)
    (hf : run.failure = none) : (main node factory file run).ending = .finished := by
  have h := scan_finished node factory run hs hf
    (chunkStarts (previousBlock factory (file.getD [])) run.currentBlock) 0 (file.getD []) []
  obtain ⟨p, hp, hmain⟩ := main_cases node factory file run
  rw [← hp] at h
  rcases hmain with hmain | hmain <;> rw [hmain]
  · exact h
  · exact h

theorem fileScanned_after {file : Option (List PoolRecord)} (h : FileScanned node factory file)
    (run : Run) : FileScanned node factory (fileAfter node factory file run) := by
  intro content hc
  rcases Option.or_eq_some_iff.mp hc with hw | ⟨_, hold⟩
  · exact (main_sound h run).written content (List.mem_of_getLast? hw)
  · exact h content hold

variable (node factory) in
/-- From no file on, whatever the runs before. -/
theorem fileScanned_runs (runs : List Run) :
    FileScanned node factory (fileAfterRuns node factory runs) := by
  unfold fileAfterRuns
  induction runs using List.reverseRecOn with
  | nil => intro content h; cases h
  | append_singleton runs run ih =>
    rw [List.foldl_append, List.foldl_cons, List.foldl_nil]
    exact fileScanned_after ih run

/-! ### One run only appends -/

variable (node factory) in
/-- Whatever a run holds and writes starts with what it had. -/
theorem scan_prefix (run : Run) (content : List PoolRecord) (starts : List Nat) :
    ∀ (k : Nat) (lpData : List PoolRecord) (writes : List (List PoolRecord)), content <+: lpData →
      (∀ written ∈ writes, content <+: written) →
      content <+: (scan node factory run starts k lpData writes).lpData ∧
        ∀ written ∈ (scan node factory run starts k lpData writes).writes, content <+: written := by
  induction starts with
  | nil => exact fun _ _ _ hdata hwrites => ⟨hdata, hwrites⟩
  | cons i starts ih =>
    intro k lpData writes hdata hwrites
    rw [scan]
    split
    · exact ⟨hdata, hwrites⟩
    split
    · exact ⟨hdata, hwrites⟩
    have hfound := hdata.trans
      (List.prefix_append lpData ((node.getLogs i (run.endBlock i)).map (factory.record v)))
    refine ih _ _ _ hfound fun written hw => ?_
    rcases List.mem_append.mp hw with hold | hnew
    · exact hwrites written hold
    · rw [List.mem_singleton.mp hnew]
      exact hfound

/-- A file that exists stays, and what is in it stays at its start. -/
def Grows (file file' : Option (List PoolRecord)) : Prop :=
  ∀ content, file = some content → ∃ content', file' = some content' ∧ content <+: content'

omit v in
theorem Grows.refl (file : Option (List PoolRecord)) : Grows file file :=
  fun content h => ⟨content, h, List.prefix_refl content⟩

omit v in
theorem Grows.trans {file file' file'' : Option (List PoolRecord)} (h : Grows file file')
    (h' : Grows file' file'') : Grows file file'' := by
  intro content hc
  obtain ⟨content', hc', hle⟩ := h content hc
  obtain ⟨content'', hc'', hle'⟩ := h' content' hc'
  exact ⟨content'', hc'', hle.trans hle'⟩

variable (node factory) in
theorem grows_fileAfter (file : Option (List PoolRecord)) (run : Run) :
    Grows file (fileAfter node factory file run) := by
  intro content hc
  subst hc
  obtain ⟨p, hp, hmain⟩ := main_cases node factory (some content) run
  obtain ⟨hheld, hwritten⟩ := scan_prefix node factory run content
    (chunkStarts (previousBlock factory content) run.currentBlock) 0 content [] (List.prefix_refl _)
    (by simp)
  have hall : ∀ written ∈ (main node factory (some content) run).writes, content <+: written := by
    rcases hmain with hmain | hmain <;> rw [hmain, hp]
    · intro written hw
      rcases List.mem_append.mp hw with hold | hnew
      · exact hwritten written hold
      · rw [List.mem_singleton.mp hnew]
        exact hheld
    · exact hwritten
  unfold fileAfter
  cases hlast : (main node factory (some content) run).writes.getLast? with
  | none => exact ⟨content, rfl, List.prefix_refl _⟩
  | some last => exact ⟨last, rfl, hall last (List.mem_of_getLast? hlast)⟩

variable (node factory)

/-- Over any runs at any heights the file never holds anything but real pools of
blocks after the deployment, in block order, and a run that gets through its
chunks leaves every creation up to its height recorded. -/
theorem creations_recorded (runs : List Run) (run : Run) :
    let file := fileAfterRuns node factory runs
    let last := main node factory file run
    (∀ content ∈ last.writes,
      (∀ r ∈ content, ∃ e ∈ node.history,
        factory.factoryDeploymentBlock < e.blockNumber ∧ r = factory.record v e) ∧
      (content.map PoolRecord.blockNumber).Pairwise (· ≤ ·)) ∧
    (run.signal = none → run.failure = none → last.ending = .finished) ∧
    (last.ending = .finished → ∀ e ∈ node.history, factory.factoryDeploymentBlock < e.blockNumber →
      e.blockNumber ≤ run.currentBlock →
      factory.record v e ∈ (fileAfterRuns node factory (runs ++ [run])).getD []) := by
  intro file last
  have hlast : last = main node factory file run := rfl
  clear_value last
  subst hlast
  have hsound := main_sound (fileScanned_runs node factory runs) run
  refine ⟨fun content hc => ?_, main_finished node factory file run, fun hfinished e he hlow hhigh => ?_⟩
  · obtain ⟨b, hb⟩ := hsound.written content hc
    exact ⟨hb.real, hb.sorted⟩
  · obtain ⟨b, hb, hreach⟩ := hsound.held
    have hfile : fileAfterRuns node factory (runs ++ [run]) = fileAfter node factory file run := by
      rw [fileAfterRuns, List.foldl_append, List.foldl_cons, List.foldl_nil, ← fileAfterRuns]
    rw [hfile, main_held]
    exact hb.complete e he hlow (Nat.le_trans hhigh (hreach hfinished))

end Fetcher
end CreamBots.Builders.LpFetcher
