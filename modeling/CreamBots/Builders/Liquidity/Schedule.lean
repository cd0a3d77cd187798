import CreamBots.Builders.Liquidity.Ledger
import CreamBots.Builders.LpFetcher
import Mathlib.Data.List.OfFn

/-! The two fetchers of V3 data under any schedule.

The V3 LP fetcher extends the LP files, the liquidity fetcher the snapshot, and each
is run when somebody runs it. One liquidity run replays the blocks since the last
one, but only for the pools that the LP files list then, and the block it saves with
the snapshot stands for all pools. So the snapshot of a pool is right as long as
no run has gone through events of the pool before the pool was listed
(`Right.step`, `listed_pools_right`); what a run has passed over no later run
makes up for (`late_pool_left_empty`). -/
namespace CreamBots.Builders.Liquidity
open Data

/-- What happens on a chain: the pools its factories create and the Mint and Burn
events, as the node answers for them. An address is created with one fee. -/
structure Chain where
  factories : Nat
  factory : Fin factories → LpFetcher.Factory
  creations : Fin factories → EventLog (LpFetcher.Event.blockNumber (v := .v3))
  fee : Address → Nat
  fee_eq : ∀ i, ∀ e ∈ (creations i).history, e.args.fee = fee e.args.pool
  history : List LiquidityEvent
  ordered : ChainOrdered history
  logs : EventName → EventLog LiquidityEvent.blockNumber
  logs_history : ∀ name, (logs name).history = history.filter fun e => decide (e.event = name)

namespace Chain
variable (chain : Chain)

/-- The spacing of a pool's ticks. -/
def tickSpacing (pool : Address) : Nat := (tickSpacingByFee.get? (chain.fee pool)).getD 0

/-- The Mint and Burn events of the blocks from `lo` on and before `hi`. -/
def between (lo hi : Nat) : List LiquidityEvent :=
  chain.history.filter fun e => decide (lo ≤ e.blockNumber ∧ e.blockNumber < hi)

theorem mem_between {lo hi : Nat} {e : LiquidityEvent} :
    e ∈ chain.between lo hi ↔ e ∈ chain.history ∧ lo ≤ e.blockNumber ∧ e.blockNumber < hi := by
  rw [between, List.mem_filter, decide_eq_true_iff]

theorem between_ordered (lo hi : Nat) : ChainOrdered (chain.between lo hi) :=
  chain.ordered.filter _

theorem between_append {lo mid hi : Nat} (hlo : lo ≤ mid) (hhi : mid ≤ hi) :
    chain.between lo mid ++ chain.between mid hi = chain.between lo hi := by
  have hblocks : chain.history.Pairwise fun e e' => e.blockNumber ≤ e'.blockNumber := by
    refine chain.ordered.imp fun {e e'} hle => ?_
    rw [LiquidityEvent.chainKey, LiquidityEvent.chainKey, Prod.Lex.toLex_le_toLex] at hle
    rcases hle with hb | ⟨hb, _⟩
    · exact hb.le
    · exact hb.le
  exact (EventLog.ofHistory chain.history hblocks).between_append hlo hhi

theorem logs_between (name : EventName) (lo hi : Nat) : (chain.logs name).between lo hi =
    (chain.between lo hi).filter fun e => decide (e.event = name) := by
  rw [EventLog.between, chain.logs_history, between]
  exact List.filter_comm ..

/-- What a queue filled from a range of blocks has a pool replay. -/
theorem sortedUpdates_collect (pool : Address) (lo hi : Nat) :
    sortedUpdates (((collect ((chain.logs .mint).between lo hi)
      ((chain.logs .burn).between lo hi)).get? pool).getD []) =
      fetchUpdates pool (chain.between lo hi) := by
  rw [chain.logs_between, chain.logs_between]
  rfl

/-- The updates of a pool that a fetcher starting from nothing replays up to `hi`. -/
def updatesBefore (pool : Address) (hi : Nat) : List ExternalUpdate :=
  fetchUpdates pool (chain.between uniswapV3StartBlock hi)

theorem updatesBefore_append (pool : Address) {mid hi : Nat} (hmid : uniswapV3StartBlock ≤ mid)
    (hhi : mid ≤ hi) : chain.updatesBefore pool mid ++ fetchUpdates pool (chain.between mid hi) =
      chain.updatesBefore pool hi := by
  rw [updatesBefore, updatesBefore, ← chain.between_append hmid hhi]
  have hbefore : ∀ e ∈ chain.between uniswapV3StartBlock mid, e.blockNumber < mid :=
    fun e he => (chain.mem_between.mp he).2.2
  have hafter : ∀ e ∈ chain.between mid hi, mid ≤ e.blockNumber :=
    fun e he => (chain.mem_between.mp he).2.1
  exact (fetchUpdates_append hbefore hafter).symm

/-- Nothing of a pool is replayed where it has no event with liquidity. -/
theorem fetchUpdates_eq_nil {pool : Address} {events : List LiquidityEvent}
    (h : ∀ e ∈ events, e.address = pool → e.liquidity = 0) : fetchUpdates pool events = [] := by
  rw [fetchUpdates_eq]
  have hnone : queuedInOrder pool events = [] := by
    rw [List.eq_nil_iff_forall_not_mem]
    intro q hq
    obtain ⟨e, he, ha, hne, _⟩ := exists_of_mem_queuedInOrder hq
    exact hne (h e he ha)
  rw [hnone]
  rfl

theorem updatesBefore_start (pool : Address) :
    chain.updatesBefore pool uniswapV3StartBlock = [] := by
  apply fetchUpdates_eq_nil
  intro e he
  have := chain.mem_between.mp he
  omega

end Chain

/-! ### The data directory and the runs -/

/-- The LP file of each factory and the snapshot. -/
structure World (chain : Chain) where
  lpFiles : Fin chain.factories → Option (List PoolRecord)
  snapshotFile : Option SnapshotFile

inductive Step (chain : Chain) where
  | lpFetcher (i : Fin chain.factories) (run : LpFetcher.Run)
  | liquidityFetcher (run : Run)

namespace World
variable {chain : Chain}

def start : World chain := ⟨fun _ => none, none⟩

/-- An LP file has a record of the pool. -/
def Lists (world : World chain) (pool : Address) : Prop :=
  ∃ i content, world.lpFiles i = some content ∧ ∃ lp ∈ content, lp.poolAddress = pool

/-- The first block that the liquidity fetcher has not replayed. -/
def nextBlock (world : World chain) : Nat := startBlock (savedBlock world.snapshotFile)

variable (degenbot : Degenbot) (span : SpanRule)

def liquidityRun (world : World chain) (run : Run) : Except Stop Written :=
  main degenbot span chain.logs (List.ofFn world.lpFiles) world.snapshotFile run

/-- A run that raises has written nothing. -/
def step (world : World chain) : Step chain → World chain
  | .lpFetcher i run =>
    let file := LpFetcher.fileAfter (chain.creations i) (chain.factory i) (world.lpFiles i) run
    {world with lpFiles := Function.update world.lpFiles i file}
  | .liquidityFetcher run =>
    match world.liquidityRun degenbot span run with
    | .ok written => {world with snapshotFile := some written.file}
    | .error _ => world

def after (world : World chain) (steps : List (Step chain)) : World chain :=
  steps.foldl (step degenbot span) world

/-- A liquidity run writes its snapshot although a pool that no LP file lists has
events in its blocks. -/
def PassesOver (world : World chain) (step : Step chain) (pool : Address) : Prop :=
  ∃ run, step = .liquidityFetcher run ∧ (∃ written, world.liquidityRun degenbot span run = .ok written) ∧
    ¬world.Lists pool ∧ ∃ e ∈ chain.between world.nextBlock (run.newestBlock + 1),
      e.address = pool ∧ e.liquidity ≠ 0

/-- Some run of a schedule passes over the pool. -/
def PassedOver (world : World chain) : List (Step chain) → Address → Prop
  | [], _ => False
  | step :: rest, pool => world.PassesOver degenbot span step pool ∨
      (world.step degenbot span step).PassedOver rest pool

end World

/-! ### What the LP files say -/

theorem readLpFiles_eq_ok {files : List (Option (List PoolRecord))} {lps : List (List PoolRecord)} :
    readLpFiles files = .ok lps ↔ files = lps.map some := by
  rw [readLpFiles]
  induction files generalizing lps with
  | nil =>
    cases lps with
    | nil => exact ⟨fun _ => rfl, fun _ => rfl⟩
    | cons lp lps => exact ⟨fun h => (by cases h), fun h => (by cases h)⟩
  | cons file files ih =>
    rw [List.mapM_cons, bind_eq_ok]
    cases file with
    | none =>
      refine ⟨fun ⟨_, h, _⟩ => (by cases h), fun h => ?_⟩
      cases lps with
      | nil => cases h
      | cons lp lps => cases h
    | some content =>
      refine ⟨fun ⟨_, hc, h⟩ => ?_, fun h => ⟨content, rfl, ?_⟩⟩
      · cases hc
        obtain ⟨rest, hrest, h⟩ := bind_eq_ok.mp h
        cases h
        rw [List.map_cons, ← ih.mp hrest]
      · cases lps with
        | nil => cases h
        | cons lp lps =>
          rw [List.map_cons, List.cons.injEq] at h
          obtain ⟨hc, hrest⟩ := h
          cases hc
          exact bind_eq_ok.mpr ⟨lps, ih.mpr hrest, rfl⟩

theorem loadLps_eq (files : List (List PoolRecord)) :
    loadLps files = Dict.ofList (files.flatten.map fun lp => (lp.poolAddress, lp)) := by
  simp only [loadLps, Dict.ofList, Dict.setAll, List.foldl_map, List.foldl_flatten]

section Files
variable {chain : Chain} {world : World chain} {lps : List (List PoolRecord)} {pool : Address}

/-- The records that a run reads are those of the files. -/
theorem mem_flatten_iff (hlps : readLpFiles (List.ofFn world.lpFiles) = .ok lps) {lp : PoolRecord} :
    lp ∈ lps.flatten ↔ ∃ i content, world.lpFiles i = some content ∧ lp ∈ content := by
  have hfiles := readLpFiles_eq_ok.mp hlps
  have hmem : ∀ content, content ∈ lps ↔ ∃ i, world.lpFiles i = some content := by
    intro content
    rw [← List.mem_ofFn, hfiles, List.mem_map]
    simp
  rw [List.mem_flatten]
  refine ⟨fun ⟨content, hc, hlp⟩ => ?_, fun ⟨i, content, hi, hlp⟩ => ?_⟩
  · obtain ⟨i, hi⟩ := (hmem content).mp hc
    exact ⟨i, content, hi, hlp⟩
  · exact ⟨content, (hmem content).mpr ⟨i, hi⟩, hlp⟩

theorem lists_iff (hlps : readLpFiles (List.ofFn world.lpFiles) = .ok lps) :
    world.Lists pool ↔ ∃ lp, (loadLps lps).get? pool = some lp := by
  rw [loadLps_eq, Dict.get?_ofList]
  refine ⟨fun ⟨i, content, hi, lp, hlp, ha⟩ => ?_, fun ⟨lp, h⟩ => ?_⟩
  · subst ha
    exact Dict.lastValue?_isSome (List.mem_map.mpr
      ⟨lp, (mem_flatten_iff hlps).mpr ⟨i, content, hi, hlp⟩, rfl⟩)
  · obtain ⟨lp', hlp', he⟩ := List.mem_map.mp (Dict.lastValue?_mem h)
    obtain ⟨i, content, hi, hlp⟩ := (mem_flatten_iff hlps).mp hlp'
    exact ⟨i, content, hi, lp', hlp, congrArg Prod.fst he⟩

/-- A listed pool's record has the fee the pool was created with. -/
theorem fee_of_listed (hlp : ∀ i, LpFetcher.FileScanned (chain.creations i) (chain.factory i)
    (world.lpFiles i)) (hlps : readLpFiles (List.ofFn world.lpFiles) = .ok lps) {lp : PoolRecord}
    (h : (loadLps lps).get? pool = some lp) : lp.fee = some (chain.fee pool) := by
  rw [loadLps_eq, Dict.get?_ofList] at h
  obtain ⟨lp', hlp', he⟩ := List.mem_map.mp (Dict.lastValue?_mem h)
  obtain ⟨i, content, hi, hmem⟩ := (mem_flatten_iff hlps).mp hlp'
  obtain ⟨b, hb⟩ := hlp i content hi
  obtain ⟨e, hcreated, _, rfl⟩ := hb.real lp' hmem
  cases he
  exact congrArg some (chain.fee_eq i e hcreated)

end Files

/-! ### What one step keeps -/

/-- The snapshot in the file is right for every pool that has not been passed over. -/
def SnapshotRight (chain : Chain) (file : Option SnapshotFile) (passed : Address → Prop) : Prop :=
  ∃ snapshot, (∀ newestBlock, (∀ block, savedBlock file = some block → block < newestBlock) →
      loadSnapshot file newestBlock = .ok (savedBlock file, snapshot)) ∧
    ∀ pool, ¬passed pool → Reflects (chain.tickSpacing pool)
      ((snapshot.get? pool).getD TickMaps.empty)
      (chain.updatesBefore pool (startBlock (savedBlock file)))

/-- The LP files list real pools only, and the snapshot is right. -/
structure Right {chain : Chain} (world : World chain) (passed : Address → Prop) : Prop where
  lp : ∀ i, LpFetcher.FileScanned (chain.creations i) (chain.factory i) (world.lpFiles i)
  snapshot : SnapshotRight chain world.snapshotFile passed

section Run
variable {chain : Chain} {world : World chain} {degenbot : Degenbot} {span : SpanRule}
  {passed passed' : Address → Prop}

theorem SnapshotRight.imp {file : Option SnapshotFile} (h : SnapshotRight chain file passed)
    (himp : ∀ pool, passed pool → passed' pool) : SnapshotRight chain file passed' := by
  obtain ⟨snapshot, hload, hright⟩ := h
  exact ⟨snapshot, hload, fun pool hpool => hright pool fun hp => hpool (himp pool hp)⟩

theorem right_start : Right (World.start : World chain) fun _ => False := by
  refine ⟨fun i content h => (by cases h), Dict.empty, fun _ _ => rfl, fun pool _ => ?_⟩
  show Reflects _ TickMaps.empty (chain.updatesBefore pool uniswapV3StartBlock)
  rw [chain.updatesBefore_start]
  exact Reflects.empty _

theorem le_startBlock (last : Option Nat) : uniswapV3StartBlock ≤ startBlock last := by
  cases last with
  | none => exact Nat.le_refl _
  | some block => exact Nat.le_max_left ..

variable (chain) in
/-- A run takes every pool's ledger to the block after the newest. -/
theorem updatesBefore_run (pool : Address) {last : Option Nat} {newestBlock : Nat}
    (hlast : ∀ block, last = some block → block < newestBlock) :
    chain.updatesBefore pool (startBlock last) ++
        fetchUpdates pool (chain.between (startBlock last) (newestBlock + 1)) =
      chain.updatesBefore pool (startBlock (some newestBlock)) := by
  have hle : startBlock last ≤ startBlock (some newestBlock) := by
    cases last with
    | none => exact Nat.le_max_left ..
    | some block =>
      have := hlast block rfl
      show max uniswapV3StartBlock (block + 1) ≤ max uniswapV3StartBlock (newestBlock + 1)
      omega
  have hrange : chain.between (startBlock last) (newestBlock + 1) =
      chain.between (startBlock last) (startBlock (some newestBlock)) := by
    apply List.filter_congr
    intro e _
    have hstart := le_startBlock last
    have hend : startBlock (some newestBlock) = max uniswapV3StartBlock (newestBlock + 1) := rfl
    rw [decide_eq_decide]
    omega
  rw [hrange]
  exact chain.updatesBefore_append pool (le_startBlock last) hle

theorem updatesBefore_newest (pool : Address) (newestBlock : Nat) :
    chain.updatesBefore pool (startBlock (some newestBlock)) =
      fetchUpdates pool (chain.between uniswapV3StartBlock (newestBlock + 1)) := by
  have hnone : ∀ block, (none : Option Nat) = some block → block < newestBlock :=
    fun block hb => by cases hb
  have hstart : chain.updatesBefore pool (startBlock none) = [] := chain.updatesBefore_start pool
  rw [← updatesBefore_run chain pool hnone, hstart]
  rfl

/-- A listed pool's entry reflects what it did and the events of the run. -/
theorem Reflects.replayEntry {pool : Address} {entry : Option TickMaps}
    {ledger : List ExternalUpdate} {lp : PoolRecord} {last : Option Nat} {queue : List QueuedEvent}
    {maps : TickMaps} (h : Reflects (chain.tickSpacing pool) (entry.getD TickMaps.empty) ledger)
    (hplace : degenbot.inPlace = true) (hfee : lp.fee = some (chain.fee pool))
    (hmaps : replayEntry degenbot lp last queue entry = .ok maps) :
    Reflects (chain.tickSpacing pool) maps (ledger ++ sortedUpdates queue) := by
  simp only [Liquidity.replayEntry, hfee] at hmaps
  rw [Chain.tickSpacing] at h ⊢
  cases hspacing : tickSpacingByFee.get? (chain.fee pool) with
  | none =>
    rw [hspacing] at hmaps
    cases hmaps
  | some tickSpacing =>
    rw [hspacing] at hmaps h
    cases hmaps
    let helper := poolHelper last (entry.getD TickMaps.empty) (chain.fee pool) tickSpacing
    have hhelper : Reflects helper.tickSpacing helper.maps ledger := h
    exact (hhelper.replay (sortedUpdates queue)).merge hplace entry

theorem Reflects.tidy_entry {tickSpacing : Nat} {entry : Option TickMaps}
    {ledger : List ExternalUpdate} (h : Reflects tickSpacing (entry.getD TickMaps.empty) ledger) :
    Reflects tickSpacing ((entry.map TickMaps.tidy).getD TickMaps.empty) ledger := by
  cases entry with
  | none => exact h
  | some maps => exact Reflects.tidy h

/-- The run itself: a pool that is listed is replayed, and one that is not has no
events in the blocks of the run unless it is passed over. -/
theorem Right.run (h : Right world passed) (hplace : degenbot.inPlace = true) {run : Run}
    {written : Written} (hw : world.liquidityRun degenbot span run = .ok written) :
    SnapshotRight chain (some written.file) fun pool =>
      passed pool ∨ world.PassesOver degenbot span (.liquidityFetcher run) pool := by
  obtain ⟨lps, last, snapshot, snapshot', hlps, hload, hfetch, _, hloop, hfile⟩ := main_eq_ok hw
  obtain ⟨rfl, hheight⟩ := loadSnapshot_block hload
  obtain ⟨_, hload', hright⟩ := h.snapshot
  cases hload.symm.trans (hload' run.newestBlock hheight)
  rw [SnapshotRight, main_savedBlock hw]
  refine ⟨snapshot'.mapValues TickMaps.tidy, fun newestBlock hnewest => ?_, fun pool hpool => ?_⟩
  · rw [hfile]
    exact loadSnapshot_saveSnapshot snapshot' (hnewest _ rfl)
  rw [Dict.get?_mapValues]
  apply Reflects.tidy_entry
  have hold := hright pool fun hp => hpool (.inl hp)
  have hqueue : sortedUpdates ((written.queue.get? pool).getD []) =
      fetchUpdates pool (chain.between world.nextBlock (run.newestBlock + 1)) := by
    rw [Written.queue, fetch_events (hfetch .mint), fetch_events (hfetch .burn)]
    exact chain.sortedUpdates_collect ..
  have htotal := updatesBefore_run chain pool hheight
  -- Where nothing is replayed and nothing is queued, the ledger has not moved.
  have hstill : (pool ∉ written.queue.keys ∨ (loadLps lps).get? pool = none) →
      fetchUpdates pool (chain.between world.nextBlock (run.newestBlock + 1)) = [] →
      Reflects (chain.tickSpacing pool) ((snapshot'.get? pool).getD TickMaps.empty)
        (chain.updatesBefore pool (startBlock (some run.newestBlock))) := by
    intro hother hnone
    rw [replayPools_other hother hloop, ← htotal]
    rw [World.nextBlock] at hnone
    rw [hnone, List.append_nil]
    exact hold
  by_cases hlisted : world.Lists pool
  · obtain ⟨lp, hlp⟩ := (lists_iff hlps).mp hlisted
    by_cases hkey : pool ∈ written.queue.keys
    · obtain ⟨maps, hmaps, hget⟩ := replayPools_listed written.queue.nodup_keys hkey hlp hloop
      rw [hget, ← htotal]
      have hentry := hold.replayEntry hplace (fee_of_listed h.lp hlps hlp) hmaps
      rw [hqueue] at hentry
      exact hentry
    · apply hstill (.inl hkey)
      rw [← hqueue, Dict.get?_eq_none.mpr hkey]
      rfl
  · apply hstill (.inr ?_)
    · apply Chain.fetchUpdates_eq_nil
      intro e he ha
      by_contra hne
      exact hpool (.inr ⟨run, rfl, ⟨written, hw⟩, hlisted, e, he, ha, hne⟩)
    · rw [← Option.not_isSome_iff_eq_none, Option.isSome_iff_exists, ← lists_iff hlps]
      exact hlisted

theorem Right.step (h : Right world passed) (hplace : degenbot.inPlace = true) (step : Step chain) :
    Right (world.step degenbot span step) fun pool =>
      passed pool ∨ world.PassesOver degenbot span step pool := by
  cases step with
  | lpFetcher i run =>
    refine ⟨fun j => ?_, h.snapshot.imp fun _ => .inl⟩
    show LpFetcher.FileScanned _ _ (Function.update world.lpFiles i _ j)
    by_cases hj : j = i
    · subst hj
      rw [Function.update_self]
      exact LpFetcher.fileScanned_after (h.lp j) run
    · rw [Function.update_of_ne hj]
      exact h.lp j
  | liquidityFetcher run =>
    rw [World.step]
    cases hw : world.liquidityRun degenbot span run with
    | ok written => exact ⟨h.lp, h.run hplace hw⟩
    | error _ => exact ⟨h.lp, h.snapshot.imp fun _ => .inl⟩

/-- The induction is on the schedule, from any state that is right so far. -/
theorem Right.after (hplace : degenbot.inPlace = true) (steps : List (Step chain)) :
    ∀ {world : World chain} {passed : Address → Prop}, Right world passed →
      Right (world.after degenbot span steps) fun pool =>
        passed pool ∨ world.PassedOver degenbot span steps pool := by
  induction steps with
  | nil => exact fun h => ⟨h.lp, h.snapshot.imp fun _ => .inl⟩
  | cons step rest ih =>
    intro world passed h
    have hstep : Right (world.step degenbot span step) _ := h.step hplace step
    have hrest := ih hstep
    refine ⟨hrest.lp, hrest.snapshot.imp fun pool hp => ?_⟩
    rcases hp with (hp | hp) | hp
    · exact .inl hp
    · exact .inr (.inl hp)
    · exact .inr (.inr hp)

theorem savedBlock_after (steps : List (Step chain)) : ∀ {world : World chain} {block : Nat},
    savedBlock (world.after degenbot span steps).snapshotFile = some block →
    savedBlock world.snapshotFile = some block ∨
      ∃ run, Step.liquidityFetcher run ∈ steps ∧ run.newestBlock = block := by
  induction steps with
  | nil => exact fun h => .inl h
  | cons step rest ih =>
    intro world block h
    have hrest : savedBlock ((world.step degenbot span step).after degenbot span rest).snapshotFile =
      some block := h
    rcases ih hrest with hsaved | ⟨run, hrun, hb⟩
    · cases step with
      | lpFetcher i run => exact .inl hsaved
      | liquidityFetcher run =>
        rw [World.step] at hsaved
        cases hw : world.liquidityRun degenbot span run with
        | ok written =>
          rw [hw] at hsaved
          have hblock := (main_savedBlock hw).symm.trans hsaved
          cases hblock
          exact .inr ⟨run, List.mem_cons_self .., rfl⟩
        | error _ =>
          rw [hw] at hsaved
          exact .inl hsaved
    · exact .inr ⟨run, List.mem_cons_of_mem step hrun, hb⟩

/-! ### A run that can go through -/

variable {run : Run}

/-- What a run needs besides a higher chain: the LP files and a record in them,
answers to its requests, and a known fee of every listed pool that has events. -/
structure World.Ready (world : World chain) (span : SpanRule) (run : Run) : Prop where
  files : ∀ i, ∃ content, world.lpFiles i = some content
  listed : ∃ pool, world.Lists pool
  answered : ∀ name, ∃ fetched, fetch span (chain.logs name) run.newestBlock
    (savedBlock world.snapshotFile) (run.answers name) = .ok fetched
  spacing : ∀ e ∈ chain.between world.nextBlock (run.newestBlock + 1), e.liquidity ≠ 0 →
    world.Lists e.address → ∃ tickSpacing, tickSpacingByFee.get? (chain.fee e.address) = some tickSpacing

theorem readLpFiles_ready (h : world.Ready span run) :
    ∃ lps, readLpFiles (List.ofFn world.lpFiles) = .ok lps := by
  choose content hcontent using h.files
  refine ⟨List.ofFn content, readLpFiles_eq_ok.mpr ?_⟩
  rw [List.map_ofFn]
  exact congrArg List.ofFn (funext hcontent)

/-- Such a run writes its snapshot. -/
theorem Right.completes (degenbot : Degenbot) (h : Right world passed) (hready : world.Ready span run)
    (hheight : ∀ block, savedBlock world.snapshotFile = some block → block < run.newestBlock) :
    ∃ written, world.liquidityRun degenbot span run = .ok written := by
  obtain ⟨lps, hlps⟩ := readLpFiles_ready hready
  obtain ⟨snapshot, hload, _⟩ := h.snapshot
  have hload := hload run.newestBlock hheight
  obtain ⟨mints, hmints⟩ := hready.answered .mint
  obtain ⟨burns, hburns⟩ := hready.answered .burn
  have hne : ¬lps.flatten.isEmpty = true := by
    obtain ⟨_, i, content, hi, lp, hlp, _⟩ := hready.listed
    rw [List.isEmpty_iff]
    exact List.ne_nil_of_mem ((mem_flatten_iff hlps).mpr ⟨i, content, hi, hlp⟩)
  obtain ⟨snapshot', hloop⟩ : ∃ snapshot', (collect mints.events burns.events).keys.foldlM
      (replayPool degenbot (loadLps lps) (savedBlock world.snapshotFile)
        (collect mints.events burns.events)) snapshot = .ok snapshot' := by
    apply exists_foldlM_ok
    intro snapshot pool hpool
    rw [replayPool]
    cases hlp : (loadLps lps).get? pool with
    | none => exact ⟨snapshot, rfl⟩
    | some lp =>
      obtain ⟨e, he, rfl, hne⟩ := mem_keys_collect hpool
      rw [fetch_events hmints, fetch_events hburns, chain.logs_between, chain.logs_between] at he
      have hevent : e ∈ chain.between world.nextBlock (run.newestBlock + 1) :=
        (List.mem_append.mp he).elim List.mem_of_mem_filter List.mem_of_mem_filter
      obtain ⟨tickSpacing, hspacing⟩ :=
        hready.spacing e hevent hne ((lists_iff hlps).mpr ⟨lp, hlp⟩)
      simp only [replayEntry, fee_of_listed h.lp hlps hlp, hspacing]
      exact ⟨_, rfl⟩
  refine exists_bind_eq_ok hlps (exists_bind_eq_ok (orRaise_eq_ok.mpr hload)
    (exists_bind_eq_ok hmints (exists_bind_eq_ok hburns ?_)))
  rw [if_neg hne]
  exact exists_bind_eq_ok (orRaise_eq_ok.mpr hloop) ⟨_, rfl⟩

end Run

/-! ### The snapshot after a schedule -/

/-- What a snapshot file written at `newestBlock` gives the next run for a pool: the maps
that the pool's events from the start block on leave, replayed from empty maps in one
go. That is in the fetcher's order, and so in the chain's if the chain's replay never
goes negative and empties ticks clean. -/
def PoolExact (chain : Chain) (degenbot : Degenbot) (file : SnapshotFile) (newestBlock : Nat)
    (pool : Address) : Prop :=
  let events := chain.between uniswapV3StartBlock (newestBlock + 1)
  let fresh := freshHelper (chain.fee pool) (chain.tickSpacing pool)
  ∃ snapshot, (∀ later, newestBlock < later →
      loadSnapshot (some file) later = .ok (some newestBlock, snapshot)) ∧
    Agrees ((snapshot.get? pool).getD TickMaps.empty)
      (replay degenbot fresh (fetchUpdates pool events)).maps ∧
    (NeverNegative degenbot fresh (chainUpdates pool events) →
      EmptiesClean degenbot fresh (chainUpdates pool events) →
      Agrees ((snapshot.get? pool).getD TickMaps.empty)
        (replay degenbot fresh (chainUpdates pool events)).maps)

/-- After any schedule a liquidity run at a new height goes through, and its snapshot
is exact for every listed pool that no run before has passed over. -/
theorem listed_pools_right (chain : Chain) (degenbot : Degenbot) (span : SpanRule)
    (hplace : degenbot.inPlace = true) (steps : List (Step chain)) (run : Run)
    (hheights : ∀ earlier, Step.liquidityFetcher earlier ∈ steps →
      earlier.newestBlock < run.newestBlock)
    (hready : (World.start.after degenbot span steps).Ready span run) :
    ∃ written, (World.start.after degenbot span steps).liquidityRun degenbot span run = .ok written ∧
      ∀ pool, (World.start.after degenbot span steps).Lists pool →
        ¬World.start.PassedOver degenbot span steps pool →
        PoolExact chain degenbot written.file run.newestBlock pool := by
  have hworld : Right (World.start.after degenbot span steps) _ := right_start.after hplace steps
  have hheight : ∀ block,
      savedBlock (World.start.after degenbot span steps).snapshotFile = some block →
      block < run.newestBlock := by
    intro block hb
    rcases savedBlock_after steps hb with hstart | ⟨earlier, hearlier, rfl⟩
    · cases hstart
    · exact hheights earlier hearlier
  obtain ⟨written, hw⟩ := hworld.completes degenbot hready hheight
  refine ⟨written, hw, fun pool hlisted hpassed => ?_⟩
  obtain ⟨snapshot, hload, hright⟩ := hworld.run hplace hw
  rw [main_savedBlock hw] at hload hright
  have hentry := hright pool fun hp => by
    rcases hp with (hp | hp) | ⟨_, _, _, hnot, _⟩
    · exact hp
    · exact hpassed hp
    · exact hnot hlisted
  rw [updatesBefore_newest] at hentry
  refine ⟨snapshot, fun later hlater => hload later fun block hb => ?_, ?_, fun hnonneg hclean => ?_⟩
  · cases hb
    exact hlater
  · exact hentry.agrees (Reflects.fromScratch _ _ _)
  · exact (hentry.chain_order (chain.between_ordered ..) hnonneg hclean).agrees
      (Reflects.fromScratch _ _ _)

/-! ### A pool that is listed too late -/

def poolCreated (pool : Address) (blockNumber : Nat) : LpFetcher.Event .v3 :=
  ⟨⟨Address.fill 8, Address.fill 9, 500, pool⟩, blockNumber⟩

/-- Pool 1 is created at block 1000, pool 2 at block 1500, and one of them has a Mint
event at block 1600. -/
def twoPoolChain (minted : Address) : Chain where
  factories := 1
  factory _ := ⟨"uniswap", 900, none⟩
  creations _ := .ofHistory
    [poolCreated (Address.fill 1) 1000, poolCreated (Address.fill 2) 1500] (by decide)
  fee _ := 500
  fee_eq _ e he := by
    rcases List.mem_pair.mp he with rfl | rfl
    · rfl
    · rfl
  history := [⟨.mint, minted, 1600, 0, 0, 7, 0, 10, zero_lt_ten⟩]
  ordered := List.pairwise_singleton ..
  logs name := .ofHistory ([⟨.mint, minted, 1600, 0, 0, 7, 0, 10, zero_lt_ten⟩].filter fun e =>
    decide (e.event = name)) ((List.pairwise_singleton ..).filter _)
  logs_history _ := rfl

/-- The LP fetcher at 1200 and 2500, the liquidity fetcher at 2000. -/
def lateSteps (minted : Address) : List (Step (twoPoolChain minted)) :=
  [.lpFetcher (0 : Fin 1) ⟨1200, none, none⟩, .liquidityFetcher ⟨2000, fun _ => [true]⟩,
    .lpFetcher (0 : Fin 1) ⟨2500, none, none⟩]

def lateWorld (minted : Address) : World (twoPoolChain minted) :=
  World.start.after (tickAccounting true) exactSpan (lateSteps minted)

def lateRun : Run := ⟨3000, fun _ => [true]⟩

theorem lateSteps_heights (minted : Address) : ∀ earlier,
    Step.liquidityFetcher earlier ∈ lateSteps minted →
    earlier.newestBlock < lateRun.newestBlock := by
  intro earlier h
  simp only [lateSteps, List.mem_cons, List.not_mem_nil, reduceCtorEq, Step.liquidityFetcher.injEq,
    false_or, or_false] at h
  rw [h]
  decide

theorem lateWorld_ready {minted : Address} (h : minted = Address.fill 1 ∨ minted = Address.fill 2) :
    (lateWorld minted).Ready exactSpan lateRun ∧ (lateWorld minted).Lists minted := by
  have hfile : (lateWorld minted).lpFiles (0 : Fin 1) =
      some [((twoPoolChain minted).factory (0 : Fin 1)).v3Record (poolCreated (Address.fill 1) 1000),
        ((twoPoolChain minted).factory (0 : Fin 1)).v3Record (poolCreated (Address.fill 2) 1500)] := by
    rcases h with rfl | rfl
    · rfl
    · rfl
  have hsaved : savedBlock (lateWorld minted).snapshotFile = some 2000 := by
    rcases h with rfl | rfl
    · rfl
    · rfl
  have hlists : (lateWorld minted).Lists minted := by
    refine ⟨_, _, hfile, ?_⟩
    rcases h with rfl | rfl
    · exact ⟨_, List.mem_cons_self .., rfl⟩
    · exact ⟨_, List.mem_cons_of_mem _ (List.mem_cons_self ..), rfl⟩
  refine ⟨⟨fun i => ?_, ⟨minted, hlists⟩, fun name => ?_, fun e _ _ _ => ⟨10, rfl⟩⟩, hlists⟩
  · obtain rfl : i = (0 : Fin 1) := Fin.eq_zero i
    exact ⟨_, hfile⟩
  · rw [hsaved]
    exact ⟨_, rfl⟩

/-- Pool 2 has its events before it is listed: the run at 2000 goes past them, and
neither that run nor the one at 3000 replays them. -/
theorem late_pool_left_empty : ¬∀ (chain : Chain) (degenbot : Degenbot) (span : SpanRule),
    degenbot.inPlace = true → ∀ (steps : List (Step chain)) (run : Run),
    (∀ earlier, Step.liquidityFetcher earlier ∈ steps → earlier.newestBlock < run.newestBlock) →
    (World.start.after degenbot span steps).Ready span run →
    ∃ written, (World.start.after degenbot span steps).liquidityRun degenbot span run = .ok written ∧
      ∀ pool, (World.start.after degenbot span steps).Lists pool →
        PoolExact chain degenbot written.file run.newestBlock pool := by
  intro h
  obtain ⟨hready, hlists⟩ := lateWorld_ready (.inr rfl)
  obtain ⟨written, hw, hpools⟩ := h _ (tickAccounting true) exactSpan rfl _ lateRun
    (lateSteps_heights (Address.fill 2)) hready
  have hfile : written.file = saveSnapshot Dict.empty 3000 := by
    cases hw
    rfl
  obtain ⟨snapshot, hload, hagrees, _⟩ := hpools (Address.fill 2) hlists
  have hempty := hload 3001 (by decide)
  rw [hfile, loadSnapshot_saveSnapshot _ (by decide)] at hempty
  cases hempty
  have htick := hagrees.tickData 0
  revert htick
  decide

/-- With the events in pool 1, which is listed in time, the run at 3000 is exact. -/
theorem listed_pools_right_in_time : ∃ written,
    (lateWorld (Address.fill 1)).liquidityRun (tickAccounting true) exactSpan lateRun = .ok written ∧
      PoolExact (twoPoolChain (Address.fill 1)) (tickAccounting true) written.file 3000
        (Address.fill 1) := by
  obtain ⟨hready, hlists⟩ := lateWorld_ready (.inl rfl)
  obtain ⟨written, hw, hpools⟩ := listed_pools_right _ (tickAccounting true) exactSpan rfl _ lateRun
    (lateSteps_heights (Address.fill 1)) hready
  refine ⟨written, hw, hpools _ hlists fun hpassed => ?_⟩
  rcases hpassed with ⟨_, hstep, _⟩ | ⟨_, _, _, hnot, _⟩ | ⟨_, hstep, _⟩ | hnil
  · cases hstep
  · exact hnot ⟨(0 : Fin 1), _, rfl, _, List.mem_cons_self .., rfl⟩
  · cases hstep
  · exact hnil

end CreamBots.Builders.Liquidity
