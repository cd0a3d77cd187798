import CreamBots.App.PoolManagers
import CreamBots.Builders.Liquidity.Replay

/-! How often a Mint or a Burn is counted.

A helper starts from the state of the chain after some block, and the events that are
delivered are added to it. `process_mint_event` and `process_burn_event` ask for the
block before their own, so that the event itself is not in the state it is added to.
`process_new_v3_pool_event` asks for the block of the creation: the liquidity that came
into the pool in that block is in the state, and is added again when its events are
delivered (`Creates.holds`, `Delivers.holds`). The count is right just where what that
block has done to the pool comes to nothing (`liquidity_counted_once_iff`). -/
namespace CreamBots.App
open Data Builders Builders.Liquidity

variable {Topic σ τ : Type}

/-! ### What is delivered -/

def handlerOf : EventName → ProcessFunc
  | .mint => .processMintEvent
  | .burn => .processBurnEvent

/-- How the amount of an event is decoded. -/
def EthAbi.amount (abi : EthAbi Topic) : EventName → List UInt8 → Except PyError Nat
  | .mint => abi.mint
  | .burn => abi.burn

/-- The call hands over the log of this event. -/
structure Delivers (abi : EthAbi Topic) (call : Handling Topic σ τ) (e : LiquidityEvent) : Prop where
  handler : call.processFunc = handlerOf e.event
  address : call.log.address = e.address
  block : call.log.blockNumber = e.blockNumber
  read : readLiquidity abi (abi.amount e.event) call.log = .ok (e.tickLower, e.tickUpper, e.amount)

/-- The call hands over the log of the creation of this pool by its factory. -/
structure Creates (abi : EthAbi Topic) (factoryOf : Address → Address) (call : Handling Topic σ τ)
    (poolAddress : Address) : Prop where
  handler : call.processFunc = .processNewV3PoolEvent
  factory : call.log.address = factoryOf poolAddress
  read : abi.poolCreated call.log.data = .ok poolAddress

/-- What the events of some blocks come to at a tick. -/
def postedIn (blocks : Nat → Bool) (history : List LiquidityEvent) (tick : Int) : LiquidityAtTick :=
  posted ((history.filter fun e => blocks e.blockNumber).map LiquidityEvent.update) tick

/-- What is assumed of degenbot besides its laws, for a pool with this history: its
helper is built from the state after the block that is asked for, an update adds the
change to both ticks, and calls succeed. -/
structure HelperCalls.Counts (degenbot : HelperCalls σ τ) (factoryOf : Address → Address)
    (liquidity : σ → Int → LiquidityAtTick) (poolAddress : Address)
    (history : List LiquidityEvent) : Prop where
  lawful : degenbot.Lawful factoryOf
  newManager : ∀ factory, degenbot.newManager factory = .ok Dict.empty
  builds : ∀ (tracked : TrackedPools) helpers (stateBlock : Int), tracked.get? poolAddress = none →
    ∃ helper, degenbot.getPool (factoryOf poolAddress) tracked helpers poolAddress (some stateBlock) =
        (.ok ⟨poolAddress, helpers.next⟩, tracked.set poolAddress ⟨poolAddress, helpers.next⟩,
          helpers.alloc helper) ∧
      ∀ tick, liquidity helper tick =
        postedIn (fun block => decide ((block : Int) ≤ stateBlock)) history tick
  adds : ∀ helper (update : ExternalUpdate), ∃ after,
    degenbot.update (.liquidityChange update.blockNumber update.liquidityChange.amount
        update.liquidityChange.tickLower update.liquidityChange.tickUpper) helper = (.ok (), after) ∧
      ∀ tick, liquidity after tick = liquidity helper tick + update.share tick
  records : ∀ address helper snapshot, ∃ after,
    degenbot.updateSnapshot address helper snapshot = (.ok (), after)

/-- The managed helper of the pool has this liquidity. -/
def Holds (factoryOf : Address → Address) (liquidity : σ → Int → LiquidityAtTick)
    (poolAddress : Address) (s : HandlerState σ τ) (total : Int → LiquidityAtTick) : Prop :=
  ∃ helper, helperOf factoryOf s.poolManagers poolAddress = some helper ∧
    ∀ tick, liquidity (s.helpers.get helper.object) tick = total tick

section Count
variable {abi : EthAbi Topic} {factoryOf : Address → Address}
  {liquidity : σ → Int → LiquidityAtTick} {poolAddress : Address} {history : List LiquidityEvent}
  {call : Handling Topic σ τ} {s : HandlerState σ τ} {total : Int → LiquidityAtTick}

/-- A helper has one liquidity. -/
theorem Holds.unique {total' : Int → LiquidityAtTick}
    (h : Holds factoryOf liquidity poolAddress s total)
    (h' : Holds factoryOf liquidity poolAddress s total') (tick : Int) : total tick = total' tick := by
  obtain ⟨helper, hhelper, htotal⟩ := h
  obtain ⟨helper', hhelper', htotal'⟩ := h'
  rw [hhelper] at hhelper'
  cases hhelper'
  rw [← htotal, htotal']

theorem Holds.congr {total' : Int → LiquidityAtTick}
    (h : Holds factoryOf liquidity poolAddress s total) (heq : ∀ tick, total tick = total' tick) :
    Holds factoryOf liquidity poolAddress s total' := by
  obtain ⟨helper, hhelper, htotal⟩ := h
  exact ⟨helper, hhelper, fun tick => (htotal tick).trans (heq tick)⟩

/-! ### The creation -/

/-- A helper that is built for the pool. -/
theorem HelperCalls.Counts.holds_getPool {degenbot : HelperCalls σ τ}
    (hcounts : degenbot.Counts factoryOf liquidity poolAddress history) {tracked : TrackedPools}
    (hmanager : s.poolManagers.get? (factoryOf poolAddress) = some tracked)
    (hnone : tracked.get? poolAddress = none) (stateBlock : Int) :
    Holds factoryOf liquidity poolAddress
      (s.getPool degenbot (factoryOf poolAddress) tracked poolAddress (some stateBlock)).2
      (postedIn (fun block => decide ((block : Int) ≤ stateBlock)) history) := by
  obtain ⟨helper, hbuilt, hliquidity⟩ := hcounts.builds tracked s.helpers stateBlock hnone
  rw [HandlerState.getPool, hbuilt]
  refine ⟨⟨poolAddress, s.helpers.next⟩, (helperOf_register helper hmanager poolAddress).trans (if_pos rfl),
    fun tick => ?_⟩
  show liquidity ((s.helpers.alloc helper).get s.helpers.next) tick = _
  rw [Heap.get_alloc_next, hliquidity]

/-- **The creation gives the helper all that its block has done to the pool.** -/
theorem Creates.holds (h : Creates abi factoryOf call poolAddress)
    (hcounts : call.degenbot.Counts factoryOf liquidity poolAddress history)
    (hnone : helperOf factoryOf s.poolManagers poolAddress = none) :
    Holds factoryOf liquidity poolAddress (call.next abi s)
      (postedIn (fun block => decide (block ≤ call.log.blockNumber)) history) := by
  have hnext : call.next abi s =
      s.addPool call.degenbot (factoryOf poolAddress) poolAddress call.log.blockNumber := by
    rw [Handling.next, Handling.handle, h.handler]
    show (processNewPoolEvent call.degenbot abi.poolCreated call.log s).2 = _
    rw [processNewPoolEvent, h.read, h.factory]
  have hblocks : (fun block : Nat => decide ((block : Int) ≤ call.log.blockNumber)) =
      fun block => decide (block ≤ call.log.blockNumber) := by
    funext block
    simp
  rw [hnext, HandlerState.addPool, HandlerState.ensureManager, ← hblocks]
  cases hmanager : s.poolManagers.get? (factoryOf poolAddress) with
  | some tracked => exact hcounts.holds_getPool hmanager (helperOf_eq_none.mp hnone tracked hmanager) _
  | none =>
    rw [hcounts.newManager]
    exact hcounts.holds_getPool (Dict.get?_set_self ..) (Dict.get?_empty _) _

/-! ### The events -/

/-- What the handler reads of the log. -/
theorem Delivers.readUpdate {e : LiquidityEvent} (h : Delivers abi call e) :
    call.readUpdate abi = .ok (if e.amount = 0 then none
      else some (.liquidityChange e.blockNumber e.liquidity e.tickLower e.tickUpper)) := by
  have hread : ∀ sign : Int, sign * e.amount = e.liquidity →
      readLiquidityUpdate abi (abi.amount e.event) sign call.log = .ok (if e.amount = 0 then none
        else some (.liquidityChange e.blockNumber e.liquidity e.tickLower e.tickUpper)) := by
    intro sign hsign
    rw [readLiquidityUpdate, h.read, ← hsign, h.block]
    by_cases hamount : e.amount = 0
    · simp only [if_pos hamount]
    · simp only [if_neg hamount]
  rw [Handling.readUpdate, h.handler]
  cases hevent : e.event with
  | mint =>
    rw [hevent] at hread
    exact hread 1 (by rw [LiquidityEvent.liquidity, hevent]; simp)
  | burn =>
    rw [hevent] at hread
    exact hread (-1) (by rw [LiquidityEvent.liquidity, hevent]; simp)

/-- Mints and Burns are tried in the same way. -/
theorem Delivers.attempt_eq {e : LiquidityEvent} (h : Delivers abi call e) :
    call.attempt = HandlerState.updateAndRecord call.degenbot call.log.address := by
  rw [Handling.attempt, h.handler]
  cases e.event <;> rfl

/-- The update adds the event's share, and the snapshot takes it. -/
theorem HelperCalls.Counts.updateAndRecord_eq {degenbot : HelperCalls σ τ}
    (hcounts : degenbot.Counts factoryOf liquidity poolAddress history) (eventAddress : Address)
    (helper : Pool) (e : LiquidityEvent) (s : HandlerState σ τ) :
    ∃ after snapshot,
      s.updateAndRecord degenbot eventAddress helper
          (.liquidityChange e.blockNumber e.liquidity e.tickLower e.tickUpper) =
        (.ok (), {s with helpers := s.helpers.write helper.object after, snapshot}) ∧
      ∀ tick, liquidity after tick =
        liquidity (s.helpers.get helper.object) tick + e.update.share tick := by
  obtain ⟨after, hafter, hadds⟩ := hcounts.adds (s.helpers.get helper.object) e.update
  obtain ⟨snapshot, hsnapshot⟩ := hcounts.records eventAddress after s.snapshot
  have hafter : degenbot.update (.liquidityChange e.blockNumber e.liquidity e.tickLower e.tickUpper)
      (s.helpers.get helper.object) = (.ok (), after) := hafter
  refine ⟨after, snapshot, ?_, hadds⟩
  rw [HandlerState.updateAndRecord, HandlerState.externalUpdate, hafter]
  simp only [HandlerState.updateSnapshot, Heap.get_write_self, hsnapshot]

/-- **Each event is added to what the helper has.** -/
theorem Delivers.holds {e : LiquidityEvent} (h : Delivers abi call e) (haddress : e.address = poolAddress)
    (hcounts : call.degenbot.Counts factoryOf liquidity poolAddress history)
    (hregistered : Registered factoryOf s.poolManagers)
    (hholds : Holds factoryOf liquidity poolAddress s total) :
    Holds factoryOf liquidity poolAddress (call.next abi s)
      fun tick => total tick + e.update.share tick := by
  obtain ⟨helper, hhelper, htotal⟩ := hholds
  have hlookup : call.lookup s = (.ok (some helper), s) := by
    rw [Handling.lookup, h.address, haddress]
    exact hcounts.lawful.findHelper_managed hregistered hhelper
  by_cases hamount : e.amount = 0
  · -- The handler returns, and there is nothing to add.
    have hstep : call.updateStep abi s = none := by
      rw [Handling.updateStep, h.readUpdate, if_pos hamount]
    have hsame : call.next abi s = s := by
      have hnew : ¬(call.processFunc = .processNewV2PoolEvent ∨
          call.processFunc = .processNewV3PoolEvent) := by
        rw [h.handler]
        cases e.event <;> simp [handlerOf]
      rcases Handling.next_of_no_step hstep hnew with hnext | hnext
      · exact hnext
      · rw [hnext, hlookup]
    have hliquidity : e.liquidity = 0 := by
      rw [LiquidityEvent.liquidity, hamount]
      simp
    have hshare : ∀ tick, total tick = total tick + e.update.share tick := by
      intro tick
      rw [share_of_no_liquidity hliquidity, add_zero]
    rw [hsame]
    exact ⟨helper, hhelper, fun tick => (htotal tick).trans (hshare tick)⟩
  · obtain ⟨after, snapshot, hattempt, hadds⟩ :=
      hcounts.updateAndRecord_eq call.log.address helper e s
    have hstep : call.updateStep abi s = some (helper, (.ok (),
        {s with helpers := s.helpers.write helper.object after, snapshot})) := by
      rw [Handling.updateStep, h.readUpdate, if_neg hamount, hlookup, ← hattempt, h.attempt_eq]
    rw [Handling.next_of_completed hstep]
    refine ⟨helper, hhelper, fun tick => ?_⟩
    show liquidity ((s.helpers.write helper.object after).get helper.object) tick = _
    rw [Heap.get_write_self, hadds, htotal]

/-! ### A whole history -/

theorem eq_zero_of_add_eq {a b : LiquidityAtTick} (h : a + b = b) : a = 0 := by
  have hnet : a.liquidityNet + b.liquidityNet = b.liquidityNet := congrArg LiquidityAtTick.liquidityNet h
  have hgross : a.liquidityGross + b.liquidityGross = b.liquidityGross :=
    congrArg LiquidityAtTick.liquidityGross h
  apply LiquidityAtTick.ext
  · show a.liquidityNet = 0
    omega
  · show a.liquidityGross = 0
    omega

/-- What the events of a list come to. -/
def postedBy (deliveries : List (LiquidityEvent × Handling Topic σ τ)) (tick : Int) : LiquidityAtTick :=
  posted (deliveries.map fun d => d.1.update) tick

/-- The deliveries of a history, in which each event is handed over and degenbot counts. -/
def Delivered (abi : EthAbi Topic) (factoryOf : Address → Address)
    (liquidity : σ → Int → LiquidityAtTick) (poolAddress : Address) (history : List LiquidityEvent)
    (deliveries : List (LiquidityEvent × Handling Topic σ τ)) : Prop :=
  ∀ d ∈ deliveries, d.1.address = poolAddress ∧ Delivers abi d.2 d.1 ∧
    d.2.degenbot.Counts factoryOf liquidity poolAddress history

/-- All of them are added. -/
theorem Delivered.holds {deliveries : List (LiquidityEvent × Handling Topic σ τ)} :
    ∀ {s : HandlerState σ τ} {total : Int → LiquidityAtTick},
      Delivered abi factoryOf liquidity poolAddress history deliveries →
      Registered factoryOf s.poolManagers → Holds factoryOf liquidity poolAddress s total →
      Holds factoryOf liquidity poolAddress (Handling.run abi (deliveries.map Prod.snd) s)
        fun tick => total tick + postedBy deliveries tick := by
  induction deliveries with
  | nil => exact fun _ _ hholds => hholds.congr fun tick => (add_zero _).symm
  | cons d rest ih =>
    intro s total hdelivered hregistered hholds
    obtain ⟨haddress, hdelivers, hcounts⟩ := hdelivered d (List.mem_cons_self ..)
    have hnext := hdelivers.holds haddress hcounts hregistered hholds
    have hregistered' := (Handling.helperOf_next abi d.2 hcounts.lawful hregistered).1
    refine (ih (fun d' hd => hdelivered d' (List.mem_cons_of_mem d hd)) hregistered' hnext).congr
      fun tick => ?_
    rw [add_assoc]
    rfl

end Count

/-- **No event is counted twice exactly if the block of the creation comes to nothing.**
After every Mint and Burn of a history that is delivered whole, creation first, the
helper has the liquidity of the events so far, if and only if at every tick the events
in the block of the creation add up to zero. -/
theorem liquidity_counted_once_iff (abi : EthAbi Topic) (factoryOf : Address → Address)
    (liquidity : σ → Int → LiquidityAtTick) (poolAddress : Address) (s : HandlerState σ τ)
    (hregistered : Registered factoryOf s.poolManagers)
    (hunknown : helperOf factoryOf s.poolManagers poolAddress = none)
    (creation : Handling Topic σ τ) (deliveries : List (LiquidityEvent × Handling Topic σ τ))
    (hcreates : Creates abi factoryOf creation poolAddress)
    (hcounts : creation.degenbot.Counts factoryOf liquidity poolAddress (deliveries.map Prod.fst))
    (hdelivered : Delivered abi factoryOf liquidity poolAddress (deliveries.map Prod.fst) deliveries)
    (hlater : ∀ d ∈ deliveries, creation.log.blockNumber ≤ d.1.blockNumber) :
    (∀ before d after, deliveries = before ++ d :: after →
        Holds factoryOf liquidity poolAddress
          (Handling.run abi (creation :: (before ++ [d]).map Prod.snd) s) (postedBy (before ++ [d]))) ↔
      ∀ tick, postedIn (fun block => decide (block = creation.log.blockNumber))
        (deliveries.map Prod.fst) tick = 0 := by
  have hstart := hcreates.holds hcounts hunknown
  have hregistered := (Handling.helperOf_next abi creation hcounts.lawful hregistered).1
  -- No event is before the creation.
  have hblock : ∀ tick, postedIn (fun block => decide (block ≤ creation.log.blockNumber))
      (deliveries.map Prod.fst) tick =
        postedIn (fun block => decide (block = creation.log.blockNumber))
          (deliveries.map Prod.fst) tick := by
    intro tick
    rw [postedIn, postedIn, List.filter_congr]
    intro e he
    obtain ⟨d, hd, rfl⟩ := List.mem_map.mp he
    rw [decide_eq_decide]
    exact ⟨fun h => Nat.le_antisymm h (hlater d hd), Nat.le_of_eq⟩
  have hholds : ∀ ds after, deliveries = ds ++ after →
      Holds factoryOf liquidity poolAddress (Handling.run abi (creation :: ds.map Prod.snd) s)
        fun tick => postedIn (fun block => decide (block = creation.log.blockNumber))
          (deliveries.map Prod.fst) tick + postedBy ds tick := by
    intro ds after hds
    have hsplit : Delivered abi factoryOf liquidity poolAddress (deliveries.map Prod.fst) ds :=
      fun d hd => hdelivered d (by rw [hds]; exact List.mem_append_left _ hd)
    refine (hsplit.holds hregistered hstart).congr fun tick => ?_
    rw [hblock]
  refine ⟨fun h tick => ?_, fun h before d after hdeliveries => ?_⟩
  · cases hdeliveries : deliveries with
    | nil => rfl
    | cons d rest =>
      have hfirst : deliveries = [] ++ d :: rest := hdeliveries
      have hsame := (hholds [d] rest hdeliveries).unique (h [] d rest hfirst) tick
      rw [← hdeliveries]
      exact eq_zero_of_add_eq hsame
  · have hsplit : deliveries = (before ++ [d]) ++ after := by
      rw [hdeliveries, List.append_assoc]
      rfl
    refine (hholds (before ++ [d]) after hsplit).congr fun tick => ?_
    rw [h, zero_add]

/-! ### One Mint -/

/-- Helpers that are nothing but their liquidity. -/
def counting (history : List LiquidityEvent) : HelperCalls (Int → LiquidityAtTick) Unit :=
  oneFactory (.fill 20)
    (fun _ stateBlock =>
      match stateBlock with
      | none => fun _ => 0
      | some stateBlock => postedIn (fun block => decide ((block : Int) ≤ stateBlock)) history)
    (fun update helper =>
      match update with
      | .liquidityChange _ amount tickLower tickUpper => (.ok (), fun tick => helper tick +
          if tick = tickLower then ⟨amount, amount⟩
          else if tick = tickUpper then ⟨-amount, amount⟩ else 0)
      | _ => (.ok (), helper))
    fun _ _ _ => (.ok (), ())

theorem counting_counts (poolAddress : Address) (history : List LiquidityEvent) :
    (counting history).Counts (fun _ => .fill 20) (fun helper => helper) poolAddress history where
  lawful := oneFactory_lawful ..
  newManager _ := rfl
  builds tracked helpers stateBlock h := by
    refine ⟨postedIn (fun block => decide ((block : Int) ≤ stateBlock)) history, ?_, fun _ => rfl⟩
    simp only [counting, oneFactory, h, if_pos]
  adds helper update := by
    refine ⟨_, rfl, fun tick => ?_⟩
    rw [ExternalUpdate.share, LiquidityChange.posting]
    by_cases hl : tick = update.liquidityChange.tickLower
    · simp only [if_pos hl, Option.getD_some]
    · by_cases hu : tick = update.liquidityChange.tickUpper
      · simp only [if_neg hl, if_pos hu, Option.getD_some]
      · simp only [if_neg hl, if_neg hu, Option.getD_none]
  records _ _ _ := ⟨(), rfl⟩

/-- Ticks are their own topics; the amount is the length of the data. -/
def plainAbi : EthAbi Int where
  sync _ := .ok (1, 1)
  swap _ := .ok (1, 1, 0)
  burn data := .ok data.length
  mint data := .ok data.length
  pairCreated _ := .ok (.fill 1)
  poolCreated _ := .ok (.fill 1)
  int24 := .ok

def noPools : HandlerState (Int → LiquidityAtTick) Unit := ⟨.empty, ⟨fun _ _ => 0, 0⟩, (), []⟩

theorem noPools_registered : Registered (fun _ => .fill 20) noPools.poolManagers := nofun

/-- Pool 1 is created in block 5. -/
def createdInBlock5 (history : List LiquidityEvent) : Handling Int (Int → LiquidityAtTick) Unit :=
  ⟨.processNewV3PoolEvent, ⟨.fill 20, 5, [], []⟩, counting history⟩

theorem createdInBlock5_creates (history : List LiquidityEvent) :
    Creates plainAbi (fun _ => .fill 20) (createdInBlock5 history) (.fill 1) := ⟨rfl, rfl, rfl⟩

/-- One unit of liquidity between the ticks 0 and 60. -/
def mintIn (blockNumber : Nat) : LiquidityEvent where
  event := .mint
  address := .fill 1
  blockNumber := blockNumber
  transactionIndex := 1
  logIndex := 1
  amount := 1
  tickLower := 0
  tickUpper := 60
  lower_lt_upper := by decide

def mintDelivered (blockNumber : Nat) :
    List (LiquidityEvent × Handling Int (Int → LiquidityAtTick) Unit) :=
  [(mintIn blockNumber, ⟨.processMintEvent, ⟨.fill 1, blockNumber, [0, 0, 0, 60], [0]⟩,
    counting [mintIn blockNumber]⟩)]

theorem mintDelivered_delivered (blockNumber : Nat) :
    Delivered plainAbi (fun _ => .fill 20) (fun helper => helper) (.fill 1) [mintIn blockNumber]
      (mintDelivered blockNumber) := by
  intro d hd
  rw [List.mem_singleton.mp hd]
  exact ⟨rfl, ⟨rfl, rfl, rfl, rfl⟩, counting_counts ..⟩

/-- A Mint in the block of the creation is in the helper twice. -/
theorem creation_block_counted_twice : ¬∀ (abi : EthAbi Int) (factoryOf : Address → Address)
    (liquidity : (Int → LiquidityAtTick) → Int → LiquidityAtTick) (poolAddress : Address)
    (s : HandlerState (Int → LiquidityAtTick) Unit), Registered factoryOf s.poolManagers →
    helperOf factoryOf s.poolManagers poolAddress = none →
    ∀ (creation : Handling Int (Int → LiquidityAtTick) Unit)
      (deliveries : List (LiquidityEvent × Handling Int (Int → LiquidityAtTick) Unit)),
    Creates abi factoryOf creation poolAddress →
    creation.degenbot.Counts factoryOf liquidity poolAddress (deliveries.map Prod.fst) →
    Delivered abi factoryOf liquidity poolAddress (deliveries.map Prod.fst) deliveries →
    (∀ d ∈ deliveries, creation.log.blockNumber ≤ d.1.blockNumber) →
    ∀ before d after, deliveries = before ++ d :: after →
      Holds factoryOf liquidity poolAddress
        (Handling.run abi (creation :: (before ++ [d]).map Prod.snd) s) (postedBy (before ++ [d])) := by
  intro h
  have hclaimed := h plainAbi (fun _ => .fill 20) (fun helper => helper) (.fill 1) noPools
    noPools_registered rfl (createdInBlock5 [mintIn 5]) (mintDelivered 5) (createdInBlock5_creates _)
    (counting_counts ..) (mintDelivered_delivered 5) (by decide) [] _ [] rfl
  have hstart := (createdInBlock5_creates [mintIn 5]).holds (counting_counts (.fill 1) [mintIn 5])
    (helperOf_eq_none.mpr nofun : helperOf (fun _ => .fill 20) noPools.poolManagers (.fill 1) = none)
  have hregistered := (Handling.helperOf_next plainAbi (createdInBlock5 [mintIn 5])
    (counting_counts (.fill 1) [mintIn 5]).lawful noPools_registered).1
  have hheld := (mintDelivered_delivered 5).holds hregistered hstart
  exact absurd (hheld.unique hclaimed 0) (by decide)

/-- A Mint in the next block is counted once. -/
theorem liquidity_counted_once_iff_next_block :
    Holds (fun _ => .fill 20) (fun helper => helper) (.fill 1)
      (Handling.run plainAbi (createdInBlock5 [mintIn 6] :: (mintDelivered 6).map Prod.snd) noPools)
      (postedBy (mintDelivered 6)) := by
  have hiff := liquidity_counted_once_iff plainAbi (fun _ => .fill 20) (fun helper => helper) (.fill 1)
    noPools noPools_registered rfl (createdInBlock5 [mintIn 6]) (mintDelivered 6)
    (createdInBlock5_creates _) (counting_counts ..) (mintDelivered_delivered 6) (by decide)
  exact hiff.mpr (fun _ => rfl) [] _ [] rfl

end CreamBots.App
