import CreamBots.App.LiquidityCount
import CreamBots.App.StartUp
import CreamBots.Builders.Liquidity.Profile

/-! The liquidity that the bot has of V3 pools, and that of the chain.

`load_pools` builds the helper of a V3 pool with the liquidity that the Mints and Burns up to
the block before the first event have left at each tick. Later ones are added as they are
received, and none is refused and no Burn takes the helper away as long as they come in order
(`HasPosted.run`). So a bot that has received all of them has the liquidity of the chain
(`started_bot_has_chain_liquidity`). -/
namespace CreamBots.App
open Data Builders Builders.Liquidity

variable {Topic σ τ Id : Type}

/-- `external_update` and `update_snapshot` of degenbot. An update is refused if it is for a
block before the last, or burns more than there is at a tick. A tick that no liquidity refers
to any more is removed. -/
structure HelperCalls.TakesLiquidity (degenbot : HelperCalls σ τ) (updateBlock : σ → Nat)
    (liquidity : σ → Int → LiquidityAtTick) : Prop where
  change : ∀ helper (update : ExternalUpdate), updateBlock helper ≤ update.blockNumber →
    (∀ tick, 0 ≤ (liquidity helper tick + update.share tick).liquidityGross) →
    ∃ after, degenbot.update (.liquidityChange update.blockNumber update.liquidityChange.amount
        update.liquidityChange.tickLower update.liquidityChange.tickUpper) helper = (.ok (), after) ∧
      updateBlock after = update.blockNumber ∧
      ∀ tick, (update.liquidityChange.posting tick = none →
          liquidity after tick = liquidity helper tick) ∧
        ∀ x, update.liquidityChange.posting tick = some x → liquidity after tick =
          if (liquidity helper tick + x).Unreferenced then 0 else liquidity helper tick + x
  swap : ∀ helper blockNumber inRange tick sqrtPriceX96, updateBlock helper ≤ blockNumber →
    ∃ after, degenbot.update (.swap blockNumber inRange tick sqrtPriceX96) helper = (.ok (), after) ∧
      updateBlock after = blockNumber ∧ liquidity after = liquidity helper
  records : ∀ address helper snapshot, ∃ after,
    degenbot.updateSnapshot address helper snapshot = (.ok (), after)

/-- The helper has what these updates come to, and none of a later block than this. -/
structure HasPosted (updateBlock : σ → Nat) (liquidity : σ → Int → LiquidityAtTick) (block : Nat)
    (held : List ExternalUpdate) (helper : σ) : Prop where
  block : updateBlock helper ≤ block
  liquidity : ∀ tick, liquidity helper tick = posted held tick

/-! ### One log -/

section Call
variable {abi : EthAbi Topic} {updateBlock : σ → Nat} {liquidity : σ → Int → LiquidityAtTick}
  {block : Nat} {held : List ExternalUpdate} {helper : σ} {call : Handling Topic σ τ}

theorem posted_concat (held : List ExternalUpdate) (update : ExternalUpdate) (tick : Int) :
    posted (held ++ [update]) tick = posted held tick + update.share tick := by
  rw [posted, List.map_append, List.sum_append, List.map_singleton, List.sum_singleton]
  rfl

/-- What no range is short of is at no tick negative, and an empty tick has no net liquidity. -/
theorem posted_nonneg {updates : List ExternalUpdate} (h : NeverShort updates) (tick : Int) :
    0 ≤ (posted updates tick).liquidityGross ∧
      ((posted updates tick).Unreferenced → posted updates tick = 0) := by
  have hbacked := h updates (List.prefix_refl _)
  rw [posted_eq]
  refine ⟨hbacked.held_nonneg tick, fun hheld => ?_⟩
  have hheld : Span.held (spans updates) tick = 0 := hheld
  rw [hheld, hbacked.jump_eq_zero hheld]
  rfl

/-- A Mint or a Burn is added. -/
theorem HasPosted.change (h : HasPosted updateBlock liquidity block held helper)
    (htakes : call.degenbot.TakesLiquidity updateBlock liquidity) {e : LiquidityEvent}
    (hdelivers : Delivers abi call e) (hblock : block ≤ call.log.blockNumber)
    (hshort : NeverShort (held ++ [e.update])) :
    HasPosted updateBlock liquidity call.log.blockNumber (held ++ [e.update]) (call.applied abi helper) ∧
      ∀ update, call.readUpdate abi = .ok (some update) →
        (call.degenbot.update update helper).1 = .ok () := by
  have hread := hdelivers.readUpdate
  rw [Handling.applied, hread]
  by_cases hamount : e.amount = 0
  · have hliquidity : e.liquidity = 0 := by
      rw [LiquidityEvent.liquidity, hamount]
      simp
    rw [if_pos hamount]
    refine ⟨⟨h.block.trans hblock, fun tick => ?_⟩, fun update hupdate => ?_⟩
    · rw [posted_concat, share_of_no_liquidity hliquidity, add_zero]
      exact h.liquidity tick
    · cases hupdate
  · rw [if_neg hamount]
    have hgross : ∀ tick, 0 ≤ (liquidity helper tick + e.update.share tick).liquidityGross := by
      intro tick
      rw [h.liquidity, ← posted_concat]
      exact (posted_nonneg hshort tick).1
    obtain ⟨after, hafter, hlast, hticks⟩ := htakes.change helper e.update
      (h.block.trans (hblock.trans hdelivers.block.le)) hgross
    have hafter : call.degenbot.update
        (.liquidityChange e.blockNumber e.liquidity e.tickLower e.tickUpper) helper = (.ok (), after) :=
      hafter
    refine ⟨⟨?_, fun tick => ?_⟩, fun update hupdate => ?_⟩
    · simp only [hafter]
      rw [hlast, hdelivers.block]
      exact le_refl _
    · simp only [hafter]
      rw [posted_concat, ← h.liquidity]
      cases hposting : e.update.liquidityChange.posting tick with
      | none =>
        rw [(hticks tick).1 hposting, ExternalUpdate.share, hposting]
        exact (add_zero _).symm
      | some x =>
        have hshare : e.update.share tick = x := by
          rw [ExternalUpdate.share, hposting]
          rfl
        rw [(hticks tick).2 x hposting, hshare]
        split
        · rename_i hempty
          rw [h.liquidity, ← hshare, ← posted_concat] at hempty ⊢
          exact ((posted_nonneg hshort tick).2 hempty).symm
        · rfl
    · cases hupdate
      rw [hafter]

/-- A Swap leaves the ticks as they are. -/
theorem HasPosted.swap (h : HasPosted updateBlock liquidity block held helper)
    (htakes : call.degenbot.TakesLiquidity updateBlock liquidity)
    (hswap : call.processFunc = .processSwapEvent) (hblock : block ≤ call.log.blockNumber) :
    HasPosted updateBlock liquidity call.log.blockNumber held (call.applied abi helper) := by
  have hread : call.readUpdate abi = (readSwap abi call.log).map some := by
    rw [Handling.readUpdate, hswap]
  rw [Handling.applied, hread, readSwap]
  cases abi.swap call.log.data with
  | error e => exact ⟨h.block.trans hblock, h.liquidity⟩
  | ok decoded =>
    obtain ⟨sqrtPriceX96, inRange, tick⟩ := decoded
    obtain ⟨after, hafter, hlast, hsame⟩ :=
      htakes.swap helper call.log.blockNumber inRange tick sqrtPriceX96 (h.block.trans hblock)
    show HasPosted updateBlock liquidity call.log.blockNumber held
      (call.degenbot.update (.swap call.log.blockNumber inRange tick sqrtPriceX96) helper).2
    rw [hafter]
    exact ⟨hlast.le, fun tick => (congrFun hsame tick).trans (h.liquidity tick)⟩

/-- A call whose update completes takes nothing away. -/
theorem not_takesAway {factoryOf : Address → Address} {poolAddress : Address} {pool : Pool}
    {seen : List (Handling Topic σ τ)} {s : HandlerState σ τ}
    (hsees : Sees factoryOf abi poolAddress pool helper seen s)
    (hlawful : call.degenbot.Lawful factoryOf)
    (htakes : call.degenbot.TakesLiquidity updateBlock liquidity)
    (hok : ∀ update, call.readUpdate abi = .ok (some update) →
      (call.degenbot.update update (appliedAll abi poolAddress seen helper)).1 = .ok ()) :
    ¬TakesAway abi poolAddress call s := by
  intro hremoves
  obtain ⟨rfl, hburn, pool', message, after, hstep⟩ := hremoves
  obtain ⟨update, s', hread, hlookup, hattempt⟩ := Handling.updateStep_eq_some.mp hstep
  have hfound : call.lookup s = (.ok (some pool), s) :=
    hlawful.findHelper_managed hsees.registered hsees.managed
  obtain ⟨hpool, rfl⟩ := Prod.mk.inj (hfound.symm.trans hlookup)
  obtain rfl : pool = pool' := Option.some.inj (Except.ok.inj hpool)
  have hupdate := hok update hread
  rw [← hsees.holds] at hupdate
  rcases hresult : call.degenbot.update update (s.helpers.get pool.object) with ⟨outcome, updated⟩
  rw [hresult] at hupdate
  obtain rfl : outcome = .ok () := hupdate
  obtain ⟨snapshot, hsnapshot⟩ := htakes.records call.log.address updated s.snapshot
  have hcompletes : (call.attempt pool update s).1 = .ok () := by
    rw [Handling.attempt, hburn]
    show (HandlerState.updateAndRecord call.degenbot call.log.address pool update s).1 = .ok ()
    rw [HandlerState.updateAndRecord, HandlerState.externalUpdate, hresult]
    simp only [HandlerState.updateSnapshot, Heap.get_write_self, hsnapshot]
  have hattempt : (.error (.assertionError message), after) = call.attempt pool update s := hattempt
  rw [← hattempt] at hcompletes
  cases hcompletes

end Call

/-! ### All logs of a pool -/

/-- The log, for which this handler is due, is that of the event. -/
structure LogOf (abi : EthAbi Topic) (due : HandlerCall Topic) (e : LiquidityEvent) : Prop where
  handler : due.1 = handlerOf e.event
  address : due.2.address = e.address
  block : due.2.blockNumber = e.blockNumber
  read : readLiquidity abi (abi.amount e.event) due.2 = .ok (e.tickLower, e.tickUpper, e.amount)

/-- The logs of a pool come in order, from this block on: Mints and Burns, which are these
events, and Swaps. -/
structure InOrder (abi : EthAbi Topic) (block : Nat) (dues : List (HandlerCall Topic))
    (later : List LiquidityEvent) : Prop where
  kinds : ∀ due ∈ dues, due.1 = .processMintEvent ∨ due.1 = .processBurnEvent ∨
    due.1 = .processSwapEvent
  started : ∀ due ∈ dues, block ≤ due.2.blockNumber
  sorted : dues.Pairwise fun due due' => due.2.blockNumber ≤ due'.2.blockNumber
  events : List.Forall₂ (LogOf abi) (dues.filter fun due => due.1 ≠ .processSwapEvent) later

/-- The first log is a Swap, or that of the first event. -/
theorem InOrder.tail {abi : EthAbi Topic} {block : Nat} {due : HandlerCall Topic}
    {rest : List (HandlerCall Topic)} {later : List LiquidityEvent}
    (h : InOrder abi block (due :: rest) later) :
    (due.1 = .processSwapEvent ∧ InOrder abi due.2.blockNumber rest later) ∨
      ∃ e later', later = e :: later' ∧ LogOf abi due e ∧
        InOrder abi due.2.blockNumber rest later' := by
  have hkinds := fun d hd => h.kinds d (List.mem_cons_of_mem due hd)
  obtain ⟨hstarted, hsorted⟩ := List.pairwise_cons.mp h.sorted
  have hevents := h.events
  by_cases hswap : due.1 = .processSwapEvent
  · rw [List.filter_cons_of_neg (by simpa using hswap)] at hevents
    exact .inl ⟨hswap, hkinds, hstarted, hsorted, hevents⟩
  · rw [List.filter_cons_of_pos (by simpa using hswap)] at hevents
    obtain ⟨e, later', hlog, hrest, rfl⟩ := List.forall₂_cons_left_iff.mp hevents
    exact .inr ⟨e, later', rfl, hlog, hkinds, hstarted, hsorted, hrest⟩

theorem InOrder.le_later {abi : EthAbi Topic} {block : Nat} {dues : List (HandlerCall Topic)} :
    ∀ {later : List LiquidityEvent}, InOrder abi block dues later →
      ∀ e ∈ later, block ≤ e.blockNumber := by
  induction dues generalizing block with
  | nil =>
    intro later h e he
    cases h.events
    cases he
  | cons due rest ih =>
    intro later h e he
    have hdue := h.started due (List.mem_cons_self ..)
    rcases h.tail with ⟨_, hrest⟩ | ⟨first, later', rfl, hlog, hrest⟩
    · exact hdue.trans (ih hrest e he)
    · rcases List.mem_cons.mp he with rfl | he
      · exact hdue.trans hlog.block.le
      · exact hdue.trans (ih hrest e he)

/-- What the calls on the logs of a pool are due. -/
def duesOf (poolAddress : Address) (calls : List (Handling Topic σ τ)) : List (HandlerCall Topic) :=
  (calls.filter fun call => call.log.address = poolAddress).map fun call => (call.processFunc, call.log)

theorem duesOf_cons {poolAddress : Address} {call : Handling Topic σ τ} {rest : List (Handling Topic σ τ)} :
    duesOf poolAddress (call :: rest) =
      if call.log.address = poolAddress then (call.processFunc, call.log) :: duesOf poolAddress rest
      else duesOf poolAddress rest := by
  rw [duesOf, List.filter_cons]
  by_cases haddress : call.log.address = poolAddress
  · rw [if_pos (decide_eq_true haddress), if_pos haddress]
    rfl
  · rw [if_neg (by simpa using haddress), if_neg haddress, duesOf]

section Run
variable {abi : EthAbi Topic} {updateBlock : σ → Nat} {liquidity : σ → Int → LiquidityAtTick}
  {factoryOf : Address → Address} {poolAddress : Address} {pool : Pool} {helper : σ}

/-- In order nothing is refused, and the helper stays. -/
theorem HasPosted.run (calls : List (Handling Topic σ τ)) :
    ∀ {seen : List (Handling Topic σ τ)} {s : HandlerState σ τ} {block : Nat}
      {held : List ExternalUpdate} {later : List LiquidityEvent},
    Sees factoryOf abi poolAddress pool helper seen s →
    HasPosted updateBlock liquidity block held (appliedAll abi poolAddress seen helper) →
    InOrder abi block (duesOf poolAddress calls) later →
    NeverShort (held ++ later.map LiquidityEvent.update) →
    (∀ call ∈ calls, call.degenbot.Lawful factoryOf ∧
      call.degenbot.TakesLiquidity updateBlock liquidity) →
    Sees factoryOf abi poolAddress pool helper (seen ++ calls) (Handling.run abi calls s) ∧
      ∀ tick, liquidity (appliedAll abi poolAddress (seen ++ calls) helper) tick =
        posted (held ++ later.map LiquidityEvent.update) tick := by
  induction calls with
  | nil =>
    intro seen s block held later hsees hposted horder _ _
    cases horder.events
    rw [List.append_nil, List.map_nil, List.append_nil]
    exact ⟨hsees, hposted.liquidity⟩
  | cons call rest ih =>
    intro seen s block held later hsees hposted horder hshort hdegenbot
    obtain ⟨hlawful, htakes⟩ := hdegenbot call (List.mem_cons_self ..)
    have hrest := fun c hc => hdegenbot c (List.mem_cons_of_mem call hc)
    -- After a call that takes nothing away the rest goes on with what the helper has then.
    have hnext : ∀ {block' held' later'}, ¬TakesAway abi poolAddress call s →
        HasPosted updateBlock liquidity block' held' (appliedAll abi poolAddress (seen ++ [call]) helper) →
        InOrder abi block' (duesOf poolAddress rest) later' →
        held' ++ later'.map LiquidityEvent.update = held ++ later.map LiquidityEvent.update →
        Sees factoryOf abi poolAddress pool helper (seen ++ call :: rest)
            (Handling.run abi (call :: rest) s) ∧
          ∀ tick, liquidity (appliedAll abi poolAddress (seen ++ call :: rest) helper) tick =
            posted (held ++ later.map LiquidityEvent.update) tick := by
      intro block' held' later' hkeeps hposted' horder' hsame
      have hsees' : Sees factoryOf abi poolAddress pool helper (seen ++ [call]) (call.next abi s) := by
        rcases hsees.next hlawful with ⟨_, hsees'⟩ | ⟨htaken, _⟩
        · exact hsees'
        · exact absurd htaken hkeeps
      rw [← hsame] at hshort ⊢
      have hrun := ih hsees' hposted' horder' hshort hrest
      rw [List.append_assoc] at hrun
      exact hrun
    by_cases haddress : call.log.address = poolAddress
    · have happlied : appliedAll abi poolAddress (seen ++ [call]) helper =
          call.applied abi (appliedAll abi poolAddress seen helper) := by
        rw [appliedAll_concat, if_pos haddress]
      rw [duesOf_cons, if_pos haddress] at horder
      have hblock : block ≤ call.log.blockNumber := horder.started _ (List.mem_cons_self ..)
      rcases horder.tail with ⟨hswap, horder'⟩ | ⟨e, later', rfl, hlog, horder'⟩
      · refine hnext (fun htaken => ?_) ?_ horder' rfl
        · cases hswap.symm.trans htaken.2.1
        · rw [happlied]
          exact hposted.swap htakes hswap hblock
      · have hsplit : held ++ (e :: later').map LiquidityEvent.update =
            held ++ [e.update] ++ later'.map LiquidityEvent.update := by
          rw [List.append_assoc]
          rfl
        rw [hsplit] at hshort
        obtain ⟨hposted', hok⟩ := hposted.change htakes
          ⟨hlog.handler, hlog.address, hlog.block, hlog.read⟩ hblock
          (hshort.of_prefix (List.prefix_append ..))
        refine hnext (not_takesAway hsees hlawful htakes hok) ?_ horder' hsplit.symm
        rw [happlied]
        exact hposted'
    · rw [duesOf_cons, if_neg haddress] at horder
      refine hnext (fun htaken => haddress htaken.1) ?_ horder rfl
      rw [appliedAll_concat, if_neg haddress]
      exact hposted

end Run

/-! ### A bot that was started -/

/-- A helper that is built for the pool has the liquidity after the block, and the block. -/
def HelperCalls.BuildsLiquidity (degenbot : HelperCalls σ τ) (factoryOf : Address → Address)
    (updateBlock : σ → Nat) (liquidity : σ → Int → LiquidityAtTick) (poolAddress : Address)
    (history : List LiquidityEvent) : Prop :=
  ∀ stateBlock helper, degenbot.Builds factoryOf stateBlock poolAddress helper →
    updateBlock helper = stateBlock ∧
      ∀ tick, liquidity helper tick =
        postedIn (fun block => decide (block ≤ stateBlock)) history tick

/-- **A bot that has received the Mints and Burns of a V3 pool has its liquidity.** However the
running bot is interleaved, if no app state unsets the first event: once the bot has received
those from the first event on, the pool's logs in the order of their blocks, the helper that a
cycle has of the pool is the managed one and has at every tick the liquidity that the chain
has there. -/
theorem started_bot_has_chain_liquidity [DecidableEq Topic] [DecidableEq Id]
    (degenbot : HelperCalls σ τ) (factoryOf : Address → Address) (hlawful : degenbot.Lawful factoryOf)
    (updateBlock : σ → Nat) (liquidity : σ → Int → LiquidityAtTick) (state : BotState Id)
    (hfirstEvent : state.firstEvent ≠ 0) (helpers : Heap σ) (snapshot : τ)
    (hmanagers : state.poolManagers = createPoolManagers (degenbot.managerClasses factoryOf
      (newManagers state.chainData helpers snapshot)) state.chainData state.firstEvent)
    (hpools : state.allPools = Dict.empty) (harbs : state.allArbs = Dict.empty)
    (setOrder : List Address → List Address) (lpFiles : List (List PoolRecord))
    (arbPaths2 arbPaths3 : Dict Id (ArbPath Id)) (loaded : Loaded Id)
    (hloaded : loadPools setOrder state lpFiles arbPaths2 arbPaths3 = .ok loaded)
    (abi : EthAbi Topic) (events : Events Topic) (missed : List (Log Topic))
    (steps : List (LiveBot.Step Topic σ τ Id)) (hset : LiveBot.NeverUnset steps)
    (hsteps : ∀ degenbot, .receive degenbot ∈ steps →
      degenbot.Lawful factoryOf ∧ degenbot.TakesLiquidity updateBlock liquidity) :
    let s := (newManagers state.chainData helpers snapshot).made degenbot factoryOf
      (state.firstEvent - 1) loaded.botState.allPools.keys
    ∃ last : LiveBot Topic σ τ Id,
      (LiveBot.start missed state.firstEvent s.poolManagers s.helpers s.snapshot).after abi events
        loaded.botState.allArbs steps = .ok last ∧
      ∀ arb ∈ loaded.botState.allArbs.cycles, ∀ pool ∈ arb.swapPools,
        ∀ earlier later : List LiquidityEvent,
        degenbot.BuildsLiquidity factoryOf updateBlock liquidity pool.address (earlier ++ later) →
        (∀ e ∈ earlier, e.blockNumber < state.firstEvent) →
        NeverShort ((earlier ++ later).map LiquidityEvent.update) →
        InOrder abi state.firstEvent (last.creamEvents.received.filterMap (poolCall events pool.address))
          later →
        helperOf factoryOf last.trading.pipeline.handlers.poolManagers pool.address = some pool ∧
          ∀ tick, liquidity (last.trading.pipeline.handlers.helpers.get pool.object) tick =
            posted ((earlier ++ later).map LiquidityEvent.update) tick := by
  intro s
  obtain ⟨hworking, last, hlast, hstart⟩ := exists_started
    (tracks_loaded hlawful hmanagers hpools hloaded) hloaded harbs abi events state.firstEvent missed steps
  refine ⟨last, hlast, fun arb harb pool hpool earlier later hbuilds hearlier hshort horder => ?_⟩
  obtain ⟨hsees, hbuilt⟩ := hstart arb harb pool hpool
  obtain ⟨_, hcalls⟩ := LiveBot.heard_after hworking rfl
    (Option.some_ne_none state.firstEvent) hlast
  obtain ⟨putTasks, hhandlers⟩ := LiveBot.handlers_after steps hworking hlast
  obtain ⟨hblock, hliquidity⟩ := hbuilds _ _ hbuilt
  have hstarts : ∀ tick, postedIn (fun block => decide (block ≤ state.firstEvent - 1)) (earlier ++ later)
      tick = posted (earlier.map LiquidityEvent.update) tick := by
    intro tick
    have hall : earlier.filter (fun e => decide (e.blockNumber ≤ state.firstEvent - 1)) = earlier :=
      List.filter_eq_self.mpr fun e he => decide_eq_true (Nat.le_sub_one_of_lt (hearlier e he))
    have hnone : later.filter (fun e => decide (e.blockNumber ≤ state.firstEvent - 1)) = [] := by
      rw [List.filter_eq_nil_iff]
      intro e he
      have hle := horder.le_later e he
      rw [decide_eq_true_iff]
      omega
    rw [postedIn, List.filter_append, hall, hnone, List.append_nil]
  have hposted : HasPosted updateBlock liquidity state.firstEvent (earlier.map LiquidityEvent.update)
      (appliedAll abi pool.address ([] : List (Handling Topic σ τ)) (s.helpers.get pool.object)) :=
    ⟨hblock.le.trans (Nat.sub_le ..), fun tick => (hliquidity tick).trans (hstarts tick)⟩
  rw [← filter_dueCalls, ← hcalls hset, List.filter_map] at horder
  rw [List.map_append] at hshort ⊢
  obtain ⟨hseen, hheld⟩ := hposted.run _ hsees horder hshort fun call hcall =>
    hsteps _ (LiveBot.mem_calls steps call hcall)
  rw [hhandlers]
  refine ⟨hseen.managed, fun tick => ?_⟩
  rw [← hheld tick]
  exact congrFun (congrArg liquidity hseen.holds) tick

/-! ### A Mint before the start and one after it -/

/-- The block of the last update, and the ticks. -/
abbrev Ticking := Nat × (Int → LiquidityAtTick)

/-- What is posted to a tick, which is then removed if no liquidity refers to it. -/
def settled (l : LiquidityAtTick) : LiquidityAtTick := if l.Unreferenced then 0 else l

def Ticking.update : PoolUpdate → Ticking → Except PyError Unit × Ticking
  | .liquidityChange blockNumber amount tickLower tickUpper, helper =>
    if blockNumber < helper.1 then (.error .externalUpdateError, helper)
    else (.ok (), blockNumber, fun tick =>
      if tick = tickLower then settled (helper.2 tick + ⟨amount, amount⟩)
      else if tick = tickUpper then settled (helper.2 tick + ⟨-amount, amount⟩) else helper.2 tick)
  | .swap blockNumber _ _ _, helper =>
    if blockNumber < helper.1 then (.error .externalUpdateError, helper)
    else (.ok (), blockNumber, helper.2)
  | .reserves _ _ _, helper => (.ok (), helper)

/-- Builds helpers with the liquidity after the block. -/
def ticking (history : List LiquidityEvent) : HelperCalls Ticking Unit :=
  oneFactory (.fill 21)
    (fun _ stateBlock =>
      let block := (stateBlock.getD 0).toNat
      (block, postedIn (fun b => decide (b ≤ block)) history))
    Ticking.update fun _ _ snapshot => (.ok (), snapshot)

theorem ticking_takes (history : List LiquidityEvent) :
    (ticking history).TakesLiquidity Prod.fst Prod.snd where
  change helper update hblock _ := by
    refine ⟨_, if_neg (not_lt.mpr hblock), rfl, fun tick => ⟨fun hposting => ?_, fun x hposting => ?_⟩⟩
    · have hlower : tick ≠ update.liquidityChange.tickLower := by
        rintro rfl
        simp [LiquidityChange.posting] at hposting
      have hupper : tick ≠ update.liquidityChange.tickUpper := by
        rintro rfl
        simp [LiquidityChange.posting, hlower] at hposting
      simp only [if_neg hlower, if_neg hupper]
    · obtain ⟨rfl, rfl⟩ | ⟨rfl, rfl⟩ := LiquidityChange.posting_eq_some hposting
      · simp only [if_pos, settled]
      · simp only [if_neg (Int.ne_of_gt update.liquidityChange.lower_lt_upper), if_pos, settled]
  swap helper blockNumber _ _ _ hblock := ⟨_, if_neg (not_lt.mpr hblock), rfl, rfl⟩
  records _ _ snapshot := ⟨snapshot, rfl⟩

theorem ticking_builds (poolAddress : Address) (history : List LiquidityEvent) :
    (ticking history).BuildsLiquidity (fun _ => .fill 21) Prod.fst Prod.snd poolAddress history :=
  fun _ _ hbuilt => ⟨by rw [oneFactory_builds hbuilt]; rfl, fun _ => by rw [oneFactory_builds hbuilt]; rfl⟩

def v3Pool (n token : UInt8) : PoolRecord :=
  ⟨.fill n, some 500, .fill 9, .fill token, 7, none, .uniswapV3, "b"⟩

def arbOfV3Pools : ArbPath (List UInt8) :=
  arbThrough [.fill 1, .fill 2] [v3Pool 1 8, v3Pool 2 8]

def twoMintEvents : List LiquidityEvent := [mintIn 3, mintIn 6]

def secondMint : List (LiveBot.Step Int Ticking Unit (List UInt8)) :=
  [.publish ⟨.fill 1, 6, [0, 0, 0, 60], [0]⟩, .updateBotState (some (some 5)),
    .receive (ticking twoMintEvents)]

/-- The helper is built with the first Mint, and told of the second. -/
theorem started_bot_has_chain_liquidity_mint : ∃ (loaded : Loaded (List UInt8))
    (s : HandlerState Ticking Unit) (last : LiveBot Int Ticking Unit (List UInt8)),
    loadPools id (managersMade (ticking twoMintEvents) (.fill 21) ⟨fun _ => (0, fun _ => 0), 0⟩ ())
      [[v3Pool 1 8, v3Pool 2 8]] (.ofList [(arbOfV3Pools.id, arbOfV3Pools)]) .empty = .ok loaded ∧
    (LiveBot.start [] 5 s.poolManagers s.helpers s.snapshot).after plainAbi
      (.ofList [(0, .processMintEvent)]) loaded.botState.allArbs secondMint = .ok last ∧
    (last.trading.pipeline.handlers.helpers.get 0).2 60 = ⟨-2, 2⟩ := by
  have hsteps : ∀ degenbot, .receive degenbot ∈ secondMint →
      degenbot.Lawful (fun _ => .fill 21) ∧ degenbot.TakesLiquidity Prod.fst Prod.snd := by
    intro degenbot hmem
    simp only [secondMint, List.mem_cons, List.not_mem_nil, or_false, reduceCtorEq, false_or,
      LiveBot.Step.receive.injEq] at hmem
    rw [hmem]
    exact ⟨oneFactory_lawful .., ticking_takes _⟩
  obtain ⟨last, hlast, hpools⟩ := started_bot_has_chain_liquidity (ticking twoMintEvents)
    (fun _ => .fill 21) (oneFactory_lawful ..) Prod.fst Prod.snd
    (managersMade (ticking twoMintEvents) (.fill 21) ⟨fun _ => (0, fun _ => 0), 0⟩ ()) (by decide)
    ⟨fun _ => (0, fun _ => 0), 0⟩ () rfl rfl rfl id [[v3Pool 1 8, v3Pool 2 8]]
    (.ofList [(arbOfV3Pools.id, arbOfV3Pools)]) .empty _ rfl plainAbi
    (.ofList [(0, .processMintEvent)]) [] secondMint (by simp [secondMint]) hsteps
  refine ⟨_, _, last, rfl, hlast, ?_⟩
  cases hlast
  have horder : InOrder plainAbi 5
      [(.processMintEvent, ⟨.fill 1, 6, [0, 0, 0, 60], [0]⟩)] [mintIn 6] :=
    ⟨by decide, by decide, List.pairwise_singleton .., .cons ⟨rfl, rfl, rfl, rfl⟩ .nil⟩
  obtain ⟨_, hliquidity⟩ := hpools
    (arbDetails stateBeforeLoading.chainData arbOfV3Pools [⟨.fill 1, 0⟩, ⟨.fill 2, 1⟩]).lpCycle
    (by decide) ⟨.fill 1, 0⟩ (by decide) [mintIn 3] [mintIn 6] (ticking_builds _ _) (by decide)
    (NeverShort.of_gains (by decide)) horder
  exact hliquidity 60

end CreamBots.App
