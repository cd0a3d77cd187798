import CreamBots.App.PoolManagers
import CreamBots.App.PoolService

/-! Whether updates reach the pools that the arbs trade.

The cycles keep the pool objects that they were built with, the handlers go by what the
managers track. The two agree as long as nothing is taken out of a manager: a managed
helper stays the managed one (`Handling.helperOf_next`). A Burn whose update fails an
assertion takes its helper out, and from then on no event reaches the object that the
cycles have. Whether this happens to a pool of a cycle is all that counts
(`updates_reach_cycles_iff`). -/
namespace CreamBots.App
open Data Builders

variable {Topic σ τ Id : Type}

/-! ### Runs -/

section Run
variable (abi : EthAbi Topic)

/-- No cycle keeps a pool object that is not the managed one. -/
def Connected (allArbs : AllArbs Id) (s : HandlerState σ τ) : Prop :=
  ∀ arb ∈ allArbs.cycles, ∀ pool ∈ arb.swapPools, Managed s.poolManagers pool

/-- If the call updates a helper, it is the object that every cycle has at that address. -/
def Reaches (allArbs : AllArbs Id) (s : HandlerState σ τ) (call : Handling Topic σ τ) : Prop :=
  ∀ updated outcome, call.updateStep abi s = some (updated, outcome) →
    ∀ arb ∈ allArbs.cycles, ∀ pool ∈ arb.swapPools, pool.address = call.log.address → pool = updated

/-- The call takes the helper of a pool of some cycle out of its manager. -/
def Cuts (allArbs : AllArbs Id) (s : HandlerState σ τ) (call : Handling Topic σ τ) : Prop :=
  call.Removes abi s ∧ ∃ arb ∈ allArbs.cycles, arb.tradesThrough call.log.address = true

variable {abi} {allArbs : AllArbs Id} {s : HandlerState σ τ} {call : Handling Topic σ τ}
  {factoryOf : Address → Address}

theorem Connected.next (h : Connected allArbs s) (hlawful : call.degenbot.Lawful factoryOf)
    (hregistered : Registered factoryOf s.poolManagers) (hcuts : ¬Cuts abi allArbs s call) :
    Connected allArbs (call.next abi s) := by
  obtain ⟨hafter, hkeeps⟩ := Handling.helperOf_next abi call hlawful hregistered
  intro arb harb pool hpool
  rw [hafter.managed_iff]
  apply hkeeps _ _ (hregistered.managed_iff.mp (h arb harb pool hpool))
  intro hboth
  obtain ⟨hremoves, haddress⟩ := hboth
  exact hcuts ⟨hremoves, arb, harb, UniswapLpCycle.tradesThrough_iff.mpr ⟨pool, hpool, haddress.symm⟩⟩

/-- After a cut some cycle keeps an object that is not managed. -/
theorem Cuts.not_connected (h : Cuts abi allArbs s call) (hlawful : call.degenbot.Lawful factoryOf)
    (hregistered : Registered factoryOf s.poolManagers) : ¬Connected allArbs (call.next abi s) := by
  obtain ⟨hremoves, arb, harb, hthrough⟩ := h
  obtain ⟨pool, hpool, haddress⟩ := UniswapLpCycle.tradesThrough_iff.mp hthrough
  obtain ⟨hafter, hremoved, _⟩ := hremoves.next hlawful hregistered
  intro hconnected
  have hmanaged := hafter.managed_iff.mp (hconnected arb harb pool hpool)
  rw [haddress, hremoved] at hmanaged
  cases hmanaged

/-- The managed objects are the ones that are updated. -/
theorem Connected.reaches (h : Connected allArbs s) (hlawful : call.degenbot.Lawful factoryOf)
    (hregistered : Registered factoryOf s.poolManagers) : Reaches abi allArbs s call := by
  intro updated result hstep arb harb pool hpool haddress
  obtain ⟨outcome, after⟩ := result
  obtain ⟨_, hupdated, hkeeps⟩ := Handling.updateStep_managed hlawful hregistered hstep
  have hmanaged := hregistered.managed_iff.mp (h arb harb pool hpool)
  rw [haddress] at hmanaged
  rw [hkeeps _ _ hmanaged] at hupdated
  exact Option.some.inj hupdated

/-- While no call cuts a cycle off, the cycles stay connected. -/
theorem Connected.run {calls : List (Handling Topic σ τ)}
    (hlawful : ∀ call ∈ calls, call.degenbot.Lawful factoryOf)
    (hregistered : Registered factoryOf s.poolManagers) (hconnected : Connected allArbs s)
    (hcuts : ∀ before call after, calls = before ++ call :: after →
      ¬Cuts abi allArbs (Handling.run abi before s) call) :
    Connected allArbs (Handling.run abi calls s) := by
  induction calls generalizing s with
  | nil => exact hconnected
  | cons call rest ih =>
    have hcall := hlawful call (List.mem_cons_self ..)
    apply ih fun c hc => hlawful c (List.mem_cons_of_mem call hc)
    · exact (Handling.helperOf_next abi call hcall hregistered).1
    · exact hconnected.next hcall hregistered (hcuts [] call rest rfl)
    · intro before call' after hrest
      exact hcuts (call :: before) call' after (by rw [hrest, List.cons_append])

end Run

/-! ### From the end of load_pools -/

section Loaded
variable [DecidableEq Id] {allPools : AllPools} {state : BotState Id}

omit [DecidableEq Id] in
/-- The pools that the loop collects are helpers there are. -/
theorem mem_swapPools {path : List Address} {pool : Pool} (h : pool ∈ swapPools allPools path) :
    ∃ poolAddress, allPools.get? poolAddress = some pool := by
  induction path with
  | nil => cases h
  | cons poolAddress rest ih =>
    rw [swapPools] at h
    cases hget : allPools.get? poolAddress with
    | none =>
      rw [hget] at h
      cases h
    | some first =>
      rw [hget] at h
      rcases List.mem_cons.mp h with rfl | h
      · exact ⟨poolAddress, hget⟩
      · exact ih h

/-- The pools of the cycles were taken from the table of helpers. -/
theorem mem_swapPools_of_loaded {setOrder : List Address → List Address}
    {lpFiles : List (List PoolRecord)} {arbPaths2 arbPaths3 : Dict Id (ArbPath Id)}
    {loaded : Loaded Id} (hloaded : loadPools setOrder state lpFiles arbPaths2 arbPaths3 = .ok loaded)
    (hempty : state.allArbs = Dict.empty) {arb : UniswapLpCycle Id}
    (harb : arb ∈ loaded.botState.allArbs.cycles) {pool : Pool} (hpool : pool ∈ arb.swapPools) :
    ∃ poolAddress, loaded.botState.allPools.get? poolAddress = some pool := by
  obtain ⟨_, _, harbs⟩ := loadPools_eq_ok hloaded
  rw [harbs, hempty, foldl_addArb, AllArbs.mem_cycles] at harb
  obtain ⟨id, details, hget, rfl⟩ := harb
  obtain ⟨arb, _, hentry⟩ := List.mem_map.mp (Dict.lastValue?_mem ((Dict.get?_ofList _ _).symm.trans hget))
  rw [← (Prod.mk.inj hentry).2] at hpool
  exact mem_swapPools hpool

/-- **Updates reach the pools of the cycles as long as no Burn cuts one off**: at every
point of a run the cycles have the managed objects and a call updates these, exactly if
no call is a Burn that fails an assertion on the update of a pool that some cycle
trades through. -/
theorem updates_reach_cycles_iff (setOrder : List Address → List Address) (state : BotState Id)
    (lpFiles : List (List PoolRecord)) (arbPaths2 arbPaths3 : Dict Id (ArbPath Id))
    (hempty : state.allArbs = Dict.empty) (loaded : Loaded Id)
    (hloaded : loadPools setOrder state lpFiles arbPaths2 arbPaths3 = .ok loaded)
    (abi : EthAbi Topic) (factoryOf : Address → Address) (s : HandlerState σ τ)
    (hregistered : Registered factoryOf s.poolManagers)
    (hmanaged : ∀ poolAddress pool, loaded.botState.allPools.get? poolAddress = some pool →
      helperOf factoryOf s.poolManagers poolAddress = some pool)
    (calls : List (Handling Topic σ τ)) (hlawful : ∀ call ∈ calls, call.degenbot.Lawful factoryOf) :
    (∀ before after, calls = before ++ after →
        Connected loaded.botState.allArbs (Handling.run abi before s) ∧
        ∀ call ∈ after.head?, Reaches abi loaded.botState.allArbs (Handling.run abi before s) call) ↔
      ∀ before call after, calls = before ++ call :: after →
        ¬Cuts abi loaded.botState.allArbs (Handling.run abi before s) call := by
  have hregisteredRun : ∀ {before after}, calls = before ++ after →
      Registered factoryOf (Handling.run abi before s).poolManagers := by
    intro before after hcalls
    subst hcalls
    exact Handling.registered_run (fun c hc => hlawful c (List.mem_append_left _ hc)) hregistered
  refine ⟨fun h before call after hcalls hcuts => ?_, fun h before after hcalls => ?_⟩
  · have hcall : call.degenbot.Lawful factoryOf := hlawful call (by rw [hcalls]; simp)
    apply hcuts.not_connected hcall (hregisteredRun hcalls)
    have hconnected := (h (before ++ [call]) after (by rw [hcalls, List.append_assoc]; rfl)).1
    rw [Handling.run, List.foldl_append] at hconnected
    exact hconnected
  · have hstart : Connected loaded.botState.allArbs s := by
      intro arb harb pool hpool
      obtain ⟨poolAddress, hget⟩ := mem_swapPools_of_loaded hloaded hempty harb hpool
      have hhelper := hmanaged poolAddress pool hget
      rw [hregistered.managed_iff, hregistered.address hhelper]
      exact hhelper
    have hconnected : Connected loaded.botState.allArbs (Handling.run abi before s) := by
      apply hstart.run (fun c hc => hlawful c (by rw [hcalls]; exact List.mem_append_left _ hc))
        hregistered
      intro before' call after' hsplit
      subst hsplit
      exact h before' call (after' ++ after) (by rw [hcalls, List.append_assoc]; rfl)
    refine ⟨hconnected, fun call hcall => ?_⟩
    have hmem : call ∈ calls := by
      rw [hcalls]
      exact List.mem_append_right _ (List.mem_of_mem_head? hcall)
    exact hconnected.reaches (hlawful call hmem) (hregisteredRun hcalls)

end Loaded

/-! ### A Burn, and then a Swap -/

/-- Updates end like this. -/
def updatesEnd (outcome : Except PyError Unit) : HelperCalls Unit Unit :=
  oneFactory (.fill 20) (fun _ _ => ()) (fun _ _ => (outcome, ())) fun _ _ _ => (.ok (), ())

/-- Every log has liquidity in it. -/
def someLiquidity : EthAbi Unit where
  sync _ := .ok (1, 1)
  swap _ := .ok (1, 1, 0)
  burn _ := .ok 1
  mint _ := .ok 1
  pairCreated _ := .ok (.fill 1)
  poolCreated _ := .ok (.fill 1)
  int24 _ := .ok 0

/-- Numbers the helpers in the order in which it makes them. -/
def numbering : PoolManager where
  getPool allPools poolAddress _ _ := (.ok ⟨poolAddress, allPools.items.length⟩,
    allPools.set poolAddress ⟨poolAddress, allPools.items.length⟩)

def beforeTwoPools : BotState (List UInt8) :=
  {stateBeforeLoading with poolManagers := .ofList [(.fill 20, numbering)]}

/-- The managers after the pools 1 and 2 were loaded. -/
def afterTwoPools : HandlerState Unit Unit where
  poolManagers := .ofList [(.fill 20, .ofList [(.fill 1, ⟨.fill 1, 0⟩), (.fill 2, ⟨.fill 2, 1⟩)])]
  helpers := ⟨fun _ => (), 2⟩
  snapshot := ()
  putTasks := []

theorem afterTwoPools_registered : Registered (fun _ => .fill 20) afterTwoPools.poolManagers := by
  intro factory tracked hmanager poolAddress pool hget
  have hmanager := Dict.get?_eq_some.mp hmanager
  rw [(Prod.mk.inj (List.mem_singleton.mp hmanager)).2] at hget
  have hmem : (poolAddress, pool) ∈
      [((.fill 1 : Address), (⟨.fill 1, 0⟩ : Pool)), (.fill 2, ⟨.fill 2, 1⟩)] := Dict.get?_eq_some.mp hget
  refine ⟨(Prod.mk.inj (List.mem_singleton.mp hmanager)).1.symm, ?_⟩
  rcases List.mem_cons.mp hmem with h | h
  · cases h
    rfl
  · cases List.mem_singleton.mp h
    rfl

/-- A log of pool 1 in block 100. -/
def logOfPool1 : Log Unit := ⟨.fill 1, 100, [(), (), (), ()], []⟩

def failingBurn : Handling Unit Unit Unit :=
  ⟨.processBurnEvent, logOfPool1, updatesEnd (.error (.assertionError ""))⟩

def laterSwap : Handling Unit Unit Unit := ⟨.processSwapEvent, logOfPool1, updatesEnd (.ok ())⟩

theorem twoPools_lawful : ∀ call ∈ [failingBurn, laterSwap],
    call.degenbot.Lawful fun _ => .fill 20 := by
  intro call hcall
  rcases List.mem_cons.mp hcall with rfl | hcall
  · exact oneFactory_lawful ..
  · rw [List.mem_singleton.mp hcall]
    exact oneFactory_lawful ..

theorem afterTwoPools_managed {allPools : AllPools}
    (h : allPools.items = [(.fill 1, ⟨.fill 1, 0⟩), (.fill 2, ⟨.fill 2, 1⟩)]) (poolAddress : Address)
    (pool : Pool) (hget : allPools.get? poolAddress = some pool) :
    helperOf (fun _ => .fill 20) afterTwoPools.poolManagers poolAddress = some pool := by
  have hmem := Dict.get?_eq_some.mp hget
  rw [h] at hmem
  exact helperOf_eq_some.mpr ⟨.ofList [(.fill 1, ⟨.fill 1, 0⟩), (.fill 2, ⟨.fill 2, 1⟩)], rfl,
    Dict.get?_eq_some.mpr hmem⟩

/-- The Swap has a third helper built and updates that one. -/
theorem updates_miss_cycle : ¬∀ (setOrder : List Address → List Address)
    (state : BotState (List UInt8)) (lpFiles : List (List PoolRecord))
    (arbPaths2 arbPaths3 : Dict (List UInt8) (ArbPath (List UInt8))), state.allArbs = Dict.empty →
    ∀ loaded, loadPools setOrder state lpFiles arbPaths2 arbPaths3 = .ok loaded →
    ∀ (abi : EthAbi Unit) (factoryOf : Address → Address) (s : HandlerState Unit Unit),
    Registered factoryOf s.poolManagers →
    (∀ poolAddress pool, loaded.botState.allPools.get? poolAddress = some pool →
      helperOf factoryOf s.poolManagers poolAddress = some pool) →
    ∀ calls : List (Handling Unit Unit Unit), (∀ call ∈ calls, call.degenbot.Lawful factoryOf) →
    ∀ before after, calls = before ++ after →
      Connected loaded.botState.allArbs (Handling.run abi before s) ∧
        ∀ call ∈ after.head?, Reaches abi loaded.botState.allArbs (Handling.run abi before s) call := by
  intro h
  have hreaches := (h id beforeTwoPools [[v2Pool 1 8, v2Pool 2 8]] (.ofList [(arbOfTwo.id, arbOfTwo)])
    .empty rfl _ rfl someLiquidity (fun _ => .fill 20) afterTwoPools afterTwoPools_registered
    (afterTwoPools_managed rfl) [failingBurn, laterSwap] twoPools_lawful [failingBurn] [laterSwap]
    rfl).2 laterSwap rfl
  have hsame := hreaches ⟨.fill 1, 2⟩ _ rfl (arbDetails beforeTwoPools.chainData arbOfTwo
    [⟨.fill 1, 0⟩, ⟨.fill 2, 1⟩]).lpCycle (by decide) ⟨.fill 1, 0⟩ (by decide) rfl
  exact absurd hsame (by decide)

/-- The Swap alone updates the pool of the cycle. -/
theorem updates_reach_cycles_iff_swap : ∃ loaded, loadPools id beforeTwoPools
      [[v2Pool 1 8, v2Pool 2 8]] (.ofList [(arbOfTwo.id, arbOfTwo)]) .empty = .ok loaded ∧
    Reaches someLiquidity loaded.botState.allArbs afterTwoPools laterSwap := by
  refine ⟨_, rfl, ?_⟩
  have hruns := (updates_reach_cycles_iff id beforeTwoPools [[v2Pool 1 8, v2Pool 2 8]]
    (.ofList [(arbOfTwo.id, arbOfTwo)]) .empty rfl _ rfl someLiquidity (fun _ => .fill 20)
    afterTwoPools afterTwoPools_registered (afterTwoPools_managed rfl) [laterSwap]
    fun call hcall => twoPools_lawful call (List.mem_cons_of_mem _ hcall)).mpr
  refine (hruns ?_ [] [laterSwap] rfl).2 laterSwap rfl
  intro before call after hcalls hcuts
  obtain ⟨⟨hburn, _⟩, _⟩ := hcuts
  have hmem : call ∈ [laterSwap] := by
    rw [hcalls]
    simp
  rw [List.mem_singleton.mp hmem] at hburn
  cases hburn

end CreamBots.App
