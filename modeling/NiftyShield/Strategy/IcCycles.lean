import NiftyShield.Lib.Run
import NiftyShield.Strategy.IcExecution

/-!
# The roll budget and the lock, cycle by cycle

The Iron Condor V2 over many entry cycles (`src/strategy/ic_nifty_v2.py`). The budget is
meant for one cycle: `_rolls_executed` "counts partial rolls executed this cycle" and is to
be reset by `reset_roll_state` on a new entry, and `ProfitLockState` is the state "for one IC
cycle". But the counter moves when a roll is signalled, before anything is written, the flag
is a row of the store, and nothing resets either when a cycle begins.

A run is any sequence of trades recorded by hand or by the entry script, of ticks and of
daemon restarts. The world remembers, beside what the program keeps, what has been written
to the ledger since the current cycle began.

## What is proved

* `Inv.step`: under `InStep` the counters never exceed the rolls written in the cycle, and
  the flag is set only if the lock was;
* `budget_of_cycle`: in every run whose events are all in step, a budget reported exhausted
  was used up in the current cycle, and a lock passed over as executed was written in it;
* `budget_of_another_cycle`: the counter of one cycle closes the condor of the next.

## Honest scope

A cycle begins with the first row recorded while the strategy is flat. The entry script is
four `record`s between a cleared and a new entry credit, and compensating `record`s where a
leg fails; its guard against an open position is not imposed, so there are more runs here
than it allows. A tick loads the positions by any function of the ledger, so they may be
those of one expiry, or stale.
-/

namespace NiftyShield.Strategy.IronCondor

open NiftyShield.Instruments NiftyShield.Lib NiftyShield.Lib.Raising NiftyShield.Lib.Run NiftyShield.Paper

/-! ### The world and its events -/

/-- The strategy, its store, and the history of the current cycle. -/
structure World where
  /-- The store, and the counters in memory. -/
  st : V2State
  /-- The rolls of a side written since the cycle began. -/
  rollsWritten : Side → ℕ := fun _ => 0
  /-- A Zone 2 roll was written since the cycle began. -/
  lockWritten : Bool := false

/-- Nothing has been traded and the daemon has just started. -/
def World.start : World where
  st := { store := { trades := .empty } }

/-- What happens. -/
inductive Event where
  /-- `record_paper_trade`. -/
  | record (t : PaperTrade)
  /-- The entry script clears the entry credit, or sets it. -/
  | entryCredit (credit : Option ℚ)
  /-- A tick of the monitor: `check_signals`, and the action of what it answers. -/
  | tick (env : SignalEnv) (exec : IcEnv) (load : PaperTrades → List PaperPosition)
  /-- The daemon starts again. -/
  | restart

/-- `set_original_entry_credit` and `clear_original_entry_credit`. -/
def IcStore.putEntryCredit (S : IcStore) (strategyName : String) : Option ℚ → IcStore
  | some credit => { S with entryCredits := S.entryCredits.set strategyName credit }
  | none => { S with entryCredits := S.entryCredits.erase strategyName }

/-- The trade is the first of a cycle: it is inserted while the strategy is flat. -/
def World.Begins (ic : IronCondorV2) (w : World) (t : PaperTrade) : Prop :=
  t.strategyName = ic.strategyName ∧ w.st.store.trades.hasKey t.uniqueKey = false ∧
    w.st.store.trades.getPositions none ic.strategyName = []

instance (ic : IronCondorV2) (w : World) (t : PaperTrade) : Decidable (w.Begins ic t) :=
  inferInstanceAs (Decidable (_ ∧ _ ∧ _))

/-- Every leg of a roll has its row. -/
def RollWritten (T T' : PaperTrades) (closed : List PaperPosition) (opened : List LegSpec) : Prop :=
  closed ≠ [] ∧ (T.newRows T').length = closed.length + opened.length

instance (T T' : PaperTrades) (closed : List PaperPosition) (opened : List LegSpec) :
    Decidable (RollWritten T T' closed opened) :=
  inferInstanceAs (Decidable (_ ∧ _))

/-- The store after the action of an event. -/
def World.applied (ic : IronCondorV2) (exec : IcEnv) (positions : List PaperPosition) (w : World)
    (e : IcSignal) : IcStore :=
  finalState (applyActionV2 ic.condor exec positions e.approvedAction w.st.store)

/-- The monitor executes an event. -/
def World.execute (ic : IronCondorV2) (exec : IcEnv) (positions : List PaperPosition) (w : World)
    (e : IcSignal) : World :=
  let S := w.applied ic exec positions e
  let whole := RollWritten w.st.store.trades S.trades
    (ic.condor.closing positions e.approvedAction) e.legsToOpen
  { st := { w.st with store := S }
    rollsWritten := fun side =>
      if e.eventType = "ROLL_WING" ∧ e.side = some side ∧ whole then w.rollsWritten side + 1
        else w.rollsWritten side
    lockWritten := w.lockWritten || decide (e.eventType = "PROFIT_LOCK_ZONE2" ∧ whole) }

/-- `_route_event`: ACTION events with `auto_execute` are executed, no other event writes. -/
def World.route (ic : IronCondorV2) (exec : IcEnv) (positions : List PaperPosition) (w : World)
    (e : IcSignal) : World :=
  if e.severity = .action ∧ e.autoAction.isSome then w.execute ic exec positions e else w

/-- One event. -/
def World.step (ic : IronCondorV2) (w : World) : Event → World
  | .record t =>
    let st := { w.st with store := { w.st.store with trades := (w.st.store.trades.recordTrade t).1 } }
    if w.Begins ic t then { st := st } else { w with st := st }
  | .entryCredit credit => { w with st :=
      { w.st with store := w.st.store.putEntryCredit ic.strategyName credit } }
  | .tick env exec load =>
    let positions := load w.st.store.trades
    match ic.checkSignals env positions w.st with
    | .ok events st => events.foldl (World.route ic exec positions) { w with st := st }
    | .error _ st => { w with st := st }
  | .restart => { w with st := { w.st with rollsExecuted := fun _ => 0 } }

/-! ### The property and the condition -/

/-- `lock_state.zone2_lock_executed`. -/
def World.lockFlag (ic : IronCondorV2) (w : World) : Bool :=
  (w.st.store.getProfitLockState ic.strategyName).zone2LockExecuted

/-- A tick reports a budget exhausted only if it was used up in the current cycle, and
passes over the Zone 2 lock as executed only if it was written in it. -/
def OfCurrentCycle (ic : IronCondorV2) (w : World) : Event → Prop
  | .tick env _ load =>
    (∀ events st, ic.checkSignals env (load w.st.store.trades) w.st = .ok events st →
      ∀ e ∈ events, ∀ side, e.ExhaustedOn side → ic.config.maxRollsPerSidePerCycle ≤ w.rollsWritten side) ∧
      (ic.SkipsExecutedLock env (load w.st.store.trades) w.st → w.lockWritten = true)
  | _ => True

/-- The action comes to its write, and no key of its trades is taken. -/
def WritesWhole (ic : IronCondorV2) (exec : IcEnv) (positions : List PaperPosition)
    (action : IcAction) (T : PaperTrades) : Prop :=
  ∃ c o, planned ic.condor exec positions action = some (c, o) ∧ AllFresh T.hasKey (c ++ o)

/-- The action does not come to its write, or every key of its trades is taken. -/
def WritesNothing (ic : IronCondorV2) (exec : IcEnv) (positions : List PaperPosition)
    (action : IcAction) (T : PaperTrades) : Prop :=
  ∀ c o, planned ic.condor exec positions action = some (c, o) → ∀ t ∈ c ++ o, T.hasKey t.uniqueKey = true

/-- An event in step with the ledger: a roll that is signalled is written whole at once, a
Zone 2 lock is written whole or not at all, and a cycle begins with the counters at zero
and the flag unset. -/
def InStep (ic : IronCondorV2) (w : World) : Event → Prop
  | .record t => w.Begins ic t → (∀ side, w.st.rollsExecuted side = 0) ∧ w.lockFlag ic = false
  | .tick env exec load =>
    ∀ events st, ic.checkSignals env (load w.st.store.trades) w.st = .ok events st → ∀ e ∈ events,
      (e.eventType = "ROLL_WING" →
        WritesWhole ic exec (load w.st.store.trades) e.approvedAction w.st.store.trades) ∧
        (e.eventType = "PROFIT_LOCK_ZONE2" →
          WritesWhole ic exec (load w.st.store.trades) e.approvedAction w.st.store.trades ∨
            WritesNothing ic exec (load w.st.store.trades) e.approvedAction w.st.store.trades)
  | _ => True

instance (ic : IronCondorV2) (exec : IcEnv) (positions : List PaperPosition) (action : IcAction)
    (T : PaperTrades) :
    Decidable (WritesWhole ic exec positions action T) :=
  match h : planned ic.condor exec positions action with
  | some (c, o) =>
    decidable_of_iff (AllFresh T.hasKey (c ++ o)) <| by
      rw [WritesWhole, h]
      simp
  | none => isFalse <| by simp [WritesWhole, h]

instance (ic : IronCondorV2) (exec : IcEnv) (positions : List PaperPosition) (action : IcAction)
    (T : PaperTrades) :
    Decidable (WritesNothing ic exec positions action T) :=
  match h : planned ic.condor exec positions action with
  | some (c, o) =>
    decidable_of_iff (∀ t ∈ c ++ o, T.hasKey t.uniqueKey = true) <| by
      rw [WritesNothing, h]
      simp
  | none => isTrue <| by simp [WritesNothing, h]

instance (ic : IronCondorV2) (w : World) : ∀ ev, Decidable (InStep ic w ev)
  | .record t =>
    inferInstanceAs (Decidable (w.Begins ic t → (∀ side, w.st.rollsExecuted side = 0) ∧
      w.lockFlag ic = false))
  | .tick env exec load =>
    match h : ic.checkSignals env (load w.st.store.trades) w.st with
    | .ok events st =>
      decidable_of_iff (∀ e ∈ events,
        (e.eventType = "ROLL_WING" →
          WritesWhole ic exec (load w.st.store.trades) e.approvedAction w.st.store.trades) ∧
          (e.eventType = "PROFIT_LOCK_ZONE2" →
            WritesWhole ic exec (load w.st.store.trades) e.approvedAction w.st.store.trades ∨
              WritesNothing ic exec (load w.st.store.trades) e.approvedAction w.st.store.trades)) <| by
        rw [InStep, h]
        simp
    | .error err st => isTrue <| by simp [InStep, h]
  | .entryCredit _ => isTrue trivial
  | .restart => isTrue trivial

/-- The counters and the flag are backed by the ledger. -/
structure Inv (ic : IronCondorV2) (w : World) : Prop where
  /-- No counter exceeds the rolls written. -/
  counters : ∀ side, w.st.rollsExecuted side ≤ w.rollsWritten side
  /-- The flag is set only after a lock. -/
  flag : w.lockFlag ic = true → w.lockWritten = true

theorem Inv.start (ic : IronCondorV2) : Inv ic World.start where
  counters _ := le_rfl
  flag h := absurd h (by simp [World.lockFlag, World.start, IcStore.getProfitLockState])

/-! ### One event -/

variable {ic : IronCondorV2} {w : World} {exec : IcEnv} {positions : List PaperPosition} {e : IcSignal}

theorem rollsExecuted_execute : (w.execute ic exec positions e).st.rollsExecuted = w.st.rollsExecuted := rfl

/-- Executing an event forgets no roll. -/
theorem le_rollsWritten_execute (side : Side) :
    w.rollsWritten side ≤ (w.execute ic exec positions e).rollsWritten side := by
  unfold World.execute
  simp only
  split
  · exact Nat.le_succ _
  · exact le_rfl

/-- A roll that comes to its write with free keys has a row for each of its legs. -/
theorem rollWritten_applied (htype : e.approvedAction.actionType ∉ closeActions)
    (h : WritesWhole ic exec positions e.approvedAction w.st.store.trades) :
    RollWritten w.st.store.trades (w.applied ic exec positions e).trades
      (ic.condor.closing positions e.approvedAction)
      e.legsToOpen := by
  obtain ⟨c, o, hplan, hfresh⟩ := h
  have hledger := trades_applyActionV2 ic.condor exec positions e.approvedAction w.st.store
  rw [hplan] at hledger
  have hrows := congrArg List.length (PaperTrades.newRows_batch w.st.store.trades (c ++ o)
    (markedBefore exec.faults.markClosed (fresh w.st.store.trades.hasKey c)))
  rw [List.length_map, List.length_map, fresh_eq_self_iff.mpr hfresh, List.length_append] at hrows
  -- the plan of the roll has a trade for each leg
  obtain ⟨hclosing, ⟨ltpMap, _, hc⟩, _, ho⟩ := planned_eq_some hplan
  rw [opening, if_neg htype] at ho
  refine ⟨hclosing, ?_⟩
  rw [World.applied, hledger, written, hrows, hc.length_eq, ← ho.length_eq]
  rfl

/-- The flag after an event was set before it, or the event wrote a lock. -/
theorem flag_execute (hlock : e.approvedAction.actionType = "PROFIT_LOCK_ZONE2" →
    e.eventType = "PROFIT_LOCK_ZONE2" ∧
      (WritesWhole ic exec positions e.approvedAction w.st.store.trades ∨
        WritesNothing ic exec positions e.approvedAction w.st.store.trades))
    (h : (w.execute ic exec positions e).lockFlag ic = true) :
    w.lockFlag ic = true ∨ (w.execute ic exec positions e).lockWritten = true := by
  rcases lock_of_applyActionV2 h with hbefore | ⟨htype, c, o, hplan, hinserted⟩
  · exact Or.inl hbefore
  · refine Or.inr ?_
    obtain ⟨hevent, hwhole | hnothing⟩ := hlock htype
    · have hwritten := rollWritten_applied (by rw [htype]; decide) hwhole
      rw [World.execute]
      simp only [hevent, true_and]
      rw [decide_eq_true hwritten, Bool.or_true]
    · exact absurd (fresh_eq_nil_iff.mpr (hnothing c o hplan)) hinserted

variable {env : SignalEnv} {load : PaperTrades → List PaperPosition} {st : V2State} {events : List IcSignal}

theorem step_tick_ok (h : ic.checkSignals env (load w.st.store.trades) w.st = .ok events st) :
    w.step ic (.tick env exec load) = events.foldl (World.route ic exec (load w.st.store.trades))
    { w with st := st } := by
  simp only [World.step, h]

theorem step_tick_error {err : IcError} (h : ic.checkSignals env (load w.st.store.trades) w.st =
    .error err st) :
    w.step ic (.tick env exec load) = w := by
  simp only [World.step, h, checkSignals_error h]

/-- An event that is executed and neither rolls nor locks keeps the invariant. -/
private theorem Inv.execute_of_close (h : Inv ic w)
    (htype : e.approvedAction.actionType ≠ "PROFIT_LOCK_ZONE2") :
    Inv ic (w.execute ic exec positions e) where
  counters side := (h.counters side).trans (le_rollsWritten_execute side)
  flag hflag := by
    rcases flag_execute (fun heq => absurd heq htype) hflag with hbefore | hafter
    · rw [World.execute, h.flag hbefore, Bool.true_or]
    · exact hafter

/-- A roll that is written whole is one more roll of its side. -/
theorem rollsWritten_execute {side : Side} (hevent : e.eventType = "ROLL_WING") (hside : e.side = some side)
    (hwritten : RollWritten w.st.store.trades (w.applied ic exec positions e).trades
      (ic.condor.closing positions e.approvedAction) e.legsToOpen) (s : Side) :
    (w.execute ic exec positions e).rollsWritten s = if s = side then w.rollsWritten s + 1
      else w.rollsWritten s := by
  have hiff : (e.eventType = "ROLL_WING" ∧ e.side = some s ∧ RollWritten w.st.store.trades
      (w.applied ic exec positions e).trades
        (ic.condor.closing positions e.approvedAction) e.legsToOpen) ↔ s = side :=
    ⟨fun h => (Option.some.inj (hside.symm.trans h.2.1)).symm, fun h => ⟨hevent, h ▸ hside, hwritten⟩⟩
  simp only [World.execute, hiff]

/-- A roll that is written whole is counted once and written once. -/
private theorem Inv.execute_of_roll {side : Side} (h : Inv ic w) (hevent : e.eventType = "ROLL_WING")
    (hside : e.side = some side) (htype : e.approvedAction.actionType = "ROLL_WING")
    (hwhole : WritesWhole ic exec positions e.approvedAction w.st.store.trades) :
    Inv ic (World.execute ic exec positions { w with st := w.st.countRoll side } e) := by
  have hwritten := @rollWritten_applied ic { w with st := w.st.countRoll side } exec positions e
    (by rw [htype]; decide) hwhole
  constructor
  · intro s
    rw [rollsExecuted_execute, rollsWritten_execute hevent hside hwritten, V2State.rollsExecuted_countRoll]
    split
    · exact Nat.succ_le_succ (h.counters s)
    · exact h.counters s
  · intro hflag
    rcases flag_execute (fun heq => absurd (htype.symm.trans heq) (by decide)) hflag with hbefore | hafter
    · rw [World.execute, h.flag hbefore, Bool.true_or]
    · exact hafter

/-- A tick keeps the invariant. -/
theorem Inv.tick (h : Inv ic w) (hq : InStep ic w (.tick env exec load)) :
    Inv ic (w.step ic (.tick env exec load)) := by
  cases hcheck : ic.checkSignals env (load w.st.store.trades) w.st with
  | error err st =>
    rw [step_tick_error hcheck]
    exact h
  | ok events st =>
    have hq' := hq events st hcheck
    rw [step_tick_ok hcheck]
    cases checkSignals_ok hcheck with
    | nothing => exact h
    | close eventType side reason budget =>
      rw [List.foldl_cons, List.foldl_nil, World.route, if_pos ⟨rfl, rfl⟩]
      exact Inv.execute_of_close h (by simp [IcSignal.approvedAction, closeFullSignal])
    | lock env c putStrike callStrike newPut newCall netDebit =>
      have hlock := (hq' _ (List.mem_singleton_self _)).2 rfl
      rw [List.foldl_cons, List.foldl_nil, World.route, if_pos ⟨rfl, rfl⟩]
      constructor
      · exact fun side => (h.counters side).trans (le_rollsWritten_execute side)
      · intro hflag
        rcases flag_execute (fun _ => ⟨rfl, hlock⟩) hflag with hbefore | hafter
        · rw [World.execute, h.flag hbefore, Bool.true_or]
        · exact hafter
    | milestone =>
      refine ⟨h.counters, fun hflag => h.flag ?_⟩
      rw [World.lockFlag, ← (@Reply.milestone ic w.st).zone2LockExecuted]
      exact hflag
    | roll env' c side legs built =>
      have hwhole := (hq' _ (List.mem_singleton_self _)).1 rfl
      rw [List.foldl_cons, List.foldl_nil, World.route, if_pos ⟨rfl, rfl⟩]
      exact h.execute_of_roll rfl rfl rfl hwhole
    | warn side => exact h

/-- A recorded trade keeps the invariant, whether or not it begins a cycle. -/
theorem Inv.record {t : PaperTrade} (h : Inv ic w) (hq : InStep ic w (.record t)) :
    Inv ic (w.step ic (.record t)) := by
  rw [World.step]
  simp only
  split
  next hbegins =>
    obtain ⟨hzero, hunset⟩ := hq hbegins
    exact ⟨fun side => (hzero side).le, fun hflag => absurd (hunset.symm.trans hflag) Bool.false_ne_true⟩
  next => exact ⟨h.counters, h.flag⟩

/-- **One event in step** keeps the counters and the flag backed by the ledger. -/
theorem Inv.step {ev : Event} (h : Inv ic w) (hq : InStep ic w ev) : Inv ic (w.step ic ev) := by
  cases ev with
  | record t => exact h.record hq
  | entryCredit credit =>
    refine ⟨h.counters, fun hflag => h.flag ?_⟩
    cases credit <;> exact hflag
  | tick env exec load => exact h.tick hq
  | restart => exact ⟨fun _ => Nat.zero_le _, h.flag⟩

/-- **What the invariant says of a tick.** -/
theorem Inv.ofCurrentCycle {ev : Event} (h : Inv ic w) : OfCurrentCycle ic w ev := by
  cases ev with
  | tick env exec load =>
    constructor
    · intro events st hcheck e he side hside
      exact ((checkSignals_ok hcheck).exhausted he hside).trans (h.counters side)
    · rintro ⟨c, captured, -, -, -, -, -, hflag⟩
      exact h.flag hflag
  | _ => trivial

/-! ### Runs -/

/-- **The budget and the lock belong to the current cycle** in every run whose events are
all in step. -/
theorem budget_of_cycle (ic : IronCondorV2) (evs : List Event)
    (h : EachStep (World.step ic) (InStep ic) World.start evs) :
    EachStep (World.step ic) (OfCurrentCycle ic) World.start evs :=
  eachStep_of_invariant (fun _ _ hi hq => hi.step hq) (fun _ _ hi => hi.ofCurrentCycle) (Inv.start ic) h

/-! ### One cycle and the next -/

/-- A Nifty option. -/
private def niftyOption (key typeText : String) (strike : ℚ) (expiry : Date) : Instrument where
  instrumentKey := key
  instrumentType := some typeText
  underlyingSymbol := "NIFTY"
  strikePrice := some strike
  expiry := some expiry

/-- The options of the June expiry, then those of July. -/
def juneAndJuly : InstrumentLookup where
  instruments :=
    [niftyOption "NSE_FO|65901" "PE" 24000 739797, niftyOption "NSE_FO|65902" "PE" 23500 739797,
      niftyOption "NSE_FO|65903" "PE" 23400 739797, niftyOption "NSE_FO|65904" "PE" 23000 739797,
      niftyOption "NSE_FO|65911" "CE" 25000 739797, niftyOption "NSE_FO|65912" "CE" 25500 739797,
      niftyOption "NSE_FO|66901" "PE" 24100 739825, niftyOption "NSE_FO|66902" "PE" 23600 739825,
      niftyOption "NSE_FO|66911" "CE" 25100 739825, niftyOption "NSE_FO|66912" "CE" 25600 739825]

/-- A strike of which only the put is quoted. -/
private def putStrike (strike ltp delta : ℚ) : OptionChainStrike where
  pe := some { ltp := ltp, bid := ltp - 1, ask := ltp + 1, delta := some delta, strike := strike }

/-- The June puts after a fall: the short at 24000 has a delta of 0.38. -/
def juneChain : OptionChain where
  underlyingSpot := 24100
  expiry := 739797
  strikes := (((Dict.empty.set 24000 (putStrike 24000 220 (-38 / 100))).set 23500
    (putStrike 23500 110 (-27 / 100))).set
    23400 (putStrike 23400 100 (-25 / 100))).set 23000 (putStrike 23000 50 (-10 / 100))

/-- The same puts after another: the short at 23400 has a delta of 0.36. -/
def juneChainLower : OptionChain where
  underlyingSpot := 23500
  expiry := 739797
  strikes := (Dict.empty.set 23400 (putStrike 23400 200 (-36 / 100))).set 23000
    (putStrike 23000 90 (-20 / 100))

/-- The July short put after a fall. -/
def julyChain : OptionChain where
  underlyingSpot := 24200
  expiry := 739825
  strikes := Dict.empty.set 24100 (putStrike 24100 230 (-36 / 100))

/-- One lot of a leg. -/
private def entryLeg (role key : String) (a : TradeAction) (d : Date) (role_ne : role ≠ "")
    (key_ne : key ≠ "") :
    Event :=
  .record
    { strategyName := "paper_ic_nifty_v2_monthly"
      legRole := role
      instrumentKey := key
      tradeDate := d
      action := a
      quantity := 65
      price := 100
      paperPrefix := hasPaperPrefix_icMonthly
      legRole_ne := role_ne
      instrumentKey_ne := key_ne
      quantity_pos := lot_pos
      price_pos := price100_pos }

/-- The June condor is entered. -/
def juneEntry : List Event :=
  [entryLeg "short_put" "NSE_FO|65901" .sell 739776 shortPut_ne key65901_ne,
    entryLeg "long_put_hedge" "NSE_FO|65902" .buy 739776 longPutHedge_ne key65902_ne,
    entryLeg "short_call" "NSE_FO|65911" .sell 739776 shortCall_ne key65911_ne,
    entryLeg "long_call_hedge" "NSE_FO|65912" .buy 739776 longCallHedge_ne key65912_ne]

/-- The July condor is entered. -/
def julyEntry : List Event :=
  [entryLeg "short_put" "NSE_FO|66901" .sell 739798 shortPut_ne (by decide),
    entryLeg "long_put_hedge" "NSE_FO|66902" .buy 739798 longPutHedge_ne (by decide),
    entryLeg "short_call" "NSE_FO|66911" .sell 739798 shortCall_ne (by decide),
    entryLeg "long_call_hedge" "NSE_FO|66912" .buy 739798 longCallHedge_ne (by decide)]

/-- What a call reads on a day. -/
private def signalEnvOn (chain : OptionChain) (today : Date) : SignalEnv where
  market := chain
  bod := some juneAndJuly
  cachedBod := some juneAndJuly
  today := today

/-- A tick on a day; all is traded at 90. -/
private def tickOn (chain : OptionChain) (today : Date) : Event :=
  .tick (signalEnvOn chain today)
    { getLtp := fun keys => some (keys.foldl (fun d k => d.set k 90) Dict.empty), bodLookup :=
      some juneAndJuly, today := today }
    fun T => T.getPositions none "paper_ic_nifty_v2_monthly"

/-- The June put side is rolled, then closed for its used-up budget. -/
def juneOnly : List Event := juneEntry ++ [tickOn juneChain 739780, tickOn juneChainLower 739783]

/-- In June alone the rolls reported used up are those of June. -/
theorem budget_of_june : EachStep (World.step monthlyV2) (OfCurrentCycle monthlyV2) World.start juneOnly :=
  budget_of_cycle monthlyV2 juneOnly (by decide +kernel)

/-- The June put side is rolled, June is closed at its expiry week, and July is entered;
the daemon runs throughout. -/
def juneThenJuly : List Event := juneEntry ++ [tickOn juneChain 739780,
    tickOn juneChain 739790] ++ julyEntry

/-- The roll of June closes July on its first breach, with no roll of July written. -/
theorem budget_of_another_cycle :
    ¬ ∀ (ic : IronCondorV2) (evs : List Event), EachStep (World.step ic)
    (OfCurrentCycle ic) World.start evs := by
  intro h
  have hlast := eachStep_last (h monthlyV2 (juneThenJuly ++ [tickOn julyChain 739800]))
  obtain ⟨hends, hwritten⟩ : returnsWith (fun events _ => decide (∃ e ∈ events, e.ExhaustedOn .put))
      (monthlyV2.checkSignals (signalEnvOn julyChain 739800)
        ((final (World.step monthlyV2) World.start juneThenJuly).st.store.trades.getPositions none
          "paper_ic_nifty_v2_monthly")
        (final (World.step monthlyV2) World.start juneThenJuly).st) = true ∧
      (final (World.step monthlyV2) World.start juneThenJuly).rollsWritten .put = 0 := by
    decide +kernel
  obtain ⟨events, st, hcheck, hreport⟩ := returnsWith_iff.mp hends
  obtain ⟨e, he, hexhausted⟩ := of_decide_eq_true hreport
  have hfull := hlast.1 events st hcheck e he .put hexhausted
  rw [hwritten] at hfull
  exact absurd hfull (by decide)

end NiftyShield.Strategy.IronCondor
