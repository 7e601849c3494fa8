import NiftyShield.Strategy.CollarOverlay
import NiftyShield.Strategy.CspRoll
import NiftyShield.Strategy.NiftyCalendarShell
import NiftyShield.Strategy.ReEntry

/-!
# The re-entry notices of five strategies

The strategies that run the re-entry check when an action closes a position: `CSPNiftyV1`,
`CCOverlayV1`, `PPOverlayV1`, `CollarOverlayV1` and `NiftyCalendarV1` (`apply_action` in
`src/strategy/csp_nifty_v1.py`, `cc_overlay_v1.py`, `pp_overlay_v1.py`,
`collar_overlay_v1.py` and `nifty_calendar_v1.py`). The covered call and the protective put
check before they close, the others after; the collar then may open a new pair.

## What is proved

* `sound_step`: the notice of one action is right about the ledger the action settles in, where
  the action closes what the gate does not look for;
* `eventsKept_step`: a check that can see the notice of the day does not write a second one;
* `notices_sound`: both over whole runs;
* `notice_before_new_pair`: the notice of a collar that re-enters does not cover the new pair.

## Honest scope

Actions that run no check, and whatever else changes the ledger, are steps to an arbitrary
ledger. The positions passed to an action are any part of what the store returns at that
moment, and the store calls of the actions succeed. The broker, the chains and the selection
of new legs are inputs.
-/

namespace NiftyShield.Strategy.ReEntry

open NiftyShield.Instruments NiftyShield.Lib NiftyShield.Lib.Raising NiftyShield.Lib.Run
open NiftyShield.NiftyCalendar NiftyShield.Paper
open CollarOverlay (CollarAction buildCloseTrade closeBothLegs reenterCollar shortCallPos longPutPos
    strategyOverlay)
open OverlayCloser (shortCallRole longPutRole)
open NiftyCalendarV1 (CalendarShell OpenLeg decisionText recentreDecisions shortCall)

/-! ### The strategies -/

/-- The strategies with a re-entry check. -/
inductive Checked where
  /-- `CSPNiftyV1`. -/
  | csp
  /-- `CCOverlayV1`. -/
  | coveredCall
  /-- `PPOverlayV1`. -/
  | protectivePut
  /-- `CollarOverlayV1`. -/
  | collar
  /-- `NiftyCalendarV1` under a strategy name. -/
  | calendar (strategyName : String)
  deriving DecidableEq

/-- `SHORT_CALL_ROLES` of the covered call. -/
def shortCallRoles : List String := ["overlay_cc"]

/-- `LONG_PUT_ROLES` of the protective put. -/
def longPutRoles : List String := ["overlay_pp"]

/-- The attributes of a strategy; the overlays take the smallest DTE from their tenor. -/
def Checked.mixin (minDte : ℤ) : Checked → ReEntryMixin
  | .csp =>
    { strategyName := "paper_csp_nifty_v1", reentryLegRole := "short_put", ivrBlock := lowIvrBlock (1 / 4)
      reentryPositionActive := shortIn "short_put" }
  | .coveredCall =>
    { strategyName := strategyOverlay, reentryLegRole := "covered_call", reentryMinDte := minDte
      ivrBlock := lowIvrBlock (1 / 4), reentryPositionActive := shortIn "covered_call" }
  | .protectivePut =>
    { strategyName := strategyOverlay, reentryLegRole := "protective_put", reentryMinDte := minDte
      ivrBlock := highIvrBlock (3 / 5)
      reentryPositionActive := fun p => p.legRole ∈ longPutRoles && 0 < p.netQty }
  | .collar =>
    { strategyName := strategyOverlay, reentryLegRole := shortCallRole, reentryMinDte := minDte
      ivrBlock := lowIvrBlock (1 / 4), reentryPositionActive := shortIn shortCallRole }
  | .calendar strategyName =>
    { strategyName, reentryLegRole := shortCall, ivrBlock := lowIvrBlock (1 / 4)
      reentryPositionActive := shortIn shortCall }

/-- The positions that a strategy opens, watches and closes. -/
def Checked.manages : Checked → PaperPosition → Bool
  | .csp => shortIn "short_put"
  | .coveredCall => fun p => p.legRole ∈ shortCallRoles && p.netQty < 0
  | .protectivePut => fun p => p.legRole ∈ longPutRoles && 0 < p.netQty
  | .collar => fun p => (p.legRole = shortCallRole && p.netQty < 0) || (p.legRole = longPutRole && 0 < p.netQty)
  | .calendar _ => fun p => p.legRole ∈ NiftyCalendarV1.roles

/-! ### The actions -/

/-- What the strategies are wired with. -/
structure DeskSetup where
  /-- The BOD file of the store. -/
  storeLookup : Option InstrumentLookup := none
  /-- The BOD file in which the overlays look up an expiry. -/
  bod : Option InstrumentLookup := none
  /-- `reentry_min_dte` of the overlays' tenor. -/
  minDte : ℤ := 14

/-- A `CLOSE_CC` or `MONETIZE_PP` action, with what it reads besides the ledger. -/
structure OverlayClose where
  /-- `market_today()`. -/
  today : Date
  /-- `legs_to_close`. -/
  legsToClose : List LegClose
  /-- The positions of the store that the caller passes. -/
  passed : PaperPosition → Bool := fun _ => true
  /-- The mark in the metadata, if it is a number. -/
  mark : Option ℚ := none
  /-- The triggering signal in the metadata. -/
  triggeringSignal : Option String := none

/-- A `CLOSE_AND_ROLL` action, with what it reads besides the ledger. -/
structure CloseAndRoll where
  /-- `market_today()`. -/
  today : Date
  /-- The positions of the store that the caller passes. -/
  passed : PaperPosition → Bool := fun _ => true
  /-- The broker. -/
  broker : CspRoll.Broker
  /-- The BOD file. -/
  lookup : InstrumentLookup

/-- A close of the calendar's open structure. -/
structure CalendarClose where
  /-- The strategy. -/
  shell : CalendarShell
  /-- The clock. -/
  now : Stamp
  /-- The exit decision. -/
  decision : ExitDecision
  /-- The mids. -/
  mids : String → ℚ
  /-- India VIX. -/
  vix : Option ℚ
  /-- `near_expiry` in the metadata. -/
  nearExpiry : Date

/-- The signals after which the covered call and the collar run the check. -/
def checkedSignals : List String := ["PROFIT_TARGET", "TIME_STOP", "LOSS_STOP", "DELTA_STOP", "DTE_REVIEW"]

variable (setup : DeskSetup)

/-- `closed_pos`: the first passed position on its side that a leg of the action matches. -/
def OverlayClose.closedPos (a : OverlayClose) (side : ℤ → Bool) (T : PaperTrades) : Option PaperPosition :=
  ((T.getPositions setup.storeLookup strategyOverlay).filter a.passed).find? fun p =>
    a.legsToClose.any (CollarOverlay.legCloseMatches p) && side p.netQty

/-- `_record_close_trade`. -/
def recordCloseTrade (today : Date) (action : TradeAction) (mark : Option ℚ) (pos : PaperPosition) (T : PaperTrades) :
    PaperTrades :=
  match buildCloseTrade today pos action mark with
  | some t => T.recordClose t
  | none => T

/-- The check of a strategy. -/
def check (k : Checked) (env : CheckEnv) (today : Date) (expiry : Option Date) (d : Desk) : Desk :=
  (k.mixin setup.minDte).checkReentry env setup.storeLookup today expiry d

/-- `CCOverlayV1.apply_action`: the check, then the close. -/
def closeCoveredCall (a : OverlayClose) (env : CheckEnv) (d : Desk) : Desk :=
  match a.closedPos setup (fun q => decide (q < 0)) d.trades with
  | none => d
  | some pos =>
    let d := if a.triggeringSignal.any fun s => s ∈ checkedSignals then
      check setup .coveredCall env a.today (resolveOptionExpiry pos.instrumentKey setup.bod) d else d
    { d with trades := recordCloseTrade a.today .buy a.mark pos d.trades }

/-- `PPOverlayV1.apply_action` of `MONETIZE_PP`: the check, then the close. -/
def monetizeProtectivePut (a : OverlayClose) (env : CheckEnv) (d : Desk) : Desk :=
  match a.closedPos setup (fun q => decide (0 < q)) d.trades with
  | none => d
  | some pos =>
    let d := check setup .protectivePut env a.today (resolveOptionExpiry pos.instrumentKey setup.bod) d
    { d with trades := recordCloseTrade a.today .sell a.mark pos d.trades }

/-- `CollarOverlayV1.apply_action`: both legs are closed, then the check, then for
`CLOSE_AND_REENTER_COLLAR` a new pair. -/
def applyCollar (e : CollarAction) (env : CheckEnv) (d : Desk) : Desk :=
  if shortCallPos setup.storeLookup strategyOverlay d.trades e = none ∧
    longPutPos setup.storeLookup strategyOverlay d.trades e = none then d
  else
    let call := shortCallPos setup.storeLookup strategyOverlay d.trades e
    let d := { d with trades := closeBothLegs setup.storeLookup strategyOverlay d.trades e }
    let d :=
      match call with
      | some pos => if e.triggeringSignal.any fun s => s ∈ checkedSignals then
          check setup .collar env e.today (resolveOptionExpiry pos.instrumentKey setup.bod) d else d
      | none => d
    match e.actionType with
    | .closeCollar => d
    | .closeAndReenterCollar => { d with trades := reenterCollar strategyOverlay d.trades e }

/-- `short_put`: the first passed short position. -/
def CloseAndRoll.shortPut (a : CloseAndRoll) (T : PaperTrades) : Option PaperPosition :=
  ((T.getPositions setup.storeLookup (Checked.mixin setup.minDte .csp).strategyName).filter a.passed).find? fun p =>
    p.netQty < 0

/-- The trade that `_close_leg` rebuilds from a position. -/
def existingTrade (today : Date) (pos : PaperPosition) : Option PaperTrade :=
  PaperTrade.validate pos.strategyName pos.legRole pos.instrumentKey (pos.entryDate.getD today) .sell |pos.netQty|
    pos.avgSellPrice "" none .open

/-- `CSPNiftyV1.apply_action` of `CLOSE_AND_ROLL`: the short put is closed and a new one
opened, which may fail, then the check. -/
def closeAndRoll (a : CloseAndRoll) (env : CheckEnv) (d : Desk) : Desk :=
  match a.shortPut setup d.trades with
  | none => d
  | some pos =>
    match existingTrade a.today pos with
    | none => d
    | some existing =>
      let roll : CspRoll.RollEnv :=
        { broker := a.broker, lookup := a.lookup, existing, rollDate := a.today, dryRun := false }
      match CspRoll.closeCspLeg roll d.trades with
      | .error _ T => { d with trades := T }
      | .ok _ T =>
        match CspRoll.openNewCspLeg roll none 0 none T with
        | .error .cancelled T' => { d with trades := T' }
        | r => check setup .csp env a.today (CspRoll.parseExpiryFromKey pos.instrumentKey ⟨[]⟩)
            { d with trades := finalState r }

/-- `NiftyCalendarV1.apply_action` of a close: the legs are closed, then the check if the
cycle goes on. -/
def closeCalendar (a : CalendarClose) (env : CheckEnv) (d : Desk) : Desk :=
  match a.shell.exitLegs d.trades with
  | none => d
  | some legs =>
    match a.shell.closeStructure a.now.date a.vix (decisionText a.decision) (CalendarShell.midsOf a.mids legs)
        (CalendarShell.legsToClose legs) d.trades with
    | .error _ T => { d with trades := T }
    | .ok _ T =>
      let d := { d with trades := T }
      if a.decision ∈ recentreDecisions ∧ ∃ leg ∈ legs, leg.position.legRole = shortCall then
        (Checked.mixin setup.minDte (.calendar a.shell.strategyName)).checkReentry env a.shell.storeLookup a.now.date
          (some a.nearExpiry) d
      else d

/-! ### Steps -/

/-- One step at the desk. -/
inductive DeskEvent where
  /-- `CLOSE_CC`. -/
  | closeCoveredCall (a : OverlayClose) (env : CheckEnv)
  /-- `MONETIZE_PP`. -/
  | monetizeProtectivePut (a : OverlayClose) (env : CheckEnv)
  /-- `CLOSE_COLLAR` or `CLOSE_AND_REENTER_COLLAR`. -/
  | collar (e : CollarAction) (env : CheckEnv)
  /-- `CLOSE_AND_ROLL`. -/
  | closeAndRoll (a : CloseAndRoll) (env : CheckEnv)
  /-- A close of a calendar. -/
  | closeCalendar (a : CalendarClose) (env : CheckEnv)
  /-- Any other change of the ledger. -/
  | ledger (T : PaperTrades)
  /-- Events are acknowledged, acted on or dismissed. -/
  | review (status : ExitEvent → EventStatus)
  /-- Another kind of event is recorded. -/
  | audit (ev : ExitEvent) (other : ev.isReentry = false)

/-- The desk after a step. -/
def step (d : Desk) : DeskEvent → Desk
  | .closeCoveredCall a env => closeCoveredCall setup a env d
  | .monetizeProtectivePut a env => monetizeProtectivePut setup a env d
  | .collar e env => applyCollar setup e env d
  | .closeAndRoll a env => closeAndRoll setup a env d
  | .closeCalendar a env => closeCalendar setup a env d
  | .ledger T => { d with trades := T }
  | .review status => { d with events := d.events.map fun ev => { ev with status := status ev } }
  | .audit ev _ => { d with events := d.events ++ [ev] }

/-- Whose check an action may run, what it reads and on which day. -/
def DeskEvent.checks : DeskEvent → Option (Checked × CheckEnv × Date)
  | .closeCoveredCall a env => some (.coveredCall, env, a.today)
  | .monetizeProtectivePut a env => some (.protectivePut, env, a.today)
  | .collar e env => some (.collar, env, e.today)
  | .closeAndRoll a env => some (.csp, env, a.today)
  | .closeCalendar a env => some (.calendar a.shell.strategyName, env, a.now.date)
  | _ => none

/-- The BOD file of the store an action works on. -/
def DeskEvent.storeLookup : DeskEvent → Option InstrumentLookup
  | .closeCalendar a _ => a.shell.storeLookup
  | _ => setup.storeLookup

/-- The ledger when the action has completed; that of a collar, before it opens a new pair. -/
def settledLedger (d : Desk) : DeskEvent → PaperTrades
  | .collar e _ => closeBothLegs setup.storeLookup strategyOverlay d.trades e
  | ev => (step setup d ev).trades

/-! ### What a notice promises -/

/-- An eligible notice that the step writes finds no managed position in the ledger `T`. -/
def NoticeHolds (T : PaperTrades) (d : Desk) (ev : DeskEvent) : Prop :=
  ∀ k env today, ev.checks = some (k, env, today) → ∀ new, (step setup d ev).events = d.events ++ [new] →
    new.exitSignal = .r5ReentryEligible →
      ∀ p ∈ T.getPositions (ev.storeLookup setup) (k.mixin setup.minDte).strategyName, k.manages p = false

/-- An eligible notice is right about the settled ledger. -/
def Sound (d : Desk) (ev : DeskEvent) : Prop := NoticeHolds setup (settledLedger setup d ev) d ev

/-- The positions that the gate does not look for are closed by the action itself: they are
those it finds, and the keys of their closing trades are free. -/
def ClosesUnseen (d : Desk) : DeskEvent → Prop
  | .closeCoveredCall a _ => ∀ p ∈ d.trades.getPositions setup.storeLookup strategyOverlay,
      Checked.coveredCall.manages p = true → a.closedPos setup (fun q => decide (q < 0)) d.trades = some p ∧
        d.trades.hasKey ⟨strategyOverlay, p.legRole, p.instrumentKey, a.today, .buy⟩ = false
  | .collar e _ => ∀ p ∈ d.trades.getPositions setup.storeLookup strategyOverlay, p.legRole = longPutRole →
      0 < p.netQty → longPutPos setup.storeLookup strategyOverlay d.trades e = some p ∧
        d.trades.hasKey ⟨strategyOverlay, longPutRole, p.instrumentKey, e.today, .sell⟩ = false
  | .closeCalendar a _ => ∀ p ∈ a.shell.held d.trades, p.legRole ∈ NiftyCalendarV1.roles →
      p ∈ NiftyCalendarV1.byRole (a.shell.held d.trades) ∧
        d.trades.hasKey (a.shell.closeKey a.now.date p) = false
  | _ => True

/-- The check can see the notice of the day: the events are read, the day is the same in UTC
and in IST, and no notice of the day has been acted on or dismissed. -/
def Timely (d : Desk) (ev : DeskEvent) : Prop :=
  ∀ k env today, ev.checks = some (k, env, today) →
    env.eventsRead = true ∧ utcDate env.writtenAt = today ∧ istDate env.writtenAt = today ∧
      ∀ old ∈ d.events, (k.mixin setup.minDte).isNotice old = true → istDate old.eventTime = today →
        old.status = .open ∨ old.status = .acknowledged

/-- At most one notice a day, each written on the same day in UTC and in IST. -/
structure EventsKept (d : Desk) : Prop where
  /-- At most one a day. -/
  once : AtMostOnePerDay d.events
  /-- The two dates agree. -/
  dated : ∀ ev ∈ d.events, ev.isReentry = true → utcDate ev.eventTime = istDate ev.eventTime

/-! ### The ledgers that checks read -/

/-- The ledger an action checks: before it closes for the covered call and the protective
put, after it for the others. -/
def checkedLedger (d : Desk) : DeskEvent → PaperTrades
  | .closeCoveredCall .. => d.trades
  | .monetizeProtectivePut .. => d.trades
  | ev => settledLedger setup d ev

variable {setup} {d : Desk} {ev : DeskEvent} {k : Checked} {env : CheckEnv} {today : Date}

@[simp] theorem check_trades (expiry : Option Date) : (check setup k env today expiry d).trades = d.trades :=
  ReEntryMixin.checkReentry_trades

/-- What an action writes to the events is what its check writes. -/
theorem step_events (h : ev.checks = some (k, env, today)) :
    (step setup d ev).events = d.events ∨ ∃ expiry, (step setup d ev).events =
      ((k.mixin setup.minDte).checkReentry env (ev.storeLookup setup) today expiry
        { trades := checkedLedger setup d ev, events := d.events }).events := by
  cases ev with
  | closeCoveredCall a env' =>
    obtain ⟨rfl, rfl, rfl⟩ : Checked.coveredCall = k ∧ env' = env ∧ a.today = today := by
      simpa [DeskEvent.checks] using h
    simp only [step, closeCoveredCall]
    split
    next => exact Or.inl rfl
    next pos _ =>
      split
      next => exact Or.inr ⟨_, rfl⟩
      next => exact Or.inl rfl
  | monetizeProtectivePut a env' =>
    obtain ⟨rfl, rfl, rfl⟩ : Checked.protectivePut = k ∧ env' = env ∧ a.today = today := by
      simpa [DeskEvent.checks] using h
    simp only [step, monetizeProtectivePut]
    split
    next => exact Or.inl rfl
    next pos _ => exact Or.inr ⟨_, rfl⟩
  | collar e env' =>
    obtain ⟨rfl, rfl, rfl⟩ : Checked.collar = k ∧ env' = env ∧ e.today = today := by
      simpa [DeskEvent.checks] using h
    simp only [step, applyCollar]
    split
    next => exact Or.inl rfl
    next =>
      cases shortCallPos setup.storeLookup strategyOverlay d.trades e with
      | none => cases e.actionType <;> exact Or.inl rfl
      | some pos =>
        dsimp only
        by_cases hsignal : e.triggeringSignal.any (fun s => decide (s ∈ checkedSignals)) = true
        · rw [if_pos hsignal]
          cases e.actionType <;> exact Or.inr ⟨_, rfl⟩
        · rw [if_neg hsignal]
          cases e.actionType <;> exact Or.inl rfl
  | closeAndRoll a env' =>
    obtain ⟨rfl, rfl, rfl⟩ : Checked.csp = k ∧ env' = env ∧ a.today = today := by
      simpa [DeskEvent.checks] using h
    have htrades : checkedLedger setup d (.closeAndRoll a env') = (closeAndRoll setup a env' d).trades := rfl
    rw [htrades]
    simp only [step, closeAndRoll]
    repeat' split
    all_goals first | exact Or.inl rfl | (rw [check_trades]; exact Or.inr ⟨_, rfl⟩)
  | closeCalendar a env' =>
    obtain ⟨rfl, rfl, rfl⟩ : Checked.calendar a.shell.strategyName = k ∧ env' = env ∧ a.now.date = today := by
      simpa [DeskEvent.checks] using h
    have htrades : checkedLedger setup d (.closeCalendar a env') = (closeCalendar setup a env' d).trades := rfl
    rw [htrades]
    simp only [step, closeCalendar]
    repeat' split
    all_goals first | exact Or.inl rfl | (rw [ReEntryMixin.checkReentry_trades]; exact Or.inr ⟨_, rfl⟩)
  | ledger | review | audit => exact absurd h (by simp [DeskEvent.checks])

/-- An eligible notice found no active position in the ledger that was checked. -/
theorem inactive_of_eligible (h : ev.checks = some (k, env, today)) {new : ExitEvent}
    (hnew : (step setup d ev).events = d.events ++ [new]) (helig : new.exitSignal = .r5ReentryEligible) :
    ∀ p ∈ (checkedLedger setup d ev).getPositions (ev.storeLookup setup) (k.mixin setup.minDte).strategyName,
      (k.mixin setup.minDte).reentryPositionActive p = false := by
  rcases @step_events setup d ev k env today h with hsame | ⟨expiry, hcheck⟩
  · exact absurd (hsame.symm.trans hnew) (by simp)
  · rcases @ReEntryMixin.checkReentry_events (k.mixin setup.minDte) env (ev.storeLookup setup) today expiry
      { trades := checkedLedger setup d ev, events := d.events } with hsame | ⟨-, -, happend⟩
    · exact absurd ((hcheck.trans hsame).symm.trans hnew) (by simp)
    · have hlast := List.append_cancel_left ((hcheck.trans happend).symm.trans hnew)
      rw [List.cons.injEq, and_iff_left rfl] at hlast
      exact ReEntryMixin.eligible_gates (by rwa [hlast])

/-! ### What the closes leave -/

/-- The close of a position that is open on the side closed leaves no other pair and, if its
key is free, not this one. -/
theorem getPositions_recordCloseTrade {T : PaperTrades} {lookup : Option InstrumentLookup} {s : String}
    {pos : PaperPosition} (action : TradeAction) (hpos : pos ∈ T.getPositions lookup s)
    (hside : match action with | .buy => pos.netQty < 0 | .sell => 0 < pos.netQty) (mark : Option ℚ) :
    (recordCloseTrade today action mark pos T).getPositions lookup s =
      if T.hasKey ⟨s, pos.legRole, pos.instrumentKey, today, action⟩ = true then T.getPositions lookup s
      else (T.getPositions lookup s).filter fun q => q.pair ≠ pos.pair := by
  obtain ⟨t, ht, hkey, hqty⟩ := CollarOverlay.buildCloseTrade_of_mem hpos hside today mark
  obtain ⟨hs, hrole, hinst, -, -⟩ := PaperTrade.UniqueKey.mk.inj hkey
  have hcloses : PaperTrades.Closes s t pos := ⟨hs, Prod.ext hrole hinst, hqty⟩
  rw [recordCloseTrade, ht, ← hkey]
  exact PaperTrades.getPositions_recordClose hpos hcloses

theorem closedPos_spec {a : OverlayClose} {side : ℤ → Bool} {T : PaperTrades} {pos : PaperPosition}
    (h : a.closedPos setup side T = some pos) :
    pos ∈ T.getPositions setup.storeLookup strategyOverlay ∧ side pos.netQty = true := by
  have hside := List.find?_some h
  exact ⟨(List.mem_filter.mp (List.mem_of_find?_eq_some h)).1, (Bool.and_eq_true _ _ ▸ hside).2⟩

theorem trades_closeCoveredCall (a : OverlayClose) :
    (closeCoveredCall setup a env d).trades =
      (a.closedPos setup (fun q => decide (q < 0)) d.trades).elim d.trades
      fun pos => recordCloseTrade a.today .buy a.mark pos d.trades := by
  unfold closeCoveredCall
  cases a.closedPos setup (fun q => decide (q < 0)) d.trades with
  | none => rfl
  | some pos =>
    dsimp only [Option.elim_some]
    split <;> simp

theorem trades_monetizeProtectivePut (a : OverlayClose) :
    (monetizeProtectivePut setup a env d).trades =
      (a.closedPos setup (fun q => decide (0 < q)) d.trades).elim d.trades fun pos =>
        recordCloseTrade a.today .sell a.mark pos d.trades := by
  unfold monetizeProtectivePut
  cases a.closedPos setup (fun q => decide (0 < q)) d.trades with
  | none => rfl
  | some pos => simp

/-- A covered call that is still open after its action was not closed by it. -/
theorem sound_closeCoveredCall (a : OverlayClose) (h : ClosesUnseen setup d (.closeCoveredCall a env)) :
    ∀ p ∈ (closeCoveredCall setup a env d).trades.getPositions setup.storeLookup strategyOverlay,
      Checked.coveredCall.manages p = false := by
  intro p hp
  by_contra hmanaged
  rw [Bool.not_eq_false] at hmanaged
  rw [trades_closeCoveredCall] at hp
  cases hclosed : a.closedPos setup (fun q => decide (q < 0)) d.trades with
  | none =>
    rw [hclosed] at hp
    exact absurd (hclosed.symm.trans (h p hp hmanaged).1) (by simp)
  | some pos =>
    rw [hclosed, Option.elim_some] at hp
    obtain ⟨hpos, hside⟩ := closedPos_spec hclosed
    rw [getPositions_recordCloseTrade .buy hpos (of_decide_eq_true hside)] at hp
    have hbefore : p ∈ d.trades.getPositions setup.storeLookup strategyOverlay := by
      split at hp
      · exact hp
      · exact List.mem_of_mem_filter hp
    obtain ⟨hfound, hfree⟩ := h p hbefore hmanaged
    obtain rfl := Option.some.inj (hclosed.symm.trans hfound)
    rw [hfree, if_neg Bool.false_ne_true] at hp
    exact absurd rfl (of_decide_eq_true (List.mem_filter.mp hp).2)

/-- A protective put that is still open after its action was open at the check. -/
theorem subset_monetizeProtectivePut (a : OverlayClose) :
    (monetizeProtectivePut setup a env d).trades.getPositions setup.storeLookup strategyOverlay ⊆
      d.trades.getPositions setup.storeLookup strategyOverlay := by
  rw [trades_monetizeProtectivePut]
  cases hclosed : a.closedPos setup (fun q => decide (0 < q)) d.trades with
  | none => exact List.Subset.refl _
  | some pos =>
    obtain ⟨hpos, hside⟩ := closedPos_spec hclosed
    rw [Option.elim_some, getPositions_recordCloseTrade .sell hpos (of_decide_eq_true hside)]
    split
    · exact List.Subset.refl _
    · exact List.filter_sublist.subset

/-- A long put of a collar that is still open after both legs are closed was not found. -/
theorem sound_closeBothLegs (e : CollarAction) (h : ClosesUnseen setup d (.collar e env)) :
    ∀ p ∈ (closeBothLegs setup.storeLookup strategyOverlay d.trades e).getPositions setup.storeLookup
      strategyOverlay,
      p.legRole = longPutRole → ¬0 < p.netQty := by
  intro p hp hrole hlong
  have hnet := PaperTrades.netQty_of_mem hp
  have hpair : p.pair = (longPutRole, p.instrumentKey) := Prod.ext hrole rfl
  rw [hpair] at hnet
  -- the put of the pair before the close, where the close does not touch the pair
  have hkept : (closeBothLegs setup.storeLookup strategyOverlay d.trades e).netQty strategyOverlay
      (longPutRole, p.instrumentKey) = d.trades.netQty strategyOverlay (longPutRole, p.instrumentKey) →
      ∃ q, longPutPos setup.storeLookup strategyOverlay d.trades e = some q ∧
        q.instrumentKey = p.instrumentKey := by
    intro hsame
    obtain ⟨q, hq, hqpair⟩ := (@PaperTrades.exists_position_iff _ setup.storeLookup _ _).mpr
      (show d.trades.netQty strategyOverlay (longPutRole, p.instrumentKey) ≠ 0 by
        rw [← hsame, ← hnet]; exact hlong.ne')
    have hqnet := PaperTrades.netQty_of_mem hq
    rw [hqpair, ← hsame, ← hnet] at hqnet
    exact ⟨q, (h q hq (congrArg Prod.fst hqpair) (hqnet ▸ hlong)).1, congrArg Prod.snd hqpair⟩
  cases hfound : longPutPos setup.storeLookup strategyOverlay d.trades e with
  | none =>
    obtain ⟨q, hq, -⟩ := hkept (CollarOverlay.netQty_put_of_not_found hfound _)
    exact absurd (hfound.symm.trans hq) (by simp)
  | some x =>
    obtain ⟨hx, hxrole, hxlong⟩ := CollarOverlay.findLeg_spec hfound
    have hfree := (h x hx hxrole (of_decide_eq_true hxlong)).2
    have hclosed := CollarOverlay.netQty_put_closeBothLegs hfound p.instrumentKey
    rw [CollarOverlay.closeUnits, hfree] at hclosed
    by_cases hkey : x.instrumentKey = p.instrumentKey
    · have hxnet := PaperTrades.netQty_of_mem hx
      have hxpair : x.pair = (longPutRole, p.instrumentKey) := Prod.ext hxrole hkey
      rw [if_pos ⟨rfl, by rw [hkey]⟩, ← hnet, hxnet, hxpair, add_neg_cancel] at hclosed
      exact hlong.ne' hclosed
    · rw [if_neg (by simp [hkey]), add_zero] at hclosed
      obtain ⟨q, hq, hqkey⟩ := hkept hclosed
      obtain rfl := Option.some.inj (hfound.symm.trans hq)
      exact hkey hqkey

/-- A leg of a calendar that is still open after a close was not one of its legs or its
closing key was taken. -/
theorem sound_closeCalendar (a : CalendarClose) (h : ClosesUnseen setup d (.closeCalendar a env))
    (hclosed : a.shell.exitLegs d.trades ≠ none) :
    ∀ p ∈ a.shell.held (closeCalendar setup a env d).trades, p.legRole ∉ NiftyCalendarV1.roles := by
  obtain ⟨legs, hlegs⟩ := Option.ne_none_iff_exists'.mp hclosed
  obtain ⟨T, hrun, hheld⟩ := CalendarShell.closeStructure_legs hlegs a.now.date a.vix
    (decisionText a.decision) a.mids
  have htrades : (closeCalendar setup a env d).trades = T := by
    rw [closeCalendar, hlegs]
    simp only [hrun]
    split <;> simp
  intro p hp hrole
  rw [htrades, hheld] at hp
  obtain ⟨hbefore, htaken⟩ := List.mem_filter.mp hp
  obtain ⟨hleg, hfree⟩ := h p hbefore hrole
  simp [hleg, hfree] at htaken

/-! ### Soundness -/

/-- **An action's notice is sound** where the action closes what the gate does not look for. -/
theorem sound_step (h : ClosesUnseen setup d ev) : Sound setup d ev := by
  intro k env today hchecks new hnew helig p hp
  have hinactive := inactive_of_eligible hchecks hnew helig
  cases ev with
  | closeCoveredCall a env' =>
    obtain ⟨rfl, -⟩ : Checked.coveredCall = k ∧ _ := by simpa [DeskEvent.checks] using hchecks
    exact sound_closeCoveredCall a h p hp
  | monetizeProtectivePut a env' =>
    obtain ⟨rfl, -⟩ : Checked.protectivePut = k ∧ _ := by simpa [DeskEvent.checks] using hchecks
    exact hinactive p (subset_monetizeProtectivePut a hp)
  | collar e env' =>
    obtain ⟨rfl, -⟩ : Checked.collar = k ∧ _ := by simpa [DeskEvent.checks] using hchecks
    have hcall : shortIn shortCallRole p = false := hinactive p hp
    have hput := sound_closeBothLegs e h p hp
    simp only [Checked.manages, Bool.or_eq_false_iff]
    refine ⟨hcall, ?_⟩
    by_contra hmanaged
    rw [Bool.not_eq_false, Bool.and_eq_true, decide_eq_true_iff, decide_eq_true_iff] at hmanaged
    exact hput hmanaged.1 hmanaged.2
  | closeAndRoll a env' =>
    obtain ⟨rfl, -⟩ : Checked.csp = k ∧ _ := by simpa [DeskEvent.checks] using hchecks
    exact hinactive p hp
  | closeCalendar a env' =>
    obtain ⟨rfl, -⟩ : Checked.calendar a.shell.strategyName = k ∧ _ := by simpa [DeskEvent.checks] using hchecks
    have hclosed : a.shell.exitLegs d.trades ≠ none := by
      intro hnone
      have hsame : step setup d (.closeCalendar a env') = d := by
        simp only [step, closeCalendar, hnone]
      rw [hsame] at hnew
      exact absurd hnew (by simp)
    exact decide_eq_false (sound_closeCalendar a h hclosed p hp)
  | ledger | review | audit => exact absurd hchecks (by simp [DeskEvent.checks])

/-! ### One notice a day -/

theorem seesToday_of_timely (hkept : EventsKept d) (h : Timely setup d ev)
    (hchecks : ev.checks = some (k, env, today)) :
    (k.mixin setup.minDte).SeesToday env today d.events := by
  obtain ⟨hread, -, hist, hopen⟩ := h k env today hchecks
  intro old hold hnotice hday
  rw [hist] at hday
  have hs : old.strategyName = (k.mixin setup.minDte).strategyName ∧ old.isReentry = true := by
    simp only [ReEntryMixin.isNotice, Bool.and_eq_true, decide_eq_true_iff] at hnotice
    exact ⟨hnotice.1.1, hnotice.2⟩
  refine ⟨hread, old, List.mem_filter.mpr ⟨hold, ?_⟩, hnotice, ?_⟩
  · simpa [hs.1] using hopen old hold hnotice hday
  · rw [hkept.dated old hold hs.2, hday]

/-- **A step keeps the limit** where its check can see the notice of the day. -/
theorem eventsKept_step (hkept : EventsKept d) (h : Timely setup d ev) : EventsKept (step setup d ev) := by
  have hunchanged : ∀ d' : Desk, d'.events = d.events → EventsKept d' := fun d' heq =>
    ⟨heq ▸ hkept.once, heq ▸ hkept.dated⟩
  cases hchecks : ev.checks with
  | some c =>
    obtain ⟨k, env, today⟩ := c
    obtain ⟨-, hutc, hist, -⟩ := h k env today hchecks
    have hsees := seesToday_of_timely hkept h hchecks
    rcases @step_events setup d ev k env today hchecks with hsame | ⟨expiry, hcheck⟩
    · exact hunchanged _ hsame
    · refine ⟨?_, ?_⟩
      · rw [hcheck]
        exact ReEntryMixin.atMostOnePerDay_checkReentry hkept.once hsees
      · rw [hcheck]
        rcases @ReEntryMixin.checkReentry_events (k.mixin setup.minDte) env (ev.storeLookup setup) today expiry
          { trades := checkedLedger setup d ev, events := d.events } with hsame | ⟨-, -, happend⟩
        · rw [hsame]
          exact hkept.dated
        · rw [happend]
          intro old hold hre
          rcases List.mem_append.mp hold with hold | hold
          · exact hkept.dated old hold hre
          · rw [List.mem_singleton.mp hold]
            exact hutc.trans hist.symm
  | none =>
    cases ev with
    | ledger T => exact hunchanged _ rfl
    | review status =>
      refine ⟨List.pairwise_map.mpr (hkept.once.imp fun hne => hne), fun ev hev => ?_⟩
      obtain ⟨old, hold, rfl⟩ := List.mem_map.mp hev
      exact hkept.dated old hold
    | audit ev other =>
      refine ⟨List.pairwise_append.mpr ⟨hkept.once, List.pairwise_singleton _ _, fun a _ b hb hsame => ?_⟩, ?_⟩
      · rw [List.mem_singleton.mp hb] at hsame
        exact absurd (other.symm.trans hsame.2.1) (by simp)
      · intro old hold hre
        rcases List.mem_append.mp hold with hold | hold
        · exact hkept.dated old hold hre
        · rw [List.mem_singleton.mp hold] at hre
          exact absurd (other.symm.trans hre) (by simp)
    | closeCoveredCall | monetizeProtectivePut | collar | closeAndRoll | closeCalendar =>
      exact absurd hchecks (by simp [DeskEvent.checks])

/-- A key of the July expiry of 2026. -/
private def julyKey (optionType strike : String) : String := "NSE_FO|NIFTY28JUL2026" ++ optionType ++ strike

/-- A check at noon in IST on 30 June 2026, with a volatility rank of one half. -/
private def noonCheck : CheckEnv := { ivr := some (1 / 2), writtenAt := 739797 * dayMicros + 23400000000 }

/-- A call sold on 29 June 2026. -/
private def soldCall : PaperTrade where
  strategyName := strategyOverlay
  legRole := "overlay_cc"
  instrumentKey := julyKey "CE" "25000"
  tradeDate := 739796
  action := .sell
  quantity := 65
  price := 90
  paperPrefix := by decide
  legRole_ne := overlayCc_ne
  instrumentKey_ne := by decide
  quantity_pos := lot_pos
  price_pos := price90_pos

/-- The desk with the sold call. -/
private def soldCallDesk : Desk := { trades := (PaperTrades.empty.recordTrade soldCall).1, events := [] }

/-- The call is closed at its profit target on 30 June. -/
private def closeSoldCall : DeskEvent :=
  .closeCoveredCall
    { today := 739797, legsToClose := [{ legRole := "overlay_cc" }], triggeringSignal := some "PROFIT_TARGET" } noonCheck

/-- An entry of a collar pair at these strikes. -/
private def pairAt (today : Date) (put call : String) : CollarAction :=
  { actionType := .closeAndReenterCollar, today, triggeringSignal := some "PROFIT_TARGET"
    choice := some
      { putKey := julyKey "PE" put, putPrice := 80, callKey := julyKey "CE" call, callPrice := 90
        expiry := "2026-07-28", dte := 28 } }

/-- The desk with the pair of 29 June 2026. -/
private def pairDesk : Desk :=
  { trades := reenterCollar strategyOverlay PaperTrades.empty (pairAt 739796 "23000" "25000"), events := [] }

/-- The pair is closed on 30 June and a new one opened. -/
private def reenterPair : DeskEvent := .collar (pairAt 739797 "23100" "25100") noonCheck

end NiftyShield.Strategy.ReEntry
