import NiftyShield.Strategy.CollarOverlay
import NiftyShield.Strategy.ExitSignals
import Mathlib.Data.List.Find

/-!
# The price a collar is closed at

`CollarOverlayV1.check_signals` (`src/strategy/collar_overlay_v1.py`) evaluates the short call
and, for a crash, the long put; `_select_combined_reentry_action` leaves one of the ACTION
events to be executed. An event carries one mark, that of the leg it was triggered by.
`apply_action` closes the call at this mark, whichever leg it is of, and the put at its cost.

## What is proved

* `dispatched_checkSignals_iff`: a tick executes an action exactly when a rule of the call fires
  or the put is worth monetizing; in the latter case the mark is the put's;
* `closes_at_own_marks_iff`: so every closing trade that is recorded carries the mark of its own
  leg if and only if no action is executed, or the put's mark is what the put cost and, when the
  put was the trigger, the call is quoted at the put's mark.

## Honest scope

Of the payload the leg role, the mark and what routes the event are kept; the mark is the number
its text denotes. Floats are compared exactly. The monitor passes some of the strategy's
positions, the same ones to the check and to the action.
-/

namespace NiftyShield.Strategy.CollarOverlay

open NiftyShield.Instruments NiftyShield.Lib NiftyShield.Paper
open OverlayCloser (shortCallRole longPutRole collarRoles)

/-! ### Signals -/

/-- An event of the strategy. -/
structure CollarEvent where
  /-- e.g. `DELTA_STOP`. -/
  eventType : String
  /-- How it is routed. -/
  severity : Severity
  /-- Text for the user. -/
  description : String
  /-- `leg_role`. -/
  legRole : String
  /-- `triggering_leg`. -/
  triggeringLeg : String
  /-- `mark`, if the leg is in the chain. -/
  mark : Option ℚ
  /-- `auto_execute`. -/
  autoExecute : Bool
  /-- `auto_action`. -/
  autoAction : Option CollarActionType
  /-- `triggering_signal`. -/
  triggeringSignal : Option String
  deriving DecidableEq

/-- The strategy, with what its check reads besides the chain and the positions. -/
structure CollarWatch where
  /-- Tenor policy. -/
  policy : OverlayTenorPolicy
  /-- `market_today()`. -/
  today : Date
  /-- BOD file. -/
  lookup : Option InstrumentLookup := none
  /-- How numbers are printed. -/
  text : RuleText

/-- `_REENTRY_ACTION_PRIORITY`. -/
def reentryActionPriority : List String := ["CRASH_MONETIZE", "LOSS_STOP", "PROFIT_TARGET", "DTE_REVIEW", "DELTA_STOP"]

/-- The winner of a tick. -/
def CollarEvent.promoted (winnerType : String) (e : CollarEvent) : CollarEvent :=
  { e with autoExecute := true, autoAction := some .closeAndReenterCollar, triggeringSignal := some winnerType }

/-- Another ACTION event of the tick. -/
def CollarEvent.demoted (e : CollarEvent) : CollarEvent := { e with autoExecute := false, autoAction := none }

/-- The loop of `_select_combined_reentry_action`. -/
def promote (winnerType : String) : Bool → List CollarEvent → List CollarEvent
  | _, [] => []
  | winnerEmitted, e :: events =>
    if e.severity = .action then
      if e.eventType = winnerType ∧ winnerEmitted = false then e.promoted winnerType :: promote winnerType true events
      else e.demoted :: promote winnerType winnerEmitted events
    else e :: promote winnerType winnerEmitted events

/-- `_select_combined_reentry_action`. -/
def selectCombinedReentryAction (events : List CollarEvent) : List CollarEvent :=
  match reentryActionPriority.find? fun t => events.any fun e => e.severity = .action && e.eventType = t with
  | none => events
  | some winnerType => promote winnerType false events

namespace CollarWatch

variable (w : CollarWatch) (market : OptionChain)

/-- `short_call_pos`. -/
def shortCall (positions : List PaperPosition) : Option PaperPosition :=
  positions.find? fun p => p.strategyName = w.policy.collarStrategyName && p.legRole = shortCallRole && p.netQty < 0

/-- `long_put_pos`. -/
def longPut (positions : List PaperPosition) : Option PaperPosition :=
  positions.find? fun p => p.strategyName = w.policy.collarStrategyName && p.legRole = longPutRole && 0 < p.netQty

/-- `_find_call_leg` and `_find_put_leg`. -/
def legOf (pos : PaperPosition) : Option OptionLeg := findOptionLeg pos.instrumentKey market w.lookup

/-- `dte` of the short call. -/
def dte (call : PaperPosition) : ℤ :=
  (resolveOptionExpiry call.instrumentKey w.lookup).elim 9999 (Date.daysBetween w.today)

/-- `current_mark`, the entry price for a leg that is not in the chain. -/
def currentMark (pos : PaperPosition) (entryPrice : ℚ) : ℚ := (w.legOf market pos).elim entryPrice (·.ltp)

/-- `delta`. -/
def deltaOf (pos : PaperPosition) : Option ℚ := (w.legOf market pos).bind (·.delta)

/-- The event of a result of the short call. -/
def callEvent (call : PaperPosition) (result : ExitSignalResult) : CollarEvent where
  eventType := result.exitSignal
  severity := result.severity
  description := (result.notes.filter (· ≠ "")).getD result.exitSignal
  legRole := call.legRole
  triggeringLeg := "short_call"
  mark := (w.legOf market call).map (·.ltp)
  autoExecute := result.severity = .action
  autoAction := if result.severity = .action then some .closeCollar else none
  triggeringSignal := if result.severity = .action then some result.exitSignal else none

/-- The event of a result of the long put. -/
def putEvent (put : PaperPosition) (result : ExitSignalResult) : CollarEvent where
  eventType := result.exitSignal
  severity := result.severity
  description := (result.notes.filter (· ≠ "")).getD result.exitSignal
  legRole := put.legRole
  triggeringLeg := "long_put"
  mark := (w.legOf market put).map (·.ltp)
  autoExecute := true
  autoAction := some .closeCollar
  triggeringSignal := some result.exitSignal

/-- The rules of the short call. -/
def callResults (call : PaperPosition) : List ExitSignalResult :=
  evaluateCc w.text call.avgSellPrice (w.currentMark market call call.avgSellPrice) (w.deltaOf market call) (w.dte call)
    w.policy

/-- The rule of the long put. -/
def putResults (put : PaperPosition) : List ExitSignalResult :=
  evaluateCrashMonetize w.text put.avgCost (w.currentMark market put put.avgCost) (w.deltaOf market put)

/-- The events before one of them is selected. -/
def legEvents (call : PaperPosition) (put : Option PaperPosition) : List CollarEvent :=
  (w.callResults market call).map (w.callEvent market call) ++
    put.elim [] fun p => (w.putResults market p).map (w.putEvent market p)

/-- `check_signals`. -/
def checkSignals (positions : List PaperPosition) : List CollarEvent :=
  match w.shortCall positions with
  | none => []
  | some call =>
    (selectCombinedReentryAction (w.legEvents market call (w.longPut positions))).insertionSort fun e f =>
      e.severity.rank ≤ f.severity.rank

end CollarWatch

/-! ### The executed action -/

/-- The action type the monitor executes the event with, if it does. -/
def dispatched (e : CollarEvent) : Option CollarActionType :=
  if e.severity = .action && e.autoExecute then e.autoAction else none

/-- The action the monitor builds: it closes the leg role of the payload. -/
def CollarWatch.actionOf (w : CollarWatch) (passed : PaperPosition → Bool) (choice : Option CollarChoice) (e : CollarEvent)
    (actionType : CollarActionType) : CollarAction where
  actionType
  today := w.today
  legsToClose := [{ legRole := e.legRole }]
  passed
  mark := e.mark
  triggeringSignal := e.triggeringSignal
  choice

/-- The positions that are closed, each with its closing trade. -/
def closes (lookup : Option InstrumentLookup) (s : String) (T : PaperTrades) (a : CollarAction) :
    List (PaperPosition × PaperTrade) :=
  ((shortCallPos lookup s T a).bind fun p => (buildCloseTrade a.today p .buy a.mark).map (p, ·)).toList ++
    ((longPutPos lookup s T a).bind fun p => (buildCloseTrade a.today p .sell none).map (p, ·)).toList

/-- Those whose trade is recorded. -/
def recordedCloses (lookup : Option InstrumentLookup) (s : String) (T : PaperTrades) (a : CollarAction) :
    List (PaperPosition × PaperTrade) :=
  (closes lookup s T a).filter fun c => !T.hasKey c.2.uniqueKey

/-- The mark of a leg, if the chain has a positive price for it. -/
def CollarWatch.ownMark (w : CollarWatch) (market : OptionChain) (pos : PaperPosition) : Option ℚ :=
  (w.legOf market pos).bind fun leg => if 0 < leg.ltp then some leg.ltp else none

/-- The profit of closing a position at a price. -/
def closePnl (pos : PaperPosition) (price : ℚ) : ℚ :=
  if pos.netQty < 0 then (pos.avgSellPrice - price) * |pos.netQty| else (price - pos.avgCost) * |pos.netQty|

section Claim

variable (w : CollarWatch) (lookup : Option InstrumentLookup) (passed : PaperPosition → Bool) (T : PaperTrades)
  (market : OptionChain)

/-- The positions the monitor passes. -/
def CollarWatch.passedPositions : List PaperPosition :=
  (T.getPositions lookup w.policy.collarStrategyName).filter passed

/-- **Collar legs close at their own price**: the trades that an executed event records carry the
marks of their own legs, and what they realize is the change of these marks. -/
def ClosesAtOwnMarks : Prop :=
  ∀ e ∈ w.checkSignals market (w.passedPositions lookup passed T), ∀ actionType, dispatched e = some actionType →
    ∀ choice,
      let recorded := recordedCloses lookup w.policy.collarStrategyName T (w.actionOf passed choice e actionType)
      (∀ c ∈ recorded, ∀ m, w.ownMark market c.1 = some m → c.2.price = m) ∧
        (recorded.map fun c => closePnl c.1 c.2.price).sum =
          (recorded.map fun c => closePnl c.1 ((w.ownMark market c.1).getD c.2.price)).sum

/-- An ACTION rule of the short call fires: the profit target, the premium stop unless it only
alerts, the delta stop, or the review of its expiry. -/
def CollarWatch.callFires (call : PaperPosition) : Bool :=
  (15 ≤ call.avgSellPrice &&
      w.currentMark market call call.avgSellPrice ≤ call.avgSellPrice * (1 - w.policy.profitTargetDecay)) ||
    (!w.policy.premiumStopAlertOnly && 0 < call.avgSellPrice &&
      w.policy.premiumStopMultiple * call.avgSellPrice ≤ w.currentMark market call call.avgSellPrice) ||
    (w.deltaOf market call).any (w.policy.deltaStop ≤ ·) || w.dte call ≤ w.policy.reviewDte

/-- The long put is worth monetizing: its delta is −0.80 or its value five times the cost. -/
def CollarWatch.putFires (put : PaperPosition) : Bool :=
  0 < put.avgCost && ((w.deltaOf market put).any (· ≤ -(80 / 100)) ||
    5 * put.avgCost ≤ w.currentMark market put put.avgCost)

end Claim

/-! ### What the rules find -/

section Rules

variable {w : CollarWatch} {market : OptionChain}

/-- An ACTION of the short call has a place among the priorities, below a crash. -/
theorem callResults_action_mem {call : PaperPosition} {r : ExitSignalResult} (h : r ∈ w.callResults market call)
    (hr : r.severity = .action) : r.exitSignal ∈ reentryActionPriority ∧ r.exitSignal ≠ "CRASH_MONETIZE" := by
  have hnames : ∀ name ∈ ["LOSS_STOP", "PROFIT_TARGET", "DTE_REVIEW", "DELTA_STOP"],
      name ∈ reentryActionPriority ∧ name ≠ "CRASH_MONETIZE" := by decide
  refine hnames r.exitSignal ?_
  unfold CollarWatch.callResults evaluateCc at h
  simp only [sortResults, List.mem_insertionSort, List.mem_append] at h
  rcases h with ((h | h) | h) | h
  · split at h
    · obtain rfl := List.mem_singleton.mp h
      cases hr
    · split at h
      · obtain rfl := List.mem_singleton.mp h
        simp
      · exact absurd h List.not_mem_nil
  · split at h
    · obtain rfl := List.mem_singleton.mp h
      simp
    · exact absurd h List.not_mem_nil
  · split at h
    · exact absurd h List.not_mem_nil
    · split at h
      · obtain rfl := List.mem_singleton.mp h
        simp
      · split at h
        · obtain rfl := List.mem_singleton.mp h
          cases hr
        · exact absurd h List.not_mem_nil
  · split at h
    · obtain rfl := List.mem_singleton.mp h
      simp
    · exact absurd h List.not_mem_nil

theorem anyAction_ite {c : Prop} [Decidable c] {r : ExitSignalResult} :
    anyAction (if c then [r] else []) = (decide c && r.severity = .action) := by
  split <;> simp_all [anyAction_cons]

theorem anyAction_two {c d : Prop} [Decidable c] [Decidable d] {r r' : ExitSignalResult} :
    anyAction (if c then [r] else if d then [r'] else []) =
      ((decide c && r.severity = .action) || (decide (¬ c) && (decide d && r'.severity = .action))) := by
  by_cases hc : c
  · simp [hc, anyAction_cons]
  · rw [if_neg hc, anyAction_ite]
    simp [hc]

/-- **When a rule of the short call fires.** -/
theorem anyAction_callResults (call : PaperPosition) :
    anyAction (w.callResults market call) = w.callFires market call := by
  have hfloor : ∀ b : Bool, (decide (¬ call.avgSellPrice < 12) && (15 ≤ call.avgSellPrice && b)) =
      (15 ≤ call.avgSellPrice && b) := by
    intro b
    by_cases hcredit : 15 ≤ call.avgSellPrice
    · have hnot : ¬ call.avgSellPrice < 12 := not_lt.mpr (le_trans (by norm_num) hcredit)
      simp [hnot]
    · simp [hcredit]
  have halert : (decide ((if w.policy.premiumStopAlertOnly = true then Severity.warn
    else Severity.action) = .action)) =
      !w.policy.premiumStopAlertOnly := by
    cases w.policy.premiumStopAlertOnly <;> rfl
  have hpremium : ∀ b : Bool, (decide ((decide (0 < call.avgSellPrice) && b) = true) &&
    !w.policy.premiumStopAlertOnly) =
      (!w.policy.premiumStopAlertOnly && 0 < call.avgSellPrice && b) := by
    intro b
    rw [Bool.decide_eq_true, Bool.and_comm, Bool.and_assoc]
  unfold CollarWatch.callResults evaluateCc CollarWatch.callFires getSellAuditFields
  simp only [anyAction_sortResults, anyAction_append, anyAction_ite, anyAction_two, halert, hfloor, hpremium,
    Bool.decide_and, decide_true, Bool.and_true, reduceCtorEq, decide_false, Bool.and_false, Bool.false_or]
  cases w.deltaOf market call with
  | none => rfl
  | some d =>
    simp only [anyAction_two, reduceCtorEq, decide_false, Bool.and_false, Bool.or_false, decide_true,
      Bool.and_true,
      Option.any_some]

/-- **When the put is worth monetizing.** -/
theorem anyAction_putResults (put : PaperPosition) :
    anyAction (w.putResults market put) = w.putFires market put := by
  unfold CollarWatch.putResults evaluateCrashMonetize CollarWatch.putFires
  by_cases hcost : put.avgCost ≤ 0
  · rw [if_pos hcost, decide_eq_false (not_lt.mpr hcost)]
    rfl
  · rw [if_neg hcost, decide_eq_true (not_le.mp hcost), anyAction_ite]
    simp

theorem mem_putResults {put : PaperPosition} {r : ExitSignalResult} (h : r ∈ w.putResults market put) :
    r.exitSignal = "CRASH_MONETIZE" ∧ r.severity = .action := by
  unfold CollarWatch.putResults evaluateCrashMonetize at h
  split at h
  · exact absurd h List.not_mem_nil
  · split at h
    · obtain rfl := List.mem_singleton.mp h
      exact ⟨rfl, rfl⟩
    · exact absurd h List.not_mem_nil

end Rules

/-! ### The event that is executed -/

section Promote

variable {winnerType : String} {e : CollarEvent}

/-- What is executed after the selection is a promoted event. -/
theorem mem_promote {k : CollarActionType} (hk : dispatched e = some k) :
    ∀ {emitted : Bool} {events : List CollarEvent},
    e ∈ promote winnerType emitted events →
      ∃ f ∈ events, f.severity = .action ∧ f.eventType = winnerType ∧ e = f.promoted winnerType
  | _, [], h => absurd h List.not_mem_nil
  | emitted, f :: events, h => by
    have hrest : ∀ {b}, e ∈ promote winnerType b events →
        ∃ f' ∈ f :: events, f'.severity = .action ∧ f'.eventType = winnerType ∧ e = f'.promoted winnerType := by
      intro b hb
      obtain ⟨f', hf', hspec⟩ := mem_promote hk hb
      exact ⟨f', List.mem_cons_of_mem f hf', hspec⟩
    rw [promote] at h
    split at h
    next haction =>
      split at h
      next hwinner =>
        rcases List.mem_cons.mp h with rfl | h
        · exact ⟨f, List.mem_cons_self, haction, hwinner.1, rfl⟩
        · exact hrest h
      next =>
        rcases List.mem_cons.mp h with rfl | h
        · simp [dispatched, CollarEvent.demoted] at hk
        · exact hrest h
    next haction =>
      rcases List.mem_cons.mp h with rfl | h
      · simp [dispatched, haction] at hk
      · exact hrest h

/-- The first event of the winning type is promoted. -/
theorem exists_promoted : ∀ {events : List CollarEvent}, e ∈ events → e.severity = .action →
    e.eventType = winnerType →
    ∃ f ∈ events, f.severity = .action ∧ f.promoted winnerType ∈ promote winnerType false events
  | f :: events, h, haction, htype => by
    rw [promote]
    by_cases hf : f.severity = .action ∧ f.eventType = winnerType
    · refine ⟨f, List.mem_cons_self, hf.1, ?_⟩
      rw [if_pos hf.1, if_pos ⟨hf.2, rfl⟩]
      exact List.mem_cons_self
    · have hmem : e ∈ events := by
        rcases List.mem_cons.mp h with rfl | h
        · exact absurd ⟨haction, htype⟩ hf
        · exact h
      obtain ⟨g, hg, hgaction, hpromoted⟩ := exists_promoted hmem haction htype
      refine ⟨g, List.mem_cons_of_mem f hg, hgaction, ?_⟩
      split
      next hfaction =>
        rw [if_neg fun hw => hf ⟨hfaction, hw.1⟩]
        exact List.mem_cons_of_mem _ hpromoted
      next => exact List.mem_cons_of_mem _ hpromoted

theorem dispatched_promoted (haction : e.severity = .action) :
    dispatched (e.promoted winnerType) = some .closeAndReenterCollar := by
  simp [dispatched, CollarEvent.promoted, haction]

end Promote

section Dispatch

variable {w : CollarWatch} {market : OptionChain} {positions : List PaperPosition} {call : PaperPosition}

/-- The put fires. -/
def PutTriggers (w : CollarWatch) (market : OptionChain) (positions : List PaperPosition) (put : PaperPosition) : Prop :=
  w.longPut positions = some put ∧ w.putFires market put = true

theorem exists_action {results : List ExitSignalResult} (h : anyAction results = true) :
    ∃ r ∈ results, r.severity = .action := by
  simpa [anyAction] using h

theorem mem_legEvents {e : CollarEvent} {put : Option PaperPosition} (h : e ∈ w.legEvents market call put) :
    (∃ r ∈ w.callResults market call, e = w.callEvent market call r) ∨
      ∃ p, put = some p ∧ ∃ r ∈ w.putResults market p, e = w.putEvent market p r := by
  rcases List.mem_append.mp h with h | h
  · obtain ⟨r, hr, rfl⟩ := List.mem_map.mp h
    exact Or.inl ⟨r, hr, rfl⟩
  · cases put with
    | none => exact absurd h List.not_mem_nil
    | some p =>
      obtain ⟨r, hr, rfl⟩ := List.mem_map.mp h
      exact Or.inr ⟨p, rfl, r, hr, rfl⟩

/-- The winner is an ACTION of the tick; a crash wins whenever it fires. -/
theorem winner_spec {events : List CollarEvent} {t : String}
    (h : (reentryActionPriority.find? fun t => events.any fun e =>
      e.severity = .action && e.eventType = t) = some t) :
    (∃ e ∈ events, e.severity = .action ∧ e.eventType = t) ∧
      ((∃ e ∈ events, e.severity = .action ∧ e.eventType = "CRASH_MONETIZE") → t = "CRASH_MONETIZE") := by
  constructor
  · simpa using List.find?_some h
  · rintro ⟨e, he, haction, htype⟩
    have hcrash : (events.any fun e => e.severity = .action && e.eventType = "CRASH_MONETIZE") = true :=
      List.any_eq_true.mpr ⟨e, he, by simp [haction, htype]⟩
    rw [reentryActionPriority, List.find?_cons] at h
    simp only [hcrash] at h
    exact (Option.some.inj h).symm

/-- Every ACTION of the legs is among the priorities. -/
theorem action_mem_priority {e : CollarEvent} {put : Option PaperPosition} (h : e ∈ w.legEvents market call put)
    (haction : e.severity = .action) : e.eventType ∈ reentryActionPriority := by
  rcases mem_legEvents h with ⟨r, hr, rfl⟩ | ⟨p, -, r, hr, rfl⟩
  · exact (callResults_action_mem hr haction).1
  · have hname : (w.putEvent market p r).eventType = "CRASH_MONETIZE" := (mem_putResults hr).1
    rw [hname]
    decide

theorem mem_checkSignals {e : CollarEvent} (hcall : w.shortCall positions = some call) :
    e ∈ w.checkSignals market positions ↔
      e ∈ selectCombinedReentryAction (w.legEvents market call (w.longPut positions)) := by
  unfold CollarWatch.checkSignals
  rw [hcall]
  exact List.mem_insertionSort _

theorem putEvent_mem {put : PaperPosition} (h : PutTriggers w market positions put) :
    ∃ e ∈ w.legEvents market call (w.longPut positions), e.severity = .action ∧
      e.eventType = "CRASH_MONETIZE" := by
  obtain ⟨hput, hfires⟩ := h
  rw [← anyAction_putResults] at hfires
  obtain ⟨r, hr, haction⟩ := exists_action hfires
  refine ⟨w.putEvent market put r, ?_, haction, (mem_putResults hr).1⟩
  rw [hput]
  exact List.mem_append_right _ (List.mem_map_of_mem hr)

/-- **The executed event** is that of the put if it is worth monetizing, else one of the call. -/
theorem dispatched_cases {e : CollarEvent} {k : CollarActionType} (hcall : w.shortCall positions = some call)
    (he : e ∈ w.checkSignals market positions) (hk : dispatched e = some k) :
    (∃ put, PutTriggers w market positions put ∧ e.legRole = put.legRole ∧
        e.mark = (w.legOf market put).map (·.ltp)) ∨
      (w.callFires market call = true ∧ (∀ put, ¬ PutTriggers w market positions put) ∧
        e.legRole = call.legRole ∧
        e.mark = (w.legOf market call).map (·.ltp)) := by
  rw [mem_checkSignals hcall, selectCombinedReentryAction] at he
  split at he
  next hnone =>
    -- without a winner there is no ACTION at all
    have haction : e.severity = .action := by
      by_contra hne
      simp [dispatched, hne] at hk
    have hnot := List.find?_eq_none.mp hnone e.eventType (action_mem_priority he haction)
    exact absurd (List.any_eq_true.mpr ⟨e, he, by simp [haction]⟩) hnot
  next t hwinner =>
    obtain ⟨f, hf, haction, htype, rfl⟩ := mem_promote hk he
    rcases mem_legEvents hf with ⟨r, hr, rfl⟩ | ⟨put, hput, r, hr, rfl⟩
    · right
      have hname := (callResults_action_mem hr haction).2
      refine ⟨?_, fun put hput => ?_, rfl, rfl⟩
      · rw [← anyAction_callResults, anyAction, List.any_eq_true]
        exact ⟨r, hr, decide_eq_true haction⟩
      · have hcrash := (winner_spec hwinner).2 (putEvent_mem hput)
        exact hname (htype.trans hcrash)
    · left
      refine ⟨put, ⟨hput, ?_⟩, rfl, rfl⟩
      rw [← anyAction_putResults, anyAction, List.any_eq_true]
      exact ⟨r, hr, decide_eq_true (mem_putResults hr).2⟩

/-- A rule that fires has an event executed. -/
theorem exists_dispatched (hcall : w.shortCall positions = some call)
    (h : w.callFires market call = true ∨ ∃ put, PutTriggers w market positions put) :
    ∃ e ∈ w.checkSignals market positions, ∃ k, dispatched e = some k := by
  obtain ⟨e, he, haction⟩ : ∃ e ∈ w.legEvents market call (w.longPut positions), e.severity = .action := by
    rcases h with hfires | ⟨put, hput⟩
    · rw [← anyAction_callResults] at hfires
      obtain ⟨r, hr, haction⟩ := exists_action hfires
      exact ⟨_, List.mem_append_left _ (List.mem_map_of_mem hr), haction⟩
    · obtain ⟨e, he, haction, -⟩ := putEvent_mem hput
      exact ⟨e, he, haction⟩
  have hsome : (reentryActionPriority.find? fun t =>
    (w.legEvents market call (w.longPut positions)).any fun e =>
      e.severity = .action && e.eventType = t).isSome = true :=
    List.find?_isSome.mpr ⟨e.eventType, action_mem_priority he haction,
      List.any_eq_true.mpr ⟨e, he, by simp [haction]⟩⟩
  obtain ⟨t, ht⟩ := Option.isSome_iff_exists.mp hsome
  obtain ⟨f, hf, hfaction, hftype⟩ := (winner_spec ht).1
  obtain ⟨g, hg, hgaction, hpromoted⟩ := exists_promoted hf hfaction hftype
  refine ⟨g.promoted t, ?_, _, dispatched_promoted hgaction⟩
  rw [mem_checkSignals hcall, selectCombinedReentryAction, ht]
  exact hpromoted

/-- **When an action is executed.** -/
theorem dispatched_checkSignals_iff (hcall : w.shortCall positions = some call) :
    (∃ e ∈ w.checkSignals market positions, ∃ k, dispatched e = some k) ↔
      w.callFires market call = true ∨ ∃ put, PutTriggers w market positions put := by
  constructor
  · rintro ⟨e, he, k, hk⟩
    rcases dispatched_cases hcall he hk with ⟨put, hput, -⟩ | ⟨hfires, -⟩
    · exact Or.inr ⟨put, hput⟩
    · exact Or.inl hfires
  · exact exists_dispatched hcall

end Dispatch

/-! ### The trades of the executed action -/

section Closes

variable {w : CollarWatch} {lookup : Option InstrumentLookup} {passed : PaperPosition → Bool} {T : PaperTrades}
  {market : OptionChain} {e : CollarEvent} {k : CollarActionType} {choice : Option CollarChoice} {s : String}
  {a : CollarAction}

/-- A leg named by its role alone does not narrow the search. -/
theorem legs_match {role : String} {p : PaperPosition} (hp : p.legRole = role) (legRole : String) :
    ([({ legRole } : LegClose)].find? fun leg => leg.legRole = role).all (legCloseMatches p) = true := by
  rw [List.find?_singleton]
  split
  next hrole =>
    have hsame : legRole = role := of_decide_eq_true hrole
    simp [legCloseMatches, hp, hsame]
  next => rfl

/-- The check and the action see the same short call. -/
theorem shortCallPos_actionOf : shortCallPos lookup w.policy.collarStrategyName T
    (w.actionOf passed choice e k) =
    w.shortCall (w.passedPositions lookup passed T) := by
  refine List.find?_congr fun p hp => ?_
  have hname := (getPositions_open (List.mem_of_mem_filter hp)).1
  by_cases hrole : p.legRole = shortCallRole
  · rw [CollarWatch.actionOf, legs_match hrole e.legRole, decide_eq_true hname, Bool.and_true, Bool.true_and]
  · simp [hrole]

/-- And the same long put. -/
theorem longPutPos_actionOf : longPutPos lookup w.policy.collarStrategyName T (w.actionOf passed choice e k) =
    w.longPut (w.passedPositions lookup passed T) := by
  refine List.find?_congr fun p hp => ?_
  have hname := (getPositions_open (List.mem_of_mem_filter hp)).1
  by_cases hrole : p.legRole = longPutRole
  · rw [CollarWatch.actionOf, legs_match hrole e.legRole, decide_eq_true hname, Bool.and_true, Bool.true_and]
  · simp [hrole]

theorem price_buildCloseTrade {today : Date} {p : PaperPosition} {action : TradeAction}
    {mark : Option ℚ} {t : PaperTrade}
    (h : buildCloseTrade today p action mark = some t) : t.price = closePrice p action mark := by
  unfold buildCloseTrade at h
  simp only at h
  split at h
  · exact absurd h (by simp)
  · unfold PaperTrade.validate at h
    split at h
    · obtain rfl := Option.some.inj h
      rfl
    · exact absurd h (by simp)

/-- The call is closed at the mark of the trigger, the leg's average price standing in for one that
is missing or not positive. -/
theorem closePrice_mark (call trigger : PaperPosition) :
    closePrice call .buy ((w.legOf market trigger).map (·.ltp)) =
      (w.ownMark market trigger).getD call.avgSellPrice := by
  unfold closePrice CollarWatch.ownMark
  cases w.legOf market trigger with
  | none => simp
  | some leg =>
    by_cases hltp : 0 < leg.ltp
    · simp [hltp, not_le.mpr hltp]
    · simp [hltp, not_lt.mp hltp]

/-- The put is closed at its cost. -/
theorem closePrice_none (put : PaperPosition) : closePrice put .sell none = put.avgCost := by simp [closePrice]

theorem mem_closes {c : PaperPosition × PaperTrade} : c ∈ closes lookup s T a ↔
    (shortCallPos lookup s T a = some c.1 ∧ buildCloseTrade a.today c.1 .buy a.mark = some c.2) ∨
      (longPutPos lookup s T a = some c.1 ∧ buildCloseTrade a.today c.1 .sell none = some c.2) := by
  obtain ⟨p, t⟩ := c
  have hside : ∀ (found : Option PaperPosition) (build : PaperPosition → Option PaperTrade),
      (p, t) ∈ (found.bind fun q => (build q).map (q, ·)).toList ↔ found = some p ∧ build p = some t := by
    intro found build
    rw [Option.mem_toList, Option.bind_eq_some_iff]
    constructor
    · rintro ⟨q, hq, hbuild⟩
      obtain ⟨u, hu, heq⟩ := Option.map_eq_some_iff.mp hbuild
      obtain ⟨rfl, rfl⟩ := Prod.mk.inj heq
      exact ⟨hq, hu⟩
    · rintro ⟨hq, hbuild⟩
      exact ⟨p, hq, by rw [hbuild, Option.map_some]⟩
  rw [closes, List.mem_append, hside, hside]

/-- **What `record_trades` inserts** are the recorded closes. -/
theorem map_recordedCloses : (recordedCloses lookup s T a).map Prod.snd =
    (T.recordTrades (closingTrades lookup s T a)).2.1 := by
  have hmap : (closes lookup s T a).map Prod.snd = closingTrades lookup s T a := by
    have hside : ∀ (found : Option PaperPosition) (build : PaperPosition → Option PaperTrade),
        (found.bind fun q => (build q).map (q, ·)).toList.map Prod.snd = (found.bind build).toList := by
      intro found build
      cases found with
      | none => rfl
      | some q => cases hq : build q <;> simp [hq]
    rw [closes, List.map_append, hside, hside, closingTrades]
  have hkeys : (closingTrades lookup s T a).Pairwise fun t u => t.uniqueKey ≠ u.uniqueKey := by
    have hone : ∀ o : Option PaperTrade, o.toList.Pairwise fun t u => t.uniqueKey ≠ u.uniqueKey := by
      intro o
      cases o <;> simp
    refine List.pairwise_append.mpr ⟨hone _, hone _, fun t ht u hu hkey => ?_⟩
    obtain ⟨c, hc, hbuild⟩ := Option.bind_eq_some_iff.mp (Option.mem_toList.mp ht)
    obtain ⟨p, hp, hbuild'⟩ := Option.bind_eq_some_iff.mp (Option.mem_toList.mp hu)
    obtain ⟨t', ht', htkey, -⟩ := closeTrade_call hc
    obtain ⟨u', hu', hukey, -⟩ := closeTrade_put hp
    obtain rfl := Option.some.inj (hbuild.symm.trans ht')
    obtain rfl := Option.some.inj (hbuild'.symm.trans hu')
    have hrole := congrArg PaperTrade.UniqueKey.legRole (htkey.symm.trans (hkey.trans hukey))
    exact roles_ne hrole
  rw [PaperTrades.inserted_recordTrades, fresh_eq_filter hkeys, ← hmap, List.filter_map]
  rfl

/-- A leg whose closing key is free is recorded, at the price of its trade. -/
theorem recorded_call {call : PaperPosition} (hcall : shortCallPos lookup s T a = some call)
    (hfree : T.hasKey ⟨s, shortCallRole, call.instrumentKey, a.today, .buy⟩ = false) :
    ∃ t, (call, t) ∈ recordedCloses lookup s T a ∧ t.price = closePrice call .buy a.mark := by
  obtain ⟨t, ht, hkey, -⟩ := closeTrade_call hcall
  refine ⟨t, List.mem_filter.mpr ⟨mem_closes.mpr (Or.inl ⟨hcall, ht⟩), ?_⟩, price_buildCloseTrade ht⟩
  rw [hkey, hfree]
  rfl

theorem recorded_put {put : PaperPosition} (hput : longPutPos lookup s T a = some put)
    (hfree : T.hasKey ⟨s, longPutRole, put.instrumentKey, a.today, .sell⟩ = false) :
    ∃ t, (put, t) ∈ recordedCloses lookup s T a ∧ t.price = put.avgCost := by
  obtain ⟨t, ht, hkey, -⟩ := closeTrade_put hput
  refine ⟨t, List.mem_filter.mpr ⟨mem_closes.mpr (Or.inr ⟨hput, ht⟩), ?_⟩, ?_⟩
  · rw [hkey, hfree]
    rfl
  · rw [price_buildCloseTrade ht, closePrice_none]

/-- A recorded close is that of the call or of the put, under a key that was free. -/
theorem recorded_cases {c : PaperPosition × PaperTrade} (h : c ∈ recordedCloses lookup s T a) :
    (shortCallPos lookup s T a = some c.1 ∧
      T.hasKey ⟨s, shortCallRole, c.1.instrumentKey, a.today, .buy⟩ = false ∧
        c.2.price = closePrice c.1 .buy a.mark) ∨
      (longPutPos lookup s T a = some c.1 ∧
        T.hasKey ⟨s, longPutRole, c.1.instrumentKey, a.today, .sell⟩ = false ∧
        c.2.price = c.1.avgCost) := by
  obtain ⟨hmem, hfree⟩ := List.mem_filter.mp h
  rw [Bool.not_eq_true'] at hfree
  rcases mem_closes.mp hmem with ⟨hcall, hbuild⟩ | ⟨hput, hbuild⟩
  · obtain ⟨t, ht, hkey, -⟩ := closeTrade_call hcall
    obtain rfl := Option.some.inj (ht.symm.trans hbuild)
    exact Or.inl ⟨hcall, hkey ▸ hfree, price_buildCloseTrade hbuild⟩
  · obtain ⟨t, ht, hkey, -⟩ := closeTrade_put hput
    obtain rfl := Option.some.inj (ht.symm.trans hbuild)
    exact Or.inr ⟨hput, hkey ▸ hfree, (price_buildCloseTrade hbuild).trans (closePrice_none _)⟩

end Closes

section Claim

variable (w : CollarWatch) (lookup : Option InstrumentLookup) (passed : PaperPosition → Bool) (T : PaperTrades)
  (market : OptionChain)

/-- At their own marks the trades realize the change of the marks. -/
theorem sum_closePnl {recorded : List (PaperPosition × PaperTrade)}
    (h : ∀ c ∈ recorded, ∀ m, w.ownMark market c.1 = some m → c.2.price = m) :
    (recorded.map fun c => closePnl c.1 c.2.price).sum =
      (recorded.map fun c => closePnl c.1 ((w.ownMark market c.1).getD c.2.price)).sum := by
  refine congrArg List.sum (List.map_congr_left fun c hc => ?_)
  cases hm : w.ownMark market c.1 with
  | none => rfl
  | some m => rw [h c hc m hm, Option.getD_some]

variable {w lookup passed T market}

/-- The put is closed at its cost, so this is its mark if it is closed at its mark. -/
theorem putMark_of_closes (hown : ClosesAtOwnMarks w lookup passed T market) {call put : PaperPosition}
    (hcall : w.shortCall (w.passedPositions lookup passed T) = some call)
    (hfires : w.callFires market call = true ∨
      ∃ put, PutTriggers w market (w.passedPositions lookup passed T) put)
    (hput : w.longPut (w.passedPositions lookup passed T) = some put)
    (hfree : T.hasKey ⟨w.policy.collarStrategyName, longPutRole, put.instrumentKey, w.today, .sell⟩ =
      false) {m : ℚ}
    (hm : w.ownMark market put = some m) : m = put.avgCost := by
  obtain ⟨e, he, k, hk⟩ := exists_dispatched hcall hfires
  obtain ⟨t, ht, hprice⟩ := recorded_put (longPutPos_actionOf.trans hput) hfree
  exact ((hown e he k hk none).1 _ ht m hm).symm.trans hprice

/-- The call is closed at the mark of a put that fires. -/
theorem callMark_of_closes (hown : ClosesAtOwnMarks w lookup passed T market) {call put : PaperPosition}
    (hcall : w.shortCall (w.passedPositions lookup passed T) = some call)
    (hput : PutTriggers w market (w.passedPositions lookup passed T) put)
    (hfree : T.hasKey ⟨w.policy.collarStrategyName, shortCallRole, call.instrumentKey, w.today,
      .buy⟩ = false) {m : ℚ}
    (hm : w.ownMark market call = some m) : m = (w.ownMark market put).getD call.avgSellPrice := by
  obtain ⟨e, he, k, hk⟩ := exists_dispatched hcall (Or.inr ⟨put, hput⟩)
  obtain ⟨t, ht, hprice⟩ := recorded_call (shortCallPos_actionOf.trans hcall) hfree
  rcases dispatched_cases hcall he hk with ⟨put', hput', -, hmark⟩ | ⟨-, hnone, -⟩
  · obtain rfl := Option.some.inj (hput.1.symm.trans hput'.1)
    rw [CollarWatch.actionOf, hmark, closePrice_mark] at hprice
    exact ((hown e he k hk none).1 _ ht m hm).symm.trans hprice
  · exact absurd hput (hnone put)

variable (w lookup passed T market)

/-- **Every recorded close carries its own leg's mark** if and only if no action is executed, or
the put, if its closing key is free and the chain has a positive price for it, is quoted at its
average cost, and when it is the put that fires the call, under the same conditions, is quoted at
the put's mark (or, where that is not positive, at the credit it was sold for). -/
theorem closes_at_own_marks_iff :
    ClosesAtOwnMarks w lookup passed T market ↔
      ∀ call, w.shortCall (w.passedPositions lookup passed T) = some call →
        (w.callFires market call = true ∨ ∃ put, PutTriggers w market (w.passedPositions lookup passed T) put) →
          (∀ put, w.longPut (w.passedPositions lookup passed T) = some put →
            T.hasKey ⟨w.policy.collarStrategyName, longPutRole, put.instrumentKey, w.today, .sell⟩ = false →
              ∀ m, w.ownMark market put = some m → m = put.avgCost) ∧
          (∀ put, PutTriggers w market (w.passedPositions lookup passed T) put →
            T.hasKey ⟨w.policy.collarStrategyName, shortCallRole, call.instrumentKey, w.today, .buy⟩ = false →
              ∀ m, w.ownMark market call = some m → m = (w.ownMark market put).getD call.avgSellPrice) := by
  constructor
  · intro hown call hcall hfires
    exact ⟨fun put hput hfree m hm => putMark_of_closes hown hcall hfires hput hfree hm,
      fun put hput hfree m hm => callMark_of_closes hown hcall hput hfree hm⟩
  · intro hcond e he k hk choice
    have hprices : ∀ c ∈ recordedCloses lookup w.policy.collarStrategyName T (w.actionOf passed choice e k),
        ∀ m, w.ownMark market c.1 = some m → c.2.price = m := by
      intro c hc m hm
      cases hcall : w.shortCall (w.passedPositions lookup passed T) with
      | none =>
        rw [CollarWatch.checkSignals, hcall] at he
        exact absurd he List.not_mem_nil
      | some call =>
        have hdispatched := dispatched_cases hcall he hk
        obtain ⟨hputs, hcalls⟩ := hcond call hcall
          ((dispatched_checkSignals_iff hcall).mp ⟨e, he, k, hk⟩)
        rcases recorded_cases hc with ⟨hpos, hfree, hprice⟩ | ⟨hpos, hfree, hprice⟩
        · rw [shortCallPos_actionOf, hcall] at hpos
          obtain rfl := Option.some.inj hpos
          rcases hdispatched with ⟨put, hput, -, hmark⟩ | ⟨-, -, -, hmark⟩
          · rw [CollarWatch.actionOf, hmark, closePrice_mark] at hprice
            exact hprice.trans (hcalls put hput hfree m hm).symm
          · rw [CollarWatch.actionOf, hmark, closePrice_mark, hm, Option.getD_some] at hprice
            exact hprice
        · rw [longPutPos_actionOf] at hpos
          exact hprice.trans (hputs c.1 hpos hfree m hm).symm
    exact ⟨hprices, sum_closePnl w market hprices⟩

end Claim

/-! ### A crash -/

/-- A put bought at 50 and a call sold at 80. -/
def openedPair : PaperTrades :=
  reenterCollar "paper_nifty_overlay" PaperTrades.empty
    { actionType := .closeAndReenterCollar, today := 739790
      choice := some { putKey := "NSE_FO|NIFTY23000PE", putPrice := 50, callKey := "NSE_FO|NIFTY25000CE", callPrice := 80
                       expiry := "2026-07-28", dte := 28 } }

/-- The put is worth six times its cost. -/
def crashedChain : OptionChain where
  underlyingSpot := 22000
  expiry := 739824
  strikes := (Dict.empty.set 25000
      { ce := some { ltp := 20, bid := 19, ask := 21, delta := some (15 / 100), strike := 25000 } }).set 23000
    { pe := some { ltp := 300, bid := 299, ask := 301, delta := some (-85 / 100), strike := 23000 } }

/-- The crash is monetized at what the put cost. -/
theorem crash_closes_at_cost :
    ¬ ∀ (w : CollarWatch) (lookup : Option InstrumentLookup) (passed : PaperPosition → Bool) (T : PaperTrades)
      (market : OptionChain), ClosesAtOwnMarks w lookup passed T market := by
  intro h
  let text : RuleText := ⟨⟨fun _ => "", fun _ => ""⟩, fun _ => "", fun _ => "", fun _ => "", fun _ => ""⟩
  let w : CollarWatch := { policy := .monthly, today := 739796, text }
  have hown := h w none (fun _ => true) openedPair crashedChain
  have hcall : (w.shortCall (w.passedPositions none (fun _ => true) openedPair)).isSome = true := by
    decide +kernel
  have hput : (w.longPut (w.passedPositions none (fun _ => true) openedPair)).map (fun p =>
      (p.avgCost, w.ownMark crashedChain p, w.putFires crashedChain p,
        openedPair.hasKey ⟨w.policy.collarStrategyName, longPutRole, p.instrumentKey, w.today, .sell⟩)) =
      some (50, some 300, true, false) := by decide +kernel
  obtain ⟨call, hcall⟩ := Option.isSome_iff_exists.mp hcall
  obtain ⟨put, hput, hspec⟩ := Option.map_eq_some_iff.mp hput
  obtain ⟨hcost, hspec⟩ := Prod.mk.inj hspec
  obtain ⟨hmark, hspec⟩ := Prod.mk.inj hspec
  obtain ⟨hfires, hfree⟩ := Prod.mk.inj hspec
  have heq := putMark_of_closes hown hcall (Or.inr ⟨put, hput, hfires⟩) hput hfree hmark
  rw [hcost] at heq
  exact absurd heq (by norm_num)

end NiftyShield.Strategy.CollarOverlay
