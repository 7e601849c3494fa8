import NiftyShield.Strategy.CspRoll
import NiftyShield.Strategy.ExitSignals
import NiftyShield.Strategy.Monitor
import NiftyShield.Strategy.RollUtils

/-!
# The cash-secured put strategy

`CSPNiftyV1` (`src/strategy/csp_nifty_v1.py`): `check_signals` looks at each short put in turn
and emits at most one ACTION event for it, and beside it a `ROLL` event when the put could be
replaced; the monitor builds an action from the payload of such an event and hands it to
`apply_action` at once. An action names a leg role; `apply_action` closes the first short put
of the list it is given.

## What is proved

* `closing_event_accepted`: the payload of an ACTION event that closes is one `apply_action`
  accepts;
* `roll_event_rejected`: that of a `ROLL` event names no leg to open and is refused;
* `auto_events_accepted_iff`: every auto-executed event of a tick is accepted if and only if no
  short put is offered a roll.

## Honest scope

The broker and the store are set, as the daemon sets them, and the BOD file `_open_new` reads
loads. A float delta is compared exactly. Messages and the re-entry check write no trade and are
left out; what a message reports as failed is in the result.
-/

namespace NiftyShield.Paper

/-- `get_trade_state`: the state of the latest sale of the leg that is not CLOSED. -/
def PaperTrades.getTradeState (T : PaperTrades) (strategyName legRole : String) : TradeState :=
  let rows := orderRows (T.rows.filter fun r =>
    r.trade.strategyName = strategyName && r.trade.legRole = legRole && r.trade.action = .sell &&
      r.trade.state ≠ .closed)
  (rows.getLast?.map (·.trade.state)).getD .open

end NiftyShield.Paper

namespace NiftyShield.Strategy.CspNiftyV1

open NiftyShield.Instruments NiftyShield.Lib NiftyShield.Lib.Raising NiftyShield.Paper

/-- `strategy_name`. -/
def strategyName : String := "paper_csp_nifty_v1"

/-- The strategy, as the monitor sees it. -/
def registered : Monitor.Registered := { strategyName, autoExecute := true }

/-- A short leg of the strategy. -/
def isShort (p : PaperPosition) : Bool := p.strategyName = strategyName && p.netQty < 0

/-! ### Reading the chain -/

/-- `_find_put_leg`: the put side of the strike in a symbolic key, or in the BOD file. -/
def findPutLeg (bod : Option InstrumentLookup) (market : OptionChain) (instrumentKey : String) : Option OptionLeg :=
  match strikeOfKey instrumentKey with
  | some (strike, _) => (market.strikes.get? strike).bind (·.pe)
  | none => do
    let inst ← (← bod).getByKey instrumentKey
    let strike ← inst.strikePrice
    (← market.strikes.get? strike).pe

/-- `_parse_expiry`. -/
def parseExpiry (instrumentKey : String) : Option Date := CspRoll.parseExpiryFromKey instrumentKey ⟨[]⟩

/-- `_find_roll_leg`. -/
def findRollLeg (market : OptionChain) : Option OptionLeg :=
  findStrikeByDelta market .pe (18 / 100, 28 / 100) (22 / 100)

/-- `_build_roll_key`. -/
def buildRollKey (expiry : Date) (strike : ℚ) : String :=
  "NSE_FO|NIFTY" ++ expiryText expiry ++ toString (truncate strike) ++ "PE"

/-- `evaluate_delta_breach_csp`; `none` is its `ValueError`. -/
def evaluateDeltaBreachCspIn (text : RuleText) (delta : Option ℚ) (state : TradeState) : Option (List ExitSignalResult) :=
  if state = .reEntryPending then none
  else if state = .open then some (evaluateDeltaBreachCsp text delta)
  else
    match delta with
    | none => some (evaluateDeltaBreachCsp text none)
    | some d =>
      if 40 / 100 ≤ |d| then
        some [{ exitSignal := "DELTA_BREACH_FINAL", severity := .action, thresholdValue := some (40 / 100)
                notes := some s!"delta {text.fixed4 d}: second breach in DEFENDED state — close and wait" }]
      else some []

/-! ### Signals -/

/-- What `check_signals` reads besides the chain and the positions. -/
structure Watch where
  /-- `market_today()`. -/
  today : Date
  /-- The BOD file. -/
  bod : Option InstrumentLookup := none
  /-- The paper ledger. -/
  trades : PaperTrades
  /-- How numbers are printed. -/
  text : RuleText

/-- `_SIGNAL_ACTION_MAP`. -/
def signalActionMap : List (String × String) :=
  [("HARD_STOP", "CLOSE_AND_WAIT"), ("DELTA_BREACH_FINAL", "CLOSE_AND_WAIT"), ("DELTA_BREACH", "ROLL_DOWN_AND_OUT"),
    ("PROFIT_TARGET", "CLOSE_AND_ROLL"), ("TIME_STOP", "CLOSE_AND_ROLL"), ("ROLL_ELIGIBLE", "CLOSE_AND_ROLL")]

/-- The action of a signal, with the default of `check_signals`. -/
def autoActionOf (signal : String) : String :=
  ((signalActionMap.find? fun e => e.1 = signal).map Prod.snd).getD "CLOSE_AND_WAIT"

section Signals

variable (w : Watch) (market : OptionChain) (pos : PaperPosition)

/-- `dte`, or the sentinel for a key without an expiry. -/
def Watch.dte : ℤ := (parseExpiry pos.instrumentKey).elim 9999 (Date.daysBetween w.today)

/-- `days_held`. -/
def Watch.daysHeld : ℤ := pos.entryDate.elim 0 fun d => Date.daysBetween d w.today

/-- The put in the chain. -/
def Watch.putLeg : Option OptionLeg := findPutLeg w.bod market pos.instrumentKey

/-- The rules of a position, most urgent first; `none` is the `ValueError` of the delta rule. -/
def Watch.results : Option (List ExitSignalResult) := do
  let quoted ←
    match w.putLeg market pos with
    | none => some []
    | some leg => do
      let breach ← evaluateDeltaBreachCspIn w.text leg.delta (w.trades.getTradeState strategyName pos.legRole)
      some (evaluateHardStopCsp w.text leg.ltp pos.avgSellPrice ++ breach ++
        evaluateProfitTargetCsp w.text leg.ltp pos.avgSellPrice)
  let timeStop := evaluateTimeStopCsp (w.daysHeld pos) ((parseExpiry pos.instrumentKey).map fun d => Date.daysBetween w.today d)
  some (sortResults (quoted ++ timeStop ++ evaluateRollEligibleCsp (w.dte pos)))

/-- `str` of an optional `Decimal`. -/
def Watch.str (q : Option ℚ) : String := (q.map w.text.decimal).getD "None"

/-- The payload that every event starts with. -/
def Watch.basePayload : Payload :=
  [("leg_role", .str pos.legRole)] ++
    (match w.putLeg market pos with
      | none => []
      | some leg =>
        [("delta", .str (w.str leg.delta)), ("ltp", .str (w.text.decimal leg.ltp)),
          ("entry_credit", .str (w.text.decimal pos.avgSellPrice))]) ++
    [("days_held", .int (w.daysHeld pos)), ("dte", .int (w.dte pos))]

/-- What an ACTION event adds. -/
def actionPayload (signal : String) : Payload :=
  [("auto_execute", .bool true), ("auto_action", .str (autoActionOf signal)), ("triggering_signal", .str signal),
    ("valid_actions", .list [.str (autoActionOf signal), .str "CLOSE_FULL"])]

/-- The event of one result. -/
def Watch.eventOf (result : ExitSignalResult) : SignalEvent where
  eventType := result.exitSignal
  severity := result.severity
  description := (result.notes.filter (· ≠ "")).getD result.exitSignal
  payload := w.basePayload market pos ++
    if result.severity = .action then actionPayload result.exitSignal
    else [("valid_actions", .list [.str "CLOSE_FULL"])]

/-- The events of the results: of the ACTION results only the first. -/
def Watch.eventsOf : Bool → List ExitSignalResult → List SignalEvent
  | _, [] => []
  | actionEmitted, result :: results =>
    if result.severity = .action then
      if actionEmitted then Watch.eventsOf actionEmitted results
      else w.eventOf market pos result :: Watch.eventsOf true results
    else w.eventOf market pos result :: Watch.eventsOf actionEmitted results

/-- `roll_condition`, of a put in the chain. -/
def Watch.rollCondition (leg : OptionLeg) : Bool :=
  21 ≤ w.daysHeld pos || leg.delta.any (fun d => 35 / 100 ≤ |d|) || leg.ltp ≤ pos.avgSellPrice * (50 / 100)

/-- The replacement that the `ROLL` meta-signal suggests, if it is emitted. -/
def Watch.rollOffer : Option OptionLeg := do
  let leg ← w.putLeg market pos
  if w.rollCondition pos leg then findRollLeg market else none

/-- The `ROLL` meta-signal. -/
def Watch.rollEvent (rollLeg : OptionLeg) : SignalEvent where
  eventType := "ROLL"
  severity := .action
  description := "ROLL: replacement strike available"
  payload :=
    [("leg_role", .str pos.legRole), ("current_instrument_key", .str pos.instrumentKey),
      ("current_dte", .int (w.dte pos)), ("suggested_instrument_key", .str (buildRollKey market.expiry rollLeg.strike)),
      ("suggested_strike", .str (w.text.decimal rollLeg.strike)), ("suggested_expiry", .str (Date.isoformat market.expiry)),
      ("suggested_delta", (rollLeg.delta.map fun d => PyValue.str (w.text.decimal d)).getD .none),
      ("suggested_mid_price", .str (w.text.decimal rollLeg.ltp)), ("auto_execute", .bool true),
      ("auto_action", .str "ROLL"), ("valid_actions", .list [.str "ROLL", .str "CLOSE_FULL"])]

/-- The events of one short put. -/
def Watch.positionEvents : Option (List SignalEvent) :=
  (w.results market pos).map fun results =>
    w.eventsOf market pos false results ++ ((w.rollOffer market pos).map (w.rollEvent market pos)).toList

end Signals

/-- The events with the positions they were emitted for; `none` if a rule raises. -/
def Watch.emissions (w : Watch) (market : OptionChain) (positions : List PaperPosition) :
    Option (List (PaperPosition × SignalEvent)) :=
  ((positions.filter isShort).mapM fun pos => (w.positionEvents market pos).map fun es => es.map fun e => (pos, e)).map
    List.flatten

/-- `check_signals`. -/
def Watch.checkSignals (w : Watch) (market : OptionChain) (positions : List PaperPosition) : Option (List SignalEvent) :=
  (w.emissions market positions).map fun es => es.map Prod.snd

/-! ### Actions -/

/-- What `apply_action` raises. -/
inductive CspError where
  /-- `CSPNiftyV1 does not accept action_type=…`. -/
  | unknownAction (actionType : String)
  /-- `ROLL action requires at least one leg in legs_to_open`. -/
  | rollWithoutLegs
  /-- pydantic's `ValidationError` for the trade rebuilt from a position. -/
  | invalidTrade
  /-- An exception of a roll that is not caught. -/
  | roll (e : CspRoll.RollError)
  deriving DecidableEq

/-- A `ValueError` of `apply_action` itself. -/
def CspError.refuses : CspError → Bool
  | .unknownAction _ | .rollWithoutLegs => true
  | _ => false

/-- What an action meets. -/
structure ActionEnv where
  /-- `market_today()`. -/
  today : Date
  /-- The broker. -/
  broker : CspRoll.Broker
  /-- The BOD file. -/
  lookup : InstrumentLookup
  /-- The store operations that fail. -/
  faults : CspRoll.StoreFaults := {}
  /-- Marking the rolled leg DEFENDED fails. -/
  markDefended : Option String := none

/-- What `apply_action` returns. -/
structure Applied where
  /-- The positions. -/
  positions : List PaperPosition
  /-- The exceptions it survived and reported in a message. -/
  failures : List CspRoll.RollError := []
  deriving DecidableEq

/-- A program over the ledger. -/
abbrev Act := EStateM CspError PaperTrades

/-- A step of a roll, whose exceptions are let through. -/
def letThrough {α : Type} (x : CspRoll.Roll α) : Act α := fun T =>
  match x T with
  | .ok a T' => .ok a T'
  | .error e T' => .error (.roll e) T'

/-- `try … except Exception`, the exception being reported. -/
def reporting (x : CspRoll.Roll Unit) : Act (List CspRoll.RollError) := fun T =>
  match x T with
  | .ok _ T' => .ok [] T'
  | .error e T' => if e.isException then .ok [e] T' else .error (.roll e) T'

/-- `_valid`. -/
def validActions : List String :=
  ["CLOSE_AND_ROLL", "ROLL_DOWN_AND_OUT", "CLOSE_AND_WAIT", "OPEN_NEW", "CLOSE_FULL", "ROLL"]

/-- The actions of the closing signals. -/
def closingActions : List String := ["CLOSE_AND_WAIT", "ROLL_DOWN_AND_OUT", "CLOSE_AND_ROLL"]

theorem validActions_of_closing {a : String} (h : a ∈ closingActions) : a ∈ validActions := by
  have hall : ∀ a ∈ closingActions, a ∈ validActions := by decide
  exact hall a h

theorem closing_ne_openNew {a : String} (h : a ∈ closingActions) : a ≠ "OPEN_NEW" := by
  have hall : ∀ a ∈ closingActions, a ≠ "OPEN_NEW" := by decide
  exact hall a h

/-- The trade rebuilt from a position. -/
def existingTrade (today : Date) (pos : PaperPosition) : Option PaperTrade :=
  PaperTrade.validate pos.strategyName pos.legRole pos.instrumentKey (pos.entryDate.getD today) .sell |pos.netQty|
    pos.avgSellPrice "" none .open

/-- `_leg_close_matches`. -/
def legCloseMatches (pos : PaperPosition) (leg : LegClose) : Bool :=
  pos.legRole = leg.legRole && leg.instrumentKey.all (pos.instrumentKey = ·)

section Apply

variable (env : ActionEnv)

/-- The arguments of a roll of the trade. -/
def ActionEnv.rollEnv (existing : PaperTrade) : CspRoll.RollEnv :=
  { broker := env.broker, lookup := env.lookup, existing, rollDate := env.today, dryRun := false, faults := env.faults }

/-- `_close_leg`, and the trade it rebuilds. -/
def closeLeg (pos : PaperPosition) : Act PaperTrade := do
  let existing ← fromOption .invalidTrade (existingTrade env.today pos)
  let _ ← letThrough (CspRoll.closeCspLeg (env.rollEnv existing))
  pure existing

/-- `_open_new`, with the strategy and the quantity of a trade. -/
def openNew (existing : PaperTrade) : Act (List CspRoll.RollError) :=
  reporting do
    let _ ← CspRoll.openNewCspLeg (env.rollEnv existing) none 0 none

/-- `_roll_down`. -/
def rollDown (pos : PaperPosition) : Act (List CspRoll.RollError) := do
  let existing ← fromOption .invalidTrade (existingTrade env.today pos)
  reporting do
    let result ← CspRoll.rollDownAndOut (env.rollEnv existing) none
    CspRoll.storeOp env.markDefended fun T =>
      (T.markTradeDefended pos.strategyName pos.legRole result.newInstrumentKey, ())

/-- One lot of the strategy, which `OPEN_NEW` sells. -/
def oneLot : PaperTrade where
  strategyName := strategyName
  legRole := "short_put"
  instrumentKey := "NSE_FO"
  tradeDate := 0
  action := .sell
  quantity := 1
  price := 1
  paperPrefix := hasPaperPrefix_csp
  legRole_ne := shortPut_ne
  instrumentKey_ne := by decide
  quantity_pos := Nat.one_pos
  price_pos := by norm_num

/-- `short_put`: the first short leg of the list. -/
def shortPut (positions : List PaperPosition) : Option PaperPosition := positions.find? isShort

/-- `apply_action`. -/
def applyAction (positions : List PaperPosition) (action : ApprovedAction) : Act Applied :=
  if action.actionType ∉ validActions then throw (.unknownAction action.actionType)
  else if action.actionType = "OPEN_NEW" then do
    let failures ← openNew env oneLot
    pure { positions, failures }
  else
    match shortPut positions with
    | none => pure { positions }
    | some pos => do
      let remaining := positions.erase pos
      if action.actionType = "CLOSE_AND_ROLL" then do
        let existing ← closeLeg env pos
        let failures ← openNew env existing
        pure { positions := remaining, failures }
      else if action.actionType = "ROLL_DOWN_AND_OUT" then do
        let failures ← rollDown env pos
        pure { positions := remaining, failures }
      else if action.actionType = "ROLL" then
        if action.legsToOpen = [] then throw .rollWithoutLegs
        else pure { positions := positions.filter fun p => !(action.legsToClose.any (legCloseMatches p)) }
      else do
        -- CLOSE_AND_WAIT and CLOSE_FULL
        let _ ← closeLeg env pos
        pure { positions := remaining }

end Apply

/-- The action is one `apply_action` does not refuse. -/
def Accepts (positions : List PaperPosition) (action : ApprovedAction) : Prop :=
  ∀ env T e T', applyAction env positions action T = .error e T' → e.refuses = false

/-- Every auto-executed event of a tick is accepted. -/
def AllAccepted (w : Watch) (market : OptionChain) (positions : List PaperPosition) : Prop :=
  ∀ events, w.checkSignals market positions = some events → ∀ e ∈ events, e.severity = .action →
    Monitor.isAutoExecuted registered e = true →
      ∃ action, Monitor.autoAction e.payload = some action ∧ Accepts positions action

/-! ### The events of a position -/

section Events

variable {w : Watch} {market : OptionChain} {pos : PaperPosition}

theorem mem_eventsOf {e : SignalEvent} : ∀ {emitted : Bool} {results : List ExitSignalResult},
    e ∈ w.eventsOf market pos emitted results → ∃ r ∈ results, e = w.eventOf market pos r
  | _, [], h => absurd h (by simp [Watch.eventsOf])
  | emitted, r :: results, h => by
    rw [Watch.eventsOf] at h
    have hrest : ∀ {b}, e ∈ w.eventsOf market pos b results → ∃ r' ∈ r :: results,
      e = w.eventOf market pos r' := by
      intro b hb
      obtain ⟨r', hr', he⟩ := mem_eventsOf hb
      exact ⟨r', List.mem_cons_of_mem _ hr', he⟩
    split at h
    · split at h
      · exact hrest h
      · rcases List.mem_cons.mp h with rfl | h
        · exact ⟨r, List.mem_cons_self, rfl⟩
        · exact hrest h
    · rcases List.mem_cons.mp h with rfl | h
      · exact ⟨r, List.mem_cons_self, rfl⟩
      · exact hrest h

/-- An event of a position is that of a result, or the roll. -/
theorem mem_positionEvents {es : List SignalEvent} (h : w.positionEvents market pos = some es) {e : SignalEvent}
    (he : e ∈ es) :
    (∃ r, e = w.eventOf market pos r) ∨ ∃ leg, w.rollOffer market pos = some leg ∧
      e = w.rollEvent market pos leg := by
  obtain ⟨results, -, rfl⟩ := Option.map_eq_some_iff.mp h
  rcases List.mem_append.mp he with he | he
  · obtain ⟨r, -, rfl⟩ := mem_eventsOf he
    exact Or.inl ⟨r, rfl⟩
  · obtain ⟨leg, hleg, rfl⟩ := Option.map_eq_some_iff.mp (Option.mem_toList.mp he)
    exact Or.inr ⟨leg, hleg, rfl⟩

theorem mem_emissions {positions : List PaperPosition} {ems : List (PaperPosition × SignalEvent)}
    (h : w.emissions market positions = some ems) {p : PaperPosition} {e : SignalEvent} :
    (p, e) ∈ ems ↔ p ∈ positions ∧ isShort p = true ∧ ∃ es, w.positionEvents market p = some es ∧ e ∈ es := by
  obtain ⟨groups, hgroups, rfl⟩ := Option.map_eq_some_iff.mp h
  have hall := mapM_eq_some_iff.mp hgroups
  rw [List.mem_flatten]
  constructor
  · rintro ⟨group, hgroup, hmem⟩
    obtain ⟨q, hq, hgroupq⟩ := forall₂_left_of_mem hall group hgroup
    obtain ⟨es, hes, rfl⟩ := Option.map_eq_some_iff.mp hgroupq
    obtain ⟨e', he', heq⟩ := List.mem_map.mp hmem
    obtain ⟨rfl, rfl⟩ := Prod.mk.inj heq
    obtain ⟨hpos, hshort⟩ := List.mem_filter.mp hq
    exact ⟨hpos, hshort, es, hes, he'⟩
  · rintro ⟨hpos, hshort, es, hes, he⟩
    obtain ⟨group, hgroup, hgroupp⟩ := forall₂_right_of_mem hall p (List.mem_filter.mpr ⟨hpos, hshort⟩)
    obtain ⟨es', hes', rfl⟩ := Option.map_eq_some_iff.mp hgroupp
    obtain rfl := Option.some.inj (hes.symm.trans hes')
    exact ⟨_, hgroup, List.mem_map.mpr ⟨e, he, rfl⟩⟩

theorem rollEvent_mem {es : List SignalEvent} (h : w.positionEvents market pos = some es) {leg : OptionLeg}
    (hoffer : w.rollOffer market pos = some leg) : w.rollEvent market pos leg ∈ es := by
  obtain ⟨results, -, rfl⟩ := Option.map_eq_some_iff.mp h
  simp [hoffer]

theorem exists_positionEvents {positions : List PaperPosition} {ems : List (PaperPosition × SignalEvent)}
    (h : w.emissions market positions = some ems) (hpos : pos ∈ positions) (hshort : isShort pos = true) :
    ∃ es, w.positionEvents market pos = some es := by
  cases hes : w.positionEvents market pos with
  | some es => exact ⟨es, rfl⟩
  | none =>
    have hnone : w.emissions market positions = none := by
      rw [Watch.emissions, Option.map_eq_none_iff, mapM_eq_none_iff]
      exact ⟨pos, List.mem_filter.mpr ⟨hpos, hshort⟩, by rw [hes, Option.map_none]⟩
    exact absurd (hnone.symm.trans h) (by simp)

/-- The delta rule raises on a leg that waits for re-entry. -/
theorem evaluateDeltaBreachCspIn_eq_none_iff (text : RuleText) (delta : Option ℚ) (state : TradeState) :
    evaluateDeltaBreachCspIn text delta state = none ↔ state = .reEntryPending := by
  unfold evaluateDeltaBreachCspIn
  by_cases hpending : state = .reEntryPending
  · simp [hpending]
  · rw [if_neg hpending]
    refine iff_of_false ?_ hpending
    split
    · simp
    · cases delta with
      | none => simp
      | some d =>
        simp only
        split <;> simp

theorem results_eq_none_iff : w.results market pos = none ↔
    (w.putLeg market pos).isSome ∧ w.trades.getTradeState strategyName pos.legRole = .reEntryPending := by
  unfold Watch.results
  cases w.putLeg market pos with
  | none => simp
  | some leg =>
    rw [← evaluateDeltaBreachCspIn_eq_none_iff w.text leg.delta]
    cases h : evaluateDeltaBreachCspIn w.text leg.delta
      (w.trades.getTradeState strategyName pos.legRole) <;> simp [h]

/-- `check_signals` raises when a short put in the chain waits for re-entry. -/
theorem checkSignals_eq_none_iff {positions : List PaperPosition} :
    w.checkSignals market positions = none ↔
      ∃ p ∈ positions, isShort p = true ∧ (w.putLeg market p).isSome ∧
        w.trades.getTradeState strategyName p.legRole = .reEntryPending := by
  rw [Watch.checkSignals, Watch.emissions, Option.map_eq_none_iff, Option.map_eq_none_iff, mapM_eq_none_iff]
  simp only [Watch.positionEvents, Option.map_eq_none_iff, results_eq_none_iff, List.mem_filter, and_assoc]

/-! ### What the monitor makes of an event -/

theorem autoActionOf_mem (signal : String) : autoActionOf signal ∈ closingActions := by
  have hmap : ∀ e ∈ signalActionMap, e.2 ∈ closingActions := by decide
  unfold autoActionOf
  cases h : signalActionMap.find? fun e => e.1 = signal with
  | none => exact List.mem_cons_self
  | some e => exact hmap e (List.mem_of_find?_eq_some h)

/-- The action of a closing event: no leg to open, and the leg role of the position to close. -/
theorem autoAction_eventOf {r : ExitSignalResult} (hr : r.severity = .action) :
    Monitor.autoAction (w.eventOf market pos r).payload =
      some
        { actionType := autoActionOf r.exitSignal
          legsToClose := [{ legRole := pos.legRole }]
          legsToOpen := []
          rationale := "auto-execute"
          councilRank := 1
          metadata := (w.eventOf market pos r).payload } := by
  have hpayload : (w.eventOf market pos r).payload =
      w.basePayload market pos ++ actionPayload r.exitSignal := by
    rw [Watch.eventOf, if_pos hr]
  rw [hpayload]
  cases hleg : w.putLeg market pos with
  | none =>
    simp [Monitor.autoAction, Monitor.payloadText, Monitor.payloadList, Watch.basePayload, hleg,
      actionPayload, PyValue.lookup]
  | some leg =>
    simp [Monitor.autoAction, Monitor.payloadText, Monitor.payloadList, Watch.basePayload, hleg,
      actionPayload, PyValue.lookup]

theorem autoAction_rollEvent {leg : OptionLeg} :
    Monitor.autoAction (w.rollEvent market pos leg).payload =
      some
        { actionType := "ROLL"
          legsToClose := [{ legRole := pos.legRole }]
          legsToOpen := []
          rationale := "auto-execute"
          councilRank := 1
          metadata := (w.rollEvent market pos leg).payload } := by
  simp [Monitor.autoAction, Monitor.payloadText, Monitor.payloadList, Watch.rollEvent, PyValue.lookup]

theorem isAutoExecuted_rollEvent {leg : OptionLeg} :
    Monitor.isAutoExecuted registered (w.rollEvent market pos leg) = true := by
  simp [Monitor.isAutoExecuted, registered, Watch.rollEvent, PyValue.lookup, PyValue.truthy]

end Events

/-! ### What `apply_action` accepts -/

/-- Errors of closing and opening are not refusals. -/
theorem closeLeg_error {env : ActionEnv} {pos : PaperPosition} {T T' : PaperTrades} {e : CspError}
    (h : closeLeg env pos T = .error e T') : e.refuses = false := by
  rcases bind_error_iff.mp h with h | ⟨existing, U, -, h⟩
  · obtain ⟨-, rfl, -⟩ := fromOption_error_iff.mp h
    rfl
  · rcases bind_error_iff.mp h with h | ⟨_, V, -, h⟩
    · unfold letThrough at h
      cases hrun : CspRoll.closeCspLeg (env.rollEnv existing) U with
      | ok t V => rw [hrun] at h; exact absurd h (by simp)
      | error e' V =>
        rw [hrun] at h
        obtain ⟨rfl, -⟩ := EStateM.Result.error.inj h
        rfl
    · exact (pure_ne_error h).elim

theorem reporting_error {x : CspRoll.Roll Unit} {T T' : PaperTrades} {e : CspError}
    (h : reporting x T = .error e T') : e.refuses = false := by
  unfold reporting at h
  cases hrun : x T with
  | ok u U => rw [hrun] at h; exact absurd h (by simp)
  | error e' U =>
    rw [hrun] at h
    simp only at h
    split at h
    · exact absurd h (by simp)
    · obtain ⟨rfl, -⟩ := EStateM.Result.error.inj h
      rfl

theorem rollDown_error {env : ActionEnv} {pos : PaperPosition} {T T' : PaperTrades} {e : CspError}
    (h : rollDown env pos T = .error e T') : e.refuses = false := by
  rcases bind_error_iff.mp h with h | ⟨existing, U, -, h⟩
  · obtain ⟨-, rfl, -⟩ := fromOption_error_iff.mp h
    rfl
  · exact reporting_error h

section Applying

variable {env : ActionEnv} {positions : List PaperPosition} {action : ApprovedAction} {pos : PaperPosition}

theorem applyAction_nothing (h : action.actionType ∈ closingActions) (hpos : shortPut positions = none) :
    applyAction env positions action = pure { positions } := by
  unfold applyAction
  rw [if_neg (not_not.mpr (validActions_of_closing h)), if_neg (closing_ne_openNew h), hpos]

theorem applyAction_closeAndRoll (h : action.actionType = "CLOSE_AND_ROLL")
    (hpos : shortPut positions = some pos) :
    applyAction env positions action = (do
      let existing ← closeLeg env pos
      let failures ← openNew env existing
      pure { positions := positions.erase pos, failures }) := by
  simp [applyAction, h, hpos, validActions]

theorem applyAction_rollDownAndOut (h : action.actionType = "ROLL_DOWN_AND_OUT")
    (hpos : shortPut positions = some pos) :
    applyAction env positions action = (do
      let failures ← rollDown env pos
      pure { positions := positions.erase pos, failures }) := by
  simp [applyAction, h, hpos, validActions]

theorem applyAction_closeAndWait (h : action.actionType = "CLOSE_AND_WAIT")
    (hpos : shortPut positions = some pos) :
    applyAction env positions action = (do
      let _ ← closeLeg env pos
      pure { positions := positions.erase pos }) := by
  simp [applyAction, h, hpos, validActions]

theorem applyAction_roll (h : action.actionType = "ROLL") (hlegs : action.legsToOpen = [])
    (hpos : shortPut positions = some pos) : applyAction env positions action = throw .rollWithoutLegs := by
  simp [applyAction, h, hlegs, hpos, validActions]

/-- **A closing action is accepted.** -/
theorem closing_accepted (h : action.actionType ∈ closingActions) : Accepts positions action := by
  intro env T e T' hrun
  cases hpos : shortPut positions with
  | none =>
    rw [applyAction_nothing h hpos] at hrun
    exact (pure_ne_error hrun).elim
  | some pos =>
    simp only [closingActions, List.mem_cons, List.not_mem_nil, or_false] at h
    rcases h with h | h | h
    · rw [applyAction_closeAndWait h hpos] at hrun
      rcases bind_error_iff.mp hrun with hclose | ⟨_, U, -, hrest⟩
      · exact closeLeg_error hclose
      · exact (pure_ne_error hrest).elim
    · rw [applyAction_rollDownAndOut h hpos] at hrun
      rcases bind_error_iff.mp hrun with hroll | ⟨_, U, -, hrest⟩
      · exact rollDown_error hroll
      · exact (pure_ne_error hrest).elim
    · rw [applyAction_closeAndRoll h hpos] at hrun
      rcases bind_error_iff.mp hrun with hclose | ⟨existing, U, -, hrest⟩
      · exact closeLeg_error hclose
      · rcases bind_error_iff.mp hrest with hopen | ⟨_, V, -, hrest⟩
        · exact reporting_error hopen
        · exact (pure_ne_error hrest).elim

/-- A roll without a leg to open is refused while there is a short put. -/
theorem roll_refused (h : action.actionType = "ROLL") (hlegs : action.legsToOpen = [])
    (hpos : shortPut positions = some pos) : ¬ Accepts positions action := by
  intro haccepts
  have hrun : ∀ env T, applyAction env positions action T = .error .rollWithoutLegs T := fun env T => by
    rw [applyAction_roll h hlegs hpos]
    rfl
  have henv : ActionEnv := ⟨0, ⟨fun _ => .error .cancelled, fun _ => .error .cancelled⟩, ⟨[]⟩, {}, none⟩
  exact Bool.noConfusion (haccepts henv PaperTrades.empty _ _ (hrun henv PaperTrades.empty))

end Applying

/-- The roll offered to a short put is refused. -/
theorem roll_not_accepted {w : Watch} {market : OptionChain} {positions : List PaperPosition}
    {ems : List (PaperPosition × SignalEvent)} (hems : w.emissions market positions = some ems)
    {p : PaperPosition}
    (hp : p ∈ positions) (hshort : isShort p = true) {rollLeg : OptionLeg}
    (hoffer : w.rollOffer market p = some rollLeg) : ¬ AllAccepted w market positions := by
  intro hall
  have hcheck : w.checkSignals market positions = some (ems.map Prod.snd) := by
    rw [Watch.checkSignals, hems, Option.map_some]
  obtain ⟨es, hes⟩ := exists_positionEvents hems hp hshort
  have hmem : (p, w.rollEvent market p rollLeg) ∈ ems :=
    (mem_emissions hems).mpr ⟨hp, hshort, es, hes, rollEvent_mem hes hoffer⟩
  obtain ⟨action, haction, haccepts⟩ := hall _ hcheck _ (List.mem_map_of_mem hmem) rfl isAutoExecuted_rollEvent
  rw [autoAction_rollEvent] at haction
  obtain rfl := Option.some.inj haction
  obtain ⟨pos, hpos⟩ := Option.isSome_iff_exists.mp (List.find?_isSome.mpr ⟨p, hp, hshort⟩)
  exact roll_refused rfl rfl hpos haccepts

/-- **Every auto-executed event is accepted** if and only if the check raises, or no short put is
offered a roll: a put in the chain that meets a roll condition while the chain has a replacement. -/
theorem auto_events_accepted_iff (w : Watch) (market : OptionChain) (positions : List PaperPosition) :
    AllAccepted w market positions ↔
      (∃ p ∈ positions, isShort p = true ∧ (w.putLeg market p).isSome ∧
        w.trades.getTradeState strategyName p.legRole = .reEntryPending) ∨
      ∀ p ∈ positions, isShort p = true → ∀ leg, w.putLeg market p = some leg → w.rollCondition p leg = true →
        findRollLeg market = none := by
  rw [← checkSignals_eq_none_iff]
  cases hems : w.emissions market positions with
  | none =>
    have hcheck : w.checkSignals market positions = none := by rw [Watch.checkSignals, hems, Option.map_none]
    refine iff_of_true (fun events hevents => ?_) (Or.inl hcheck)
    rw [hcheck] at hevents
    exact absurd hevents (by simp)
  | some ems =>
    have hcheck : w.checkSignals market positions = some (ems.map Prod.snd) := by
      rw [Watch.checkSignals, hems, Option.map_some]
    rw [or_iff_right (by simp [hcheck])]
    constructor
    · intro hall p hp hshort leg hleg hcond
      cases hroll : findRollLeg market with
      | none => rfl
      | some rollLeg =>
        have hoffer : w.rollOffer market p = some rollLeg := by simp [Watch.rollOffer, hleg, hcond, hroll]
        exact absurd hall (roll_not_accepted hems hp hshort hoffer)
    · intro hnone events hevents e he haction hauto
      rw [hcheck] at hevents
      obtain rfl := Option.some.inj hevents
      obtain ⟨⟨p, e'⟩, hmem, rfl⟩ := List.mem_map.mp he
      obtain ⟨hp, hshort, es, hes, he'⟩ := (mem_emissions hems).mp hmem
      rcases mem_positionEvents hes he' with ⟨r, rfl⟩ | ⟨rollLeg, hoffer, rfl⟩
      · exact ⟨_, autoAction_eventOf haction, closing_accepted (autoActionOf_mem r.exitSignal)⟩
      · obtain ⟨leg, hleg, hif⟩ := Option.bind_eq_some_iff.mp hoffer
        split at hif
        next hcond => exact absurd (hif.symm.trans (hnone p hp hshort leg hleg hcond)) (by simp)
        next => exact absurd hif (by simp)

/-! ### A put held for three weeks -/

/-- Numbers printed without their decimals. -/
def wholeText : RuleText where
  decimal q := toString (truncate q)
  fixed3 q := toString (truncate q)
  float q := toString (truncate q)
  fixed2 q := toString (truncate q)
  fixed4 q := toString (truncate q)
  percent q := toString (truncate (q * 100)) ++ "%"

/-- 65 units of a put sold at 120. -/
def heldPut : PaperPosition where
  strategyName := strategyName
  legRole := "short_put"
  netQty := -65
  avgCost := 0
  avgSellPrice := 120
  instrumentKey := "NSE_FO|NIFTY23000PE"
  entryDate := some 739766
  optionType := some .pe

/-- The put is still quoted at 110, with a delta of −0.22. -/
def quietChain : OptionChain where
  underlyingSpot := 24000
  expiry := 739797
  strikes := Dict.empty.set 23000
    { pe := some { ltp := 110, bid := 109, ask := 111, delta := some (-22 / 100), strike := 23000 } }

/-- The put that has been held for 25 days is offered a roll, and `apply_action` refuses it. -/
theorem heldPut_roll_refused :
    ¬ ∀ (w : Watch) (market : OptionChain) (positions : List PaperPosition), AllAccepted w market positions := by
  intro h
  let w : Watch := { today := 739791, trades := PaperTrades.empty, text := wholeText }
  have hoffer : w.rollOffer quietChain heldPut = some
      { ltp := 110, bid := 109, ask := 111, delta := some (-22 / 100), strike := 23000 } := by decide +kernel
  have hems : (w.emissions quietChain [heldPut]).isSome = true := by decide +kernel
  obtain ⟨ems, hems⟩ := Option.isSome_iff_exists.mp hems
  exact roll_not_accepted hems List.mem_cons_self (by decide) hoffer (h w quietChain [heldPut])

end NiftyShield.Strategy.CspNiftyV1
