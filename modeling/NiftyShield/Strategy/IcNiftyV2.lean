import NiftyShield.Strategy.PriceUtils
import NiftyShield.Strategy.ProfitLockEngine

/-!
# The signals of the Iron Condor V2

`IronCondorV2.check_signals` (`src/strategy/ic_nifty_v2.py`): a ladder of conditions on the
open legs, of which the first that holds answers. Expiry, extreme delta, an exhausted roll
budget and the profit target come first, then the profit-lock zones, then the rolls; the
monitor executes the ACTION events at once (`approvedAction`).

The roll budget is counted in the memory of the strategy object, and the profit-lock state
is a row of the store.

## What is proved

* `checkSignals_ok`: what a call can answer and what it changes. It answers nothing or one
  event; the counters move only where it answers `ROLL_WING`, and the lock is never set;
* `exhausted_of_mem`, `zone2_skipped`: the budget is reported exhausted only with a full
  counter, and the Zone 2 lock is passed over only with the flag set.

## Honest scope

Log lines, descriptions and the counterfactual exit rows are left out; of a payload the
entries are kept that the monitor and `apply_action` read, and the note of a leg is kept
without the delta it quotes. The BOD file is read once for a call, apart from the copy
`BodLookupCache` holds. VIX and IVR are any values. The broker and the store are injected
together or not at all.
-/

namespace NiftyShield.Strategy.IronCondor

open NiftyShield.Instruments NiftyShield.Lib NiftyShield.Lib.Raising NiftyShield.Paper

/-! ### The strategy object -/

/-- `IronCondorV2ExpiryConfig`. -/
structure IronCondorV2ExpiryConfig where
  /-- Expiry bucket. -/
  expiryType : ExpiryType := .monthly
  /-- Delta wanted of the short put. -/
  shortPutDeltaTarget : ℚ := 25 / 100
  /-- Delta wanted of the short call. -/
  shortCallDeltaTarget : ℚ := 22 / 100
  /-- Tolerance of both. -/
  deltaRange : ℚ := 3 / 100
  /-- Delta wanted of a wing. -/
  longWingDeltaTarget : ℚ := 10 / 100
  /-- Least delta of a wing. -/
  longWingDeltaFloor : ℚ := 5 / 100
  /-- Least mid price of a wing. -/
  longWingMinPremium : ℚ := 15
  /-- Delta of a short at which its side is rolled. -/
  rollTriggerDelta : ℚ := 35 / 100
  /-- Delta at which to warn. -/
  rollWarnDelta : ℚ := 30 / 100
  /-- Delta at which all is closed. -/
  forcedCloseDelta : ℚ := 45 / 100
  /-- Greatest debit of a roll, as a fraction of the credit. -/
  rollDebitCapFraction : ℚ := 50 / 100
  /-- Rolls of a side in one cycle. -/
  maxRollsPerSidePerCycle : ℕ := 1
  /-- Days to expiry at which all is closed. -/
  monthlyCloseFullDte : ℤ := 7
  /-- The profit-lock thresholds. -/
  profitLock : ProfitLockConfig := {}

/-- `IronCondorV2`, apart from its roll counters. -/
structure IronCondorV2 where
  /-- Configuration. -/
  config : IronCondorV2ExpiryConfig := {}
  /-- A broker and a store are injected. -/
  wired : Bool := true
  /-- `_original_ic_credit`. -/
  originalIcCredit : ℚ := 0

/-- `IronCondorV2` with `IC_V2_MONTHLY`. -/
def monthlyV2 : IronCondorV2 := {}

/-- Its name and wiring, as `apply_action` uses them. -/
def IronCondorV2.condor (ic : IronCondorV2) : Condor where
  strategyName := "paper_ic_nifty_v2_" ++ ic.config.expiryType.value
  wired := ic.wired

/-- `strategy_name`. -/
abbrev IronCondorV2.strategyName (ic : IronCondorV2) : String := ic.condor.strategyName

/-- What a call of `check_signals` works on. -/
structure V2State where
  /-- The store. -/
  store : IcStore
  /-- `_rolls_executed`. -/
  rollsExecuted : Side → ℕ := fun _ => 0

/-- `_rolls_executed[side] += 1`. -/
def V2State.countRoll (st : V2State) (side : Side) : V2State :=
  { st with rollsExecuted := fun s => if s = side then st.rollsExecuted s + 1 else st.rollsExecuted s }

theorem V2State.rollsExecuted_countRoll (st : V2State) (side s : Side) :
    (st.countRoll side).rollsExecuted s = if s = side then st.rollsExecuted s + 1
      else st.rollsExecuted s := rfl

/-- The Zone 1 milestone, in the store. -/
def V2State.noteZone1 (st : V2State) (strategyName : String) : V2State :=
  let plState := st.store.getProfitLockState strategyName
  { st with store := st.store.setProfitLockState strategyName { plState with profitLockZone := 1 } }

/-- A program over the store and the counters. -/
abbrev V2Program := EStateM IcError V2State

/-- What a call reads besides the store. -/
structure SignalEnv where
  /-- The chain of the positions' expiry. -/
  market : OptionChain
  /-- The BOD file, `none` if it does not load. -/
  bod : Option InstrumentLookup
  /-- What `BodLookupCache` holds of it. -/
  cachedBod : Option InstrumentLookup
  /-- `market_today()`. -/
  today : Date
  /-- `_load_vix_ivr()`. -/
  vixIvr : Option ℚ × Option ℚ := (none, none)
  /-- `get_original_entry_credit` raises. -/
  entryCreditFails : Bool := false
  /-- It raises during the wing search. -/
  wingCreditFails : Bool := false
  /-- `get_profit_lock_state` raises. -/
  lockReadFails : Bool := false
  /-- `set_profit_lock_state` raises. -/
  lockWriteFails : Bool := false

/-! ### Events -/

/-- A `SignalEvent` of the strategy. -/
structure IcSignal where
  /-- e.g. `FORCED_CLOSE`. -/
  eventType : String
  /-- How it is routed. -/
  severity : Severity
  /-- The side it is about. -/
  side : Option Side := none
  /-- `reason`, or `block_reason`. -/
  reason : Option String := none
  /-- `auto_action`; `auto_execute` is set exactly with it. -/
  autoAction : Option String := none
  /-- `legs_to_close`. -/
  legsToClose : List LegClose := []
  /-- `legs_to_open`. -/
  legsToOpen : List LegSpec := []
  /-- The entries `apply_action` reads. -/
  metadata : IcMetadata := {}

/-- An event that closes the condor. -/
def closeFullSignal (eventType : String) (side : Option Side) (reason : Option String) : IcSignal where
  eventType := eventType
  severity := .action
  side := side
  reason := reason
  autoAction := some "CLOSE_FULL"

/-- The action the monitor builds of an auto-executed event. -/
def IcSignal.approvedAction (e : IcSignal) : IcAction where
  actionType := e.autoAction.getD "CLOSE_AND_WAIT"
  legsToClose := if e.legsToClose = [] then [⟨"short_put", none⟩] else e.legsToClose
  legsToOpen := e.legsToOpen
  rationale := "auto-execute"
  metadata := e.metadata

/-- `"PE"` or `"CE"`. -/
def Side.typeText : Side → String
  | .put => "PE"
  | .call => "CE"

/-! ### Legs and strikes -/

/-- `next((p for p in positions if p.leg_role == …), None)`. -/
def firstOf (positions : List PaperPosition) (legRole : String) : Option PaperPosition :=
  positions.find? fun p => p.legRole = legRole

/-- `_find_leg_via_bod`. -/
def SignalEnv.findLegViaBod (env : SignalEnv) (instrumentKey : String) : Option OptionLeg := do
  let inst ← env.bod.bind (·.getByKey instrumentKey)
  let strike ← inst.strikePrice
  let optionType ←
    match inst.instrumentType with
    | some "CE" => some OptionType.ce
    | some "PE" => some OptionType.pe
    | _ => none
  let strikeData ← env.market.strikes.get? strike
  strikeData.side optionType

/-- `_find_leg`: a symbolic key is read, any other looked up. -/
def SignalEnv.findLeg (env : SignalEnv) (instrumentKey : String) : Option OptionLeg :=
  match strikeOfKey instrumentKey with
  | some _ => resolveFromRegex instrumentKey env.market
  | none => env.findLegViaBod instrumentKey

/-- `_position_strike`. -/
def SignalEnv.positionStrike (env : SignalEnv) (pos : PaperPosition) : Option ℚ :=
  match strikeOfKey pos.instrumentKey with
  | some (strike, _) => some strike
  | none => (env.bod.bind (·.getByKey pos.instrumentKey)).bind (·.strikePrice)

/-- `_get_short_delta`. -/
def SignalEnv.shortDelta (env : SignalEnv) (pos : Option PaperPosition) : Option ℚ :=
  (pos.bind fun p => env.findLeg p.instrumentKey).bind (·.delta)

/-- `_resolve_instrument_key`. -/
def SignalEnv.resolveInstrumentKey (env : SignalEnv) (strike : ℚ) (optionType : String)
    (expiry : Date) : Option String :=
  (env.bod.bind fun lookup => (lookup.searchOptions "NIFTY" (some strike) (some optionType)
    (some expiry) 20).head?).map
    (·.instrumentKey)

/-- The expiry of the first position that resolves. -/
def SignalEnv.expiryOf (env : SignalEnv) (positions : List PaperPosition) : Option Date :=
  positions.findSome? fun p => resolveOptionExpiry p.instrumentKey env.cachedBod

/-- `_compute_combined_pnl`: the mark, if every leg has one, and the entry credit. -/
def SignalEnv.combinedPnl (env : SignalEnv) (positions : List PaperPosition) : Option ℚ × ℚ :=
  let shorts := positions.filter fun p => p.legRole ∈ ["short_call", "short_put"]
  let longs := positions.filter fun p => p.legRole ∈ ["long_call_hedge", "long_put_hedge"]
  let marks := fun ps : List PaperPosition =>
    (ps.mapM fun p => (env.findLeg p.instrumentKey).map (·.ltp)).map List.sum
  (do some ((← marks shorts) - (← marks longs)),
    (shorts.map (·.avgSellPrice)).sum - (longs.map (·.avgCost)).sum)

/-! ### The upper ladder -/

/-- The sides, in the order they are looked at. -/
def sides : List Side := [.put, .call]

/-- Priority 1, `_evaluate_dte_action`. -/
def IronCondorV2.dteSignal (ic : IronCondorV2) (dte : ℤ) : Option IcSignal :=
  if dte ≤ 1 then some (closeFullSignal "FORCED_CLOSE" none (some "dte_force_close"))
  else if dte ≤ ic.config.monthlyCloseFullDte
    then some (closeFullSignal "FORCED_CLOSE" none (some "dte_close_full"))
  else none

/-- Priorities 2 and 3, for one side. -/
def IronCondorV2.hardDelta (ic : IronCondorV2) (env : SignalEnv) (st : V2State)
    (positions : List PaperPosition)
    (side : Side) : Option IcSignal :=
  (env.shortDelta (firstOf positions side.shortRole)).bind fun delta =>
    if ic.config.forcedCloseDelta ≤ |delta| then
      some (closeFullSignal "FORCED_CLOSE" (some side) (some "extreme_delta"))
    else if ic.config.rollTriggerDelta ≤ |delta| ∧
      ic.config.maxRollsPerSidePerCycle ≤ st.rollsExecuted side then
      some (closeFullSignal "FORCED_CLOSE" (some side) (some "rolls_exhausted"))
    else none

/-- `_PROFIT_TARGET_RETENTION`. -/
def profitTargetRetention : ℚ := 30 / 100

/-- The mark and the credit that the captured fraction is taken from. -/
def IronCondorV2.pnl (ic : IronCondorV2) (env : SignalEnv) (st : V2State)
    (positions : List PaperPosition) : Option ℚ × ℚ :=
  let (combinedMark, entryCredit) := env.combinedPnl positions
  let original := if ic.wired ∧ env.entryCreditFails = false
    then st.store.entryCredits.get? ic.strategyName else none
  (combinedMark, original.getD entryCredit)

/-- What the ladder knows below the profit target. -/
structure LadderContext where
  /-- The open legs. -/
  positions : List PaperPosition
  /-- Their expiry. -/
  expiry : Date
  /-- Days to it. -/
  dte : ℤ
  /-- Entry credit. -/
  entryCredit : ℚ
  /-- Captured fraction, where there is a mark and the credit is positive. -/
  capturedFraction : Option ℚ

/-- The state of the ladder after the profit target. -/
inductive Ladder where
  /-- The call has its answer. -/
  | answered (events : List IcSignal)
  /-- It goes on. -/
  | undecided (c : LadderContext)

/-- Priorities 1 to 4. -/
def IronCondorV2.upperLadder (ic : IronCondorV2) (env : SignalEnv) (st : V2State)
    (positions : List PaperPosition) : Ladder :=
  let ps := icPositions ic.condor positions
  match env.expiryOf ps with
  | none => .answered []
  | some expiry =>
    let dte := Date.daysBetween env.today expiry
    match ic.dteSignal dte with
    | some e => .answered [e]
    | none =>
      match sides.findSome? (ic.hardDelta env st ps) with
      | some e => .answered [e]
      | none =>
        match ic.pnl env st ps with
        | (none, entryCredit) => .undecided ⟨ps, expiry, dte, entryCredit, none⟩
        | (some mark, entryCredit) =>
          if 0 < entryCredit then
            if mark ≤ profitTargetRetention * entryCredit
              then .answered [closeFullSignal "CLOSE_FULL" none none]
            else .undecided ⟨ps, expiry, dte, entryCredit, some ((entryCredit - mark) / entryCredit)⟩
          else .undecided ⟨ps, expiry, dte, entryCredit, none⟩

/-! ### Profit lock -/

/-- What the engine is given. -/
def LadderContext.lockInputs (c : LadderContext) (ic : IronCondorV2) (env : SignalEnv)
    (plState : ProfitLockState)
    (capturedFraction shortPutStrike shortCallStrike : ℚ) : ProfitLockInputs where
  capturedFraction := capturedFraction
  entryCreditPts := c.entryCredit
  dte := c.dte
  expiryType := ic.config.expiryType
  vixIvr := env.vixIvr
  state := plState
  chain := env.market
  shortPutStrike := shortPutStrike
  shortCallStrike := shortCallStrike
  oldLongPut := (firstOf c.positions Side.put.longRole).bind fun p => env.findLeg p.instrumentKey
  oldLongCall := (firstOf c.positions Side.call.longRole).bind fun p => env.findLeg p.instrumentKey

/-- The leg that opens a new wing, if its key resolves to a text that is not empty. -/
def SignalEnv.newWingLeg (env : SignalEnv) (side : Side) (wing : OptionLeg) (expiry : Date) :
    List LegSpec :=
  match env.resolveInstrumentKey wing.strike side.typeText expiry with
  | some key =>
    if key = "" then []
    else
      [{ instrumentKey := key, action := "BUY", quantity := 1, legRole := side.longRole,
         notes := match side with
           | .put => "profit_lock_zone2_open_put"
           | .call => "profit_lock_zone2_open_call",
         price := some wing.ltp }]
  | none => []

/-- The Zone 2 event. -/
def zone2Signal (env : SignalEnv) (c : LadderContext) (plState : ProfitLockState)
    (shortPutStrike shortCallStrike : ℚ)
    (newPutWing newCallWing : OptionLeg) (netDebitPts : ℚ) : IcSignal where
  eventType := "PROFIT_LOCK_ZONE2"
  severity := .action
  autoAction := some "PROFIT_LOCK_ZONE2"
  legsToOpen := env.newWingLeg .put newPutWing c.expiry ++ env.newWingLeg .call newCallWing c.expiry
  metadata :=
    { newProfitLockZone := 2
      cumulativeLockDebitPts := plState.cumulativeLockDebitPts + netDebitPts
      newPutWidthPts := truncate (shortPutStrike - newPutWing.strike)
      newCallWidthPts := truncate (newCallWing.strike - shortCallStrike)
      cycleId := plState.cycleId }

/-- Priority 5 with the lock not executed. -/
def IronCondorV2.zone2 (ic : IronCondorV2) (env : SignalEnv) (c : LadderContext) (plState : ProfitLockState)
    (capturedFraction : ℚ) : List IcSignal :=
  match (firstOf c.positions Side.put.shortRole).bind env.positionStrike,
    (firstOf c.positions Side.call.shortRole).bind env.positionStrike with
  | some putStrike, some callStrike =>
    match ic.config.profitLock.evaluate (c.lockInputs ic env plState capturedFraction putStrike
      callStrike) with
    | .zone2Lock newPut newCall netDebit =>
        [zone2Signal env c plState putStrike callStrike newPut newCall netDebit]
    | .closeFull skipReason => [closeFullSignal "FORCED_CLOSE" none
        (some ("profit_lock_close_full:" ++ skipReason))]
    | _ => []
  | _, _ => []

/-- The Zone 1 milestone. -/
def zone1Signal : IcSignal where
  eventType := "PROFIT_LOCK_ZONE1"
  severity := .info

/-- `_check_profit_lock`. -/
def IronCondorV2.checkProfitLock (ic : IronCondorV2) (env : SignalEnv) (c : LadderContext)
    (capturedFraction : ℚ) :
    V2Program (List IcSignal) :=
  if env.lockReadFails then throw .database
  else do
    let plState ← reads fun st => st.store.getProfitLockState ic.strategyName
    if ic.config.profitLock.zone2Trigger ≤ capturedFraction then
      if plState.zone2LockExecuted then pure [] else pure (ic.zone2 env c plState capturedFraction)
    else if ic.config.profitLock.zone1Trigger ≤ capturedFraction ∧ plState.profitLockZone < 1 then
      if env.lockWriteFails then throw .database
      else updates fun st => (st.noteZone1 ic.strategyName, [zone1Signal])
    else pure []

/-! ### Rolls -/

/-- `RollResult`, by its signal type. -/
inductive RollResult where
  /-- `DELTA_WARN`. -/
  | deltaWarn (side : Side)
  /-- `ROLL_WING`, with the legs of the roll. -/
  | rollWing (side : Side) (legs : List LegSpec)
  /-- `DELTA_STOP`, with the guard that blocked the roll. -/
  | deltaStop (side : Side) (blockReason : String)
  /-- `FORCED_CLOSE`. -/
  | forcedClose (side : Side) (blockReason : Option String)

/-- `_mid_price`. -/
def midPrice (leg : OptionLeg) : ℚ := if 0 < leg.bid ∧ 0 < leg.ask then (leg.bid + leg.ask) / 2 else leg.ltp

/-- `_spread_pct`. -/
def spreadPct (leg : OptionLeg) : ℚ :=
  if leg.bid ≤ 0 ∨ leg.ask ≤ 0 then 1 else (leg.ask - leg.bid) / ((leg.bid + leg.ask) / 2)

/-- `_select_long_wing`. -/
def IronCondorV2.selectLongWing (ic : IronCondorV2) (env : SignalEnv) (side : Side) : Option OptionLeg :=
  (findStrikeByDelta env.market side.optionType (ic.config.longWingDeltaFloor, 20 / 100)
    ic.config.longWingDeltaTarget).filter fun leg =>
      ic.config.longWingMinPremium ≤ midPrice leg ∧ spreadPct leg ≤ 5 / 100

/-- The width of a side, `0` where a leg or a strike is missing. -/
def SignalEnv.widthOf (env : SignalEnv) (positions : List PaperPosition) (side : Side) : ℚ :=
  match (firstOf positions side.shortRole).bind env.positionStrike,
    (firstOf positions side.longRole).bind env.positionStrike with
  | some shortStrike, some longStrike => |shortStrike - longStrike|
  | _, _ => 0

/-- `_search_narrower_wing_candidate`. -/
def IronCondorV2.searchNarrowerWing (ic : IronCondorV2) (env : SignalEnv) (st : V2State)
    (positions : List PaperPosition)
    (side : Side) (oldLongStrike newShortStrike : ℚ) : Option OptionLeg :=
  let persisted := if ic.wired ∧ env.wingCreditFails = false
    then st.store.entryCredits.get? ic.strategyName else none
  searchNarrowWingReplacement env.market side.optionType newShortStrike oldLongStrike
    (env.widthOf positions side.opposite)
    0 0 ic.config.profitLock.costBufferPts
      (persisted.getD ic.originalIcCredit) ic.config.profitLock.floorBudgetZone2
    ic.config.profitLock.zone2LongWingMinPremium

/-- Delta wanted of the replacement short of a side. -/
def IronCondorV2ExpiryConfig.shortDeltaTarget (cfg : IronCondorV2ExpiryConfig) : Side → ℚ
  | .put => cfg.shortPutDeltaTarget
  | .call => cfg.shortCallDeltaTarget

/-- A guard of a roll, by the name it blocks under. -/
def ensure (ok : Bool) (guardName : String) : Except String Unit := if ok then .ok () else .error guardName

/-- A guard that something exists. -/
def required {α : Type} (o : Option α) (guardName : String) : Except String α :=
  o.elim (.error guardName) .ok

/-- The new short stays on its side of the other short. -/
def notInverted (side : Side) (newShortStrike : ℚ) : Option ℚ → Bool
  | none => true
  | some oppositeShortStrike =>
    match side with
    | .put => newShortStrike < oppositeShortStrike
    | .call => oppositeShortStrike < newShortStrike

/-- `_execute_partial_roll`: the four legs, or the name of the guard that failed. -/
def IronCondorV2.executePartialRoll (ic : IronCondorV2) (env : SignalEnv) (st : V2State)
    (c : LadderContext) (side : Side) :
    Except String (List LegSpec) := do
  let cfg := ic.config
  let oldShort ← required (firstOf c.positions side.shortRole) "no_short_candidate"
  let oldLong ← required (firstOf c.positions side.longRole) "no_short_candidate"
  let oldShortStrike ← required (env.positionStrike oldShort) "no_short_candidate"
  let oldLongStrike ← required (env.positionStrike oldLong) "no_short_candidate"
  ensure (cfg.monthlyCloseFullDte < c.dte) "dte_cutoff"
  ensure (st.rollsExecuted side < cfg.maxRollsPerSidePerCycle) "max_rolls_exhausted"
  let newShort ← required (findStrikeByDelta env.market side.optionType
    (cfg.shortDeltaTarget side - cfg.deltaRange, cfg.shortDeltaTarget side + cfg.deltaRange)
      (cfg.shortDeltaTarget side))
    "no_short_candidate"
  let newLong ← required ((ic.selectLongWing env side).orElse fun _ =>
    ic.searchNarrowerWing env st c.positions side oldLongStrike newShort.strike) "wing_search_exhausted"
  ensure (|newShort.strike - newLong.strike| ≤ |oldShortStrike - oldLongStrike|) "width_expansion"
  let oldShortLeg ← required (env.findLeg oldShort.instrumentKey) "chain_data_missing"
  let oldLongLeg ← required (env.findLeg oldLong.instrumentKey) "chain_data_missing"
  let rollDebit := (oldShortLeg.ltp - oldLongLeg.ltp) - (newShort.ltp - newLong.ltp)
  ensure (ic.originalIcCredit ≤ 0 || rollDebit ≤ cfg.rollDebitCapFraction * ic.originalIcCredit) "debit_cap"
  ensure (notInverted side newShort.strike
    ((firstOf c.positions side.opposite.shortRole).bind env.positionStrike))
    "inverted_condor"
  let newShortKey ← required (env.resolveInstrumentKey newShort.strike side.typeText c.expiry)
    "bod_key_unresolved"
  let newLongKey ← required (env.resolveInstrumentKey newLong.strike side.typeText c.expiry)
    "bod_key_unresolved"
  pure
    [{ instrumentKey := oldShort.instrumentKey, action := "BUY", quantity := 1, legRole := side.shortRole,
       notes := "roll_close_short", price := some oldShortLeg.ltp },
     { instrumentKey := oldLong.instrumentKey, action := "SELL", quantity := 1, legRole := side.longRole,
       notes := "roll_close_long", price := some oldLongLeg.ltp },
     { instrumentKey := newShortKey, action := "SELL", quantity := 1, legRole := side.shortRole,
       notes := "roll_open_short", price := some newShort.ltp },
     { instrumentKey := newLongKey, action := "BUY", quantity := 1, legRole := side.longRole,
       notes := "roll_open_long", price := some newLong.ltp }]

/-- The first side whose short has at least this delta. -/
def SignalEnv.breachedSide (env : SignalEnv) (positions : List PaperPosition) (threshold : ℚ) :
    Option Side :=
  sides.find? fun side => (env.shortDelta (firstOf positions side.shortRole)).any fun delta =>
    threshold ≤ |delta|

/-- `_evaluate_adjustment`. -/
def IronCondorV2.evaluateAdjustment (ic : IronCondorV2) (env : SignalEnv) (st : V2State)
    (c : LadderContext) : Option RollResult :=
  match env.breachedSide c.positions ic.config.forcedCloseDelta with
  | some side => some (.forcedClose side none)
  | none =>
    match env.breachedSide c.positions ic.config.rollTriggerDelta with
    | some side =>
      if ic.config.maxRollsPerSidePerCycle ≤ st.rollsExecuted side then
        some (.forcedClose side (some "max_rolls_exhausted"))
      else
        match ic.executePartialRoll env st c side with
        | .ok legs => some (.rollWing side legs)
        | .error blockReason => some (.deltaStop side blockReason)
    | none => (env.breachedSide c.positions ic.config.rollWarnDelta).map .deltaWarn

/-- What the counters do. -/
def RollResult.count : RollResult → V2State → V2State
  | .rollWing side _, st => st.countRoll side
  | _, st => st

/-- `_roll_result_to_signal`. The DTE action is `NORMAL` here, so a blocked roll is always
a `DELTA_STOP`. -/
def RollResult.toSignal : RollResult → IcSignal
  | .deltaWarn side => { eventType := "DELTA_WARN", severity := .warn, side := some side }
  | .rollWing side legs =>
    { eventType := "ROLL_WING"
      severity := .action
      side := some side
      autoAction := some "ROLL_WING"
      legsToOpen := legs.filter fun leg => "roll_open_".toList <+: leg.notes.toList
      legsToClose := (legs.filter fun leg => "roll_close_".toList <+: leg.notes.toList).map fun leg =>
        ⟨leg.legRole, some leg.instrumentKey⟩ }
  | .deltaStop side blockReason => closeFullSignal "DELTA_STOP" (some side) (some blockReason)
  | .forcedClose side blockReason => closeFullSignal "FORCED_CLOSE" (some side)
      (some (blockReason.getD "extreme_delta"))

/-! ### The call -/

/-- Priorities 7 and 8. -/
def IronCondorV2.softDelta (ic : IronCondorV2) (env : SignalEnv) (c : LadderContext) :
    V2Program (List IcSignal) := do
  let result ← reads fun st => ic.evaluateAdjustment env st c
  match result with
  | none => pure []
  | some r => updates fun st => (r.count st, [r.toSignal])

/-- Priorities 5 and 6, where there is a captured fraction and a store. -/
def IronCondorV2.lockSignals (ic : IronCondorV2) (env : SignalEnv) (c : LadderContext) :
    V2Program (List IcSignal) :=
  match c.capturedFraction with
  | some captured => if ic.wired then ic.checkProfitLock env c captured else pure []
  | none => pure []

/-- `check_signals`. -/
def IronCondorV2.checkSignals (ic : IronCondorV2) (env : SignalEnv) (positions : List PaperPosition) :
    V2Program (List IcSignal) := do
  let ladder ← reads fun st => ic.upperLadder env st positions
  match ladder with
  | .answered events => pure events
  | .undecided c => do
    let locked ← ic.lockSignals env c
    if locked = [] then ic.softDelta env c else pure locked

/-! ### What a call answers -/

/-- The event closes the condor because the rolls of a side are used up. -/
def IcSignal.ExhaustedOn (e : IcSignal) (side : Side) : Prop :=
  e.eventType = "FORCED_CLOSE" ∧ e.side = some side ∧
    (e.reason = some "rolls_exhausted" ∨ e.reason = some "max_rolls_exhausted")

instance (e : IcSignal) (side : Side) : Decidable (e.ExhaustedOn side) :=
  inferInstanceAs (Decidable (_ ∧ _ ∧ _))

/-- The call comes to the Zone 2 lock and passes it over because it is executed. -/
def IronCondorV2.SkipsExecutedLock (ic : IronCondorV2) (env : SignalEnv)
    (positions : List PaperPosition) (st : V2State) : Prop :=
  ∃ c captured, ic.upperLadder env st positions = .undecided c ∧
    c.capturedFraction = some captured ∧ ic.wired = true ∧
    env.lockReadFails = false ∧ ic.config.profitLock.zone2Trigger ≤ captured ∧
    (st.store.getProfitLockState ic.strategyName).zone2LockExecuted = true

/-- What a call can answer, and the state it leaves. -/
inductive Reply (ic : IronCondorV2) (st : V2State) : List IcSignal → V2State → Prop where
  /-- Nothing. -/
  | nothing : Reply ic st [] st
  /-- The condor is closed; for used-up rolls only with a full counter. -/
  | close (eventType : String) (side : Option Side) (reason : Option String)
      (budget : ∀ s, (closeFullSignal eventType side reason).ExhaustedOn s →
        ic.config.maxRollsPerSidePerCycle ≤ st.rollsExecuted s) :
      Reply ic st [closeFullSignal eventType side reason] st
  /-- The wings are rolled inwards. -/
  | lock (env : SignalEnv) (c : LadderContext) (putStrike callStrike : ℚ)
      (newPut newCall : OptionLeg) (netDebit : ℚ) :
      Reply ic st [zone2Signal env c (st.store.getProfitLockState ic.strategyName) putStrike
        callStrike newPut newCall
        netDebit] st
  /-- The Zone 1 milestone is noted. -/
  | milestone : Reply ic st [zone1Signal] (st.noteZone1 ic.strategyName)
  /-- A side is rolled, and counted. -/
  | roll (env : SignalEnv) (c : LadderContext) (side : Side) (legs : List LegSpec)
      (built : ic.executePartialRoll env st c side = .ok legs) :
      Reply ic st [(RollResult.rollWing side legs).toSignal] (st.countRoll side)
  /-- A delta is reported. -/
  | warn (side : Side) : Reply ic st [(RollResult.deltaWarn side).toSignal] st

variable {ic : IronCondorV2} {env : SignalEnv} {st st' : V2State} {positions : List PaperPosition}
  {events : List IcSignal}

private theorem close_of_reason {eventType reason : String} {side : Option Side}
    (h : reason ≠ "rolls_exhausted")
    (h' : reason ≠ "max_rolls_exhausted") :
      Reply ic st [closeFullSignal eventType side (some reason)] st := by
  refine .close eventType side (some reason) fun s hs => ?_
  obtain ⟨-, -, heq | heq⟩ := hs
  · exact absurd (Option.some.inj heq) h
  · exact absurd (Option.some.inj heq) h'

/-- The upper ladder closes the condor or leaves it alone; it does not roll. -/
theorem upperLadder_answered (h : ic.upperLadder env st positions = .answered events) :
    Reply ic st events st ∧ ∀ e ∈ events, e.eventType ≠ "ROLL_WING" := by
  have hforced : "FORCED_CLOSE" ≠ "ROLL_WING" := by decide
  unfold IronCondorV2.upperLadder at h
  simp only at h
  split at h
  next =>
    obtain rfl := Ladder.answered.inj h
    exact ⟨.nothing, List.forall_mem_nil _⟩
  next expiry hexp =>
    split at h
    next e hdte =>
      obtain rfl := Ladder.answered.inj h
      unfold IronCondorV2.dteSignal at hdte
      split at hdte
      next =>
        obtain rfl := Option.some.inj hdte
        exact ⟨close_of_reason (by decide) (by decide), List.forall_mem_singleton.mpr hforced⟩
      next =>
        split at hdte
        next =>
          obtain rfl := Option.some.inj hdte
          exact ⟨close_of_reason (by decide) (by decide), List.forall_mem_singleton.mpr hforced⟩
        next => exact absurd hdte (by simp)
    next =>
      split at h
      next e hhard =>
        obtain rfl := Ladder.answered.inj h
        obtain ⟨side, -, hside⟩ := List.exists_of_findSome?_eq_some hhard
        obtain ⟨delta, -, hdelta⟩ := Option.bind_eq_some_iff.mp hside
        split at hdelta
        next =>
          obtain rfl := Option.some.inj hdelta
          exact ⟨close_of_reason (by decide) (by decide), List.forall_mem_singleton.mpr hforced⟩
        next =>
          split at hdelta
          next hfull =>
            obtain rfl := Option.some.inj hdelta
            refine ⟨.close _ _ _ fun s hs => ?_, List.forall_mem_singleton.mpr hforced⟩
            obtain rfl := Option.some.inj hs.2.1
            exact hfull.2
          next => exact absurd hdelta (by simp)
      next =>
        split at h
        next => exact absurd h (by simp)
        next =>
          split at h
          next =>
            split at h
            next =>
              obtain rfl := Ladder.answered.inj h
              have htarget : "CLOSE_FULL" ≠ "ROLL_WING" := by decide
              refine ⟨.close _ _ _ fun s hs => ?_, List.forall_mem_singleton.mpr htarget⟩
              exact absurd hs.1 (by simp [closeFullSignal])
            next => exact absurd h (by simp)
          next => exact absurd h (by simp)

/-- What the profit-lock check answers; no roll. -/
theorem checkProfitLock_ok {c : LadderContext} {captured : ℚ}
    (h : ic.checkProfitLock env c captured st = .ok events st') :
    Reply ic st events st' ∧ ∀ e ∈ events, e.eventType ≠ "ROLL_WING" := by
  have hnothing : Reply ic st [] st ∧ ∀ e ∈ ([] : List IcSignal), e.eventType ≠ "ROLL_WING" :=
    ⟨.nothing, List.forall_mem_nil _⟩
  unfold IronCondorV2.checkProfitLock at h
  split at h
  next => exact absurd h throw_ne_ok
  next =>
    obtain ⟨plState, _, hread, h⟩ := bind_ok_iff.mp h
    obtain ⟨rfl, rfl⟩ := reads_ok_iff.mp hread
    split at h
    next =>
      split at h
      next =>
        obtain ⟨rfl, rfl⟩ := pure_ok_iff.mp h
        exact hnothing
      next =>
        obtain ⟨rfl, rfl⟩ := pure_ok_iff.mp h
        unfold IronCondorV2.zone2
        split
        next putStrike callStrike _ _ =>
          split
          next newPut newCall netDebit _ =>
            have hlock : "PROFIT_LOCK_ZONE2" ≠ "ROLL_WING" := by decide
            exact ⟨.lock env c putStrike callStrike newPut newCall netDebit, List.forall_mem_singleton.mpr hlock⟩
          next skipReason _ =>
            have hforced : "FORCED_CLOSE" ≠ "ROLL_WING" := by decide
            refine ⟨.close _ _ _ fun s hs => ?_, List.forall_mem_singleton.mpr hforced⟩
            exact absurd hs.2.1 (by simp [closeFullSignal])
          next => exact hnothing
        next => exact hnothing
    next =>
      split at h
      next =>
        split at h
        next => exact absurd h throw_ne_ok
        next =>
          simp only [updates_ok_iff, Prod.mk.injEq] at h
          obtain ⟨rfl, rfl⟩ := h
          have hnoted : "PROFIT_LOCK_ZONE1" ≠ "ROLL_WING" := by decide
          exact ⟨.milestone, List.forall_mem_singleton.mpr hnoted⟩
      next =>
        obtain ⟨rfl, rfl⟩ := pure_ok_iff.mp h
        exact hnothing

/-- An adjustment that closes for used-up rolls finds a full counter. -/
theorem evaluateAdjustment_budget {c : LadderContext} {r : RollResult} {side : Side}
    (h : ic.evaluateAdjustment env st c = some r) (hside : r.toSignal.ExhaustedOn side) :
    ic.config.maxRollsPerSidePerCycle ≤ st.rollsExecuted side := by
  unfold IronCondorV2.evaluateAdjustment at h
  split at h
  next =>
    obtain rfl := Option.some.inj h
    obtain ⟨-, -, hreason | hreason⟩ := hside
    · exact absurd hreason (by simp [RollResult.toSignal, closeFullSignal])
    · exact absurd hreason (by simp [RollResult.toSignal, closeFullSignal])
  next =>
    split at h
    next =>
      split at h
      next hfull =>
        obtain rfl := Option.some.inj h
        obtain rfl := Option.some.inj hside.2.1
        exact hfull
      next =>
        split at h
        next =>
          obtain rfl := Option.some.inj h
          exact absurd hside.1 (by simp [RollResult.toSignal])
        next =>
          obtain rfl := Option.some.inj h
          exact absurd hside.1 (by simp [RollResult.toSignal, closeFullSignal])
    next =>
      obtain ⟨s, -, rfl⟩ := Option.map_eq_some_iff.mp h
      exact absurd hside.1 (by simp [RollResult.toSignal])

/-- The legs of a roll are those of the partial roll. -/
theorem evaluateAdjustment_rollWing {c : LadderContext} {side : Side} {legs : List LegSpec}
    (h : ic.evaluateAdjustment env st c = some (.rollWing side legs)) :
      ic.executePartialRoll env st c side = .ok legs := by
  unfold IronCondorV2.evaluateAdjustment at h
  split at h
  next => exact absurd h (by simp)
  next =>
    split at h
    next s _ =>
      split at h
      next => exact absurd h (by simp)
      next =>
        split at h
        next hroll =>
          obtain ⟨rfl, rfl⟩ := RollResult.rollWing.inj (Option.some.inj h)
          exact hroll
        next => exact absurd h (by simp)
    next =>
      obtain ⟨_, -, hwarn⟩ := Option.map_eq_some_iff.mp h
      exact absurd hwarn (by simp)

theorem required_bind_ok {α β : Type} {o : Option α} {guardName : String}
    {f : α → Except String β} {b : β} :
    (required o guardName >>= f) = .ok b ↔ ∃ a, o = some a ∧ f a = .ok b := by
  cases o with
  | none => simp [required, bind, Except.bind]
  | some a => simp [required, bind, Except.bind]

theorem ensure_bind_ok {β : Type} {ok : Bool} {guardName : String}
    {f : Unit → Except String β} {b : β} :
    (ensure ok guardName >>= f) = .ok b ↔ ok = true ∧ f () = .ok b := by
  cases ok with
  | false => simp [ensure, bind, Except.bind]
  | true => simp [ensure, bind, Except.bind]

/-- **What a roll closes and opens**: the legs of its side, one lot each. -/
theorem rollWing_legs {c : LadderContext} {side : Side} {legs : List LegSpec}
    (h : ic.executePartialRoll env st c side = .ok legs) :
    (RollResult.rollWing side legs).toSignal.legsToClose.map (·.legRole) = [side.shortRole, side.longRole] ∧
      ∃ newShort newLong : LegSpec, (RollResult.rollWing side legs).toSignal.legsToOpen =
        [newShort, newLong] ∧
        (newShort.legRole = side.shortRole ∧ newShort.action = "SELL" ∧ newShort.quantity = 1) ∧
        newLong.legRole = side.longRole ∧ newLong.action = "BUY" ∧ newLong.quantity = 1 := by
  unfold IronCondorV2.executePartialRoll at h
  simp only [required_bind_ok, ensure_bind_ok] at h
  obtain ⟨oldShort, -, oldLong, -, _, -, _, -, -, -, newShort, -, newLong, -, -, _, -, _, -, -, -,
    newShortKey, -,
    newLongKey, -, hlegs⟩ := h
  -- the notes tell the two closing legs from the two opening ones
  have hclose : (RollResult.rollWing side legs).toSignal.legsToClose.map (·.legRole) =
      [side.shortRole, side.longRole] := by
    rw [← Except.ok.inj hlegs]
    simp [RollResult.toSignal]
  have hopen : (RollResult.rollWing side legs).toSignal.legsToOpen = legs.drop 2 := by
    rw [← Except.ok.inj hlegs]
    simp [RollResult.toSignal]
  obtain rfl := Except.ok.inj hlegs
  refine ⟨hclose, _, _, hopen, ?_⟩
  exact ⟨⟨rfl, rfl, rfl⟩, rfl, rfl, rfl⟩

/-- What the soft delta signals answer. -/
theorem softDelta_ok {c : LadderContext} (h : ic.softDelta env c st = .ok events st') :
    Reply ic st events st' := by
  obtain ⟨result, _, hread, h⟩ := bind_ok_iff.mp h
  obtain ⟨hresult, rfl⟩ := reads_ok_iff.mp hread
  cases result with
  | none =>
    obtain ⟨rfl, rfl⟩ := pure_ok_iff.mp h
    exact .nothing
  | some r =>
    simp only [updates_ok_iff, Prod.mk.injEq] at h
    obtain ⟨rfl, rfl⟩ := h
    cases r with
    | deltaWarn side => exact .warn side
    | rollWing side legs => exact .roll env c side legs (evaluateAdjustment_rollWing hresult)
    | deltaStop side blockReason => exact .close _ _ _ fun _ => evaluateAdjustment_budget hresult
    | forcedClose side blockReason => exact .close _ _ _ fun _ => evaluateAdjustment_budget hresult

private theorem checkProfitLock_error {c : LadderContext} {captured : ℚ} {e : IcError}
    (h : ic.checkProfitLock env c captured st = .error e st') : st' = st := by
  unfold IronCondorV2.checkProfitLock at h
  split at h
  next => exact (throw_error_iff.mp h).2.symm
  next =>
    rcases bind_error_iff.mp h with h | ⟨plState, _, hread, h⟩
    · exact absurd h reads_ne_error
    · obtain ⟨-, rfl⟩ := reads_ok_iff.mp hread
      split at h
      next => split at h <;> exact absurd h pure_ne_error
      next =>
        split at h
        next =>
          split at h
          next => exact (throw_error_iff.mp h).2.symm
          next => exact absurd h updates_ne_error
        next => exact absurd h pure_ne_error

private theorem softDelta_ne_error {c : LadderContext} {e : IcError} :
    ic.softDelta env c st ≠ .error e st' := by
  intro h
  rcases bind_error_iff.mp h with h | ⟨result, _, -, h⟩
  · exact absurd h reads_ne_error
  · cases result with
    | none => exact absurd h pure_ne_error
    | some r => exact absurd h updates_ne_error

/-- **What a call answers**: nothing, or one event, with the state as it was except where a
roll is counted or the milestone noted. -/
theorem checkSignals_ok (h : ic.checkSignals env positions st = .ok events st') :
    Reply ic st events st' := by
  obtain ⟨ladder, _, hread, h⟩ := bind_ok_iff.mp h
  obtain ⟨hladder, rfl⟩ := reads_ok_iff.mp hread
  cases ladder with
  | answered es =>
    obtain ⟨rfl, rfl⟩ := pure_ok_iff.mp h
    exact (upperLadder_answered hladder).1
  | undecided c =>
    obtain ⟨locked, st₁, hlock, h⟩ := bind_ok_iff.mp h
    have hreply : Reply ic st locked st₁ := by
      rw [IronCondorV2.lockSignals] at hlock
      cases hcaptured : c.capturedFraction with
      | some captured =>
        rw [hcaptured] at hlock
        simp only at hlock
        split at hlock
        next => exact (checkProfitLock_ok hlock).1
        next =>
          obtain ⟨rfl, rfl⟩ := pure_ok_iff.mp hlock
          exact .nothing
      | none =>
        rw [hcaptured] at hlock
        obtain ⟨rfl, rfl⟩ := pure_ok_iff.mp hlock
        exact .nothing
    split at h
    next hempty =>
      subst hempty
      cases hreply
      exact softDelta_ok h
    next =>
      obtain ⟨rfl, rfl⟩ := pure_ok_iff.mp h
      exact hreply

/-- A call that raises has changed nothing. -/
theorem checkSignals_error {e : IcError} (h : ic.checkSignals env positions st = .error e st') :
    st' = st := by
  rcases bind_error_iff.mp h with h | ⟨ladder, _, hread, h⟩
  · exact absurd h reads_ne_error
  · obtain ⟨-, rfl⟩ := reads_ok_iff.mp hread
    cases ladder with
    | answered es => exact absurd h pure_ne_error
    | undecided c =>
      rcases bind_error_iff.mp h with h | ⟨locked, st₁, -, h⟩
      · rw [IronCondorV2.lockSignals] at h
        cases hcaptured : c.capturedFraction with
        | none =>
          rw [hcaptured] at h
          exact absurd h pure_ne_error
        | some captured =>
          rw [hcaptured] at h
          simp only at h
          split at h
          next => exact checkProfitLock_error h
          next => exact absurd h pure_ne_error
      · split at h
        next => exact absurd h softDelta_ne_error
        next => exact absurd h pure_ne_error

/-! ### What a call leaves alone -/

theorem IcStore.getProfitLockState_set (S : IcStore) (strategyName : String) (state : ProfitLockState) :
    (S.setProfitLockState strategyName state).getProfitLockState strategyName = state := by
  rw [IcStore.getProfitLockState, IcStore.setProfitLockState, Dict.get?_set, if_pos rfl]
  rfl

/-- No answer writes to the ledger. -/
theorem Reply.trades (h : Reply ic st events st') : st'.store.trades = st.store.trades := by
  cases h <;> rfl

/-- No answer executes the lock. -/
theorem Reply.zone2LockExecuted (h : Reply ic st events st') :
    (st'.store.getProfitLockState ic.strategyName).zone2LockExecuted =
      (st.store.getProfitLockState ic.strategyName).zone2LockExecuted := by
  cases h with
  | milestone =>
    rw [V2State.noteZone1, IcStore.getProfitLockState_set]
  | _ => rfl

/-- **A budget reported exhausted is**: its counter is full. -/
theorem Reply.exhausted {e : IcSignal} {side : Side} (h : Reply ic st events st') (he : e ∈ events)
    (hside : e.ExhaustedOn side) : ic.config.maxRollsPerSidePerCycle ≤ st.rollsExecuted side := by
  cases h with
  | nothing => exact absurd he List.not_mem_nil
  | close eventType s reason budget =>
    obtain rfl := List.mem_singleton.mp he
    exact budget side hside
  | lock env c putStrike callStrike newPut newCall netDebit =>
    obtain rfl := List.mem_singleton.mp he
    exact absurd hside.1 (by simp [zone2Signal])
  | milestone =>
    obtain rfl := List.mem_singleton.mp he
    exact absurd hside.1 (by simp [zone1Signal])
  | roll env c s legs =>
    obtain rfl := List.mem_singleton.mp he
    exact absurd hside.1 (by simp [RollResult.toSignal])
  | warn s =>
    obtain rfl := List.mem_singleton.mp he
    exact absurd hside.1 (by simp [RollResult.toSignal])

end NiftyShield.Strategy.IronCondor
