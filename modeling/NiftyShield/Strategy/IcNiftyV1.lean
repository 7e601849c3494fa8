import NiftyShield.Strategy.IcNiftyV2

/-!
# The signals of the Iron Condor V1

`IronCondorV1.check_signals` (`src/strategy/ic_nifty_v1.py`): every condition of the table is
evaluated, and with `auto_execute` one of the ACTION events is selected and the others are
dropped. A breached short is reported as `DELTA_STOP`, and as `ROLL_WING` as well where a
replacement is found: the leg of a delta band farther out of the money, else one between the
short and its hedge. The hedge stays.

## Honest scope

Log lines, descriptions and the counterfactual exit rows are left out, and of a payload the
entries that nothing modelled reads. The note of a leg is kept without the delta it quotes.
The chain, the BOD file and the store are read as by V2 (`SignalEnv`), whose helpers of the
same names do the same. `_auto_select_action` never selects the close of one spread, so the
filter is kept without it.
-/

namespace NiftyShield.Strategy.IronCondor

open NiftyShield.Instruments NiftyShield.Lib NiftyShield.Paper

/-! ### The strategy object -/

/-- What `check_signals` reads of `ICExpiryConfig`. -/
structure ICExpiryConfig where
  /-- `strategy_name`. -/
  strategyName : String
  /-- Days to expiry at which all is closed. -/
  timeStopDte : ℤ := 7
  /-- Days to expiry at which to note it. -/
  dteWarn : ℤ := 14
  /-- Mark, as a fraction of the credit, at which the profit is taken. -/
  profitTargetPct : ℚ := 50 / 100
  /-- Mark, as a multiple of the credit, at which the loss is taken. -/
  lossStopPct : ℚ := 2
  /-- Delta of a short at which its side is stopped. -/
  deltaStop : ℚ := 35 / 100
  /-- Delta at which to warn. -/
  deltaWarn : ℚ := 25 / 100
  /-- Lower bound of the replacement's delta. -/
  rollWingDeltaLo : ℚ := 10 / 100
  /-- Upper bound of it. -/
  rollWingDeltaHi : ℚ := 20 / 100
  /-- Delta wanted of the replacement. -/
  rollWingTargetDelta : ℚ := 15 / 100

/-- `CONFIGS["weekly"]`. -/
def weeklyConfig : ICExpiryConfig where
  strategyName := "paper_ic_nifty_v1_weekly"
  timeStopDte := 2
  dteWarn := 4
  profitTargetPct := 40 / 100
  rollWingDeltaLo := 5 / 100
  rollWingDeltaHi := 12 / 100
  rollWingTargetDelta := 8 / 100

/-- `CONFIGS["monthly"]`. -/
def monthlyConfig : ICExpiryConfig where
  strategyName := "paper_ic_nifty_v1_monthly"

/-- `IronCondorV1`. -/
structure IronCondorV1 where
  /-- Configuration. -/
  config : ICExpiryConfig := monthlyConfig
  /-- `auto_execute`. -/
  autoExecute : Bool := true
  /-- A store is injected. -/
  wired : Bool := true

/-- Its name and wiring, as `apply_action` uses them. -/
def IronCondorV1.condor (ic : IronCondorV1) : Condor where
  strategyName := ic.config.strategyName
  wired := ic.wired

/-- A `SignalEvent` of the strategy. -/
structure V1Signal where
  /-- e.g. `TIME_STOP`. -/
  eventType : String
  /-- How it is routed. -/
  severity : Severity
  /-- `leg_role`. -/
  legRole : Option String := none
  /-- `current_instrument_key`. -/
  currentInstrumentKey : Option String := none
  /-- `suggested_instrument_key`. -/
  suggestedInstrumentKey : Option String := none
  /-- `legs_to_open`. -/
  legsToOpen : List LegSpec := []
  /-- `auto_action`; `auto_execute` is set exactly with it. -/
  autoAction : Option String := none
  deriving DecidableEq

/-! ### Replacements of a short -/

/-- The side of a short role. -/
def Side.ofShortRole (legRole : String) : Side := if legRole = "short_call" then .call else .put

/-- The directional guard: the candidate is farther out of the money. -/
def Side.fartherOtm (side : Side) (currentStrike candidateStrike : ℚ) : Bool :=
  match side with
  | .put => candidateStrike < currentStrike
  | .call => currentStrike < candidateStrike

/-- The leg of a replacement, if its key is in the BOD file. -/
def SignalEnv.rollTarget (env : SignalEnv) (side : Side) (candidate : OptionLeg) (notes : String) : Option LegSpec :=
  (env.resolveInstrumentKey candidate.strike side.typeText env.market.expiry).map fun key =>
    { instrumentKey := key, action := "SELL", quantity := 1, legRole := side.shortRole, notes := notes,
      price := some candidate.ltp }

/-- The leg of the delta band for a replacement. -/
def IronCondorV1.rollPick (ic : IronCondorV1) (env : SignalEnv) (side : Side) : Option OptionLeg :=
  findStrikeByDelta env.market side.optionType (ic.config.rollWingDeltaLo, ic.config.rollWingDeltaHi)
    ic.config.rollWingTargetDelta

/-- `_select_wing_roll_target`. -/
def IronCondorV1.selectWingRollTarget (ic : IronCondorV1) (env : SignalEnv) (side : Side) (currentStrike : ℚ) :
    Option LegSpec :=
  (ic.rollPick env side).bind fun candidate =>
    if side.fartherOtm currentStrike candidate.strike then env.rollTarget side candidate "roll_wing" else none

/-- The width of a side in the chain, `0` where a leg is missing. -/
def SignalEnv.quotedWidth (env : SignalEnv) (icPositions : List PaperPosition) (side : Side) : ℚ :=
  match (positionForRole icPositions side.shortRole).bind fun p => env.findLeg p.instrumentKey,
    (positionForRole icPositions side.longRole).bind fun p => env.findLeg p.instrumentKey with
  | some shortLeg, some longLeg => |shortLeg.strike - longLeg.strike|
  | _, _ => 0

/-- `_WING_SEARCH_FLOOR_DEFAULTS`. -/
def wingSearchFloorDefaults : ProfitLockConfig := {}

/-- `_search_narrower_wing_candidate`. -/
def IronCondorV1.searchNarrowerWing (ic : IronCondorV1) (env : SignalEnv) (S : IcStore)
    (icPositions : List PaperPosition) (side : Side) (shortStrike currentWingStrike : ℚ) : Option LegSpec :=
  let persisted := if ic.wired ∧ env.wingCreditFails = false
    then S.entryCredits.get? ic.config.strategyName else none
  (searchNarrowWingReplacement env.market side.optionType shortStrike currentWingStrike
    (env.quotedWidth icPositions side.opposite) 0 0 wingSearchFloorDefaults.costBufferPts (persisted.getD 0)
    wingSearchFloorDefaults.floorBudgetZone2 wingSearchFloorDefaults.zone2LongWingMinPremium).bind fun candidate =>
      env.rollTarget side candidate "roll_wing_narrow_search"

/-- `roll_target` of a breached short that the chain quotes as `optLeg`. -/
def IronCondorV1.rollTargetOf (ic : IronCondorV1) (env : SignalEnv) (S : IcStore) (icPositions : List PaperPosition)
    (side : Side) (optLeg : OptionLeg) : Option LegSpec :=
  (ic.selectWingRollTarget env side optLeg.strike).orElse fun _ =>
    ((positionForRole icPositions side.longRole).bind fun p => env.findLeg p.instrumentKey).bind fun longLeg =>
      ic.searchNarrowerWing env S icPositions side optLeg.strike longLeg.strike

/-! ### The conditions -/

/-- `TIME_STOP` and `DTE_WARN`. -/
def IronCondorV1.dteSignals (ic : IronCondorV1) (dte : ℤ) : List V1Signal :=
  (if dte ≤ ic.config.timeStopDte then [{ eventType := "TIME_STOP", severity := .action }] else []) ++
    if dte ≤ ic.config.dteWarn then [{ eventType := "DTE_WARN", severity := .info }] else []

/-- The roll of a short. -/
def rollSignal (pos : PaperPosition) (target : LegSpec) : V1Signal where
  eventType := "ROLL_WING"
  severity := .action
  legRole := some pos.legRole
  currentInstrumentKey := some pos.instrumentKey
  suggestedInstrumentKey := some target.instrumentKey
  legsToOpen := [target]

/-- The delta signals of a short leg. -/
def IronCondorV1.deltaSignals (ic : IronCondorV1) (env : SignalEnv) (S : IcStore) (icPositions : List PaperPosition)
    (pos : PaperPosition) : List V1Signal :=
  match env.findLeg pos.instrumentKey with
  | none => []
  | some optLeg =>
    match optLeg.delta with
    | none => []
    | some delta =>
      (if ic.config.deltaStop ≤ |delta| then
        { eventType := "DELTA_STOP", severity := .action, legRole := some pos.legRole } ::
          ((ic.rollTargetOf env S icPositions (Side.ofShortRole pos.legRole) optLeg).map (rollSignal pos)).toList
      else []) ++
        if ic.config.deltaWarn ≤ |delta| then
          [{ eventType := "DELTA_WARN", severity := .warn, legRole := some pos.legRole }]
        else []

/-- `entry_credit`: the persisted one, else that of the open legs. -/
def IronCondorV1.entryCredit (ic : IronCondorV1) (env : SignalEnv) (S : IcStore) (icPositions : List PaperPosition) : ℚ :=
  let original := if ic.wired ∧ env.entryCreditFails = false
    then S.entryCredits.get? ic.config.strategyName else none
  original.getD (env.combinedPnl icPositions).2

/-- `PROFIT_TARGET` and `LOSS_STOP`. -/
def IronCondorV1.pnlSignals (ic : IronCondorV1) (env : SignalEnv) (S : IcStore) (icPositions : List PaperPosition) :
    List V1Signal :=
  let credit := ic.entryCredit env S icPositions
  match (env.combinedPnl icPositions).1 with
  | none => []
  | some mark =>
    if 0 < credit then
      (if mark / credit ≤ ic.config.profitTargetPct then [{ eventType := "PROFIT_TARGET", severity := .action }]
        else []) ++
        if ic.config.lossStopPct ≤ mark / credit then [{ eventType := "LOSS_STOP", severity := .action }] else []
    else []

/-- All conditions, in their order. The expiry is that of the first leg. -/
def IronCondorV1.allSignals (ic : IronCondorV1) (env : SignalEnv) (S : IcStore) (icPositions : List PaperPosition) :
    List V1Signal :=
  let dte := ((icPositions.head?.bind fun p => resolveOptionExpiry p.instrumentKey env.cachedBod).map
    (Date.daysBetween env.today ·))
  dte.elim [] ic.dteSignals ++
    (icPositions.filter fun p => p.legRole ∈ ["short_call", "short_put"]).flatMap
      (ic.deltaSignals env S icPositions) ++
    ic.pnlSignals env S icPositions

/-! ### The selected action -/

/-- `_auto_select_action`, by the type of the action. -/
def autoSelectAction (events : List V1Signal) : Option String :=
  let types := (events.filter fun e => e.severity = .action).map V1Signal.eventType
  if "LOSS_STOP" ∈ types ∨ "TIME_STOP" ∈ types ∨ "PROFIT_TARGET" ∈ types then some "CLOSE_FULL"
  else if "ROLL_WING" ∈ types then some "ROLL_WING"
  else if "DELTA_STOP" ∈ types then some "CLOSE_FULL"
  else none

/-- `is_match`. -/
def V1Signal.matchesAction (actionType : String) (e : V1Signal) : Bool :=
  (actionType = "CLOSE_FULL" && e.eventType ∈ ["LOSS_STOP", "TIME_STOP", "PROFIT_TARGET", "DELTA_STOP"]) ||
    (actionType = "ROLL_WING" && e.eventType = "ROLL_WING")

/-- `filtered_events`: of the ACTION events only the first that matches the action. -/
def keepSelected (actionType : String) : Bool → List V1Signal → List V1Signal
  | _, [] => []
  | actionEmitted, e :: events =>
    if e.severity ≠ .action then e :: keepSelected actionType actionEmitted events
    else if e.matchesAction actionType && !actionEmitted then
      { e with autoAction := some actionType } :: keepSelected actionType true events
    else keepSelected actionType actionEmitted events

/-- `IronCondorV1.check_signals`. -/
def IronCondorV1.checkSignals (ic : IronCondorV1) (env : SignalEnv) (S : IcStore) (positions : List PaperPosition) :
    List V1Signal :=
  let ps := icPositions ic.condor positions
  if ps = [] then []
  else
    let events := ic.allSignals env S ps
    if ic.autoExecute then
      match autoSelectAction events with
      | some actionType => keepSelected actionType false events
      | none => events.filter fun e => e.severity ≠ .action
    else events

/-! ### Where rolls come from -/

variable {ic : IronCondorV1} {env : SignalEnv} {S : IcStore} {ps positions : List PaperPosition} {e : V1Signal}

/-- What is kept was there, apart from the mark of the selected action. -/
theorem mem_keepSelected {actionType : String} : ∀ {events : List V1Signal} {actionEmitted : Bool},
    e ∈ keepSelected actionType actionEmitted events →
      ∃ e' ∈ events, e.eventType = e'.eventType ∧ e.legRole = e'.legRole ∧ e.legsToOpen = e'.legsToOpen := by
  intro events
  induction events with
  | nil => exact fun h => absurd h List.not_mem_nil
  | cons x events ih =>
    intro actionEmitted h
    have hlater : ∀ {b : Bool}, e ∈ keepSelected actionType b events → ∃ e' ∈ x :: events,
        e.eventType = e'.eventType ∧ e.legRole = e'.legRole ∧ e.legsToOpen = e'.legsToOpen := by
      intro b hin
      obtain ⟨e', he', hsame⟩ := ih hin
      exact ⟨e', List.mem_cons_of_mem _ he', hsame⟩
    rw [keepSelected] at h
    split at h
    next =>
      rcases List.mem_cons.mp h with rfl | hin
      · exact ⟨e, List.mem_cons_self, rfl, rfl, rfl⟩
      · exact hlater hin
    next =>
      split at h
      next =>
        rcases List.mem_cons.mp h with rfl | hin
        · exact ⟨x, List.mem_cons_self, rfl, rfl, rfl⟩
        · exact hlater hin
      next => exact hlater h

/-- A call answers only what one of the conditions gives. -/
theorem mem_checkSignalsV1 (h : e ∈ ic.checkSignals env S positions) :
    ∃ e' ∈ ic.allSignals env S (icPositions ic.condor positions),
      e.eventType = e'.eventType ∧ e.legRole = e'.legRole ∧ e.legsToOpen = e'.legsToOpen := by
  unfold IronCondorV1.checkSignals at h
  simp only at h
  split at h
  next => exact absurd h List.not_mem_nil
  next =>
    split at h
    next =>
      split at h
      next => exact mem_keepSelected h
      next => exact ⟨e, (List.mem_filter.mp h).1, rfl, rfl, rfl⟩
    next => exact ⟨e, h, rfl, rfl, rfl⟩

/-- An event of two conditions is that of the one or the other. -/
private theorem eq_of_mem_conditions {p q : Prop} [Decidable p] [Decidable q] {x y : V1Signal}
    (h : e ∈ (if p then [x] else []) ++ if q then [y] else []) : e = x ∨ e = y := by
  rcases List.mem_append.mp h with h | h
  · exact Or.inl (List.mem_singleton.mp (List.mem_ite_nil_right.mp h).2)
  · exact Or.inr (List.mem_singleton.mp (List.mem_ite_nil_right.mp h).2)

/-- **A `ROLL_WING` of V1** opens a replacement for a quoted short of the condor. -/
theorem allSignals_roll (h : e ∈ ic.allSignals env S ps) (htype : e.eventType = "ROLL_WING") :
    ∃ pos ∈ ps, pos.legRole ∈ ["short_call", "short_put"] ∧ ∃ optLeg target,
      env.findLeg pos.instrumentKey = some optLeg ∧
      ic.rollTargetOf env S ps (Side.ofShortRole pos.legRole) optLeg = some target ∧ e = rollSignal pos target := by
  have hnot : ∀ {t : String} {s : Severity} {role : Option String}, e = { eventType := t, severity := s, legRole := role } →
      t ≠ "ROLL_WING" → False := by
    rintro t s role rfl hne
    exact hne htype
  unfold IronCondorV1.allSignals at h
  simp only [List.mem_append] at h
  rcases h with (h | h) | h
  · exfalso
    revert h
    generalize (ps.head?.bind fun p => resolveOptionExpiry p.instrumentKey env.cachedBod).map
      (Date.daysBetween env.today ·) = dte
    intro h
    cases dte with
    | none => exact absurd h List.not_mem_nil
    | some dte =>
      rcases eq_of_mem_conditions h with heq | heq
      · exact hnot heq (by decide)
      · exact hnot heq (by decide)
  · obtain ⟨pos, hpos, h⟩ := List.mem_flatMap.mp h
    obtain ⟨hmem, hrole⟩ := List.mem_filter.mp hpos
    refine ⟨pos, hmem, of_decide_eq_true hrole, ?_⟩
    unfold IronCondorV1.deltaSignals at h
    split at h
    next => exact absurd h List.not_mem_nil
    next optLeg hleg =>
      split at h
      next => exact absurd h List.not_mem_nil
      next delta hdelta =>
        rcases List.mem_append.mp h with h | h
        · split at h
          next =>
            rcases List.mem_cons.mp h with heq | h
            · exact (hnot heq (by decide)).elim
            · obtain ⟨target, htarget, heq⟩ := Option.map_eq_some_iff.mp (Option.mem_toList.mp h)
              exact ⟨optLeg, target, hleg, htarget, heq.symm⟩
          next => exact absurd h List.not_mem_nil
        · split at h
          next => exact (hnot (List.mem_singleton.mp h) (by decide)).elim
          next => exact absurd h List.not_mem_nil
  · exfalso
    unfold IronCondorV1.pnlSignals at h
    simp only at h
    split at h
    next => exact absurd h List.not_mem_nil
    next =>
      split at h
      next =>
        rcases eq_of_mem_conditions h with heq | heq
        · exact hnot heq (by decide)
        · exact hnot heq (by decide)
      next => exact absurd h List.not_mem_nil

end NiftyShield.Strategy.IronCondor
