import NiftyShield.Paper.LegRows
import Mathlib.Algebra.BigOperators.Ring.List
import Mathlib.Tactic.Ring

/-!
# The delta of the portfolio

`PortfolioDeltaTracker` (`src/risk/delta_tracker.py`) adds up the open positions of all strategies as
lots of Nifty: an option by a delta of its chain, or as one lot a lot if there is none, and the
NiftyBees units by what they cost.

## What is proved

`aggregateDelta_ofStore`: without deltas of a chain the options count for what all the trades of the
ledger add up to, each for itself. The cycles, the legs and the strategies that the positions are
formed by, and the market, do not matter to it.

## Honest scope

`Decimal` is exact. The time of a snapshot is left out.
-/

namespace NiftyShield.Risk

open NiftyShield.Instruments NiftyShield.Lib NiftyShield.Paper

/-! ### The tracker -/

/-- `PortfolioDelta`. -/
structure PortfolioDelta where
  /-- `options_delta_lots`. -/
  optionsDeltaLots : ℚ
  /-- `niftybees_delta_lots`. -/
  niftybeesDeltaLots : ℚ
  /-- `total_delta_lots`. -/
  totalDeltaLots : ℚ
  /-- `warning_breached`. -/
  warningBreached : Bool
  /-- `cap_breached`. -/
  capBreached : Bool
  deriving DecidableEq

/-- The thresholds of a tracker, with the defaults. -/
structure PortfolioDeltaTracker where
  /-- `OPTIONS_WARNING_LOTS`. -/
  optionsWarning : ℚ := 75 / 100
  /-- `OPTIONS_CAP_LOTS`. -/
  optionsCap : ℚ := 1
  /-- `COMBINED_WARNING_LOTS`. -/
  combinedWarning : ℚ := 150 / 100
  /-- `COMBINED_CAP_LOTS`. -/
  combinedCap : ℚ := 2

/-- The `ValueError`s. -/
inductive DeltaError where
  /-- `nifty_spot must be positive`. -/
  | niftySpot (got : ℚ)
  /-- `lot_size must be positive`. -/
  | lotSize (got : ℤ)
  deriving DecidableEq

/-- `_position_delta`. -/
def positionDelta (pos : PaperPosition) (niftySpot lotSize : ℚ) (positionDeltas : String → Option ℚ) : ℚ :=
  if pos.instrumentKey = niftybeesKey then pos.netQty * pos.avgCost / (niftySpot * lotSize)
  else
    match pos.optionType with
    | some .pe => (positionDeltas pos.instrumentKey).getD (-pos.netQty / lotSize)
    | some .ce => (positionDeltas pos.instrumentKey).getD (pos.netQty / lotSize)
    | some .fut => pos.netQty / lotSize
    | _ => 0

/-- The snapshot of the two sums. -/
def PortfolioDeltaTracker.snapshot (tracker : PortfolioDeltaTracker) (options niftybees : ℚ) : PortfolioDelta where
  optionsDeltaLots := options
  niftybeesDeltaLots := niftybees
  totalDeltaLots := options + niftybees
  warningBreached := tracker.optionsWarning < options || tracker.combinedWarning < options + niftybees
  capBreached := tracker.optionsCap < options || tracker.combinedCap < options + niftybees

/-- `aggregate_delta`. -/
def PortfolioDeltaTracker.aggregateDelta (tracker : PortfolioDeltaTracker) (paperPositions : List PaperPosition)
    (niftySpot : ℚ) (lotSize : ℤ) (positionDeltas : String → Option ℚ) : Except DeltaError PortfolioDelta :=
  if niftySpot ≤ 0 then .error (.niftySpot niftySpot)
  else if lotSize ≤ 0 then .error (.lotSize lotSize)
  else
    let delta := fun pos => positionDelta pos niftySpot lotSize positionDeltas
    .ok (tracker.snapshot ((paperPositions.filter fun pos => pos.instrumentKey ≠ niftybeesKey).map delta).sum
      ((paperPositions.filter fun pos => pos.instrumentKey = niftybeesKey).map delta).sum)

/-- The open positions of all strategies. -/
def openPositions (lookup : Option InstrumentLookup) (T : PaperTrades) : List PaperPosition :=
  T.getStrategyNames.flatMap fun s => (T.getPositions lookup s).filter fun p => p.netQty ≠ 0

/-! ### The options in the ledger -/

/-- The lots that a long lot of an instrument counts for. -/
def lotDelta (lookup : Option InstrumentLookup) (instrumentKey : String) : ℚ :=
  if instrumentKey = niftybeesKey then 0
  else
    match resolveOptionType lookup instrumentKey with
    | some .pe => -1
    | some .ce => 1
    | some .fut => 1
    | _ => 0

/-- What a trade adds. -/
def tradeDelta (lookup : Option InstrumentLookup) (lotSize : ℤ) (t : PaperTrade) : ℚ :=
  lotDelta lookup t.instrumentKey * t.signedQty / lotSize

/-- What the trades of the ledger add up to. -/
def ledgerDelta (lookup : Option InstrumentLookup) (lotSize : ℤ) (T : PaperTrades) : ℚ :=
  ((T.rows.map (·.trade)).map (tradeDelta lookup lotSize)).sum

/-- What the NiftyBees units cost. -/
def niftybeesCost (lookup : Option InstrumentLookup) (T : PaperTrades) : ℚ :=
  (((openPositions lookup T).filter fun pos => pos.instrumentKey = niftybeesKey).map fun pos : PaperPosition =>
    (pos.netQty : ℚ) * pos.avgCost).sum

section Ledger

variable {lookup : Option InstrumentLookup} {T : PaperTrades} {lotSize : ℤ}

/-- A position that is not of NiftyBees counts for its net quantity. -/
theorem positionDelta_of_mem {s : String} {p : PaperPosition} (hp : p ∈ T.getPositions lookup s) (niftySpot : ℚ) :
    (if p.instrumentKey ≠ niftybeesKey then positionDelta p niftySpot lotSize (fun _ => none) else 0) =
      lotDelta lookup p.instrumentKey * p.netQty / lotSize := by
  obtain ⟨k, -, hgroup⟩ := mem_getPositions.mp hp
  rw [groupPosition_eq] at hgroup
  split at hgroup
  · exact absurd hgroup (by simp)
  · obtain rfl := Option.some.inj hgroup
    simp only [positionDelta, lotDelta]
    by_cases hbees : k.2 = niftybeesKey
    · simp [hbees]
    · simp only [hbees, if_false, not_false_eq_true, ne_eq, if_true, Option.getD_none]
      rcases resolveOptionType lookup k.2 with _ | _ | _ | _ | _ <;> simp

/-- The trades of one instrument add up to their net quantity. -/
theorem sum_tradeDelta {instrumentKey : String} : ∀ {ts : List PaperTrade}, (∀ t ∈ ts, t.instrumentKey = instrumentKey) →
    (ts.map (tradeDelta lookup lotSize)).sum =
      lotDelta lookup instrumentKey * (netOf PaperTrade.signedQty ts : ℤ) / lotSize
  | [], _ => by simp
  | t :: ts, h => by
    have ih := sum_tradeDelta fun u hu => h u (List.mem_cons_of_mem t hu)
    have hnet : netOf PaperTrade.signedQty (t :: ts) = t.signedQty + netOf PaperTrade.signedQty ts := rfl
    rw [List.map_cons, List.sum_cons, ih, tradeDelta, h t List.mem_cons_self, hnet]
    push_cast
    ring

/-- A group counts for its trades, a flat one for nothing. -/
theorem groupPosition_delta (s : String) (ts : List PaperTrade) (k : String × String) :
    ((groupPosition lookup s ts k).elim 0 fun p => lotDelta lookup p.instrumentKey * p.netQty / lotSize) =
      ((Grouping.group PaperTrade.legInstrument ts k).map (tradeDelta lookup lotSize)).sum := by
  have hkey : ∀ t ∈ Grouping.group PaperTrade.legInstrument ts k, t.instrumentKey = k.2 := fun t ht =>
    congrArg Prod.snd (Grouping.mem_group.mp ht).2
  rw [sum_tradeDelta hkey, groupPosition_eq, ← legInstrumentTrades]
  split
  next hflat => rw [hflat, Option.elim_none, Int.cast_zero, mul_zero, zero_div]
  next => rfl

/-- The positions of a strategy count for its trades. -/
theorem sum_getPositions (s : String) :
    ((T.getPositions lookup s).map fun p => lotDelta lookup p.instrumentKey * p.netQty / lotSize).sum =
      ((T.getTrades s).map (tradeDelta lookup lotSize)).sum := by
  rw [PaperTrades.getPositions, Grouping.sum_filterMap, ← Grouping.sum_keys PaperTrade.legInstrument]
  simp only [groupPosition_delta]

/-- The options of the open positions add up to those of the trades. -/
theorem sum_openPositions (niftySpot : ℚ) :
    (((openPositions lookup T).filter fun pos => pos.instrumentKey ≠ niftybeesKey).map fun pos =>
      positionDelta pos niftySpot lotSize fun _ => none).sum = ledgerDelta lookup lotSize T := by
  have hstrategy : ∀ s ∈ T.getStrategyNames,
      (((T.getPositions lookup s).filter fun p => p.netQty ≠ 0).map fun p =>
        if p.instrumentKey ≠ niftybeesKey then positionDelta p niftySpot lotSize (fun _ => none) else 0).sum =
      ((Grouping.group PaperTrade.strategyName (T.rows.map (·.trade)) s).map (tradeDelta lookup lotSize)).sum := by
    intro s _
    have hopen : (T.getPositions lookup s).filter (fun p => p.netQty ≠ 0) = T.getPositions lookup s :=
      List.filter_eq_self.mpr fun p hp => decide_eq_true (getPositions_open hp).2.1
    rw [hopen, List.map_congr_left fun p hp => positionDelta_of_mem hp niftySpot, sum_getPositions]
    exact ((T.getTrades_perm s).map _).sum_eq
  rw [Grouping.sum_filter, openPositions, List.map_flatMap, List.flatMap_def, List.sum_flatten,
    List.map_map, ledgerDelta]
  refine (congrArg List.sum (List.map_congr_left hstrategy)).trans ?_
  refine Grouping.sum_groups PaperTrade.strategyName _ (PaperTrades.nodup_getStrategyNames T) fun t ht => ?_
  obtain ⟨r, hr, rfl⟩ := List.mem_map.mp ht
  exact PaperTrades.mem_getStrategyNames.mpr ⟨r, hr, rfl⟩

/-- The NiftyBees units are worth what they cost. -/
theorem sum_niftybees (niftySpot : ℚ) :
    (((openPositions lookup T).filter fun pos => pos.instrumentKey = niftybeesKey).map fun pos =>
      positionDelta pos niftySpot lotSize fun _ => none).sum = niftybeesCost lookup T / (niftySpot * lotSize) := by
  rw [niftybeesCost, div_eq_mul_inv, ← List.sum_map_mul_right]
  refine congrArg List.sum (List.map_congr_left fun pos hpos => ?_)
  have hkey : pos.instrumentKey = niftybeesKey := of_decide_eq_true (List.mem_filter.mp hpos).2
  rw [positionDelta, if_pos hkey, div_eq_mul_inv]

/-- The delta of the open positions, at a spot and a lot size that pass its checks. -/
theorem aggregateDelta_of_pos (tracker : PortfolioDeltaTracker) {niftySpot : ℚ} (hspot : 0 < niftySpot)
    (hlot : 0 < lotSize) :
    tracker.aggregateDelta (openPositions lookup T) niftySpot lotSize (fun _ => none) =
      .ok (tracker.snapshot (ledgerDelta lookup lotSize T) (niftybeesCost lookup T / (niftySpot * lotSize))) := by
  rw [PortfolioDeltaTracker.aggregateDelta, if_neg (not_le.mpr hspot), if_neg (not_le.mpr hlot),
    ← sum_openPositions niftySpot, ← sum_niftybees niftySpot]

/-- **The delta of the portfolio**: without deltas of a chain the options count for what all the trades
of the ledger add up to, whatever the market, and the NiftyBees units for what they cost. -/
theorem aggregateDelta_ofStore (tracker : PortfolioDeltaTracker) (niftySpot : ℚ) :
    tracker.aggregateDelta (openPositions lookup T) niftySpot lotSize (fun _ => none) =
      if niftySpot ≤ 0 then .error (.niftySpot niftySpot)
      else if lotSize ≤ 0 then .error (.lotSize lotSize)
      else .ok (tracker.snapshot (ledgerDelta lookup lotSize T)
        (niftybeesCost lookup T / (niftySpot * lotSize))) := by
  split
  next hspot => rw [PortfolioDeltaTracker.aggregateDelta, if_pos hspot]
  next hspot =>
    split
    next hlot => rw [PortfolioDeltaTracker.aggregateDelta, if_neg hspot, if_pos hlot]
    next hlot => exact aggregateDelta_of_pos tracker (not_le.mp hspot) (not_le.mp hlot)

/-! ### What a write adds -/

/-- A trade that is recorded adds its own delta. -/
theorem ledgerDelta_recordTrade {t : PaperTrade} (h : T.hasKey t.uniqueKey = false) :
    ledgerDelta lookup lotSize (T.recordTrade t).1 = ledgerDelta lookup lotSize T + tradeDelta lookup lotSize t := by
  rw [ledgerDelta, (PaperTrades.recordTrade_fresh h).2, List.map_append, List.map_append, List.sum_append, ledgerDelta]
  simp

/-- Closing a leg's rows adds nothing. -/
theorem ledgerDelta_markTradeClosed (s role key : String) :
    ledgerDelta lookup lotSize (T.markTradeClosed s role key) = ledgerDelta lookup lotSize T := by
  rw [ledgerDelta, ledgerDelta, PaperTrades.markTradeClosed, PaperTrades.rows_updateState, List.map_map, List.map_map, List.map_map]
  refine congrArg List.sum (List.map_congr_left fun r _ => ?_)
  simp only [Function.comp_apply]
  split <;> rfl

end Ledger

end NiftyShield.Risk
