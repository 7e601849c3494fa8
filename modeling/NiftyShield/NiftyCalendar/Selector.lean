import NiftyShield.Lib.Selection
import NiftyShield.Models.Options
import NiftyShield.NiftyCalendar.Payoff
import Mathlib.Data.List.ReduceOption
import Mathlib.Data.List.Sort
import Mathlib.Data.Prod.Lex

/-!
# Selecting the wings of a calendar structure

`WingStructureSelector.select` (`src/nifty_calendar/selector.py`): after the checks of the
at-the-money quotes of both chains, every pair of wing offsets of a grid is built and
measured, its failed filters and the sum of its violations are recorded, and the records are
sorted; the first is returned if it failed nothing.

## What is proved

* `recordOf_evaluate`: a record without a failure is that of a candidate that passes every filter;
* `select_best_iff`: a structure is returned exactly when a candidate of the grid passes, and it is
  the passing one closest to the start wings, unless a candidate that fails a filter whose
  threshold is zero makes the division raise.

## Honest scope

`Decimal` values are exact rationals. A violation is divided by the threshold of its filter;
where that is zero the decimal division raises.
-/

namespace NiftyShield.NiftyCalendar

open NiftyShield.Lib NiftyShield.Lib.Raising NiftyShield.Lib.Selection

/-! ### Configuration and quotes -/

/-- What the selector reads of `CalendarVariantConfig`. -/
structure SelectorConfig where
  /-- `put_wing_start_points`. -/
  putWingStartPoints : ℤ
  /-- `call_wing_start_points`. -/
  callWingStartPoints : ℤ
  /-- `min_wing_points`. -/
  minWingPoints : ℤ
  /-- `vega_cap`. -/
  vegaCap : ℚ
  /-- `delta_cap`. -/
  deltaCap : ℚ
  /-- `risk_reward_floor`. -/
  riskRewardFloor : ℚ
  /-- `breakeven_symmetry_tolerance_pct`. -/
  breakevenSymmetryTolerancePct : ℚ
  /-- `breakeven_loss_symmetry_tolerance`. -/
  breakevenLossSymmetryTolerance : ℚ
  /-- `spread_tolerance`. -/
  spreadTolerance : ℚ
  /-- `lot_size`. -/
  lotSize : ℕ
  /-- `lots`. -/
  lots : ℤ := 1
  /-- `wing_step_points`. -/
  wingStepPoints : ℤ := 100
  /-- `max_wing_search_steps`. -/
  maxWingSearchSteps : ℤ := 3

/-- `MONTHLY`. -/
def monthlySelector : SelectorConfig where
  putWingStartPoints := 600
  callWingStartPoints := 600
  minWingPoints := 300
  vegaCap := 20
  deltaCap := 10 / 100
  riskRewardFloor := 75 / 100
  breakevenSymmetryTolerancePct := 50 / 100
  breakevenLossSymmetryTolerance := 25 / 100
  spreadTolerance := 3
  lotSize := 65

/-- `BIWEEKLY`. -/
def biweeklySelector : SelectorConfig := { monthlySelector with
  putWingStartPoints := 400
  callWingStartPoints := 400
  vegaCap := 5 }

/-- What leaves `select` as an exception. -/
inductive SelectError where
  /-- `InvalidStructureError` of a near leg. -/
  | invalidStructure (message : String)
  /-- `ValueError`. -/
  | value (message : String)
  /-- `decimal.DivisionByZero`. -/
  | divisionByZero
  deriving DecidableEq

/-- The leg is quoted on both sides. -/
def quoted (leg : OptionLeg) : Bool := 0 < leg.bid && 0 < leg.ask

/-- `mid`, of a quoted leg. -/
def mid (leg : OptionLeg) : ℚ := (leg.bid + leg.ask) / 2

/-- `spread_points`, of a quoted leg. -/
def spreadPoints (leg : OptionLeg) : ℚ := leg.ask - leg.bid

/-- The Greeks of a quote, if none is missing. -/
def greeksOf (leg : OptionLeg) : Option LegGreeks := do
  return { delta := ← leg.delta, vega := ← leg.vega, iv := ← leg.iv }

/-- `derive_far_carry_from_atm`. -/
def deriveFarCarryFromAtm (farAtmStrike farAtmCeMid farAtmPeMid spot : ℚ) : ℚ :=
  (farAtmStrike + farAtmCeMid - farAtmPeMid) - spot

/-! ### At the money -/

/-- What the at-the-money checks leave for the grid. -/
structure AtmContext where
  /-- `atm_strike`. -/
  atmStrike : ℚ
  /-- `near_ce`. -/
  nearCe : OptionLeg
  /-- `near_pe`. -/
  nearPe : OptionLeg
  /-- Its Greeks. -/
  nearCeGreeks : LegGreeks
  /-- Its Greeks. -/
  nearPeGreeks : LegGreeks
  /-- `far_carry`. -/
  farCarry : ℚ
  deriving DecidableEq

/-- The near strike closest to the spot, the lower of two, without the excluded ones. -/
def nearAtmStrike (chainNear : OptionChain) (spot : ℚ) (exclude : List ℚ) : Option ℚ :=
  (chainNear.strikes.keys.filter fun k => k ∉ exclude).argmin fun k => toLex (|k - spot|, k)

/-- The checks on the near and the far quotes at the money. -/
def atmChecks (chainNear chainFar : OptionChain) (spot : ℚ) (config : SelectorConfig) (exclude : List ℚ) :
    Except NoEntry AtmContext := do
  if chainNear.strikes.keys.isEmpty then
    .error { reason := "Near chain has no strikes", failedFilter := some "missing_quote" }
  let some atmStrike := nearAtmStrike chainNear spot exclude
    | .error { reason := "No eligible near strike", failedFilter := some "missing_quote" }
  let near := (chainNear.strikes.get? atmStrike).getD {}
  let (some nearCe, some nearPe) := (near.ce, near.pe)
    | .error { reason := "Near ATM strike missing CE or PE", failedFilter := some "missing_quote" }
  if ¬ (quoted nearCe ∧ quoted nearPe) then
    .error { reason := "Near ATM leg missing two-sided quote", failedFilter := some "missing_quote" }
  let (some nearCeGreeks, some nearPeGreeks) := (greeksOf nearCe, greeksOf nearPe)
    | .error { reason := "Near ATM leg missing Greeks", failedFilter := some "missing_greeks" }
  if config.spreadTolerance < spreadPoints nearCe ∨ config.spreadTolerance < spreadPoints nearPe then
    .error { reason := "Near ATM leg spread exceeds tolerance", failedFilter := some "spread_tolerance" }
  let some farAtm := chainFar.strikes.get? atmStrike
    | .error { reason := "Far ATM quote missing or non-positive", failedFilter := some "missing_quote" }
  let (some farCe, some farPe) := (farAtm.ce, farAtm.pe)
    | .error { reason := "Far ATM quote missing or non-positive", failedFilter := some "missing_quote" }
  if ¬ (quoted farCe ∧ quoted farPe) then
    .error { reason := "Far ATM quote missing or non-positive", failedFilter := some "missing_quote" }
  return {
    atmStrike
    nearCe
    nearPe
    nearCeGreeks
    nearPeGreeks
    farCarry := deriveFarCarryFromAtm atmStrike (mid farCe) (mid farPe) spot }

/-! ### The grid -/

/-- `range(start, stop, step)`; `none` is its ValueError. -/
def pyRange (start stop step : ℤ) : Option (List ℤ) :=
  if step = 0 then none
  else
    let length := if 0 < step then (stop - start + step - 1) / step else (start - stop - step - 1) / -step
    some ((List.range length.toNat).map fun i => start + step * i)

/-- The pairs of put and call offsets, in the order of the loops. -/
def grid (config : SelectorConfig) : Option (List (ℤ × ℤ)) := do
  let reach := config.maxWingSearchSteps * config.wingStepPoints
  let putOffsets ← pyRange config.minWingPoints (config.putWingStartPoints + reach + 1) config.wingStepPoints
  let callOffsets ← pyRange config.minWingPoints (config.callWingStartPoints + reach + 1) config.wingStepPoints
  return putOffsets.flatMap fun p => callOffsets.map fun c => (p, c)

/-- The far put and call quotes of a pair of offsets. -/
def wingQuotes (chainFar : OptionChain) (atmStrike : ℚ) (offsets : ℤ × ℤ) : Option (OptionLeg × OptionLeg) := do
  let pe ← (← chainFar.strikes.get? (atmStrike - offsets.1)).pe
  let ce ← (← chainFar.strikes.get? (atmStrike + offsets.2)).ce
  return (pe, ce)

/-! ### Candidates -/

/-- The structure of a pair of quoted wings; `none` is the `InvalidStructureError` of its
constructor. -/
def buildStructure (chainNear chainFar : OptionChain) (config : SelectorConfig) (ctx : AtmContext)
    (offsets : ℤ × ℤ) (farPe farCe : OptionLeg) (peGreeks ceGreeks : LegGreeks) : Option GreekStructure :=
  if h : 0 < config.lots ∧ chainNear.expiry < chainFar.expiry ∧ 0 < offsets.1 ∧ 0 < offsets.2 then
    have hlots : 0 < config.lots.toNat := by omega
    some {
      shortCe := ⟨ctx.atmStrike, .ce, chainNear.expiry, .sell, config.lots.toNat, mid ctx.nearCe, ce_isOption, hlots⟩
      shortPe := ⟨ctx.atmStrike, .pe, chainNear.expiry, .sell, config.lots.toNat, mid ctx.nearPe, pe_isOption, hlots⟩
      longCeWing :=
        ⟨ctx.atmStrike + offsets.2, .ce, chainFar.expiry, .buy, config.lots.toNat, mid farCe, ce_isOption, hlots⟩
      longPeWing :=
        ⟨ctx.atmStrike - offsets.1, .pe, chainFar.expiry, .buy, config.lots.toNat, mid farPe, pe_isOption, hlots⟩
      shorts := ⟨rfl, rfl⟩
      longs := ⟨rfl, rfl⟩
      straddle := ⟨rfl, rfl⟩
      wings := rfl
      nearBeforeFar := h.2.1
      lots := ⟨rfl, rfl, rfl⟩
      types := ⟨rfl, rfl, rfl, rfl⟩
      otm := ⟨lt_add_of_pos_right _ (by exact_mod_cast h.2.2.2), sub_lt_self _ (by exact_mod_cast h.2.2.1)⟩
      shortCeGreeks := ctx.nearCeGreeks
      shortPeGreeks := ctx.nearPeGreeks
      longCeGreeks := ceGreeks
      longPeGreeks := peGreeks }
  else none

/-- One filter on a candidate: when it fails, its name is recorded and its excess, in units of
`scale`, is added to the violation. -/
structure Filter where
  /-- Name of the filter. -/
  name : String
  /-- The candidate fails it. -/
  fails : Bool
  /-- How far it is off. -/
  excess : ℚ
  /-- What that is divided by. -/
  scale : ℚ

/-- `failed_filters` and `total_violation` after a filter. -/
def Filter.apply (f : Filter) (acc : List String × ℚ) : Except SelectError (List String × ℚ) :=
  if f.fails then
    if f.scale = 0 then .error .divisionByZero else .ok (acc.1 ++ [f.name], acc.2 + f.excess / f.scale)
  else .ok acc

/-- The spread check on the far wings. -/
def spreadFilter (config : SelectorConfig) (farPe farCe : OptionLeg) : Filter :=
  let maxWingSpread := max (spreadPoints farPe) (spreadPoints farCe)
  ⟨"spread_tolerance", config.spreadTolerance < maxWingSpread, maxWingSpread - config.spreadTolerance,
    config.spreadTolerance⟩

/-- `be_diff`. -/
def StructureMetrics.beDiff (m : StructureMetrics) : ℚ := |m.breakevenHighPct - m.breakevenLowPct|

/-- `loss_ratio`. -/
def StructureMetrics.lossRatio (m : StructureMetrics) : ℚ :=
  let lHigh := |m.lossAtBreakevenHighPerLot|
  let lLow := |m.lossAtBreakevenLowPerLot|
  |lHigh - lLow| / max (max lHigh lLow) 1

/-- The filters on the metrics, in order. -/
def metricFilters (config : SelectorConfig) (m : StructureMetrics) : List Filter :=
  [⟨"delta_cap", config.deltaCap < |m.netDelta|, |m.netDelta| - config.deltaCap, config.deltaCap⟩,
    ⟨"vega_cap", config.vegaCap < m.netVega, m.netVega - config.vegaCap, config.vegaCap⟩,
    ⟨"vega_floor", m.netVega < 0, -m.netVega, 1⟩,
    ⟨"risk_reward", m.riskReward < config.riskRewardFloor, config.riskRewardFloor - m.riskReward,
      config.riskRewardFloor⟩,
    ⟨"breakeven_symmetry", config.breakevenSymmetryTolerancePct < m.beDiff,
      m.beDiff - config.breakevenSymmetryTolerancePct, config.breakevenSymmetryTolerancePct⟩,
    ⟨"loss_symmetry", config.breakevenLossSymmetryTolerance < m.lossRatio,
      m.lossRatio - config.breakevenLossSymmetryTolerance, config.breakevenLossSymmetryTolerance⟩,
    ⟨"net_credit", m.netCreditPerUnit ≤ 0, -m.netCreditPerUnit, 1⟩]

/-- `_CandidateEvaluation`. -/
structure CandidateEvaluation where
  /-- `put_offset`. -/
  putOffset : ℤ
  /-- `call_offset`. -/
  callOffset : ℤ
  /-- The structure, if it was built and measured. -/
  candidate : Option GreekStructure
  /-- `failed_filters`. -/
  failedFilters : List String
  /-- `total_violation`. -/
  totalViolation : ℚ
  /-- `dist_from_start`. -/
  distFromStart : ℤ

/-- `dist`. -/
def distance (config : SelectorConfig) (offsets : ℤ × ℤ) : ℤ :=
  |offsets.1 - config.putWingStartPoints| + |offsets.2 - config.callWingStartPoints|

section
variable (price : FarPrice) (chainNear chainFar : OptionChain) (spot : ℚ) (config : SelectorConfig) (ctx : AtmContext)

/-- The record of a candidate that could not be measured. -/
def rejected (offsets : ℤ × ℤ) (acc : List String × ℚ) (name : String) : CandidateEvaluation :=
  ⟨offsets.1, offsets.2, none, acc.1 ++ [name], acc.2 + 10, distance config offsets⟩

/-- The body of the inner loop; `none` is a wing strike that is not listed. -/
def evaluate (offsets : ℤ × ℤ) : Except SelectError (Option CandidateEvaluation) :=
  match wingQuotes chainFar ctx.atmStrike offsets with
  | none => .ok none
  | some (farPe, farCe) =>
    if ¬ (quoted farPe ∧ quoted farCe) then .ok (some (rejected config offsets ([], 0) "missing_quote"))
    else
      match greeksOf farPe, greeksOf farCe with
      | some peGreeks, some ceGreeks => do
        let acc ← (spreadFilter config farPe farCe).apply ([], 0)
        match buildStructure chainNear chainFar config ctx offsets farPe farCe peGreeks ceGreeks with
        | none => return some (rejected config offsets acc "no_breakeven")
        | some st =>
          match computeMetrics price st ctx.farCarry config.lotSize none spot with
          | .error (.invalidStructure _) => return some (rejected config offsets acc "no_breakeven")
          | .error (.value message) => .error (.value message)
          | .ok metrics =>
            let (failedFilters, totalViolation) ← (metricFilters config metrics).foldlM (fun acc f => f.apply acc) acc
            return some ⟨offsets.1, offsets.2, some st, failedFilters, totalViolation, distance config offsets⟩
      | _, _ => .ok (some (rejected config offsets ([], 0) "missing_greeks"))

/-- Both wings are listed and quoted: what sets `any_quotable_combination`. -/
def quotable (offsets : ℤ × ℤ) : Bool :=
  match wingQuotes chainFar ctx.atmStrike offsets with
  | none => false
  | some (farPe, farCe) => quoted farPe && quoted farCe

/-- The key of the sort. -/
def sortKey (e : CandidateEvaluation) : ℕ ×ₗ ℚ ×ₗ ℤ ×ₗ ℤ ×ₗ ℤ :=
  toLex (e.failedFilters.length, toLex (e.totalViolation, toLex (e.distFromStart, toLex (e.putOffset, e.callOffset))))

/-- The sort of the records and the choice. -/
def choose (candidates : List (ℤ × ℤ)) (evaluations : List CandidateEvaluation) : Except NoEntry GreekStructure :=
  if evaluations.isEmpty ∨ ¬ candidates.any (quotable chainFar ctx) then
    .error { reason := "No quotable wing strikes found", failedFilter := some "missing_quote" }
  else
    match evaluations.insertionSort (fun e e' => sortKey e ≤ sortKey e') with
    | [] => .error { reason := "No quotable wing strikes found", failedFilter := some "missing_quote" }
    | best :: _ =>
      match best.failedFilters, best.candidate with
      | [], some st => .ok st
      | failed, _ => .error {
          reason := "Best candidate (" ++ toString best.putOffset ++ "/" ++ toString best.callOffset ++
            ") failed filter: " ++ failed.head?.getD "None"
          failedFilter := failed.head? }

/-- The near legs, the grid loop and the choice. -/
def selectWings : Except SelectError (Except NoEntry GreekStructure) :=
  if config.lots ≤ 0 then .error (.invalidStructure ("qty_lots must be positive, got " ++ toString config.lots))
  else
    match grid config with
    | none => .error (.value "range() arg 3 must not be zero")
    | some candidates => do
      let records ← candidates.mapM (evaluate price chainNear chainFar spot config ctx)
      return choose chainFar ctx candidates records.reduceOption

/-- `select`. -/
def select (exclude : List ℚ) : Except SelectError (Except NoEntry GreekStructure) :=
  match atmChecks chainNear chainFar spot config exclude with
  | .error noEntry => .ok (.error noEntry)
  | .ok ctx => selectWings price chainNear chainFar spot config ctx

end

/-! ### Filters -/

/-- The filter fails and divides by zero. -/
def Filter.Raises (f : Filter) : Prop := f.fails = true ∧ f.scale = 0

theorem Filter.apply_of_pass {f : Filter} (h : f.fails = false) (acc : List String × ℚ) :
    f.apply acc = .ok acc := by
  rw [Filter.apply, if_neg (by simp [h])]

/-- A filter that leaves nothing on record was passed. -/
theorem Filter.pass_of_apply {f : Filter} {acc acc' : List String × ℚ} (h : f.apply acc = .ok acc')
    (hnil : acc'.1 = []) : f.fails = false ∧ acc' = acc := by
  unfold Filter.apply at h
  split at h
  next =>
    split at h
    next => exact absurd h (by simp)
    next =>
      obtain rfl := Except.ok.inj h
      exact absurd hnil (by simp)
  next hfails => exact ⟨by simpa using hfails, (Except.ok.inj h).symm⟩

theorem Filter.apply_error_iff {f : Filter} {acc : List String × ℚ} {e : SelectError} :
    f.apply acc = .error e ↔ f.Raises ∧ e = .divisionByZero := by
  unfold Filter.apply Filter.Raises
  split
  next hfails =>
    split
    next hscale => simp [hfails, hscale, eq_comm]
    next hscale => simp [hscale]
  next hfails => simp [hfails]

theorem foldlM_apply_of_pass {fs : List Filter} (h : ∀ f ∈ fs, f.fails = false) (acc : List String × ℚ) :
    fs.foldlM (fun acc f => f.apply acc) acc = .ok acc := by
  induction fs with
  | nil => rfl
  | cons f fs ih =>
    obtain ⟨hf, hfs⟩ := List.forall_mem_cons.mp h
    rw [List.foldlM_cons, f.apply_of_pass hf]
    exact ih hfs

theorem pass_of_foldlM_apply {fs : List Filter} {acc acc' : List String × ℚ}
    (h : fs.foldlM (fun acc f => f.apply acc) acc = .ok acc') (hnil : acc'.1 = []) :
    (∀ f ∈ fs, f.fails = false) ∧ acc' = acc := by
  induction fs generalizing acc with
  | nil => exact ⟨by simp, (Except.ok.inj h).symm⟩
  | cons f fs ih =>
    rw [List.foldlM_cons] at h
    obtain ⟨mid, hmid, h⟩ := except_bind_ok_iff.mp h
    obtain ⟨hfs, rfl⟩ := ih h
    obtain ⟨hf, rfl⟩ := f.pass_of_apply hmid hnil
    exact ⟨List.forall_mem_cons.mpr ⟨hf, hfs⟩, rfl⟩

/-- The filters raise exactly when one of them does. -/
theorem foldlM_apply_error_iff {fs : List Filter} {acc : List String × ℚ} :
    (∃ e, fs.foldlM (fun acc f => f.apply acc) acc = .error e) ↔ ∃ f ∈ fs, f.Raises := by
  induction fs generalizing acc with
  | nil => simp [pure, Except.pure]
  | cons f fs ih =>
    rw [List.foldlM_cons, List.exists_mem_cons_iff]
    cases hf : f.apply acc with
    | error e =>
      have hraises := (f.apply_error_iff.mp hf).1
      simp [bind, Except.bind, hraises]
    | ok mid =>
      have hraises : ¬ f.Raises := fun h => by
        rw [f.apply_error_iff.mpr ⟨h, rfl⟩] at hf
        exact absurd hf (by simp)
      simpa [bind, Except.bind, hraises] using ih

/-- The wings and the metrics pass every filter. -/
structure PassesFilters (config : SelectorConfig) (farPe farCe : OptionLeg) (m : StructureMetrics) : Prop where
  /-- The spreads of both wings. -/
  spread : spreadPoints farPe ≤ config.spreadTolerance ∧ spreadPoints farCe ≤ config.spreadTolerance
  /-- The net delta. -/
  delta : |m.netDelta| ≤ config.deltaCap
  /-- The net vega, not negative either. -/
  vega : m.netVega ≤ config.vegaCap ∧ 0 ≤ m.netVega
  /-- The reward to risk. -/
  riskReward : config.riskRewardFloor ≤ m.riskReward
  /-- The distances of the breakevens. -/
  symmetry : m.beDiff ≤ config.breakevenSymmetryTolerancePct
  /-- The losses at the breakevens. -/
  lossSymmetry : m.lossRatio ≤ config.breakevenLossSymmetryTolerance
  /-- A credit. -/
  credit : 0 < m.netCreditPerUnit

theorem passesFilters_iff (config : SelectorConfig) (farPe farCe : OptionLeg) (m : StructureMetrics) :
    PassesFilters config farPe farCe m ↔
      (spreadFilter config farPe farCe).fails = false ∧ ∀ f ∈ metricFilters config m, f.fails = false := by
  simp only [metricFilters, spreadFilter, List.forall_mem_cons, decide_eq_false_iff_not, not_lt,
    not_le, max_le_iff]
  constructor
  · rintro ⟨hspread, hdelta, ⟨hcap, hfloor⟩, hrisk, hsym, hloss, hcredit⟩
    exact ⟨hspread, hdelta, hcap, hfloor, hrisk, hsym, hloss, hcredit, by simp⟩
  · rintro ⟨hspread, hdelta, hcap, hfloor, hrisk, hsym, hloss, hcredit, -⟩
    exact ⟨hspread, hdelta, ⟨hcap, hfloor⟩, hrisk, hsym, hloss, hcredit⟩

/-! ### Candidates that pass -/

section
variable {price : FarPrice} {chainNear chainFar : OptionChain} {spot : ℚ} {config : SelectorConfig}
    {ctx : AtmContext}
  {offsets : ℤ × ℤ}

/-- Both far wings are listed, quoted and have Greeks. -/
structure HasWings (chainFar : OptionChain) (ctx : AtmContext) (offsets : ℤ × ℤ) (farPe farCe : OptionLeg)
    (peGreeks ceGreeks : LegGreeks) : Prop where
  /-- Listed. -/
  listed : wingQuotes chainFar ctx.atmStrike offsets = some (farPe, farCe)
  /-- Quoted on both sides. -/
  quoted : quoted farPe = true ∧ quoted farCe = true
  /-- The put's Greeks. -/
  peGreeks : greeksOf farPe = some peGreeks
  /-- The call's. -/
  ceGreeks : greeksOf farCe = some ceGreeks

/-- The pair of offsets gives a structure that passes every filter. -/
def Passes (price : FarPrice) (chainNear chainFar : OptionChain) (spot : ℚ) (config : SelectorConfig)
    (ctx : AtmContext) (offsets : ℤ × ℤ) (st : GreekStructure) : Prop :=
  ∃ farPe farCe peGreeks ceGreeks metrics, HasWings chainFar ctx offsets farPe farCe peGreeks ceGreeks ∧
    buildStructure chainNear chainFar config ctx offsets farPe farCe peGreeks ceGreeks = some st ∧
    computeMetrics price st ctx.farCarry config.lotSize none spot = .ok metrics ∧
    PassesFilters config farPe farCe metrics

/-- Evaluating the pair of offsets divides by a zero threshold: one whose filter it fails. -/
def DividesByZero (price : FarPrice) (chainNear chainFar : OptionChain) (spot : ℚ) (config : SelectorConfig)
    (ctx : AtmContext) (offsets : ℤ × ℤ) : Prop :=
  ∃ farPe farCe peGreeks ceGreeks, HasWings chainFar ctx offsets farPe farCe peGreeks ceGreeks ∧
    ((spreadFilter config farPe farCe).Raises ∨
      ∃ st metrics, buildStructure chainNear chainFar config ctx offsets farPe farCe peGreeks ceGreeks = some st ∧
        computeMetrics price st ctx.farCarry config.lotSize none spot = .ok metrics ∧
        ∃ f ∈ metricFilters config metrics, f.Raises)

/-- The body of the loop once the wings are there. -/
theorem evaluate_of_hasWings {farPe farCe : OptionLeg} {peGreeks ceGreeks : LegGreeks}
    (h : HasWings chainFar ctx offsets farPe farCe peGreeks ceGreeks) :
    evaluate price chainNear chainFar spot config ctx offsets =
      ((spreadFilter config farPe farCe).apply ([], 0) >>= fun acc =>
        match buildStructure chainNear chainFar config ctx offsets farPe farCe peGreeks ceGreeks with
        | none => .ok (some (rejected config offsets acc "no_breakeven"))
        | some st =>
          match computeMetrics price st ctx.farCarry config.lotSize none spot with
          | .error (.invalidStructure _) => .ok (some (rejected config offsets acc "no_breakeven"))
          | .error (.value message) => .error (.value message)
          | .ok metrics => (metricFilters config metrics).foldlM (fun acc f => f.apply acc) acc >>= fun acc' =>
              .ok (some ⟨offsets.1, offsets.2, some st, acc'.1, acc'.2, distance config offsets⟩)) := by
  unfold evaluate
  simp only [h.listed, h.quoted.1, h.quoted.2, h.peGreeks, h.ceGreeks, and_self, not_true_eq_false, if_false]
  rfl

/-- What a record says of its offsets. -/
structure RecordOf (price : FarPrice) (chainNear chainFar : OptionChain) (spot : ℚ) (config : SelectorConfig)
    (ctx : AtmContext) (offsets : ℤ × ℤ) (e : CandidateEvaluation) : Prop where
  /-- Its offsets. -/
  ofOffsets : (e.putOffset, e.callOffset) = offsets
  /-- Their distance. -/
  ofDistance : e.distFromStart = distance config offsets
  /-- With nothing failed the candidate passes, and nothing was added up. -/
  passes : e.failedFilters = [] →
    ∃ st, e.candidate = some st ∧ e.totalViolation = 0 ∧ Passes price chainNear chainFar spot config ctx offsets st
  /-- A candidate that passes has failed nothing. -/
  clean : ∀ st, Passes price chainNear chainFar spot config ctx offsets st → e.failedFilters = []

/-- The wings of a pair of offsets are what the chain lists. -/
theorem HasWings.unique {farPe farCe farPe' farCe' : OptionLeg}
    {peGreeks ceGreeks peGreeks' ceGreeks' : LegGreeks}
    (h : HasWings chainFar ctx offsets farPe farCe peGreeks ceGreeks)
    (h' : HasWings chainFar ctx offsets farPe' farCe' peGreeks' ceGreeks') :
    farPe = farPe' ∧ farCe = farCe' ∧ peGreeks = peGreeks' ∧ ceGreeks = ceGreeks' := by
  obtain ⟨rfl, rfl⟩ := Prod.mk.inj (Option.some.inj (h.listed.symm.trans h'.listed))
  exact ⟨rfl, rfl, Option.some.inj (h.peGreeks.symm.trans h'.peGreeks),
    Option.some.inj (h.ceGreeks.symm.trans h'.ceGreeks)⟩

theorem recordOf_rejected (h : ∀ st, ¬ Passes price chainNear chainFar spot config ctx offsets st)
    (acc : List String × ℚ) (name : String) :
    RecordOf price chainNear chainFar spot config ctx offsets (rejected config offsets acc name) where
  ofOffsets := rfl
  ofDistance := rfl
  passes := fun hnil => absurd hnil (by simp [rejected])
  clean := fun st hst => absurd hst (h st)

/-- Without both wings nothing raises, and what is recorded is a rejection. -/
theorem evaluate_of_no_wings
    (h : ∀ farPe farCe peGreeks ceGreeks, ¬ HasWings chainFar ctx offsets farPe farCe peGreeks ceGreeks) :
    evaluate price chainNear chainFar spot config ctx offsets = .ok none ∨
      ∃ name, evaluate price chainNear chainFar spot config ctx offsets =
        .ok (some (rejected config offsets ([], 0) name)) := by
  unfold evaluate
  split
  next => exact Or.inl rfl
  next farPe farCe hlisted =>
    split
    next => exact Or.inr ⟨_, rfl⟩
    next hquoted =>
      split
      next peGreeks ceGreeks hpe hce =>
        exact absurd ⟨hlisted, not_not.mp hquoted, hpe, hce⟩ (h farPe farCe peGreeks ceGreeks)
      next => exact Or.inr ⟨_, rfl⟩

/-- **Every record is what it says.** -/
theorem recordOf_evaluate {e : CandidateEvaluation}
    (h : evaluate price chainNear chainFar spot config ctx offsets = .ok (some e)) :
    RecordOf price chainNear chainFar spot config ctx offsets e := by
  by_cases hw : ∃ farPe farCe peGreeks ceGreeks, HasWings chainFar ctx offsets farPe farCe peGreeks ceGreeks
  case neg =>
    have hnone : ∀ st, ¬ Passes price chainNear chainFar spot config ctx offsets st := by
      rintro st ⟨farPe, farCe, peGreeks, ceGreeks, -, hwings, -⟩
      exact hw ⟨farPe, farCe, peGreeks, ceGreeks, hwings⟩
    rcases @evaluate_of_no_wings price chainNear chainFar spot config ctx offsets
      (fun farPe farCe peGreeks ceGreeks hwings => hw ⟨farPe, farCe, peGreeks, ceGreeks, hwings⟩) with
      heq | ⟨name, heq⟩
    · exact absurd (heq.symm.trans h) (by simp)
    · obtain rfl := Option.some.inj (Except.ok.inj (heq.symm.trans h))
      exact recordOf_rejected hnone _ _
  case pos =>
    obtain ⟨farPe, farCe, peGreeks, ceGreeks, hwings⟩ := hw
    rw [evaluate_of_hasWings hwings] at h
    obtain ⟨acc, hacc, h⟩ := except_bind_ok_iff.mp h
    split at h
    next hbuilt =>
      obtain rfl := Option.some.inj (Except.ok.inj h)
      refine recordOf_rejected ?_ _ _
      rintro st ⟨farPe', farCe', peGreeks', ceGreeks', metrics, hwings', hbuilt', -⟩
      obtain ⟨rfl, rfl, rfl, rfl⟩ := hwings.unique hwings'
      exact absurd (hbuilt.symm.trans hbuilt') (by simp)
    next st hbuilt =>
      have hsame : ∀ st', Passes price chainNear chainFar spot config ctx offsets st' →
          ∃ metrics, computeMetrics price st ctx.farCarry config.lotSize none spot = .ok metrics ∧
            PassesFilters config farPe farCe metrics := by
        rintro st' ⟨farPe', farCe', peGreeks', ceGreeks', metrics, hwings', hbuilt', hmetrics, hpass⟩
        obtain ⟨rfl, rfl, rfl, rfl⟩ := hwings.unique hwings'
        obtain rfl := Option.some.inj (hbuilt.symm.trans hbuilt')
        exact ⟨metrics, hmetrics, hpass⟩
      split at h
      next hmetrics =>
        obtain rfl := Option.some.inj (Except.ok.inj h)
        refine recordOf_rejected (fun st' hst' => ?_) _ _
        obtain ⟨metrics, hmetrics', -⟩ := hsame st' hst'
        exact absurd (hmetrics.symm.trans hmetrics') (by simp)
      next => exact absurd h (by simp)
      next metrics hmetrics =>
        obtain ⟨acc', hacc', h⟩ := except_bind_ok_iff.mp h
        obtain rfl := Option.some.inj (Except.ok.inj h)
        constructor
        case ofOffsets => rfl
        case ofDistance => rfl
        case passes =>
          intro hnil
          obtain ⟨hfilters, rfl⟩ := pass_of_foldlM_apply hacc' hnil
          obtain ⟨hspread, rfl⟩ := Filter.pass_of_apply hacc hnil
          exact ⟨st, rfl, rfl, farPe, farCe, peGreeks, ceGreeks, metrics, hwings, hbuilt, hmetrics,
            (passesFilters_iff _ _ _ _).mpr ⟨hspread, hfilters⟩⟩
        case clean =>
          intro st' hst'
          obtain ⟨metrics', hmetrics', hpass⟩ := hsame st' hst'
          obtain rfl := Except.ok.inj (hmetrics.symm.trans hmetrics')
          obtain ⟨hspread, hfilters⟩ := (passesFilters_iff _ _ _ _).mp hpass
          rw [Filter.apply_of_pass hspread] at hacc
          obtain rfl := Except.ok.inj hacc
          rw [foldlM_apply_of_pass hfilters] at hacc'
          obtain rfl := Except.ok.inj hacc'
          rfl

/-- Wings that are there leave a record. -/
theorem evaluate_ne_none {farPe farCe : OptionLeg} {peGreeks ceGreeks : LegGreeks}
    (h : HasWings chainFar ctx offsets farPe farCe peGreeks ceGreeks) :
    evaluate price chainNear chainFar spot config ctx offsets ≠ .ok none := by
  intro hnone
  rw [evaluate_of_hasWings h] at hnone
  obtain ⟨acc, -, hnone⟩ := except_bind_ok_iff.mp hnone
  split at hnone
  next => exact absurd hnone (by simp)
  next =>
    split at hnone
    next => exact absurd hnone (by simp)
    next => exact absurd hnone (by simp)
    next =>
      obtain ⟨acc', -, hnone⟩ := except_bind_ok_iff.mp hnone
      exact absurd hnone (by simp)

/-- What a candidate raises: a division by zero, or the ValueError of a grid without spots. -/
theorem evaluate_error {e : SelectError}
    (h : evaluate price chainNear chainFar spot config ctx offsets = .error e) :
    DividesByZero price chainNear chainFar spot config ctx offsets ∨ gridSpots spot = [] := by
  by_cases hw : ∃ farPe farCe peGreeks ceGreeks, HasWings chainFar ctx offsets farPe farCe peGreeks ceGreeks
  case neg =>
    rcases @evaluate_of_no_wings price chainNear chainFar spot config ctx offsets
      (fun farPe farCe peGreeks ceGreeks hwings => hw ⟨farPe, farCe, peGreeks, ceGreeks, hwings⟩) with
      heq | ⟨name, heq⟩ <;> exact absurd (heq.symm.trans h) (by simp)
  case pos =>
    obtain ⟨farPe, farCe, peGreeks, ceGreeks, hwings⟩ := hw
    rw [evaluate_of_hasWings hwings] at h
    cases hacc : (spreadFilter config farPe farCe).apply ([], 0) with
    | error e' => exact Or.inl ⟨farPe, farCe, peGreeks, ceGreeks, hwings,
        Or.inl (Filter.apply_error_iff.mp hacc).1⟩
    | ok acc =>
      rw [hacc] at h
      dsimp only [bind, Except.bind] at h
      split at h
      next => exact absurd h (by simp)
      next st hbuilt =>
        split at h
        next => exact absurd h (by simp)
        next message hvalue => exact Or.inr (computeMetrics_value hvalue)
        next metrics hmetrics =>
          refine Or.inl ⟨farPe, farCe, peGreeks, ceGreeks, hwings, Or.inr ⟨st, metrics, hbuilt, hmetrics, ?_⟩⟩
          split at h
          next e' hfold => exact foldlM_apply_error_iff.mp ⟨e', hfold⟩
          next => exact absurd h (by simp)

/-- A division by zero is raised. -/
theorem evaluate_of_dividesByZero (h : DividesByZero price chainNear chainFar spot config ctx offsets) :
    ∃ e, evaluate price chainNear chainFar spot config ctx offsets = .error e := by
  obtain ⟨farPe, farCe, peGreeks, ceGreeks, hwings, hraises⟩ := h
  rw [evaluate_of_hasWings hwings]
  cases hacc : (spreadFilter config farPe farCe).apply ([], 0) with
  | error e => exact ⟨e, rfl⟩
  | ok acc =>
    rcases hraises with hspread | ⟨st, metrics, hbuilt, hmetrics, hfilter⟩
    · rw [Filter.apply_error_iff.mpr ⟨hspread, rfl⟩] at hacc
      exact absurd hacc (by simp)
    · obtain ⟨e, he⟩ := foldlM_apply_error_iff.mpr hfilter
      refine ⟨e, ?_⟩
      simp only [bind, Except.bind, hbuilt, hmetrics]
      rw [he]

/-! ### The choice -/

/-- The pair of offsets is one of the loops'. -/
def OnGrid (config : SelectorConfig) (offsets : ℤ × ℤ) : Prop := ∃ candidates ∈ grid config, offsets ∈ candidates

/-- What candidates that pass are ranked by. -/
def rank (config : SelectorConfig) (offsets : ℤ × ℤ) : ℤ ×ₗ ℤ ×ₗ ℤ := toLex (distance config offsets, toLex offsets)

/-- A structure is returned exactly when a candidate passes, and it is that of the first in rank. -/
structure SelectsBest (price : FarPrice) (chainNear chainFar : OptionChain) (spot : ℚ) (config : SelectorConfig)
    (ctx : AtmContext) (result : Except SelectError (Except NoEntry GreekStructure)) : Prop where
  /-- A structure exactly when a candidate passes. -/
  complete : (∃ st, result = .ok (.ok st)) ↔
    ∃ offsets st, OnGrid config offsets ∧ Passes price chainNear chainFar spot config ctx offsets st
  /-- The first in rank of those that pass. -/
  best : ∀ st, result = .ok (.ok st) → ∃ offsets, OnGrid config offsets ∧
    Passes price chainNear chainFar spot config ctx offsets st ∧
    ∀ offsets' st', OnGrid config offsets' → Passes price chainNear chainFar spot config ctx offsets' st' →
      rank config offsets ≤ rank config offsets'

theorem mem_evaluations {candidates : List (ℤ × ℤ)} {records : List (Option CandidateEvaluation)}
    (h : candidates.mapM (evaluate price chainNear chainFar spot config ctx) = .ok records)
    {e : CandidateEvaluation} :
    e ∈ records.reduceOption ↔
      ∃ offsets ∈ candidates, evaluate price chainNear chainFar spot config ctx offsets = .ok (some e) := by
  rw [List.reduceOption_mem_iff]
  have hrecords := except_mapM_ok_iff.mp h
  constructor
  · intro he
    exact forall₂_left_of_mem hrecords _ he
  · rintro ⟨offsets, hoffsets, he⟩
    obtain ⟨o, ho, heq⟩ := forall₂_right_of_mem hrecords _ hoffsets
    obtain rfl := Except.ok.inj (heq.symm.trans he)
    exact ho

/-- Records without a failure are ranked by distance and offsets. -/
theorem rank_le_of_sortKey_le {e e' : CandidateEvaluation} {offsets offsets' : ℤ × ℤ}
    (he : RecordOf price chainNear chainFar spot config ctx offsets e)
    (he' : RecordOf price chainNear chainFar spot config ctx offsets' e')
    (hclean : e.failedFilters = []) (hclean' : e'.failedFilters = []) (hle : sortKey e ≤ sortKey e') :
    rank config offsets ≤ rank config offsets' := by
  obtain ⟨-, -, hzero, -⟩ := he.passes hclean
  obtain ⟨-, -, hzero', -⟩ := he'.passes hclean'
  simp only [sortKey, hclean, hclean', hzero, hzero', Prod.Lex.toLex_le_toLex, lt_irrefl, false_or,
    true_and] at hle
  rw [rank, rank, ← he.ofOffsets, ← he'.ofOffsets, Prod.Lex.toLex_le_toLex, Prod.Lex.toLex_le_toLex]
  simpa only [he.ofOffsets, he'.ofOffsets, ← he.ofDistance, ← he'.ofDistance] using hle

theorem failedFilters_eq_nil_of_sortKey_le {e e' : CandidateEvaluation} (hclean : e'.failedFilters = [])
    (hle : sortKey e ≤ sortKey e') : e.failedFilters = [] := by
  simp only [sortKey, hclean, Prod.Lex.toLex_le_toLex, List.length_nil] at hle
  refine List.length_eq_zero_iff.mp ?_
  rcases hle with hlt | ⟨heq, -⟩ <;> omega

/-- A candidate that passes has lots, quotes and a grid of spots. -/
theorem Passes.requires {st : GreekStructure} (h : Passes price chainNear chainFar spot config ctx offsets st) :
    0 < config.lots ∧ quotable chainFar ctx offsets = true ∧ gridSpots spot ≠ [] ∧
      evaluate price chainNear chainFar spot config ctx offsets ≠ .ok none := by
  obtain ⟨farPe, farCe, peGreeks, ceGreeks, metrics, hwings, hbuilt, hmetrics, -⟩ := h
  refine ⟨?_, ?_, fun hempty => computeMetrics_ne_ok hempty hmetrics, evaluate_ne_none hwings⟩
  · unfold buildStructure at hbuilt
    split at hbuilt
    next h => exact h.1
    next => exact absurd hbuilt (by simp)
  · simp [quotable, hwings.listed, hwings.quoted]

/-- A structure is chosen exactly when the least record has failed nothing. -/
theorem choose_eq_ok_iff {candidates : List (ℤ × ℤ)} {evaluations : List CandidateEvaluation}
    {st : GreekStructure} :
    choose chainFar ctx candidates evaluations = .ok st ↔
      candidates.any (quotable chainFar ctx) = true ∧ ∃ best rest,
        (evaluations.insertionSort fun e e' => sortKey e ≤ sortKey e') = best :: rest ∧
        best.failedFilters = [] ∧ best.candidate = some st := by
  unfold choose
  constructor
  · intro h
    split at h
    next => exact absurd h (by simp)
    next hany =>
      split at h
      next => exact absurd h (by simp)
      next best rest hsort =>
        split at h
        next st' hclean hst' =>
          obtain rfl := Except.ok.inj h
          exact ⟨by simpa using (not_or.mp hany).2, best, rest, hsort, hclean, hst'⟩
        next => exact absurd h (by simp)
  · rintro ⟨hany, best, rest, hsort, hclean, hst⟩
    have hne : evaluations ≠ [] := by
      rintro rfl
      exact absurd hsort (by simp)
    simp only [hany, hsort, hclean, hst, List.isEmpty_iff, hne, not_true_eq_false, or_self, if_false]

theorem selectWings_ok_iff {result : Except NoEntry GreekStructure} :
    selectWings price chainNear chainFar spot config ctx = .ok result ↔
      0 < config.lots ∧ ∃ candidates ∈ grid config, ∃ records,
        candidates.mapM (evaluate price chainNear chainFar spot config ctx) = .ok records ∧
        choose chainFar ctx candidates records.reduceOption = result := by
  unfold selectWings
  split
  next hlots =>
    refine iff_of_false (by simp) ?_
    rintro ⟨hpos, -⟩
    omega
  next hlots =>
    split
    next hnone => simp [hnone]
    next candidates hgrid =>
      rw [except_bind_ok_iff, hgrid]
      constructor
      · rintro ⟨records, hrecords, h⟩
        exact ⟨not_le.mp hlots, candidates, rfl, records, hrecords, Except.ok.inj h⟩
      · rintro ⟨-, candidates', hcandidates, records, hrecords, h⟩
        obtain rfl := Option.some.inj hcandidates
        exact ⟨records, hrecords, congrArg Except.ok h⟩

/-- Where some candidate divides by zero, nothing is returned. -/
theorem selectWings_ne_ok (h : ∃ offsets, OnGrid config offsets ∧
      DividesByZero price chainNear chainFar spot config ctx offsets) (result : Except NoEntry GreekStructure) :
    selectWings price chainNear chainFar spot config ctx ≠ .ok result := by
  obtain ⟨offsets, ⟨candidates, hgrid, hmem⟩, hzero⟩ := h
  intro hok
  obtain ⟨-, candidates', hgrid', records, hrecords, -⟩ := selectWings_ok_iff.mp hok
  obtain rfl := Option.some.inj (hgrid.symm.trans hgrid')
  obtain ⟨e, he⟩ := evaluate_of_dividesByZero hzero
  obtain ⟨o, -, ho⟩ := forall₂_right_of_mem (except_mapM_ok_iff.mp hrecords) _ hmem
  exact absurd (he.symm.trans ho) (by simp)

/-- A candidate that passes is on record, with nothing failed. -/
theorem Passes.recorded {candidates : List (ℤ × ℤ)} {records : List (Option CandidateEvaluation)}
    (hrecords : candidates.mapM (evaluate price chainNear chainFar spot config ctx) = .ok records)
    (hmem : offsets ∈ candidates) {st : GreekStructure}
    (hpass : Passes price chainNear chainFar spot config ctx offsets st) :
    ∃ e ∈ records.reduceOption, e.failedFilters = [] ∧
      RecordOf price chainNear chainFar spot config ctx offsets e := by
  obtain ⟨o, -, heval⟩ := forall₂_right_of_mem (except_mapM_ok_iff.mp hrecords) _ hmem
  obtain ⟨e, rfl⟩ := Option.ne_none_iff_exists'.mp fun hnone => hpass.requires.2.2.2 (hnone ▸ heval)
  have hrecord := recordOf_evaluate heval
  exact ⟨e, (mem_evaluations hrecords).mpr ⟨offsets, hmem, heval⟩, hrecord.clean st hpass, hrecord⟩

/-- Where no candidate divides by zero and one passes, a structure is returned. -/
theorem selectWings_returns {st : GreekStructure} (hgrid : OnGrid config offsets)
    (hpass : Passes price chainNear chainFar spot config ctx offsets st)
    (hzero : ¬ ∃ offsets, OnGrid config offsets ∧
      DividesByZero price chainNear chainFar spot config ctx offsets) :
    ∃ st, selectWings price chainNear chainFar spot config ctx = .ok (.ok st) := by
  obtain ⟨candidates, hcandidates, hmem⟩ := hgrid
  obtain ⟨hlots, hquotable, hspots, -⟩ := hpass.requires
  cases hm : candidates.mapM (evaluate price chainNear chainFar spot config ctx) with
  | error e =>
    obtain ⟨offsets', hmem', he⟩ := except_mapM_error hm
    rcases evaluate_error he with h | h
    · exact absurd ⟨offsets', ⟨candidates, hcandidates, hmem'⟩, h⟩ hzero
    · exact absurd h hspots
  | ok records =>
    obtain ⟨e, hin, hclean, -⟩ := hpass.recorded hm hmem
    cases hsort : records.reduceOption.insertionSort (fun e e' => sortKey e ≤ sortKey e') with
    | nil =>
      have hempty := List.mem_insertionSort (fun e e' => sortKey e ≤ sortKey e') (x := e)
        (l := records.reduceOption)
      rw [hsort] at hempty
      exact absurd (hempty.mpr hin) List.not_mem_nil
    | cons best rest =>
      obtain ⟨hbest, hleast⟩ := le_of_insertionSort_eq_cons sortKey hsort
      obtain ⟨offsets', -, heval'⟩ := (mem_evaluations hm).mp hbest
      have hfirst := failedFilters_eq_nil_of_sortKey_le hclean (hleast e hin)
      obtain ⟨st', hst', -, -⟩ := (recordOf_evaluate heval').passes hfirst
      have hany : candidates.any (quotable chainFar ctx) = true :=
        List.any_eq_true.mpr ⟨offsets, hmem, hquotable⟩
      exact ⟨st', selectWings_ok_iff.mpr ⟨hlots, candidates, hcandidates, records, hm,
        choose_eq_ok_iff.mpr ⟨hany, best, rest, hsort, hfirst, hst'⟩⟩⟩

/-- What is returned passes, and comes first in rank. -/
theorem selectWings_best {st : GreekStructure}
    (h : selectWings price chainNear chainFar spot config ctx = .ok (.ok st)) :
    ∃ offsets, OnGrid config offsets ∧ Passes price chainNear chainFar spot config ctx offsets st ∧
      ∀ offsets' st', OnGrid config offsets' → Passes price chainNear chainFar spot config ctx offsets' st' →
        rank config offsets ≤ rank config offsets' := by
  obtain ⟨-, candidates, hgrid, records, hrecords, hchoose⟩ := selectWings_ok_iff.mp h
  obtain ⟨-, best, rest, hsort, hclean, hst⟩ := choose_eq_ok_iff.mp hchoose
  obtain ⟨hbest, hleast⟩ := le_of_insertionSort_eq_cons sortKey hsort
  obtain ⟨offsets, hmem, heval⟩ := (mem_evaluations hrecords).mp hbest
  have hrecord := recordOf_evaluate heval
  obtain ⟨st', hst', -, hpass⟩ := hrecord.passes hclean
  obtain rfl := Option.some.inj (hst.symm.trans hst')
  refine ⟨offsets, ⟨candidates, hgrid, hmem⟩, hpass, ?_⟩
  rintro offsets' st' ⟨candidates', hgrid', hmem'⟩ hpass'
  obtain rfl := Option.some.inj (hgrid.symm.trans hgrid')
  obtain ⟨e', hin', hclean', hrecord'⟩ := hpass'.recorded hrecords hmem'
  exact rank_le_of_sortKey_le hrecord hrecord' hclean hclean' (hleast e' hin')

/-- **The selection is complete and optimal** exactly when no candidate divides by a zero threshold, or
none passes. -/
theorem select_best_iff {exclude : List ℚ} (hatm : atmChecks chainNear chainFar spot config exclude = .ok ctx) :
    SelectsBest price chainNear chainFar spot config ctx (select price chainNear chainFar spot config exclude) ↔
      ¬ ((∃ offsets, OnGrid config offsets ∧ DividesByZero price chainNear chainFar spot config ctx offsets) ∧
        ∃ offsets st, OnGrid config offsets ∧ Passes price chainNear chainFar spot config ctx offsets st) := by
  have hselect : select price chainNear chainFar spot config exclude =
      selectWings price chainNear chainFar spot config ctx := by
    simp only [select, hatm]
  rw [hselect]
  constructor
  · rintro hbest ⟨hzero, hpasses⟩
    obtain ⟨st, hst⟩ := hbest.complete.mpr hpasses
    exact selectWings_ne_ok hzero _ hst
  · intro h
    refine ⟨⟨?_, ?_⟩, fun st hst => selectWings_best hst⟩
    · rintro ⟨st, hst⟩
      obtain ⟨offsets, hgrid, hpass, -⟩ := selectWings_best hst
      exact ⟨offsets, st, hgrid, hpass⟩
    · rintro ⟨offsets, st, hgrid, hpass⟩
      exact selectWings_returns hgrid hpass fun hzero => h ⟨hzero, offsets, st, hgrid, hpass⟩

end

/-! ### A threshold of zero -/

/-- A quote with a spread of 0.1. -/
def quoteAt (price delta vega strike : ℚ) : OptionLeg where
  ltp := price
  bid := price - 1 / 20
  ask := price + 1 / 20
  delta := some delta
  vega := some vega
  iv := some 0
  strike := strike

/-- A near chain around 100. -/
def nearChain : OptionChain where
  underlyingSpot := 100
  expiry := 739920
  strikes := Dict.empty.set 100 ⟨some (quoteAt 2 (1 / 2) 10 100), some (quoteAt 2 (-1 / 2) 10 100)⟩

/-- A far chain around 100, whose wings four points out have less delta. -/
def farChain : OptionChain where
  underlyingSpot := 100
  expiry := 739948
  strikes := ((((Dict.empty.set 100 ⟨some (quoteAt 3 (1 / 2) 14 100), some (quoteAt 3 (-1 / 2) 14 100)⟩).set 97
    ⟨none, some (quoteAt (3 / 4) (-1 / 4) 12 97)⟩).set 96 ⟨none, some (quoteAt (1 / 2) (-1 / 5) 11 96)⟩).set 103
    ⟨some (quoteAt (3 / 4) (1 / 4) 12 103), none⟩).set 104 ⟨some (quoteAt (1 / 2) (1 / 5) 11 104), none⟩

/-- A grid of wings three and four points out. -/
def narrowSelector (deltaCap : ℚ) : SelectorConfig := { monthlySelector with
  putWingStartPoints := 3
  callWingStartPoints := 3
  minWingPoints := 3
  deltaCap := deltaCap
  wingStepPoints := 1
  maxWingSearchSteps := 1 }

/-- What the checks leave of the two chains. -/
def narrowContext : AtmContext where
  atmStrike := 100
  nearCe := quoteAt 2 (1 / 2) 10 100
  nearPe := quoteAt 2 (-1 / 2) 10 100
  nearCeGreeks := ⟨1 / 2, 10, 0⟩
  nearPeGreeks := ⟨-1 / 2, 10, 0⟩
  farCarry := 0

theorem atmChecks_narrow (deltaCap : ℚ) :
    atmChecks nearChain farChain 100 (narrowSelector deltaCap) [] = .ok narrowContext := by
  have h : okWith (fun ctx => decide (ctx = narrowContext))
    (atmChecks nearChain farChain 100 (narrowSelector 0) []) =
      true := by decide +kernel
  obtain ⟨ctx, hctx, heq⟩ := okWith_iff.mp h
  exact (of_decide_eq_true heq) ▸ hctx

/-- The selection on the two chains. -/
theorem select_best_iff_narrow :
    SelectsBest intrinsicPrice nearChain farChain 100 (narrowSelector (1 / 10)) narrowContext
        (select intrinsicPrice nearChain farChain 100 (narrowSelector (1 / 10)) []) ↔
      ¬ ((∃ offsets, OnGrid (narrowSelector (1 / 10)) offsets ∧
          DividesByZero intrinsicPrice nearChain farChain 100 (narrowSelector (1 / 10)) narrowContext offsets) ∧
        ∃ offsets st, OnGrid (narrowSelector (1 / 10)) offsets ∧
          Passes intrinsicPrice nearChain farChain 100 (narrowSelector (1 / 10)) narrowContext offsets st) :=
  select_best_iff (atmChecks_narrow (1 / 10))

/-- No net delta allowed: the wings three points out have none and pass, the uneven pairs divide by the
cap. -/
theorem zero_cap_raises :
    atmChecks nearChain farChain 100 (narrowSelector 0) [] = .ok narrowContext ∧
      ¬ SelectsBest intrinsicPrice nearChain farChain 100 (narrowSelector 0) narrowContext
        (select intrinsicPrice nearChain farChain 100 (narrowSelector 0) []) := by
  refine ⟨atmChecks_narrow 0, fun hbest => ?_⟩
  have hgrid : grid (narrowSelector 0) = some [(3, 3), (3, 4), (4, 3), (4, 4)] := by decide +kernel
  have hevaluated : okWith (fun o => o.any fun e => e.failedFilters.isEmpty)
      (evaluate intrinsicPrice nearChain farChain 100 (narrowSelector 0) narrowContext (3, 3)) = true := by
    decide +kernel
  have hraised : okWith (fun _ => true)
      (evaluate intrinsicPrice nearChain farChain 100 (narrowSelector 0) narrowContext (3, 4)) = false := by
    decide +kernel
  obtain ⟨o, heval, hclean⟩ := okWith_iff.mp hevaluated
  obtain ⟨e, rfl, hclean⟩ := (Option.any_eq_true _ _).mp hclean
  obtain ⟨st, -, -, hpass⟩ := (recordOf_evaluate heval).passes (List.isEmpty_iff.mp hclean)
  obtain ⟨st', hst'⟩ := hbest.complete.mpr ⟨(3, 3), st, ⟨_, hgrid, List.mem_cons_self⟩, hpass⟩
  simp only [select, atmChecks_narrow] at hst'
  obtain ⟨-, candidates, hcandidates, records, hrecords, -⟩ := selectWings_ok_iff.mp hst'
  obtain rfl := Option.some.inj (hgrid.symm.trans hcandidates)
  obtain ⟨o', -, ho'⟩ := forall₂_right_of_mem (except_mapM_ok_iff.mp hrecords) (3, 4) (by simp)
  rw [ho'] at hraised
  exact absurd hraised (by simp [okWith])

end NiftyShield.NiftyCalendar
