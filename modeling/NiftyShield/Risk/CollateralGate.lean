import NiftyShield.Paper.LegRows
import NiftyShield.Strategy.OverlayTenor
import Mathlib.Algebra.BigOperators.Group.Finset.Basic
import Mathlib.Algebra.BigOperators.Group.Finset.Piecewise
import Mathlib.Algebra.Order.BigOperators.Group.Finset
import Mathlib.Algebra.Order.Floor.Ring
import Mathlib.Data.Rat.Floor
import Mathlib.Tactic.FieldSimp
import Mathlib.Tactic.Linarith

/-!
# The gate on the collateral

`check_collateral_capacity` (`src/risk/collateral_gate.py`) warns of an entry for which the pledged
NiftyBees units are worth too little (`compute_max_lots`, `src/paper/constants.py`). The monthly books
draw on the units of the spot track, the yearly ones on a number of their own. A roll of the put and an
entry of an overlay ask it before they write (`src/strategy/csp_roll_executor.py`,
`scripts/strategies/three_track/paper_3track_overlay_entry.py`).

## What is proved

* `checkCollateralCapacity_eq_none_iff`: it is silent exactly when the units are worth the open lots
  and those that are asked for;
* `covered_of_silent`: an entry that it is silent about leaves the open lots covered, if it opens no more
  than it has asked for.

## Honest scope

`Decimal` is exact, and the time of a violation is left out. How many lots are asked for is up to the
caller: a roll asks for as many as it has units, an entry of an overlay for as many as it has legs.
-/

namespace NiftyShield.Risk

open NiftyShield.Instruments NiftyShield.Lib NiftyShield.Paper NiftyShield.Strategy

/-- `compute_max_lots`. -/
def computeMaxLots (niftybeesUnits : ℤ) (niftySpot niftybeesLtp : ℚ) (lotSize : ℤ) : ℤ :=
  if niftySpot ≤ 0 ∨ niftybeesLtp ≤ 0 ∨ lotSize ≤ 0 then 0
  else ⌊niftybeesUnits / (niftySpot / niftybeesLtp * lotSize)⌋

/-- `_COLLATERAL_DRAWING_STRATEGIES`. -/
def collateralDrawingStrategies : List String := ["paper_csp_nifty_v1", "paper_nifty_overlay"]

/-- `YEARLY_NIFTYBEES_UNITS`. -/
def yearlyNiftybeesUnits : ℤ := 5400

/-- `GateViolation`. -/
structure GateViolation where
  /-- `gate_name`. -/
  gateName : String
  /-- `threshold`. -/
  threshold : String
  /-- `actual`. -/
  actual : String
  /-- `strategy_name`. -/
  strategyName : String
  deriving DecidableEq

section Gate

variable (lookup : Option InstrumentLookup) (T : PaperTrades)

/-- `_open_lots_across_strategies`. -/
def openLotsAcrossStrategies (lotSize : ℤ) (strategies : List String) : ℤ :=
  if lotSize ≤ 0 then 0
  else (strategies.flatMap fun s => (T.getPositions lookup s).map fun p => |p.netQty|).sum / lotSize

/-- `_niftybees_units_held`. -/
def niftybeesUnitsHeld : ℤ :=
  (((T.getPositions lookup "paper_nifty_spot").filter fun p => 0 < p.netQty).map (·.netQty)).sum

/-- The units and the strategies of a pool. -/
def collateralPool (strategyName : String) : ℤ × List String :=
  if strategyName ∈ yearlyOverlayStrategies then (yearlyNiftybeesUnits, yearlyOverlayStrategies)
  else (niftybeesUnitsHeld lookup T, collateralDrawingStrategies)

/-- `check_collateral_capacity`; the violation is recorded as well. -/
def checkCollateralCapacity (strategyName : String) (lotsRequested : ℤ) (niftySpot niftybeesLtp : ℚ) (lotSize : ℤ) :
    Option GateViolation :=
  let pool := collateralPool lookup T strategyName
  let maxLots := computeMaxLots pool.1 niftySpot niftybeesLtp lotSize
  let projected := openLotsAcrossStrategies lookup T lotSize pool.2 + lotsRequested
  if projected ≤ maxLots then none
  else some
    { gateName := "niftybees_collateral_capacity"
      threshold := toString maxLots
      actual := toString projected
      strategyName := strategyName }

end Gate

section Capacity

variable {lookup : Option InstrumentLookup} {T : PaperTrades}

/-- The lots that units cover. -/
theorem le_computeMaxLots_iff {units lotSize lots : ℤ} {niftySpot niftybeesLtp : ℚ} (hunits : 0 ≤ units) :
    lots ≤ computeMaxLots units niftySpot niftybeesLtp lotSize ↔
      lots ≤ 0 ∨ (0 < niftySpot ∧ 0 < niftybeesLtp ∧ 0 < lotSize) ∧
        lots * (lotSize * niftySpot) ≤ units * niftybeesLtp := by
  unfold computeMaxLots
  by_cases hprices : niftySpot ≤ 0 ∨ niftybeesLtp ≤ 0 ∨ lotSize ≤ 0
  · rw [if_pos hprices]
    refine (or_iff_left fun h => ?_).symm
    obtain ⟨hspot, hltp, hlot⟩ := h.1
    rcases hprices with hprice | hprice | hprice
    · exact not_lt.mpr hprice hspot
    · exact not_lt.mpr hprice hltp
    · exact not_lt.mpr hprice hlot
  · obtain ⟨hspot, hltp, hlot⟩ : 0 < niftySpot ∧ 0 < niftybeesLtp ∧ 0 < lotSize := by
      simpa [not_or, not_le] using hprices
    have hlotQ : (0 : ℚ) < lotSize := by exact_mod_cast hlot
    have hper : (0 : ℚ) < niftySpot / niftybeesLtp * lotSize := mul_pos (div_pos hspot hltp) hlotQ
    have hcovered : lots ≤ ⌊(units : ℚ) / (niftySpot / niftybeesLtp * lotSize)⌋ ↔
        lots * (lotSize * niftySpot) ≤ units * niftybeesLtp := by
      rw [Int.le_floor, le_div_iff₀ hper, ← mul_le_mul_iff_left₀ hltp]
      have hclear : (lots : ℚ) * (niftySpot / niftybeesLtp * lotSize) * niftybeesLtp = lots * (lotSize * niftySpot) := by
        field_simp
      rw [hclear]
    rw [if_neg hprices, hcovered]
    constructor
    · exact fun h => Or.inr ⟨⟨hspot, hltp, hlot⟩, h⟩
    · rintro (hlots | ⟨-, h⟩)
      · -- no lots need no units
        have hlotsQ : (lots : ℚ) ≤ 0 := by exact_mod_cast hlots
        have hunitsQ : (0 : ℚ) ≤ units := by exact_mod_cast hunits
        exact (mul_nonpos_of_nonpos_of_nonneg hlotsQ (mul_pos hlotQ hspot).le).trans (mul_nonneg hunitsQ hltp.le)
      · exact h

theorem collateralPool_nonneg (strategyName : String) : 0 ≤ (collateralPool lookup T strategyName).1 := by
  unfold collateralPool
  split
  · decide
  · refine List.sum_nonneg fun q hq => ?_
    obtain ⟨p, hp, rfl⟩ := List.mem_map.mp hq
    exact (of_decide_eq_true (List.mem_filter.mp hp).2).le

/-- **The gate is silent** exactly when there is nothing to cover, or the units of the pool are worth the
lots that are open in it and those that are asked for. -/
theorem checkCollateralCapacity_eq_none_iff (strategyName : String) (lotsRequested : ℤ)
    (niftySpot niftybeesLtp : ℚ) (lotSize : ℤ) :
    checkCollateralCapacity lookup T strategyName lotsRequested niftySpot niftybeesLtp lotSize = none ↔
      openLotsAcrossStrategies lookup T lotSize (collateralPool lookup T strategyName).2 + lotsRequested ≤ 0 ∨
      (0 < niftySpot ∧ 0 < niftybeesLtp ∧ 0 < lotSize) ∧
        ((openLotsAcrossStrategies lookup T lotSize (collateralPool lookup T strategyName).2 + lotsRequested : ℤ) : ℚ) *
          (lotSize * niftySpot) ≤ (collateralPool lookup T strategyName).1 * niftybeesLtp := by
  rw [← le_computeMaxLots_iff (collateralPool_nonneg strategyName), checkCollateralCapacity]
  split
  next h => exact iff_of_true rfl h
  next h => exact iff_of_false (by simp) h

end Capacity

/-! ### The lots that are opened -/

section Opened

variable {lookup : Option InstrumentLookup} {T : PaperTrades} {s : String}

/-- The units that a strategy has open. -/
def openUnits (lookup : Option InstrumentLookup) (T : PaperTrades) (s : String) : ℤ :=
  ((T.getPositions lookup s).map fun p => |p.netQty|).sum

/-- They are those of all the pairs that it has traded. -/
theorem openUnits_eq (ks : Finset (String × String))
    (hks : ∀ k ∈ Grouping.keys PaperTrade.legInstrument (T.getTrades s), k ∈ ks) :
    openUnits lookup T s = ∑ k ∈ ks, |T.netQty s k| := by
  have hgroup : ∀ k, ((groupPosition lookup s (T.getTrades s) k).elim 0 fun p => |p.netQty|) = |T.netQty s k| := by
    intro k
    rw [groupPosition_eq, PaperTrades.netQty_eq]
    split
    next hflat => rw [hflat, Option.elim_none, abs_zero]
    next => rfl
  have hkeys : (Grouping.keys PaperTrade.legInstrument (T.getTrades s)).toFinset ⊆ ks := fun k hk =>
    hks k (List.mem_toFinset.mp hk)
  rw [openUnits, PaperTrades.getPositions, Grouping.sum_filterMap, ← Finset.sum_subset hkeys,
    List.sum_toFinset _ (Grouping.nodup_keys _ _)]
  · simp only [hgroup]
  · intro k _ hk
    -- a pair without trades holds nothing
    have hnone : Grouping.group PaperTrade.legInstrument (T.getTrades s) k = [] :=
      Grouping.group_eq_nil_of_not_mem fun h => hk (List.mem_toFinset.mpr h)
    rw [PaperTrades.netQty_eq, legInstrumentTrades, hnone, netOf_nil, abs_zero]

/-- A trade opens at most its units, and those in its strategy. -/
theorem openUnits_recordTrade_le (t : PaperTrade) :
    openUnits lookup (T.recordTrade t).1 s ≤ openUnits lookup T s + if t.strategyName = s then (t.quantity : ℤ) else 0 := by
  have hqty : (0 : ℤ) ≤ if t.strategyName = s then (t.quantity : ℤ) else 0 := by split <;> positivity
  cases hkey : T.hasKey t.uniqueKey with
  | true =>
    rw [PaperTrades.recordTrade_duplicate hkey]
    exact le_add_of_nonneg_right hqty
  | false =>
    have hsigned : |t.signedQty| = t.quantity := by
      unfold PaperTrade.signedQty
      cases t.action <;> simp
    let ks := (Grouping.keys PaperTrade.legInstrument (T.getTrades s) ++
      Grouping.keys PaperTrade.legInstrument ((T.recordTrade t).1.getTrades s)).toFinset
    have hstep : ∀ k ∈ ks, |(T.recordTrade t).1.netQty s k| ≤
        |T.netQty s k| + if t.legInstrument = k then (if t.strategyName = s then (t.quantity : ℤ) else 0) else 0 := by
      intro k _
      rw [PaperTrades.netQty_recordTrade hkey, PaperTrades.inPair]
      by_cases hs : t.strategyName = s <;> by_cases hk : t.legInstrument = k
      · simpa [hs, hk, hsigned] using abs_add_le (T.netQty s k) t.signedQty
      all_goals simp [hs, hk]
    rw [openUnits_eq ks fun k hk => List.mem_toFinset.mpr (List.mem_append_right _ hk),
      openUnits_eq ks fun k hk => List.mem_toFinset.mpr (List.mem_append_left _ hk)]
    refine (Finset.sum_le_sum hstep).trans ?_
    rw [Finset.sum_add_distrib, Finset.sum_ite_eq]
    gcongr
    split
    · exact le_rfl
    · exact hqty

/-- The units that a pool has open. -/
def poolUnits (lookup : Option InstrumentLookup) (T : PaperTrades) (strategies : List String) : ℤ :=
  (strategies.map (openUnits lookup T)).sum

theorem openLotsAcrossStrategies_eq {lotSize : ℤ} (hlot : 0 < lotSize) (strategies : List String) :
    openLotsAcrossStrategies lookup T lotSize strategies = poolUnits lookup T strategies / lotSize := by
  rw [openLotsAcrossStrategies, if_neg (not_le.mpr hlot), List.flatMap_def, List.sum_flatten, List.map_map, poolUnits]
  rfl

/-- Trades open at most their units in a pool. -/
theorem poolUnits_recordTrade_le {strategies : List String} (hnodup : strategies.Nodup) (t : PaperTrade) :
    poolUnits lookup (T.recordTrade t).1 strategies ≤ poolUnits lookup T strategies + t.quantity := by
  rw [poolUnits, poolUnits, ← List.sum_toFinset _ hnodup, ← List.sum_toFinset _ hnodup]
  refine (Finset.sum_le_sum fun s _ => openUnits_recordTrade_le t).trans ?_
  rw [Finset.sum_add_distrib, Finset.sum_ite_eq]
  gcongr
  split
  · exact le_rfl
  · positivity

/-- Recording trades one after another. -/
def recordAll (T : PaperTrades) (ts : List PaperTrade) : PaperTrades := ts.foldl (fun T t => (T.recordTrade t).1) T

theorem poolUnits_recordAll_le {strategies : List String} (hnodup : strategies.Nodup) (ts : List PaperTrade) :
    poolUnits lookup (recordAll T ts) strategies ≤
      poolUnits lookup T strategies + (ts.map fun t => (t.quantity : ℤ)).sum := by
  induction ts generalizing T with
  | nil => simp [recordAll]
  | cons t ts ih =>
    have hrest := @ih (T.recordTrade t).1
    have hstep := @poolUnits_recordTrade_le lookup T strategies hnodup t
    rw [List.map_cons, List.sum_cons]
    exact hrest.trans (by linarith)

theorem nodup_collateralPool (strategyName : String) : (collateralPool lookup T strategyName).2.Nodup := by
  unfold collateralPool
  split
  · exact (by decide : yearlyOverlayStrategies.Nodup)
  · exact (by decide : collateralDrawingStrategies.Nodup)

/-- **An entry that the gate is silent about** leaves the open lots of its pool covered, if it opens no
more lots than it has asked for: the units of before are worth them. -/
theorem covered_of_silent {strategyName : String} {lotsRequested : ℤ} {niftySpot niftybeesLtp : ℚ} {lotSize : ℤ}
    (hlot : 0 < lotSize)
    (hsilent : checkCollateralCapacity lookup T strategyName lotsRequested niftySpot niftybeesLtp lotSize = none)
    {ts : List PaperTrade} (hts : (ts.map fun t => (t.quantity : ℤ)).sum ≤ lotsRequested * lotSize) :
    openLotsAcrossStrategies lookup (recordAll T ts) lotSize (collateralPool lookup T strategyName).2 ≤ 0 ∨
      (openLotsAcrossStrategies lookup (recordAll T ts) lotSize (collateralPool lookup T strategyName).2 : ℚ) *
        (lotSize * niftySpot) ≤ (collateralPool lookup T strategyName).1 * niftybeesLtp := by
  have hopened : openLotsAcrossStrategies lookup (recordAll T ts) lotSize (collateralPool lookup T strategyName).2 ≤
      openLotsAcrossStrategies lookup T lotSize (collateralPool lookup T strategyName).2 + lotsRequested := by
    have hunits := @poolUnits_recordAll_le lookup T _ (@nodup_collateralPool lookup T strategyName) ts
    rw [openLotsAcrossStrategies_eq hlot, openLotsAcrossStrategies_eq hlot, ← Int.add_mul_ediv_right _ _ hlot.ne']
    exact Int.ediv_le_ediv hlot (by linarith)
  rcases (checkCollateralCapacity_eq_none_iff _ _ _ _ _).mp hsilent with hnothing | ⟨⟨hspot, -, -⟩, hcovered⟩
  · exact Or.inl (hopened.trans hnothing)
  · refine Or.inr (le_trans ?_ hcovered)
    have hlotQ : (0 : ℚ) < lotSize := by exact_mod_cast hlot
    gcongr

/-- A call of a yearly book. -/
def yearlyCall : List PaperTrade :=
  (PaperTrade.validate "paper_nifty_overlay_yearly_cc" "overlay_cc" "NSE_FO|65900" 739850 .sell 65 120 "" none
    .open).toList

/-- 5400 units at 290 are worth one lot at 24000. -/
theorem covered_of_silent_yearly :
    openLotsAcrossStrategies none (recordAll .empty yearlyCall) 65 yearlyOverlayStrategies ≤ 0 ∨
      (openLotsAcrossStrategies none (recordAll .empty yearlyCall) 65 yearlyOverlayStrategies : ℚ) *
        ((65 : ℤ) * 24000) ≤ (5400 : ℤ) * 290 :=
  @covered_of_silent none .empty "paper_nifty_overlay_yearly_cc" 1 24000 290 65 (by decide) (by decide +kernel)
    yearlyCall (by decide +kernel)

end Opened

end NiftyShield.Risk
