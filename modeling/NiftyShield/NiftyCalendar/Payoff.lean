import NiftyShield.Lib.Raising
import NiftyShield.Lib.Rounding
import NiftyShield.Lib.Unimodal
import NiftyShield.NiftyCalendar.Structure
import Mathlib.Algebra.Order.Field.Rat
import Mathlib.Data.List.MinMax
import Mathlib.Tactic.Linarith
import Mathlib.Tactic.NormNum

/-!
# Payoff of a calendar structure

`payoff_at` and `compute_metrics` (`src/nifty_calendar/payoff.py`): the profit and loss at the near
expiry, near legs at intrinsic value and far legs repriced, sampled at every point within 15 % of
the spot, and the extrema and breakevens read off the samples.

## What is proved

* `metrics_bracket_body`: with far values whose slopes are those of a call and a put, the samples
  rise up to the strike of the body and fall after it; so the breakevens returned are the only
  changes of sign, on either side of the body, and the largest profit is at the body.

## Honest scope

The far price, `Decimal(str(round(b76_price(…), 4)))`, is a parameter: it is computed in floats.
The lot size is a natural number. `as_of` is a date or a naive datetime, in microseconds; an aware
one raises a TypeError.
-/

namespace NiftyShield.NiftyCalendar

open NiftyShield.Lib NiftyShield.Lib.Raising

/-! ### Structures with Greeks -/

/-- The Greeks a `CalendarLeg` carries. -/
structure LegGreeks where
  /-- Delta. -/
  delta : ℚ
  /-- Vega. -/
  vega : ℚ
  /-- Implied volatility, in percent. -/
  iv : ℚ
  deriving DecidableEq

/-- A `CalendarStructure` with the Greeks of its legs. -/
structure GreekStructure extends CalendarStructure where
  /-- Of the short call. -/
  shortCeGreeks : LegGreeks
  /-- Of the short put. -/
  shortPeGreeks : LegGreeks
  /-- Of the call wing. -/
  longCeGreeks : LegGreeks
  /-- Of the put wing. -/
  longPeGreeks : LegGreeks

/-- `net_credit_per_unit`. -/
def CalendarStructure.netCreditPerUnit (st : CalendarStructure) : ℚ :=
  (st.shortCe.entryPrice + st.shortPe.entryPrice) - (st.longCeWing.entryPrice + st.longPeWing.entryPrice)

/-- `net_credit_per_lot`. -/
def CalendarStructure.netCreditPerLot (st : CalendarStructure) (lotSize : ℕ) : ℚ := st.netCreditPerUnit * lotSize

/-- `StructureMetrics`. -/
structure StructureMetrics where
  /-- `net_delta`. -/
  netDelta : ℚ
  /-- `net_vega`. -/
  netVega : ℚ
  /-- `risk_reward`. -/
  riskReward : ℚ
  /-- `breakeven_low`. -/
  breakevenLow : ℚ
  /-- `breakeven_high`. -/
  breakevenHigh : ℚ
  /-- `breakeven_low_pct`. -/
  breakevenLowPct : ℚ
  /-- `breakeven_high_pct`. -/
  breakevenHighPct : ℚ
  /-- `loss_at_breakeven_low_per_lot`. -/
  lossAtBreakevenLowPerLot : ℚ
  /-- `loss_at_breakeven_high_per_lot`. -/
  lossAtBreakevenHighPerLot : ℚ
  /-- `net_credit_per_unit`. -/
  netCreditPerUnit : ℚ
  /-- `net_credit_per_lot`. -/
  netCreditPerLot : ℚ
  /-- `max_profit_per_lot`. -/
  maxProfitPerLot : ℚ
  /-- `max_loss_per_lot`. -/
  maxLossPerLot : ℚ
  deriving DecidableEq

/-- What the payoff functions raise. -/
inductive PayoffError where
  /-- `InvalidStructureError`. -/
  | invalidStructure (message : String)
  /-- `ValueError`, of `max()` without samples. -/
  | value (message : String)
  deriving DecidableEq

/-! ### Profit and loss -/

/-- A day in microseconds. -/
def dayInMicros : ℤ := 86400000000

/-- `datetime.combine(d, time(15, 30))`. -/
def settlementTime (d : Date) : ℤ := d * dayInMicros + 55800000000

/-- `as_of`, if given. -/
inductive AsOf where
  /-- A day. -/
  | date (d : Date)
  /-- A naive datetime. -/
  | datetime (d : Date) (micros : ℕ)

/-- `as_of_date`. -/
def AsOf.toDate : AsOf → Date
  | .date d => d
  | .datetime d _ => d

/-- `as_of_dt`. -/
def AsOf.time : AsOf → ℤ
  | .date d => settlementTime d
  | .datetime d micros => d * dayInMicros + micros

/-- `years_between`. -/
def yearsBetween (start stop : ℤ) : ℚ := (stop - start) / (365 * dayInMicros)

/-- The rounded `b76_price` of an option type at a forward, strike, time in years and volatility. -/
abbrev FarPrice := OptionType → ℚ → ℚ → ℚ → ℚ → ℚ

section
variable (price : FarPrice) (st : GreekStructure) (farCarry : ℚ) (lotSize : ℕ) (asOf : Option AsOf)

/-- `t_years`. -/
def yearsToFar : ℚ :=
  yearsBetween ((asOf.map AsOf.time).getD (settlementTime st.shortCe.expiry)) (settlementTime st.longCeWing.expiry)

/-- `far_ce_val` at a spot. -/
def farCeVal (ivShift spot : ℚ) : ℚ :=
  price .ce (spot + farCarry) st.longCeWing.strike (yearsToFar st asOf) ((st.longCeGreeks.iv + ivShift) / 100)

/-- `far_pe_val` at a spot. -/
def farPeVal (ivShift spot : ℚ) : ℚ :=
  price .pe (spot + farCarry) st.longPeWing.strike (yearsToFar st asOf) ((st.longPeGreeks.iv + ivShift) / 100)

/-- What `payoff_at` returns when it does. -/
def pnlAt (ivShift spot : ℚ) : ℚ :=
  (st.netCreditPerUnit - max (spot - st.shortCe.strike) 0 - max (st.shortPe.strike - spot) 0 +
    farCeVal price st farCarry asOf ivShift spot + farPeVal price st farCarry asOf ivShift spot) * lotSize

/-- `payoff_at`. -/
def payoffAt (ivShift spot : ℚ) : Except PayoffError ℚ :=
  if (asOf.map AsOf.toDate).getD st.shortCe.expiry < st.shortCe.expiry then
    .error (.invalidStructure "as_of cannot be before near_expiry; near legs priced strictly at intrinsic")
  else .ok (pnlAt price st farCarry lotSize asOf ivShift spot)

/-! ### Metrics -/

/-- `low_grid`. -/
def lowGrid (spot : ℚ) : ℤ := roundHalfUp (spot * (85 / 100))

/-- `high_grid`. -/
def highGrid (spot : ℚ) : ℤ := roundHalfUp (spot * (115 / 100))

/-- `grid_spots`. -/
def gridSpots (spot : ℚ) : List ℤ := Int.range (lowGrid spot) (highGrid spot + 1)

/-- The first neighbouring samples that cross. -/
def firstCrossing (crosses : ℚ → ℚ → Bool) (rows : List (ℚ × ℚ)) : Option ((ℚ × ℚ) × (ℚ × ℚ)) :=
  (rows.zip rows.tail).find? fun p => crosses p.1.2 p.2.2

/-- `compute_metrics`. -/
def computeMetrics (spot : ℚ) : Except PayoffError StructureMetrics := do
  let netDelta := -st.shortCeGreeks.delta - st.shortPeGreeks.delta + st.longCeGreeks.delta + st.longPeGreeks.delta
  let netVega := st.longCeGreeks.vega + st.longPeGreeks.vega - st.shortCeGreeks.vega - st.shortPeGreeks.vega
  let gridPnls ← (gridSpots spot).mapM fun s : ℤ => payoffAt price st farCarry lotSize asOf 0 (s : ℚ)
  let some maxPnl := gridPnls.max? | .error (.value "max() iterable argument is empty")
  let some minPnl := gridPnls.min? | .error (.value "min() iterable argument is empty")
  let maxProfitPerLot := quantizePaise maxPnl
  let maxLossPerLot := quantizePaise minPnl
  let rows := ((gridSpots spot).map fun s : ℤ => (s : ℚ)).zip gridPnls
  let some ((s₀, y₀), (s₁, y₁)) := firstCrossing (fun y₀ y₁ => y₀ ≤ 0 && 0 < y₁) rows
    | .error (.invalidStructure "No lower breakeven crossing found on grid")
  let breakevenLow := quantizePaise (s₀ + -y₀ * (s₁ - s₀) / (y₁ - y₀))
  let some ((t₀, z₀), (t₁, z₁)) := firstCrossing (fun y₀ y₁ => 0 < y₀ && y₁ ≤ 0) rows
    | .error (.invalidStructure "No upper breakeven crossing found on grid")
  let breakevenHigh := quantizePaise (t₀ + z₀ * (t₁ - t₀) / (z₀ - z₁))
  let riskReward := if 0 ≤ maxLossPerLot then 99999 / 100 else quantizePaise (maxProfitPerLot / |maxLossPerLot|)
  let lossAtBreakevenLow ← payoffAt price st farCarry lotSize asOf 0 (spot - |breakevenHigh - spot|)
  let lossAtBreakevenHigh ← payoffAt price st farCarry lotSize asOf 0 (spot + |spot - breakevenLow|)
  return {
    netDelta
    netVega
    riskReward
    breakevenLow
    breakevenHigh
    breakevenLowPct := quantizePaise (|spot - breakevenLow| / spot * 100)
    breakevenHighPct := quantizePaise (|breakevenHigh - spot| / spot * 100)
    lossAtBreakevenLowPerLot := quantizePaise lossAtBreakevenLow
    lossAtBreakevenHighPerLot := quantizePaise lossAtBreakevenHigh
    netCreditPerUnit := st.netCreditPerUnit
    netCreditPerLot := st.netCreditPerLot lotSize
    maxProfitPerLot
    maxLossPerLot }

end

/-! ### The shape of the samples -/

/-- Between any two values `f` changes by a slope from `lo` to `hi`. -/
def SlopeIn (lo hi : ℚ) (f : ℚ → ℚ) : Prop :=
  ∀ s t, s ≤ t → lo * (t - s) ≤ f t - f s ∧ f t - f s ≤ hi * (t - s)

section
variable {price : FarPrice} {st : GreekStructure} {farCarry : ℚ} {lotSize : ℕ} {asOf : Option AsOf}

/-- The profit and loss at a grid spot. -/
def sample (price : FarPrice) (st : GreekStructure) (farCarry : ℚ) (lotSize : ℕ) (asOf : Option AsOf) (s : ℤ) : ℚ :=
  pnlAt price st farCarry lotSize asOf 0 s

/-- Up to the strike the short put gives back what the put wing can lose. -/
theorem pnlAt_rises (hcall : SlopeIn 0 1 (farCeVal price st farCarry asOf 0))
    (hput : SlopeIn (-1) 0 (farPeVal price st farCarry asOf 0)) {s t : ℚ} (hst : s ≤ t)
    (ht : t ≤ st.shortCe.strike) :
    pnlAt price st farCarry lotSize asOf 0 s ≤ pnlAt price st farCarry lotSize asOf 0 t := by
  have hc := (hcall s t hst).1
  have hp := (hput s t hst).1
  refine mul_le_mul_of_nonneg_right ?_ (Nat.cast_nonneg _)
  rw [← st.straddle.2, max_eq_right (by linarith), max_eq_left (by linarith : 0 ≤ st.shortCe.strike - s),
    max_eq_right (by linarith : t - st.shortCe.strike ≤ 0), max_eq_left (by linarith)]
  linarith

/-- From the strike on the short call takes what the call wing can gain. -/
theorem pnlAt_falls (hcall : SlopeIn 0 1 (farCeVal price st farCarry asOf 0))
    (hput : SlopeIn (-1) 0 (farPeVal price st farCarry asOf 0)) {s t : ℚ} (hst : s ≤ t)
    (hs : st.shortCe.strike ≤ s) :
    pnlAt price st farCarry lotSize asOf 0 t ≤ pnlAt price st farCarry lotSize asOf 0 s := by
  have hc := (hcall s t hst).2
  have hp := (hput s t hst).2
  refine mul_le_mul_of_nonneg_right ?_ (Nat.cast_nonneg _)
  rw [← st.straddle.2, max_eq_left (by linarith : 0 ≤ t - st.shortCe.strike),
    max_eq_right (by linarith : st.shortCe.strike - t ≤ 0), max_eq_left (by linarith),
      max_eq_right (by linarith)]
  linarith

/-- **The samples are unimodal**: the peak is at the strike, or next to it. -/
theorem sample_peak (hcall : SlopeIn 0 1 (farCeVal price st farCarry asOf 0))
    (hput : SlopeIn (-1) 0 (farPeVal price st farCarry asOf 0)) (low high : ℤ) :
    PeakBetween (sample price st farCarry lotSize asOf) low high ⌊st.shortCe.strike⌋ ⌈st.shortCe.strike⌉ where
  next := Int.ceil_le_floor_add_one _
  rises := fun s t _ hst ht => pnlAt_rises hcall hput (by exact_mod_cast hst) (Int.le_floor.mp ht)
  falls := fun s t hs hst _ => pnlAt_falls hcall hput (by exact_mod_cast hst) (Int.ceil_le.mp hs)

/-! ### What a run of the scans finds -/

theorem payoffAt_ok {ivShift spot v : ℚ} (h : payoffAt price st farCarry lotSize asOf ivShift spot = .ok v) :
    v = pnlAt price st farCarry lotSize asOf ivShift spot := by
  unfold payoffAt at h
  split at h
  next => exact absurd h (by simp)
  next => exact (Except.ok.inj h).symm

/-- The rows of the grid, paired with the next. -/
theorem mem_rows {f : ℤ → ℚ} {low high : ℤ} {p : (ℚ × ℚ) × (ℚ × ℚ)}
    (hp : p ∈ ((((Int.range low (high + 1)).map fun s : ℤ => (s : ℚ)).zip
      ((Int.range low (high + 1)).map f)).zip
      (((Int.range low (high + 1)).map fun s : ℤ => (s : ℚ)).zip ((Int.range low (high + 1)).map f)).tail)) :
    ∃ i, low ≤ i ∧ i < high ∧ p = (((i : ℚ), f i), ((i : ℚ) + 1, f (i + 1))) := by
  rw [List.zip_map', ← List.map_tail, List.zip_map] at hp
  obtain ⟨⟨i, k⟩, hik, rfl⟩ := List.mem_map.mp hp
  obtain ⟨hk, hlow, hhigh⟩ := mem_zip_tail_range hik
  simp only at hk hlow hhigh
  subst hk
  exact ⟨i, hlow, by omega, by simp [Prod.map]⟩

/-- What the scans of a run that returns have found. -/
structure Scanned (P : ℤ → ℚ) (low high : ℤ) (m : StructureMetrics) (i j : ℤ) : Prop where
  /-- The samples rise through zero after `i`. -/
  up : UpAt P low high 0 i
  /-- They fall through zero after `j`. -/
  down : DownAt P low high 0 j
  /-- The lower breakeven is interpolated. -/
  breakevenLow : m.breakevenLow = quantizePaise (i + -P i * (i + 1 - i) / (P (i + 1) - P i))
  /-- The upper one too. -/
  breakevenHigh : m.breakevenHigh = quantizePaise (j + P j * (j + 1 - j) / (P j - P (j + 1)))
  /-- The largest profit is the largest sample, in paise. -/
  maxProfit : ∃ s, low ≤ s ∧ s ≤ high ∧ m.maxProfitPerLot = quantizePaise (P s) ∧ ∀ t, low ≤ t → t ≤ high → P t ≤ P s

theorem firstCrossing_some {f : ℤ → ℚ} {low high : ℤ} {crosses : ℚ → ℚ → Bool} {p : (ℚ × ℚ) × (ℚ × ℚ)}
    (h : firstCrossing crosses (((Int.range low (high + 1)).map fun s : ℤ => (s : ℚ)).zip
      ((Int.range low (high + 1)).map f)) = some p) :
    ∃ i, low ≤ i ∧ i < high ∧ p = (((i : ℚ), f i), ((i : ℚ) + 1, f (i + 1))) ∧
      crosses (f i) (f (i + 1)) = true := by
  obtain ⟨i, hlow, hhigh, rfl⟩ := mem_rows (List.mem_of_find?_eq_some h)
  have hcrosses := List.find?_some (p := fun p : (ℚ × ℚ) × (ℚ × ℚ) => crosses p.1.2 p.2.2) h
  exact ⟨i, hlow, hhigh, rfl, hcrosses⟩

theorem computeMetrics_scanned {spot : ℚ} {m : StructureMetrics}
    (h : computeMetrics price st farCarry lotSize asOf spot = .ok m) :
    ∃ i j, Scanned (sample price st farCarry lotSize asOf) (lowGrid spot) (highGrid spot) m i j := by
  unfold computeMetrics at h
  obtain ⟨pnls, hpnls, h⟩ := except_bind_ok_iff.mp h
  obtain rfl : pnls = (gridSpots spot).map (sample price st farCarry lotSize asOf) := by
    have hmap := map_eq_of_forall₂ (f := sample price st farCarry lotSize asOf) (g := id)
      (fun s v h => (payoffAt_ok h).symm) (except_mapM_ok_iff.mp hpnls)
    exact (hmap.trans (List.map_id _)).symm
  split at h
  next maxPnl hmax =>
    split at h
    next minPnl hmin =>
      dsimp only at h
      split at h
      next s₀ y₀ s₁ y₁ hup =>
        split at h
        next t₀ z₀ t₁ z₁ hdown =>
          obtain ⟨lossLow, -, h⟩ := except_bind_ok_iff.mp h
          obtain ⟨lossHigh, -, h⟩ := except_bind_ok_iff.mp h
          obtain rfl := Except.ok.inj h
          obtain ⟨i, hilow, hihigh, hi, hrise⟩ := firstCrossing_some hup
          obtain ⟨j, hjlow, hjhigh, hj, hfall⟩ := firstCrossing_some hdown
          simp only [Prod.mk.injEq] at hi hj
          obtain ⟨⟨rfl, rfl⟩, rfl, rfl⟩ := hi
          obtain ⟨⟨rfl, rfl⟩, rfl, rfl⟩ := hj
          simp only [Bool.and_eq_true, decide_eq_true_eq] at hrise hfall
          obtain ⟨hmem, hbound⟩ := List.max?_eq_some_iff.mp hmax
          obtain ⟨s, hs, rfl⟩ := List.mem_map.mp hmem
          obtain ⟨hslow, hshigh⟩ := Int.mem_range_iff.mp hs
          refine ⟨i, j, ⟨hilow, hihigh, hrise.1, hrise.2⟩, ⟨hjlow, hjhigh, hfall.1, hfall.2⟩,
            rfl, rfl, s, hslow, by omega, rfl, fun t htlow hthigh => ?_⟩
          exact hbound _ (List.mem_map_of_mem (Int.mem_range_iff.mpr ⟨htlow, by omega⟩))
        next => exact absurd h (by simp)
      next => exact absurd h (by simp)
    next => exact absurd h (by simp)
  next => exact absurd h (by simp)

/-- At the near expiry the payoff is never refused. -/
theorem payoffAt_expiry (ivShift spot : ℚ) :
    payoffAt price st farCarry lotSize none ivShift spot = .ok
      (pnlAt price st farCarry lotSize none ivShift spot) := by
  simp [payoffAt]

/-- Without a grid spot there is nothing to measure. -/
theorem computeMetrics_ne_ok {spot : ℚ} (h : gridSpots spot = []) {m : StructureMetrics} :
    computeMetrics price st farCarry lotSize asOf spot ≠ .ok m := by
  intro hok
  obtain ⟨i, j, hscanned⟩ := computeMetrics_scanned hok
  have hlast := hscanned.up.lt_high
  have hmem : i ∈ gridSpots spot := Int.mem_range_iff.mpr ⟨hscanned.up.low_le, by omega⟩
  rw [h] at hmem
  exact absurd hmem List.not_mem_nil

/-- The ValueError is that of an empty grid. -/
theorem computeMetrics_value {spot : ℚ} {message : String}
    (h : computeMetrics price st farCarry lotSize none spot = .error (.value message)) :
      gridSpots spot = [] := by
  by_contra hne
  have hpnls : ((gridSpots spot).mapM fun s : ℤ => payoffAt price st farCarry lotSize none 0 (s : ℚ)) =
      .ok ((gridSpots spot).map (sample price st farCarry lotSize none)) := by
    refine except_mapM_ok_iff.mpr (List.forall₂_map_right_iff.mpr (List.forall₂_same.mpr fun s _ => ?_))
    exact payoffAt_expiry 0 s
  have hsamples : (gridSpots spot).map (sample price st farCarry lotSize none) ≠ [] := by simpa using hne
  obtain ⟨maxPnl, hmax⟩ := Option.isSome_iff_exists.mp (List.isSome_max?_iff.mpr hsamples)
  obtain ⟨minPnl, hmin⟩ := Option.isSome_iff_exists.mp (List.isSome_min?_iff.mpr hsamples)
  unfold computeMetrics at h
  rw [hpnls] at h
  simp only [hmax, hmin, payoffAt_expiry, bind, Except.bind, pure, Except.pure] at h
  split at h
  next =>
    split at h
    next => exact absurd h (by simp)
    next => exact absurd h (by simp)
  next => exact absurd h (by simp)

/-! ### Breakevens around the body -/

/-- Interpolated between two neighbouring grid spots, a crossing is between them, also in paise. -/
theorem quantize_between {i : ℤ} {part whole : ℚ} (hpart : 0 ≤ part) (hle : part ≤ whole) (hwhole : 0 < whole) :
    (i : ℚ) ≤ quantizePaise (i + part * (i + 1 - i) / whole) ∧
      quantizePaise (i + part * (i + 1 - i) / whole) ≤ (i : ℚ) + 1 := by
  rw [add_sub_cancel_left, mul_one]
  have hratio : 0 ≤ part / whole ∧ part / whole ≤ 1 :=
    ⟨div_nonneg hpart hwhole.le, (div_le_one hwhole).mpr hle⟩
  constructor
  · exact le_quantizePaise (by linarith)
  · have hround := quantizePaise_le (n := i + 1) (q := i + part / whole) (by push_cast; linarith)
    exact_mod_cast hround

/-- What the metrics say of a structure whose samples are unimodal. -/
structure BracketsBody (P : ℤ → ℚ) (low high : ℤ) (strike : ℚ) (m : StructureMetrics) : Prop where
  /-- The lower breakeven is not above the strike, or the next grid spot. -/
  low_le : m.breakevenLow ≤ ⌈strike⌉
  /-- The upper one is not below it, or the grid spot before. -/
  le_high : (⌊strike⌋ : ℚ) ≤ m.breakevenHigh
  /-- One change of sign at each breakeven, and no other. -/
  signs : ∃ i j : ℤ, i < j ∧ (i : ℚ) ≤ m.breakevenLow ∧ m.breakevenLow ≤ (i : ℚ) + 1 ∧
    (j : ℚ) ≤ m.breakevenHigh ∧ m.breakevenHigh ≤ (j : ℚ) + 1 ∧
    (∀ s, low ≤ s → s ≤ i → P s ≤ 0) ∧ (∀ s, i < s → s ≤ j → 0 < P s) ∧ ∀ s, j < s → s ≤ high → P s ≤ 0
  /-- A profit strictly between the breakevens. -/
  positive : ∀ s : ℤ, m.breakevenLow < s → s < m.breakevenHigh → 0 < P s
  /-- The largest profit is at the strike or next to it. -/
  maxProfit : ∃ s, (s = ⌊strike⌋ ∨ s = ⌈strike⌉) ∧ m.maxProfitPerLot = quantizePaise (P s)

theorem Scanned.bracketsBody {P : ℤ → ℚ} {low high : ℤ} {strike : ℚ} {m : StructureMetrics} {i j : ℤ}
    (h : Scanned P low high m i j) (hpeak : PeakBetween P low high ⌊strike⌋ ⌈strike⌉)
    (hlow : (low : ℚ) ≤ strike) (hhigh : strike ≤ high) : BracketsBody P low high strike m := by
  obtain ⟨hij, hbefore, hbetween, hafter⟩ := hpeak.signs h.up h.down
  have hfloor : low ≤ ⌊strike⌋ := Int.le_floor.mpr hlow
  have hceil : ⌈strike⌉ ≤ high := Int.ceil_le.mpr hhigh
  have hfc : ⌊strike⌋ ≤ ⌈strike⌉ := Int.floor_le_ceil strike
  have hatlow : (i : ℚ) ≤ m.breakevenLow ∧ m.breakevenLow ≤ (i : ℚ) + 1 := by
    have hrise := h.up.before
    have hrisen := h.up.after
    rw [h.breakevenLow]
    exact quantize_between (by linarith) (by linarith) (by linarith)
  have hathigh : (j : ℚ) ≤ m.breakevenHigh ∧ m.breakevenHigh ≤ (j : ℚ) + 1 := by
    have hfall := h.down.before
    have hfallen := h.down.after
    rw [h.breakevenHigh]
    exact quantize_between hfall.le (by linarith) (by linarith)
  constructor
  case low_le =>
    have hup : ((i + 1 : ℤ) : ℚ) ≤ ⌈strike⌉ := Int.cast_le.mpr (hpeak.up_lt h.up)
    push_cast at hup
    exact hatlow.2.trans hup
  case le_high =>
    exact (Int.cast_le.mpr (hpeak.le_down h.down)).trans hathigh.1
  case signs =>
    exact ⟨i, j, hij, hatlow.1, hatlow.2, hathigh.1, hathigh.2, hbefore, hbetween, hafter⟩
  case positive =>
    intro s hs hs'
    have his : ((i : ℤ) : ℚ) < s := hatlow.1.trans_lt hs
    have hsj : (s : ℚ) < ((j + 1 : ℤ) : ℚ) := by
      push_cast
      exact hs'.trans_le hathigh.2
    exact hbetween s (Int.cast_lt.mp his) (Int.lt_add_one_iff.mp (Int.cast_lt.mp hsj))
  case maxProfit =>
    obtain ⟨s, hslow, hshigh, hs, hbound⟩ := h.maxProfit
    -- the largest sample is one of the two at the peak
    rcases hpeak.le_peak hslow hshigh with hle | hle
    · have heq := le_antisymm hle (hbound ⌊strike⌋ hfloor (hfc.trans hceil))
      exact ⟨_, Or.inl rfl, heq ▸ hs⟩
    · have heq := le_antisymm hle (hbound ⌈strike⌉ (hfloor.trans hfc) hceil)
      exact ⟨_, Or.inr rfl, heq ▸ hs⟩

/-- **The breakevens bracket the body**, when the far values have the slopes of an option's. -/
theorem metrics_bracket_body {spot : ℚ} (hcall : SlopeIn 0 1 (farCeVal price st farCarry asOf 0))
    (hput : SlopeIn (-1) 0 (farPeVal price st farCarry asOf 0))
    (hlow : (lowGrid spot : ℚ) ≤ st.shortCe.strike) (hhigh : st.shortCe.strike ≤ highGrid spot) :
    PeakBetween (sample price st farCarry lotSize asOf) (lowGrid spot) (highGrid spot)
        ⌊st.shortCe.strike⌋ ⌈st.shortCe.strike⌉ ∧
      ∀ m, computeMetrics price st farCarry lotSize asOf spot = .ok m →
        BracketsBody (sample price st farCarry lotSize asOf) (lowGrid spot) (highGrid spot) st.shortCe.strike m := by
  have hpeak : PeakBetween (sample price st farCarry lotSize asOf) _ _ _ _ :=
    sample_peak hcall hput (lowGrid spot) (highGrid spot)
  refine ⟨hpeak, fun m hm => ?_⟩
  obtain ⟨i, j, hscanned⟩ := computeMetrics_scanned hm
  exact hscanned.bracketsBody hpeak hlow hhigh

end

/-! ### Intrinsic far values -/

theorem slopeIn_call (c : ℚ) : SlopeIn 0 1 fun s => max (s - c) 0 := by
  intro s t hst
  rcases max_cases (s - c) 0 with ⟨hs, hs'⟩ | ⟨hs, hs'⟩ <;>
    rcases max_cases (t - c) 0 with ⟨ht, ht'⟩ | ⟨ht, ht'⟩ <;>
    simp only [hs, ht] <;> constructor <;> linarith

theorem slopeIn_put (c : ℚ) : SlopeIn (-1) 0 fun s => max (c - s) 0 := by
  intro s t hst
  rcases max_cases (c - s) 0 with ⟨hs, hs'⟩ | ⟨hs, hs'⟩ <;>
    rcases max_cases (c - t) 0 with ⟨ht, ht'⟩ | ⟨ht, ht'⟩ <;>
    simp only [hs, ht] <;> constructor <;> linarith

theorem SlopeIn.min_const {f : ℚ → ℚ} (hf : SlopeIn 0 1 f) (c : ℚ) : SlopeIn 0 1 fun s => min (f s) c := by
  intro s t hst
  obtain ⟨hlo, hhi⟩ := hf s t hst
  rcases min_cases (f s) c with ⟨hs, hs'⟩ | ⟨hs, hs'⟩ <;>
    rcases min_cases (f t) c with ⟨ht, ht'⟩ | ⟨ht, ht'⟩ <;>
    simp only [hs, ht] <;> constructor <;> linarith

/-- `b76_price` without volatility. -/
def intrinsicPrice : FarPrice
  | .ce, forward, strike, _, _ => max (forward - strike) 0
  | .pe, forward, strike, _, _ => max (strike - forward) 0
  | _, _, _, _, _ => 0

/-- The same with a call that stops at one point. -/
def cappedPrice : FarPrice
  | .ce, forward, strike, _, _ => min (max (forward - strike) 0) 1
  | .pe, forward, strike, _, _ => max (strike - forward) 0
  | _, _, _, _, _ => 0

/-- A structure with its body at `strike`, its wings `wing` points out and a net credit. -/
def bodyAt (strike wing credit : ℚ) (hwing : 0 < wing) : GreekStructure where
  shortCe := ⟨strike, .ce, 739920, .sell, 1, credit, ce_isOption, Nat.one_pos⟩
  shortPe := ⟨strike, .pe, 739920, .sell, 1, 1, pe_isOption, Nat.one_pos⟩
  longCeWing := ⟨strike + wing, .ce, 739948, .buy, 1, 1 / 2, ce_isOption, Nat.one_pos⟩
  longPeWing := ⟨strike - wing, .pe, 739948, .buy, 1, 1 / 2, pe_isOption, Nat.one_pos⟩
  shorts := ⟨rfl, rfl⟩
  longs := ⟨rfl, rfl⟩
  straddle := ⟨rfl, rfl⟩
  wings := rfl
  nearBeforeFar := (by decide : 739920 < 739948)
  lots := ⟨rfl, rfl, rfl⟩
  types := ⟨rfl, rfl, rfl, rfl⟩
  otm := ⟨lt_add_of_pos_right _ hwing, sub_lt_self _ hwing⟩
  shortCeGreeks := ⟨1 / 2, 10, 0⟩
  shortPeGreeks := ⟨-1 / 2, 10, 0⟩
  longCeGreeks := ⟨1 / 4, 12, 0⟩
  longPeGreeks := ⟨-1 / 4, 12, 0⟩

theorem slopeIn_farCeVal_intrinsic (st : GreekStructure) (farCarry : ℚ) (asOf : Option AsOf) :
    SlopeIn 0 1 (farCeVal intrinsicPrice st farCarry asOf 0) := by
  have hval : farCeVal intrinsicPrice st farCarry asOf 0 = fun s =>
      max (s - (st.longCeWing.strike - farCarry)) 0 := by
    funext s
    rw [farCeVal, intrinsicPrice, sub_sub_eq_add_sub]
  rw [hval]
  exact slopeIn_call _

theorem slopeIn_farPeVal_intrinsic (st : GreekStructure) (farCarry : ℚ) (asOf : Option AsOf) :
    SlopeIn (-1) 0 (farPeVal intrinsicPrice st farCarry asOf 0) := by
  have hval : farPeVal intrinsicPrice st farCarry asOf 0 = fun s =>
      max (st.longPeWing.strike - farCarry - s) 0 := by
    funext s
    rw [farPeVal, intrinsicPrice, sub_sub, add_comm farCarry]
  rw [hval]
  exact slopeIn_put _

/-- A body at 100 for a credit of 1.025. -/
def wholeBody : GreekStructure := bodyAt 100 3 (41 / 40) (by norm_num)

/-- A body at 100.5 for a debit of 0.1. -/
def fractionalBody : GreekStructure := bodyAt (201 / 2) (1 / 2) (-1 / 10) (by norm_num)

/-- The body at 100 with far legs at intrinsic value. -/
theorem metrics_bracket_body_intrinsic :
    PeakBetween (sample intrinsicPrice wholeBody 0 65 none) (lowGrid 100) (highGrid 100)
        ⌊wholeBody.shortCe.strike⌋ ⌈wholeBody.shortCe.strike⌉ ∧
      ∀ m, computeMetrics intrinsicPrice wholeBody 0 65 none 100 = .ok m →
        BracketsBody (sample intrinsicPrice wholeBody 0 65 none) (lowGrid 100) (highGrid 100)
          wholeBody.shortCe.strike m :=
  metrics_bracket_body (slopeIn_farCeVal_intrinsic _ _ _) (slopeIn_farPeVal_intrinsic _ _ _)
    (by decide +kernel) (by decide +kernel)

theorem slopeIn_farCeVal_capped (st : GreekStructure) (farCarry : ℚ) (asOf : Option AsOf) :
    SlopeIn 0 1 (farCeVal cappedPrice st farCarry asOf 0) :=
  (slopeIn_farCeVal_intrinsic st farCarry asOf).min_const 1

theorem slopeIn_farPeVal_capped (st : GreekStructure) (farCarry : ℚ) (asOf : Option AsOf) :
    SlopeIn (-1) 0 (farPeVal cappedPrice st farCarry asOf 0) :=
  slopeIn_farPeVal_intrinsic st farCarry asOf

/-- What the metrics do not keep to: the largest profit is in paise, where no sample need be (65 units
of 1.025), and at a body at 100.5 the lower breakeven can be 100.6. -/
theorem bracket_inexact :
    (SlopeIn 0 1 (farCeVal intrinsicPrice wholeBody 0 none 0) ∧
      SlopeIn (-1) 0 (farPeVal intrinsicPrice wholeBody 0 none 0) ∧
      lowGrid 100 ≤ wholeBody.shortCe.strike ∧ wholeBody.shortCe.strike ≤ highGrid 100 ∧
      ∃ m, computeMetrics intrinsicPrice wholeBody 0 65 none 100 = .ok m ∧
        ∀ s ∈ gridSpots 100, m.maxProfitPerLot ≠ sample intrinsicPrice wholeBody 0 65 none s) ∧
    (SlopeIn 0 1 (farCeVal cappedPrice fractionalBody 1 none 0) ∧
      SlopeIn (-1) 0 (farPeVal cappedPrice fractionalBody 1 none 0) ∧
      lowGrid 100 ≤ fractionalBody.shortCe.strike ∧ fractionalBody.shortCe.strike ≤ highGrid 100 ∧
      ∃ m, computeMetrics cappedPrice fractionalBody 1 65 none 100 = .ok m ∧
        fractionalBody.shortCe.strike < m.breakevenLow) := by
  have hrounded : okWith (fun m => decide (∀ s ∈ gridSpots 100,
      m.maxProfitPerLot ≠ sample intrinsicPrice wholeBody 0 65 none s))
        (computeMetrics intrinsicPrice wholeBody 0 65 none 100) = true := by decide +kernel
  have habove : okWith (fun m => decide (fractionalBody.shortCe.strike < m.breakevenLow))
      (computeMetrics cappedPrice fractionalBody 1 65 none 100) = true := by decide +kernel
  refine ⟨⟨slopeIn_farCeVal_intrinsic _ _ _, slopeIn_farPeVal_intrinsic _ _ _, by decide +kernel,
    by decide +kernel, ?_⟩, slopeIn_farCeVal_capped _ _ _, slopeIn_farPeVal_capped _ _ _, by decide +kernel,
    by decide +kernel, ?_⟩
  · simpa only [decide_eq_true_eq] using okWith_iff.mp hrounded
  · simpa only [decide_eq_true_eq] using okWith_iff.mp habove

end NiftyShield.NiftyCalendar
