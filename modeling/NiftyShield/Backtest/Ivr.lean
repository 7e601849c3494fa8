import Mathlib.Algebra.Order.Field.Basic
import Mathlib.Algebra.Order.Ring.Rat
import Mathlib.Tactic.Linarith

/-!
# The rank of the India VIX

`compute_ivr` (`src/backtest/ivr.py`): where a reading stands in the range of the last 252 closes,
which the gates of the entries compare with a threshold.

## What is proved

* `computeIvr_isSome_iff`: only a short history has no rank;
* `le_computeIvr_iff`: a threshold is reached when the reading is that far up in the range, and a
  range of one value reaches those up to a half.

## Honest scope

A series is the list of its values, and floats are exact rationals.
-/

namespace NiftyShield.Backtest

/-- `window`. -/
def ivrWindow (vixSeries : List ℚ) : List ℚ := vixSeries.drop (vixSeries.length - 252)

/-- `vix_low`. -/
def vixLow (vixSeries : List ℚ) : ℚ := (ivrWindow vixSeries).min?.getD 0

/-- `vix_high`. -/
def vixHigh (vixSeries : List ℚ) : ℚ := (ivrWindow vixSeries).max?.getD 0

/-- `compute_ivr`. -/
def computeIvr (vixToday : ℚ) (vixSeries : List ℚ) : Option ℚ :=
  if vixSeries.length < 252 then none
  else if vixHigh vixSeries = vixLow vixSeries then some (1 / 2)
  else some (max 0 (min 1 ((vixToday - vixLow vixSeries) / (vixHigh vixSeries - vixLow vixSeries))))

variable {vixToday : ℚ} {vixSeries : List ℚ}

theorem computeIvr_isSome_iff : (computeIvr vixToday vixSeries).isSome = true ↔ 252 ≤ vixSeries.length := by
  unfold computeIvr
  split_ifs with hshort
  · exact iff_of_false (by simp) (not_le.mpr hshort)
  · exact iff_of_true rfl (not_lt.mp hshort)
  · exact iff_of_true rfl (not_lt.mp hshort)

theorem ivrWindow_ne_nil (h : 252 ≤ vixSeries.length) : ivrWindow vixSeries ≠ [] := by
  rw [ivrWindow, Ne, List.drop_eq_nil_iff]
  omega

/-- The low is not above the high. -/
theorem vixLow_le_vixHigh (h : 252 ≤ vixSeries.length) : vixLow vixSeries ≤ vixHigh vixSeries := by
  obtain ⟨low, hlow⟩ := Option.ne_none_iff_exists'.mp (mt List.min?_eq_none_iff.mp (ivrWindow_ne_nil h))
  obtain ⟨high, hhigh⟩ := Option.ne_none_iff_exists'.mp (mt List.max?_eq_none_iff.mp (ivrWindow_ne_nil h))
  rw [vixLow, vixHigh, hlow, hhigh]
  exact (List.max?_eq_some_iff.mp hhigh).2 low (List.min?_mem hlow)

/-- **A threshold is reached** that far up in the range. -/
theorem le_computeIvr_iff {q : ℚ} (h : 252 ≤ vixSeries.length) (hq : 0 < q) (hq1 : q ≤ 1) :
    (∃ ivr ∈ computeIvr vixToday vixSeries, q ≤ ivr) ↔
      if vixHigh vixSeries = vixLow vixSeries then q ≤ 1 / 2
      else vixLow vixSeries + q * (vixHigh vixSeries - vixLow vixSeries) ≤ vixToday := by
  unfold computeIvr
  rw [if_neg (not_lt.mpr h)]
  split
  next => simp
  next hne =>
    have hrange : 0 < vixHigh vixSeries - vixLow vixSeries :=
      sub_pos.mpr ((vixLow_le_vixHigh h).lt_of_ne' hne)
    have hclamp : ∀ raw : ℚ, q ≤ max 0 (min 1 raw) ↔ q ≤ raw := fun raw => by
      rw [le_max_iff, le_min_iff]
      exact ⟨fun h => h.elim (fun h => absurd hq (not_lt.mpr h)) And.right, fun h => Or.inr ⟨hq1, h⟩⟩
    simp only [Option.mem_some_iff, exists_eq_left', hclamp, le_div_iff₀ hrange]
    constructor <;> intro h <;> linarith

end NiftyShield.Backtest
