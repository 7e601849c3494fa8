import Mathlib.Algebra.Order.Floor.Defs
import Mathlib.Data.Rat.Floor
import Mathlib.Tactic.Linarith
import Mathlib.Tactic.NormNum

/-!
# Rounding decimals

`Decimal.quantize` to two places with the default context (`ROUND_HALF_EVEN`) and with
`ROUND_HALF_UP`, and `int()` of a decimal, on exact rationals.
-/

namespace NiftyShield.Lib

/-- The nearest integer, the even one of two. -/
def roundHalfEven (q : ℚ) : ℤ :=
  let f := ⌊q⌋
  if q - f < 1 / 2 then f else if 1 / 2 < q - f then f + 1 else if f % 2 = 0 then f else f + 1

/-- `q.quantize(Decimal("0.01"))`. -/
def quantizePaise (q : ℚ) : ℚ := roundHalfEven (q * 100) / 100

theorem le_roundHalfEven {n : ℤ} {q : ℚ} (h : (n : ℚ) ≤ q) : n ≤ roundHalfEven q := by
  have hfloor : n ≤ ⌊q⌋ := Int.le_floor.mpr h
  simp only [roundHalfEven]
  split_ifs <;> omega

theorem roundHalfEven_le {n : ℤ} {q : ℚ} (h : q ≤ n) : roundHalfEven q ≤ n := by
  have hfloor : ⌊q⌋ ≤ n := Int.floor_le_iff.mpr (h.trans_lt (lt_add_one _))
  -- rounding up needs a fractional part, so the next integer is still at most `n`
  have hnext : ¬ q - ⌊q⌋ < 1 / 2 → ⌊q⌋ + 1 ≤ n := by
    intro hfrac
    have hlt : ((⌊q⌋ : ℤ) : ℚ) < n := by linarith
    exact Int.add_one_le_iff.mpr (by exact_mod_cast hlt)
  simp only [roundHalfEven]
  split_ifs with hlow
  · exact hfloor
  · exact hnext hlow
  · exact hfloor
  · exact hnext hlow

/-- Rounding keeps the order. -/
theorem roundHalfEven_mono {p q : ℚ} (h : p ≤ q) : roundHalfEven p ≤ roundHalfEven q := by
  have hp : roundHalfEven p ≤ ⌊p⌋ + 1 := roundHalfEven_le (by exact_mod_cast (Int.lt_floor_add_one p).le)
  have hq : ⌊q⌋ ≤ roundHalfEven q := le_roundHalfEven (Int.floor_le q)
  rcases (Int.floor_mono h).lt_or_eq with hlt | heq
  · omega
  · -- between the same two integers the one nearer to the upper is not rounded down alone
    have hfrac : p - ⌊p⌋ ≤ q - ⌊q⌋ := by
      rw [heq]
      linarith
    simp only [roundHalfEven, heq] at hfrac ⊢
    split_ifs <;> first | omega | linarith

/-- Rounding to paise stays above a whole number. -/
theorem le_quantizePaise {n : ℤ} {q : ℚ} (h : (n : ℚ) ≤ q) : (n : ℚ) ≤ quantizePaise q := by
  have hround : n * 100 ≤ roundHalfEven (q * 100) := le_roundHalfEven (by push_cast; linarith)
  rw [quantizePaise, le_div_iff₀ (by norm_num)]
  exact_mod_cast hround

/-- And below one. -/
theorem quantizePaise_le {n : ℤ} {q : ℚ} (h : q ≤ n) : quantizePaise q ≤ n := by
  have hround : roundHalfEven (q * 100) ≤ n * 100 := roundHalfEven_le (by push_cast; linarith)
  rw [quantizePaise, div_le_iff₀ (by norm_num)]
  exact_mod_cast hround

/-- The nearest integer, of two the one further from zero (`ROUND_HALF_UP`). -/
def roundHalfUp (q : ℚ) : ℤ := if 0 ≤ q then ⌊q + 1 / 2⌋ else ⌈q - 1 / 2⌉

/-- `q.quantize(Decimal("0.01"), ROUND_HALF_UP)`. -/
def quantizeHalfUp (q : ℚ) : ℚ := roundHalfUp (q * 100) / 100

theorem abs_roundHalfUp_sub_le (q : ℚ) : |roundHalfUp q - q| ≤ 1 / 2 := by
  unfold roundHalfUp
  split
  · have hle := Int.floor_le (q + 1 / 2)
    have hlt := Int.lt_floor_add_one (q + 1 / 2)
    exact abs_le.mpr ⟨by linarith, by linarith⟩
  · have hle := Int.le_ceil (q - 1 / 2)
    have hlt := Int.ceil_lt_add_one (q - 1 / 2)
    exact abs_le.mpr ⟨by linarith, by linarith⟩

/-- Rounding to the paisa moves an amount by half a paisa at most. -/
theorem abs_quantizeHalfUp_sub_le (q : ℚ) : |quantizeHalfUp q - q| ≤ 1 / 200 := by
  have h := abs_le.mp (abs_roundHalfUp_sub_le (q * 100))
  rw [quantizeHalfUp]
  exact abs_le.mpr ⟨by linarith [h.1], by linarith [h.2]⟩

/-- `int(q)`: towards zero. -/
def truncate (q : ℚ) : ℤ := if 0 ≤ q then ⌊q⌋ else ⌈q⌉

end NiftyShield.Lib
