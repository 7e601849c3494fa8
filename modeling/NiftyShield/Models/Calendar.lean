import NiftyShield.Models.Common
import Mathlib.Order.Nat
import Mathlib.Tactic.Common

/-!
# The months of the calendar

The months follow one another without a gap (`monthStart_succ`, `monthStart_january`), so that
a day is in one of them only (`InMonth.unique`). It is in the one that `toYmd` computes
(`year_month_iff`).
-/

namespace NiftyShield.Date

/-! ### Months -/

/-- The last day before the month. -/
def monthStart (year month : ℕ) : ℕ := daysBeforeYear year + daysBeforeMonth year month

/-- The last day of the month. -/
def monthEnd (year month : ℕ) : ℕ := monthStart year month + daysInMonth year month

/-- A number that grows by one from month to month. -/
def monthIndex (year month : ℕ) : ℕ := 12 * year + month

/-- The day is in the month. -/
structure InMonth (year month d : ℕ) : Prop where
  /-- Years start at 1. -/
  year_pos : 1 ≤ year
  /-- Months start at 1. -/
  month_pos : 1 ≤ month
  /-- And end at 12. -/
  month_le : month ≤ 12
  /-- After the month before. -/
  start_lt : monthStart year month < d
  /-- Before the month after. -/
  le_end : d ≤ monthEnd year month

/-- A year with the same Februaries. -/
def sameLength (year : ℕ) : ℕ := if isLeap year then 4 else 1

theorem daysInMonth_sameLength (year month : ℕ) : daysInMonth year month = daysInMonth (sameLength year) month := by
  cases h : isLeap year <;> simp [daysInMonth, sameLength, h, show isLeap 4 = true by decide,
    show isLeap 1 = false by decide]

theorem daysBeforeMonth_sameLength (year month : ℕ) :
    daysBeforeMonth year month = daysBeforeMonth (sameLength year) month := by
  rw [daysBeforeMonth, daysBeforeMonth]
  congr 1
  exact List.map_congr_left fun m _ => daysInMonth_sameLength year (m + 1)

theorem daysInMonth_ge (year month : ℕ) : 28 ≤ daysInMonth year month := by
  unfold daysInMonth
  split <;> split <;> omega

theorem daysBeforeMonth_succ (year : ℕ) {month : ℕ} (h : 1 ≤ month) :
    daysBeforeMonth year (month + 1) = daysBeforeMonth year month + daysInMonth year month := by
  obtain ⟨m, rfl⟩ := Nat.exists_eq_add_of_le' h
  rw [daysBeforeMonth, daysBeforeMonth, Nat.add_sub_cancel, Nat.add_sub_cancel, List.range_succ, List.map_append,
    List.sum_append]
  rfl

theorem isLeap_iff (year : ℕ) : isLeap year = true ↔ 4 ∣ year ∧ (¬100 ∣ year ∨ 400 ∣ year) := by
  simp [isLeap, Nat.dvd_iff_mod_eq_zero]

/-- The days of a year. -/
theorem daysBeforeMonth_december (year : ℕ) :
    daysBeforeMonth year 12 + daysInMonth year 12 = if isLeap year then 366 else 365 := by
  rw [daysBeforeMonth_sameLength, daysInMonth_sameLength, sameLength]
  cases isLeap year <;> decide

theorem daysBeforeYear_succ {year : ℕ} (h : 1 ≤ year) :
    daysBeforeYear (year + 1) = daysBeforeYear year + if isLeap year then 366 else 365 := by
  obtain ⟨y, rfl⟩ := Nat.exists_eq_add_of_le' h
  have hcentury : y / 100 ≤ y / 4 := Nat.div_le_div_left (by decide) (by decide)
  simp only [daysBeforeYear, Nat.add_sub_cancel, Nat.succ_div, isLeap_iff]
  by_cases d4 : 4 ∣ y + 1 <;> by_cases d100 : 100 ∣ y + 1 <;> by_cases d400 : 400 ∣ y + 1 <;>
    simp only [d4, d100, d400, if_true, if_false, true_and, false_and, or_true, or_false, not_true, not_false_iff] <;> omega

/-- A month ends where the next one starts. -/
theorem monthStart_succ (year : ℕ) {month : ℕ} (h : 1 ≤ month) :
    monthStart year (month + 1) = monthEnd year month := by
  rw [monthStart, daysBeforeMonth_succ year h, monthEnd, monthStart, Nat.add_assoc]

theorem daysBeforeMonth_january (year : ℕ) : daysBeforeMonth year 1 = 0 := rfl

theorem monthStart_january {year : ℕ} (h : 1 ≤ year) : monthStart (year + 1) 1 = monthEnd year 12 := by
  rw [monthStart, daysBeforeYear_succ h, ← daysBeforeMonth_december, daysBeforeMonth_january, monthEnd, monthStart,
    Nat.add_zero, Nat.add_assoc]

/-- A later month starts when the earlier one has ended. -/
theorem monthEnd_le_monthStart {y m y' m' : ℕ} (hy : 1 ≤ y) (hm : 1 ≤ m) (hm12 : m ≤ 12) (hm' : 1 ≤ m')
    (hm'12 : m' ≤ 12) (h : monthIndex y m < monthIndex y' m') : monthEnd y m ≤ monthStart y' m' := by
  unfold monthIndex at h
  obtain ⟨k, hk⟩ := Nat.exists_eq_add_of_lt h
  induction k generalizing y' m' with
  | zero =>
    by_cases h1 : m' = 1
    · obtain ⟨rfl, rfl, rfl⟩ : y' = y + 1 ∧ m = 12 ∧ m' = 1 := by omega
      exact le_of_eq (monthStart_january hy).symm
    · obtain ⟨rfl, rfl⟩ : y' = y ∧ m' = m + 1 := by omega
      exact le_of_eq (monthStart_succ _ hm).symm
  | succ k ih =>
    by_cases h1 : m' = 1
    · obtain ⟨z, rfl⟩ : ∃ z, y' = z + 1 := ⟨y' - 1, by omega⟩
      have hstep : monthEnd y m ≤ monthStart z 12 := ih (by omega) le_rfl (by omega) (by omega)
      rw [h1, monthStart_january (by omega)]
      exact le_trans hstep (Nat.le_add_right _ _)
    · obtain ⟨n, rfl⟩ : ∃ n, m' = n + 1 := ⟨m' - 1, by omega⟩
      have hstep : monthEnd y m ≤ monthStart y' n := ih (by omega) (by omega) (by omega) (by omega)
      rw [monthStart_succ _ (by omega)]
      exact le_trans hstep (Nat.le_add_right _ _)

namespace InMonth

variable {y m y' m' d d' : ℕ}

/-- A day of an earlier month is earlier. -/
theorem lt_of_monthIndex_lt (h : InMonth y m d) (h' : InMonth y' m' d') (hlt : monthIndex y m < monthIndex y' m') :
    d < d' :=
  calc d ≤ monthEnd y m := h.le_end
    _ ≤ monthStart y' m' := monthEnd_le_monthStart h.year_pos h.month_pos h.month_le h'.month_pos h'.month_le hlt
    _ < d' := h'.start_lt

theorem monthIndex_le (h : InMonth y m d) (h' : InMonth y' m' d') (hle : d ≤ d') :
    monthIndex y m ≤ monthIndex y' m' := by
  by_contra hgt
  exact absurd (h'.lt_of_monthIndex_lt h (not_le.mp hgt)) (not_lt.mpr hle)

/-- A day is in one month only. -/
theorem unique (h : InMonth y m d) (h' : InMonth y' m' d) : y = y' ∧ m = m' := by
  have hle := h.monthIndex_le h' le_rfl
  have hge := h'.monthIndex_le h le_rfl
  obtain ⟨-, hm, hm12, -, -⟩ := h
  obtain ⟨-, hm', hm'12, -, -⟩ := h'
  unfold monthIndex at hle hge
  omega

end InMonth

/-! ### The month of a day -/

/-- If a predicate holds up to some number only, as many numbers pass. -/
private theorem lt_length_filter_range {p : ℕ → Bool} (hp : ∀ m, p (m + 1) = true → p m = true) (n : ℕ) :
    ∀ m < n, m < ((List.range n).filter p).length ↔ p m = true := by
  have hdown : ∀ m k, p (m + k) = true → p m = true := fun m k => by
    induction k with
    | zero => exact id
    | succ k ih => exact fun h => ih (hp _ h)
  induction n with
  | zero => simp
  | succ n ih =>
    intro m hm
    rw [List.range_succ, List.filter_append, List.length_append]
    cases hn : p n with
    | true =>
      have hall : ∀ k < n + 1, p k = true := fun k hk =>
        hdown k (n - k) (by rwa [Nat.add_sub_cancel' (Nat.lt_succ_iff.mp hk)])
      have hfilter : (List.range n).filter p = List.range n :=
        List.filter_eq_self.mpr fun k hk => hall k (Nat.lt_succ_of_lt (List.mem_range.mp hk))
      simp [hfilter, hn, hm, hall m hm]
    | false =>
      rcases Nat.lt_succ_iff_lt_or_eq.mp hm with hlt | rfl
      · simp [hn, ih m hlt]
      · have hle : ((List.range m).filter p).length ≤ m := by
          simpa using List.length_filter_le p (List.range m)
        simp [hn, hle]

/-- The month that the search finds has the day of the year in it. -/
private theorem month_search (year : ℕ) {r : ℕ} (hr : r < 365) :
    let month := ((List.range 12).filter fun m => daysBeforeMonth year (m + 1) ≤ r).length
    (1 ≤ month ∧ month ≤ 12) ∧ daysBeforeMonth year month ≤ r ∧
      r < daysBeforeMonth year month + daysInMonth year month := by
  intro month
  have hsearch : ∀ m < 12, m < month ↔ daysBeforeMonth year (m + 1) ≤ r := fun m hm => by
    rw [← decide_eq_true_iff (p := daysBeforeMonth year (m + 1) ≤ r)]
    refine lt_length_filter_range (fun k hk => ?_) 12 m hm
    have hle := of_decide_eq_true hk
    rw [daysBeforeMonth_succ year (Nat.le_add_left 1 k)] at hle
    exact decide_eq_true (le_trans (Nat.le_add_right _ _) hle)
  have hpos : 0 < month := (hsearch 0 (by decide)).mpr (Nat.zero_le r)
  have hle12 : month ≤ 12 := by simpa using List.length_filter_le _ (List.range 12)
  refine ⟨⟨hpos, hle12⟩, ?_, ?_⟩
  · have hlast := (hsearch (month - 1) (by omega)).mp (by omega)
    rwa [Nat.sub_add_cancel hpos] at hlast
  · rcases Nat.lt_or_eq_of_le hle12 with hlt | heq
    · have hnext := mt (hsearch month hlt).mpr (lt_irrefl _)
      rw [daysBeforeMonth_succ year hpos] at hnext
      exact not_le.mp hnext
    · have hyear := daysBeforeMonth_december year
      rw [heq]
      split at hyear <;> omega

/-- Quotient and remainder of a number given with its remainder. -/
private theorem div_mod_of_lt {k q r : ℕ} (hr : r < k) : (k * q + r) / k = q ∧ (k * q + r) % k = r := by
  have hk : 0 < k := Nat.zero_lt_of_lt hr
  exact ⟨by rw [Nat.mul_add_div hk, Nat.div_eq_of_lt hr, Nat.add_zero],
    by rw [Nat.mul_add_mod, Nat.mod_eq_of_lt hr]⟩

/-- `toYmd` of a day after so many whole cycles of 400, 100, 4 and 1 years. -/
private theorem toYmd_cycles {a b c e r : ℕ} (hb : 36524 * b + (1461 * c + (365 * e + r)) < 146097)
    (hc : 1461 * c + (365 * e + r) < 36524) (he : 365 * e + r < 1461) (hr : r < 365) :
    toYmd (146097 * a + (36524 * b + (1461 * c + (365 * e + r))) + 1) =
      let year := a * 400 + b * 100 + c * 4 + e + 1
      if e = 4 ∨ b = 4 then (year - 1, 12, 31)
      else
        let month := ((List.range 12).filter fun m => daysBeforeMonth year (m + 1) ≤ r).length
        (year, month, r - daysBeforeMonth year month + 1) := by
  simp only [toYmd, Nat.add_sub_cancel, (div_mod_of_lt hb).1, (div_mod_of_lt hb).2, (div_mod_of_lt hc).1,
    (div_mod_of_lt hc).2, (div_mod_of_lt he).1, (div_mod_of_lt he).2, (div_mod_of_lt hr).1, (div_mod_of_lt hr).2]

/-- The days before a year, by whole cycles. -/
private theorem daysBeforeYear_cycles {a b c e : ℕ} (hb : b < 4) (hc : c < 25) (he : e < 4) :
    daysBeforeYear (a * 400 + b * 100 + c * 4 + e + 1) = 146097 * a + 36524 * b + 1461 * c + 365 * e := by
  have h4 : (a * 400 + b * 100 + c * 4 + e) / 4 = a * 100 + b * 25 + c := by omega
  have h100 : (a * 400 + b * 100 + c * 4 + e) / 100 = a * 4 + b := by omega
  have h400 : (a * 400 + b * 100 + c * 4 + e) / 400 = a := by omega
  rw [daysBeforeYear, Nat.add_sub_cancel, h4, h100, h400]
  omega

/-- The last day of a year is in December. -/
private theorem inMonth_december {y : ℕ} (hy : 1 ≤ y) : InMonth y 12 (daysBeforeYear (y + 1)) := by
  have hend : daysBeforeYear (y + 1) = monthEnd y 12 := by
    rw [← monthStart_january hy, monthStart, daysBeforeMonth_january]
    rfl
  refine ⟨hy, by decide, le_rfl, ?_, le_of_eq hend⟩
  rw [hend, monthEnd]
  have := daysInMonth_ge y 12
  omega

/-- The day is in the month that `toYmd` computes, and is its day of that month. -/
private theorem toYmd_spec {d : ℕ} (hd : 0 < d) :
    InMonth (year d) (month d) d ∧ monthStart (year d) (month d) + (toYmd d).2.2 = d := by
  obtain ⟨n, rfl⟩ := Nat.exists_eq_add_of_le' hd
  -- the cycles of 400, 100, 4 and 1 years before the day
  obtain ⟨a, n, rfl, hb⟩ : ∃ a r, n = 146097 * a + r ∧ r < 146097 :=
    ⟨n / 146097, n % 146097, (Nat.div_add_mod _ _).symm, Nat.mod_lt _ (by decide)⟩
  obtain ⟨b, n, rfl, hc⟩ : ∃ b r, n = 36524 * b + r ∧ r < 36524 :=
    ⟨n / 36524, n % 36524, (Nat.div_add_mod _ _).symm, Nat.mod_lt _ (by decide)⟩
  obtain ⟨c, n, rfl, he⟩ : ∃ c r, n = 1461 * c + r ∧ r < 1461 :=
    ⟨n / 1461, n % 1461, (Nat.div_add_mod _ _).symm, Nat.mod_lt _ (by decide)⟩
  obtain ⟨e, r, rfl, hr⟩ : ∃ e r, n = 365 * e + r ∧ r < 365 :=
    ⟨n / 365, n % 365, (Nat.div_add_mod _ _).symm, Nat.mod_lt _ (by decide)⟩
  rw [year, month, toYmd_cycles hb hc he hr]
  by_cases hlast : e = 4 ∨ b = 4
  · -- the last day of a leap year
    simp only [if_pos hlast, Nat.add_sub_cancel]
    have hday : 146097 * a + (36524 * b + (1461 * c + (365 * e + r))) + 1 =
        daysBeforeYear (a * 400 + b * 100 + c * 4 + e + 1) := by
      rcases hlast with rfl | rfl
      · have h := @daysBeforeYear_cycles a b (c + 1) 0 (by omega) (by omega) (by decide)
        rw [show a * 400 + b * 100 + c * 4 + 4 + 1 = a * 400 + b * 100 + (c + 1) * 4 + 0 + 1 by omega, h]
        omega
      · obtain ⟨rfl, rfl, rfl⟩ : c = 0 ∧ e = 0 ∧ r = 0 := by omega
        have h := @daysBeforeYear_cycles (a + 1) 0 0 0 (by decide) (by decide) (by decide)
        rw [show a * 400 + 4 * 100 + 0 * 4 + 0 + 1 = (a + 1) * 400 + 0 * 100 + 0 * 4 + 0 + 1 by omega, h]
        omega
    have hy : 1 ≤ a * 400 + b * 100 + c * 4 + e := by omega
    have hend : daysBeforeYear (a * 400 + b * 100 + c * 4 + e + 1) =
        monthStart (a * 400 + b * 100 + c * 4 + e) 12 + 31 := monthStart_january hy
    rw [hday]
    exact ⟨inMonth_december hy, hend.symm⟩
  · obtain ⟨he4, hb4⟩ := not_or.mp hlast
    obtain ⟨⟨hm, hm12⟩, hle, hlt⟩ := month_search (a * 400 + b * 100 + c * 4 + e + 1) hr
    have hyear := @daysBeforeYear_cycles a b c e (by omega) (by omega) (by omega)
    simp only [if_neg hlast]
    refine ⟨⟨by omega, hm, hm12, ?_, ?_⟩, ?_⟩
    · rw [monthStart, hyear]
      omega
    · rw [monthEnd, monthStart, hyear]
      omega
    · rw [monthStart, hyear]
      omega

/-- The day is in the month that `toYmd` computes. -/
theorem inMonth_toYmd {d : ℕ} (hd : 0 < d) : InMonth (year d) (month d) d := (toYmd_spec hd).1

/-- The day of the month. -/
theorem day_bounds {d : ℕ} (hd : 0 < d) : 1 ≤ (toYmd d).2.2 ∧ (toYmd d).2.2 ≤ daysInMonth (year d) (month d) := by
  obtain ⟨⟨-, -, -, hlt, hle⟩, hday⟩ := toYmd_spec hd
  have hend : monthEnd (year d) (month d) = monthStart (year d) (month d) + daysInMonth (year d) (month d) := rfl
  omega

theorem daysInMonth_le (year month : ℕ) : daysInMonth year month ≤ 31 := by
  unfold daysInMonth
  split <;> split <;> omega

theorem month_pos {d : ℕ} (hd : 0 < d) : 1 ≤ month d := (inMonth_toYmd hd).month_pos

theorem month_lt {d : ℕ} (hd : 0 < d) : month d < 13 := Nat.lt_succ_of_le (inMonth_toYmd hd).month_le

/-- The day of the month has two digits. -/
theorem day_lt {d : ℕ} (hd : 0 < d) : (toYmd d).2.2 < 100 :=
  lt_of_le_of_lt ((day_bounds hd).2.trans (daysInMonth_le _ _)) (by decide)

/-- `date(d.year, d.month, d.day)` is `d`. -/
theorem ofYmd_toYmd {d : ℕ} (hd : 0 < d) (hyear : year d ≤ 9999) :
    ofYmd (toYmd d).1 (toYmd d).2.1 (toYmd d).2.2 = some d := by
  obtain ⟨hmonth, hday⟩ := toYmd_spec hd
  obtain ⟨hfirst, hlast⟩ := day_bounds hd
  rw [ofYmd, if_pos ⟨hmonth.year_pos, hyear, hmonth.month_pos, hmonth.month_le, hfirst, hlast⟩]
  exact congrArg some hday

/-- **The month of a day** is the one it is in. -/
theorem year_month_iff {y m d : ℕ} (hd : 0 < d) : (year d = y ∧ month d = m) ↔ InMonth y m d := by
  constructor
  · rintro ⟨rfl, rfl⟩
    exact inMonth_toYmd hd
  · exact fun h => (inMonth_toYmd hd).unique h

end NiftyShield.Date
