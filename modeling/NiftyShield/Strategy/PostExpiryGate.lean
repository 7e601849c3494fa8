import NiftyShield.Backtest.BhavcopySymbols

/-!
# The post-expiry gate

A condor is not entered on the day on which the monthly contracts settle. The entry scripts work that
day out of the calendar (`scripts/strategies/ic/ic_entry_gates.py`): the last Tuesday of the month, or
of the month before if that is still to come.

## What is proved

`postExpiryGate_spec`: what `_most_recently_settled_expiry` finds is the latest last Tuesday of a month
up to the day, in whatever month it is, and the gate blocks on the last Tuesdays of months and on no
other day.

## Honest scope

A day is any after January of year 1; in that month `date` has no month before to go to. Tuesdays that
are holidays settle earlier, of which the gate knows nothing: no entry is run on them.
-/

namespace NiftyShield.Strategy.IcEntry

open NiftyShield.Backtest Date

/-- `_last_tuesday_of_month`. -/
def lastTuesdayOfMonth (year month : ℕ) : Date :=
  let last := monthEnd year month
  let daysBack := (weekday last + 6) % 7
  last - daysBack

/-- `_most_recently_settled_expiry`. -/
def mostRecentlySettledExpiry (today : Date) : Date :=
  let current := lastTuesdayOfMonth today.year today.month
  if current ≤ today then current
  else if today.month - 1 = 0 then lastTuesdayOfMonth (today.year - 1) 12
  else lastTuesdayOfMonth today.year (today.month - 1)

/-- `_post_expiry_gate` exits. -/
def postExpiryGateBlocks (today : Date) : Bool := today ≤ mostRecentlySettledExpiry today

example : mostRecentlySettledExpiry 739797 = 739797 ∧ mostRecentlySettledExpiry 739796 = 739762 := by decide

/-- The day is the last Tuesday of its month. -/
def IsLastTuesday (d : Date) : Prop := IsLastWeekday 1 d.year d.month d

variable {y m y' m' : ℕ} {d e : Date}

theorem isLast_lastTuesdayOfMonth (hy : 1 ≤ y) (hm : 1 ≤ m) (hm12 : m ≤ 12) :
    IsLastWeekday 1 y m (lastTuesdayOfMonth y m) := by
  have hlong := daysInMonth_ge y m
  have hend : monthEnd y m = monthStart y m + daysInMonth y m := rfl
  have hday : lastTuesdayOfMonth y m = monthEnd y m - ((monthEnd y m + 6) % 7 + 6) % 7 := rfl
  have hwd : weekday (monthEnd y m - ((monthEnd y m + 6) % 7 + 6) % 7) = 1 := by
    unfold weekday
    omega
  rw [hday, ← hwd]
  exact isLastWeekday_of ⟨hy, hm, hm12, by omega, by omega⟩ (by omega)

/-- The last of a weekday in a month is the last of its own month. -/
theorem isLastTuesday_of (h : IsLastWeekday 1 y m d) : IsLastTuesday d := by
  obtain ⟨hyear, hmonth⟩ := (year_month_iff (Nat.zero_lt_of_lt h.inMonth.start_lt)).mpr h.inMonth
  rw [IsLastTuesday, hyear, hmonth]
  exact h

/-- A month has one last Tuesday. -/
theorem eq_of_isLast (h : IsLastWeekday 1 y m d) (h' : IsLastWeekday 1 y m e) : d = e :=
  le_antisymm (h'.last d h.inMonth h.weekday_eq) (h.last e h'.inMonth h'.weekday_eq)

/-- Of two last Tuesdays the one in the later month is the later. -/
theorem le_of_monthIndex_le (h : IsLastWeekday 1 y m d) (h' : IsLastWeekday 1 y' m' e)
    (hle : monthIndex y m ≤ monthIndex y' m') : d ≤ e := by
  rcases hle.lt_or_eq with hlt | heq
  · exact (h.inMonth.lt_of_monthIndex_lt h'.inMonth hlt).le
  · obtain ⟨-, hm, hm12, -, -⟩ := h.inMonth
    obtain ⟨-, hm', hm12', -, -⟩ := h'.inMonth
    unfold monthIndex at heq
    obtain ⟨rfl, rfl⟩ : y = y' ∧ m = m' := by omega
    exact (eq_of_isLast h h').le

/-- The month that is found, the day's own or the one before. -/
theorem mostRecentlySettledExpiry_cases {today : Date} (htoday : 31 < today) :
    ∃ y m, IsLastWeekday 1 y m (mostRecentlySettledExpiry today) ∧ mostRecentlySettledExpiry today ≤ today ∧
      (monthIndex y m = monthIndex today.year today.month ∨
        monthIndex y m + 1 = monthIndex today.year today.month ∧
          today < lastTuesdayOfMonth today.year today.month) := by
  have hin : InMonth today.year today.month today := inMonth_toYmd (Nat.zero_lt_of_lt htoday)
  have hcurrent := isLast_lastTuesdayOfMonth hin.year_pos hin.month_pos hin.month_le
  have hy := hin.year_pos
  have hm := hin.month_pos
  have hm12 := hin.month_le
  rw [mostRecentlySettledExpiry]
  by_cases hle : lastTuesdayOfMonth today.year today.month ≤ today
  · rw [if_pos hle]
    exact ⟨_, _, hcurrent, hle, .inl rfl⟩
  · rw [if_neg hle]
    by_cases hjanuary : today.month - 1 = 0
    · -- The year before: there is one, as the day is not in the first month of all.
      have hmonth : today.month = 1 := by omega
      have hyear : 1 < today.year := by
        by_contra hfirst
        have hyear : today.year = 1 := by omega
        have hend := hin.le_end
        rw [hyear, hmonth, show monthEnd 1 1 = 31 by decide] at hend
        exact absurd hend (not_le.mpr htoday)
      have hprev := isLast_lastTuesdayOfMonth (y := today.year - 1) (m := 12) (by omega) (by decide) (by decide)
      have hlt : monthIndex (today.year - 1) 12 < monthIndex today.year today.month := by
        unfold monthIndex
        omega
      rw [if_pos hjanuary]
      refine ⟨_, _, hprev, (hprev.inMonth.lt_of_monthIndex_lt hin hlt).le, .inr ⟨?_, not_le.mp hle⟩⟩
      unfold monthIndex
      omega
    · have hprev := isLast_lastTuesdayOfMonth (y := today.year) (m := today.month - 1) hin.year_pos (by omega) (by omega)
      have hlt : monthIndex today.year (today.month - 1) < monthIndex today.year today.month := by
        unfold monthIndex
        omega
      rw [if_neg hjanuary]
      refine ⟨_, _, hprev, (hprev.inMonth.lt_of_monthIndex_lt hin hlt).le, .inr ⟨?_, not_le.mp hle⟩⟩
      unfold monthIndex
      omega

/-- **The gate** blocks on the last Tuesday of a month and on no other day: the expiry that it compares with
is the latest last Tuesday of all. -/
theorem postExpiryGate_spec {today : Date} (htoday : 31 < today) :
    IsLastTuesday (mostRecentlySettledExpiry today) ∧ mostRecentlySettledExpiry today ≤ today ∧
      (∀ d, IsLastTuesday d → d ≤ today → d ≤ mostRecentlySettledExpiry today) ∧
      (postExpiryGateBlocks today = true ↔ IsLastTuesday today) := by
  obtain ⟨y, m, hlast, hle, hmonth⟩ := mostRecentlySettledExpiry_cases htoday
  have hin : InMonth today.year today.month today := inMonth_toYmd (Nat.zero_lt_of_lt htoday)
  have hlatest : ∀ d, IsLastTuesday d → d ≤ today → d ≤ mostRecentlySettledExpiry today := by
    intro d hd hdle
    have hindex := hd.inMonth.monthIndex_le hin hdle
    rcases hmonth with hsame | ⟨hprev, hbefore⟩
    · exact le_of_monthIndex_le hd hlast (hsame ▸ hindex)
    · rcases hindex.lt_or_eq with hlt | heq
      · exact le_of_monthIndex_le hd hlast (by omega)
      · -- A last Tuesday of the day's own month would be the one that is still to come.
        have hcurrent := isLast_lastTuesdayOfMonth hin.year_pos hin.month_pos hin.month_le
        exact absurd (le_of_monthIndex_le hcurrent hd heq.ge) (not_le.mpr (hdle.trans_lt hbefore))
  refine ⟨isLastTuesday_of hlast, hle, hlatest, ?_⟩
  rw [postExpiryGateBlocks, decide_eq_true_iff]
  constructor
  · intro hblocks
    have hsettles := isLastTuesday_of hlast
    rwa [le_antisymm hle hblocks] at hsettles
  · exact fun htuesday => hlatest today htuesday le_rfl

/-- The last day of June 2026, a Tuesday. -/
theorem postExpiryGate_spec_june :
    IsLastTuesday (mostRecentlySettledExpiry 739797) ∧ mostRecentlySettledExpiry 739797 ≤ 739797 ∧
      (∀ d, IsLastTuesday d → d ≤ 739797 → d ≤ mostRecentlySettledExpiry 739797) ∧
      (postExpiryGateBlocks 739797 = true ↔ IsLastTuesday 739797) :=
  postExpiryGate_spec (by decide)

end NiftyShield.Strategy.IcEntry
