import NiftyShield.MarketCalendar.Holidays
import Mathlib.Order.Nat
import Mathlib.Tactic.Common

/-!
# Walking the trading days

The loops that look for a trading day: `_next_trading_day` and `_add_trading_days` of the
calendar cycle policies (`src/nifty_calendar/cycle.py`) and `prev_trading_day`
(`src/market_calendar/holidays.py`). They are stated for any calendar in which trading days
never end, and characterised by what they find: the first trading day after a day
(`nextTradingDay_spec`) and the last one up to a day (`backToTradingDay_spec`).
-/

namespace NiftyShield.MarketCalendar

/-- A trading-day calendar without an end. -/
structure TradingCalendar where
  /-- `is_trading_day`. -/
  isTradingDay : Date → Bool
  /-- A bound for the search of the next trading day. -/
  gap : Date → ℕ
  /-- There is a trading day after each day. -/
  endless : ∀ d, ∃ k : ℕ, k ≤ gap d ∧ isTradingDay (d + 1 + k) = true

/-- The first trading day from `d` on, within `n` days. -/
def firstFrom (tradingDay : Date → Bool) : ℕ → Date → Date
  | 0, d => d
  | n + 1, d => if tradingDay d then d else firstFrom tradingDay n (d + 1)

theorem firstFrom_spec (tradingDay : Date → Bool) : ∀ (n : ℕ) (d : Date),
    (∃ k : ℕ, k ≤ n ∧ tradingDay (d + k) = true) →
      d ≤ firstFrom tradingDay n d ∧ tradingDay (firstFrom tradingDay n d) = true ∧
        ∀ e, d ≤ e → tradingDay e = true → firstFrom tradingDay n d ≤ e := by
  intro n
  induction n with
  | zero =>
    rintro d ⟨k, hk, hd⟩
    obtain rfl : k = 0 := Nat.le_zero.mp hk
    exact ⟨le_rfl, hd, fun e he _ => he⟩
  | succ n ih =>
    rintro d ⟨k, hk, hd⟩
    rw [firstFrom]
    split
    next htd => exact ⟨le_rfl, htd, fun e he _ => he⟩
    next htd =>
      obtain ⟨k, rfl⟩ : ∃ j, k = j + 1 := Nat.exists_eq_succ_of_ne_zero (by rintro rfl; exact htd hd)
      obtain ⟨hle, hday, hleast⟩ := ih (d + 1) ⟨k, Nat.succ_le_succ_iff.mp hk, by
        rwa [Nat.add_assoc, Nat.add_comm 1 k]⟩
      refine ⟨(Nat.le_succ d).trans hle, hday, fun e he hed => hleast e ?_ hed⟩
      rcases Nat.eq_or_lt_of_le he with rfl | hlt
      · exact absurd hed htd
      · exact hlt

namespace TradingCalendar

variable (c : TradingCalendar)

/-- `_next_trading_day`: the first trading day after `d`. -/
def nextTradingDay (d : Date) : Date := firstFrom c.isTradingDay (c.gap d) (d + 1)

/-- `_add_trading_days`: that many trading days on. -/
def addTradingDays : Date → ℕ → Date
  | start, 0 => start
  | start, n + 1 => addTradingDays (c.nextTradingDay start) n

/-- `prev_trading_day`: the last trading day before `d`. -/
def prevTradingDay (d : Date) : Date := backToTradingDay c.isTradingDay (d - 1)

/-- The next trading day is the first one after the day. -/
theorem nextTradingDay_spec (d : Date) :
    d < c.nextTradingDay d ∧ c.isTradingDay (c.nextTradingDay d) = true ∧
      ∀ e, d < e → c.isTradingDay e = true → c.nextTradingDay d ≤ e :=
  firstFrom_spec c.isTradingDay (c.gap d) (d + 1) (c.endless d)

theorem lt_nextTradingDay (d : Date) : d < c.nextTradingDay d := (c.nextTradingDay_spec d).1

theorem le_addTradingDays (start : Date) (n : ℕ) : start ≤ c.addTradingDays start n := by
  induction n generalizing start with
  | zero => exact le_rfl
  | succ n ih => exact (c.lt_nextTradingDay start).le.trans (ih _)

/-- The calendar in which every weekday is a trading day. -/
def weekdays : TradingCalendar where
  isTradingDay := MarketCalendar.isTradingDay fun _ => []
  gap _ := 2
  endless d := by
    have hweek : ∀ n : ℕ, ∃ k : ℕ, k ≤ 2 ∧ ¬5 ≤ (n + 1 + k + 6) % 7 := by
      intro n
      by_cases h0 : ¬5 ≤ (n + 1 + 0 + 6) % 7
      · exact ⟨0, by omega, h0⟩
      · by_cases h1 : ¬5 ≤ (n + 1 + 1 + 6) % 7
        · exact ⟨1, by omega, h1⟩
        · exact ⟨2, le_rfl, by omega⟩
    obtain ⟨k, hk, h⟩ := hweek d
    exact ⟨k, hk, by simp [MarketCalendar.isTradingDay, Date.weekday, h]⟩

end TradingCalendar

/-- Going back ends on the last trading day up to the day, or on day 0 if there is none. -/
theorem backToTradingDay_spec (tradingDay : Date → Bool) : ∀ d : Date,
    backToTradingDay tradingDay d ≤ d ∧
      (backToTradingDay tradingDay d ≠ 0 → tradingDay (backToTradingDay tradingDay d) = true) ∧
      ∀ e, backToTradingDay tradingDay d < e → e ≤ d → tradingDay e = false := by
  intro d
  induction d with
  | zero => exact ⟨le_rfl, fun h => absurd rfl h, fun e he hle => absurd (lt_of_lt_of_le he hle) (lt_irrefl 0)⟩
  | succ d ih =>
    rw [backToTradingDay]
    split
    next htd => exact ⟨le_rfl, fun _ => htd, fun e he hle => absurd (lt_of_lt_of_le he hle) (lt_irrefl _)⟩
    next htd =>
      obtain ⟨hle, hday, hnone⟩ := ih
      refine ⟨hle.trans (Nat.le_succ d), hday, fun e he hed => ?_⟩
      rcases Nat.eq_or_lt_of_le hed with rfl | hlt
      · simpa using htd
      · exact hnone e he (Nat.lt_succ_iff.mp hlt)

end NiftyShield.MarketCalendar
