import NiftyShield.Models.Common

/-!
# Trading days

`is_trading_day` (`src/market_calendar/holidays.py`), and the loop that goes back from a day
to a trading day, which several callers have.

## Honest scope

What `load_holidays` finds for each year is a parameter; the empty list is also its answer
for a year whose file is missing. Going back past `date.min` is an `OverflowError` there and
ends in day 0, which is no date, here.
-/

namespace NiftyShield.MarketCalendar

/-- The holidays of each year. -/
abbrev Holidays := ℕ → List Date

/-- `is_trading_day`. -/
def isTradingDay (holidays : Holidays) (d : Date) : Bool :=
  if 5 ≤ d.weekday then false else d ∉ holidays d.year

/-- `while not trading_day(d): d -= timedelta(days=1)`. -/
def backToTradingDay (tradingDay : Date → Bool) : Date → Date
  | 0 => 0
  | d + 1 => if tradingDay (d + 1) then d + 1 else backToTradingDay tradingDay d

end NiftyShield.MarketCalendar
