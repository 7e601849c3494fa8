import Mathlib.Algebra.GroupWithZero.Nat
import Mathlib.Data.Int.Notation

/-!
# Values shared by every part of the program

Dates, the two trade directions (`TradeAction`) and the option classification
(`Literal["PE", "CE", "FUT", "EQ"]`).

## Honest scope

A `date` is its proleptic Gregorian ordinal (`date.toordinal()`): the program orders
dates, compares them and subtracts them, and writes them as ISO text, whose order is the
order of the dates. `ofYmd` is the constructor `date(year, month, day)`, with its range
checks.
-/

namespace NiftyShield

/-- The value of a run of digits. -/
def digitsValue (ds : List Char) : ℕ := ds.foldl (fun n c => 10 * n + (c.toNat - '0'.toNat)) 0

/-- A number that is written is read back. -/
theorem digitsValue_toDigits (n : ℕ) : digitsValue (Nat.toDigits 10 n) = n :=
  Nat.ofDigitChars_toDigits (by decide) (by decide)

/-- A number below 100 in two digits. -/
def twoDigits (n : ℕ) : List Char := [Nat.digitChar (n / 10), Nat.digitChar (n % 10)]

theorem digitsValue_twoDigits : ∀ n < 100, digitsValue (twoDigits n) = n := by decide

theorem isDigit_of_mem_twoDigits {n : ℕ} (hn : n < 100) {c : Char} (hc : c ∈ twoDigits n) : c.isDigit = true := by
  have htens : n / 10 < 10 := Nat.div_lt_of_lt_mul hn
  have hones : n % 10 < 10 := Nat.mod_lt _ (by decide)
  simp only [twoDigits, List.mem_cons, List.not_mem_nil, or_false] at hc
  rcases hc with rfl | rfl
  · rw [Nat.isDigit_digitChar, decide_eq_true htens]
  · rw [Nat.isDigit_digitChar, decide_eq_true hones]

/-- A calendar date, as `date.toordinal()`. -/
abbrev Date := ℕ

namespace Date

/-- `date.min`, `0001-01-01`. -/
def min : Date := 1

/-- `calendar.isleap`. -/
def isLeap (year : ℕ) : Bool := year % 4 == 0 && (year % 100 != 0 || year % 400 == 0)

/-- The number of days of a month. -/
def daysInMonth (year month : ℕ) : ℕ :=
  if month = 2 then (if isLeap year then 29 else 28) else if month ∈ [4, 6, 9, 11] then 30 else 31

/-- The days of the year before the first of the month. -/
def daysBeforeMonth (year month : ℕ) : ℕ := ((List.range (month - 1)).map fun m => daysInMonth year (m + 1)).sum

/-- The days before the first of January of the year. -/
def daysBeforeYear (year : ℕ) : ℕ := (year - 1) * 365 + (year - 1) / 4 - (year - 1) / 100 + (year - 1) / 400

/-- `date(year, month, day)`; `none` is its `ValueError`. -/
def ofYmd (year month day : ℕ) : Option Date :=
  if 1 ≤ year ∧ year ≤ 9999 ∧ 1 ≤ month ∧ month ≤ 12 ∧ 1 ≤ day ∧ day ≤ daysInMonth year month then
    some (daysBeforeYear year + daysBeforeMonth year month + day)
  else none

/-- The year, month and day of a date, as CPython's `_ord2ymd` computes them. -/
def toYmd (d : Date) : ℕ × ℕ × ℕ :=
  let n := d - 1
  let n400 := n / 146097
  let n := n % 146097
  let n100 := n / 36524
  let n := n % 36524
  let n4 := n / 1461
  let n := n % 1461
  let n1 := n / 365
  let n := n % 365
  let year := n400 * 400 + n100 * 100 + n4 * 4 + n1 + 1
  if n1 = 4 ∨ n100 = 4 then (year - 1, 12, 31)
  else
    let month := ((List.range 12).filter fun m => daysBeforeMonth year (m + 1) ≤ n).length
    (year, month, n - daysBeforeMonth year month + 1)

/-- `date.year`. -/
def year (d : Date) : ℕ := (toYmd d).1

/-- `date.month`. -/
def month (d : Date) : ℕ := (toYmd d).2.1

/-- `date.weekday()`: Monday is 0. -/
def weekday (d : Date) : ℕ := (d + 6) % 7

/-- `(later - earlier).days`. -/
def daysBetween (earlier later : Date) : ℤ := (later : ℤ) - earlier

/-- A number in decimal with leading zeros. -/
def padded (width n : ℕ) : String :=
  let digits := toString n
  String.ofList (List.replicate (width - digits.length) '0') ++ digits

/-- `date.isoformat()`. -/
def isoformat (d : Date) : String :=
  let (year, month, day) := toYmd d
  padded 4 year ++ "-" ++ padded 2 month ++ "-" ++ padded 2 day

example : ofYmd 2026 6 30 = some 739797 ∧ toYmd 739797 = (2026, 6, 30) ∧ weekday 739797 = 1 := by decide

end Date

/-- Direction of a trade execution. -/
inductive TradeAction where
  /-- `"BUY"`. -/
  | buy
  /-- `"SELL"`. -/
  | sell
  deriving DecidableEq, Repr

namespace TradeAction

/-- The text of the enum member. -/
def value : TradeAction → String
  | buy => "BUY"
  | sell => "SELL"

/-- `TradeAction(text)`; `none` is its `ValueError`. -/
def ofValue (text : String) : Option TradeAction :=
  if text = "BUY" then some buy else if text = "SELL" then some sell else none

theorem ofValue_value (a : TradeAction) : ofValue a.value = some a := by
  cases a <;> rfl

/-- The action that closes a position opened by this one. -/
def opposite : TradeAction → TradeAction
  | buy => sell
  | sell => buy

end TradeAction

/-- The classification of an instrument: `"PE"`, `"CE"`, `"FUT"` or `"EQ"`. -/
inductive OptionType where
  /-- A put. -/
  | pe
  /-- A call. -/
  | ce
  /-- A futures contract. -/
  | fut
  /-- The NiftyBees equity leg. -/
  | eq
  deriving DecidableEq, Repr

/-- A NIFTY lot is not empty. -/
theorem lot_pos : 0 < 65 := by decide

end NiftyShield
