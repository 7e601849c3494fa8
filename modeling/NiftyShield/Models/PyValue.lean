import NiftyShield.Lib.Rounding
import NiftyShield.Models.Common
import Mathlib.Data.Rat.Defs

/-!
# Payload values

The values a signal payload can hold (`dict[str, Any]`), with the distinctions that
`json.dumps` makes: it writes `None`, booleans, integers, floats, strings, lists and
dictionaries with text keys, and raises `TypeError` on anything else. A `Decimal`, a `date`
and the program's own `LegSpec` are such values. What it writes, `json.loads` reads back as
the value it was.

A handler of such a value that does not check its type raises where the operation is not
defined for it; here the operation is then `none`. Texts are ASCII where `int` reads them.
-/

namespace NiftyShield

/-! ### Reading integers -/

/-- White space, as `str.strip` sees it. -/
def isSpace (c : Char) : Bool := c = ' ' || (9 ≤ c.toNat && c.toNat ≤ 13) || (28 ≤ c.toNat && c.toNat ≤ 31)

/-- Digits, with single underscores between them. -/
def digitsOfText (s : List Char) : Option ℕ :=
  if (s.splitOn '_').all fun ds => !ds.isEmpty && ds.all Char.isDigit then some (digitsValue (s.filter (· ≠ '_')))
  else none

/-- `int(text)`; `none` is its `ValueError`. -/
def intOfText (text : List Char) : Option ℤ :=
  match ((text.dropWhile isSpace).reverse.dropWhile isSpace).reverse with
  | '-' :: ds => (digitsOfText ds).map fun n => -(n : ℤ)
  | '+' :: ds => (digitsOfText ds).map Int.ofNat
  | ds => (digitsOfText ds).map Int.ofNat

private theorem isSpace_of_isDigit {c : Char} (h : c.isDigit = true) : isSpace c = false := by
  unfold Char.isDigit at h
  rw [Bool.and_eq_true, decide_eq_true_eq, decide_eq_true_eq] at h
  have hc : 48 ≤ c.toNat ∧ c.toNat ≤ 57 := ⟨UInt32.le_iff_toNat_le.mp h.1, UInt32.le_iff_toNat_le.mp h.2⟩
  have hne : c ≠ ' ' := fun h => by
    rw [h] at hc
    exact absurd hc.1 (by decide)
  simp only [isSpace, hne, decide_false, Bool.false_or, Bool.or_eq_false_iff, Bool.and_eq_false_iff,
    decide_eq_false_iff_not]
  omega

private theorem dropWhile_isSpace {s : List Char} (h : ∀ c ∈ s, c.isDigit = true) :
    s.dropWhile isSpace = s := by
  cases s with
  | nil => rfl
  | cons c s => rw [List.dropWhile_cons, isSpace_of_isDigit (h c List.mem_cons_self)]; rfl

/-- A number that has been written is read back. -/
theorem intOfText_toDigits (n : ℕ) : intOfText (Nat.toDigits 10 n) = some (n : ℤ) := by
  have hdigit : ∀ c ∈ Nat.toDigits 10 n, c.isDigit = true := fun c hc =>
    Nat.isDigit_of_mem_toDigits (by decide) (by decide) hc
  have hdigits : digitsOfText (Nat.toDigits 10 n) = some n := by
    have hfilter : (Nat.toDigits 10 n).filter (· ≠ '_') = Nat.toDigits 10 n :=
      List.filter_eq_self.mpr fun c hc => decide_eq_true fun h => Nat.underscore_not_in_toDigits (h ▸ hc)
    rw [digitsOfText, List.splitOn_eq_singleton Nat.underscore_not_in_toDigits, hfilter,
      digitsValue_toDigits]
    simpa [Nat.toDigits_ne_nil] using hdigit
  have hrev : ∀ c ∈ (Nat.toDigits 10 n).reverse, c.isDigit = true := fun c hc =>
    hdigit c (List.mem_reverse.mp hc)
  rw [intOfText, dropWhile_isSpace hdigit, dropWhile_isSpace hrev, List.reverse_reverse]
  split
  next ds h => exact absurd (hdigit '-' (h ▸ List.mem_cons_self)) (by decide)
  next ds h => exact absurd (hdigit '+' (h ▸ List.mem_cons_self)) (by decide)
  next => rw [hdigits]; rfl

/-! ### Values -/

/-- A value in a payload. -/
inductive PyValue where
  /-- `None`. -/
  | none
  /-- A truth value. -/
  | bool (b : Bool)
  /-- An integer. -/
  | int (z : ℤ)
  /-- A float. -/
  | float (q : ℚ)
  /-- A text. -/
  | str (s : String)
  /-- A list. -/
  | list (vs : List PyValue)
  /-- A dictionary with text keys. -/
  | dict (es : List (String × PyValue))
  /-- A `Decimal`. -/
  | decimal (q : ℚ)
  /-- A `date`, by ordinal. -/
  | date (ordinal : ℕ)
  /-- A `LegSpec`. -/
  | legSpec (instrumentKey action : String) (quantity : ℤ) (legRole notes : String) (price : Option ℚ)

namespace PyValue

/-- `d.get(key)` on a dictionary, `none` when absent. -/
def lookup (es : List (String × PyValue)) (key : String) : Option PyValue :=
  (es.find? fun e => e.1 = key).map Prod.snd

/-- `bool(v)`. -/
def truthy : PyValue → Bool
  | none => false
  | bool b => b
  | int z => z ≠ 0
  | float q => q ≠ 0
  | str s => s ≠ ""
  | list vs => !vs.isEmpty
  | dict es => !es.isEmpty
  | decimal q => q ≠ 0
  | date _ => true
  | legSpec .. => true

/-- `int(v)`. -/
def toInt : PyValue → Option ℤ
  | bool b => some (if b then 1 else 0)
  | int z => some z
  | float q | decimal q => some (Lib.truncate q)
  | str s => intOfText s.toList
  | _ => Option.none

/-- `v == z` for an integer `z`. -/
def eqInt (v : PyValue) (z : ℤ) : Bool :=
  match v with
  | bool b => (if b then 1 else 0) = z
  | int y => y = z
  | float q | decimal q => q = z
  | _ => false

/-- The items that `for x in v` goes through. -/
def items : PyValue → Option (List PyValue)
  | str s => some (s.toList.map fun c => str (String.singleton c))
  | list vs => some vs
  | dict es => some (es.map fun e => str e.1)
  | _ => Option.none

/-- A dictionary. -/
def asDict : PyValue → Option (List (String × PyValue))
  | dict es => some es
  | _ => Option.none

mutual

/-- Whether `json.dumps` accepts the value. -/
def isJson : PyValue → Bool
  | none | bool _ | int _ | float _ | str _ => true
  | list vs => isJsonList vs
  | dict es => isJsonDict es
  | decimal _ | date _ | legSpec .. => false

/-- The items of a list. -/
def isJsonList : List PyValue → Bool
  | [] => true
  | v :: vs => isJson v && isJsonList vs

/-- The values of a dictionary. -/
def isJsonDict : List (String × PyValue) → Bool
  | [] => true
  | (_, v) :: es => isJson v && isJsonDict es

end

end PyValue

/-- A payload: a dictionary with text keys. -/
abbrev Payload := List (String × PyValue)

/-- `json.dumps(payload)`, as the value that `json.loads` reads back from the text;
`none` is its `TypeError`. -/
def Payload.jsonDumps (p : Payload) : Option Payload := if PyValue.isJsonDict p then some p else none

end NiftyShield
