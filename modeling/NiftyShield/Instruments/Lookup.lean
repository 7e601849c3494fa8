import NiftyShield.Models.Common
import Mathlib.Data.Rat.Defs
import Mathlib.Algebra.Order.Ring.Rat

/-!
# Instrument keys and the BOD instrument file

`InstrumentLookup` (`src/instruments/lookup.py`) searches the rows of the daily
instrument file. Real keys are opaque (`NSE_FO|65900`) and are resolved through it;
symbolic keys (`NSE_FO|NIFTY30JUN202624000PE`) carry strike and expiry in their text and
are read by regular expressions (`src/strategy/_price_utils.py`, and
`StrategyMonitor._get_position_expiry`).

## Honest scope

An instrument keeps the fields the modelled functions read. Its `expiry` is the date that
`parse_expiry` followed by `date.fromisoformat` gives, `none` when either fails, so the
text comparison of `search_options` is a comparison of dates. The regular expressions are
matched on ASCII text (`re.IGNORECASE` is ASCII case folding, `\d` an ASCII digit).
-/

namespace NiftyShield.Instruments

/-- One row of the BOD file. -/
structure Instrument where
  /-- `instrument_key`. -/
  instrumentKey : String
  /-- `segment`, e.g. `NSE_FO`. -/
  segment : String := "NSE_FO"
  /-- `instrument_type`, e.g. `CE`. -/
  instrumentType : Option String := none
  /-- `underlying_symbol`. -/
  underlyingSymbol : String := ""
  /-- `strike_price`. -/
  strikePrice : Option ℚ := none
  /-- `expiry`, parsed. -/
  expiry : Option Date := none
  /-- `lot_size`. -/
  lotSize : Option ℤ := none
  deriving DecidableEq

/-- The instruments loaded from a BOD file. -/
structure InstrumentLookup where
  /-- The rows, in file order. -/
  instruments : List Instrument

/-! ### Lookups -/

/-- `get_by_key`: the first row with exactly this key. -/
def InstrumentLookup.getByKey (l : InstrumentLookup) (instrumentKey : String) : Option Instrument :=
  l.instruments.find? fun inst => inst.instrumentKey = instrumentKey

/-- `search_options`: the option rows that pass every given filter, at most `maxResults`. -/
def InstrumentLookup.searchOptions (l : InstrumentLookup) (underlying : String) (strike : Option ℚ)
    (optionType : Option String) (expiry : Option Date) (maxResults : ℕ) : List Instrument :=
  (l.instruments.filter fun inst =>
      inst.segment = "NSE_FO" && (optionType.isNone || inst.instrumentType = optionType) &&
        (inst.instrumentType = some "CE" || inst.instrumentType = some "PE") &&
        inst.underlyingSymbol.toUpper = underlying.toUpper &&
        (strike.isNone || inst.strikePrice = strike) && (expiry.isNone || inst.expiry = expiry)).take maxResults

/-! ### Symbolic keys -/

/-- The text after `pat` if the text starts with it, ignoring case. -/
def stripPrefixCI : List Char → List Char → Option (List Char)
  | [], s => some s
  | _ :: _, [] => none
  | p :: pat, c :: s => if p.toUpper = c.toUpper then stripPrefixCI pat s else none

/-- `re.search`: the result at the first position where the matcher succeeds. -/
def searchFrom {β : Type} (m : List Char → Option β) : List Char → Option β
  | [] => m []
  | c :: s => (m (c :: s)).orElse fun _ => searchFrom m s

/-- Exactly `n` digits, and the text after them. -/
def takeDigits : ℕ → List Char → Option (List Char × List Char)
  | 0, s => some ([], s)
  | _ + 1, [] => none
  | n + 1, c :: s => if c.isDigit then (takeDigits n s).map fun r => (c :: r.1, r.2) else none

/-- Exactly `n` letters, upper-cased, and the text after them. -/
def takeLetters : ℕ → List Char → Option (List Char × List Char)
  | 0, s => some ([], s)
  | _ + 1, [] => none
  | n + 1, c :: s => if c.isAlpha then (takeLetters n s).map fun r => (c.toUpper :: r.1, r.2) else none

/-- `PE` or `CE` at the head of the text. -/
def optionSuffix (s : List Char) : Option OptionType :=
  if (stripPrefixCI ['C', 'E'] s).isSome then some .ce
  else if (stripPrefixCI ['P', 'E'] s).isSome then some .pe else none

/-- `_STRIKE_RE`, `NIFTY(\d+)(PE|CE)`: the strike and type in a symbolic key. -/
def strikeOfKey (key : String) : Option (ℕ × OptionType) :=
  searchFrom (fun s => do
    let s ← stripPrefixCI "NIFTY".toList s
    let ds := s.takeWhile Char.isDigit
    let optionType ← optionSuffix (s.dropWhile Char.isDigit)
    if ds = [] then none else some (digitsValue ds, optionType)) key.toList

/-- The month names of the keys. -/
def monthAbbrs : List String :=
  ["JAN", "FEB", "MAR", "APR", "MAY", "JUN", "JUL", "AUG", "SEP", "OCT", "NOV", "DEC"]

/-- `_MONTH_ABBR`. -/
def monthOfAbbr (abbr : List Char) : Option ℕ := (monthAbbrs.findIdx? fun m => m.toList = abbr).map (· + 1)

/-- `\d{2}[A-Za-z]{3}\d{4}`: day, month letters, year, and the text after them. -/
def takeDayMonthYear (s : List Char) : Option (ℕ × List Char × ℕ × List Char) := do
  let (day, s) ← takeDigits 2 s
  let (month, s) ← takeLetters 3 s
  let (year, s) ← takeDigits 4 s
  some (digitsValue day, month, digitsValue year, s)

/-- The date written `30JUN2026`; `none` for an unknown month or an impossible day. -/
def dateOfParts (day : ℕ) (month : List Char) (year : ℕ) : Option Date :=
  (monthOfAbbr month).bind fun m => Date.ofYmd year m day

/-- `strftime("%d%b%Y").upper()`. -/
def expiryText (d : Date) : String :=
  let (year, month, day) := d.toYmd
  Date.padded 2 day ++ monthAbbrs.getD (month - 1) "" ++ toString year

example : strikeOfKey "NSE_FO|NIFTY23000PE" = some (23000, .pe) := by decide +kernel
example : strikeOfKey "NSE_FO|65900" = none := by decide +kernel

end NiftyShield.Instruments
