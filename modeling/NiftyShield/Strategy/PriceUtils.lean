import NiftyShield.Instruments.Lookup
import NiftyShield.Models.Options

/-!
# Resolving an instrument in a chain

`find_option_leg`, `resolve_price` and `resolve_option_expiry`
(`src/strategy/_price_utils.py`): a symbolic key is read, an opaque one is looked up in
the BOD file.
-/

namespace NiftyShield.Strategy

open NiftyShield.Instruments

/-- `_resolve_from_regex`: the leg of a symbolic key. -/
def resolveFromRegex (instrumentKey : String) (market : OptionChain) : Option OptionLeg := do
  let (strike, optionType) ← strikeOfKey instrumentKey
  let strikeData ← market.strikes.get? strike
  strikeData.side optionType

/-- `option_type.upper()` of a BOD row, if it is an option. -/
def bodOptionType (inst : Instrument) : Option OptionType :=
  match inst.instrumentType.map String.toUpper with
  | some "CE" => some .ce
  | some "PE" => some .pe
  | _ => none

/-- `_resolve_via_bod`: the leg of the strike and type in the BOD file. -/
def resolveViaBod (instrumentKey : String) (market : OptionChain) (lookup : InstrumentLookup) : Option OptionLeg := do
  let inst ← lookup.getByKey instrumentKey
  let optionType ← bodOptionType inst
  let strike ← inst.strikePrice
  let strikeData ← market.strikes.get? strike
  strikeData.side optionType

/-- `find_option_leg`. -/
def findOptionLeg (instrumentKey : String) (market : OptionChain) (lookup : Option InstrumentLookup) : Option OptionLeg :=
  (resolveFromRegex instrumentKey market).orElse fun _ => lookup.bind (resolveViaBod instrumentKey market)

/-- `resolve_price`: the mid of bid and ask, else the last price; `none` is its
`ValueError`. -/
def resolvePrice (leg : OptionLeg) : Option ℚ :=
  if 0 < leg.bid ∧ 0 < leg.ask then some ((leg.bid + leg.ask) / 2) else if 0 < leg.ltp then some leg.ltp else none

/-- A resolved price is positive. -/
theorem resolvePrice_pos {leg : OptionLeg} {p : ℚ} (h : resolvePrice leg = some p) : 0 < p := by
  unfold resolvePrice at h
  split at h
  next hba =>
    obtain rfl := Option.some.inj h
    exact div_pos (add_pos hba.1 hba.2) two_pos
  next =>
    split at h
    next hl =>
      obtain rfl := Option.some.inj h
      exact hl
    next => exact absurd h (by simp)

/-- `_EXPIRY_RE`, `NSE_FO\|NIFTY(\d{2}[A-Za-z]{3}\d{4})`: `none` if it does not match. -/
def expiryTextOfKey (key : String) : Option (ℕ × List Char × ℕ) :=
  searchFrom (fun s => do
    let s ← stripPrefixCI "NSE_FO|NIFTY".toList s
    let (day, month, year, _) ← takeDayMonthYear s
    some (day, month, year)) key.toList

/-- `resolve_option_expiry`: the date in a symbolic key, else the BOD row's expiry. -/
def resolveOptionExpiry (instrumentKey : String) (lookup : Option InstrumentLookup) : Option Date :=
  match expiryTextOfKey instrumentKey with
  | some (day, month, year) => dateOfParts day month year
  | none => (lookup.bind (·.getByKey instrumentKey)).bind (·.expiry)

end NiftyShield.Strategy
