import NiftyShield.Instruments.Lookup
import NiftyShield.Models.Options

/-!
# Reading a key

`parse_expiry_from_key`, `parse_strike_from_key` and `find_chain_leg`
(`src/paper/chain_utils.py`). The expiry is read off the key alone; only the strike is also
looked up in the BOD file.
-/

namespace NiftyShield.Paper

open NiftyShield.Instruments

/-- `NIFTY(\d{2})([A-Za-z]{3})(\d{4})`: day, month letters, year, and the text after them. -/
def niftyDate (s : List Char) : Option (ℕ × List Char × ℕ × List Char) :=
  (stripPrefixCI "NIFTY".toList s).bind takeDayMonthYear

/-- `parse_expiry_from_key`, of the keys `NIFTY29MAY2026CE…`. -/
def parseExpiryFromKey (instrumentKey : String) : Option Date :=
  (searchFrom (fun s => do
    let (day, month, year, rest) ← niftyDate s
    let _ ← optionSuffix rest
    some (day, month, year)) instrumentKey.toList).bind fun (day, month, year) => dateOfParts day month year

/-- `_KEY_DATE_STRIKE_RE`: the strike after the option type. -/
def dateStrikeOfKey (instrumentKey : String) : Option ℕ :=
  searchFrom (fun s => do
    let (_, _, _, rest) ← niftyDate s
    let _ ← optionSuffix rest
    let ds := (rest.drop 2).takeWhile Char.isDigit
    if ds = [] then none else some (digitsValue ds)) instrumentKey.toList

/-- `parse_strike_from_key`. -/
def parseStrikeFromKey (instrumentKey : String) : Option ℕ :=
  ((strikeOfKey instrumentKey).map Prod.fst).orElse fun _ => dateStrikeOfKey instrumentKey

/-- The strike `find_chain_leg` looks for. -/
def chainStrike (instrumentKey : String) (lookup : Option InstrumentLookup) : Option ℚ :=
  ((parseStrikeFromKey instrumentKey).map Nat.cast).orElse fun _ =>
    (lookup.bind (·.getByKey instrumentKey)).bind (·.strikePrice)

/-- `find_chain_leg`. -/
def findChainLeg (chain : OptionChain) (instrumentKey : String) (optionType : OptionType)
    (lookup : Option InstrumentLookup) : Option OptionLeg := do
  let strike ← chainStrike instrumentKey lookup
  let strikeData ← chain.strikes.get? strike
  if optionType = .ce then strikeData.ce else strikeData.pe

example : parseExpiryFromKey "NSE_FO|NIFTY30JUN2026CE24000" = some 739797 := by decide +kernel
example : parseExpiryFromKey "NSE_FO|65900" = none := by decide +kernel

end NiftyShield.Paper
