import NiftyShield.Instruments.Lookup
import Mathlib.Data.List.Dedup
import Mathlib.Data.List.MinMax
import Mathlib.Data.List.Sort

/-!
# Expiry selection

`get_all_option_expiries` and `get_expiry_candidates` of `InstrumentLookup`
(`src/instruments/lookup.py`): the expiries listed for an underlying and, from them, the
contract of each band (weekly, monthly, quarterly, yearly) on a given day.

A contract that is rolled is replaced by the next one to expire (`get_next_contract`) or, for an
option that is to stay in its band, by one of the next expiry of a band
(`get_next_contract_in_band`).
-/

namespace NiftyShield.Instruments

/-- The expiries of the option rows of an underlying, each once, ascending. -/
def InstrumentLookup.allOptionExpiries (l : InstrumentLookup) (underlying : String) : List Date :=
  ((l.instruments.filter fun inst =>
      inst.segment = "NSE_FO" && (inst.instrumentType = some "CE" || inst.instrumentType = some "PE") &&
        inst.underlyingSymbol.toUpper = underlying.toUpper).filterMap (·.expiry)).dedup.insertionSort (· ≤ ·)

/-- The last of the listed expiries in its calendar month. -/
def isLastOfMonth (expiries : List Date) (d : Date) : Bool :=
  expiries.all fun e => e.year ≠ d.year || e.month ≠ d.month || e ≤ d

/-- `get_expiry_candidates`: for each preferred band that has one, its label and expiry. -/
def InstrumentLookup.expiryCandidates (l : InstrumentLookup) (underlying : String) (today : Date)
    (preference : List String) (minExpiry : Option Date) : List (String × Date) :=
  let seen := (l.allOptionExpiries underlying).filter fun d => minExpiry.all (· < d)
  let dte := fun d : Date => Date.daysBetween today d
  let weekly := seen.find? fun d =>
    1 ≤ dte d && dte d ≤ 14 && d.weekday = 1 && !(dte d = 14 && isLastOfMonth seen d)
  let quarterly := seen.find? fun d =>
    46 ≤ dte d && dte d ≤ 200 && isLastOfMonth seen d && (d.month ∈ [3, 6, 9, 12] : Bool)
  let monthly := (seen.filter fun d => isLastOfMonth seen d && 14 ≤ dte d).head?
  let yearly := (seen.filter fun d => isLastOfMonth seen d && d.month = 12 && 1 ≤ dte d).head?
  let mapping := fun label : String =>
    if label = "weekly" then weekly
    else if label = "quarterly" then quarterly
    else if label = "monthly" then monthly else if label = "yearly" then yearly else none
  (if preference = [] then ["monthly", "quarterly", "yearly"] else preference).filterMap fun label =>
    (mapping label).map fun d => (label, d)

/-- `inst_type in ("CE", "PE")`. -/
def Instrument.isOption (inst : Instrument) : Bool :=
  inst.instrumentType = some "CE" || inst.instrumentType = some "PE"

/-- `get_next_contract`: of the rows of the same underlying and type, and for an option of the
same strike, that expire later, the first to. -/
def InstrumentLookup.getNextContract (l : InstrumentLookup) (instrumentKey : String) : Option Instrument := do
  let current ← l.getByKey instrumentKey
  let currentExpiry ← current.expiry
  let candidates := l.instruments.filterMap fun inst =>
    if inst.underlyingSymbol ≠ current.underlyingSymbol || inst.instrumentType ≠ current.instrumentType ||
        (current.isOption && inst.strikePrice ≠ current.strikePrice) then none
    else (inst.expiry.filter (currentExpiry < ·)).map fun expiry => (expiry, inst)
  let first ← (candidates.insertionSort fun a b => a.1 ≤ b.1).head?
  some first.2

/-- `get_next_contract_in_band` with the default preference: the first row of the same
underlying, type and strike at the first of the band expiries that has one. -/
def InstrumentLookup.getNextContractInBand (l : InstrumentLookup) (instrumentKey : String) (today : Date) :
    Option Instrument := do
  let current ← l.getByKey instrumentKey
  if !current.isOption || current.underlyingSymbol = "" || current.strikePrice.isNone then none
  else
    (l.expiryCandidates current.underlyingSymbol today [] current.expiry).findSome? fun (_, expDate) =>
      l.instruments.find? fun inst =>
        inst.underlyingSymbol = current.underlyingSymbol && inst.instrumentType = current.instrumentType &&
          inst.strikePrice = current.strikePrice && inst.expiry = some expDate

end NiftyShield.Instruments
