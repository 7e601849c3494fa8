import NiftyShield.Instruments.Lookup
import NiftyShield.Lib.TwoWay
import NiftyShield.Models.Options

/-!
# Contracts and the keys of the brokers

A `ContractRef` (`src/models/contract.py`) names an option contract without a broker. Each broker has
a master that maps contracts to its own keys and back (`src/client/contract_resolver.py`), and the
resolver has one master for each source that is registered. The keys of Upstox, from the instrument
file, are the ones the ledger uses.

## What is proved

* `exists_upstoxContractMaster_iff`: there is an Upstox master exactly when no contract and no key of the
  instrument file is listed twice;
* `back_upstox_iff`: a key of it is that of the one row of the file with the underlying, expiry, strike
  and side of the contract.

## Honest scope

The master of Dhan is any two-way dictionary: its scrip file is not read. An expiry in the instrument
file that is not a date counts as missing.
-/

namespace NiftyShield.Client

open NiftyShield.Instruments NiftyShield.Lib

/-- `SourceId`. -/
inductive SourceId where
  /-- `"upstox"`. -/
  | upstox
  /-- `"dhan"`. -/
  | dhan
  deriving DecidableEq

/-- The sides of a strike. -/
inductive OptionSide where
  /-- `"CE"`. -/
  | ce
  /-- `"PE"`. -/
  | pe
  deriving DecidableEq

/-- The text of a side. -/
def OptionSide.text : OptionSide → String
  | ce => "CE"
  | pe => "PE"

/-- The leg of a side. -/
def OptionSide.leg : OptionSide → OptionChainStrike → Option OptionLeg
  | ce, row => row.ce
  | pe, row => row.pe

/-- `ContractRef`. -/
structure ContractRef where
  /-- `underlying`. -/
  underlying : String
  /-- `expiry`. -/
  expiry : Date
  /-- `strike`. -/
  strike : ℚ
  /-- `side`. -/
  side : OptionSide
  deriving DecidableEq

/-- `_MapMaster`. -/
abbrev ContractMaster := TwoWay ContractRef String

/-- `MasterContractResolver`: the masters that are registered. -/
abbrev ContractResolver := SourceId → Option ContractMaster

/-- `to_native`; the outer `none` is an `UnknownSourceError`. -/
def ContractResolver.toNative (r : ContractResolver) (ref : ContractRef) (source : SourceId) : Option (Option String) :=
  (r source).map fun master => master.forth.get? ref

/-- `from_native`; the outer `none` is an `UnknownSourceError`. -/
def ContractResolver.fromNative (r : ContractResolver) (source : SourceId) (nativeKey : String) :
    Option (Option ContractRef) :=
  (r source).map fun master => master.back.get? nativeKey

/-- The side of an instrument type. -/
def sideOfType (instrumentType : Option String) : Option OptionSide :=
  if instrumentType = some "CE" then some .ce else if instrumentType = some "PE" then some .pe else none

/-- `_upstox_ref`. -/
def upstoxRef (inst : Instrument) : Option ContractRef := do
  let expiry ← inst.expiry
  let strike ← inst.strikePrice
  let side ← sideOfType inst.instrumentType
  some ⟨inst.underlyingSymbol.toUpper, expiry, strike, side⟩

/-- `UpstoxContractMaster._pairs`. -/
def upstoxPairs (lookup : InstrumentLookup) (underlyings : List String) : List (ContractRef × String) :=
  underlyings.flatMap fun name =>
    (lookup.searchOptions name none none none (max lookup.instruments.length 1)).filterMap fun inst =>
      (upstoxRef inst).map fun ref => (ref, inst.instrumentKey)

/-- `UpstoxContractMaster`; `none` is an `AmbiguousContractError`. -/
def upstoxContractMaster (lookup : InstrumentLookup) (underlyings : List String) : Option ContractMaster :=
  TwoWay.ofPairs (upstoxPairs lookup underlyings)

/-- It is built exactly when no contract and no key of the file is there twice. -/
theorem exists_upstoxContractMaster_iff {lookup : InstrumentLookup} {underlyings : List String} :
    (∃ master, upstoxContractMaster lookup underlyings = some master) ↔
      ((upstoxPairs lookup underlyings).map Prod.fst).Nodup ∧ ((upstoxPairs lookup underlyings).map Prod.snd).Nodup :=
  TwoWay.exists_ofPairs_iff

/-- A search with room for all rows finds all the options of an underlying. -/
theorem mem_searchOptions {lookup : InstrumentLookup} {name : String} {inst : Instrument} :
    inst ∈ lookup.searchOptions name none none none (max lookup.instruments.length 1) ↔
      inst ∈ lookup.instruments ∧ inst.segment = "NSE_FO" ∧
        (inst.instrumentType = some "CE" ∨ inst.instrumentType = some "PE") ∧
          inst.underlyingSymbol.toUpper = name.toUpper := by
  rw [InstrumentLookup.searchOptions, List.take_of_length_le ((List.length_filter_le _ _).trans (le_max_left _ _)),
    List.mem_filter]
  simp [and_assoc]

theorem isOption_of_upstoxRef {inst : Instrument} {ref : ContractRef} (h : upstoxRef inst = some ref) :
    inst.instrumentType = some "CE" ∨ inst.instrumentType = some "PE" := by
  obtain ⟨_, -, h⟩ := Option.bind_eq_some_iff.mp h
  obtain ⟨_, -, h⟩ := Option.bind_eq_some_iff.mp h
  obtain ⟨side, hside, -⟩ := Option.bind_eq_some_iff.mp h
  unfold sideOfType at hside
  split_ifs at hside with hce hpe
  · exact Or.inl hce
  · exact Or.inr hpe

/-- **A key of Upstox** is that of a row of the instrument file with what the contract says. -/
theorem back_upstox_iff {lookup : InstrumentLookup} {underlyings : List String} {master : ContractMaster}
    (h : upstoxContractMaster lookup underlyings = some master) {instrumentKey : String} {ref : ContractRef} :
    master.back.get? instrumentKey = some ref ↔
      ∃ inst ∈ lookup.instruments, inst.instrumentKey = instrumentKey ∧ inst.segment = "NSE_FO" ∧
        upstoxRef inst = some ref ∧ ∃ name ∈ underlyings, inst.underlyingSymbol.toUpper = name.toUpper := by
  rw [← master.inverse, TwoWay.get?_ofPairs h, upstoxPairs, List.mem_flatMap]
  simp only [List.mem_filterMap, mem_searchOptions, Option.map_eq_some_iff, Prod.mk.injEq]
  constructor
  · rintro ⟨name, hname, inst, ⟨hinst, hsegment, -, hunderlying⟩, _, href, rfl, hkey⟩
    exact ⟨inst, hinst, hkey, hsegment, href, name, hname, hunderlying⟩
  · rintro ⟨inst, hinst, hkey, hsegment, href, name, hname, hunderlying⟩
    exact ⟨name, hname, inst, ⟨hinst, hsegment, isOption_of_upstoxRef href, hunderlying⟩, ref, href, rfl, hkey⟩

end NiftyShield.Client
