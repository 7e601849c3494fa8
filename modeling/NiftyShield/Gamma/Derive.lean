import NiftyShield.Gamma.Models
import NiftyShield.Lib.Rounding
import NiftyShield.Models.Options
import Mathlib.Algebra.Order.Ring.Rat
import Mathlib.Data.List.Sort

/-!
# Snapshots of a chain

`derive_snapshots` (`src/gamma/derive.py`): one row for each side of each strike within a
tenth of the spot.
-/

namespace NiftyShield.Gamma

open NiftyShield.Lib

/-- `_SPOT_BAND`. -/
def spotBand : ℚ := 10 / 100

/-- `_MIN_ASK_FOR_GEARING`. -/
def minAskForGearing : ℚ := 50 / 100

/-- `_gamma_gearing`. -/
def gammaGearing (leg : OptionLeg) (spot : ℚ) : Option ℚ :=
  match leg.gamma with
  | none => none
  | some gamma => if leg.ask ≤ minAskForGearing then none else some (gamma * spot * spot / leg.ask)

/-- `_oi_change`. -/
def oiChange (oi : ℤ) (prior : Option ℤ) : Option ℚ :=
  match prior with
  | none => none
  | some prior => if prior = 0 then none else some ((oi - prior) / prior)

/-- `_build_row`. -/
def buildRow (leg : OptionLeg) (contract : Contract) (spot : ℚ) (today : Date) (snapshotTime : ℕ) (prior : Option ℤ) :
    GammaChainSnapshot where
  snapshotDate := today
  snapshotTime
  contract
  dteCalendar := today.daysBetween contract.expiryDate
  niftySpot := spot
  gammaVal := leg.gamma
  gammaGearing := gammaGearing leg spot
  distancePct := some (|spot - contract.strike| / spot)
  bestBid := some leg.bid
  bestAsk := some leg.ask
  bidAskSpread := if 0 < leg.ask ∧ 0 < leg.bid then some (leg.ask - leg.bid) else none
  oi := some leg.oi
  oiChange1d := oiChange leg.oi prior

/-- The rows of one strike, the call before the put. -/
def strikeRows (chain : OptionChain) (expiryDate today : Date) (snapshotTime : ℕ) (priorOi : Contract → Option ℤ)
    (strike : ℚ) : List GammaChainSnapshot :=
  match chain.strikes.get? strike with
  | none => []
  | some pair => [OptionType.ce, OptionType.pe].filterMap fun optionType =>
      let contract : Contract := ⟨expiryDate, truncate strike, optionType⟩
      (pair.side optionType).map fun leg =>
        buildRow leg contract chain.underlyingSpot today snapshotTime (priorOi contract)

/-- `derive_snapshots`. -/
def deriveSnapshots (chain : OptionChain) (expiryDate today : Date) (snapshotTime : ℕ) (priorOi : Contract → Option ℤ) :
    List GammaChainSnapshot :=
  let spot := chain.underlyingSpot
  if spot ≤ 0 then []
  else
    let strikes := (chain.strikes.keys.insertionSort (· ≤ ·)).filter fun strike => ¬ spotBand < |strike - spot| / spot
    strikes.flatMap (strikeRows chain expiryDate today snapshotTime priorOi)

/-- A row is a side of a strike in the band. -/
theorem mem_deriveSnapshots {chain : OptionChain} {expiryDate today : Date} {snapshotTime : ℕ}
    {priorOi : Contract → Option ℤ} {row : GammaChainSnapshot} :
    row ∈ deriveSnapshots chain expiryDate today snapshotTime priorOi ↔
      0 < chain.underlyingSpot ∧ ∃ strike pair optionType leg,
        chain.strikes.get? strike = some pair ∧ |strike - chain.underlyingSpot| / chain.underlyingSpot ≤ spotBand ∧
        pair.side optionType = some leg ∧
        row = buildRow leg ⟨expiryDate, truncate strike, optionType⟩ chain.underlyingSpot today snapshotTime
          (priorOi ⟨expiryDate, truncate strike, optionType⟩) := by
  unfold deriveSnapshots
  simp only
  split
  next hspot => simp [not_lt.mpr hspot]
  next hspot =>
    rw [List.mem_flatMap]
    simp only [List.mem_filter, List.mem_insertionSort, not_lt, decide_eq_true_eq, not_le.mp hspot, true_and]
    constructor
    · rintro ⟨strike, ⟨-, hband⟩, hrow⟩
      unfold strikeRows at hrow
      split at hrow
      · exact absurd hrow (by simp)
      next pair hpair =>
        obtain ⟨optionType, -, hside⟩ := List.mem_filterMap.mp hrow
        obtain ⟨leg, hleg, rfl⟩ := Option.map_eq_some_iff.mp hside
        exact ⟨strike, pair, optionType, leg, hpair, hband, hleg, rfl⟩
    · rintro ⟨strike, pair, optionType, leg, hpair, hband, hleg, rfl⟩
      have hkey : strike ∈ chain.strikes.keys :=
        List.mem_map.mpr ⟨(strike, pair), Dict.mem_entries_iff.mpr hpair, rfl⟩
      refine ⟨strike, ⟨hkey, hband⟩, ?_⟩
      have htype : optionType ∈ [OptionType.ce, OptionType.pe] := by
        cases optionType <;> simp_all [OptionChainStrike.side]
      unfold strikeRows
      simp only [hpair]
      exact List.mem_filterMap.mpr ⟨optionType, htype, by simp [hleg]⟩

end NiftyShield.Gamma
