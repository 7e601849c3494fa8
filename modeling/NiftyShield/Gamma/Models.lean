import NiftyShield.Models.Common
import Mathlib.Data.Rat.Defs

/-!
# Rows of the near-expiry gamma tables

The records of `src/gamma/models.py`: a snapshot of one option of a chain, an entry of the
watchlist, and an evaluation of a strike in the signal log.

## Honest scope

The columns that no function here reads back are left out: most Greeks, the percentiles, the
volumes, the market regime and the results of the single filters of a signal. A snapshot time
`HH:MM` is its number of minutes, a UTC timestamp its number of seconds; both are compared
only. `Decimal` values are exact rationals.
-/

namespace NiftyShield.Gamma

/-- An option contract of the underlying: expiry date, strike and option type. -/
structure Contract where
  /-- Expiry of the contract. -/
  expiryDate : Date
  /-- Strike price. -/
  strike : ℤ
  /-- Call or put. -/
  optionType : OptionType
  deriving DecidableEq

/-- One option of a chain at one moment. -/
structure GammaChainSnapshot where
  /-- Date of the snapshot. -/
  snapshotDate : Date
  /-- Time of the snapshot. -/
  snapshotTime : ℕ
  /-- The option. -/
  contract : Contract
  /-- Calendar days to the expiry. -/
  dteCalendar : ℤ
  /-- Spot of the underlying. -/
  niftySpot : ℚ
  /-- Gamma of the option. -/
  gammaVal : Option ℚ
  /-- Gamma times the squared spot, by the ask. -/
  gammaGearing : Option ℚ
  /-- Distance of the strike as a fraction of the spot. -/
  distancePct : Option ℚ
  /-- Best bid. -/
  bestBid : Option ℚ
  /-- Best ask. -/
  bestAsk : Option ℚ
  /-- The spread of the two. -/
  bidAskSpread : Option ℚ
  /-- Open interest. -/
  oi : Option ℤ
  /-- Its change since the day before, as a fraction. -/
  oiChange1d : Option ℚ
  deriving DecidableEq

/-- A strike being watched. -/
structure GammaWatchlistEntry where
  /-- The option. -/
  contract : Contract
  /-- Date the strike was first added to the watchlist. -/
  addedDate : Date
  /-- Date the strike was last evaluated. -/
  lastSeenDate : Date
  /-- Date of removal; `none` while active. -/
  removedDate : Option Date
  /-- Reason of removal. -/
  removalReason : Option String
  /-- Distance at the last evaluation. -/
  distancePct : Option ℚ
  /-- Gearing at the last evaluation. -/
  gammaGearing : Option ℚ
  /-- Open interest at the last evaluation. -/
  oi : Option ℤ
  /-- Its change at the last evaluation. -/
  oiChange1d : Option ℚ
  /-- Days on the watchlist. -/
  daysOnWatchlist : ℤ
  /-- A priority candidate. -/
  elevated : Bool
  /-- Why. -/
  elevationReason : Option String
  deriving DecidableEq

/-- `removed_date IS NULL`. -/
def GammaWatchlistEntry.active (e : GammaWatchlistEntry) : Bool := e.removedDate.isNone

/-- One evaluation of a strike by a scan. -/
structure GammaSignalLogEntry where
  /-- `str(uuid.uuid4())`, the primary key. -/
  signalId : String
  /-- Time of the scan. -/
  signalTimestamp : ℕ
  /-- The option. -/
  contract : Contract
  /-- Spot of the underlying. -/
  niftySpot : ℚ
  /-- Distance of the strike. -/
  distancePct : ℚ
  /-- Best bid. -/
  bestBid : Option ℚ
  /-- Best ask. -/
  bestAsk : ℚ
  /-- Quantity at the best ask, if the depth is known. -/
  askQtyL1 : Option ℤ
  /-- Gamma of the option. -/
  gammaVal : ℚ
  /-- Open interest. -/
  oiNow : Option ℤ
  /-- Every filter passed. -/
  signalTriggered : Bool
  /-- A paper trade was tried. -/
  paperTradeAttempted : Bool := false
  /-- It is in the ledger. -/
  paperTradeFilled : Bool := false
  /-- The ask it was filled at. -/
  entryFillPrice : Option ℚ := none
  /-- When. -/
  fillTimestamp : Option ℕ := none
  /-- Why there is no trade. -/
  unfilledReason : Option String := none
  /-- Price of the exit. -/
  exitPrice : Option ℚ := none
  /-- When; `none` while open. -/
  exitTimestamp : Option ℕ := none
  /-- Why. -/
  exitReason : Option String := none
  /-- Largest gain while open. -/
  mfe : Option ℚ := none
  /-- Largest loss while open. -/
  mae : Option ℚ := none
  /-- Gain over the price paid. -/
  realisedRMultiple : Option ℚ := none
  deriving DecidableEq

end NiftyShield.Gamma
