import NiftyShield.Models.Common
import Mathlib.Algebra.Order.Ring.Rat

/-!
# Live portfolio records

The trades, positions, legs and strategies of the live portfolio
(`src/models/portfolio.py`). A `Trade` and a `Position` carry what their validators
enforce.

## Honest scope

`Decimal` is exact rational. A leg's expiry and strike rules are not stated: the only leg
built here is an equity leg, which has neither. A position always has an instrument key;
the source leaves it out only for a leg without trades.
-/

namespace NiftyShield.Portfolio

/-- A real trade. -/
@[ext] structure Trade where
  /-- Strategy. -/
  strategyName : String
  /-- Leg within it. -/
  legRole : String
  /-- Instrument key. -/
  instrumentKey : String
  /-- Execution date. -/
  tradeDate : Date
  /-- Direction. -/
  action : TradeAction
  /-- Units transacted. -/
  quantity : ℕ
  /-- Price per unit. -/
  price : ℚ
  /-- Optional annotation. -/
  notes : String := ""
  /-- `min_length=1`. -/
  strategyName_ne : strategyName ≠ ""
  /-- `min_length=1`. -/
  legRole_ne : legRole ≠ ""
  /-- `min_length=1`. -/
  instrumentKey_ne : instrumentKey ≠ ""
  /-- `gt=0`. -/
  quantity_pos : 0 < quantity
  /-- `gt=0`. -/
  price_pos : 0 < price

instance : DecidableEq Trade := fun _ _ => decidable_of_iff' _ Trade.ext_iff

/-- The live strategy of the sample ledgers has a name. -/
theorem finideas_ne : "finideas_ilts" ≠ "" := by decide

/-- The quantity with the sign of the action. -/
def Trade.signedQty (t : Trade) : ℤ :=
  match t.action with
  | .buy => t.quantity
  | .sell => -t.quantity

/-- Aggregated state of a strategy leg. -/
structure Position where
  /-- Strategy. -/
  strategyName : String
  /-- Leg. -/
  legRole : String
  /-- Instrument. -/
  instrumentKey : String
  /-- Net quantity, negative when short. -/
  quantity : ℤ
  /-- Average price. -/
  averagePrice : ℚ
  /-- Profit booked on the closed quantity. -/
  realizedPnl : ℚ
  /-- `ge=0`. -/
  averagePrice_nonneg : 0 ≤ averagePrice
  deriving DecidableEq

/-- Direction a leg is defined with. -/
inductive Direction where
  /-- Bought. -/
  | buy
  /-- Sold. -/
  | sell
  deriving DecidableEq, Repr

/-- Exchange product of a leg. -/
inductive ProductType where
  /-- Delivery. -/
  | cnc
  /-- Normal, for derivatives. -/
  | nrml
  /-- Intraday. -/
  | mis
  deriving DecidableEq, Repr

/-- What a leg holds. -/
inductive AssetType where
  /-- Shares. -/
  | equity
  /-- Bonds. -/
  | bond
  /-- A call. -/
  | ce
  /-- A put. -/
  | pe
  /-- A future. -/
  | futures
  deriving DecidableEq, Repr

/-- A single leg of a strategy. -/
structure Leg where
  /-- Row id. -/
  id : Option ℕ := none
  /-- Row id of the strategy. -/
  strategyId : Option ℕ := none
  /-- Instrument key. -/
  instrumentKey : String
  /-- Human-readable name. -/
  displayName : String
  /-- What it holds. -/
  assetType : AssetType
  /-- Direction. -/
  direction : Direction
  /-- Units. -/
  quantity : ℤ
  /-- Units a lot. -/
  lotSize : ℤ := 1
  /-- Price paid or received. -/
  entryPrice : ℚ
  /-- Entry date. -/
  entryDate : Date
  /-- Expiry, for derivatives. -/
  expiry : Option Date := none
  /-- Strike, for options. -/
  strike : Option ℚ := none
  /-- Product. -/
  productType : ProductType
  deriving DecidableEq

/-- `Leg.pnl`. -/
def Leg.pnl (leg : Leg) (currentPrice : ℚ) : ℚ :=
  match leg.direction with
  | .buy => (currentPrice - leg.entryPrice) * leg.quantity
  | .sell => (leg.entryPrice - currentPrice) * leg.quantity

/-- A named strategy. -/
structure Strategy where
  /-- Row id. -/
  id : Option ℕ := none
  /-- Name. -/
  name : String
  /-- Description. -/
  description : String := ""
  /-- Legs, in order. -/
  legs : List Leg := []
  /-- When it was created. -/
  createdAt : Option String := none
  /-- Cumulative realized profit. -/
  realizedPnl : ℚ := 0
  deriving DecidableEq

end NiftyShield.Portfolio
