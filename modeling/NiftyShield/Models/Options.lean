import NiftyShield.Lib.Dict
import NiftyShield.Models.Common
import Mathlib.Data.Rat.Defs
import Mathlib.Algebra.Order.Ring.Rat

/-!
# Option chains

The market snapshot a strategy is evaluated on (`src/models/options.py`): for each strike
of one expiry a call and a put side, either of which the broker may omit.

## Honest scope

`Decimal` values are exact rationals.
-/

namespace NiftyShield

open NiftyShield.Lib

/-- Market data and Greeks of one side of a strike. A missing price is `0`, a missing
Greek `none`. -/
structure OptionLeg where
  /-- Last traded price. -/
  ltp : ℚ
  /-- Best bid. -/
  bid : ℚ
  /-- Best ask. -/
  ask : ℚ
  /-- Open interest. -/
  oi : ℤ := 0
  /-- Traded volume. -/
  volume : ℤ := 0
  /-- Delta, negative for puts. -/
  delta : Option ℚ := none
  /-- Gamma. -/
  gamma : Option ℚ := none
  /-- Theta. -/
  theta : Option ℚ := none
  /-- Vega. -/
  vega : Option ℚ := none
  /-- Implied volatility. -/
  iv : Option ℚ := none
  /-- Strike price. -/
  strike : ℚ
  deriving DecidableEq

/-- The two sides of a strike. -/
structure OptionChainStrike where
  /-- Call side. -/
  ce : Option OptionLeg := none
  /-- Put side. -/
  pe : Option OptionLeg := none
  deriving DecidableEq

/-- The side of an option type; futures and equities have none. -/
def OptionChainStrike.side (s : OptionChainStrike) : OptionType → Option OptionLeg
  | .ce => s.ce
  | .pe => s.pe
  | _ => none

/-- An option chain snapshot of one underlying and expiry. -/
structure OptionChain where
  /-- Spot price of the underlying. -/
  underlyingSpot : ℚ
  /-- Expiry date. -/
  expiry : Date
  /-- Per-strike data, keyed by strike price. -/
  strikes : Dict ℚ OptionChainStrike

end NiftyShield
