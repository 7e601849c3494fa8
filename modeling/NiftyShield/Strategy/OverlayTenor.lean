import Mathlib.Data.Rat.Defs
import Mathlib.Algebra.Order.Ring.Rat

/-!
# Overlay tenors

The two books of overlays and what differs between them: `OVERLAY_TENORS`
(`src/strategy/overlay_tenor.py`) and `_overlay_policy_for`
(`scripts/strategies/three_track/paper_3track_snapshot.py`).

## Honest scope

The intervals at which a book is polled and its Greeks expire are left out.
-/

namespace NiftyShield.Strategy

/-- `OverlayTenorPolicy`. -/
structure OverlayTenorPolicy where
  /-- `expiry_type`, the registry key. -/
  expiryType : String
  /-- `expiry_bucket`. -/
  expiryBucket : String
  /-- `cc_strategy_name`. -/
  ccStrategyName : String
  /-- `pp_strategy_name`. -/
  ppStrategyName : String
  /-- `collar_strategy_name`. -/
  collarStrategyName : String
  /-- `entry_min_dte`. -/
  entryMinDte : ℤ
  /-- `review_dte`. -/
  reviewDte : ℤ
  /-- `reentry_min_dte`. -/
  reentryMinDte : ℤ
  /-- `roll_dte`. -/
  rollDte : ℤ
  /-- `profit_target_decay`. -/
  profitTargetDecay : ℚ
  /-- `delta_stop`. -/
  deltaStop : ℚ
  /-- `premium_stop_multiple`. -/
  premiumStopMultiple : ℚ
  /-- `premium_stop_alert_only`. -/
  premiumStopAlertOnly : Bool
  deriving DecidableEq

namespace OverlayTenorPolicy

/-- The monthly book. -/
def monthly : OverlayTenorPolicy where
  expiryType := "monthly"
  expiryBucket := "monthly"
  ccStrategyName := "paper_nifty_overlay"
  ppStrategyName := "paper_nifty_overlay"
  collarStrategyName := "paper_nifty_overlay"
  entryMinDte := 14
  reviewDte := 5
  reentryMinDte := 14
  rollDte := 5
  profitTargetDecay := 70 / 100
  deltaStop := 55 / 100
  premiumStopMultiple := 25 / 10
  premiumStopAlertOnly := false

/-- The yearly book. -/
def yearly : OverlayTenorPolicy where
  expiryType := "yearly"
  expiryBucket := "yearly"
  ccStrategyName := "paper_nifty_overlay_yearly_cc"
  ppStrategyName := "paper_nifty_overlay_yearly_pp"
  collarStrategyName := "paper_nifty_overlay_yearly_collar"
  entryMinDte := 20
  reviewDte := 15
  reentryMinDte := 20
  rollDte := 15
  profitTargetDecay := 75 / 100
  deltaStop := 55 / 100
  premiumStopMultiple := 25 / 10
  premiumStopAlertOnly := true

/-- The three ledgers of a book. -/
def ledgers (policy : OverlayTenorPolicy) : List String :=
  [policy.ccStrategyName, policy.ppStrategyName, policy.collarStrategyName]

end OverlayTenorPolicy

/-- `OVERLAY_TENORS`. -/
def overlayTenors : List OverlayTenorPolicy := [.monthly, .yearly]

/-- `YEARLY_OVERLAY_STRATEGIES`. -/
def yearlyOverlayStrategies : List String :=
  ["paper_nifty_overlay_yearly_cc", "paper_nifty_overlay_yearly_pp", "paper_nifty_overlay_yearly_collar"]

/-- `_overlay_policy_for`; `none` is its `ValueError`. -/
def overlayPolicyFor (strategyName : String) : Option OverlayTenorPolicy :=
  if strategyName ∉ yearlyOverlayStrategies then some .monthly
  else overlayTenors.find? fun policy => strategyName ∈ policy.ledgers

/-- Every ledger has a policy. -/
theorem overlayPolicyFor_isSome (strategyName : String) : (overlayPolicyFor strategyName).isSome = true := by
  unfold overlayPolicyFor
  split
  next => rfl
  next hyearly =>
    have hmem : strategyName ∈ OverlayTenorPolicy.yearly.ledgers := not_not.mp hyearly
    exact List.find?_isSome.mpr ⟨.yearly, by simp [overlayTenors], by simpa using hmem⟩

/-- The policy of a ledger. -/
def overlayPolicyOf (strategyName : String) : OverlayTenorPolicy :=
  (overlayPolicyFor strategyName).get (overlayPolicyFor_isSome strategyName)

end NiftyShield.Strategy
