import NiftyShield.Models.Common
import Mathlib.Algebra.Order.Ring.Rat
import Mathlib.Data.List.Sort
import Mathlib.Order.Lattice

/-!
# The signal stack

`SignalStack` (`src/gamma/signals.py`), whose layers are evaluated in order until a condition
fails, and the ranking of the candidates that pass (`src/gamma/ranking.py`).

## What is proved

`default_stack_needs_volume`: with the default layers no candidate passes without a volume
z-score.

## Honest scope

The flag of each layer (`f0` to `f4`) and the quality method of a result are written to the
evaluations table, where nothing modelled reads them, and are left out.
-/

namespace NiftyShield.Gamma

/-- Why a candidate failed a layer. -/
inductive ReasonCode where
  /-- `L0_DTE`. -/
  | l0Dte
  /-- `L0_OPTION_TYPE`. -/
  | l0OptionType
  /-- `L0_PREMIUM`. -/
  | l0Premium
  /-- `L0_SPREAD`. -/
  | l0Spread
  /-- `L0_SPREAD_UNAVAILABLE`. -/
  | l0SpreadUnavailable
  /-- `L0_ASK_QTY`. -/
  | l0AskQty
  /-- `L0_VIX`. -/
  | l0Vix
  /-- `L0_VIX_UNAVAILABLE`. -/
  | l0VixUnavailable
  /-- `L0_QUOTE_STALE`. -/
  | l0QuoteStale
  /-- `L0_QUOTE_AGE_UNAVAILABLE`. -/
  | l0QuoteAgeUnavailable
  /-- `L0_OI`. -/
  | l0Oi
  /-- `L1_RETURN_DIRECTION`. -/
  | l1ReturnDirection
  /-- `L1_DISTANCE_NOT_SHRINKING`. -/
  | l1DistanceNotShrinking
  /-- `L1_SIGMA`. -/
  | l1Sigma
  /-- `L1_INPUT_UNAVAILABLE`. -/
  | l1InputUnavailable
  /-- `L2_GEARING`. -/
  | l2Gearing
  /-- `L2_GEARING_UNAVAILABLE`. -/
  | l2GearingUnavailable
  /-- `L2_SPEED_UNAVAILABLE`. -/
  | l2SpeedUnavailable
  /-- `L2_SPEED`. -/
  | l2Speed
  /-- `L2_MOVE_TOWARD_STRIKE`. -/
  | l2MoveTowardStrike
  /-- `L3_QUALITY`. -/
  | l3Quality
  /-- `L3_B_UNAVAILABLE`. -/
  | l3BUnavailable
  /-- `L4_VOLUME`. -/
  | l4Volume
  /-- `L4_OI_VELOCITY`. -/
  | l4OiVelocity
  /-- `L4_PRICE_NOT_RISING`. -/
  | l4PriceNotRising
  /-- `L4_INPUT_UNAVAILABLE`. -/
  | l4InputUnavailable
  deriving DecidableEq

/-- The text of the enum member. -/
def ReasonCode.value : ReasonCode → String
  | l0Dte => "L0_DTE"
  | l0OptionType => "L0_OPTION_TYPE"
  | l0Premium => "L0_PREMIUM"
  | l0Spread => "L0_SPREAD"
  | l0SpreadUnavailable => "L0_SPREAD_UNAVAILABLE"
  | l0AskQty => "L0_ASK_QTY"
  | l0Vix => "L0_VIX"
  | l0VixUnavailable => "L0_VIX_UNAVAILABLE"
  | l0QuoteStale => "L0_QUOTE_STALE"
  | l0QuoteAgeUnavailable => "L0_QUOTE_AGE_UNAVAILABLE"
  | l0Oi => "L0_OI"
  | l1ReturnDirection => "L1_RETURN_DIRECTION"
  | l1DistanceNotShrinking => "L1_DISTANCE_NOT_SHRINKING"
  | l1Sigma => "L1_SIGMA"
  | l1InputUnavailable => "L1_INPUT_UNAVAILABLE"
  | l2Gearing => "L2_GEARING"
  | l2GearingUnavailable => "L2_GEARING_UNAVAILABLE"
  | l2SpeedUnavailable => "L2_SPEED_UNAVAILABLE"
  | l2Speed => "L2_SPEED"
  | l2MoveTowardStrike => "L2_MOVE_TOWARD_STRIKE"
  | l3Quality => "L3_QUALITY"
  | l3BUnavailable => "L3_B_UNAVAILABLE"
  | l4Volume => "L4_VOLUME"
  | l4OiVelocity => "L4_OI_VELOCITY"
  | l4PriceNotRising => "L4_PRICE_NOT_RISING"
  | l4InputUnavailable => "L4_INPUT_UNAVAILABLE"

/-- What the conditions read of a strike. -/
structure Candidate where
  /-- Call or put. -/
  optionType : OptionType
  /-- Calendar days to expiry. -/
  dte : ℤ
  /-- Ask. -/
  ask : ℚ
  /-- Bid. -/
  bid : Option ℚ
  /-- Spread. -/
  spread : Option ℚ
  /-- Quantity at the best ask. -/
  askQtyL1 : Option ℤ
  /-- India VIX. -/
  indiaVix : Option ℚ
  /-- Age of the quote. -/
  quoteAgeSeconds : Option ℤ
  /-- Open interest. -/
  oi : Option ℤ
  /-- Return of the underlying over a quarter of an hour. -/
  underlyingReturn15m : Option ℚ
  /-- Distance of the strike. -/
  distancePct : ℚ
  /-- The same a quarter of an hour ago. -/
  distancePct15mAgo : Option ℚ
  /-- Distance in standard deviations. -/
  distanceSigma : Option ℚ
  /-- Gearing. -/
  gammaGearing : Option ℚ
  /-- Change of gamma over the move of the spot. -/
  speed5m : Option ℚ
  /-- Theoretical price. -/
  theoreticalPrice : Option ℚ
  /-- IV percentile. -/
  strikeIvPctile20d : Option ℚ
  /-- Volume z-score. -/
  volumeZscore5m : Option ℚ
  /-- Change of the open interest. -/
  oiVelocity15m : Option ℚ
  /-- The option is not cheaper than before. -/
  optionPriceRising : Option Bool
  /-- The strike is on the watchlist. -/
  watchlistHit : Bool := false
  deriving DecidableEq

/-- Every threshold of the stack. -/
structure SignalConfig where
  /-- One lot. -/
  minAskQty : ℤ
  /-- Floor of the gearing. -/
  gearingThreshold : ℚ := 5
  /-- Days to expiry. -/
  maxDte : ℤ := 1
  /-- Lowest premium. -/
  minPremium : ℚ := 2
  /-- Highest premium. -/
  maxPremium : ℚ := 10
  /-- Widest spread. -/
  maxSpreadPctOfMid : ℚ := 25 / 100
  /-- Lowest VIX. -/
  minVix : ℚ := 12
  /-- Oldest quote. -/
  maxQuoteAgeSeconds : ℤ := 300
  /-- Lowest open interest. -/
  minOi : ℤ := 1000
  /-- Largest distance in standard deviations. -/
  maxDistanceSigma : ℚ := 15 / 10
  /-- Smallest move towards the strike. -/
  minMoveTowardStrike : ℚ := 3 / 1000
  /-- Smallest edge in rupees. -/
  edgeAbsFloor : ℚ := 75 / 100
  /-- Smallest edge in spreads. -/
  edgeSpreadMultiple : ℚ := 1
  /-- Smallest edge as a fraction of the ask. -/
  edgeAskFraction : ℚ := 35 / 100
  /-- Largest distance at which an edge counts. -/
  mispricingMaxDistancePct : ℚ := 10 / 100
  /-- Highest IV percentile. -/
  ivPctileMax : ℚ := 30 / 100
  /-- Lowest volume z-score. -/
  minVolumeZscore : ℚ := 2
  /-- Lowest change of the open interest. -/
  minOiVelocity : ℚ := 15 / 100

/-- A condition: `none` passes. -/
abbrev Predicate := Candidate → SignalConfig → Option ReasonCode

/-- `_DIRECTION`. -/
def direction : OptionType → ℚ
  | .pe => -1
  | _ => 1

/-- A condition on a value that may be missing. -/
def requireValue {α : Type*} (value : Option α) (missing failed : ReasonCode) (ok : α → Bool) : Option ReasonCode :=
  match value with
  | none => some missing
  | some v => if ok v then none else some failed

/-! ### Layer 0 -/

/-- `l0_dte`. -/
def l0DteRule : Predicate := fun c cfg => if c.dte ≤ cfg.maxDte then none else some .l0Dte

/-- `l0_option_type`. -/
def l0OptionTypeRule : Predicate := fun c _ =>
  if c.optionType = .ce ∨ c.optionType = .pe then none else some .l0OptionType

/-- `l0_premium`. -/
def l0PremiumRule : Predicate := fun c cfg =>
  if cfg.minPremium ≤ c.ask ∧ c.ask ≤ cfg.maxPremium then none else some .l0Premium

/-- `l0_spread`. -/
def l0SpreadRule : Predicate := fun c cfg =>
  match c.bid, c.spread with
  | some bid, some spread =>
    let mid := (bid + c.ask) / 2
    if mid ≤ 0 then some .l0Spread else if spread ≤ cfg.maxSpreadPctOfMid * mid then none else some .l0Spread
  | _, _ => some .l0SpreadUnavailable

/-- `l0_ask_qty`. -/
def l0AskQtyRule : Predicate := fun c cfg => if c.askQtyL1.all (cfg.minAskQty ≤ ·) then none else some .l0AskQty

/-- `l0_vix`. -/
def l0VixRule : Predicate := fun c cfg => requireValue c.indiaVix .l0VixUnavailable .l0Vix (cfg.minVix < ·)

/-- `l0_quote_fresh`. -/
def l0QuoteFreshRule : Predicate := fun c cfg =>
  requireValue c.quoteAgeSeconds .l0QuoteAgeUnavailable .l0QuoteStale (· ≤ cfg.maxQuoteAgeSeconds)

/-- `l0_oi`. -/
def l0OiRule : Predicate := fun c cfg => requireValue c.oi .l0Oi .l0Oi (cfg.minOi ≤ ·)

/-! ### Layer 1 -/

/-- `l1_return_direction`. -/
def l1ReturnDirectionRule : Predicate := fun c _ =>
  requireValue c.underlyingReturn15m .l1InputUnavailable .l1ReturnDirection (0 < · * direction c.optionType)

/-- `l1_distance_shrinking`. -/
def l1DistanceShrinkingRule : Predicate := fun c _ =>
  requireValue c.distancePct15mAgo .l1InputUnavailable .l1DistanceNotShrinking (c.distancePct < ·)

/-- `l1_sigma`. -/
def l1SigmaRule : Predicate := fun c cfg =>
  requireValue c.distanceSigma .l1InputUnavailable .l1Sigma (· ≤ cfg.maxDistanceSigma)

/-! ### Layer 2 -/

/-- `l2_gearing`. -/
def l2GearingRule : Predicate := fun c cfg =>
  requireValue c.gammaGearing .l2GearingUnavailable .l2Gearing (cfg.gearingThreshold < ·)

/-- `l2_speed`. -/
def l2SpeedRule : Predicate := fun c _ => requireValue c.speed5m .l2SpeedUnavailable .l2Speed (0 < ·)

/-- `l2_move_toward_strike`. -/
def l2MoveTowardStrikeRule : Predicate := fun c cfg =>
  requireValue c.underlyingReturn15m .l2MoveTowardStrike .l2MoveTowardStrike
    (cfg.minMoveTowardStrike < · * direction c.optionType)

/-! ### Layer 3 -/

/-- `quality_conditions`; `none` is unavailable. -/
def qualityConditions (c : Candidate) (cfg : SignalConfig) : Option Bool × Option Bool :=
  let a :=
    match c.theoreticalPrice, c.spread with
    | some price, some spread =>
      if c.distancePct ≤ cfg.mispricingMaxDistancePct then
        let need := max (max cfg.edgeAbsFloor (cfg.edgeSpreadMultiple * spread)) (cfg.edgeAskFraction * c.ask)
        some (decide (need ≤ price - c.ask))
      else none
    | _, _ => none
  (a, c.strikeIvPctile20d.map fun pctile => decide (pctile < cfg.ivPctileMax))

/-- `l3_quality`. -/
def l3QualityRule : Predicate := fun c cfg =>
  let (a, b) := qualityConditions c cfg
  if a = some true ∨ b = some true then none else if b = none then some .l3BUnavailable else some .l3Quality

/-! ### Layer 4 -/

/-- `l4_volume`. -/
def l4VolumeRule : Predicate := fun c cfg =>
  requireValue c.volumeZscore5m .l4InputUnavailable .l4Volume (cfg.minVolumeZscore < ·)

/-- `l4_oi_velocity`. -/
def l4OiVelocityRule : Predicate := fun c cfg =>
  requireValue c.oiVelocity15m .l4InputUnavailable .l4OiVelocity (cfg.minOiVelocity < ·)

/-- `l4_price_rising`. -/
def l4PriceRisingRule : Predicate := fun c _ =>
  requireValue c.optionPriceRising .l4InputUnavailable .l4PriceNotRising id

/-- `DEFAULT_LAYERS`. -/
def defaultLayers : List (List Predicate) :=
  [[l0DteRule, l0OptionTypeRule, l0PremiumRule, l0SpreadRule, l0AskQtyRule, l0VixRule, l0QuoteFreshRule, l0OiRule],
    [l1ReturnDirectionRule, l1DistanceShrinkingRule, l1SigmaRule],
    [l2GearingRule, l2SpeedRule, l2MoveTowardStrikeRule],
    [l3QualityRule],
    [l4VolumeRule, l4OiVelocityRule, l4PriceRisingRule]]

/-- The layers, each under its index, and the thresholds. -/
structure SignalStack where
  /-- Thresholds. -/
  config : SignalConfig
  /-- Layers in the order of evaluation. -/
  layers : List (List Predicate) := defaultLayers

namespace SignalStack

/-- `_first_failure`. -/
def firstFailure (layer : List Predicate) (c : Candidate) (cfg : SignalConfig) : Option ReasonCode :=
  layer.findSome? fun predicate => predicate c cfg

/-- The reason of `evaluate`; `none` is a pass. -/
def evaluate (stack : SignalStack) (c : Candidate) : Option ReasonCode :=
  stack.layers.findSome? fun layer => firstFailure layer c stack.config

/-- **No volume, no signal**: with the default layers a candidate without a volume z-score
fails. -/
theorem default_stack_needs_volume (cfg : SignalConfig) {c : Candidate} (hvolume : c.volumeZscore5m = none) :
    ((⟨cfg, defaultLayers⟩ : SignalStack).evaluate c).isSome = true := by
  have hfail : (firstFailure [l4VolumeRule, l4OiVelocityRule, l4PriceRisingRule] c cfg).isSome = true := by
    simp [firstFailure, l4VolumeRule, requireValue, hvolume]
  rw [evaluate, List.isSome_findSome?, List.any_eq_true]
  exact ⟨_, by simp [defaultLayers], hfail⟩

end SignalStack

/-! ### Ranking -/

/-- `rank_score`. -/
def rankScore (c : Candidate) : Option ℚ :=
  c.gammaGearing.map fun gearing => gearing * (7 / 10) + (if c.watchlistHit then 1 else 0) * (3 / 10) * gearing

/-- The comparison of `_sort_key`s. -/
def rankCompare (c c' : Candidate) : Ordering :=
  (compare (rankScore c).isNone (rankScore c').isNone).then <|
  (compare (-(rankScore c).getD 0) (-(rankScore c').getD 0)).then <|
  (compare (!c.watchlistHit) (!c'.watchlistHit)).then <|
  (compare c.ask c'.ask).then <| (compare c.distancePct c'.distancePct).then <|
  compare (c.optionType = .pe : Bool) (c'.optionType = .pe : Bool)

end NiftyShield.Gamma
