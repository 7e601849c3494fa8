import Mathlib.Algebra.Order.Ring.Rat

/-!
# Exit rules of a gamma position

`evaluate_exit` (`src/gamma/exits.py`): an ordered list of rules, the first that fires wins.

## Honest scope

A time of day is its number of microseconds.
-/

namespace NiftyShield.Gamma

/-- `time(hour, minute)`. -/
def timeOfDay (hour minute : ℕ) : ℕ := (hour * 60 + minute) * 60 * 1000000

/-- Why a position is closed. -/
inductive ExitReason where
  /-- `E1_PROFIT_TARGET`. -/
  | profitTarget
  /-- `E2_STOP_LOSS`. -/
  | stopLoss
  /-- `E2_LIQUIDITY`. -/
  | liquidity
  /-- `E3_TIME_STOP`. -/
  | timeStop
  deriving DecidableEq

/-- The text of the enum member. -/
def ExitReason.value : ExitReason → String
  | profitTarget => "E1_PROFIT_TARGET"
  | stopLoss => "E2_STOP_LOSS"
  | liquidity => "E2_LIQUIDITY"
  | timeStop => "E3_TIME_STOP"

/-- Every exit threshold. -/
structure ExitConfig where
  /-- Bid, as a multiple of the price paid, that takes profit. -/
  profitMultiple : ℚ := 5
  /-- Bid that stops the loss. -/
  stopMark : ℚ := 25 / 100
  /-- Scans in a row without an ask. -/
  zeroAskScans : ℕ := 2
  /-- Time stop on the day of expiry. -/
  dte0Cutoff : ℕ := timeOfDay 14 30
  /-- Time stop on the day before. -/
  dte1Cutoff : ℕ := timeOfDay 15 0
  /-- Bid, as a multiple of the price paid, that may be carried over night. -/
  carryMultiple : ℚ := 15 / 10

/-- An open position as the rules see it. -/
structure ExitPosition where
  /-- The ask at the entry. -/
  entryAsk : ℚ
  /-- Earlier scans in a row with no quantity at the ask. -/
  priorZeroAskScans : ℕ := 0
  deriving DecidableEq

/-- One scan's observation of the contract. -/
structure ExitTick where
  /-- Time of day. -/
  «at» : ℕ
  /-- Calendar days to expiry. -/
  dte : ℤ
  /-- The bid. -/
  bid : Option ℚ
  /-- Quantity at the best ask. -/
  askQty : Option ℤ
  deriving DecidableEq

/-- An exit that fires. -/
structure ExitDecision where
  /-- Which. -/
  reason : ExitReason
  /-- The bid. -/
  exitPrice : Option ℚ
  /-- Gain over the price paid. -/
  realisedR : Option ℚ

/-- `e1_profit_target`. -/
def e1ProfitTarget (p : ExitPosition) (t : ExitTick) (cfg : ExitConfig) : Option ExitReason :=
  match t.bid with
  | none => none
  | some bid => if cfg.profitMultiple * p.entryAsk ≤ bid then some .profitTarget else none

/-- `e2_stop_loss`. -/
def e2StopLoss (_ : ExitPosition) (t : ExitTick) (cfg : ExitConfig) : Option ExitReason :=
  match t.bid with
  | none => none
  | some bid => if bid ≤ cfg.stopMark then some .stopLoss else none

/-- `e2_liquidity`. -/
def e2Liquidity (p : ExitPosition) (t : ExitTick) (cfg : ExitConfig) : Option ExitReason :=
  if t.askQty = some 0 ∧ cfg.zeroAskScans ≤ p.priorZeroAskScans + 1 then some .liquidity else none

/-- `e3_time_stop`. -/
def e3TimeStop (p : ExitPosition) (t : ExitTick) (cfg : ExitConfig) : Option ExitReason :=
  let due :=
    if t.dte = 0 then cfg.dte0Cutoff ≤ t.at
    else if t.dte = 1 then cfg.dte1Cutoff ≤ t.at ∧ ¬ t.bid.any (cfg.carryMultiple * p.entryAsk ≤ ·)
    else False
  if due then some .timeStop else none

/-- `DEFAULT_EXIT_RULES`. -/
def defaultExitRules : List (ExitPosition → ExitTick → ExitConfig → Option ExitReason) :=
  [e1ProfitTarget, e2StopLoss, e2Liquidity, e3TimeStop]

/-- `_realised_r`. -/
def realisedR (p : ExitPosition) (exitPrice : Option ℚ) : Option ℚ :=
  if p.entryAsk ≤ 0 then none else exitPrice.map fun price => (price - p.entryAsk) / p.entryAsk

/-- `evaluate_exit`. -/
def evaluateExit (p : ExitPosition) (t : ExitTick) (cfg : ExitConfig) : Option ExitDecision :=
  (defaultExitRules.findSome? fun rule => rule p t cfg).map fun reason => ⟨reason, t.bid, realisedR p t.bid⟩

/-- The time stop fires on the day of expiry from the cutoff on, if nothing else does. -/
theorem evaluateExit_dte0 {p : ExitPosition} {t : ExitTick} {cfg : ExitConfig} (hdte : t.dte = 0)
    (hcutoff : cfg.dte0Cutoff ≤ t.at) : (evaluateExit p t cfg).isSome = true := by
  have hlast : e3TimeStop p t cfg = some .timeStop := by
    simp [e3TimeStop, hdte, hcutoff]
  rw [evaluateExit, Option.isSome_map, List.isSome_findSome?, List.any_eq_true]
  exact ⟨e3TimeStop, by simp [defaultExitRules], by simp [hlast]⟩

end NiftyShield.Gamma
