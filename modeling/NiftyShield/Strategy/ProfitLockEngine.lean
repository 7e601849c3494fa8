import NiftyShield.Strategy.IronCondor
import NiftyShield.Strategy.RollUtils

/-!
# The profit-lock engine

`ProfitLockEngine.evaluate` (`src/strategy/profit_lock_engine.py`): whether an Iron Condor V2
that has captured enough of its credit rolls its wings inwards, closes, or is left alone.

## Honest scope

A decision keeps what `IronCondorV2` acts on; the figures it only writes to the log
(`required_max_width_pts`, `guaranteed_floor_fraction`) are left out, and so are the
configured DTE bounds that nothing reads.
-/

namespace NiftyShield.Strategy.IronCondor

/-- `"put"` or `"call"`. -/
inductive Side where
  /-- The put spread. -/
  | put
  /-- The call spread. -/
  | call
  deriving DecidableEq

namespace Side

/-- The option type of a side. -/
def optionType : Side → OptionType
  | put => .pe
  | call => .ce

/-- `short_put` or `short_call`. -/
def shortRole : Side → String
  | put => "short_put"
  | call => "short_call"

/-- `long_put_hedge` or `long_call_hedge`. -/
def longRole : Side → String
  | put => "long_put_hedge"
  | call => "long_call_hedge"

theorem longRole_ne_shortRole (side side' : Side) : side.longRole ≠ side'.shortRole := by
  cases side <;> cases side' <;> decide

/-- The other side. -/
def opposite : Side → Side
  | put => call
  | call => put

/-- There are two sides. -/
theorem forall_iff {P : Side → Prop} : (∀ side, P side) ↔ P put ∧ P call := by
  constructor
  · exact fun h => ⟨h put, h call⟩
  · rintro ⟨hput, hcall⟩ side
    cases side with
    | put => exact hput
    | call => exact hcall

instance {P : Side → Prop} [DecidablePred P] : Decidable (∀ side, P side) :=
  decidable_of_iff _ forall_iff.symm

end Side

/-- `ExpiryType`: only the monthly preset exists. -/
inductive ExpiryType where
  /-- `"monthly"`. -/
  | monthly
  deriving DecidableEq

/-- The text of the expiry type. -/
def ExpiryType.value : ExpiryType → String
  | .monthly => "monthly"

/-- `ProfitLockConfig`. -/
structure ProfitLockConfig where
  /-- Fraction of the credit captured at Zone 1. -/
  zone1Trigger : ℚ := 25 / 100
  /-- At Zone 2. -/
  zone2Trigger : ℚ := 50 / 100
  /-- At Zone 3. -/
  zone3Trigger : ℚ := 75 / 100
  /-- Delta wanted of the inward wings. -/
  zone2LongWingDeltaTarget : ℚ := 19 / 100
  /-- Its lower bound. -/
  zone2LongWingDeltaLo : ℚ := 16 / 100
  /-- Its upper bound. -/
  zone2LongWingDeltaHi : ℚ := 22 / 100
  /-- Least mid price of an inward wing. -/
  zone2LongWingMinPremium : ℚ := 15
  /-- `1 - F` of the floor formula. -/
  floorBudgetZone2 : ℚ := 75 / 100
  /-- `K` of the floor formula. -/
  costBufferPts : ℚ := 10
  /-- Greatest debit, as a fraction of the credit. -/
  maxDebitFraction : ℚ := 25 / 100
  /-- Least width worth restructuring to. -/
  minViableWidthPts : ℚ := 100
  /-- Least VIX of the IV guard. -/
  minVix : ℚ := 11
  /-- Least IVR of the IV guard. -/
  minIvr : ℚ := 20 / 100

/-- `ProfitLockDecision`, by its action. -/
inductive ProfitLockDecision where
  /-- `NONE`. -/
  | nothing (skipReason : Option String)
  /-- `ZONE1_LOG`. -/
  | zone1Log
  /-- `ZONE2_LOCK`: the new wings and what they cost. -/
  | zone2Lock (newPutWing newCallWing : OptionLeg) (netDebitPts : ℚ)
  /-- `CLOSE_FULL`. -/
  | closeFull (skipReason : String)

/-- What `evaluate` is given. -/
structure ProfitLockInputs where
  /-- Captured fraction of the credit. -/
  capturedFraction : ℚ
  /-- `C0`. -/
  entryCreditPts : ℚ
  /-- Days to expiry. -/
  dte : ℤ
  /-- Expiry bucket. -/
  expiryType : ExpiryType
  /-- VIX and IVR, where they load. -/
  vixIvr : Option ℚ × Option ℚ
  /-- The persisted state. -/
  state : ProfitLockState
  /-- The chain. -/
  chain : OptionChain
  /-- Strike of the short put. -/
  shortPutStrike : ℚ
  /-- Strike of the short call. -/
  shortCallStrike : ℚ
  /-- The put wing in the chain. -/
  oldLongPut : Option OptionLeg
  /-- The call wing in the chain. -/
  oldLongCall : Option OptionLeg

/-- `int` of a decimal: towards zero. -/
def truncate (q : ℚ) : ℤ := q.num.tdiv q.den

/-- `_detect_zone`. -/
def ProfitLockConfig.detectZone (config : ProfitLockConfig) (capturedFraction : ℚ) : ℤ :=
  if config.zone3Trigger ≤ capturedFraction then 3
  else if config.zone2Trigger ≤ capturedFraction then 2
  else if config.zone1Trigger ≤ capturedFraction then 1 else 0

/-- `_select_inward_wing`. A leg not quoted on both sides fails the liquidity gate, so the
premium floor only matters for the mid of its quotes. -/
def ProfitLockConfig.selectInwardWing (config : ProfitLockConfig) (chain : OptionChain) (side : Side) :
    Option OptionLeg :=
  (findStrikeByDelta chain side.optionType (config.zone2LongWingDeltaLo, config.zone2LongWingDeltaHi)
    config.zone2LongWingDeltaTarget).filter (liquidMid config.zone2LongWingMinPremium (5 / 100))

/-- `_check_iv_guard`. -/
def ProfitLockConfig.ivGuard (config : ProfitLockConfig) : Option ℚ × Option ℚ → Bool
  | (some vix, some ivr) => config.minVix ≤ vix && config.minIvr ≤ ivr
  | _ => false

/-- The old wing of a side: the position's, else the leg at the persisted width. -/
def ProfitLockInputs.oldLong (i : ProfitLockInputs) : Side → Option OptionLeg
  | .put => i.oldLongPut.orElse fun _ =>
    (i.chain.strikes.get? (i.shortPutStrike - i.state.activePutWidthPts)).bind (·.pe)
  | .call => i.oldLongCall.orElse fun _ =>
    (i.chain.strikes.get? (i.shortCallStrike + i.state.activeCallWidthPts)).bind (·.ce)

/-- The last checks of a Zone 2 lock, on the four wings. -/
def ProfitLockConfig.restructure (config : ProfitLockConfig) (i : ProfitLockInputs)
    (oldPut oldCall newPut newCall : OptionLeg) : ProfitLockDecision :=
  let dLock := (newPut.ask + newCall.ask) - (oldPut.bid + oldCall.bid)
  let maxWidth := max (i.shortPutStrike - newPut.strike) (newCall.strike - i.shortCallStrike)
  let passes := fun k =>
    evaluateFloorFormula (truncate maxWidth) i.state.cumulativeLockDebitPts dLock k i.entryCreditPts
      config.floorBudgetZone2
  if oldPut.bid ≤ 0 ∨ oldCall.bid ≤ 0 ∨ newPut.ask ≤ 0 ∨ newCall.ask ≤ 0 then .closeFull "invalid_prices"
  else if config.maxDebitFraction * i.entryCreditPts < dLock then .closeFull "debit_cap"
  else if i.expiryType = .monthly ∧ 22 < i.dte ∧ 20 ≤ dLock then .nothing (some "dte_too_high")
  else if maxWidth < config.minViableWidthPts then .closeFull "required_width_too_small"
  else if passes config.costBufferPts = false then .closeFull "formula_failed"
  else if config.ivGuard i.vixIvr = false ∧ passes (max config.costBufferPts 15) = false
    then .closeFull "iv_guard"
  else .zone2Lock newPut newCall dLock

/-- `ProfitLockEngine.evaluate`. -/
def ProfitLockConfig.evaluate (config : ProfitLockConfig) (i : ProfitLockInputs) : ProfitLockDecision :=
  let zone := config.detectZone i.capturedFraction
  if zone = 0 then .nothing none
  else if zone = 1 then
    if i.state.profitLockZone < 1 then .zone1Log else .nothing (some "already_logged")
  else if zone = 3 then .closeFull "zone3_reached"
  else if i.state.zone2LockExecuted then .nothing (some "already_executed")
  else if i.expiryType = .monthly ∧ i.dte ≤ 7 then .closeFull "dte_too_low"
  else
    match config.selectInwardWing i.chain .put, config.selectInwardWing i.chain .call with
    | some newPut, some newCall =>
      match i.oldLong .put, i.oldLong .call with
      | some oldPut, some oldCall => config.restructure i oldPut oldCall newPut newCall
      | _, _ => .closeFull "old_leg_not_found"
    | _, _ => .closeFull "wing_not_found"

end NiftyShield.Strategy.IronCondor
