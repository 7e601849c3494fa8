import NiftyShield.Strategy.OverlayTenor
import NiftyShield.Strategy.Protocol
import Mathlib.Algebra.Order.Ring.Rat
import Mathlib.Data.List.Sort

/-!
# Exit rules

The rules of `ExitSignalEngine` (`src/strategy/exit_signals.py`) for cash-secured puts, the
overlays and the proxy call of the three tracks.

## Honest scope

A float threshold is the decimal it is written as, and a delta is compared with it exactly.
How `str` and a format print a number is a parameter of the functions that print one.
-/

namespace NiftyShield.Strategy

/-- How numbers are printed. -/
structure NumberText where
  /-- `str` of a `Decimal`. -/
  decimal : ℚ → String
  /-- `:.3f` of a float. -/
  fixed3 : ℚ → String

/-- How the rules for short puts and overlays print numbers. -/
structure RuleText extends NumberText where
  /-- `str` of a float. -/
  float : ℚ → String
  /-- `:.2f`. -/
  fixed2 : ℚ → String
  /-- `:.4f` of a float. -/
  fixed4 : ℚ → String
  /-- `:.0%`. -/
  percent : ℚ → String

/-- What a rule found. -/
structure ExitSignalResult where
  /-- e.g. `ROLL_ELIGIBLE`. -/
  exitSignal : String
  /-- Severity. -/
  severity : Severity
  /-- The threshold that was crossed. -/
  thresholdValue : Option ℚ := none
  /-- Text for the user. -/
  notes : Option String := none
  /-- `delta_stop_would_fire`. -/
  deltaStopWouldFire : Option Bool := none
  /-- `premium_stop_would_fire`. -/
  premiumStopWouldFire : Option Bool := none
  /-- `actual_rule_used`. -/
  actualRuleUsed : Option String := none

/-- The order of `_sort_results`. -/
def Severity.rank : Severity → ℕ
  | .action => 0
  | .warn => 1
  | .info => 2

/-- `_sort_results`. -/
def sortResults (results : List ExitSignalResult) : List ExitSignalResult :=
  results.insertionSort fun r s => r.severity.rank ≤ s.severity.rank

/-- Whether some result is an ACTION. -/
def anyAction (results : List ExitSignalResult) : Bool := results.any fun r => r.severity = .action

@[simp] theorem anyAction_nil : anyAction [] = false := rfl

theorem anyAction_cons (r : ExitSignalResult) (rs : List ExitSignalResult) :
    anyAction (r :: rs) = (r.severity = .action || anyAction rs) := rfl

theorem anyAction_append (rs ss : List ExitSignalResult) : anyAction (rs ++ ss) = (anyAction rs || anyAction ss) :=
  List.any_append

@[simp] theorem anyAction_sortResults (results : List ExitSignalResult) : anyAction (sortResults results) = anyAction results :=
  (List.perm_insertionSort _ results).any_eq

/-- `_OVERLAY_SHORT_CALL_ROLES`. -/
def overlayShortCallRoles : List String := ["overlay_cc", "overlay_collar_call"]

/-- `_OVERLAY_LONG_PUT_ROLES`. -/
def overlayLongPutRoles : List String := ["overlay_pp", "overlay_collar_put"]

/-- `_OVERLAY_STRIKE_OFFSET`. -/
def overlayStrikeOffset : ℤ := 50

/-- `_BASE_DTE_GUARD`. -/
def baseDteGuard : ℤ := 10

/-- `evaluate_roll_overlay`; `none` is its `ValueError`. -/
def evaluateRollOverlay (legRole : String) (dte baseDte atmStrike : ℤ) : Option (List ExitSignalResult) :=
  if legRole ∉ overlayShortCallRoles ++ overlayLongPutRoles then none
  else if 5 < dte then some []
  else if baseDte ≤ baseDteGuard then
    some [{ exitSignal := "ROLL_BASE_FIRST", severity := .warn, thresholdValue := some baseDteGuard
            notes := some s!"Base DTE {baseDte} ≤ {baseDteGuard} — roll base first" }]
  else
    let suggestedStrike :=
      if legRole ∈ overlayShortCallRoles then atmStrike + overlayStrikeOffset else atmStrike - overlayStrikeOffset
    some [{ exitSignal := "ROLL_ELIGIBLE", severity := .action, thresholdValue := some 5
            notes := some s!"DTE {dte} ≤ 5 — suggested strike {suggestedStrike}" }]

/-- `_PROXY_DELTA_WARN`. -/
def proxyDeltaWarn : ℚ := 65 / 100

/-- `_PROXY_DELTA_CRITICAL`. -/
def proxyDeltaCritical : ℚ := 40 / 100

/-- `_PROXY_DELTA_CONSECUTIVE`. -/
def proxyDeltaConsecutive : ℕ := 3

/-- `_PROXY_PREMIUM_FLOOR`. -/
def proxyPremiumFloor : ℚ := 50 / 100

/-- `evaluate_proxy_delta`. -/
def evaluateProxyDelta (text : NumberText) (currentDelta currentMark : ℚ) (dte : ℤ) (daysBelowCritical : ℕ) :
    List ExitSignalResult :=
  let criticalFired := currentDelta < proxyDeltaCritical ∧ proxyDeltaConsecutive ≤ daysBelowCritical
  let critical :=
    if criticalFired then
      [{ exitSignal := "PROXY_DELTA_CRITICAL", severity := .action, thresholdValue := some proxyDeltaCritical
         notes := some (s!"delta {text.fixed3 currentDelta} < 0.4 for {daysBelowCritical} consecutive days " ++
           "— close and re-enter at δ≈0.90") }]
    else []
  let decay :=
    if currentMark < proxyPremiumFloor ∧ 5 ≤ dte then
      [{ exitSignal := "PROXY_PREMIUM_DECAY", severity := .action, thresholdValue := some proxyPremiumFloor
         notes := some s!"mark ₹{text.decimal currentMark} < ₹0.50 with DTE {dte} — optionality exhausted" }]
    else []
  let warn :=
    if currentDelta < proxyDeltaWarn ∧ ¬ criticalFired then
      let daysRemaining := proxyDeltaConsecutive - daysBelowCritical
      let dayWord := if daysRemaining = 1 then "day" else "days"
      [{ exitSignal := "PROXY_DELTA_WARN", severity := .warn, thresholdValue := some proxyDeltaWarn
         notes := some (s!"delta {text.fixed3 currentDelta} < 0.65 — monitor; {daysRemaining} more {dayWord} " ++
           "below 0.4 triggers close") }]
    else []
  sortResults (critical ++ decay ++ warn)

/-! ### Cash-secured puts -/

/-- `_PROFIT_TARGET_RETENTION`. -/
def profitTargetRetention : ℚ := 30 / 100

/-- `evaluate_profit_target_csp`. -/
def evaluateProfitTargetCsp (text : RuleText) (ltp entryCredit : ℚ) : List ExitSignalResult :=
  let threshold := entryCredit * profitTargetRetention
  if ltp ≤ threshold then
    [{ exitSignal := "PROFIT_TARGET", severity := .action, thresholdValue := some threshold
       notes := some s!"LTP {text.decimal ltp} ≤ 30% of entry credit {text.decimal entryCredit} (70% captured)" }]
  else []

/-- `evaluate_hard_stop_csp`. -/
def evaluateHardStopCsp (text : RuleText) (ltp entryCredit : ℚ) : List ExitSignalResult :=
  let threshold := entryCredit * 2
  if threshold ≤ ltp then
    [{ exitSignal := "HARD_STOP", severity := .action, thresholdValue := some threshold
       notes := some s!"LTP {text.decimal ltp} ≥ 2× entry credit {text.decimal entryCredit}" }]
  else []

/-- `evaluate_delta_breach_csp` of an open trade. -/
def evaluateDeltaBreachCsp (text : RuleText) : Option ℚ → List ExitSignalResult
  | none =>
    [{ exitSignal := "DELTA_MISSING", severity := .warn
       notes := some "delta is None — Greek missing or stale; delta breach cannot be evaluated" }]
  | some delta =>
    if 40 / 100 ≤ |delta| then
      [{ exitSignal := "DELTA_BREACH", severity := .action, thresholdValue := some (40 / 100)
         notes := some s!"delta {text.fixed4 delta}: |δ| ≥ 0.40 — roll down and out" }]
    else []

/-- `str` of a DTE that may be missing. -/
def dteText : Option ℤ → String
  | none => "None"
  | some dte => toString dte

/-- `evaluate_time_stop_csp`. -/
def evaluateTimeStopCsp (daysHeld : ℤ) (dte : Option ℤ) : List ExitSignalResult :=
  if 21 ≤ daysHeld ∧ dte.all (· ≤ 21) then
    [{ exitSignal := "TIME_STOP", severity := .action, thresholdValue := some 21
       notes := some s!"Days held {daysHeld} ≥ 21 (dte={dteText dte})" }]
  else []

/-- `evaluate_roll_eligible_csp`. -/
def evaluateRollEligibleCsp (dte : ℤ) : List ExitSignalResult :=
  if dte ≤ 7 then
    [{ exitSignal := "ROLL_ELIGIBLE", severity := .action, thresholdValue := some 7
       notes := some s!"DTE {dte} ≤ 7 — close and reopen via strike_selector" }]
  else []

/-! ### Overlays -/

/-- `_get_sell_audit_fields`: whether the delta and the premium stop would fire, and which is
the rule. -/
def getSellAuditFields (delta : Option ℚ) (currentMark entryPrice deltaThreshold premiumThresholdMult : ℚ) :
    Bool × Bool × String :=
  let deltaStop := delta.any fun d => if 0 < deltaThreshold then deltaThreshold ≤ d else |deltaThreshold| ≤ |d|
  let premiumStop := decide (0 < entryPrice ∧ premiumThresholdMult * entryPrice ≤ currentMark)
  (deltaStop, premiumStop,
    if deltaStop ∧ premiumStop then "BOTH" else if deltaStop then "DELTA" else if premiumStop then "PREMIUM" else "NEITHER")

/-- `evaluate_cc`, of the short call of a covered call or a collar. -/
def evaluateCc (text : RuleText) (entryPrice currentMark : ℚ) (delta : Option ℚ) (dte : ℤ) (policy : OverlayTenorPolicy) :
    List ExitSignalResult :=
  let retention := 1 - policy.profitTargetDecay
  let (deltaStop, premiumStop, ruleUsed) :=
    getSellAuditFields delta currentMark entryPrice policy.deltaStop policy.premiumStopMultiple
  let result (exitSignal : String) (severity : Severity) (threshold : ℚ) (notes : String) : ExitSignalResult :=
    { exitSignal, severity, thresholdValue := some threshold, notes := some notes
      deltaStopWouldFire := some deltaStop
      premiumStopWouldFire := some premiumStop
      actualRuleUsed := some ruleUsed }
  let profit :=
    if entryPrice < 12 then
      [result "BELOW_FLOOR" .info 12 s!"Entry credit {text.float entryPrice} < 12/unit"]
    else if 15 ≤ entryPrice ∧ currentMark ≤ entryPrice * retention then
      [result "PROFIT_TARGET" .action retention
        s!"Mark {text.float currentMark} <= {text.percent retention} of entry credit {text.float entryPrice}"]
    else []
  let loss :=
    if premiumStop then
      [result "LOSS_STOP" (if policy.premiumStopAlertOnly then .warn else .action) policy.premiumStopMultiple
        (s!"Mark {text.float currentMark} >= {text.float policy.premiumStopMultiple}x entry credit " ++
          text.float entryPrice)]
    else []
  let deltas :=
    match delta with
    | none => []
    | some d =>
      if policy.deltaStop ≤ d then
        [result "DELTA_STOP" .action policy.deltaStop
          s!"Short call delta {text.float d} >= {text.float policy.deltaStop}"]
      else if 45 / 100 ≤ d then
        [result "DELTA_WARN" .warn (45 / 100) s!"Short call delta {text.float d} >= 0.45"]
      else []
  let review :=
    if dte ≤ policy.reviewDte then
      [result "DTE_REVIEW" .action policy.reviewDte
        s!"DTE {dte} <= {policy.reviewDte} — auto-close (EC-5 collapse of TIME_STOP+DTE_REVIEW)"]
    else []
  sortResults (profit ++ loss ++ deltas ++ review)

/-- `evaluate_crash_monetize`. -/
def evaluateCrashMonetize (text : RuleText) (entryPrice currentMark : ℚ) (delta : Option ℚ) : List ExitSignalResult :=
  if entryPrice ≤ 0 then []
  else if delta.any (· ≤ -(80 / 100)) ∨ 5 * entryPrice ≤ currentMark then
    let deltaText := (delta.map text.float).getD "None"
    [{ exitSignal := "CRASH_MONETIZE", severity := .action, thresholdValue := some 5
       notes := some (s!"Crash monetise: delta={deltaText}, value={text.fixed2 currentMark}, " ++
         s!"5x_threshold={text.fixed2 (5 * entryPrice)}") }]
  else []

/-- `evaluate_pp`, of a protective put. -/
def evaluatePp (text : RuleText) (entryPrice currentMark : ℚ) (delta : Option ℚ) (dte : ℤ) (policy : OverlayTenorPolicy) :
    List ExitSignalResult :=
  if entryPrice ≤ 0 then []
  else
    let roll :=
      if dte ≤ policy.rollDte then
        [{ exitSignal := "ROLL_ELIGIBLE", severity := .action, thresholdValue := some (policy.rollDte : ℚ)
           notes := some s!"DTE {dte} ≤ {policy.rollDte} — roll PP to next expiry" }]
      else []
    sortResults (evaluateCrashMonetize text entryPrice currentMark delta ++ roll)

end NiftyShield.Strategy
