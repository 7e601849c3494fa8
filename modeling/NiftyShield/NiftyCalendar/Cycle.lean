import NiftyShield.MarketCalendar.Sessions
import NiftyShield.NiftyCalendar.ExitRules
import NiftyShield.Paper.Models
import Mathlib.Data.List.Dedup
import Mathlib.Data.List.Sort

/-!
# Cycle policies of the calendar spreads

When a variant enters and what it plans: `MonthlyCyclePolicy`, `BiweeklyCyclePolicy` and
`active_variant` (`src/nifty_calendar/cycle.py`), the monthly expiries they work on
(`src/nifty_calendar/expiries.py`) and the policies the factory builds from a listing
(`src/strategy/nifty_calendar_factory.py`). A policy is rebuilt from the day's listing, in
which settled contracts no longer appear.

## Honest scope

The trading-day calendar is a parameter. Explicit `entry_dates` and `next_variant_after_exit`
are left out: the factory passes none and nothing modelled calls the latter. The lists the
factory passes are sorted and distinct, so of the constructors' checks only that for an empty
listing can fail; the bi-weekly policy then has no entry day here.
-/

namespace NiftyShield.NiftyCalendar

open NiftyShield.MarketCalendar NiftyShield.Paper

/-! ### Configuration and plans -/

/-- What the cycle policies and the strategy read of `CalendarVariantConfig`. -/
structure VariantConfig where
  /-- `name`. -/
  name : String
  /-- `strategy_name`. -/
  strategyName : String
  /-- Planned holding period in trading days. -/
  plannedHoldDays : ℕ
  /-- Maximum holding period in trading days. -/
  hardHoldDays : ℕ
  /-- Days to the near expiry at which a position must be gone. -/
  exitByDte : ℕ := 7
  /-- Lots of a structure. -/
  lots : ℕ := 1
  /-- Units of a lot. -/
  lotSize : ℕ := 65
  /-- Entry time, in microseconds of the day. -/
  entryTimeIst : ℕ := 37800000000
  /-- The name is one of the paper ledger's. -/
  paperPrefix : hasPaperPrefix strategyName = true
  /-- A lot has units. -/
  lotSize_pos : 0 < lotSize

/-- `MONTHLY`. -/
def monthlyVariant : VariantConfig where
  name := "monthly"
  strategyName := "paper_nifty_calendar_monthly"
  plannedHoldDays := 7
  hardHoldDays := 10
  paperPrefix := by decide
  lotSize_pos := by decide

/-- `BIWEEKLY`. -/
def biweeklyVariant : VariantConfig where
  name := "biweekly"
  strategyName := "paper_nifty_calendar_biweekly"
  plannedHoldDays := 5
  hardHoldDays := 7
  paperPrefix := by decide
  lotSize_pos := by decide

/-- `EntryPlan`. -/
structure EntryPlan where
  /-- `variant_name`. -/
  variantName : String
  /-- `entry_date`. -/
  entryDate : Date
  /-- `entry_time_ist`. -/
  entryTimeIst : ℕ
  /-- `near_expiry`. -/
  nearExpiry : Date
  /-- `far_expiry`. -/
  farExpiry : Date
  /-- `planned_exit_date`. -/
  plannedExitDate : Date
  /-- `hard_exit_date`. -/
  hardExitDate : Date
  deriving DecidableEq

/-- `CyclePolicy`, with the hook it may have. -/
structure CyclePolicy where
  /-- `entry_window`. -/
  entryWindow : Date → Option EntryPlan
  /-- `redeploy_plan`, if the policy has one. -/
  redeployPlan : Option (EntryPlan → Date → EntryPlan) := none

/-! ### Monthly expiries -/

/-- `_rule_expiry`: the last Tuesday of the month, moved back to a trading day. -/
def ruleExpiry (tradingDay : Date → Bool) (year month : ℕ) : Date :=
  let last : Date := Date.daysBeforeYear year + Date.daysBeforeMonth year month + Date.daysInMonth year month
  backToTradingDay tradingDay (last - (last.weekday + 6) % 7)

/-- The month before. -/
def monthBefore (ym : ℕ × ℕ) : ℕ × ℕ := if 1 < ym.2 then (ym.1, ym.2 - 1) else (ym.1 - 1, 12)

/-- `_months_back` for `_LOOKBACK_MONTHS`: the month of the day and the two before. -/
def monthsBack (today : Date) : List (ℕ × ℕ) :=
  let ym := (today.year, today.month)
  [ym, monthBefore ym, monthBefore (monthBefore ym)]

/-- `settled`: the rule's expiries of these months that are past. -/
def settledExpiries (tradingDay : Date → Bool) (today : Date) : List Date :=
  ((monthsBack today).map fun ym => ruleExpiry tradingDay ym.1 ym.2).filter (· < today)

/-- `last_listed.values()`: the last listed expiry of each month, from today on. -/
def lastListed (listed : List Date) (today : Date) : List Date :=
  listed.filter fun d => today ≤ d ∧ ∀ e ∈ listed, e.year = d.year → e.month = d.month → e ≤ d

/-- `sorted(set(…))`. -/
def sortedSet (ds : List Date) : List Date := ds.dedup.insertionSort (· ≤ ·)

/-- `monthly_expiries`. -/
def monthlyExpiries (tradingDay : Date → Bool) (listed : List Date) (today : Date) : List Date :=
  sortedSet (settledExpiries tradingDay today ++ lastListed listed today)

/-! ### The monthly policy -/

section Policies

variable (c : TradingCalendar)

/-- The hard exit: the maximum hold, but never within `exit_by_dte` days of the near
expiry. -/
def hardExit (config : VariantConfig) (today nearExpiry : Date) : Date :=
  min (c.addTradingDays today config.hardHoldDays)
    (backToTradingDay c.isTradingDay (nearExpiry - (config.exitByDte + 1)))

/-- The plan of an entry into a pair of expiries. -/
def planFor (config : VariantConfig) (today nearExpiry farExpiry : Date) : EntryPlan where
  variantName := config.name
  entryDate := today
  entryTimeIst := config.entryTimeIst
  nearExpiry := nearExpiry
  farExpiry := farExpiry
  plannedExitDate := c.addTradingDays today config.plannedHoldDays
  hardExitDate := hardExit c config today nearExpiry

/-- `MonthlyCyclePolicy.entry_window`: the first trading day after a monthly expiry, if two
later ones are known. -/
def MonthlyCyclePolicy.entryWindow (config : VariantConfig) (monthly : List Date) (today : Date) :
    Option EntryPlan :=
  if monthly.any fun prev => c.nextTradingDay prev = today then
    match monthly.filter (today < ·) with
    | near :: far :: _ => some (planFor c config today near far)
    | _ => none
  else none

/-! ### The bi-weekly policy -/

/-- The loop of `_candidate_entry_dates`: trading days from `curr` on, before `stop`. -/
def candidatesBefore (stop : Date) : ℕ → Date → List Date
  | 0, _ => []
  | n + 1, curr => if curr < stop then curr :: candidatesBefore stop n (c.nextTradingDay curr) else []

/-- The first bi-weekly entry day of the cycle after a monthly expiry. -/
def earliestBiweekly (monthlyConfig : VariantConfig) (prev : Date) : Date :=
  c.addTradingDays (c.nextTradingDay prev) monthlyConfig.plannedHoldDays

/-- `_candidate_entry_dates`. -/
def candidateEntryDates (monthlyConfig : VariantConfig) : List Date → List Date
  | prev :: next :: monthly =>
    let earliest := earliestBiweekly c monthlyConfig prev
    candidatesBefore c next (next - earliest) earliest ++ candidateEntryDates monthlyConfig (next :: monthly)
  | _ => []

/-- `BiweeklyCyclePolicy.entry_window`. -/
def BiweeklyCyclePolicy.entryWindow (config monthlyConfig : VariantConfig) (expiries monthly : List Date)
    (today : Date) : Option EntryPlan :=
  match (monthly.filter (· < today)).getLast? with
  | none => none
  | some prev =>
    if today < earliestBiweekly c monthlyConfig prev then none
    else if today ∉ candidateEntryDates c monthlyConfig monthly then none
    else
      match monthly.filter (today < ·) with
      | [] => none
      | next :: _ =>
        match expiries.filter (today < ·) with
        | _ :: near :: far :: _ =>
          let plan := planFor c config today near far
          if plan.hardExitDate < today ∨ c.nextTradingDay next ≤ plan.hardExitDate then none else some plan
        | _ => none

/-- `BiweeklyCyclePolicy.redeploy_plan`: the pair and the hard exit of the current plan. -/
def BiweeklyCyclePolicy.redeployPlan (config : VariantConfig) (current : EntryPlan) (today : Date) :
    EntryPlan where
  variantName := config.name
  entryDate := today
  entryTimeIst := config.entryTimeIst
  nearExpiry := current.nearExpiry
  farExpiry := current.farExpiry
  plannedExitDate := min (c.addTradingDays today config.plannedHoldDays) current.hardExitDate
  hardExitDate := current.hardExitDate

/-! ### The factory -/

/-- `_monthly_policy`. -/
def monthlyPolicy (listed : List Date) (today : Date) : CyclePolicy where
  entryWindow := MonthlyCyclePolicy.entryWindow c monthlyVariant (monthlyExpiries c.isTradingDay listed today)

/-- `_biweekly_policy`. -/
def biweeklyPolicy (listed : List Date) (today : Date) : CyclePolicy where
  entryWindow := BiweeklyCyclePolicy.entryWindow c biweeklyVariant monthlyVariant (sortedSet listed)
    (monthlyExpiries c.isTradingDay listed today)
  redeployPlan := some (BiweeklyCyclePolicy.redeployPlan c biweeklyVariant)

/-- `VariantConfig` of a variant. -/
def Variant.config : Variant → VariantConfig
  | .monthly => monthlyVariant
  | .biweekly => biweeklyVariant

/-- `build_policy` of a variant of the `REGISTRY`. -/
def Variant.policy : Variant → List Date → Date → CyclePolicy
  | .monthly => monthlyPolicy c
  | .biweekly => biweeklyPolicy c

/-- `active_variant` on the policies of the registry: the first whose window is open. -/
def activeVariant (listed : List Date) (today : Date) : Option String :=
  ([Variant.monthly, .biweekly].filterMap fun v => (v.policy c listed today).entryWindow today).head?.map
    EntryPlan.variantName

end Policies

end NiftyShield.NiftyCalendar
