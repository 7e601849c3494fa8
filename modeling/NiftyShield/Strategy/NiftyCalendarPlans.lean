import NiftyShield.NiftyCalendar.Windows
import NiftyShield.Strategy.NiftyCalendarShell

/-!
# The plan of a calendar cycle

`cycle_plan` (`src/strategy/nifty_calendar_v1.py`) stores nothing: it finds the day a cycle
began in the ledger and asks the policy for the plan of that day again. A daemon started on a
later day asks a policy built from that day's listing. Here: when it gets the same pair and
the same hard exit (`cycle_keeps_plan_iff`).
-/

namespace NiftyShield.Strategy.NiftyCalendarV1

open NiftyShield.Lib.Run NiftyShield.MarketCalendar NiftyShield.NiftyCalendar NiftyShield.Paper

namespace CalendarShell

variable {shell : CalendarShell} {T : PaperTrades} {entryDay today : Date}

/-- The plan of a cycle that began on its entry day. -/
theorem cyclePlan_of_origin
    (hstart : cycleOriginDate (T.getTrades shell.strategyName) entryDay (fun _ => true) = some entryDay) :
    shell.cyclePlan T entryDay = (shell.policy.entryWindow entryDay).map fun plan =>
      match shell.policy.redeployPlan with
      | some redeploy => redeploy plan entryDay
      | none => plan := by
  have hmin := (Option.filter_eq_some_iff.mp hstart).1
  cases hwindow : shell.policy.entryWindow entryDay with
  | none =>
    have horigin : cycleOriginDate (T.getTrades shell.strategyName) entryDay
        (fun d => (shell.policy.entryWindow d).isSome) = none := by
      rw [cycleOriginDate, hmin]
      simp [Option.filter, hwindow]
    rw [cyclePlan, horigin]
    rfl
  | some plan =>
    have horigin : cycleOriginDate (T.getTrades shell.strategyName) entryDay
        (fun d => (shell.policy.entryWindow d).isSome) = some entryDay := by
      rw [cycleOriginDate, hmin]
      simp [Option.filter, hwindow]
    rw [cyclePlan, horigin, Option.bind_eq_bind, Option.bind_some, hwindow, Option.bind_eq_bind, Option.bind_some,
      Option.map_some]
    cases shell.policy.redeployPlan <;> rfl

/-- What a policy rebuilt on a later day must still find of a plan. -/
def PlanSurvives (c : TradingCalendar) (listed : List Date) (entryDay today : Date) (plan : EntryPlan) : Variant → Prop
  | .monthly => (∃ prev ∈ settledExpiries c.isTradingDay today, c.nextTradingDay prev = entryDay) ∧
      ∀ r ∈ settledExpiries c.isTradingDay today, r ≤ entryDay
  | .biweekly => BiweeklySurvives c listed entryDay today plan.hardExitDate

/-- **When a cycle keeps its plan**: a structure entered on a day with a window, and a policy
rebuilt on a later day up to the near expiry, from a listing without the contracts settled
by the session before. The cycle's plan has the same pair and the same hard exit exactly
when the plan survives. -/
theorem cycle_keeps_plan_iff (c : TradingCalendar) (listed : List Date) (v : Variant) {plan : EntryPlan}
    (hplan : (v.policy c (listingOn c listed entryDay) entryDay).entryWindow entryDay = some plan)
    (hlater : entryDay < today) (hnear : today ≤ plan.nearExpiry)
    (hstart : cycleOriginDate (T.getTrades shell.strategyName) entryDay (fun _ => true) = some entryDay) :
    (∃ plan', ({ shell with policy := v.policy c (listingOn c listed today) today } : CalendarShell).cyclePlan T
        entryDay = some plan' ∧ SamePlan plan plan') ↔ PlanSurvives c listed entryDay today plan v := by
  rw [@cyclePlan_of_origin { shell with policy := v.policy c (listingOn c listed today) today } _ _ hstart]
  cases v with
  | monthly =>
    refine Iff.trans ?_ (monthly_survives_iff hplan hlater hnear)
    exact exists_congr fun plan' => and_congr_left fun _ => by
      rw [Option.map_eq_some_iff]
      simp [Variant.policy, monthlyPolicy]
  | biweekly =>
    refine Iff.trans ?_ (biweekly_survives_iff hplan hlater)
    constructor
    · rintro ⟨plan', hmap, hsame⟩
      obtain ⟨window, hwindow, rfl⟩ := Option.map_eq_some_iff.mp hmap
      exact ⟨window, hwindow, ⟨hsame.near, hsame.far, hsame.hardExit⟩⟩
    · rintro ⟨window, hwindow, hsame⟩
      exact ⟨_, Option.map_eq_some_iff.mpr ⟨window, hwindow, rfl⟩, ⟨hsame.near, hsame.far, hsame.hardExit⟩⟩

/-! ### The week after an entry -/

/-- Weekly and monthly expiries from July to October 2026. -/
def summerExpiries : List Date :=
  [739804, 739811, 739818, 739825, 739832, 739839, 739846, 739853, 739881, 739916]

/-- The bi-weekly plan of 14 July 2026: the pair of 28 July and 4 August. -/
private def julyPlan : EntryPlan := planFor TradingCalendar.weekdays biweeklyVariant 739811 739825 739832

/-- The ledger after the entry of that day. -/
private def julyEntry : PaperTrades := julyShell.step PaperTrades.empty (enterAt 14 11 24000)

private theorem julyPlan_window : (Variant.policy TradingCalendar.weekdays .biweekly
    (listingOn TradingCalendar.weekdays summerExpiries 739811) 739811).entryWindow 739811 = some julyPlan := by
  decide +kernel

private theorem julyEntry_start :
    cycleOriginDate (julyEntry.getTrades julyShell.strategyName) 739811 (fun _ => true) = some 739811 := by
  decide +kernel

private theorem julyPlan_survives :
    PlanSurvives TradingCalendar.weekdays summerExpiries 739811 739818 julyPlan .biweekly where
  kept := by decide +kernel
  part := by
    unfold InBiweeklyPart
    decide +kernel
  next := by decide +kernel
  room := by decide +kernel

/-- The strategy of a daemon started on a day. -/
private def startedOn (today : Date) : CalendarShell :=
  { julyShell with
    policy := Variant.policy TradingCalendar.weekdays .biweekly
      (listingOn TradingCalendar.weekdays summerExpiries today) today }

/-- On 21 July the expiry of that day is still listed, and the plan is the same. -/
theorem cycle_keeps_plan_iff_week :
    ∃ plan', (startedOn 739818).cyclePlan julyEntry 739811 = some plan' ∧ SamePlan julyPlan plan' :=
  (@cycle_keeps_plan_iff julyShell julyEntry 739811 739818 TradingCalendar.weekdays summerExpiries .biweekly julyPlan
    julyPlan_window (by decide) (by decide +kernel) julyEntry_start).mpr julyPlan_survives

/-- On 22 July it is not, and the pair of the plan moves on by a week. -/
theorem settled_week_moves_pair :
    (startedOn 739811).policy.entryWindow 739811 = some julyPlan ∧ (739811 : Date) < 739819 ∧
      739819 ≤ julyPlan.nearExpiry ∧
      cycleOriginDate (julyEntry.getTrades julyShell.strategyName) 739811 (fun _ => true) = some 739811 ∧
      ((startedOn 739819).cyclePlan julyEntry 739811).map (fun plan => (plan.nearExpiry, plan.farExpiry)) =
        some (739832, 739839) ∧
      ¬∃ plan', (startedOn 739819).cyclePlan julyEntry 739811 = some plan' ∧ SamePlan julyPlan plan' := by
  have hpair : ((startedOn 739819).cyclePlan julyEntry 739811).map (fun plan => (plan.nearExpiry, plan.farExpiry)) =
      some (739832, 739839) := by
    decide +kernel
  refine ⟨julyPlan_window, by decide, by decide +kernel, julyEntry_start, hpair, ?_⟩
  rintro ⟨plan', hplan', hsame⟩
  rw [hplan', Option.map_some, hsame.near] at hpair
  have hne : julyPlan.nearExpiry ≠ 739832 := by decide +kernel
  exact hne (congrArg Prod.fst (Option.some.inj hpair))

end CalendarShell

end NiftyShield.Strategy.NiftyCalendarV1
