import NiftyShield.NiftyCalendar.Windows

/-!
# The shape of an entry plan

An entry plan names the days of a cycle: the entry, the planned exit, the hard exit and the
two expiries (`EntryPlan` in `src/nifty_calendar/cycle.py`). `WellFormed` is the order they
should come in. The hard exit is capped by the near expiry, the planned exit of an entry
window is not, so the window's plan is well formed exactly when the planned hold fits before
the cap (`HoldFits`); `redeploy_plan` clamps the planned exit, and its plans are well formed.

`BiweeklyCyclePolicy.entryWindowOn` is `entry_window` with the constructor's `entry_dates`,
which `NiftyShield.NiftyCalendar.Cycle` leaves out.

Where no trading day is left before the cap, the source runs into the first day of the
calendar and raises; the model then caps at day 0, and no such plan is well formed.
-/

namespace NiftyShield.NiftyCalendar

open NiftyShield.MarketCalendar

/-- The order of the days of a plan. The far expiry is after the entry by `pair` and
`ahead`. -/
structure EntryPlan.WellFormed (plan : EntryPlan) (c : TradingCalendar) (exitByDte : ℕ) : Prop where
  /-- The planned exit does not precede the entry. -/
  planned : plan.entryDate ≤ plan.plannedExitDate
  /-- The hard exit does not precede the planned one. -/
  hard : plan.plannedExitDate ≤ plan.hardExitDate
  /-- The hard exit is a trading day. -/
  session : c.isTradingDay plan.hardExitDate = true
  /-- The near expiry is before the far one. -/
  pair : plan.nearExpiry < plan.farExpiry
  /-- The expiries are after the entry. -/
  ahead : plan.entryDate < plan.nearExpiry
  /-- More than `exit_by_dte` days remain at the hard exit. -/
  dte : plan.hardExitDate + exitByDte < plan.nearExpiry

section Shape

variable (c : TradingCalendar)

/-- `BiweeklyCyclePolicy.entry_window`, with the `entry_dates` the policy was given. -/
def BiweeklyCyclePolicy.entryWindowOn (config monthlyConfig : VariantConfig) (expiries monthly : List Date)
    (entryDates : Option (List Date)) (today : Date) : Option EntryPlan :=
  match (monthly.filter (· < today)).getLast? with
  | none => none
  | some prev =>
    if today < earliestBiweekly c monthlyConfig prev then none
    else if today ∉ entryDates.getD (candidateEntryDates c monthlyConfig monthly) then none
    else
      match monthly.filter (today < ·) with
      | [] => none
      | next :: _ =>
        match expiries.filter (today < ·) with
        | _ :: near :: far :: _ =>
          let plan := planFor c config today near far
          if plan.hardExitDate < today ∨ c.nextTradingDay next ≤ plan.hardExitDate then none else some plan
        | _ => none

/-- Without entry dates of its own it is the policy of the factory. -/
theorem entryWindowOn_none (config monthlyConfig : VariantConfig) (expiries monthly : List Date) (today : Date) :
    BiweeklyCyclePolicy.entryWindowOn c config monthlyConfig expiries monthly none today =
      BiweeklyCyclePolicy.entryWindow c config monthlyConfig expiries monthly today := rfl

/-- The planned hold of an entry fits before the cap of the near expiry. -/
structure HoldFits (config : VariantConfig) (today nearExpiry : Date) : Prop where
  /-- The planned hold is not longer than the maximum one. -/
  hold : config.plannedHoldDays ≤ config.hardHoldDays
  /-- The maximum hold ends on a trading day. -/
  session : c.isTradingDay today = true ∨ 0 < config.hardHoldDays
  /-- A trading day is left from the end of the planned hold on, more than `exit_by_dte` days
  before the near expiry. -/
  room : ∃ d, c.isTradingDay d = true ∧ c.addTradingDays today config.plannedHoldDays ≤ d ∧
    d + config.exitByDte < nearExpiry

/-- The redeployments of a plan, each on a trading day up to the hard exit. -/
inductive Redeployed (config : VariantConfig) (plan : EntryPlan) : EntryPlan → Prop
  | first {today : Date} (hday : c.isTradingDay today = true) (hle : today ≤ plan.hardExitDate) :
      Redeployed config plan (BiweeklyCyclePolicy.redeployPlan c config plan today)
  | again {current : EntryPlan} {today : Date} (hcurrent : Redeployed config plan current)
      (hday : c.isTradingDay today = true) (hle : today ≤ current.hardExitDate) :
      Redeployed config plan (BiweeklyCyclePolicy.redeployPlan c config current today)

variable {c}

/-! ### Holds -/

theorem addTradingDays_lt_succ (start : Date) (n : ℕ) :
    c.addTradingDays start n < c.addTradingDays start (n + 1) := by
  induction n generalizing start with
  | zero => exact c.lt_nextTradingDay start
  | succ n ih => exact ih (c.nextTradingDay start)

/-- A longer hold ends later. -/
theorem addTradingDays_le_iff {start : Date} {m n : ℕ} :
    c.addTradingDays start m ≤ c.addTradingDays start n ↔ m ≤ n :=
  (strictMono_nat_of_lt_succ (addTradingDays_lt_succ start)).le_iff_le

/-- A hold ends on a trading day, if it starts on one or lasts. -/
theorem isTradingDay_hold {today : Date} {n : ℕ} (h : c.isTradingDay today = true ∨ 0 < n) :
    c.isTradingDay (c.addTradingDays today n) = true := by
  cases n with
  | zero => exact h.resolve_right (lt_irrefl 0)
  | succ n => exact isTradingDay_addTradingDays n (c.nextTradingDay_spec today).2.1

/-- A trading day that leaves more than `exit_by_dte` days is within the cap. -/
theorem le_cap {d nearExpiry : Date} {exitByDte : ℕ} (hday : c.isTradingDay d = true) (h : d + exitByDte < nearExpiry) :
    d ≤ backToTradingDay c.isTradingDay (nearExpiry - (exitByDte + 1)) := by
  by_contra hlt
  have hnone := (backToTradingDay_spec c.isTradingDay (nearExpiry - (exitByDte + 1))).2.2 d (not_le.mp hlt) (by
    apply Nat.le_sub_of_add_le
    exact h)
  rw [hnone] at hday
  exact absurd hday (by simp)

/-- The cap leaves more than `exit_by_dte` days, unless it is day 0. -/
theorem cap_lt {nearExpiry : Date} {exitByDte : ℕ}
    (h : 0 < backToTradingDay c.isTradingDay (nearExpiry - (exitByDte + 1))) :
    backToTradingDay c.isTradingDay (nearExpiry - (exitByDte + 1)) + exitByDte < nearExpiry := by
  have hle := (backToTradingDay_spec c.isTradingDay (nearExpiry - (exitByDte + 1))).1
  have hpos : (0 : ℕ) < nearExpiry - (exitByDte + 1) := lt_of_lt_of_le h hle
  exact Nat.add_le_of_le_sub (Nat.le_of_lt (Nat.lt_of_sub_pos hpos)) hle

/-! ### Plans of an entry window -/

variable {config monthlyConfig : VariantConfig} {expiries monthly : List Date} {entryDates : Option (List Date)}
  {today near far : Date} {plan plan' : EntryPlan}

/-- The hard exit is a trading day, if the maximum hold ends on one and there is a cap. -/
theorem isTradingDay_hardExit (h : c.isTradingDay today = true ∨ 0 < config.hardHoldDays)
    (hcap : c.isTradingDay (backToTradingDay c.isTradingDay (near - (config.exitByDte + 1))) = true) :
    c.isTradingDay (hardExit c config today near) = true := by
  unfold hardExit
  rcases min_choice (c.addTradingDays today config.hardHoldDays)
    (backToTradingDay c.isTradingDay (near - (config.exitByDte + 1))) with heq | heq
  · rw [heq]
    exact isTradingDay_hold h
  · rw [heq]
    exact hcap

/-- A hard exit not before the entry is a trading day only if the maximum hold ends on one. -/
theorem session_of_hardExit (hle : today ≤ hardExit c config today near)
    (hday : c.isTradingDay (hardExit c config today near) = true) :
    c.isTradingDay today = true ∨ 0 < config.hardHoldDays := by
  rcases Nat.eq_zero_or_pos config.hardHoldDays with hzero | hpos
  · have hend : hardExit c config today near ≤ today := by
      refine (min_le_left _ _).trans ?_
      rw [hzero]
      exact le_rfl
    exact Or.inl (le_antisymm hend hle ▸ hday)
  · exact Or.inr hpos

/-- **A window's plan** is well formed exactly when the planned hold fits. -/
theorem planFor_wellFormed_iff (hnear : today < near) (hfar : near < far) :
    (planFor c config today near far).WellFormed c config.exitByDte ↔ HoldFits c config today near := by
  constructor
  · intro h
    have hentry : today ≤ hardExit c config today near := h.planned.trans h.hard
    exact ⟨addTradingDays_le_iff.mp (h.hard.trans (min_le_left _ _)), session_of_hardExit hentry h.session,
      hardExit c config today near, h.session, h.hard, h.dte⟩
  · rintro ⟨hhold, hsession, d, hday, hplanned, hdte⟩
    have hdcap := le_cap hday hdte
    have hcap : c.isTradingDay (backToTradingDay c.isTradingDay (near - (config.exitByDte + 1))) = true := by
      -- at day 0 the cap is that trading day itself
      by_cases hzero : backToTradingDay c.isTradingDay (near - (config.exitByDte + 1)) = 0
      · rw [hzero] at hdcap ⊢
        rwa [Nat.le_zero.mp hdcap] at hday
      · exact (backToTradingDay_spec c.isTradingDay _).2.1 hzero
    refine ⟨c.le_addTradingDays today _, le_min (addTradingDays_le_iff.mpr hhold) (hplanned.trans hdcap),
      isTradingDay_hardExit hsession hcap, hfar, hnear, ?_⟩
    have hroom : config.exitByDte + 1 ≤ near := Nat.succ_le_of_lt (lt_of_le_of_lt (Nat.le_add_left _ _) hdte)
    have hle : hardExit c config today near ≤ near - (config.exitByDte + 1) :=
      (min_le_right _ _).trans (backToTradingDay_spec c.isTradingDay _).1
    exact Nat.add_le_of_le_sub hroom hle

/-- What an open bi-weekly window says: a pair after the day, and a hard exit from it on. -/
theorem entryWindowOn_spec
    (h : BiweeklyCyclePolicy.entryWindowOn c config monthlyConfig expiries monthly entryDates today = some plan) :
    0 < today ∧ ∃ first near far rest, expiries.filter (today < ·) = first :: near :: far :: rest ∧
      plan = planFor c config today near far ∧ today ≤ hardExit c config today near := by
  unfold BiweeklyCyclePolicy.entryWindowOn at h
  split at h
  next => exact absurd h (by simp)
  next prev hprev =>
    have hlt : prev < today := of_decide_eq_true (List.mem_filter.mp (List.mem_of_getLast? hprev)).2
    split at h
    next => exact absurd h (by simp)
    next =>
      split at h
      next => exact absurd h (by simp)
      next =>
        split at h
        next => exact absurd h (by simp)
        next =>
          split at h
          next first near far rest hexp =>
            simp only at h
            split at h
            next => exact absurd h (by simp)
            next hroom =>
              obtain ⟨hlow, -⟩ := not_or.mp hroom
              exact ⟨Nat.zero_lt_of_lt hlt, first, near, far, rest, hexp, (Option.some.inj h).symm, not_lt.mp hlow⟩
          next => exact absurd h (by simp)

/-! ### Redeployments -/

/-- A redeployment keeps the pair and the hard exit, and its days are in order up to it. -/
theorem Redeployed.spec (h : Redeployed c config plan plan') :
    SamePlan plan plan' ∧ plan'.entryDate ≤ plan'.plannedExitDate ∧ plan'.plannedExitDate ≤ plan'.hardExitDate := by
  induction h with
  | first hday hle => exact ⟨⟨rfl, rfl, rfl⟩, le_min (c.le_addTradingDays _ _) hle, min_le_right _ _⟩
  | again hcurrent hday hle ih =>
    obtain ⟨⟨hnear, hfar, hhard⟩, -, -⟩ := ih
    exact ⟨⟨hnear, hfar, hhard⟩, le_min (c.le_addTradingDays _ _) hle, min_le_right _ _⟩

/-- **A redeployed plan** is well formed when the hard exit it keeps is a trading day. -/
theorem Redeployed.wellFormed_iff (hpos : 0 < today) (hfar : near < far) (hentry : today ≤ hardExit c config today near)
    (h : Redeployed c config (planFor c config today near far) plan') :
    plan'.WellFormed c config.exitByDte ↔ c.isTradingDay today = true ∨ 0 < config.hardHoldDays := by
  obtain ⟨⟨hnear', hfar', hhard'⟩, hplanned, hexit⟩ := h.spec
  have hcap : 0 < backToTradingDay c.isTradingDay (near - (config.exitByDte + 1)) :=
    lt_of_lt_of_le (lt_of_lt_of_le hpos hentry) (min_le_right _ _)
  have hdte : hardExit c config today near + config.exitByDte < near :=
    lt_of_le_of_lt (Nat.add_le_add_right (min_le_right _ _) _) (cap_lt hcap)
  constructor
  · intro hwf
    have hday := hwf.session
    rw [hhard'] at hday
    exact session_of_hardExit hentry hday
  · intro hsession
    have hday : c.isTradingDay (hardExit c config today near) = true :=
      isTradingDay_hardExit hsession ((backToTradingDay_spec c.isTradingDay _).2.1 hcap.ne')
    have hlate : plan'.entryDate < plan'.nearExpiry := by
      rw [hnear']
      refine lt_of_le_of_lt ((hplanned.trans hexit).trans hhard'.le) ?_
      exact lt_of_le_of_lt (Nat.le_add_right _ _) hdte
    refine ⟨hplanned, hexit, ?_, ?_, hlate, ?_⟩
    · rw [hhard']
      exact hday
    · rw [hnear', hfar']
      exact hfar
    · rw [hhard', hnear']
      exact hdte

/-! ### Every plan of the policies -/

/-- The first two days of an increasing list after a day. -/
theorem pair_after {l rest : List Date} (hl : l.Pairwise (· < ·)) (h : l.filter (today < ·) = near :: far :: rest) :
    today < near ∧ near < far := by
  obtain ⟨⟨-, hnear⟩, -⟩ := first_after hl h
  have hsorted := hl.filter (today < ·)
  rw [h] at hsorted
  exact ⟨hnear, List.rel_of_pairwise_cons hsorted List.mem_cons_self⟩

/-- The second and third days of an increasing list after a day. -/
theorem second_pair_after {l rest : List Date} {first : Date} (hl : l.Pairwise (· < ·))
    (h : l.filter (today < ·) = first :: near :: far :: rest) : today < near ∧ near < far := by
  obtain ⟨hfirst, hnear⟩ := pair_after hl h
  have hsorted := hl.filter (today < ·)
  rw [h] at hsorted
  exact ⟨hfirst.trans hnear, List.rel_of_pairwise_cons (List.pairwise_cons.mp hsorted).2 List.mem_cons_self⟩

variable (c)

/-- **The plans of the policies**: a window's plan is well formed exactly when the planned hold
fits before the near expiry (the first listed one for the monthly policy, the second for the
bi-weekly one), a redeployed plan when its hard exit is a trading day. -/
theorem entry_plans_wellFormed_iff (config monthlyConfig : VariantConfig) {monthly expiries : List Date}
    (hmonthly : monthly.Pairwise (· < ·)) (hexpiries : expiries.Pairwise (· < ·)) :
    (∀ today near plan, (monthly.filter (today < ·))[0]? = some near →
        MonthlyCyclePolicy.entryWindow c config monthly today = some plan →
        (plan.WellFormed c config.exitByDte ↔ HoldFits c config today near)) ∧
      ∀ entryDates today near plan, (expiries.filter (today < ·))[1]? = some near →
        BiweeklyCyclePolicy.entryWindowOn c config monthlyConfig expiries monthly entryDates today = some plan →
        (plan.WellFormed c config.exitByDte ↔ HoldFits c config today near) ∧
          ∀ plan', Redeployed c config plan plan' →
            (plan'.WellFormed c config.exitByDte ↔ c.isTradingDay today = true ∨ 0 < config.hardHoldDays) := by
  constructor
  · intro today near plan hfirst hwindow
    obtain ⟨-, near', far, rest, hfilter, rfl⟩ := monthlyWindow_eq_some_iff.mp hwindow
    rw [hfilter] at hfirst
    obtain rfl := Option.some.inj hfirst
    obtain ⟨hnear, hfar⟩ := pair_after hmonthly hfilter
    exact planFor_wellFormed_iff hnear hfar
  · intro entryDates today near plan hsecond hwindow
    obtain ⟨hpos, first, near', far, rest, hfilter, rfl, hentry⟩ := entryWindowOn_spec hwindow
    rw [hfilter] at hsecond
    obtain rfl := Option.some.inj hsecond
    obtain ⟨hnear, hfar⟩ := second_pair_after hexpiries hfilter
    exact ⟨planFor_wellFormed_iff hnear hfar, fun plan' h => h.wellFormed_iff hpos hfar hentry⟩

/-- Monthly and weekly expiries of summer 2026, from the expiry of 30 June on. -/
private def summerMonthly : List Date := [739797, 739825, 739853]

private def summerWeekly : List Date := [739797, 739804, 739811, 739818, 739825, 739832]

/-- The plans of 1 July, monthly, and of 14 July, bi-weekly. -/
private def julyMonthly : EntryPlan := planFor TradingCalendar.weekdays monthlyVariant 739798 739825 739853

private def julyBiweekly : EntryPlan := planFor TradingCalendar.weekdays biweeklyVariant 739811 739825 739832

/-- The monthly plan fits, the bi-weekly one does not; redeployed on 17 July it does. -/
theorem entry_plans_wellFormed_iff_july :
    julyMonthly.WellFormed TradingCalendar.weekdays 7 ∧
      (julyBiweekly.WellFormed TradingCalendar.weekdays 7 ↔
        HoldFits TradingCalendar.weekdays biweeklyVariant 739811 739825) ∧
      (BiweeklyCyclePolicy.redeployPlan TradingCalendar.weekdays biweeklyVariant julyBiweekly 739814).WellFormed
        TradingCalendar.weekdays 7 := by
  obtain ⟨hmonthly, -⟩ := @entry_plans_wellFormed_iff TradingCalendar.weekdays monthlyVariant monthlyVariant
    summerMonthly summerWeekly (by decide) (by decide)
  obtain ⟨-, hbiweekly⟩ := @entry_plans_wellFormed_iff TradingCalendar.weekdays biweeklyVariant monthlyVariant
    summerMonthly summerWeekly (by decide) (by decide)
  obtain ⟨hwindow, hredeployed⟩ := hbiweekly none 739811 739825 julyBiweekly (by decide) (by decide +kernel)
  refine ⟨(hmonthly 739798 739825 julyMonthly (by decide) (by decide +kernel)).mpr ?_, hwindow,
    (hredeployed _ (Redeployed.first (by decide +kernel) (by decide +kernel))).mpr (Or.inr (by decide))⟩
  exact ⟨by decide, Or.inl (by decide +kernel), 739807, by decide +kernel, by decide +kernel, by decide⟩

/-- The bi-weekly plan of 14 July, for the pair of 28 July and 4 August: a hard exit on 20
July and a planned one on 21 July. -/
theorem planned_exit_after_hard :
    ∃ plan, BiweeklyCyclePolicy.entryWindowOn TradingCalendar.weekdays biweeklyVariant monthlyVariant summerWeekly
        summerMonthly none 739811 = some plan ∧ plan.hardExitDate = 739817 ∧ plan.plannedExitDate = 739818 ∧
      ¬plan.WellFormed TradingCalendar.weekdays biweeklyVariant.exitByDte := by
  refine ⟨planFor TradingCalendar.weekdays biweeklyVariant 739811 739825 739832, by decide +kernel, by decide +kernel,
    by decide +kernel, fun h => ?_⟩
  have hle := h.hard
  revert hle
  decide +kernel

end Shape

end NiftyShield.NiftyCalendar
