import NiftyShield.NiftyCalendar.Cycle

/-!
# Entry windows, characterised

When the policies of `NiftyShield.NiftyCalendar.Cycle` open an entry window
(`monthlyWindow_eq_some_iff`, `biweeklyWindow_eq_some_iff`), and what of a window is left when
a policy is rebuilt on a later day, from a listing that has lost the contracts settled by the
session before (`monthly_survives_iff`, `biweekly_survives_iff`).
-/

namespace NiftyShield.NiftyCalendar

open NiftyShield.MarketCalendar

/-! ### Sorted lists of days -/

theorem mem_sortedSet {ds : List Date} {d : Date} : d ∈ sortedSet ds ↔ d ∈ ds := by
  rw [sortedSet, List.mem_insertionSort, List.mem_dedup]

theorem sortedSet_increasing (ds : List Date) : (sortedSet ds).Pairwise (· < ·) := by
  have hle : (sortedSet ds).Pairwise (· ≤ ·) := List.pairwise_insertionSort _ _
  have hne : (sortedSet ds).Pairwise (· ≠ ·) :=
    (List.perm_insertionSort _ _).nodup_iff.mpr (List.nodup_dedup ds)
  exact (hle.and hne).imp fun h => lt_of_le_of_ne h.1 h.2

/-- Two sorted sets that agree on the days of a filter are equal there. -/
theorem filter_sortedSet_congr {p : Date → Bool} {ds es : List Date}
    (h : ∀ d, p d = true → (d ∈ ds ↔ d ∈ es)) : (sortedSet ds).filter p = (sortedSet es).filter p := by
  have hds := (sortedSet_increasing ds).filter p
  have hes := (sortedSet_increasing es).filter p
  have hperm : ((sortedSet ds).filter p).Perm ((sortedSet es).filter p) := by
    refine (List.perm_ext_iff_of_nodup (hds.imp ne_of_lt) (hes.imp ne_of_lt)).mpr fun d => ?_
    rw [List.mem_filter, List.mem_filter, mem_sortedSet, mem_sortedSet]
    exact and_congr_left fun hp => h d hp
  exact hperm.eq_of_pairwise' (hds.imp le_of_lt) (hes.imp le_of_lt)

/-- The first day of an increasing list after a day. -/
theorem first_after {l : List Date} (hl : l.Pairwise (· < ·)) {today d : Date} {rest : List Date}
    (h : l.filter (today < ·) = d :: rest) :
    (d ∈ l ∧ today < d) ∧ (∀ e ∈ l, today < e → d ≤ e) ∧ ∀ e ∈ l, d < e → e ∈ rest := by
  have hmem : d ∈ l.filter (today < ·) := h ▸ List.mem_cons_self
  obtain ⟨hd, hlt⟩ := List.mem_filter.mp hmem
  have hsorted := hl.filter (today < ·)
  rw [h] at hsorted
  have hfirst : ∀ e ∈ l, today < e → d = e ∨ e ∈ rest := by
    intro e he hte
    have hin : e ∈ l.filter (today < ·) := List.mem_filter.mpr ⟨he, decide_eq_true hte⟩
    rw [h] at hin
    exact (List.mem_cons.mp hin).imp Eq.symm id
  have hday := of_decide_eq_true hlt
  refine ⟨⟨hd, hday⟩, fun e he hte => ?_, fun e he hde => ?_⟩
  · rcases hfirst e he hte with rfl | hrest
    · exact le_rfl
    · exact (List.rel_of_pairwise_cons hsorted hrest).le
  · rcases hfirst e he (hday.trans hde) with rfl | hrest
    · exact absurd hde (lt_irrefl _)
    · exact hrest

/-- The last day of an increasing list before a day. -/
theorem last_before_iff {l : List Date} (hl : l.Pairwise (· < ·)) {today d : Date} :
    (l.filter (· < today)).getLast? = some d ↔ (d ∈ l ∧ d < today) ∧ ∀ e ∈ l, e < today → e ≤ d := by
  have hsorted := hl.filter (· < today)
  have hlast : ∀ x, (l.filter (· < today)).getLast? = some x → (x ∈ l ∧ x < today) ∧ ∀ e ∈ l, e < today → e ≤ x := by
    intro x hx
    obtain ⟨init, hinit⟩ := List.getLast?_eq_some_iff.mp hx
    have hmem : x ∈ l.filter (· < today) := by simp [hinit]
    obtain ⟨hxl, hxt⟩ := List.mem_filter.mp hmem
    refine ⟨⟨hxl, of_decide_eq_true hxt⟩, fun e he hte => ?_⟩
    have hin : e ∈ l.filter (· < today) := List.mem_filter.mpr ⟨he, decide_eq_true hte⟩
    rw [hinit] at hin hsorted
    rcases List.mem_append.mp hin with hin | hin
    · exact ((List.pairwise_append.mp hsorted).2.2 e hin x (List.mem_singleton_self x)).le
    · exact (List.mem_singleton.mp hin).le
  refine ⟨hlast d, ?_⟩
  rintro ⟨⟨hd, hdt⟩, hmax⟩
  have hne : l.filter (· < today) ≠ [] := List.ne_nil_of_mem (List.mem_filter.mpr ⟨hd, decide_eq_true hdt⟩)
  have hsome := List.getLast?_eq_some_getLast hne
  obtain ⟨⟨hx, hxt⟩, hxmax⟩ := hlast _ hsome
  rw [hsome, le_antisymm (hmax _ hx hxt) (hxmax d hd hdt)]

/-! ### Monthly expiries -/

theorem mem_monthlyExpiries {tradingDay : Date → Bool} {listed : List Date} {today d : Date} :
    d ∈ monthlyExpiries tradingDay listed today ↔
      d ∈ settledExpiries tradingDay today ∨ d ∈ lastListed listed today := by
  rw [monthlyExpiries, mem_sortedSet, List.mem_append]

theorem settled_lt {tradingDay : Date → Bool} {today d : Date} (h : d ∈ settledExpiries tradingDay today) :
    d < today := of_decide_eq_true (List.mem_filter.mp h).2

theorem mem_lastListed {listed : List Date} {today d : Date} :
    d ∈ lastListed listed today ↔
      d ∈ listed ∧ today ≤ d ∧ ∀ e ∈ listed, e.year = d.year → e.month = d.month → e ≤ d := by
  rw [lastListed, List.mem_filter, decide_eq_true_iff]

/-- Before the day itself a monthly expiry is a settled one. -/
theorem settled_of_lt {tradingDay : Date → Bool} {listed : List Date} {today d : Date} (hlt : d < today) :
    d ∈ monthlyExpiries tradingDay listed today ↔ d ∈ settledExpiries tradingDay today := by
  rw [mem_monthlyExpiries]
  exact or_iff_left fun h => absurd (mem_lastListed.mp h).2.1 (not_le.mpr hlt)

section Policies

variable {c : TradingCalendar}

/-! ### The monthly window -/

/-- **The monthly window**: the day follows a monthly expiry and two later ones are known. -/
theorem monthlyWindow_eq_some_iff {config : VariantConfig} {monthly : List Date} {today : Date}
    {plan : EntryPlan} :
    MonthlyCyclePolicy.entryWindow c config monthly today = some plan ↔
      (∃ prev ∈ monthly, c.nextTradingDay prev = today) ∧
        ∃ near far rest, monthly.filter (today < ·) = near :: far :: rest ∧ plan = planFor c config today near far := by
  unfold MonthlyCyclePolicy.entryWindow
  have hany : (monthly.any fun prev => c.nextTradingDay prev = today) = true ↔
      ∃ prev ∈ monthly, c.nextTradingDay prev = today := by
    simp [List.any_eq_true]
  by_cases hprev : ∃ prev ∈ monthly, c.nextTradingDay prev = today
  · rw [if_pos (hany.mpr hprev), and_iff_right hprev]
    split
    next near far rest hfilter =>
      constructor
      · intro h
        exact ⟨near, far, rest, hfilter, (Option.some.inj h).symm⟩
      · rintro ⟨near', far', rest', hfilter', rfl⟩
        obtain ⟨rfl, h⟩ := List.cons.inj (hfilter.symm.trans hfilter')
        obtain ⟨rfl, -⟩ := List.cons.inj h
        rfl
    next hnone =>
      refine ⟨fun h => absurd h (by simp), ?_⟩
      rintro ⟨near, far, rest, hfilter, -⟩
      exact absurd hfilter (hnone near far rest)
  · rw [if_neg (mt hany.mp hprev)]
    exact ⟨fun h => absurd h (by simp), fun h => absurd h.1 hprev⟩

/-! ### The bi-weekly window -/

theorem nextTradingDay_mono {d e : Date} (h : d ≤ e) : c.nextTradingDay d ≤ c.nextTradingDay e := by
  obtain ⟨hlt, hday, -⟩ := c.nextTradingDay_spec e
  exact (c.nextTradingDay_spec d).2.2 _ (lt_of_le_of_lt h hlt) hday

theorem isTradingDay_addTradingDays : ∀ (n : ℕ) {start : Date}, c.isTradingDay start = true →
    c.isTradingDay (c.addTradingDays start n) = true := by
  intro n
  induction n with
  | zero => exact fun h => h
  | succ n ih => exact fun _ => ih (c.nextTradingDay_spec _).2.1

theorem isTradingDay_earliestBiweekly (config : VariantConfig) (prev : Date) :
    c.isTradingDay (earliestBiweekly c config prev) = true :=
  isTradingDay_addTradingDays _ (c.nextTradingDay_spec prev).2.1

theorem lt_earliestBiweekly (config : VariantConfig) (prev : Date) : prev < earliestBiweekly c config prev :=
  lt_of_lt_of_le (c.lt_nextTradingDay prev) (c.le_addTradingDays _ _)

/-- With enough steps the loop finds the trading days from its start up to the stop. -/
theorem mem_candidatesBefore {stop d : Date} : ∀ {n : ℕ} {curr : Date}, c.isTradingDay curr = true →
    stop - curr ≤ n →
      (d ∈ candidatesBefore c stop n curr ↔ curr ≤ d ∧ d < stop ∧ c.isTradingDay d = true) := by
  intro n
  induction n with
  | zero =>
    intro curr _ hn
    have hstop : stop ≤ curr := Nat.le_of_sub_eq_zero (Nat.le_zero.mp hn)
    rw [candidatesBefore]
    refine iff_of_false (by simp) ?_
    rintro ⟨hle, hlt, -⟩
    exact absurd (hle.trans_lt hlt) (not_lt.mpr hstop)
  | succ n ih =>
    intro curr hcurr hn
    rw [candidatesBefore]
    by_cases hstop : curr < stop
    · have hfuel : stop - c.nextTradingDay curr ≤ n := by
        have hnext : Nat.succ curr ≤ c.nextTradingDay curr := c.lt_nextTradingDay curr
        refine Nat.sub_le_iff_le_add.mpr ?_
        calc (stop : ℕ) ≤ n + 1 + curr := Nat.sub_le_iff_le_add.mp hn
          _ = n + Nat.succ curr := by rw [Nat.succ_eq_add_one, Nat.add_assoc, Nat.add_comm 1]
          _ ≤ n + c.nextTradingDay curr := Nat.add_le_add_left hnext n
      rw [if_pos hstop, List.mem_cons, ih (c.nextTradingDay_spec curr).2.1 hfuel]
      constructor
      · rintro (rfl | ⟨hle, hlt, hday⟩)
        · exact ⟨le_rfl, hstop, hcurr⟩
        · exact ⟨(c.lt_nextTradingDay curr).le.trans hle, hlt, hday⟩
      · rintro ⟨hle, hlt, hday⟩
        rcases hle.eq_or_lt with rfl | hgt
        · exact Or.inl rfl
        · exact Or.inr ⟨(c.nextTradingDay_spec curr).2.2 d hgt hday, hlt, hday⟩
    · rw [if_neg hstop]
      refine iff_of_false (by simp) ?_
      rintro ⟨hle, hlt, -⟩
      exact hstop (hle.trans_lt hlt)

/-- **The candidates**: the trading days of a cycle from its first bi-weekly entry day on,
between two neighbouring monthly expiries. -/
theorem mem_candidateEntryDates {config : VariantConfig} {d : Date} : ∀ {monthly : List Date},
    monthly.Pairwise (· < ·) →
      (d ∈ candidateEntryDates c config monthly ↔ c.isTradingDay d = true ∧
        ∃ a ∈ monthly, ∃ b ∈ monthly, a < b ∧ (∀ x ∈ monthly, x ≤ a ∨ b ≤ x) ∧
          earliestBiweekly c config a ≤ d ∧ d < b) := by
  intro monthly
  induction monthly with
  | nil => exact fun _ => iff_of_false (by simp [candidateEntryDates]) (by simp)
  | cons prev monthly ih =>
    cases monthly with
    | nil =>
      intro _
      refine iff_of_false (by simp [candidateEntryDates]) ?_
      rintro ⟨-, a, ha, b, hb, hab, -⟩
      rw [List.mem_singleton.mp ha, List.mem_singleton.mp hb] at hab
      exact absurd hab (lt_irrefl _)
    | cons next rest =>
      intro hinc
      obtain ⟨hhead, htail⟩ := List.pairwise_cons.mp hinc
      have hnext := (List.pairwise_cons.mp htail).1
      have hprev : prev < next := hhead next List.mem_cons_self
      rw [candidateEntryDates, List.mem_append, ih htail,
        mem_candidatesBefore (isTradingDay_earliestBiweekly config prev) le_rfl]
      constructor
      · rintro (⟨hle, hlt, hday⟩ | ⟨hday, a, ha, b, hb, hab, hnone, hle, hlt⟩)
        · refine ⟨hday, prev, List.mem_cons_self, next, List.mem_cons_of_mem _ List.mem_cons_self, hprev,
            fun x hx => ?_, hle, hlt⟩
          rcases List.mem_cons.mp hx with rfl | hx
          · exact Or.inl le_rfl
          · rcases List.mem_cons.mp hx with rfl | hx
            · exact Or.inr le_rfl
            · exact Or.inr (hnext x hx).le
        · refine ⟨hday, a, List.mem_cons_of_mem _ ha, b, List.mem_cons_of_mem _ hb, hab, fun x hx => ?_, hle, hlt⟩
          rcases List.mem_cons.mp hx with rfl | hx
          · exact Or.inl (hhead a ha).le
          · exact hnone x hx
      · rintro ⟨hday, a, ha, b, hb, hab, hnone, hle, hlt⟩
        rcases List.mem_cons.mp ha with rfl | ha
        · have hb' : b ∈ next :: rest := (List.mem_cons.mp hb).resolve_left (ne_of_gt hab)
          have hbnext : b = next := by
            rcases hnone next (List.mem_cons_of_mem _ List.mem_cons_self) with hle | hle
            · exact absurd hprev (not_lt.mpr hle)
            · rcases List.mem_cons.mp hb' with rfl | hb'
              · rfl
              · exact absurd (hnext b hb') (not_lt.mpr hle)
          exact Or.inl ⟨hle, hbnext ▸ hlt, hday⟩
        · have hb' : b ∈ next :: rest := (List.mem_cons.mp hb).resolve_left (ne_of_gt ((hhead a ha).trans hab))
          exact Or.inr ⟨hday, a, ha, b, hb', hab, fun x hx => hnone x (List.mem_cons_of_mem _ hx), hle, hlt⟩

/-- The day is a trading day of the bi-weekly part of a cycle: the last monthly expiry up to
it is before it, and late enough after that one. -/
def InBiweeklyPart (c : TradingCalendar) (monthlyConfig : VariantConfig) (monthly : List Date) (today : Date) : Prop :=
  ∃ a ∈ monthly, earliestBiweekly c monthlyConfig a ≤ today ∧ ∀ x ∈ monthly, x ≤ a ∨ today < x

/-- **The bi-weekly window**: a trading day of the bi-weekly part of a cycle with a next
monthly expiry, three later expiries and room for the hard exit before the next monthly
entry. -/
theorem biweeklyWindow_eq_some_iff {config monthlyConfig : VariantConfig} {expiries monthly : List Date}
    (hinc : monthly.Pairwise (· < ·)) {today : Date} {plan : EntryPlan} :
    BiweeklyCyclePolicy.entryWindow c config monthlyConfig expiries monthly today = some plan ↔
      c.isTradingDay today = true ∧ InBiweeklyPart c monthlyConfig monthly today ∧
        ∃ next rest, monthly.filter (today < ·) = next :: rest ∧
          ∃ first near far rest', expiries.filter (today < ·) = first :: near :: far :: rest' ∧
            plan = planFor c config today near far ∧ today ≤ plan.hardExitDate ∧
            plan.hardExitDate < c.nextTradingDay next := by
  constructor
  · intro h
    unfold BiweeklyCyclePolicy.entryWindow at h
    split at h
    next => exact absurd h (by simp)
    next prev hprev =>
      split at h
      next => exact absurd h (by simp)
      next hearliest =>
        split at h
        next => exact absurd h (by simp)
        next hcand =>
          split at h
          next => exact absurd h (by simp)
          next next rest hnext =>
            split at h
            next first near far rest' hexp =>
              simp only at h
              split at h
              next => exact absurd h (by simp)
              next hroom =>
                obtain rfl := Option.some.inj h
                obtain ⟨hday, a, ha, b, -, -, hnone, hle, hlt⟩ :=
                  (mem_candidateEntryDates hinc).mp (not_not.mp hcand)
                obtain ⟨hlow, hhigh⟩ := not_or.mp hroom
                exact ⟨hday, ⟨a, ha, hle, fun x hx => (hnone x hx).imp id hlt.trans_le⟩, next, rest, hnext, first,
                  near, far, rest', hexp, rfl, not_lt.mp hlow, not_le.mp hhigh⟩
            next => exact absurd h (by simp)
  · rintro ⟨hday, ⟨a, ha, hle, hnone⟩, next, rest, hnext, first, near, far, rest', hexp, rfl, hlow, hhigh⟩
    obtain ⟨⟨hb, htb⟩, hfirst, -⟩ := first_after hinc hnext
    have hat : a < today := lt_of_lt_of_le (lt_earliestBiweekly monthlyConfig a) hle
    have hprev : (monthly.filter (· < today)).getLast? = some a :=
      (last_before_iff hinc).mpr ⟨⟨ha, hat⟩, fun e he hte => (hnone e he).resolve_right (not_lt.mpr hte.le)⟩
    have hcand : today ∈ candidateEntryDates c monthlyConfig monthly :=
      (mem_candidateEntryDates hinc).mpr ⟨hday, a, ha, next, hb, hat.trans htb,
        fun x hx => (hnone x hx).imp id (hfirst x hx), hle, htb⟩
    unfold BiweeklyCyclePolicy.entryWindow
    simp only [hprev, if_neg (not_lt.mpr hle), not_not.mpr hcand, if_false, hnext, hexp]
    rw [if_neg (not_or.mpr ⟨not_lt.mpr hlow, not_le.mpr hhigh⟩)]

/-- On the monthly entry day of a cycle its bi-weekly part has not begun. -/
theorem biweeklyWindow_of_monthly {config monthlyConfig biweeklyConfig : VariantConfig} {expiries monthly : List Date}
    (hinc : monthly.Pairwise (· < ·)) (hhold : 0 < monthlyConfig.plannedHoldDays) {today : Date} {plan : EntryPlan}
    (h : MonthlyCyclePolicy.entryWindow c config monthly today = some plan) :
    BiweeklyCyclePolicy.entryWindow c biweeklyConfig monthlyConfig expiries monthly today = none := by
  obtain ⟨⟨prev, hprev, hnext⟩, -⟩ := monthlyWindow_eq_some_iff.mp h
  by_contra hsome
  obtain ⟨plan', hplan'⟩ := Option.ne_none_iff_exists'.mp hsome
  obtain ⟨-, ⟨a, -, hle, hnone⟩, -⟩ := (biweeklyWindow_eq_some_iff hinc).mp hplan'
  have hpt : prev < today := hnext ▸ c.lt_nextTradingDay prev
  have hpa : prev ≤ a := (hnone prev hprev).resolve_right (not_lt.mpr hpt.le)
  have hta : today ≤ c.nextTradingDay a := hnext ▸ nextTradingDay_mono hpa
  have hlate : c.nextTradingDay a < earliestBiweekly c monthlyConfig a := by
    obtain ⟨n, hn⟩ := Nat.exists_eq_succ_of_ne_zero hhold.ne'
    rw [earliestBiweekly, hn]
    exact lt_of_lt_of_le (c.lt_nextTradingDay _) (c.le_addTradingDays _ n)
  exact absurd (hta.trans_lt hlate) (not_lt.mpr hle)

/-- The policy of a variant plans for an expiry that is listed. -/
theorem nearExpiry_listed {v : Variant} {listed : List Date} {today : Date} {plan : EntryPlan}
    (h : (v.policy c listed today).entryWindow today = some plan) : plan.nearExpiry ∈ listed := by
  cases v with
  | monthly =>
    obtain ⟨-, near, far, rest, hfilter, rfl⟩ := monthlyWindow_eq_some_iff.mp h
    obtain ⟨⟨hmem, hlt⟩, -⟩ := first_after (sortedSet_increasing _) hfilter
    rcases mem_monthlyExpiries.mp hmem with hset | hlast
    · exact absurd (settled_lt hset) (not_lt.mpr hlt.le)
    · exact (mem_lastListed.mp hlast).1
  | biweekly =>
    obtain ⟨-, -, next, -, -, first, near, far, rest, hexp, rfl, -⟩ :=
      (biweeklyWindow_eq_some_iff (sortedSet_increasing _)).mp h
    have hmem : near ∈ (sortedSet listed).filter (today < ·) := by
      rw [hexp]
      exact List.mem_cons_of_mem _ List.mem_cons_self
    exact mem_sortedSet.mp (List.mem_filter.mp hmem).1

theorem variantName_of_window {v : Variant} {listed : List Date} {today : Date} {plan : EntryPlan}
    (h : (v.policy c listed today).entryWindow today = some plan) : plan.variantName = v.config.name := by
  cases v with
  | monthly =>
    obtain ⟨-, near, far, rest, -, rfl⟩ := monthlyWindow_eq_some_iff.mp h
    rfl
  | biweekly =>
    obtain ⟨-, -, next, -, -, first, near, far, rest, -, rfl, -⟩ :=
      (biweeklyWindow_eq_some_iff (sortedSet_increasing _)).mp h
    rfl

/-- **The active variant** is the one whose window is open: at most one is. -/
theorem activeVariant_eq_iff {v : Variant} {listed : List Date} {today : Date} :
    activeVariant c listed today = some v.config.name ↔
      ((v.policy c listed today).entryWindow today).isSome = true := by
  have hname : (Variant.config .monthly).name ≠ (Variant.config .biweekly).name := by decide
  rw [activeVariant]
  cases hm : (Variant.policy c .monthly listed today).entryWindow today with
  | some plan =>
    have hb : (Variant.policy c .biweekly listed today).entryWindow today = none :=
      biweeklyWindow_of_monthly (sortedSet_increasing _) (by decide) hm
    have hplan := variantName_of_window hm
    cases v with
    | monthly => simp [hm, hplan]
    | biweekly => simp [hm, hb, hplan, hname]
  | none =>
    cases hb : (Variant.policy c .biweekly listed today).entryWindow today with
    | some plan =>
      have hplan := variantName_of_window hb
      cases v with
      | monthly => simp [hm, hb, hplan, hname.symm]
      | biweekly => simp [hm, hb, hplan]
    | none =>
      cases v with
      | monthly => simp [hm, hb]
      | biweekly => simp [hm, hb]

/-! ### Rebuilt on a later day -/

/-- The expiries still listed on a day: those after the session before. -/
def listingOn (c : TradingCalendar) (listed : List Date) (today : Date) : List Date :=
  listed.filter (c.prevTradingDay today < ·)

/-- The same pair and the same hard exit. -/
structure SamePlan (plan plan' : EntryPlan) : Prop where
  /-- Same near expiry. -/
  near : plan'.nearExpiry = plan.nearExpiry
  /-- Same far expiry. -/
  far : plan'.farExpiry = plan.farExpiry
  /-- Same hard exit. -/
  hardExit : plan'.hardExitDate = plan.hardExitDate

variable {listed : List Date} {entryDay today : Date}

theorem mem_listingOn {d : Date} : d ∈ listingOn c listed today ↔ d ∈ listed ∧ c.prevTradingDay today < d := by
  rw [listingOn, List.mem_filter, decide_eq_true_iff]

theorem prevTradingDay_le (d : Date) : c.prevTradingDay d ≤ d :=
  (backToTradingDay_spec c.isTradingDay (d - 1)).1.trans (Nat.sub_le d 1)

theorem prevTradingDay_lt {d : Date} (h : entryDay < d) : c.prevTradingDay d < d :=
  lt_of_le_of_lt (backToTradingDay_spec c.isTradingDay (d - 1)).1 (Nat.sub_lt (Nat.zero_lt_of_lt h) Nat.one_pos)

/-- From the later day on, both days see the same last listed expiries. -/
theorem mem_lastListed_later (hlater : entryDay < today) {d : Date} (hd : today ≤ d) :
    d ∈ lastListed (listingOn c listed today) today ↔ d ∈ lastListed (listingOn c listed entryDay) entryDay := by
  have hboth : ∀ {e : Date}, today ≤ e → (e ∈ listingOn c listed today ↔ e ∈ listingOn c listed entryDay) := by
    intro e he
    rw [mem_listingOn, mem_listingOn, and_congr_right_iff]
    exact fun _ => iff_of_true ((prevTradingDay_lt hlater).trans_le he)
      (lt_of_le_of_lt (prevTradingDay_le entryDay) (hlater.trans_le he))
  rw [mem_lastListed, mem_lastListed, hboth hd]
  refine and_congr_right fun _ => and_congr (iff_of_true hd (hlater.le.trans hd)) ?_
  have hmax : ∀ {listing listing' : List Date}, (∀ e, today ≤ e → (e ∈ listing ↔ e ∈ listing')) →
      (∀ e ∈ listing, e.year = d.year → e.month = d.month → e ≤ d) →
      ∀ e ∈ listing', e.year = d.year → e.month = d.month → e ≤ d := by
    intro listing listing' hsame h e he hy hm
    by_contra hgt
    exact hgt (h e ((hsame e (hd.trans (not_le.mp hgt).le)).mpr he) hy hm)
  exact ⟨hmax fun e he => hboth he, hmax fun e he => (hboth he).symm⟩

/-- **A monthly plan survives** exactly when the expiry before its entry day is still derived
and no settled expiry is derived after it. -/
theorem monthly_survives_iff {plan : EntryPlan}
    (hplan : (monthlyPolicy c (listingOn c listed entryDay) entryDay).entryWindow entryDay = some plan)
    (hlater : entryDay < today) (hnear : today ≤ plan.nearExpiry) :
    (∃ plan', (monthlyPolicy c (listingOn c listed today) today).entryWindow entryDay = some plan' ∧
        SamePlan plan plan') ↔
      (∃ prev ∈ settledExpiries c.isTradingDay today, c.nextTradingDay prev = entryDay) ∧
        ∀ r ∈ settledExpiries c.isTradingDay today, r ≤ entryDay := by
  obtain ⟨-, near, far, rest, hfilter, rfl⟩ := monthlyWindow_eq_some_iff.mp hplan
  have hnear' : today ≤ near := hnear
  have hfirst := (first_after (sortedSet_increasing _) hfilter).2.1
  have hprev : (∃ prev ∈ monthlyExpiries c.isTradingDay (listingOn c listed today) today,
        c.nextTradingDay prev = entryDay) ↔
      ∃ prev ∈ settledExpiries c.isTradingDay today, c.nextTradingDay prev = entryDay := by
    have hlt : ∀ prev, c.nextTradingDay prev = entryDay → prev < today := fun prev h =>
      (h ▸ c.lt_nextTradingDay prev : prev < entryDay).trans hlater
    exact exists_congr fun prev => and_congr_left fun h => settled_of_lt (hlt prev h)
  constructor
  · rintro ⟨plan', hplan', hsame⟩
    obtain ⟨hopen, near', far', rest', hfilter', rfl⟩ := monthlyWindow_eq_some_iff.mp hplan'
    refine ⟨hprev.mp hopen, fun r hr => ?_⟩
    by_contra hgt
    have hle := (first_after (sortedSet_increasing _) hfilter').2.1 r
      (mem_monthlyExpiries.mpr (Or.inl hr)) (not_le.mp hgt)
    exact absurd (hnear'.trans (hsame.near.symm.le.trans hle)) (not_le.mpr (settled_lt hr))
  · rintro ⟨hopen, hnone⟩
    refine ⟨_, monthlyWindow_eq_some_iff.mpr ⟨hprev.mpr hopen, near, far, rest, ?_, rfl⟩, ⟨rfl, rfl, rfl⟩⟩
    rw [← hfilter]
    refine filter_sortedSet_congr fun d hd => ?_
    have hday : entryDay < d := of_decide_eq_true hd
    rw [List.mem_append, List.mem_append, or_iff_right fun h => absurd (hnone d h) (not_le.mpr hday),
      or_iff_right fun h => absurd (settled_lt h) (not_lt.mpr hday.le)]
    -- an expiry between the two days would be the near one
    constructor
    · exact fun h => (mem_lastListed_later hlater (mem_lastListed.mp h).2.1).mp h
    · intro h
      have hle := hfirst d (mem_monthlyExpiries.mpr (Or.inr h)) hday
      exact (mem_lastListed_later hlater (hnear'.trans hle)).mpr h

/-- The bi-weekly part of a cycle is that of the settled expiries alone. -/
theorem inBiweeklyPart_rebuilt (hlater : entryDay < today) :
    InBiweeklyPart c monthlyVariant (monthlyExpiries c.isTradingDay (listingOn c listed today) today) entryDay ↔
      InBiweeklyPart c monthlyVariant (settledExpiries c.isTradingDay today) entryDay := by
  have hnone : ∀ a, (∀ x ∈ monthlyExpiries c.isTradingDay (listingOn c listed today) today, x ≤ a ∨ entryDay < x) ↔
      ∀ x ∈ settledExpiries c.isTradingDay today, x ≤ a ∨ entryDay < x := by
    intro a
    constructor
    · exact fun h x hx => h x (mem_monthlyExpiries.mpr (Or.inl hx))
    · intro h x hx
      rcases mem_monthlyExpiries.mp hx with hx | hx
      · exact h x hx
      · exact Or.inr (hlater.trans_le (mem_lastListed.mp hx).2.1)
  constructor
  · rintro ⟨a, ha, hle, h⟩
    have hlt : a < today := ((lt_earliestBiweekly monthlyVariant a).trans_le hle).trans hlater
    exact ⟨a, (settled_of_lt hlt).mp ha, hle, (hnone a).mp h⟩
  · rintro ⟨a, ha, hle, h⟩
    exact ⟨a, mem_monthlyExpiries.mpr (Or.inl ha), hle, (hnone a).mpr h⟩

/-- What a later day must still know of a bi-weekly plan. -/
structure BiweeklySurvives (c : TradingCalendar) (listed : List Date) (entryDay today hardExitDate : Date) :
    Prop where
  /-- No expiry after the entry day has left the listing. -/
  kept : ∀ e ∈ listed, entryDay < e → c.prevTradingDay today < e
  /-- The entry day is still in the bi-weekly part of a cycle. -/
  part : InBiweeklyPart c monthlyVariant (settledExpiries c.isTradingDay today) entryDay
  /-- A monthly expiry after it is still known. -/
  next : ∃ m ∈ monthlyExpiries c.isTradingDay (listingOn c listed today) today, entryDay < m
  /-- The hard exit still comes before the monthly entry after it. -/
  room : ∀ m ∈ monthlyExpiries c.isTradingDay (listingOn c listed today) today, entryDay < m →
    hardExitDate < c.nextTradingDay m

/-- **A bi-weekly plan survives** exactly when no expiry has left the listing since its entry
day and that day would still open a window. -/
theorem biweekly_survives_iff {plan : EntryPlan}
    (hplan : (biweeklyPolicy c (listingOn c listed entryDay) entryDay).entryWindow entryDay = some plan)
    (hlater : entryDay < today) :
    (∃ plan', (biweeklyPolicy c (listingOn c listed today) today).entryWindow entryDay = some plan' ∧
        SamePlan plan plan') ↔
      BiweeklySurvives c listed entryDay today plan.hardExitDate := by
  have hinc := sortedSet_increasing (settledExpiries c.isTradingDay entryDay ++
    lastListed (listingOn c listed entryDay) entryDay)
  have hinc' := sortedSet_increasing (settledExpiries c.isTradingDay today ++
    lastListed (listingOn c listed today) today)
  obtain ⟨hday, -, -, -, -, first, near, far, rest, hexp, rfl, hlow, -⟩ :=
    (biweeklyWindow_eq_some_iff hinc).mp hplan
  constructor
  · rintro ⟨plan', hplan', hsame⟩
    obtain ⟨-, hpart, next, restM, hnext, first', near', far', rest', hexp', rfl, -, hroom⟩ :=
      (biweeklyWindow_eq_some_iff hinc').mp hplan'
    obtain ⟨⟨hmem, hlt⟩, hleast, -⟩ := first_after hinc' hnext
    refine ⟨fun e he hte => ?_, (inBiweeklyPart_rebuilt hlater).mp hpart, ⟨next, hmem, hlt⟩, fun m hm hm' => ?_⟩
    · by_contra hgone
      obtain ⟨-, hfirst, hafter⟩ := first_after (sortedSet_increasing _) hexp
      obtain ⟨⟨hfirst', hlt'⟩, -⟩ := first_after (sortedSet_increasing _) hexp'
      have hin : e ∈ sortedSet (listingOn c listed entryDay) :=
        mem_sortedSet.mpr (mem_listingOn.mpr ⟨he, lt_of_le_of_lt (prevTradingDay_le entryDay) hte⟩)
      obtain ⟨hfl, hfp⟩ := mem_listingOn.mp (mem_sortedSet.mp hfirst')
      -- the first expiry of the entry day is gone, so the near one moves up
      have hgt : first < first' := ((hfirst e hin hte).trans (not_lt.mp hgone)).trans_lt hfp
      have hrest : first' ∈ near :: far :: rest := hafter first' (mem_sortedSet.mpr (mem_listingOn.mpr
        ⟨hfl, lt_of_le_of_lt (prevTradingDay_le entryDay) hlt'⟩)) hgt
      have hsorted := (sortedSet_increasing (listingOn c listed entryDay)).filter (entryDay < ·)
      have hsorted' := (sortedSet_increasing (listingOn c listed today)).filter (entryDay < ·)
      rw [hexp] at hsorted
      rw [hexp'] at hsorted'
      have hle : near ≤ first' := by
        rcases List.mem_cons.mp hrest with rfl | hrest
        · exact le_rfl
        · exact ((List.pairwise_cons.mp (List.pairwise_cons.mp hsorted).2).1 first' hrest).le
      have hlt'' : first' < near' := (List.pairwise_cons.mp hsorted').1 near' List.mem_cons_self
      exact absurd (hle.trans_lt hlt'') (not_lt.mpr hsame.near.le)
    · have hhard := hsame.hardExit
      exact (hhard ▸ hroom).trans_le (nextTradingDay_mono (hleast m hm hm'))
  · rintro ⟨hlisted, hpart, ⟨m, hm, hm'⟩, hroom⟩
    obtain ⟨next, restM, hnext⟩ : ∃ next restM, (monthlyExpiries c.isTradingDay (listingOn c listed today)
        today).filter (entryDay < ·) = next :: restM :=
      List.exists_cons_of_ne_nil (List.ne_nil_of_mem (List.mem_filter.mpr ⟨hm, decide_eq_true hm'⟩))
    obtain ⟨⟨hmem, hlt⟩, -⟩ := first_after hinc' hnext
    refine ⟨_, (biweeklyWindow_eq_some_iff hinc').mpr ⟨hday, (inBiweeklyPart_rebuilt hlater).mpr hpart, next, restM,
      hnext, first, near, far, rest, ?_, rfl, hlow, hroom next hmem hlt⟩, ⟨rfl, rfl, rfl⟩⟩
    rw [← hexp]
    refine filter_sortedSet_congr fun d hd => ?_
    have hday' : entryDay < d := of_decide_eq_true hd
    rw [mem_listingOn, mem_listingOn]
    exact and_congr_right fun hdl => iff_of_true (hlisted d hdl hday')
      (lt_of_le_of_lt (prevTradingDay_le entryDay) hday')

end Policies

end NiftyShield.NiftyCalendar
