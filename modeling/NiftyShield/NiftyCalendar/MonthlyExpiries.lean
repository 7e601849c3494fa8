import NiftyShield.Models.Calendar
import NiftyShield.NiftyCalendar.Windows
import Mathlib.Data.List.MinMax

/-!
# The monthly expiries of a month

`monthly_expiries` (`src/nifty_calendar/expiries.py`) takes the expiry of a month from the rule
once it is past, and from the listing before: the last date listed in the month. A weekly
expiry at the start of a month may have been moved back over a holiday into the month before,
where it is then the last date listed.

## What is proved

* `gives_rule_expiries_iff`: each month that the listing covers has one expiry, that of the
  rule, exactly when no listed expiry has been moved out of its month;
* `expiry_unchanged`: then the expiry of a month is the same on every day.

## Honest scope

The listing is that of the weekly expiries up to some last Tuesday. A week has a trading day.
-/

namespace NiftyShield.NiftyCalendar

open NiftyShield.MarketCalendar Date

/-! ### Listings -/

/-- The last Tuesday of a month. -/
def lastTuesday (year month : ℕ) : ℕ := monthEnd year month - (weekday (monthEnd year month) + 6) % 7

/-- The day is a Tuesday. -/
def IsTuesday (d : ℕ) : Prop := weekday d = 1

instance (d : ℕ) : Decidable (IsTuesday d) := inferInstanceAs (Decidable (weekday d = 1))

/-- Holidays never last a week. -/
def TradesEveryWeek (tradingDay : Date → Bool) : Prop :=
  ∀ d : ℕ, 7 ≤ d → ∃ e, e ≤ d ∧ d < e + 7 ∧ tradingDay e = true

/-- The weekly expiries on or after `today`, for the Tuesdays up to a horizon. -/
def WeeklyListing (tradingDay : Date → Bool) (horizon today : Date) (listed : List Date) : Prop :=
  ∀ d, d ∈ listed ↔ today ≤ d ∧ ∃ t, IsTuesday t ∧ t ≤ horizon ∧ d = backToTradingDay tradingDay t

/-- Such a listing. -/
def weeklyListing (tradingDay : Date → Bool) (horizon today : ℕ) : List Date :=
  (((List.range' today (horizon + 1 - today)).filter fun t => IsTuesday t).map (backToTradingDay tradingDay)).filter
    (today ≤ ·)

/-- The listing has every expiry of the month that is still to come. -/
def Covers (tradingDay : Date → Bool) (horizon today : Date) (year month : ℕ) : Prop :=
  ∀ t, IsTuesday t → InMonth year month t → today ≤ backToTradingDay tradingDay t → t ≤ horizon

/-- Each month from the second last on that the listing covers has one expiry, that of the
rule. -/
def GivesRuleExpiries (tradingDay : Date → Bool) (horizon today : Date) (listed : List Date) : Prop :=
  ∀ y m, 1 ≤ m → m ≤ 12 → monthIndex (year today) (month today) ≤ monthIndex y m + 2 →
    Covers tradingDay horizon today y m →
      ∀ d, (d ∈ monthlyExpiries tradingDay listed today ∧ year d = y ∧ month d = m) ↔ d = ruleExpiry tradingDay y m

/-- No listed expiry has been moved into the month before its Tuesday's. -/
def NoneMovedOut (tradingDay : Date → Bool) (horizon today : Date) : Prop :=
  ∀ t, IsTuesday t → t ≤ horizon → today ≤ backToTradingDay tradingDay t →
    (backToTradingDay tradingDay t).year = year t ∧ (backToTradingDay tradingDay t).month = month t

/-! ### Tuesdays and trading days -/

section Calendar

variable {tradingDay : Date → Bool}

theorem lastTuesday_spec (y m : ℕ) :
    IsTuesday (lastTuesday y m) ∧ lastTuesday y m ≤ monthEnd y m ∧ monthEnd y m < lastTuesday y m + 7 := by
  have hlong : 28 ≤ monthEnd y m := (daysInMonth_ge y m).trans (Nat.le_add_left _ _)
  unfold IsTuesday lastTuesday weekday
  generalize monthEnd y m = e at hlong
  omega

theorem le_lastTuesday {y m t : ℕ} (ht : IsTuesday t) (hle : t ≤ monthEnd y m) : t ≤ lastTuesday y m := by
  obtain ⟨hlast, -, hend⟩ := lastTuesday_spec y m
  unfold IsTuesday weekday at ht hlast
  omega

/-- Tuesdays are a week apart. -/
theorem IsTuesday.add_seven_le {s t : ℕ} (hs : IsTuesday s) (ht : IsTuesday t) (h : s < t) : s + 7 ≤ t := by
  unfold IsTuesday weekday at hs ht
  omega

theorem ruleExpiry_eq (y m : ℕ) : ruleExpiry tradingDay y m = backToTradingDay tradingDay (lastTuesday y m) := rfl

theorem back_mono {d e : ℕ} (h : d ≤ e) : backToTradingDay tradingDay d ≤ backToTradingDay tradingDay e := by
  obtain ⟨hle, hday, hnone⟩ := backToTradingDay_spec tradingDay d
  obtain ⟨hle', hday', hnone'⟩ := backToTradingDay_spec tradingDay e
  by_contra hlt
  have hpos : backToTradingDay tradingDay d ≠ 0 := Nat.ne_of_gt (Nat.zero_lt_of_lt (not_le.mp hlt))
  have hclosed := hnone' _ (not_le.mp hlt) (hle.trans h)
  rw [hday hpos] at hclosed
  exact absurd hclosed (by decide)

/-- An expiry is moved by less than a week. -/
theorem lt_back_add_seven (hweek : TradesEveryWeek tradingDay) {d : ℕ} (hd : 7 ≤ d) :
    d < backToTradingDay tradingDay d + 7 := by
  obtain ⟨e, hed, hde, htrading⟩ := hweek d hd
  obtain ⟨-, -, hnone⟩ := backToTradingDay_spec tradingDay d
  have hle : e ≤ backToTradingDay tradingDay d := by
    by_contra hlt
    rw [hnone e (not_le.mp hlt) hed] at htrading
    exact absurd htrading (by decide)
  exact lt_of_lt_of_le hde (Nat.add_le_add_right hle 7)

/-- The rule's expiry is in its month. -/
theorem inMonth_ruleExpiry (hweek : TradesEveryWeek tradingDay) {y m : ℕ} (hy : 1 ≤ y) (hm : 1 ≤ m) (hm12 : m ≤ 12) :
    InMonth y m (ruleExpiry tradingDay y m) := by
  obtain ⟨-, hle, hend⟩ := lastTuesday_spec y m
  have hlong := daysInMonth_ge y m
  have hmonth : monthEnd y m = monthStart y m + daysInMonth y m := rfl
  have hback := (backToTradingDay_spec tradingDay (lastTuesday y m)).1
  have hmoved := lt_back_add_seven hweek (d := lastTuesday y m) (by omega)
  rw [← ruleExpiry_eq] at hback hmoved
  exact ⟨hy, hm, hm12, by omega, le_trans hback hle⟩

/-! ### The months the rule is applied to -/

/-- The two months before `today`'s exist: a `date` has no year 0. -/
def HasLookback (today : ℕ) : Prop := monthStart 1 3 < today

theorem monthIndex_monthBefore {ym : ℕ × ℕ} (hm : 1 ≤ ym.2) (hpos : 13 < monthIndex ym.1 ym.2) :
    monthIndex (monthBefore ym).1 (monthBefore ym).2 + 1 = monthIndex ym.1 ym.2 := by
  unfold monthBefore monthIndex at *
  split <;> simp only <;> omega

theorem monthBefore_valid {ym : ℕ × ℕ} (hm : 1 ≤ ym.2) (hm12 : ym.2 ≤ 12) :
    1 ≤ (monthBefore ym).2 ∧ (monthBefore ym).2 ≤ 12 := by
  unfold monthBefore
  split <;> simp only <;> omega

theorem HasLookback.le_monthIndex {today : ℕ} (h : HasLookback today) :
    15 ≤ monthIndex (year today) (month today) := by
  have hfirst : InMonth 1 3 (monthStart 1 3 + 1) := by
    refine ⟨le_rfl, by decide, by decide, Nat.lt_succ_self _, ?_⟩
    exact Nat.add_le_add_left ((by decide : 1 ≤ 28).trans (daysInMonth_ge 1 3)) _
  exact hfirst.monthIndex_le (inMonth_toYmd (Nat.zero_lt_of_lt h)) h

/-- They are this month and the two before. -/
theorem mem_monthsBack {today : ℕ} (hlookback : HasLookback today) {y m : ℕ} :
    (y, m) ∈ monthsBack today ↔ (1 ≤ m ∧ m ≤ 12) ∧ monthIndex y m ≤ monthIndex (year today) (month today) ∧
      monthIndex (year today) (month today) ≤ monthIndex y m + 2 := by
  obtain ⟨-, hm, hm12, -, -⟩ := inMonth_toYmd (Nat.zero_lt_of_lt hlookback)
  have hidx := hlookback.le_monthIndex
  have h1 : monthIndex (monthBefore (year today, month today)).1 (monthBefore (year today, month today)).2 + 1 =
      monthIndex (year today) (month today) := monthIndex_monthBefore hm (lt_of_lt_of_le (by decide) hidx)
  obtain ⟨hm1, hm1'⟩ := @monthBefore_valid (year today, month today) hm hm12
  have h2 := monthIndex_monthBefore hm1 (by omega)
  obtain ⟨hm2, hm2'⟩ := monthBefore_valid hm1 hm1'
  rw [monthsBack, List.mem_cons, List.mem_cons, List.mem_singleton]
  simp only [Prod.ext_iff]
  generalize monthBefore (monthBefore (year today, month today)) = p at *
  generalize monthBefore (year today, month today) = q at *
  unfold monthIndex at *
  omega

/-! ### One expiry a month -/

variable {horizon today : ℕ} {listed : List Date}

/-- A listed expiry comes no later than that of the month of its Tuesday. -/
theorem le_ruleExpiry {y m t : ℕ} (ht : IsTuesday t) (hle : t ≤ monthEnd y m) :
    backToTradingDay tradingDay t ≤ ruleExpiry tradingDay y m := back_mono (le_lastTuesday ht hle)

theorem inMonth_lastTuesday {y m : ℕ} (hy : 1 ≤ y) (hm : 1 ≤ m) (hm12 : m ≤ 12) : InMonth y m (lastTuesday y m) := by
  obtain ⟨-, hle, hend⟩ := lastTuesday_spec y m
  have hlong := daysInMonth_ge y m
  have hmonth : monthEnd y m = monthStart y m + daysInMonth y m := rfl
  exact ⟨hy, hm, hm12, by omega, hle⟩

/-- The rule's expiry of a covered month is listed until it is past. -/
theorem ruleExpiry_listed (hlisted : WeeklyListing tradingDay horizon today listed) {y m : ℕ} (hy : 1 ≤ y) (hm : 1 ≤ m)
    (hm12 : m ≤ 12) (hcovers : Covers tradingDay horizon today y m) (htoday : today ≤ ruleExpiry tradingDay y m) :
    ruleExpiry tradingDay y m ∈ listed := by
  obtain ⟨htuesday, -, -⟩ := lastTuesday_spec y m
  exact (hlisted _).mpr ⟨htoday, _, htuesday, hcovers _ htuesday (inMonth_lastTuesday hy hm hm12) htoday, rfl⟩

/-- Each month with a listed expiry has a last listed one. -/
theorem exists_lastListed {d : ℕ} (hd : d ∈ listed) (htoday : today ≤ d) :
    ∃ e ∈ lastListed listed today, d ≤ e ∧ year e = year d ∧ month e = month d := by
  let inMonth := listed.filter fun e => year e = year d ∧ month e = month d
  have hmem : ∀ {e}, e ∈ inMonth ↔ e ∈ listed ∧ year e = year d ∧ month e = month d := by simp [inMonth]
  have hne : inMonth ≠ [] := List.ne_nil_of_mem (hmem.mpr ⟨hd, rfl, rfl⟩)
  obtain ⟨e, he⟩ := Option.ne_none_iff_exists'.mp (mt (List.argmax_eq_none (f := id)).mp hne)
  have hlast : ∀ {x}, x ∈ inMonth → x ≤ e := fun hx => List.le_of_mem_argmax hx he
  obtain ⟨hlisted, hy, hm⟩ := hmem.mp (List.argmax_mem he)
  have hde := hlast (hmem.mpr ⟨hd, rfl, rfl⟩)
  refine ⟨e, mem_lastListed.mpr ⟨hlisted, htoday.trans hde, fun x hx hxy hxm => ?_⟩, hde, hy, hm⟩
  exact hlast (hmem.mpr ⟨hx, hxy.trans hy, hxm.trans hm⟩)

/-- What the settled months contribute to a month. -/
theorem mem_settledExpiries (hlookback : HasLookback today) {d : ℕ} :
    d ∈ settledExpiries tradingDay today ↔ d < today ∧ ∃ y m, (1 ≤ y ∧ 1 ≤ m ∧ m ≤ 12) ∧
      (monthIndex y m ≤ monthIndex (year today) (month today) ∧
        monthIndex (year today) (month today) ≤ monthIndex y m + 2) ∧ d = ruleExpiry tradingDay y m := by
  have hidx := hlookback.le_monthIndex
  rw [settledExpiries, List.mem_filter, List.mem_map, decide_eq_true_iff, and_comm]
  refine and_congr_right fun _ => ?_
  constructor
  · rintro ⟨⟨y, m⟩, hmem, rfl⟩
    obtain ⟨⟨hm, hm12⟩, hle, hge⟩ := (mem_monthsBack hlookback).mp hmem
    refine ⟨y, m, ⟨?_, hm, hm12⟩, ⟨hle, hge⟩, rfl⟩
    unfold monthIndex at *
    omega
  · rintro ⟨y, m, ⟨-, hm, hm12⟩, ⟨hle, hge⟩, rfl⟩
    exact ⟨(y, m), (mem_monthsBack hlookback).mpr ⟨⟨hm, hm12⟩, hle, hge⟩, rfl⟩

/-- **One expiry a month**: the one of the rule, exactly when no listed expiry has been moved
out of its month. -/
theorem gives_rule_expiries_iff (hweek : TradesEveryWeek tradingDay) (hlookback : HasLookback today)
    (hlisted : WeeklyListing tradingDay horizon today listed) :
    GivesRuleExpiries tradingDay horizon today listed ↔ NoneMovedOut tradingDay horizon today := by
  have hpos : 0 < today := Nat.zero_lt_of_lt hlookback
  have htodayMonth := inMonth_toYmd hpos
  constructor
  · intro h t ht hth htoday
    by_contra hne
    have hdt := (backToTradingDay_spec tradingDay t).1
    have hd := inMonth_toYmd (hpos.trans_le htoday)
    have htm := inMonth_toYmd (hpos.trans_le (htoday.trans hdt))
    have hd_listed := (hlisted _).mpr ⟨htoday, t, ht, hth, rfl⟩
    have hshort : t < backToTradingDay tradingDay t + 7 :=
      lt_back_add_seven hweek ((by decide : 7 ≤ monthStart 1 3).trans (hlookback.le.trans (htoday.trans hdt)))
    generalize backToTradingDay tradingDay t = d at *
    -- the month of the expiry is over when its Tuesday comes
    have hlt : monthIndex (year d) (month d) < monthIndex (year t) (month t) := by
      refine lt_of_le_of_ne (hd.monthIndex_le htm hdt) fun heq => hne ?_
      obtain ⟨-, hm, hm12, -, -⟩ := hd
      obtain ⟨-, hm', hm12', -, -⟩ := htm
      unfold monthIndex at heq
      omega
    obtain ⟨e, he, hde, hy, hm⟩ := exists_lastListed hd_listed htoday
    have hrule := (h _ _ hd.month_pos hd.month_le
      ((htodayMonth.monthIndex_le hd htoday).trans (Nat.le_add_right _ _))
      (fun u _ hu _ => (hu.lt_of_monthIndex_lt htm hlt).le.trans hth) e).mp
        ⟨mem_monthlyExpiries.mpr (Or.inr he), hy, hm⟩
    have hlast := inMonth_lastTuesday hd.year_pos hd.month_pos hd.month_le
    have hweekBefore := (lastTuesday_spec _ _).1.add_seven_le ht (hlast.lt_of_monthIndex_lt htm hlt)
    have hback : e ≤ lastTuesday (year d) (month d) := hrule ▸ (backToTradingDay_spec tradingDay _).1
    exact absurd (lt_of_lt_of_le hshort (Nat.add_le_add_right (hde.trans hback) 7)) (not_lt.mpr hweekBefore)
  · intro hmoved y m hm hm12 hrange hcovers d
    have hy : 1 ≤ y := by
      have hidx := hlookback.le_monthIndex
      unfold monthIndex at *
      omega
    have hrule := inMonth_ruleExpiry hweek hy hm hm12
    have hruleMonth := (year_month_iff (Nat.zero_lt_of_lt hrule.start_lt)).mpr hrule
    constructor
    · rintro ⟨hmem, rfl, rfl⟩
      rcases mem_monthlyExpiries.mp hmem with hsettled | hlast
      · obtain ⟨-, y, m, ⟨hy', hm', hm12'⟩, -, rfl⟩ := (mem_settledExpiries hlookback).mp hsettled
        have hin := inMonth_ruleExpiry hweek hy' hm' hm12'
        obtain ⟨h1, h2⟩ := (year_month_iff (Nat.zero_lt_of_lt hin.start_lt)).mpr hin
        rw [h1, h2]
      · obtain ⟨hin, htoday, hmax⟩ := mem_lastListed.mp hlast
        obtain ⟨-, t, ht, hth, rfl⟩ := (hlisted d).mp hin
        obtain ⟨hyt, hmt⟩ := hmoved t ht hth htoday
        have htm := inMonth_toYmd (hpos.trans_le (htoday.trans (backToTradingDay_spec tradingDay t).1))
        rw [hyt, hmt] at hcovers hruleMonth hmax ⊢
        have hle : backToTradingDay tradingDay t ≤ ruleExpiry tradingDay (year t) (month t) := le_ruleExpiry ht htm.le_end
        exact le_antisymm hle (hmax _ (ruleExpiry_listed hlisted htm.year_pos htm.month_pos htm.month_le hcovers
          (htoday.trans hle)) hruleMonth.1 hruleMonth.2)
    · rintro rfl
      refine ⟨mem_monthlyExpiries.mpr ?_, hruleMonth⟩
      rcases lt_or_ge (ruleExpiry tradingDay y m) today with hpast | htoday
      · exact Or.inl ((mem_settledExpiries hlookback).mpr
          ⟨hpast, y, m, ⟨hy, hm, hm12⟩, ⟨hrule.monthIndex_le htodayMonth hpast.le, hrange⟩, rfl⟩)
      · refine Or.inr (mem_lastListed.mpr ⟨ruleExpiry_listed hlisted hy hm hm12 hcovers htoday, htoday, ?_⟩)
        intro e he hye hme
        obtain ⟨hle, t, ht, hth, rfl⟩ := (hlisted e).mp he
        obtain ⟨hyt, hmt⟩ := hmoved t ht hth hle
        have htm := inMonth_toYmd (hpos.trans_le (hle.trans (backToTradingDay_spec tradingDay t).1))
        rw [← hyt, ← hmt, hye, hme, hruleMonth.1, hruleMonth.2] at htm
        exact le_ruleExpiry ht htm.le_end

/-- The expiry of a month is the same on every day. -/
theorem expiry_unchanged {horizon' today' : ℕ} {listed' : List Date}
    (h : GivesRuleExpiries tradingDay horizon today listed)
    (h' : GivesRuleExpiries tradingDay horizon' today' listed') {y m d d' : ℕ} (hm : 1 ≤ m) (hm12 : m ≤ 12)
    (hrange : monthIndex (year today) (month today) ≤ monthIndex y m + 2) (hcovers : Covers tradingDay horizon today y m)
    (hrange' : monthIndex (year today') (month today') ≤ monthIndex y m + 2)
    (hcovers' : Covers tradingDay horizon' today' y m)
    (hd : d ∈ monthlyExpiries tradingDay listed today ∧ year d = y ∧ month d = m)
    (hd' : d' ∈ monthlyExpiries tradingDay listed' today' ∧ year d' = y ∧ month d' = m) : d = d' :=
  ((h y m hm hm12 hrange hcovers d).mp hd).trans ((h' y m hm hm12 hrange' hcovers' d').mp hd').symm

end Calendar

/-! ### A holiday on the first of May -/

theorem weeklyListing_spec (tradingDay : Date → Bool) (horizon today : ℕ) :
    WeeklyListing tradingDay horizon today (weeklyListing tradingDay horizon today) := by
  intro d
  rw [weeklyListing, List.mem_filter, decide_eq_true_iff, and_comm, List.mem_map]
  refine and_congr_right fun htoday => ?_
  constructor
  · rintro ⟨t, ht, rfl⟩
    obtain ⟨hrange, htuesday⟩ := List.mem_filter.mp ht
    have hbounds := List.mem_range'_1.mp hrange
    exact ⟨t, of_decide_eq_true htuesday, by omega, rfl⟩
  · rintro ⟨t, ht, hth, rfl⟩
    have hle : today ≤ t := le_trans htoday (backToTradingDay_spec tradingDay t).1
    exact ⟨t, List.mem_filter.mpr ⟨List.mem_range'_1.mpr (by omega), decide_eq_true ht⟩, rfl⟩

/-- Every weekday is a trading day but one. -/
def openExcept (holiday : ℕ) : Date → Bool := isTradingDay fun _ => [holiday]

theorem openExcept_tradesEveryWeek (holiday : ℕ) : TradesEveryWeek (openExcept holiday) := by
  intro d hd
  by_contra hnone
  have hclosed : ∀ e : ℕ, e ≤ d → d < e + 7 → 5 ≤ (e + 6) % 7 ∨ e = holiday := by
    intro e hed hde
    by_contra hopen
    obtain ⟨hweekday, hne⟩ := not_or.mp hopen
    exact hnone ⟨e, hed, hde, by simp [openExcept, isTradingDay, weekday, hweekday, hne]⟩
  have h0 := hclosed d le_rfl (by omega)
  have h1 := hclosed (d - 1) (by omega) (by omega)
  have h2 := hclosed (d - 2) (by omega) (by omega)
  have h3 := hclosed (d - 3) (by omega) (by omega)
  omega

/-- The first of May 2029 is a Tuesday and a holiday; its expiry is listed for the last of
April. -/
def mayDay : ℕ := 740833

theorem mayDay_lookback : HasLookback (mayDay - 6) := (by decide : monthStart 1 3 < mayDay - 6)

/-- On 25 April 2029 there are two expiries in April: the settled one and the moved one. -/
theorem mayDay_two_expiries :
    TradesEveryWeek (openExcept mayDay) ∧ HasLookback (mayDay - 6) ∧
      WeeklyListing (openExcept mayDay) (mayDay + 28) (mayDay - 6)
        (weeklyListing (openExcept mayDay) (mayDay + 28) (mayDay - 6)) ∧
      ¬ GivesRuleExpiries (openExcept mayDay) (mayDay + 28) (mayDay - 6)
        (weeklyListing (openExcept mayDay) (mayDay + 28) (mayDay - 6)) := by
  refine ⟨openExcept_tradesEveryWeek _, mayDay_lookback, weeklyListing_spec _ _ _, fun h => ?_⟩
  have hcovers : Covers (openExcept mayDay) (mayDay + 28) (mayDay - 6) 2029 4 := fun t _ ht _ =>
    ht.le_end.trans (by decide)
  have hmoved := (h 2029 4 (by decide) (by decide) (by decide +kernel) hcovers (mayDay - 1)).mp (by decide +kernel)
  exact absurd hmoved (by decide +kernel)

/-- The equivalence there. -/
theorem gives_rule_expiries_iff_mayDay :
    GivesRuleExpiries (openExcept mayDay) (mayDay + 28) (mayDay - 6)
        (weeklyListing (openExcept mayDay) (mayDay + 28) (mayDay - 6)) ↔
      NoneMovedOut (openExcept mayDay) (mayDay + 28) (mayDay - 6) :=
  gives_rule_expiries_iff (openExcept_tradesEveryWeek _) mayDay_lookback (weeklyListing_spec _ _ _)

end NiftyShield.NiftyCalendar
