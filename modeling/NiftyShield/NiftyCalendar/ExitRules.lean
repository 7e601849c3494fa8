import Mathlib.Algebra.Order.Group.Abs
import Mathlib.Algebra.Order.Ring.Rat
import Mathlib.Data.List.Induction
import NiftyShield.Models.Common

/-!
# Exit rules of the calendar spreads

`MonthlyExitRule` and `BiweeklyExitRule` (`src/nifty_calendar/exit_rules.py`), and the
spot history `NiftyCalendarV1` keeps for them (`src/strategy/nifty_calendar_v1.py`). A
breakeven breach is confirmed on the samples of a window that ends now; the same samples
must also span the whole window.

## What is proved

* `spansWindow_iff`: the samples of the window span it only with one sample exactly at its
  start and one exactly now;
* `detectsBreach_iff`: when a rule acts on a sustained breach, and that it never acts on
  samples that are not all beyond one breakeven;
* `mem_recordSpots`: the strategy's history keeps every sample of the last two windows.

## Honest scope

A datetime is its microseconds in IST since the day before 1 January of year 1, and whether
it is timezone-aware. `entry_spot` and `ltp_pnl`, which no rule reads, are left out.
-/

namespace NiftyShield.NiftyCalendar

open NiftyShield

/-! ### Times -/

/-- A datetime. -/
structure Stamp where
  /-- It has a timezone. -/
  aware : Bool := true
  /-- Microseconds in IST. -/
  micros : ℕ
  deriving DecidableEq

/-- `timedelta(minutes=…)`. -/
def minutes (n : ℤ) : ℤ := n * 60000000

/-- A day. -/
def dayMicros : ℕ := 86400000000

/-- `now_ist.date()`. -/
def Stamp.date (t : Stamp) : Date := t.micros / dayMicros

/-- `now_ist.time()`. -/
def Stamp.timeOfDay (t : Stamp) : ℕ := t.micros % dayMicros

/-! ### Configuration, state, snapshot -/

/-- What the exit rules read of `CalendarVariantConfig`; the defaults are those of the
class, without one the values of `MONTHLY` and `BIWEEKLY`. -/
structure CalendarVariantConfig where
  /-- Days to the near expiry that force an exit. -/
  exitByDte : ℤ := 7
  /-- Confirmation window of a breach. -/
  breachConfirmMinutes : ℤ := 30
  /-- Hold days that still recentre. -/
  breachAdjustWindowDays : ℤ := 7
  /-- First hold day a breach is acted on. -/
  breachAdjustWindowDaysStart : ℤ := 0
  /-- Drift from the entry strike that recentres. -/
  recentreSpotThresholdPoints : ℤ := 200
  /-- First hold day of the drift rule. -/
  offCentreWindowDaysStart : ℤ := 4
  /-- Last hold day of the drift rule. -/
  offCentreWindowDaysEnd : ℤ := 5
  /-- Time of the hard exit, in microseconds of the day. -/
  hardExitTimeIst : ℕ := 54900000000
  deriving DecidableEq

/-- `MONTHLY`. -/
def monthly : CalendarVariantConfig := {}

/-- `BIWEEKLY`. -/
def biweekly : CalendarVariantConfig where
  breachAdjustWindowDays := 4
  breachAdjustWindowDaysStart := 3

/-- What the exit rules read of `CycleExitState` and its `EntryPlan`. -/
structure CycleExitState where
  /-- Day of the entry. -/
  entryDate : Date
  /-- Short strike at entry. -/
  entryShortStrike : ℚ
  /-- Expiry of the short legs. -/
  nearExpiry : Date
  /-- Day of the hard exit. -/
  hardExitDate : Date
  /-- Target profit. -/
  targetPnl : ℚ
  deriving DecidableEq

/-- One item of `spot_closes`. -/
structure SpotClose where
  /-- Time of the sample. -/
  stamp : Stamp
  /-- Spot price. -/
  spot : ℚ
  deriving DecidableEq

/-- `ExitSnapshot`. -/
structure ExitSnapshot where
  /-- Current spot. -/
  spot : ℚ
  /-- Samples, in order. -/
  spotCloses : List SpotClose
  /-- Profit at executable prices. -/
  executablePnl : ℚ
  /-- Lower breakeven. -/
  breakevenLow : ℚ
  /-- Upper breakeven. -/
  breakevenHigh : ℚ
  deriving DecidableEq

/-- `ExitDecision`. -/
inductive ExitDecision where
  /-- `HOLD`. -/
  | hold
  /-- `TARGET`. -/
  | target
  /-- `RECENTRE`. -/
  | recentre
  /-- `CLOSE_BREACH_LATE`. -/
  | closeBreachLate
  /-- `TIME_EXIT`. -/
  | timeExit
  /-- `DTE_GUARD`. -/
  | dteGuard
  /-- `REDEPLOY_SAME_PAIR`. -/
  | redeploySamePair
  /-- `RECENTRE_OFF_CENTRE`. -/
  | recentreOffCentre
  deriving DecidableEq

/-- The `ValueError`s of a rule. -/
inductive ExitRuleError where
  /-- `now must be timezone-aware datetime`. -/
  | naiveNow
  /-- `spot_closes timestamps must be timezone-aware`. -/
  | naiveSample
  deriving DecidableEq

/-! ### The rules -/

/-- `window_delta`. -/
def windowDelta (config : CalendarVariantConfig) : ℤ := minutes config.breachConfirmMinutes

/-- `window_entries`: the samples of the window that ends now. -/
def windowEntries (config : CalendarVariantConfig) (snapshot : ExitSnapshot) (now : Stamp) :
    List SpotClose :=
  snapshot.spotCloses.filter fun c =>
    (now.micros : ℤ) - windowDelta config ≤ c.stamp.micros ∧ c.stamp.micros ≤ now.micros

/-- The times of samples. -/
def times (entries : List SpotClose) : List ℕ := entries.map fun c => c.stamp.micros

/-- At least two samples, the first and the last at least a window apart. -/
def spansWindow (config : CalendarVariantConfig) (entries : List SpotClose) : Bool :=
  2 ≤ entries.length &&
    match (times entries).min?, (times entries).max? with
    | some earliest, some latest => windowDelta config ≤ (latest : ℤ) - earliest
    | _, _ => false

/-- `low_breach`. -/
def lowBreach (snapshot : ExitSnapshot) (entries : List SpotClose) : Bool :=
  (entries.all fun c => c.spot < snapshot.breakevenLow) && snapshot.spot < snapshot.breakevenLow

/-- `high_breach`. -/
def highBreach (snapshot : ExitSnapshot) (entries : List SpotClose) : Bool :=
  (entries.all fun c => snapshot.breakevenHigh < c.spot) && snapshot.breakevenHigh < snapshot.spot

/-- A breach is confirmed. -/
def confirmedBreach (config : CalendarVariantConfig) (snapshot : ExitSnapshot) (now : Stamp) : Bool :=
  spansWindow config (windowEntries config snapshot now) &&
    (lowBreach snapshot (windowEntries config snapshot now) ||
      highBreach snapshot (windowEntries config snapshot now))

/-- `dte`. -/
def dte (state : CycleExitState) (now : Stamp) : ℤ := Date.daysBetween now.date state.nearExpiry

/-- `days_held`. -/
def daysHeld (state : CycleExitState) (now : Stamp) : ℤ := Date.daysBetween state.entryDate now.date

/-- Past the hard exit. -/
def pastHardExit (config : CalendarVariantConfig) (state : CycleExitState) (now : Stamp) : Bool :=
  state.hardExitDate < now.date || (now.date = state.hardExitDate && config.hardExitTimeIst ≤ now.timeOfDay)

/-- The checks of the arguments both rules make first. -/
def checkAware (snapshot : ExitSnapshot) (now : Stamp) (decision : ExitDecision) :
    Except ExitRuleError ExitDecision :=
  if now.aware = false then .error .naiveNow
  else if snapshot.spotCloses.any fun c => !c.stamp.aware then .error .naiveSample
  else .ok decision

/-- `MonthlyExitRule.evaluate`. -/
def MonthlyExitRule.evaluate (config : CalendarVariantConfig) (state : CycleExitState)
    (snapshot : ExitSnapshot)
    (now : Stamp) : Except ExitRuleError ExitDecision :=
  checkAware snapshot now <|
    if dte state now ≤ config.exitByDte then .dteGuard
    else if pastHardExit config state now then .timeExit
    else if state.targetPnl ≤ snapshot.executablePnl then .target
    else if confirmedBreach config snapshot now then
      if daysHeld state now < config.breachAdjustWindowDays then .recentre else .closeBreachLate
    else .hold

/-- Spot has drifted from the entry strike on one of the days of the drift rule. -/
def offCentre (config : CalendarVariantConfig) (state : CycleExitState) (snapshot : ExitSnapshot)
    (now : Stamp) : Bool :=
  config.offCentreWindowDaysStart ≤ daysHeld state now && daysHeld state now ≤
    config.offCentreWindowDaysEnd &&
    (config.recentreSpotThresholdPoints : ℚ) ≤ |snapshot.spot - state.entryShortStrike|

/-- `BiweeklyExitRule.evaluate`. -/
def BiweeklyExitRule.evaluate (config : CalendarVariantConfig) (state : CycleExitState)
    (snapshot : ExitSnapshot)
    (now : Stamp) : Except ExitRuleError ExitDecision :=
  checkAware snapshot now <|
    if dte state now ≤ config.exitByDte then .dteGuard
    else if pastHardExit config state now then .timeExit
    else if state.targetPnl ≤ snapshot.executablePnl then .redeploySamePair
    -- a breach before the adjustment window opens is held
    else if confirmedBreach config snapshot now ∧
      config.breachAdjustWindowDaysStart ≤ daysHeld state now then
      if daysHeld state now ≤ config.breachAdjustWindowDays then .recentre else .closeBreachLate
    else if offCentre config state snapshot now then .recentreOffCentre
    else .hold

/-- The two variants. -/
inductive Variant where
  /-- The monthly calendar. -/
  | monthly
  /-- The bi-weekly calendar. -/
  | biweekly
  deriving DecidableEq

/-- The exit rule of a variant. -/
def Variant.evaluate : Variant → CalendarVariantConfig → CycleExitState → ExitSnapshot → Stamp →
    Except ExitRuleError ExitDecision
  | .monthly => MonthlyExitRule.evaluate
  | .biweekly => BiweeklyExitRule.evaluate

/-! ### When a breach is confirmed -/

theorem mem_windowEntries {config : CalendarVariantConfig} {snapshot : ExitSnapshot} {now : Stamp}
    {c : SpotClose} :
    c ∈ windowEntries config snapshot now ↔ c ∈ snapshot.spotCloses ∧
      (now.micros : ℤ) - windowDelta config ≤ c.stamp.micros ∧ c.stamp.micros ≤ now.micros := by
  rw [windowEntries, List.mem_filter, decide_eq_true_eq]

/-- **The samples of the window span it** only with one exactly at its start and one
exactly now: none lies outside, so the first and the last can be no further apart. -/
theorem spansWindow_iff {config : CalendarVariantConfig} {snapshot : ExitSnapshot} {now : Stamp} :
    spansWindow config (windowEntries config snapshot now) = true ↔
      2 ≤ (windowEntries config snapshot now).length ∧
        (∃ c ∈ windowEntries config snapshot now, (c.stamp.micros : ℤ) = now.micros - windowDelta config) ∧
        ∃ c ∈ windowEntries config snapshot now, c.stamp.micros = now.micros := by
  have hin : ∀ m ∈ times (windowEntries config snapshot now),
      (now.micros : ℤ) - windowDelta config ≤ (m : ℤ) ∧ m ≤ now.micros := by
    intro m hm
    obtain ⟨c, hc, rfl⟩ := List.mem_map.mp hm
    exact (mem_windowEntries.mp hc).2
  rw [spansWindow, Bool.and_eq_true, decide_eq_true_eq]
  refine and_congr_right fun hlen => ?_
  cases hmin : (times (windowEntries config snapshot now)).min? with
  | none =>
    rw [List.min?_eq_none_iff, times, List.map_eq_nil_iff] at hmin
    rw [hmin] at hlen
    exact absurd hlen (by simp)
  | some earliest =>
    cases hmax : (times (windowEntries config snapshot now)).max? with
    | none =>
      rw [List.max?_eq_none_iff, times, List.map_eq_nil_iff] at hmax
      rw [hmax] at hlen
      exact absurd hlen (by simp)
    | some latest =>
      obtain ⟨hearliest, hle⟩ := List.min?_eq_some_iff.mp hmin
      obtain ⟨hlatest, hge⟩ := List.max?_eq_some_iff.mp hmax
      have h1 := hin earliest hearliest
      have h2 := hin latest hlatest
      simp only [decide_eq_true_eq]
      constructor
      · intro hspan
        obtain ⟨c, hc, hcm⟩ := List.mem_map.mp hearliest
        obtain ⟨d, hd, hdm⟩ := List.mem_map.mp hlatest
        refine ⟨⟨c, hc, ?_⟩, d, hd, ?_⟩
        · rw [hcm]
          omega
        · rw [hdm]
          omega
      · rintro ⟨⟨c, hc, hcm⟩, d, hd, hdm⟩
        have h3 := hle c.stamp.micros (List.mem_map.mpr ⟨c, hc, rfl⟩)
        have h4 := hge d.stamp.micros (List.mem_map.mpr ⟨d, hd, rfl⟩)
        omega

/-- Every sample of the window is below the lower breakeven. -/
def AllBelow (config : CalendarVariantConfig) (snapshot : ExitSnapshot) (now : Stamp) : Prop :=
  ∀ c ∈ windowEntries config snapshot now, c.spot < snapshot.breakevenLow

/-- Every sample of the window is above the upper breakeven. -/
def AllAbove (config : CalendarVariantConfig) (snapshot : ExitSnapshot) (now : Stamp) : Prop :=
  ∀ c ∈ windowEntries config snapshot now, snapshot.breakevenHigh < c.spot

/-- The samples reach back to the window's start and are all beyond one breakeven. -/
def Sustained (config : CalendarVariantConfig) (snapshot : ExitSnapshot) (now : Stamp) : Prop :=
  (∃ c ∈ snapshot.spotCloses, (c.stamp.micros : ℤ) ≤ now.micros - windowDelta config) ∧
    (AllBelow config snapshot now ∨ AllAbove config snapshot now)

/-- The rule returns the re-centre or the late-breach close. -/
def ActsOnBreach (v : Variant) (config : CalendarVariantConfig) (state : CycleExitState)
    (snapshot : ExitSnapshot)
    (now : Stamp) : Prop :=
  v.evaluate config state snapshot now = .ok .recentre ∨
    v.evaluate config state snapshot now = .ok .closeBreachLate

/-- A sustained breach is acted on, and nothing else is taken for one. -/
def DetectsBreach (v : Variant) (config : CalendarVariantConfig) (state : CycleExitState)
    (snapshot : ExitSnapshot)
    (now : Stamp) : Prop :=
  (Sustained config snapshot now → ActsOnBreach v config state snapshot now) ∧
    (¬(AllBelow config snapshot now ∨ AllAbove config snapshot now) →
      ¬ActsOnBreach v config state snapshot now)

/-- What the rules need beside a sustained breach. -/
structure Confirmable (v : Variant) (config : CalendarVariantConfig) (state : CycleExitState)
    (snapshot : ExitSnapshot)
    (now : Stamp) : Prop where
  /-- Every datetime has a timezone. -/
  aware : now.aware = true ∧ ∀ c ∈ snapshot.spotCloses, c.stamp.aware = true
  /-- The near expiry is far enough. -/
  dte : config.exitByDte < dte state now
  /-- The hard exit is to come. -/
  timeExit : pastHardExit config state now = false
  /-- The target is not met. -/
  target : snapshot.executablePnl < state.targetPnl
  /-- The bi-weekly adjustment window is open. -/
  held : v = .biweekly → config.breachAdjustWindowDaysStart ≤ daysHeld state now
  /-- Current spot is beyond the same breakeven as the samples. -/
  spot : (AllBelow config snapshot now ∧ snapshot.spot < snapshot.breakevenLow) ∨
    (AllAbove config snapshot now ∧ snapshot.breakevenHigh < snapshot.spot)
  /-- Two samples are in the window. -/
  two : 2 ≤ (windowEntries config snapshot now).length
  /-- One sample is exactly at the start of the window. -/
  start : ∃ c ∈ snapshot.spotCloses, (c.stamp.micros : ℤ) = now.micros - windowDelta config
  /-- One sample is exactly now. -/
  now : ∃ c ∈ snapshot.spotCloses, c.stamp.micros = now.micros

/-- A breach is confirmed when current spot and all samples are beyond one breakeven and the
samples fill the window to both edges. -/
theorem confirmedBreach_iff {config : CalendarVariantConfig} {snapshot : ExitSnapshot} {now : Stamp} :
    confirmedBreach config snapshot now = true ↔
      ((AllBelow config snapshot now ∧ snapshot.spot < snapshot.breakevenLow) ∨
        (AllAbove config snapshot now ∧ snapshot.breakevenHigh < snapshot.spot)) ∧
      2 ≤ (windowEntries config snapshot now).length ∧
      (∃ c ∈ snapshot.spotCloses, (c.stamp.micros : ℤ) = now.micros - windowDelta config) ∧
      ∃ c ∈ snapshot.spotCloses, c.stamp.micros = now.micros := by
  have hbeyond : (lowBreach snapshot (windowEntries config snapshot now) ||
      highBreach snapshot (windowEntries config snapshot now)) = true ↔
      ((AllBelow config snapshot now ∧ snapshot.spot < snapshot.breakevenLow) ∨
        (AllAbove config snapshot now ∧ snapshot.breakevenHigh < snapshot.spot)) := by
    simp [lowBreach, highBreach, AllBelow, AllAbove]
  rw [confirmedBreach, Bool.and_eq_true, spansWindow_iff, hbeyond, and_comm]
  refine and_congr_right fun _ => and_congr_right fun hlen => ?_
  -- the window is not empty, so its edges lie in it
  have hdelta : (0 : ℤ) ≤ windowDelta config := by
    obtain ⟨c, hc⟩ := List.exists_mem_of_length_pos (lt_of_lt_of_le Nat.zero_lt_two hlen)
    have := (mem_windowEntries.mp hc).2
    omega
  constructor
  · rintro ⟨⟨c, hc, hcm⟩, d, hd, hdm⟩
    exact ⟨⟨c, (mem_windowEntries.mp hc).1, hcm⟩, d, (mem_windowEntries.mp hd).1, hdm⟩
  · rintro ⟨⟨c, hc, hcm⟩, d, hd, hdm⟩
    refine ⟨⟨c, mem_windowEntries.mpr ⟨hc, ?_, ?_⟩, hcm⟩, d, mem_windowEntries.mpr ⟨hd, ?_, ?_⟩, hdm⟩
    all_goals omega

private theorem checkAware_eq_ok_iff {snapshot : ExitSnapshot} {now : Stamp} {d d' : ExitDecision} :
    checkAware snapshot now d = .ok d' ↔
      (now.aware = true ∧ ∀ c ∈ snapshot.spotCloses, c.stamp.aware = true) ∧ d = d' := by
  unfold checkAware
  split
  next h => simp [h]
  next h =>
    split
    next hany =>
      obtain ⟨c, hc, hnaive⟩ := List.any_eq_true.mp hany
      refine iff_of_false (by simp) fun hall => ?_
      rw [hall.1.2 c hc] at hnaive
      exact absurd hnaive (by decide)
    next hall =>
      have hall' : ∀ c ∈ snapshot.spotCloses, c.stamp.aware = true := by simpa using hall
      simp only [Except.ok.injEq, iff_and_self]
      exact fun _ => ⟨by simpa using h, hall'⟩

/-- **When a rule acts on a breach.** -/
theorem actsOnBreach_iff {v : Variant} {config : CalendarVariantConfig} {state : CycleExitState}
    {snapshot : ExitSnapshot} {now : Stamp} :
    ActsOnBreach v config state snapshot now ↔ Confirmable v config state snapshot now := by
  have hsplit : Confirmable v config state snapshot now ↔
      (now.aware = true ∧ ∀ c ∈ snapshot.spotCloses, c.stamp.aware = true) ∧
        config.exitByDte < dte state now ∧
        pastHardExit config state now = false ∧ snapshot.executablePnl < state.targetPnl ∧
        (v = .biweekly → config.breachAdjustWindowDaysStart ≤ daysHeld state now) ∧
        confirmedBreach config snapshot now = true := by
    rw [confirmedBreach_iff]
    constructor
    · rintro ⟨h1, h2, h3, h4, h5, h6, h7, h8, h9⟩
      exact ⟨h1, h2, h3, h4, h5, h6, h7, h8, h9⟩
    · rintro ⟨h1, h2, h3, h4, h5, h6, h7, h8, h9⟩
      exact ⟨h1, h2, h3, h4, h5, h6, h7, h8, h9⟩
  rw [hsplit, ActsOnBreach]
  cases v with
  | monthly =>
    rw [Variant.evaluate, MonthlyExitRule.evaluate, checkAware_eq_ok_iff, checkAware_eq_ok_iff,
      ← and_or_left]
    refine and_congr_right fun _ => ?_
    by_cases hdte : dte state now ≤ config.exitByDte
    · simp [hdte, not_lt.mpr hdte]
    · cases htime : pastHardExit config state now with
      | true => simp [hdte]
      | false =>
        by_cases htarget : state.targetPnl ≤ snapshot.executablePnl
        · simp [hdte, htarget, not_lt.mpr htarget]
        · cases hbreach : confirmedBreach config snapshot now with
          | false => simp [hdte, htarget]
          | true =>
            by_cases hheld : daysHeld state now < config.breachAdjustWindowDays <;>
              simp [hdte, htarget, hheld, not_le.mp hdte, not_le.mp htarget]
  | biweekly =>
    rw [Variant.evaluate, BiweeklyExitRule.evaluate, checkAware_eq_ok_iff, checkAware_eq_ok_iff,
      ← and_or_left]
    refine and_congr_right fun _ => ?_
    by_cases hdte : dte state now ≤ config.exitByDte
    · simp [hdte, not_lt.mpr hdte]
    · cases htime : pastHardExit config state now with
      | true => simp [hdte]
      | false =>
        by_cases htarget : state.targetPnl ≤ snapshot.executablePnl
        · simp [hdte, htarget, not_lt.mpr htarget]
        · by_cases hbreach : confirmedBreach config snapshot now = true ∧
            config.breachAdjustWindowDaysStart ≤ daysHeld state now
          · by_cases hheld : daysHeld state now ≤ config.breachAdjustWindowDays <;>
              simp [hdte, htarget, hheld, hbreach.1, hbreach.2, not_le.mp hdte, not_le.mp htarget]
          · rw [if_neg hdte, if_neg Bool.false_ne_true, if_neg htarget, if_neg hbreach]
            refine iff_of_false ?_ fun h => hbreach ⟨h.2.2.2.2, h.2.2.2.1 rfl⟩
            split <;> simp

/-- **Confirmed breach detection** holds exactly when a sustained breach finds the rule
free to act, spot beyond the same breakeven, and a sample on each edge of the window. -/
theorem detectsBreach_iff (v : Variant) (config : CalendarVariantConfig) (state : CycleExitState)
    (snapshot : ExitSnapshot) (now : Stamp) :
    DetectsBreach v config state snapshot now ↔
      (Sustained config snapshot now → Confirmable v config state snapshot now) := by
  rw [DetectsBreach, actsOnBreach_iff]
  refine and_iff_left fun hnot hconf => hnot ?_
  exact hconf.spot.imp And.left And.left

/-! ### The samples of the strategy -/

/-- `_record_spot`: the history with the sample of this tick, less the samples at its head
that are older than two windows. -/
def recordSpot (config : CalendarVariantConfig) (history : List SpotClose) (tick : SpotClose) :
    List SpotClose :=
  (history ++ [tick]).dropWhile fun c =>
    (c.stamp.micros : ℤ) < tick.stamp.micros - minutes (2 * config.breachConfirmMinutes)

/-- The history after a run of ticks. -/
def recordSpots (config : CalendarVariantConfig) (ticks : List SpotClose) : List SpotClose :=
  ticks.foldl (recordSpot config) []

theorem recordSpots_concat (config : CalendarVariantConfig) (ticks : List SpotClose) (tick : SpotClose) :
    recordSpots config (ticks ++ [tick]) = recordSpot config (recordSpots config ticks) tick := by
  simp [recordSpots]

private theorem mem_dropWhile {α : Type} {p : α → Bool} {a : α} (hp : p a = false) :
    ∀ {l : List α}, a ∈ l → a ∈ l.dropWhile p := by
  intro l
  induction l with
  | nil => exact fun h => h
  | cons b l ih =>
    intro h
    rw [List.dropWhile_cons]
    split
    next hb =>
      rcases List.mem_cons.mp h with rfl | h
      · rw [hp] at hb
        exact absurd hb (by decide)
      · exact ih h
    next => exact h

/-- **What the history keeps**: the ticks of the last two windows, whatever their times,
while no tick is earlier than one before it. -/
theorem mem_recordSpots {config : CalendarVariantConfig} {ticks : List SpotClose} {tick c : SpotClose}
    (hsorted : (ticks ++ [tick]).Pairwise fun a b => a.stamp.micros ≤ b.stamp.micros)
    (hc : c ∈ ticks ++ [tick])
    (hrecent : (tick.stamp.micros : ℤ) - minutes (2 * config.breachConfirmMinutes) ≤ c.stamp.micros) :
    c ∈ recordSpots config (ticks ++ [tick]) := by
  induction ticks using List.reverseRecOn generalizing tick with
  | nil =>
    rw [recordSpots_concat]
    exact mem_dropWhile (by simpa using hrecent) hc
  | append_singleton ticks last ih =>
    rw [recordSpots_concat]
    refine mem_dropWhile (by simpa using hrecent) ?_
    rcases List.mem_append.mp hc with hc | hc
    · -- a sample old enough to go at this tick would not have been recent now
      have hlast : last.stamp.micros ≤ tick.stamp.micros :=
        (List.pairwise_append.mp hsorted).2.2 last (by simp) tick (by simp)
      exact List.mem_append_left _ (ih (List.pairwise_append.mp hsorted).1 hc (by omega))
    · exact List.mem_append_right _ hc

/-! ### Ticks that miss the edge of the window -/

/-- Ticks at 10:58:02, 11:12:40 and 11:30:07, all below the lower breakeven. -/
def offEdgeTicks : List SpotClose :=
  [⟨{ micros := 739791 * 86400000000 + 39482000000 }, 23400⟩,
    ⟨{ micros := 739791 * 86400000000 + 40360000000 }, 23380⟩,
    ⟨{ micros := 739791 * 86400000000 + 41407000000 }, 23350⟩]

/-- The snapshot of the last of these ticks. -/
def offEdgeSnapshot : ExitSnapshot where
  spot := 23350
  spotCloses := recordSpots monthly offEdgeTicks
  executablePnl := -800
  breakevenLow := 23500
  breakevenHigh := 24900

/-- A monthly cycle on its fourth day. -/
def offEdgeState : CycleExitState where
  entryDate := 739787
  entryShortStrike := 24200
  nearExpiry := 739811
  hardExitDate := 739801
  targetPnl := 3000

/-- Half an hour of samples below the breakeven is held. -/
theorem offEdge_not_detected :
    ¬DetectsBreach .monthly monthly offEdgeState offEdgeSnapshot
      ⟨true, 739791 * 86400000000 + 41407000000⟩ := by
  rintro ⟨hacts, -⟩
  have hsustained : Sustained monthly offEdgeSnapshot ⟨true, 739791 * 86400000000 + 41407000000⟩ := by
    refine ⟨⟨⟨{ micros := 739791 * 86400000000 + 39482000000 }, 23400⟩, by decide +kernel, by
      decide +kernel⟩, Or.inl ?_⟩
    unfold AllBelow
    decide +kernel
  have hhold : Variant.monthly.evaluate monthly offEdgeState offEdgeSnapshot
      ⟨true, 739791 * 86400000000 + 41407000000⟩ = .ok .hold := by
    decide +kernel
  rcases hacts hsustained with h | h
  · exact absurd (hhold.symm.trans h) (by decide)
  · exact absurd (hhold.symm.trans h) (by decide)

end NiftyShield.NiftyCalendar
