import NiftyShield.Lib.Rounding
import NiftyShield.NiftyCalendar.ExitRules
import NiftyShield.Paper.Positions

/-!
# The re-entry check

`ReEntryMixin._check_reentry` (`src/strategy/reentry_mixin.py`) and the exit events it reads
and writes (`create_exit_event`, `get_open_exit_events` of `src/paper/store.py`). The check
runs three gates and writes one event, eligible or blocked, unless an open event of today is
found for the leg. It compares the date of a UTC timestamp with a day in IST.

* `checkReentry_events`: what the check appends;
* `eligible_gates`: an eligible event passed all three gates;
* `atMostOnePerDay_checkReentry`: the check keeps the limit of one event a day where it sees
  the event of the day.

## Honest scope

The volatility rank is an input, missing when the history is short or does not load. A read
or the write of the check may fail, which the check survives. The columns of an exit event
that nothing here reads are left out, as are the messages.
-/

namespace NiftyShield.Strategy.ReEntry

open NiftyShield.Instruments NiftyShield.Lib NiftyShield.NiftyCalendar NiftyShield.Paper

/-! ### Exit events -/

/-- `ExitSignal`, as far as the check tells its values apart. -/
inductive ExitSignal where
  /-- `R5_REENTRY_ELIGIBLE`. -/
  | r5ReentryEligible
  /-- `R5_REENTRY_BLOCKED`. -/
  | r5ReentryBlocked
  /-- Any other. -/
  | other (value : String)
  deriving DecidableEq

/-- `status` of an exit event. -/
inductive EventStatus where
  /-- `OPEN`. -/
  | open
  /-- `ACKNOWLEDGED`. -/
  | acknowledged
  /-- `ACTED`. -/
  | acted
  /-- `DISMISSED`. -/
  | dismissed
  deriving DecidableEq

/-- A row of `paper_exit_events`. -/
structure ExitEvent where
  /-- `strategy_name`. -/
  strategyName : String
  /-- `leg_name`. -/
  legName : String
  /-- `trade_id`. -/
  tradeId : String
  /-- `event_time`, in microseconds UTC. -/
  eventTime : ℕ
  /-- `exit_signal`. -/
  exitSignal : ExitSignal
  /-- `dte`. -/
  dte : ℤ
  /-- `notes`. -/
  notes : String
  /-- `status`. -/
  status : EventStatus := .open
  deriving DecidableEq

/-- An eligible or a blocked event. -/
def ExitEvent.isReentry (ev : ExitEvent) : Bool :=
  ev.exitSignal = .r5ReentryEligible || ev.exitSignal = .r5ReentryBlocked

/-- The date of a UTC timestamp. -/
def utcDate (micros : ℕ) : Date := micros / dayMicros

/-- The day in IST, 5:30 hours ahead. -/
def istDate (micros : ℕ) : Date := (micros + 19800000000) / dayMicros

/-- `get_open_exit_events` of a strategy, in the order of the rows. -/
def openExitEvents (s : String) (events : List ExitEvent) : List ExitEvent :=
  events.filter fun ev => ev.strategyName = s && (ev.status = .open || ev.status = .acknowledged)

/-- The paper ledger and the exit events. -/
structure Desk where
  /-- `paper_trades`. -/
  trades : PaperTrades
  /-- `paper_exit_events`. -/
  events : List ExitEvent

/-! ### The mixin -/

/-- Why a gate blocks: a short reason and a detail. -/
abbrev Block := String × Option String

/-- `_block_notes`. -/
def blockNotes (block : Block) : String :=
  match block.2.filter (· ≠ "") with
  | some detail => block.1 ++ " (" ++ detail ++ ")"
  | none => block.1

/-- Two decimals, as `:.2f`. -/
def fixed2 (q : ℚ) : String :=
  let n := roundHalfEven (q * 100)
  (if n < 0 then "-" else "") ++ toString (n.natAbs / 100) ++ "." ++ Date.padded 2 (n.natAbs % 100)

/-- The attributes and hooks of a `ReEntryMixin` strategy. -/
structure ReEntryMixin where
  /-- `strategy_name`. -/
  strategyName : String
  /-- `reentry_leg_role`. -/
  reentryLegRole : String
  /-- `reentry_min_dte`. -/
  reentryMinDte : ℤ := 14
  /-- `_ivr_passes`: `none`, or why it does not. -/
  ivrBlock : ℚ → Option Block
  /-- `_reentry_position_active`. -/
  reentryPositionActive : PaperPosition → Bool

/-- `_ivr_passes` of the mixin: blocks a low rank. -/
def lowIvrBlock (threshold ivr : ℚ) : Option Block :=
  if ivr < threshold then some ("IVR=" ++ fixed2 ivr ++ " < " ++ fixed2 threshold, some "Low vol, skip cycle") else none

/-- `_ivr_passes` of the protective put: blocks a high rank. -/
def highIvrBlock (threshold ivr : ℚ) : Option Block :=
  if threshold < ivr then some ("IVR=" ++ fixed2 ivr ++ " > " ++ fixed2 threshold, some "High vol, skip cycle") else none

/-- `_reentry_position_active` of the mixin: a short position in the role. -/
def shortIn (role : String) (p : PaperPosition) : Bool := p.legRole = role && p.netQty < 0

/-- What one check reads besides the ledger, and how its store calls end. -/
structure CheckEnv where
  /-- The volatility rank, if it can be computed. -/
  ivr : Option ℚ
  /-- The time of the event, in microseconds UTC. -/
  writtenAt : ℕ
  /-- `get_open_exit_events` returns. -/
  eventsRead : Bool := true
  /-- `get_positions` returns. -/
  positionsRead : Bool := true
  /-- `create_exit_event` returns. -/
  eventWritten : Bool := true

namespace ReEntryMixin

variable (r : ReEntryMixin) (env : CheckEnv) (lookup : Option InstrumentLookup) (today : Date)
  (expiry : Option Date)

/-- The events of the leg, of whatever day. -/
def isNotice (ev : ExitEvent) : Bool :=
  ev.strategyName = r.strategyName && ev.legName = r.reentryLegRole && ev.isReentry

/-- An open event of the leg has today's date, as the check compares dates. -/
def alreadyEvaluated (events : List ExitEvent) : Bool :=
  (openExitEvents r.strategyName events).any fun ev =>
    ev.legName = r.reentryLegRole && ev.isReentry && utcDate ev.eventTime = today

/-- `dte`. -/
def checkDte : ℤ := expiry.elim 0 (Date.daysBetween today)

/-- The third gate. -/
def positionBlock (T : PaperTrades) : Option Block :=
  if env.positionsRead = false then some ("Open position check failed", some "Cannot verify gate 3")
  else if (T.getPositions lookup r.strategyName).any r.reentryPositionActive then
    some ("Position already active", none)
  else none

/-- The three gates: the first that blocks. -/
def gateBlock (T : PaperTrades) : Option Block :=
  if expiry = none ∨ checkDte today expiry < r.reentryMinDte then
    some ("DTE=" ++ toString (checkDte today expiry) ++ " < " ++ toString r.reentryMinDte, some "Too close to expiry")
  else
    match env.ivr with
    | none => some ("IVR history insufficient", some "Cannot verify R3")
    | some ivr =>
      match r.ivrBlock ivr with
      | some block => some block
      | none => r.positionBlock env lookup T

/-- The event the check writes. -/
def noticeEvent (T : PaperTrades) : ExitEvent where
  strategyName := r.strategyName
  legName := r.reentryLegRole
  tradeId := "0"
  eventTime := env.writtenAt
  exitSignal :=
    match r.gateBlock env lookup today expiry T with
    | none => .r5ReentryEligible
    | some _ => .r5ReentryBlocked
  dte := checkDte today expiry
  notes :=
    match r.gateBlock env lookup today expiry T with
    | none => "All " ++ r.reentryLegRole ++ " re-entry gates passed"
    | some block => blockNotes block

/-- `_check_reentry`. -/
def checkReentry (d : Desk) : Desk :=
  if env.eventsRead && r.alreadyEvaluated today d.events then d
  else if env.eventWritten then { d with events := d.events ++ [r.noticeEvent env lookup today expiry d.trades] }
  else d

variable {r env lookup today expiry} {d : Desk}

@[simp] theorem checkReentry_trades : (r.checkReentry env lookup today expiry d).trades = d.trades := by
  unfold checkReentry
  split
  · rfl
  · split <;> rfl

/-- **What the check appends**: nothing, or one event of its leg, if no open event of today
was seen. -/
theorem checkReentry_events :
    (r.checkReentry env lookup today expiry d).events = d.events ∨
      ((env.eventsRead && r.alreadyEvaluated today d.events) = false ∧ env.eventWritten = true ∧
        (r.checkReentry env lookup today expiry d).events =
          d.events ++ [r.noticeEvent env lookup today expiry d.trades]) := by
  unfold checkReentry
  cases hseen : env.eventsRead && r.alreadyEvaluated today d.events with
  | true => exact Or.inl rfl
  | false =>
    cases hwritten : env.eventWritten with
    | true => exact Or.inr ⟨rfl, rfl, rfl⟩
    | false => exact Or.inl rfl

/-- **An eligible event** passed the gates: at the check there was no active position. -/
theorem eligible_gates {T : PaperTrades}
    (h : (r.noticeEvent env lookup today expiry T).exitSignal = .r5ReentryEligible) :
    ∀ p ∈ T.getPositions lookup r.strategyName, r.reentryPositionActive p = false := by
  have hgate : r.gateBlock env lookup today expiry T = none := by
    cases hblock : r.gateBlock env lookup today expiry T with
    | none => rfl
    | some block => exact absurd h (by simp [noticeEvent, hblock])
  have hposition : r.positionBlock env lookup T = none := by
    unfold gateBlock at hgate
    split at hgate
    next => exact absurd hgate (by simp)
    next =>
      split at hgate
      next => exact absurd hgate (by simp)
      next =>
        split at hgate
        next => exact absurd hgate (by simp)
        next => exact hgate
  unfold positionBlock at hposition
  split at hposition
  next => exact absurd hposition (by simp)
  next =>
    split at hposition
    next => exact absurd hposition (by simp)
    next hany =>
      intro p hp
      by_contra hactive
      exact hany (List.any_eq_true.mpr ⟨p, hp, Bool.not_eq_false _ |>.mp hactive⟩)

end ReEntryMixin

/-! ### One event a day -/

/-- Two events of one leg and one IST day. -/
def SameNotice (a b : ExitEvent) : Prop :=
  a.isReentry = true ∧ b.isReentry = true ∧ a.strategyName = b.strategyName ∧ a.legName = b.legName ∧
    istDate a.eventTime = istDate b.eventTime

/-- At most one re-entry event for each leg of a strategy and each IST day. -/
def AtMostOnePerDay (events : List ExitEvent) : Prop := events.Pairwise fun a b => ¬SameNotice a b

namespace ReEntryMixin

variable {r : ReEntryMixin} {env : CheckEnv} {lookup : Option InstrumentLookup} {today : Date}
  {expiry : Option Date} {d : Desk}

/-- The check sees the event of the day it writes on, if there is one. -/
def SeesToday (r : ReEntryMixin) (env : CheckEnv) (today : Date) (events : List ExitEvent) : Prop :=
  ∀ ev ∈ events, r.isNotice ev = true → istDate ev.eventTime = istDate env.writtenAt →
    env.eventsRead = true ∧ ∃ seen ∈ openExitEvents r.strategyName events, r.isNotice seen = true ∧
      utcDate seen.eventTime = today

theorem alreadyEvaluated_iff {events : List ExitEvent} :
    r.alreadyEvaluated today events = true ↔ ∃ seen ∈ openExitEvents r.strategyName events,
      r.isNotice seen = true ∧ utcDate seen.eventTime = today := by
  rw [alreadyEvaluated, List.any_eq_true]
  refine exists_congr fun ev => and_congr_right fun hev => ?_
  have hs : ev.strategyName = r.strategyName := by
    have h := (List.mem_filter.mp hev).2
    rw [Bool.and_eq_true, decide_eq_true_iff] at h
    exact h.1
  simp [isNotice, hs, and_assoc]

/-- **The check keeps the limit** where it sees the event of the day. -/
theorem atMostOnePerDay_checkReentry (h : AtMostOnePerDay d.events) (hsees : r.SeesToday env today d.events) :
    AtMostOnePerDay (r.checkReentry env lookup today expiry d).events := by
  rcases @checkReentry_events r env lookup today expiry d with heq | ⟨hunseen, -, heq⟩
  · rwa [heq]
  · rw [heq, AtMostOnePerDay]
    refine List.pairwise_append.mpr ⟨h, List.pairwise_singleton _ _, fun a ha b hb => ?_⟩
    rw [List.mem_singleton.mp hb]
    rintro ⟨hre, -, hs, hl, hday⟩
    have hnotice : r.isNotice a = true := by
      rw [isNotice, hs, hl, hre]
      simp [noticeEvent]
    obtain ⟨hread, hseen⟩ := hsees a ha hnotice hday
    rw [hread, Bool.true_and, alreadyEvaluated_iff.mpr hseen] at hunseen
    exact absurd hunseen (by simp)

end ReEntryMixin

end NiftyShield.Strategy.ReEntry
