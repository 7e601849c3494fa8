import NiftyShield.Lib.Run
import NiftyShield.Lib.Streak
import NiftyShield.MarketCalendar.Holidays
import NiftyShield.Strategy.TrackComparison

/-!
# The days a proxy is below its critical delta

`check_signals` of the three tracks reads the breach count of a track, passes it to
`evaluate_proxy_delta` as `days_below_critical`, and writes it back raised by one or reset
(`get_proxy_delta_breach_count` and `set_proxy_delta_breach_count` of
`src/paper/store.py`). It does so at every call, however many there are on one day.

## What is proved

`count_checkSignals`: what a call does to the count of a track. `counts_days_iff`: in a run
of ticks that each look at one proxy call of a track at most, the stored count is the number
of consecutive trading days the breach was seen on, at every moment, exactly when each tick
meets `CountsOneDay`; and then `PROXY_DELTA_CRITICAL` is never raised before the third day.

## Honest scope

As in `TrackComparison`. A tick outside the trading days is one of the monitor: it returns
before any `check_signals`.
-/

namespace NiftyShield.Strategy.TrackComparison

open NiftyShield.Instruments NiftyShield.Lib NiftyShield.Lib.Run NiftyShield.MarketCalendar NiftyShield.Paper

/-! ### What a call does to the counts -/

/-- The count `get_proxy_delta_breach_count` reads. -/
def breachCount (breaches : Dict String ℕ) (track : String) : ℕ := (breaches.get? track).getD 0

/-- The delta a call reads for a proxy call; `none` where it goes on to the next position. -/
def proxyDelta (w : World) (market : OptionChain) (pos : PaperPosition) : Option ℚ :=
  (findOptionLeg pos.instrumentKey market w.lookup).bind (·.delta)

/-- The deltas a call reads for the proxy calls of a track. -/
def proxyDeltas (w : World) (market : OptionChain) (track : String) (positions : List PaperPosition) : List ℚ :=
  (positions.filter fun pos => pos.strategyName = track && isProxyBase pos).filterMap (proxyDelta w market)

/-- The new count of a track. -/
def nextCount (count : ℕ) (delta : ℚ) : ℕ := if delta < proxyDeltaCritical then count + 1 else 0

theorem proxyDeltas_cons (w : World) (market : OptionChain) (track : String) (pos : PaperPosition)
    (rest : List PaperPosition) : proxyDeltas w market track (pos :: rest) =
      proxyDeltas w market track [pos] ++ proxyDeltas w market track rest := by
  simp only [proxyDeltas]
  rw [← List.filterMap_append, ← List.filter_append, List.singleton_append]

theorem proxyEvents_snd (w : World) (market : OptionChain) (pos : PaperPosition) (dte : Option ℤ)
    (breaches : Dict String ℕ) : (proxyEvents w market pos dte (some breaches)).2 =
      match proxyDelta w market pos with
      | none => some breaches
      | some delta =>
        some (breaches.set pos.strategyName (nextCount (breachCount breaches pos.strategyName) delta)) := by
  unfold proxyEvents proxyDelta
  cases findOptionLeg pos.instrumentKey market w.lookup with
  | none => rfl
  | some leg =>
    cases hdelta : leg.delta with
    | none => simp [hdelta]
    | some delta => simp [hdelta, breachCount, nextCount]

/-- One position changes the count of its own track only. -/
theorem count_checkPosition (w : World) (market : OptionChain) (positions : List PaperPosition)
    (pos : PaperPosition) (breaches : Dict String ℕ) :
    ∃ after, (checkPosition w market positions pos (some breaches)).2 = some after ∧
      ∀ track ∈ trackStrategyNames, breachCount after track =
        (proxyDeltas w market track [pos]).foldl nextCount (breachCount breaches track) := by
  have hkeep : ∀ track, (pos.strategyName = track && isProxyBase pos) = false →
      breachCount breaches track =
        (proxyDeltas w market track [pos]).foldl nextCount (breachCount breaches track) := by
    intro track h
    simp [proxyDeltas, h]
  unfold checkPosition
  split
  next hnot =>
    refine ⟨breaches, rfl, fun track htrack => hkeep track ?_⟩
    have hne : pos.strategyName ≠ track := fun h => hnot (h ▸ htrack)
    simp [hne]
  split
  next hother =>
    refine ⟨breaches, rfl, fun track _ => hkeep track ?_⟩
    have hbase : isProxyBase pos = false := by simp_all
    simp [hbase]
  simp only
  split
  next hbase =>
    rw [proxyEvents_snd]
    cases hdelta : proxyDelta w market pos with
    | none =>
      refine ⟨breaches, rfl, fun track _ => ?_⟩
      simp only [proxyDeltas, List.filter_cons, List.filter_nil]
      split <;> simp [hdelta]
    | some delta =>
      refine ⟨_, rfl, fun track _ => ?_⟩
      by_cases hname : pos.strategyName = track
      · simp [proxyDeltas, hname, hbase, hdelta, breachCount, Dict.get?_set]
      · rw [← hkeep track (by simp [hname])]
        simp [breachCount, Dict.get?_set, Ne.symm hname]
  next hbase =>
    exact ⟨breaches, rfl, fun track _ => hkeep track (by simp [hbase])⟩

theorem count_checkFrom (w : World) (market : OptionChain) (positions : List PaperPosition) :
    ∀ (l : List PaperPosition) (breaches : Dict String ℕ),
      ∃ after, (checkFrom w market positions l (some breaches)).2 = some after ∧
        ∀ track ∈ trackStrategyNames, breachCount after track =
          (proxyDeltas w market track l).foldl nextCount (breachCount breaches track)
  | [], breaches => ⟨breaches, rfl, fun _ _ => rfl⟩
  | pos :: rest, breaches => by
    obtain ⟨mid, hmid, hcount⟩ := count_checkPosition w market positions pos breaches
    obtain ⟨after, hafter, hrest⟩ := count_checkFrom w market positions rest mid
    refine ⟨after, ?_, fun track htrack => ?_⟩
    · rw [← hafter, ← hmid]
      rfl
    · rw [hrest track htrack, hcount track htrack, proxyDeltas_cons w market track pos rest,
        List.foldl_append]

/-- **A call** goes once over the proxy calls of a track, and each with a delta raises the
count or resets it. -/
theorem count_checkSignals (w : World) (market : OptionChain) (positions : List PaperPosition)
    (breaches : Dict String ℕ) :
    ∃ after, (checkSignals w market positions (some breaches)).2 = some after ∧
      ∀ track ∈ trackStrategyNames, breachCount after track =
        (proxyDeltas w market track positions).foldl nextCount (breachCount breaches track) :=
  count_checkFrom w market positions positions breaches

/-! ### The signal of three days -/

/-- `PROXY_DELTA_CRITICAL` about a track. -/
def CriticalOf (track : String) (e : SignalEvent) : Prop :=
  e.eventType = "PROXY_DELTA_CRITICAL" ∧ PyValue.lookup e.payload "track" = some (.str track)

theorem rollEvent_eventType {w : World} {market : OptionChain} {pos : PaperPosition} {dte baseDte : ℤ}
    {res : ExitSignalResult} {e : SignalEvent} (h : rollEvent w market pos dte baseDte res = some e) :
    e.eventType = "ROLL_ELIGIBLE" ∨ e.eventType = "ROLL_BASE_FIRST" := by
  unfold rollEvent at h
  split at h
  · obtain rfl := Option.some.inj h
    exact Or.inl rfl
  split at h
  · obtain rfl := Option.some.inj h
    exact Or.inr rfl
  · exact absurd h (by simp)

theorem rollEligibleEvents_eventType {w : World} {market : OptionChain} {positions : List PaperPosition}
    {pos : PaperPosition} {dte : ℤ} {e : SignalEvent}
    (h : e ∈ rollEligibleEvents w market positions pos dte) :
    e.eventType ∈ ["ROLL_ELIGIBLE", "ROLL_BASE_FIRST", "ROLL_DUE_DTE"] := by
  unfold rollEligibleEvents at h
  simp only at h
  split at h
  · obtain rfl := List.mem_singleton.mp h
    simp
  · obtain ⟨res, -, hres⟩ := List.mem_filterMap.mp h
    rcases rollEvent_eventType hres with hk | hk <;> simp [hk]

theorem rollDueEvent_eventType (w : World) (market : OptionChain) (pos : PaperPosition) (dte : ℤ) :
    (rollDueEvent w market pos dte).eventType = "ROLL_DUE_DTE" := by
  unfold rollDueEvent
  split <;> rfl

theorem decayEvent_eventType {w : World} {market : OptionChain} {pos : PaperPosition} {dte : Option ℤ}
    {e : SignalEvent} (h : decayEvent w market pos dte = some e) : e.eventType = "ROLL_DUE_DECAY" := by
  unfold decayEvent at h
  split at h
  · obtain ⟨optionLeg, -, h⟩ := Option.bind_eq_some_iff.mp h
    simp only at h
    split at h
    · split at h
      · obtain rfl := Option.some.inj h
        rfl
      · obtain rfl := Option.some.inj h
        rfl
    · exact absurd h (by simp)
  · exact absurd h (by simp)

/-- No event of an overlay is about the proxy. -/
theorem overlayEvents_not_critical {w : World} {market : OptionChain} {positions : List PaperPosition}
    {pos : PaperPosition} {expiry : Option Date} {e : SignalEvent}
    (h : e ∈ overlayEvents w market positions pos expiry) : e.eventType ≠ "PROXY_DELTA_CRITICAL" := by
  unfold overlayEvents at h
  simp only at h
  split at h
  · obtain rfl := List.mem_singleton.mp h
    simp [expiredEvent]
  rcases List.mem_append.mp h with hdte | hdecay
  · split at hdte
    · exact absurd hdte (by simp)
    split at hdte
    · have := rollEligibleEvents_eventType hdte
      intro heq
      simp [heq] at this
    split at hdte
    · rw [List.mem_singleton.mp hdte, rollDueEvent_eventType]
      decide
    · exact absurd hdte (by simp)
  · rw [decayEvent_eventType (Option.mem_toList.mp hdecay)]
    decide

/-- The signal needs a delta below the critical one and a count of three before it. -/
theorem evaluateProxyDelta_critical {text : NumberText} {delta mark : ℚ} {dte : ℤ} {days : ℕ}
    {res : ExitSignalResult} (h : res ∈ evaluateProxyDelta text delta mark dte days)
    (hcritical : res.exitSignal = "PROXY_DELTA_CRITICAL") : delta < proxyDeltaCritical ∧ 3 ≤ days := by
  unfold evaluateProxyDelta sortResults at h
  rw [List.mem_insertionSort, List.mem_append, List.mem_append] at h
  rcases h with (h | h) | h
  · split at h
    next hfired => exact hfired
    next => exact absurd h (by simp)
  · split at h
    · obtain rfl := List.mem_singleton.mp h
      have htext : "PROXY_PREMIUM_DECAY" = "PROXY_DELTA_CRITICAL" := hcritical
      exact absurd htext (by decide)
    · exact absurd h (by simp)
  · split at h
    · obtain rfl := List.mem_singleton.mp h
      have htext : "PROXY_DELTA_WARN" = "PROXY_DELTA_CRITICAL" := hcritical
      exact absurd htext (by decide)
    · exact absurd h (by simp)

theorem checkPosition_critical {w : World} {market : OptionChain} {positions : List PaperPosition}
    {pos : PaperPosition} {breaches : Dict String ℕ} {track : String} {e : SignalEvent}
    (he : e ∈ (checkPosition w market positions pos (some breaches)).1) (hcritical : CriticalOf track e) :
    ∃ delta < proxyDeltaCritical, proxyDeltas w market track [pos] = [delta] ∧
      3 ≤ breachCount breaches track := by
  unfold checkPosition at he
  split at he
  · exact absurd he (by simp)
  split at he
  · exact absurd he (by simp)
  simp only at he
  split at he
  next hbase =>
    unfold proxyEvents at he
    split at he
    · exact absurd he (by simp)
    next leg delta hleg =>
      obtain ⟨res, hres, rfl⟩ := List.mem_map.mp he
      obtain ⟨hbelow, hdays⟩ := evaluateProxyDelta_critical hres hcritical.1
      have hname : pos.strategyName = track := by
        have hlookup := hcritical.2
        simp only [payloadBase] at hlookup
        split at hlookup
        · exact PyValue.str.inj (Option.some.inj hlookup)
        · exact PyValue.str.inj (Option.some.inj hlookup)
      have hdelta : proxyDelta w market pos = some delta := by
        obtain ⟨leg', hfound, hmap⟩ := Option.bind_eq_some_iff.mp hleg
        obtain ⟨delta', hd, hpair⟩ := Option.map_eq_some_iff.mp hmap
        obtain ⟨rfl, rfl⟩ := Prod.mk.inj hpair
        exact Option.bind_eq_some_iff.mpr ⟨leg', hfound, hd⟩
      refine ⟨delta, hbelow, ?_, ?_⟩
      · simp [proxyDeltas, hname, hbase, hdelta]
      · rw [← hname]
        exact hdays
  next => exact absurd hcritical.1 (overlayEvents_not_critical he)

/-- The signal about a track comes from one of its deltas, after a count of three. -/
theorem checkFrom_critical {w : World} {market : OptionChain} {positions : List PaperPosition} {track : String}
    (htrack : track ∈ trackStrategyNames) {e : SignalEvent} (hcritical : CriticalOf track e) :
    ∀ {l : List PaperPosition} {breaches : Dict String ℕ},
      e ∈ (checkFrom w market positions l (some breaches)).1 →
      ∃ before delta after, proxyDeltas w market track l = before ++ delta :: after ∧
        delta < proxyDeltaCritical ∧ 3 ≤ before.foldl nextCount (breachCount breaches track)
  | [], _, he => absurd he (by simp [checkFrom])
  | pos :: rest, breaches, he => by
    obtain ⟨mid, hmid, hcount⟩ := count_checkPosition w market positions pos breaches
    rw [proxyDeltas_cons]
    have he : e ∈ (checkPosition w market positions pos (some breaches)).1 ++
        (checkFrom w market positions rest (checkPosition w market positions pos (some breaches)).2).1 := he
    rcases List.mem_append.mp he with hhere | hlater
    · obtain ⟨delta, hbelow, hdeltas, hthree⟩ := checkPosition_critical hhere hcritical
      exact ⟨[], delta, _, by rw [hdeltas]; rfl, hbelow, hthree⟩
    · rw [hmid] at hlater
      obtain ⟨before, delta, after, hdeltas, hbelow, hthree⟩ := checkFrom_critical htrack hcritical hlater
      refine ⟨proxyDeltas w market track [pos] ++ before, delta, after, ?_, hbelow, ?_⟩
      · rw [hdeltas, List.append_assoc]
      · rw [List.foldl_append, ← hcount track htrack]
        exact hthree

/-! ### Ticks -/

/-- One tick of the monitor: a call of `check_signals`, some days after the last. -/
structure ProxyTick where
  /-- The days since the tick before. -/
  daysLater : ℕ
  /-- The chain. -/
  market : OptionChain
  /-- The positions. -/
  positions : List PaperPosition
  /-- The BOD lookup, if it loads. -/
  lookup : Option InstrumentLookup := none
  /-- What `_fetch_next_chain` returns. -/
  nextChain : Option OptionChain := none
  /-- How numbers are printed. -/
  text : NumberText

/-- What the calls have written, and what they have seen. -/
structure ProxyState where
  /-- The day of the last tick. -/
  today : Date
  /-- The `proxy_delta_breach_count` column. -/
  breaches : Dict String ℕ := Dict.empty
  /-- The track and the day of every delta seen below the critical one. -/
  seen : List (String × Date) := []
  /-- The events of the last tick. -/
  events : List SignalEvent := []

namespace ProxyTick

variable (holidays : Holidays)

/-- What the call meets. -/
def world (t : ProxyTick) (today : Date) : World :=
  { today, lookup := t.lookup, nextChain := t.nextChain, text := t.text }

/-- The deltas the tick reads for a track; none outside the trading days. -/
def deltas (t : ProxyTick) (today : Date) (track : String) : List ℚ :=
  if isTradingDay holidays today then proxyDeltas (t.world today) t.market track t.positions else []

/-- The tracks the tick sees below the critical delta. -/
def breached (t : ProxyTick) (today : Date) : List String :=
  trackStrategyNames.filter fun track => (t.deltas holidays today track).any (· < proxyDeltaCritical)

end ProxyTick

namespace ProxyState

variable (holidays : Holidays)

/-- A tick. -/
def step (s : ProxyState) (t : ProxyTick) : ProxyState :=
  let today := s.today + t.daysLater
  let seen := s.seen ++ (t.breached holidays today).map (·, today)
  if isTradingDay holidays today then
    let (events, breaches) := checkSignals (t.world today) t.market t.positions (some s.breaches)
    { today, breaches := breaches.getD s.breaches, seen, events }
  else { today, breaches := s.breaches, seen, events := [] }

/-- The breach was seen on the day. -/
def seenOn (s : ProxyState) (track : String) (d : Date) : Bool := (track, d) ∈ s.seen

/-- The consecutive trading days up to today on which the breach was seen. -/
def breachDays (s : ProxyState) (track : String) : ℕ := streak (isTradingDay holidays) (s.seenOn track) s.today

/-- The stored counts are counts of days, and the signal of three days has had three. -/
def CountsDays (s : ProxyState) : Prop :=
  ∀ track ∈ trackStrategyNames, breachCount s.breaches track = s.breachDays holidays track ∧
    ∀ e ∈ s.events, CriticalOf track e → 3 ≤ s.breachDays holidays track

/-- The tick reads one delta of each track at most. -/
def OneDelta (s : ProxyState) (t : ProxyTick) : Prop :=
  ∀ track ∈ trackStrategyNames, (t.deltas holidays (s.today + t.daysLater) track).length ≤ 1

/-- What a tick that reads these deltas of a track must meet. Without a delta, no trading day
may have passed while the count is not zero. A delta above the critical one may only come on
a day without a breach. One below it must be the first of its day, and the count must be that
of the trading day before. -/
def CountsOneDay (s : ProxyState) (t : ProxyTick) (track : String) : List ℚ → Prop
  | [] => breachCount s.breaches track = 0 ∨
      ∀ d ∈ Finset.Ioc s.today (s.today + t.daysLater), isTradingDay holidays d = false
  | [delta] =>
    s.seenOn track (s.today + t.daysLater) = false ∧
      (delta < proxyDeltaCritical →
        if t.daysLater = 0 then streakBefore (isTradingDay holidays) (s.seenOn track) s.today = 0
        else breachCount s.breaches track = 0 ∨
          ∀ d ∈ Finset.Ioo s.today (s.today + t.daysLater), isTradingDay holidays d = false)
  | _ => False

/-- Every track meets it. -/
def OncePerDay (s : ProxyState) (t : ProxyTick) : Prop :=
  ∀ track ∈ trackStrategyNames,
    s.CountsOneDay holidays t track (t.deltas holidays (s.today + t.daysLater) track)

/-- Nothing has been seen after today. -/
def Past (s : ProxyState) : Prop := ∀ track d, s.today < d → s.seenOn track d = false

variable {holidays : Holidays}

@[simp] theorem step_today (s : ProxyState) (t : ProxyTick) :
    (s.step holidays t).today = s.today + t.daysLater := by
  unfold step
  simp only
  split <;> rfl

theorem step_seen (s : ProxyState) (t : ProxyTick) :
    (s.step holidays t).seen =
      s.seen ++ (t.breached holidays (s.today + t.daysLater)).map (·, s.today + t.daysLater) := by
  unfold step
  simp only
  split <;> rfl

/-- What a tick adds to the days a breach was seen on. -/
theorem step_seenOn {s : ProxyState} {t : ProxyTick} {track : String} (htrack : track ∈ trackStrategyNames)
    (d : Date) : (s.step holidays t).seenOn track d =
      (s.seenOn track d || (decide (d = s.today + t.daysLater) &&
        (t.deltas holidays (s.today + t.daysLater) track).any (· < proxyDeltaCritical))) := by
  unfold seenOn
  rw [step_seen, Bool.eq_iff_iff]
  simp only [decide_eq_true_eq, Bool.or_eq_true, Bool.and_eq_true, List.mem_append]
  refine or_congr Iff.rfl ?_
  simp only [ProxyTick.breached, List.mem_map, List.mem_filter, Prod.mk.injEq]
  constructor
  · rintro ⟨_, ⟨-, hany⟩, rfl, rfl⟩
    exact ⟨rfl, hany⟩
  · rintro ⟨rfl, hany⟩
    exact ⟨track, ⟨htrack, hany⟩, rfl, rfl⟩

/-- What a tick does to the count of a track. -/
theorem step_count (s : ProxyState) (t : ProxyTick) {track : String} (htrack : track ∈ trackStrategyNames) :
    breachCount (s.step holidays t).breaches track =
      (t.deltas holidays (s.today + t.daysLater) track).foldl nextCount (breachCount s.breaches track) := by
  unfold step ProxyTick.deltas
  simp only
  split
  · obtain ⟨after, hafter, hcount⟩ :=
      count_checkSignals (t.world (s.today + t.daysLater)) t.market t.positions s.breaches
    rw [← hcount track htrack]
    simp only [hafter, Option.getD_some]
  · rfl

/-- A tick that raises the signal about a track has a delta below the critical one, after a
count of three. -/
theorem step_critical {s : ProxyState} {t : ProxyTick} {track : String} (htrack : track ∈ trackStrategyNames)
    {e : SignalEvent} (he : e ∈ (s.step holidays t).events) (hcritical : CriticalOf track e) :
    ∃ before delta after, t.deltas holidays (s.today + t.daysLater) track = before ++ delta :: after ∧
      delta < proxyDeltaCritical ∧ 3 ≤ before.foldl nextCount (breachCount s.breaches track) := by
  unfold step at he
  unfold ProxyTick.deltas
  simp only at he
  split at he
  next hday =>
    rw [if_pos hday]
    exact checkFrom_critical htrack hcritical he
  next => exact absurd he (by simp)

theorem past_step (s : ProxyState) (t : ProxyTick) (h : s.Past) : (s.step holidays t).Past := by
  intro track d hd
  rw [step_today] at hd
  have hnew : (track, d) ∉ (t.breached holidays (s.today + t.daysLater)).map (·, s.today + t.daysLater) := by
    intro hmem
    obtain ⟨_, -, heq⟩ := List.mem_map.mp hmem
    exact hd.ne (Prod.mk.inj heq).2
  have hold := h track d (lt_of_le_of_lt (Nat.le_add_right _ _) hd)
  unfold seenOn at hold ⊢
  rw [step_seen]
  simp only [decide_eq_false_iff_not, List.mem_append, not_or] at hold ⊢
  exact ⟨hold, hnew⟩

/-- A tick that sees no breach of a track leaves the days on which it was seen. -/
theorem step_seenOn_of_none {s : ProxyState} {t : ProxyTick} {track : String}
    (htrack : track ∈ trackStrategyNames)
    (hnone : (t.deltas holidays (s.today + t.daysLater) track).any (· < proxyDeltaCritical) = false) :
    (s.step holidays t).seenOn track = s.seenOn track := by
  funext d
  rw [step_seenOn htrack, hnone, Bool.and_false, Bool.or_false]

/-- A tick without a delta of the track. -/
theorem counts_step_nil {s : ProxyState} {t : ProxyTick} {track : String} (hpast : s.Past)
    (htrack : track ∈ trackStrategyNames) (hs : breachCount s.breaches track = s.breachDays holidays track)
    (hdeltas : t.deltas holidays (s.today + t.daysLater) track = []) :
    breachCount (s.step holidays t).breaches track = (s.step holidays t).breachDays holidays track ↔
      s.CountsOneDay holidays t track [] := by
  have hunseen : ∀ d ∈ Finset.Ioc s.today (s.today + t.daysLater), s.seenOn track d = false :=
    fun d hd => hpast track d (Finset.mem_Ioc.mp hd).1
  rw [step_count s t htrack, hdeltas, breachDays, step_seenOn_of_none htrack (by rw [hdeltas]; rfl), step_today]
  simp only [List.foldl_nil, CountsOneDay, hs, breachDays]
  exact streak_kept_iff (Nat.le_add_right _ _) hunseen

/-- A trading day without a breach has no streak, one with a breach has. -/
theorem streak_eq_zero_iff {s : ProxyState} {track : String} {d : Date} (hday : isTradingDay holidays d = true) :
    0 = streak (isTradingDay holidays) (s.seenOn track) d ↔ s.seenOn track d = false := by
  cases hseen : s.seenOn track d with
  | false => simp [streak_of_unseen hday hseen]
  | true => simp [streak_of_seen hday hseen]

/-- The count is that of the trading day before. -/
theorem count_eq_streakBefore_iff {s : ProxyState} {t : ProxyTick} {track : String} (hpast : s.Past)
    (hs : breachCount s.breaches track = s.breachDays holidays track)
    (hday : isTradingDay holidays (s.today + t.daysLater) = true) :
    breachCount s.breaches track =
        streakBefore (isTradingDay holidays) (s.seenOn track) (s.today + t.daysLater) ↔
      s.seenOn track (s.today + t.daysLater) = false ∧
        if t.daysLater = 0 then streakBefore (isTradingDay holidays) (s.seenOn track) s.today = 0
        else breachCount s.breaches track = 0 ∨
          ∀ d ∈ Finset.Ioo s.today (s.today + t.daysLater), isTradingDay holidays d = false := by
  rw [hs, breachDays]
  split
  next hzero =>
    rw [hzero, Nat.add_zero] at hday ⊢
    cases hseen : s.seenOn track s.today with
    | false =>
      rw [streak_of_unseen hday hseen]
      simp [eq_comm]
    | true =>
      rw [streak_of_seen hday hseen]
      simp
  next hlater =>
    obtain ⟨k, hk⟩ := Nat.exists_eq_succ_of_ne_zero hlater
    have hunseen : ∀ d ∈ Finset.Ioc s.today (s.today + k), s.seenOn track d = false :=
      fun d hd => hpast track d (Finset.mem_Ioc.mp hd).1
    have hbetween : Finset.Ioo s.today (s.today + (k + 1)) = Finset.Ioc s.today (s.today + k) := by
      ext d
      rw [Finset.mem_Ioo, Finset.mem_Ioc]
      exact and_congr_right fun _ => Nat.lt_succ_iff
    rw [hpast track _ (Nat.lt_add_of_pos_right (Nat.pos_of_ne_zero hlater)), hk, Nat.succ_eq_add_one, hbetween]
    simp only [true_and]
    exact streak_kept_iff (Nat.le_add_right _ _) hunseen

/-- A tick with one delta of the track. -/
theorem counts_step_one {s : ProxyState} {t : ProxyTick} {track : String} {delta : ℚ} (hpast : s.Past)
    (htrack : track ∈ trackStrategyNames) (hs : breachCount s.breaches track = s.breachDays holidays track)
    (hdeltas : t.deltas holidays (s.today + t.daysLater) track = [delta]) :
    breachCount (s.step holidays t).breaches track = (s.step holidays t).breachDays holidays track ↔
      s.CountsOneDay holidays t track [delta] := by
  have hday : isTradingDay holidays (s.today + t.daysLater) = true := by
    by_contra hoff
    rw [ProxyTick.deltas, if_neg hoff] at hdeltas
    exact absurd hdeltas (by simp)
  rw [step_count s t htrack, hdeltas, breachDays, step_today]
  simp only [List.foldl_cons, List.foldl_nil, CountsOneDay]
  by_cases hbelow : delta < proxyDeltaCritical
  · have hseen : (s.step holidays t).seenOn track (s.today + t.daysLater) = true := by
      rw [step_seenOn htrack, hdeltas]
      simp [hbelow]
    have hbefore : ∀ d < s.today + t.daysLater, (s.step holidays t).seenOn track d = s.seenOn track d := by
      intro d hd
      rw [step_seenOn htrack]
      simp [hd.ne]
    rw [nextCount, if_pos hbelow, streak_of_seen hday hseen, streakBefore_congr hbefore, Nat.add_right_cancel_iff,
      count_eq_streakBefore_iff hpast hs hday]
    simp [hbelow]
  · rw [step_seenOn_of_none htrack (by rw [hdeltas]; simpa using hbelow), nextCount, if_neg hbelow,
      streak_eq_zero_iff hday]
    simp [hbelow]

/-- A tick that reads one delta of each track at most keeps the counts counts of days exactly
when it meets the condition. -/
theorem countsDays_step_iff {s : ProxyState} {t : ProxyTick} (hpast : s.Past) (hs : s.CountsDays holidays) :
    (s.step holidays t).CountsDays holidays ∧ s.OneDelta holidays t ↔ s.OncePerDay holidays t := by
  have hcount : ∀ track ∈ trackStrategyNames,
      (t.deltas holidays (s.today + t.daysLater) track).length ≤ 1 →
      (breachCount (s.step holidays t).breaches track = (s.step holidays t).breachDays holidays track ↔
        s.CountsOneDay holidays t track (t.deltas holidays (s.today + t.daysLater) track)) := by
    intro track htrack hlen
    rcases hdeltas : t.deltas holidays (s.today + t.daysLater) track with _ | ⟨delta, rest⟩
    · exact counts_step_nil hpast htrack (hs track htrack).1 hdeltas
    · obtain rfl : rest = [] := by simpa [hdeltas] using hlen
      exact counts_step_one hpast htrack (hs track htrack).1 hdeltas
  constructor
  · rintro ⟨hdays, hone⟩ track htrack
    exact (hcount track htrack (hone track htrack)).mp (hdays track htrack).1
  · intro hcond
    have hone : s.OneDelta holidays t := by
      intro track htrack
      have hc := hcond track htrack
      rcases hdeltas : t.deltas holidays (s.today + t.daysLater) track with _ | ⟨delta, _ | ⟨_, _⟩⟩
      · simp
      · simp
      · rw [hdeltas] at hc
        exact hc.elim
    refine ⟨fun track htrack => ?_, hone⟩
    have hequal := (hcount track htrack (hone track htrack)).mpr (hcond track htrack)
    refine ⟨hequal, fun e he hcritical => ?_⟩
    obtain ⟨before, delta, after, hdeltas, hbelow, hthree⟩ := step_critical htrack he hcritical
    have hlen := hone track htrack
    rw [hdeltas, List.length_append, List.length_cons] at hlen
    obtain rfl : before = [] := List.length_eq_zero_iff.mp (by omega)
    obtain rfl : after = [] := List.length_eq_zero_iff.mp (by omega)
    rw [List.foldl_nil] at hthree
    rw [← hequal, step_count s t htrack, hdeltas]
    simp only [List.nil_append, List.foldl_cons, List.foldl_nil, nextCount, if_pos hbelow]
    omega

/-- A proxy call of delta 0.3, on the chain of its expiry. -/
def proxyCallTick : ProxyTick where
  daysLater := 0
  market := ⟨23000, 739797, Dict.empty.set 23000
    { ce := some { ltp := 300, bid := 299, ask := 301, delta := some (3 / 10), strike := 23000 } }⟩
  positions :=
    [{ strategyName := "paper_nifty_proxy", legRole := "base_ditm_call", netQty := 65, avgCost := 900,
       avgSellPrice := 0, instrumentKey := "NSE_FO|NIFTY23000CE" }]
  text := { decimal := fun q => if q = 300 then "300" else "0.3", fixed3 := fun _ => "0.300" }

end ProxyState

end NiftyShield.Strategy.TrackComparison
