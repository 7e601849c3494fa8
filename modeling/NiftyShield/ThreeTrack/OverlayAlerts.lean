import NiftyShield.Lib.Streak
import NiftyShield.ThreeTrack.OverlayDays

/-!
# The alerts about several instruments under one overlay role

A role that holds several instruments has a row without `ltp`, and from the rows before a day
`_overlay_multi_instrument_streak_days` counts for how long it has, and
`_check_overlay_multi_instrument_alert` whether it has recovered
(`scripts/strategies/three_track/paper_3track_snapshot.py`). A role that is flat has a row without
`ltp` too, and a role whose instrument has no price is left out of the day, its alert included.

## What is proved

`alerts_follow_iff`: over a run of days, the count and the recovery message say what the saved
days were exactly when no day of the run is one that they cannot tell (`DayTold`): the days
counted, 30 at most, do not end at a flat one, and on a day that follows a saved one with
several instruments the role is priced, on a day that follows a flat one it is not.

## Honest scope

As for the days of the book. Sending does not fail.
-/

namespace NiftyShield.ThreeTrack.OverlayAlerts

open NiftyShield.Instruments NiftyShield.Lib NiftyShield.Paper OverlayPnl OverlayDays

/-! ### The code -/

/-- `_MULTI_INSTRUMENT_ESCALATION_DAYS`. -/
def multiInstrumentEscalationDays : ℕ := 3

section Code

variable (L : LegSnapshots) (s role : String)

/-- The loop of `_overlay_multi_instrument_streak_days`, with the look-back that is left. -/
def streakFrom : ℕ → Date → ℕ
  | 0, _ => 0
  | lookback + 1, cursor =>
    match Dated.latestBefore L (s, role) cursor with
    | none => 0
    | some (day, prev) => if prev.ltp.isSome then 0 else streakFrom lookback day + 1

/-- `_overlay_multi_instrument_streak_days`. -/
def overlayMultiInstrumentStreakDays (snapDate : Date) : ℕ := streakFrom L s role 30 snapDate

/-- What is logged, and sent. -/
inductive Alert where
  /-- Back to a single open instrument. -/
  | recovered
  /-- Several open instruments, for some days. -/
  | multiInstrument (n todayStreak : ℕ) (escalated : Bool)
  /-- The only instrument has no price. -/
  | ltpUnavailable (instrumentKey : String)
  /-- Some of several have none. -/
  | multiInstrumentLtpMissing (missingKeys : List String)
  deriving DecidableEq

/-- The notices about a role. -/
structure Notices where
  /-- In the log. -/
  logged : Option Alert := none
  /-- By Telegram. -/
  sent : Option Alert := none
  deriving DecidableEq

/-- `_check_overlay_multi_instrument_alert`. -/
def checkOverlayMultiInstrumentAlert (snapDate : Date) (n : ℕ) (notifier : Bool) : Notices :=
  let wasMulti := (getPrevLegSnapshot L s role snapDate).any fun prev => prev.ltp.isNone
  if n ≤ 1 then
    if wasMulti then ⟨some .recovered, if notifier then some .recovered else none⟩ else {}
  else
    let streakBefore := overlayMultiInstrumentStreakDays L s role snapDate
    let todayStreak := streakBefore + 1
    let alert := Alert.multiInstrument n todayStreak (decide (multiInstrumentEscalationDays ≤ todayStreak))
    ⟨some alert,
      if notifier && (streakBefore = 0 || todayStreak = multiInstrumentEscalationDays) then some alert else none⟩

/-- The notices of `_compute_overlay_leg_totals` about a role. -/
def roleNotices (T : PaperTrades) (lookup : Option InstrumentLookup) (prices : String → Option ℚ) (snapDate : Date)
    (notifier : Bool) : Notices :=
  match positionsOf T lookup s role with
  | [] => checkOverlayMultiInstrumentAlert L s role snapDate 0 notifier
  | [pos] =>
    if (ltpMap prices pos.instrumentKey).isSome then checkOverlayMultiInstrumentAlert L s role snapDate 1 notifier
    else { logged := some (.ltpUnavailable pos.instrumentKey) }
  | found =>
    let missingKeys := (found.map (·.instrumentKey)).filter fun key => (ltpMap prices key).isNone
    if missingKeys ≠ [] then
      ⟨some (.multiInstrumentLtpMissing missingKeys),
        if notifier then some (.multiInstrumentLtpMissing missingKeys) else none⟩
    else checkOverlayMultiInstrumentAlert L s role snapDate found.length notifier

end Code

/-- The notices of `_compute_overlay_leg_totals`, role by role. -/
def overlayNotices (T : PaperTrades) (lookup : Option InstrumentLookup) (s : String) (prices : String → Option ℚ)
    (L : LegSnapshots) (snapDate : Date) (notifier : Bool) : List (String × Notices) :=
  (sortedRoles (T.getTrades s)).map fun role => (role, roleNotices L s role T lookup prices snapDate notifier)

/-! ### A run of days -/

/-- A day on which a role got a row. -/
structure SavedDay where
  /-- The day. -/
  day : Date
  /-- The row. -/
  row : PaperLegSnapshot
  /-- The open instruments of the role. -/
  instruments : ℕ
  /-- Only the row of a single instrument has a price. -/
  ltp_isSome : row.ltp.isSome = decide (instruments = 1)

theorem ltp_isSome_roleTotal {T : PaperTrades} {lookup : Option InstrumentLookup} {s : String}
    {prices : String → Option ℚ} {role : String} {total : PaperLegSnapshot}
    (h : roleTotal T lookup s prices role = some total) :
    total.ltp.isSome = decide ((positionsOf T lookup s role).length = 1) := by
  unfold roleTotal at h
  split at h
  next hnil =>
    obtain rfl := Option.some.inj h
    rw [hnil]
    rfl
  next pos hone =>
    obtain ⟨ltp, -, rfl⟩ := Option.map_eq_some_iff.mp h
    rw [hone]
    rfl
  next hnil hone =>
    split at h
    · obtain rfl := Option.some.inj h
      have hne : (positionsOf T lookup s role).length ≠ 1 := fun hlen => by
        obtain ⟨pos, hpos⟩ := List.length_eq_one_iff.mp hlen
        exact hone pos hpos
      rw [decide_eq_false hne]
      rfl
    · exact absurd h (by simp)

/-- The book, and the days on which a role got a row, the last first. -/
structure RoleDays (s role : String) where
  /-- The book. -/
  book : BookDays s
  /-- The saved days. -/
  history : List SavedDay
  /-- They have the rows of the role. -/
  rows_eq : ∀ t, book.lastDay < t →
    Dated.Chain book.rows (s, role) (history.map fun saved => (saved.day, saved.row)) t

section Day

variable (lookup : Option InstrumentLookup) {s role : String} (B : RoleDays s role) (ev : SnapshotDay)

/-- The open instruments of the role. -/
def instrumentCount (s role : String) (ev : SnapshotDay) : ℕ := (positionsOf ev.trades lookup s role).length

/-- The row that the role gets on a day. -/
def RoleDays.saved : Option SavedDay :=
  if role ∈ sortedRoles (ev.trades.getTrades s) then
    match h : roleTotal ev.trades lookup s ev.prices role with
    | some total => some ⟨B.book.day ev, total, instrumentCount lookup s role ev, ltp_isSome_roleTotal h⟩
    | none => none
  else none

variable {lookup B ev}

theorem saved_eq_some_iff {saved : SavedDay} : B.saved lookup ev = some saved ↔
    saved.day = B.book.day ev ∧ saved.instruments = instrumentCount lookup s role ev ∧
      (B.book.totals lookup ev).lookup role = some saved.row := by
  rw [BookDays.totals, lookup_totals, RoleDays.saved]
  obtain ⟨day, row, instruments, hltp⟩ := saved
  split
  next =>
    split
    next total htotal =>
      constructor
      · intro heq
        obtain ⟨rfl, rfl, rfl⟩ := SavedDay.mk.inj (Option.some.inj heq)
        exact ⟨rfl, rfl, htotal⟩
      · rintro ⟨rfl, rfl, hrow⟩
        obtain rfl := Option.some.inj (htotal.symm.trans hrow)
        rfl
    next hnone => simp [hnone]
  next => simp

theorem saved_eq_none_iff : B.saved lookup ev = none ↔ (B.book.totals lookup ev).lookup role = none := by
  rw [BookDays.totals, lookup_totals, RoleDays.saved]
  split
  next =>
    split
    next total htotal => simp [htotal]
    next hnone => simp [hnone]
  next => simp

variable (lookup B ev)

/-- The snapshot of a day. -/
def RoleDays.next : RoleDays s role where
  book := B.book.next lookup ev
  history := (B.saved lookup ev).toList ++ B.history
  rows_eq := by
    intro t ht
    have hlt := B.book.lastDay_lt_day ev
    have hget : ∀ u, (B.book.saved lookup ev).get? ((s, role), u) =
        if u = B.book.day ev then ((B.book.totals lookup ev).lookup role).or (B.book.rows.get? ((s, role), u))
        else B.book.rows.get? ((s, role), u) := fun u => get?_save role u nodup_dayTotals
    have hbefore : Dated.Chain (B.book.saved lookup ev) (s, role)
        (B.history.map fun saved => (saved.day, saved.row)) (B.book.day ev) := by
      refine (Dated.chain_congr fun u hu => ?_).mp (B.rows_eq _ hlt)
      rw [hget, if_neg hu.ne]
    cases hsaved : B.saved lookup ev with
    | none =>
      have hnone := saved_eq_none_iff.mp hsaved
      refine (Dated.chain_of_later fun u v hrow => ?_).mp hbefore
      have hold : B.book.rows.get? ((s, role), u) = some v := by
        have hget' := hget u
        rw [hnone, Option.none_or, ite_self] at hget'
        exact hget'.symm.trans hrow
      have hle := B.book.rows_le role u v hold
      exact ⟨lt_of_le_of_lt hle hlt, lt_of_le_of_lt hle (hlt.trans ht)⟩
    | some saved =>
      obtain ⟨hday, -, hrow⟩ := saved_eq_some_iff.mp hsaved
      refine ⟨?_, ?_⟩
      · show Dated.latestBefore (B.book.saved lookup ev) (s, role) t = some (saved.day, saved.row)
        rw [hday, Dated.latestBefore, Dated.newest_eq_some_iff, hget, if_pos rfl, hrow]
        exact ⟨rfl, decide_eq_true ht, fun u row hrow' _ => rows_le_save nodup_dayTotals role u row hrow'⟩
      · show Dated.Chain (B.book.saved lookup ev) (s, role)
          (B.history.map fun saved => (saved.day, saved.row)) saved.day
        rw [hday]
        exact hbefore

/-- The count, and whether the recovery message is sent, follow the days that were saved. -/
def AlertsFollow : Prop :=
  overlayMultiInstrumentStreakDays B.book.rows s role (B.book.day ev) =
      (B.history.takeWhile fun saved => 1 < saved.instruments).length ∧
    (instrumentCount lookup s role ev ≤ 1 →
      ((∃ notices, (role, notices) ∈ overlayNotices ev.trades lookup s ev.prices B.book.rows (B.book.day ev) true ∧
          notices.sent = some .recovered) ↔
        ∃ last, B.history.head? = some last ∧ 1 < last.instruments))

/-! ### The days that the rows tell -/

/-- The role is traded, and all it holds has a price. -/
def Priced (s role : String) : Prop :=
  role ∈ sortedRoles (ev.trades.getTrades s) ∧
    ∀ p ∈ positionsOf ev.trades lookup s role, (ltpMap ev.prices p.instrumentKey).isSome = true

/-- The days with several instruments before today are 30, or fewer and not after a flat one;
and with at most one today, the role is priced after a day with several and not after a flat one. -/
def DayTold : Prop :=
  ((B.history.takeWhile fun saved => 1 < saved.instruments).length = 30 ∨
    (B.history.takeWhile fun saved => 1 < saved.instruments).length < 30 ∧
      ∀ saved, (B.history.dropWhile fun saved => 1 < saved.instruments).head? = some saved → saved.instruments ≠ 0) ∧
  (instrumentCount lookup s role ev ≤ 1 → ∀ last, B.history.head? = some last →
    (1 < last.instruments → Priced lookup ev s role) ∧ (last.instruments = 0 → ¬Priced lookup ev s role))

end Day

section Told

variable {lookup : Option InstrumentLookup} {s role : String} {B : RoleDays s role} {ev : SnapshotDay}

/-- The loop counts the rows without a price. -/
theorem streakFrom_eq (L : LegSnapshots) : ∀ (lookback : ℕ) {rows : List (Date × PaperLegSnapshot)} {t : Date},
    Dated.Chain L (s, role) rows t →
      streakFrom L s role lookback t = min lookback (rows.takeWhile fun row => row.2.ltp.isNone).length
  | 0, _, _, _ => by rw [streakFrom, Nat.zero_min]
  | lookback + 1, [], t, h => by
    rw [streakFrom, show Dated.latestBefore L (s, role) t = none from h]
    rfl
  | lookback + 1, (day, row) :: rows, t, h => by
    rw [streakFrom, h.1, List.takeWhile_cons]
    cases hltp : row.ltp with
    | some ltp => simp [hltp]
    | none =>
      simp only [hltp, Option.isSome_none, Bool.false_eq_true, if_false, Option.isNone_none, if_true, List.length_cons]
      rw [streakFrom_eq L lookback h.2, Nat.add_min_add_right]

/-- So days with one instrument end the count, and flat ones do not. -/
theorem streakDays_eq : overlayMultiInstrumentStreakDays B.book.rows s role (B.book.day ev) =
    min 30 (B.history.takeWhile fun saved => saved.instruments ≠ 1).length := by
  rw [overlayMultiInstrumentStreakDays, streakFrom_eq _ _ (B.rows_eq _ (B.book.lastDay_lt_day ev)),
    List.takeWhile_map, List.length_map]
  congr 3
  funext saved
  rw [Function.comp_apply, ← Option.not_isSome, saved.ltp_isSome, decide_not]

variable (ev) in
/-- The last row has no price after any day but one with a single instrument. -/
theorem wasMulti_iff : (getPrevLegSnapshot B.book.rows s role (B.book.day ev)).any (fun prev => prev.ltp.isNone) = true ↔
    ∃ last, B.history.head? = some last ∧ last.instruments ≠ 1 := by
  have hchain := B.rows_eq _ (B.book.lastDay_lt_day ev)
  cases hhistory : B.history with
  | nil =>
    rw [hhistory] at hchain
    rw [getPrevLegSnapshot, show Dated.latestBefore B.book.rows (s, role) (B.book.day ev) = none from hchain]
    simp
  | cons last days =>
    rw [hhistory] at hchain
    rw [getPrevLegSnapshot, hchain.1, Option.map_some, Option.any_some, ← Option.not_isSome, last.ltp_isSome]
    simp

/-- With at most one instrument, the recovery is told when the role is priced and the last row has
no price. -/
theorem recovery_sent_iff (hcount : instrumentCount lookup s role ev ≤ 1) :
    (∃ notices, (role, notices) ∈ overlayNotices ev.trades lookup s ev.prices B.book.rows (B.book.day ev) true ∧
        notices.sent = some .recovered) ↔
      Priced lookup ev s role ∧ ∃ last, B.history.head? = some last ∧ last.instruments ≠ 1 := by
  have hcheck : ∀ n ≤ 1, (checkOverlayMultiInstrumentAlert B.book.rows s role (B.book.day ev) n true).sent =
      some .recovered ↔ ∃ last, B.history.head? = some last ∧ last.instruments ≠ 1 := by
    intro n hn
    rw [← wasMulti_iff ev, checkOverlayMultiInstrumentAlert, if_pos hn]
    split
    next h => simp [h]
    next h => simpa using h
  have hmem : (∃ notices,
      (role, notices) ∈ overlayNotices ev.trades lookup s ev.prices B.book.rows (B.book.day ev) true ∧
        notices.sent = some .recovered) ↔ role ∈ sortedRoles (ev.trades.getTrades s) ∧
      (roleNotices B.book.rows s role ev.trades lookup ev.prices (B.book.day ev) true).sent = some .recovered := by
    simp only [overlayNotices, List.mem_map, Prod.mk.injEq]
    constructor
    · rintro ⟨_, ⟨role', hrole, rfl, rfl⟩, hsent⟩
      exact ⟨hrole, hsent⟩
    · rintro ⟨hrole, hsent⟩
      exact ⟨_, ⟨role, hrole, rfl, rfl⟩, hsent⟩
  rw [hmem, Priced, and_assoc]
  refine and_congr_right fun _ => ?_
  unfold instrumentCount at hcount
  rw [roleNotices]
  cases hfound : positionsOf ev.trades lookup s role with
  | nil => simpa using hcheck 0 (Nat.zero_le _)
  | cons pos rest =>
    obtain rfl : rest = [] := by
      rw [hfound, List.length_cons] at hcount
      exact List.length_eq_zero_iff.mp (by omega)
    simp only [List.mem_singleton, forall_eq]
    by_cases hltp : (ltpMap ev.prices pos.instrumentKey).isSome = true
    · rw [if_pos hltp, hcheck 1 le_rfl, and_iff_right hltp]
    · rw [if_neg hltp]
      simp [hltp]

/-- **One day**: the alerts follow the saved days when these can be told. -/
theorem alertsFollow_iff : AlertsFollow lookup B ev ↔ DayTold lookup B ev := by
  unfold AlertsFollow DayTold
  refine and_congr ?_ (forall_congr' fun hcount => ?_)
  · rw [streakDays_eq, min_length_takeWhile_iff (p := fun saved : SavedDay => decide (1 < saved.instruments))]
    · refine or_congr_right (and_congr_right fun _ => forall₂_congr fun saved hsaved => ?_)
      have hfew := List.head?_dropWhile_not (fun saved : SavedDay => decide (1 < saved.instruments)) B.history
      rw [hsaved] at hfew
      have hle : saved.instruments ≤ 1 := by simpa using hfew
      simp only [ne_eq, decide_eq_false_iff_not, not_not]
      omega
    · intro saved hmulti
      have hlt : 1 < saved.instruments := by simpa using hmulti
      simpa using hlt.ne'
  · rw [recovery_sent_iff hcount]
    cases B.history.head? with
    | none => simp
    | some last =>
      simp only [Option.some.injEq, exists_eq_left', forall_eq']
      by_cases hpriced : Priced lookup ev s role
      · simp only [hpriced, true_and, not_true_eq_false, imp_false, implies_true]
        omega
      · simp only [hpriced, false_and, false_iff, not_false_eq_true, implies_true, imp_false, and_true]

/-- **Alerts about several instruments** follow the saved days of a run exactly when each of its days
can be told. -/
theorem alerts_follow_iff (lookup : Option InstrumentLookup) {s role : String} (start : RoleDays s role)
    (evs : List SnapshotDay) :
    Run.EachStep (RoleDays.next lookup) (AlertsFollow lookup) start evs ↔
      Run.EachStep (RoleDays.next lookup) (DayTold lookup) start evs :=
  Run.eachStep_congr (I := fun _ => True) (fun _ _ _ => trivial) (fun _ _ _ => alertsFollow_iff) trivial

end Told

/-! ### A flat role -/

/-- A trade of one lot of a put, on the protective-put role. -/
def putTrade (tradeDate : Date) (action : TradeAction) : PaperTrade where
  strategyName := "paper_nifty_overlay"
  legRole := "overlay_pp"
  instrumentKey := "NSE_FO|65800"
  tradeDate := tradeDate
  action := action
  quantity := 65
  price := 40
  paperPrefix := hasPaperPrefix_overlay
  legRole_ne := overlayPp_ne
  instrumentKey_ne := key65800_ne
  quantity_pos := lot_pos
  price_pos := price40_pos

/-- A day on which the put is bought and sold. -/
def flatDay : SnapshotDay where
  trades := ((PaperTrades.empty.recordTrade (putTrade 739780 .buy)).1.recordTrade (putTrade 739781 .sell)).1
  prices _ := none

/-- Before the first day. -/
def noHistory : RoleDays "paper_nifty_overlay" "overlay_pp" where
  book := noDays "paper_nifty_overlay"
  history := []
  rows_eq _ _ := rfl

/-- On the second flat day the count is one, and the role has recovered. -/
theorem flat_days_count : ¬Run.EachStep (RoleDays.next none) (AlertsFollow none) noHistory [flatDay, flatDay] := by
  rintro ⟨-, ⟨hcount, -⟩, -⟩
  have hstreak : overlayMultiInstrumentStreakDays (noHistory.next none flatDay).book.rows "paper_nifty_overlay"
      "overlay_pp" ((noHistory.next none flatDay).book.day flatDay) = 1 := by decide +kernel
  have hmulti : ((noHistory.next none flatDay).history.takeWhile fun saved => 1 < saved.instruments).length = 0 := by
    decide +kernel
  exact absurd (hstreak.symm.trans (hcount.trans hmulti)) (by decide)

end NiftyShield.ThreeTrack.OverlayAlerts
