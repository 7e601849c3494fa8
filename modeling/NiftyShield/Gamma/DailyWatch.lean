import NiftyShield.Gamma.Derive
import NiftyShield.Gamma.Store
import NiftyShield.Lib.Run
import NiftyShield.MarketCalendar.Holidays

/-!
# The daily watch

The runs of `scripts/pipeline/gamma_daily_watch.py`: each fetches the chains of the two next
expiries, stores their snapshots, and brings the watchlist up to date.

## What is proved

`watchlist_lifecycle`, of every run of the script any number of times: a row keeps the
date its option was first added, whatever became of it since; the days on the watchlist are
counted from that date, unless the last write revived the row on a later day; with runs in
the order of their days no row was last seen before it was added; and no run changes a removed
row except by reviving it.

## Honest scope

The calibration that follows writes two columns of the snapshots that no rule reads. A run
that raises in the store is rolled back as a whole. A dry run writes nothing.
-/

namespace NiftyShield.Gamma

open NiftyShield.Lib NiftyShield.Lib.Run NiftyShield.MarketCalendar

/-- `resolve_expiries`: the expiries of this week and the next. -/
def resolveExpiries (holidays : Holidays) (today : Date) : Date × Date :=
  let nominalTuesday := today + 1 - today.weekday
  let (currentWeekNominal, nextWeekNominal) :=
    if today.weekday = 1 ∧ isTradingDay holidays today = true then (today, today + 7)
    else if today.weekday < 1 then (nominalTuesday, nominalTuesday + 7)
    else (nominalTuesday + 7, nominalTuesday + 14)
  (backToTradingDay (isTradingDay holidays) currentWeekNominal,
    backToTradingDay (isTradingDay holidays) nextWeekNominal)

/-- A run of the script. -/
structure WatchRun where
  /-- `date.today()`, or the date given. -/
  today : Date
  /-- `--morning`: no watchlist update. -/
  morning : Bool := false
  /-- `--dry-run`. -/
  dryRun : Bool := false
  /-- The time of the snapshots. -/
  snapshotTime : ℕ
  /-- The chain of an expiry; `none` where the fetch fails or the chain is empty. -/
  fetchChain : Date → Option OptionChain
  /-- Some write of the store raises. -/
  raises : Bool := false

/-- A write to the watchlist. -/
inductive WatchWrite where
  /-- The upsert of a new or revived entry. -/
  | add (e : GammaWatchlistEntry)
  /-- The upsert of an active entry. -/
  | retain (e : GammaWatchlistEntry)
  /-- A removal on a day. -/
  | remove (r : WatchlistRemoval) (removedDate : Date)

namespace WatchWrite

/-- The option of the row. -/
def contract : WatchWrite → Contract
  | add e => e.contract
  | retain e => e.contract
  | remove r _ => r.contract

/-- The write. -/
def apply (T : WatchlistTable) : WatchWrite → WatchlistTable
  | add e => T.upsertWatchlist e
  | retain e => T.upsertWatchlist e
  | remove r removedDate => T.removeFromWatchlist r.contract r.removalReason removedDate

end WatchWrite

/-- The writes of a decision, in their order. -/
def WatchlistDecision.writes (d : WatchlistDecision) (today : Date) : List WatchWrite :=
  d.add.map .add ++ d.retain.map .retain ++ d.remove.map (.remove · today)

/-- The tables, and every write made to the second one. -/
structure WatchState where
  /-- `gamma_chain_snapshots`. -/
  snapshots : SnapshotTable := Dict.empty
  /-- `gamma_watchlist`. -/
  watchlist : WatchlistTable := WatchlistTable.empty
  /-- The writes to the watchlist, the latest last. -/
  log : List WatchWrite := []
  /-- The latest day of a run. -/
  today : Date := 0

namespace WatchState

/-- A step of `_fetch_and_snapshot`. -/
def fetchAndSnapshot (r : WatchRun) (acc : SnapshotTable × List GammaChainSnapshot) (expiry : Date) :
    SnapshotTable × List GammaChainSnapshot :=
  match r.fetchChain expiry with
  | none => acc
  | some chain =>
    let rows := deriveSnapshots chain expiry r.today r.snapshotTime (acc.1.getPriorOi r.today)
    (rows.foldl SnapshotTable.insertChainSnapshot acc.1, acc.2 ++ rows)

/-- The decision of `_update_watchlist`. -/
def decision (T : SnapshotTable) (watchlist : WatchlistTable) (todaySnaps : List GammaChainSnapshot)
    (currentWeekExpiry today : Date) : WatchlistDecision :=
  evaluateWatchlist (todaySnaps.filter fun s => s.contract.expiryDate = currentWeekExpiry)
    (T.getPriorSnapshots currentWeekExpiry today gearingAvgDays) watchlist.getAllActiveWatchlist today

/-- `_fetch_and_snapshot`: the table with the new rows, and the rows. -/
def fetched (holidays : Holidays) (s : WatchState) (r : WatchRun) : SnapshotTable × List GammaChainSnapshot :=
  let (currentWeekExpiry, nextWeekExpiry) := resolveExpiries holidays r.today
  [currentWeekExpiry, nextWeekExpiry].foldl (fetchAndSnapshot r) (s.snapshots, [])

/-- The writes of `_update_watchlist`. -/
def writes (holidays : Holidays) (s : WatchState) (r : WatchRun) : List WatchWrite :=
  if r.morning then []
  else
    let (snapshots, snaps) := s.fetched holidays r
    (decision snapshots s.watchlist snaps (resolveExpiries holidays r.today).1 r.today).writes r.today

/-- A run of `main`. -/
def step (holidays : Holidays) (s : WatchState) (r : WatchRun) : WatchState :=
  if isTradingDay holidays r.today = false ∨ r.dryRun ∨ r.raises then s
  else
    { snapshots := (s.fetched holidays r).1
      watchlist := (s.writes holidays r).foldl WatchWrite.apply s.watchlist
      log := s.log ++ s.writes holidays r
      today := max s.today r.today }

end WatchState

/-! ### The history of a row -/

/-- The day of the first addition of an option. -/
def firstAdded (log : List WatchWrite) (c : Contract) : Option Date :=
  log.findSome? fun
    | .add e => if e.contract = c then some e.addedDate else none
    | _ => none

/-- The day of its latest addition. -/
def lastAdded (log : List WatchWrite) (c : Contract) : Option Date := firstAdded log.reverse c

/-- The last write to its row. -/
def lastWrite (log : List WatchWrite) (c : Contract) : Option WatchWrite := log.reverse.find? fun w => w.contract = c

/-- The row was last written by a revival on a later day than its first addition. -/
def Revived (log : List WatchWrite) (e : GammaWatchlistEntry) : Prop :=
  ∃ a, lastWrite log e.contract = some (.add a) ∧ a.addedDate ≠ e.addedDate

theorem firstAdded_append (log : List WatchWrite) (w : WatchWrite) (c : Contract) :
    firstAdded (log ++ [w]) c = (firstAdded log c).or (firstAdded [w] c) := by
  simp only [firstAdded, List.findSome?_append]

theorem lastWrite_append_self (log : List WatchWrite) {w : WatchWrite} {c : Contract} (hc : w.contract = c) :
    lastWrite (log ++ [w]) c = some w := by
  unfold lastWrite
  rw [List.reverse_append, List.reverse_singleton, List.singleton_append]
  exact List.find?_cons_of_pos (by simpa using hc)

theorem lastWrite_append_of_ne (log : List WatchWrite) {w : WatchWrite} {c : Contract} (hc : w.contract ≠ c) :
    lastWrite (log ++ [w]) c = lastWrite log c := by
  unfold lastWrite
  rw [List.reverse_append, List.reverse_singleton, List.singleton_append]
  exact List.find?_cons_of_neg (by simpa using hc)

/-- What the last write to a row says of it. -/
def LastWritten (e : GammaWatchlistEntry) : Option WatchWrite → Prop
  | some (.add a) => e.removedDate = none ∧ e.lastSeenDate = a.addedDate ∧ e.daysOnWatchlist = 1
  | some (.retain _) => e.removedDate = none ∧ e.daysOnWatchlist = e.addedDate.daysBetween e.lastSeenDate + 1
  | some (.remove _ _) => e.removedDate ≠ none
  | none => False

/-- The table is what the writes say it is. -/
structure Tracked (log : List WatchWrite) (T : WatchlistTable) : Prop where
  /-- A row has the date of the first addition of its option. -/
  added : ∀ c, firstAdded log c = T.added c
  /-- Its other columns are those of the last write. -/
  last : ∀ {c e}, T.rows.get? c = some e → LastWritten e (lastWrite log c)

theorem tracked_empty : Tracked [] WatchlistTable.empty :=
  ⟨fun _ => rfl, fun h => absurd h (by simp [WatchlistTable.empty])⟩

/-- What a decision gives for its writes: an added entry starts on the day, a retained one
has the date of its row. -/
def WriteFits (T : WatchlistTable) : WatchWrite → Prop
  | .add e => e.removedDate = none ∧ e.lastSeenDate = e.addedDate ∧ e.daysOnWatchlist = 1
  | .retain e => e.removedDate = none ∧ e.daysOnWatchlist = e.addedDate.daysBetween e.lastSeenDate + 1 ∧
      T.added e.contract = some e.addedDate
  | .remove _ _ => True

/-- No write takes a date back. -/
theorem added_apply {T : WatchlistTable} {c : Contract} {d : Date} (h : T.added c = some d) (w : WatchWrite) :
    (w.apply T).added c = some d := by
  cases w with
  | add e =>
    rw [WatchWrite.apply, WatchlistTable.added_upsertWatchlist, h]
    split <;> rfl
  | retain e =>
    rw [WatchWrite.apply, WatchlistTable.added_upsertWatchlist, h]
    split <;> rfl
  | remove r d =>
    rw [WatchWrite.apply, WatchlistTable.added_removeFromWatchlist, h]

theorem WriteFits.apply {T : WatchlistTable} {w : WatchWrite} (h : WriteFits T w) (w' : WatchWrite) :
    WriteFits (w'.apply T) w := by
  cases w with
  | add e => exact h
  | retain e => exact ⟨h.1, h.2.1, added_apply h.2.2 w'⟩
  | remove r d => exact h

/-- A write leaves the rows of other options as they are. -/
theorem get?_apply_of_ne (T : WatchlistTable) {w : WatchWrite} {c : Contract} (hc : w.contract ≠ c) :
    (w.apply T).rows.get? c = T.rows.get? c := by
  cases w with
  | add a => exact (WatchlistTable.get?_upsertWatchlist T a c).trans (if_neg hc.symm)
  | retain a => exact (WatchlistTable.get?_upsertWatchlist T a c).trans (if_neg hc.symm)
  | remove r d => exact (WatchlistTable.get?_removeFromWatchlist T _ _ d c).trans (if_neg hc.symm)

/-- **A write** that fits leaves the table what the writes say. -/
theorem Tracked.apply {log : List WatchWrite} {T : WatchlistTable} (h : Tracked log T) {w : WatchWrite}
    (hw : WriteFits T w) : Tracked (log ++ [w]) (w.apply T) := by
  constructor
  · intro c
    rw [firstAdded_append, h.added c]
    cases w with
    | add e =>
      rw [WatchWrite.apply, WatchlistTable.added_upsertWatchlist]
      by_cases hc : c = e.contract
      · subst hc
        cases T.added e.contract <;> simp [firstAdded]
      · simp [firstAdded, hc, Ne.symm hc]
    | retain e =>
      rw [WatchWrite.apply, WatchlistTable.added_upsertWatchlist]
      by_cases hc : c = e.contract
      · subst hc
        simp [hw.2.2, firstAdded]
      · simp [firstAdded, hc]
    | remove r d => simp [WatchWrite.apply, firstAdded]
  · intro c e he
    by_cases hc : w.contract = c
    · rw [lastWrite_append_self log hc]
      cases w with
      | add a =>
        have hc : c = a.contract := hc.symm
        rw [WatchWrite.apply, WatchlistTable.get?_upsertWatchlist, if_pos hc] at he
        obtain rfl := Option.some.inj he
        exact hw
      | retain a =>
        have hc : c = a.contract := hc.symm
        rw [WatchWrite.apply, WatchlistTable.get?_upsertWatchlist, if_pos hc, hw.2.2] at he
        obtain rfl := Option.some.inj he
        exact ⟨hw.1, hw.2.1⟩
      | remove r d =>
        have hc : c = r.contract := hc.symm
        rw [WatchWrite.apply, WatchlistTable.get?_removeFromWatchlist, if_pos hc] at he
        obtain ⟨row, -, rfl⟩ := Option.map_eq_some_iff.mp he
        simp [LastWritten]
    · rw [lastWrite_append_of_ne log hc]
      rw [get?_apply_of_ne T hc] at he
      exact h.last he

/-- The writes of a run, each of which fits at its start, leave it so. -/
theorem Tracked.foldl : ∀ {writes : List WatchWrite} {log : List WatchWrite} {T : WatchlistTable}, Tracked log T →
    (∀ w ∈ writes, WriteFits T w) → Tracked (log ++ writes) (writes.foldl WatchWrite.apply T)
  | [], log, T, h, _ => by simpa using h
  | w :: writes, log, T, h, hfits => by
    have hrest := Tracked.foldl (h.apply (hfits w List.mem_cons_self)) fun w' hw' =>
      (hfits w' (List.mem_cons_of_mem w hw')).apply w
    simpa using hrest

/-! ### What a decision writes -/

section Decision

variable {T : WatchlistTable} {todaySnaps history : List GammaChainSnapshot} {today : Date}

/-- Every write of a decision about the table fits it. -/
theorem writes_fit : ∀ w ∈ (evaluateWatchlist todaySnaps history T.getAllActiveWatchlist today).writes today,
    WriteFits T w := by
  intro w hw
  rcases List.mem_append.mp hw with hw | hw
  rcases List.mem_append.mp hw with hw | hw
  · obtain ⟨e, he, rfl⟩ := List.mem_map.mp hw
    obtain ⟨hseen, hactive, hdays⟩ := entry_today (List.mem_append_left _ he)
    obtain ⟨-, hadded⟩ := mem_add he
    refine ⟨hactive, hseen.trans hadded.symm, ?_⟩
    rw [hdays, hseen, hadded]
    simp [Date.daysBetween]
  · obtain ⟨e, he, rfl⟩ := List.mem_map.mp hw
    obtain ⟨-, hactive, hdays⟩ := entry_today (List.mem_append_right _ he)
    obtain ⟨a, ha, hcontract, hadded⟩ := mem_retain he
    have hrow := (WatchlistTable.mem_getAllActiveWatchlist.mp ha).1
    refine ⟨hactive, hdays, ?_⟩
    rw [WatchlistTable.added, ← hcontract, hrow, hadded]
    rfl
  · obtain ⟨r, -, rfl⟩ := List.mem_map.mp hw
    trivial

/-- The only writes to a removed row are additions. -/
theorem writes_to_removed {c : Contract} {e : GammaWatchlistEntry} (hrow : T.rows.get? c = some e)
    (hremoved : e.removedDate ≠ none) :
    ∀ w ∈ (evaluateWatchlist todaySnaps history T.getAllActiveWatchlist today).writes today,
      w.contract = c → ∃ a, w = .add a ∧ a.removedDate = none := by
  have hnot : ∀ a ∈ T.getAllActiveWatchlist, a.contract ≠ c := by
    intro a ha hc
    obtain ⟨ha, hactive⟩ := WatchlistTable.mem_getAllActiveWatchlist.mp ha
    rw [hc, hrow] at ha
    obtain rfl := Option.some.inj ha
    exact hremoved (Option.isNone_iff_eq_none.mp hactive)
  intro w hw hc
  rcases List.mem_append.mp hw with hw | hw
  rcases List.mem_append.mp hw with hw | hw
  · obtain ⟨a, ha, rfl⟩ := List.mem_map.mp hw
    exact ⟨a, rfl, (entry_today (List.mem_append_left _ ha)).2.1⟩
  · obtain ⟨a, ha, rfl⟩ := List.mem_map.mp hw
    obtain ⟨b, hb, hcontract, -⟩ := mem_retain ha
    exact absurd (hcontract.trans hc) (hnot b hb)
  · obtain ⟨r, hr, rfl⟩ := List.mem_map.mp hw
    obtain ⟨b, hb, hcontract⟩ := mem_remove hr
    exact absurd (hcontract.trans hc) (hnot b hb)

end Decision

/-- A row that only additions are written to stays as it is or is active. -/
theorem foldl_additions {c : Contract} {e : GammaWatchlistEntry} : ∀ {writes : List WatchWrite} {T : WatchlistTable},
    (∀ w ∈ writes, w.contract = c → ∃ a, w = .add a ∧ a.removedDate = none) →
    (T.rows.get? c = some e ∨ ∃ e', T.rows.get? c = some e' ∧ e'.active = true) →
    (writes.foldl WatchWrite.apply T).rows.get? c = some e ∨
      ∃ e', (writes.foldl WatchWrite.apply T).rows.get? c = some e' ∧ e'.active = true
  | [], _, _, h => h
  | w :: writes, T, hadd, h => by
    rw [List.foldl_cons]
    refine foldl_additions (fun w' hw' => hadd w' (List.mem_cons_of_mem w hw')) ?_
    by_cases hc : w.contract = c
    · obtain ⟨a, rfl, hactive⟩ := hadd w List.mem_cons_self hc
      refine Or.inr ⟨_, (WatchlistTable.get?_upsertWatchlist T a c).trans (if_pos hc.symm), ?_⟩
      exact Option.isNone_iff_eq_none.mpr hactive
    · rw [get?_apply_of_ne T hc]
      exact h

/-! ### Runs of the script -/

namespace WatchState

variable {holidays : Holidays}

/-- Each active entry has the date its option was first added, and the days since then unless
it was last revived. -/
def Lifecycle (s : WatchState) : Prop :=
  ∀ c e, s.watchlist.rows.get? c = some e → e.active = true →
    firstAdded s.log c = some e.addedDate ∧
      (¬ Revived s.log e → e.daysOnWatchlist = e.addedDate.daysBetween e.lastSeenDate + 1)

/-- No row was last seen before it was added. -/
def SeenSinceAdded (s : WatchState) : Prop :=
  ∀ c e, s.watchlist.rows.get? c = some e → e.addedDate ≤ e.lastSeenDate

/-- The run is not on an earlier day than the last. -/
def InOrder (s : WatchState) (r : WatchRun) : Prop := s.today ≤ r.today

instance (s : WatchState) (r : WatchRun) : Decidable (s.InOrder r) := inferInstanceAs (Decidable (_ ≤ _))

/-- A removed row is as it was, or active again. -/
def RemovedKept (holidays : Holidays) (s : WatchState) (r : WatchRun) : Prop :=
  ∀ c e, s.watchlist.rows.get? c = some e → e.removedDate ≠ none →
    (s.step holidays r).watchlist.rows.get? c = some e ∨
      ∃ e', (s.step holidays r).watchlist.rows.get? c = some e' ∧ e'.active = true

/-- The writes of a run are those of a decision about the table. -/
theorem writes_of_decision (s : WatchState) (r : WatchRun) : ∃ todaySnaps history,
    s.writes holidays r ⊆
      (evaluateWatchlist todaySnaps history s.watchlist.getAllActiveWatchlist r.today).writes r.today := by
  unfold writes
  split
  · exact ⟨[], [], List.nil_subset _⟩
  · exact ⟨_, _, List.Subset.refl _⟩

theorem writes_fit_table (s : WatchState) (r : WatchRun) : ∀ w ∈ s.writes holidays r, WriteFits s.watchlist w := by
  obtain ⟨_, _, hsub⟩ := @writes_of_decision holidays s r
  exact fun w hw => writes_fit w (hsub hw)

theorem tracked_step (s : WatchState) (r : WatchRun) (h : Tracked s.log s.watchlist) :
    Tracked (s.step holidays r).log (s.step holidays r).watchlist := by
  unfold step
  split
  · exact h
  · exact h.foldl (writes_fit_table s r)

/-- What the writes say of an active entry. -/
theorem lifecycle_of_tracked {s : WatchState} (h : Tracked s.log s.watchlist) : s.Lifecycle := by
  intro c e he hactive
  have hcontract := s.watchlist.keyed he
  have hfirst : firstAdded s.log c = some e.addedDate := by
    rw [h.added c, WatchlistTable.added, he]
    rfl
  refine ⟨hfirst, fun hnot => ?_⟩
  have hlast := h.last he
  rcases hw : lastWrite s.log c with _ | w
  · rw [hw] at hlast
    exact hlast.elim
  rw [hw] at hlast
  cases w with
  | add a =>
    obtain ⟨-, hseen, hdays⟩ := hlast
    have hsame : a.addedDate = e.addedDate := by
      by_contra hne
      exact hnot ⟨a, hcontract.symm ▸ hw, hne⟩
    rw [hdays, hseen, hsame]
    simp [Date.daysBetween]
  | retain a => exact hlast.2
  | remove r d => exact absurd (Option.isNone_iff_eq_none.mp hactive) hlast

/-- A run does not change a removed row but by reviving it. -/
theorem removedKept (s : WatchState) (r : WatchRun) : s.RemovedKept holidays r := by
  intro c e he hremoved
  unfold step
  split
  · exact Or.inl he
  · obtain ⟨_, _, hsub⟩ := @writes_of_decision holidays s r
    exact foldl_additions (fun w hw => writes_to_removed he hremoved w (hsub hw)) (Or.inl he)

/-! ### Runs in the order of their days -/

/-- The rows were last seen between their addition and a day. -/
def SeenBy (T : WatchlistTable) (d : Date) : Prop :=
  ∀ c e, T.rows.get? c = some e → e.addedDate ≤ e.lastSeenDate ∧ e.lastSeenDate ≤ d

/-- An upsert is of an entry last seen on a day. -/
def SeenOn (d : Date) : WatchWrite → Prop
  | .add e => e.lastSeenDate = d
  | .retain e => e.lastSeenDate = d
  | .remove _ _ => True

theorem SeenBy.apply {T : WatchlistTable} {d : Date} (h : SeenBy T d) {w : WatchWrite} (hfits : WriteFits T w)
    (hseen : SeenOn d w) : SeenBy (w.apply T) d := by
  have hupsert : ∀ e : GammaWatchlistEntry, e.lastSeenDate = d → e.addedDate ≤ d →
      SeenBy (T.upsertWatchlist e) d := by
    intro e hd hadded c row hrow
    rw [WatchlistTable.get?_upsertWatchlist] at hrow
    split at hrow
    · obtain rfl := Option.some.inj hrow
      refine ⟨?_, hd.le⟩
      rw [WatchlistTable.added]
      cases hold : T.rows.get? e.contract with
      | none => simpa [hd] using hadded
      | some old => simpa [hd] using (h _ _ hold).1.trans (h _ _ hold).2
    · exact h c row hrow
  cases w with
  | add e => exact hupsert e hseen (hfits.2.1.ge.trans hseen.le)
  | retain e =>
    obtain ⟨row, hrow, hadded⟩ := Option.map_eq_some_iff.mp hfits.2.2
    exact hupsert e hseen (hadded ▸ (h _ _ hrow).1.trans (h _ _ hrow).2)
  | remove r removedDate =>
    intro c e he
    rw [WatchWrite.apply, WatchlistTable.get?_removeFromWatchlist] at he
    split at he
    · obtain ⟨row, hrow, rfl⟩ := Option.map_eq_some_iff.mp he
      exact h c row hrow
    · exact h c e he

theorem SeenBy.foldl {d : Date} : ∀ {writes : List WatchWrite} {T : WatchlistTable}, SeenBy T d →
    (∀ w ∈ writes, WriteFits T w) → (∀ w ∈ writes, SeenOn d w) → SeenBy (writes.foldl WatchWrite.apply T) d
  | [], _, h, _, _ => h
  | w :: writes, T, h, hfits, hseen => by
    rw [List.foldl_cons]
    refine SeenBy.foldl (h.apply (hfits w List.mem_cons_self) (hseen w List.mem_cons_self)) ?_ ?_
    · exact fun w' hw' => (hfits w' (List.mem_cons_of_mem w hw')).apply w
    · exact fun w' hw' => hseen w' (List.mem_cons_of_mem w hw')

/-- The entries of a run were seen on its day. -/
theorem writes_seenOn (s : WatchState) (r : WatchRun) : ∀ w ∈ s.writes holidays r, SeenOn r.today w := by
  obtain ⟨_, _, hsub⟩ := @writes_of_decision holidays s r
  intro w hw
  rcases List.mem_append.mp (hsub hw) with hw | hw
  rcases List.mem_append.mp hw with hw | hw
  · obtain ⟨e, he, rfl⟩ := List.mem_map.mp hw
    exact (entry_today (List.mem_append_left _ he)).1
  · obtain ⟨e, he, rfl⟩ := List.mem_map.mp hw
    exact (entry_today (List.mem_append_right _ he)).1
  · obtain ⟨e, -, rfl⟩ := List.mem_map.mp hw
    trivial

theorem seenBy_step {s : WatchState} {r : WatchRun} (horder : s.InOrder r) (h : SeenBy s.watchlist s.today) :
    SeenBy (s.step holidays r).watchlist (s.step holidays r).today := by
  unfold step
  split
  · exact h
  · have hday : SeenBy s.watchlist r.today := fun c e he => ⟨(h c e he).1, (h c e he).2.trans horder⟩
    simp only [max_eq_right horder]
    exact hday.foldl (writes_fit_table s r) (writes_seenOn s r)

/-- **The life of a watchlist row**, over any runs of the script. In every state the active
entries have the date of their first addition and, unless last revived, the days since; if the
runs are in the order of their days no row was seen before it was added; and each run leaves
the removed rows as they are or revives them. -/
theorem watchlist_lifecycle (holidays : Holidays) (runs : List WatchRun) :
    Along (step holidays) Lifecycle {} runs ∧
      (EachStep (step holidays) InOrder {} runs → Along (step holidays) SeenSinceAdded {} runs) ∧
      EachStep (step holidays) (RemovedKept holidays) {} runs := by
  refine ⟨?_, fun horder => ?_, eachStep_of_forall removedKept⟩
  · exact along_of_invariant (I := fun s : WatchState => Tracked s.log s.watchlist)
      (fun s r h _ => tracked_step s r h) (fun s => lifecycle_of_tracked) tracked_empty
      (eachStep_of_forall (fun _ _ => trivial))
  · exact along_of_invariant (I := fun s : WatchState => SeenBy s.watchlist s.today)
      (fun s r h hr => seenBy_step hr h) (fun s h c e he => (h c e he).1)
      (fun c e he => absurd he (by simp [WatchlistTable.empty])) horder

/-! ### Removed on Thursday, back on Friday -/

/-- A chain with one call of the option of strike 25000 at a spot. -/
def callChain (spot : ℚ) : OptionChain :=
  ⟨spot, 739797, Dict.empty.set 25000
    { ce := some { ltp := 10, bid := 9, ask := 10, oi := 5000, gamma := some (1 / 1000), strike := 25000 } }⟩

/-- A run on a day, with the chain of the expiry of 30 June 2026 at a spot. -/
def callRun (today : Date) (snapshotTime : ℕ) (spot : ℚ) : WatchRun where
  today
  snapshotTime
  fetchChain := fun expiry => if expiry = 739797 then some (callChain spot) else none

/-- Two runs on Wednesday, the second with the spot further off, one on Thursday, and one on
Friday with the spot back. -/
def revivalRuns : List WatchRun :=
  [callRun 739791 600 24500, callRun 739791 920 23500, callRun 739792 920 23500, callRun 739793 920 24500]

/-- A reading in which a revival starts an entry anew. -/
def Restarts (s : WatchState) : Prop :=
  ∀ c e, s.watchlist.rows.get? c = some e → e.active = true → lastAdded s.log c = some e.addedDate ∧
    e.addedDate ≤ e.lastSeenDate ∧ e.daysOnWatchlist = e.addedDate.daysBetween e.lastSeenDate + 1

/-- On Friday the entry is active again with the date of Wednesday, and one day counted. -/
theorem revival_keeps_added_date :
    let s := final (step fun _ => []) {} revivalRuns
    ((s.watchlist.rows.get? ⟨739797, 25000, .ce⟩).map fun e =>
        (e.addedDate, e.lastSeenDate, e.active, e.daysOnWatchlist)) = some (739791, 739793, true, 1) ∧
      lastAdded s.log ⟨739797, 25000, .ce⟩ = some 739793 ∧ ¬ Along (step fun _ => []) Restarts {} revivalRuns := by
  intro s
  have hrow : ((s.watchlist.rows.get? ⟨739797, 25000, .ce⟩).map fun e =>
      (e.addedDate, e.lastSeenDate, e.active, e.daysOnWatchlist)) = some (739791, 739793, true, 1) := by
    decide +kernel
  have hlast : lastAdded s.log ⟨739797, 25000, .ce⟩ = some 739793 := by
    decide +kernel
  refine ⟨hrow, hlast, fun halong => ?_⟩
  obtain ⟨e, he, hcolumns⟩ := Option.map_eq_some_iff.mp hrow
  simp only [Prod.mk.injEq] at hcolumns
  have hdate := ((along_iff_final.mp halong revivalRuns List.prefix_rfl) _ e he hcolumns.2.2.1).1
  rw [hlast, hcolumns.1] at hdate
  exact absurd hdate (by decide)

/-- The general statement at those four runs, which are in the order of their days. -/
theorem watchlist_lifecycle_revival : Along (step fun _ => []) Lifecycle {} revivalRuns ∧
    Along (step fun _ => []) SeenSinceAdded {} revivalRuns :=
  ⟨(watchlist_lifecycle (fun _ => []) revivalRuns).1,
    (watchlist_lifecycle (fun _ => []) revivalRuns).2.1 (by decide +kernel)⟩

end WatchState

end NiftyShield.Gamma
