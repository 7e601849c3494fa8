import Mathlib.Order.Lattice.Nat
import NiftyShield.Lib.Dict
import NiftyShield.Lib.Selection
import NiftyShield.MarketCalendar.Holidays
import NiftyShield.Mvp.PickUpdates
import NiftyShield.Mvp.Store

/-!
# The backfill of a pick

`enter_backfill_pick` and `run_backfill` (`src/mvp/backfill.py`) on the tables of `MVPStore`
(`src/mvp/store.py`): a PENDING pick is entered at the first close above its price, and the
days from then on are walked. A day with a snapshot is skipped; on the others a snapshot is
stored and the close compared with the target and the stop, restated to the day. The pick is
closed at the first that it reaches, and what it made is computed from the fill, which is dated
by the earliest snapshot.

## What is proved

* `walk_eq`: the walk stores a snapshot for each day up to the exit, the first day without a
  snapshot whose close reaches a level, and closes the pick there;
* `findsTrueExit_iff`: the backfill finds the true exit exactly when that day has no snapshot
  yet and the fills on record give what the fill of the entry day gives;
* `stored_exit_missed`: a snapshot on the day of the true exit leaves the pick OPEN.

## Honest scope

`Decimal` is exact rational. Snapshots are stamped in UTC, as in `Store`. Of the database
errors there is the division by an entry price of zero.
-/

namespace NiftyShield.Mvp

open NiftyShield.Lib NiftyShield.MarketCalendar

/-! ### The tables -/

/-- A row of `mvp_recommendations` with the columns of its close. -/
structure StoredPick extends PickRow where
  /-- `closed_at`. -/
  closedAt : Option String := none
  /-- `close_price`. -/
  closePrice : Option ℚ := none

/-- A row of `mvp_snapshots` with its benchmark. -/
structure StoredSnapshot extends MVPSnapshot where
  /-- `benchmark_close`. -/
  benchmarkClose : Option ℚ := none

/-- The tables that a backfill reads and writes. -/
structure BackfillStore where
  /-- `mvp_recommendations`. -/
  picks : List StoredPick
  /-- `mvp_tranches`. -/
  tranches : List Tranche := []
  /-- `mvp_snapshots`. -/
  snapshots : List StoredSnapshot := []
  /-- `mvp_corporate_actions`. -/
  corporateActions : List CorporateAction := []
  /-- The primary key of the picks. -/
  pickIds_nodup : (picks.map (·.pickId)).Nodup

/-- `ClosePickResult`. -/
structure ClosePickResult where
  /-- Rupees made. -/
  realizedPnl : ℚ
  /-- Shares sold, on the basis of the exit. -/
  totalQty : ℚ
  /-- Rupees spent. -/
  deployedCapital : ℚ
  /-- Average cost, on the basis of the exit. -/
  avgCost : Option ℚ

namespace BackfillStore

variable (S : BackfillStore)

/-- The tables as the category figures read them. -/
def toStore : MVPStore where
  providers := []
  categories := []
  picks := S.picks.map (·.toPick)
  tranches := S.tranches
  snapshots := S.snapshots.map (·.toMVPSnapshot)
  corporateActions := S.corporateActions
  pickIds_nodup := by
    rw [List.map_map]
    exact S.pickIds_nodup

/-- `get_pick`. -/
def getPick (pickId : String) : Option StoredPick := S.picks.find? fun p => p.pickId = pickId

/-- The table of picks with this row in place of the one with its id. -/
def setPick (row : StoredPick) : BackfillStore :=
  { S with
    picks := S.picks.map fun p => if p.pickId = row.pickId then row else p
    pickIds_nodup := by
      rw [List.map_map, List.map_congr_left (g := fun p => p.pickId)]
      · exact S.pickIds_nodup
      · intro p _
        rw [Function.comp_apply]
        split
        next h => exact h.symm
        next => rfl }

/-- `update_pick` of an id; `none` if it raises. -/
def updatePick (pickId : String) (fields : PickFields) (now : String) : Option BackfillStore :=
  match S.getPick pickId with
  | none => some S
  | some row => (row.toPickRow.update fields now).map fun q => S.setPick { row with toPickRow := q }

/-- `record_snapshot`. -/
def recordSnapshot (s : StoredSnapshot) : BackfillStore := { S with snapshots := S.snapshots ++ [s] }

/-- `get_snapshots`: `ORDER BY captured_at DESC LIMIT`. -/
def getSnapshots (pickId : String) (limit : ℕ) : List StoredSnapshot :=
  ((S.snapshots.filter fun s => s.pickId = pickId).insertionSort fun s s' =>
    s'.day < s.day ∨ (s'.day = s.day ∧ s'.time ≤ s.time)).take limit

/-- The dates that `run_backfill` takes to have a snapshot. -/
def existingDates (pickId : String) : List ℕ := (S.getSnapshots pickId 10000).map (·.day)

/-- What the shares of a restated pick make at a price. -/
def realizedPnl (closePrice : ℚ) (basis : Pick) : ℚ :=
  match basis.avgCost with
  | none => 0
  | some avgCost => (closePrice * (1 - costBps / 10000) - avgCost) * basis.totalQty

/-- `close_pick` with a basis date; `none` if the status is not terminal. -/
def closePick (pickId : String) (closePrice : ℚ) (status : PickStatus) (asOf : ℕ) (now : String) :
    Option (BackfillStore × ClosePickResult) :=
  if MVPStore.isTerminal status then
    match S.getPick pickId with
    | none => some (S, ⟨0, 0, 0, none⟩)
    | some row =>
      let basis := S.toStore.getAdjustedPick row.toPick asOf
      let realized := realizedPnl closePrice basis
      let closed : StoredPick :=
        { row with closedAt := some now, closePrice := some closePrice, status, updatedAt := now, realizedPnl := realized }
      some (S.setPick closed, ⟨realized, basis.totalQty, row.deployedCapital, basis.avgCost⟩)
  else none

end BackfillStore

/-! ### The backfill -/

/-- What a backfill reads besides the tables. -/
structure Market where
  /-- The holidays of each year. -/
  holidays : Holidays
  /-- Raw closes of the stock. -/
  equityCloses : Dict ℕ ℚ
  /-- Closes of the index. -/
  indexCloses : Dict ℕ ℚ := Dict.empty

namespace Market

variable (m : Market)

/-- `enter_backfill_pick`. -/
def enterBackfillPick (pick : Pick) (actions : List CorporateAction) : Option (ℕ × ℚ) :=
  if pick.recoPrice.isNone then none
  else
    ((m.equityCloses.keys.filter fun d => pick.pickDate < d).insertionSort (· ≤ ·)).findSome? fun d =>
      (m.equityCloses.get? d).bind fun close =>
        if (adjustLevel pick.recoPrice actions pick.pickDate d).any (· < close) then some (d, close) else none

/-- The exit a close makes on a day: the target comes before the stop. -/
def terminalStatus (pick : Pick) (actions : List CorporateAction) (day : ℕ) (close : ℚ) : Option PickStatus :=
  if (adjustLevel pick.targetPrice actions pick.pickDate day).any (· ≤ close) then some .targetHit
  else if (adjustLevel pick.stopLoss actions pick.pickDate day).any (close ≤ ·) then some .slHit
  else none

/-- The snapshot of a day. -/
def snapshotOn (pickId : String) (day : ℕ) (close : ℚ) : StoredSnapshot where
  pickId := pickId
  ltp := close
  day := day
  time := 0
  benchmarkClose := m.indexCloses.get? day

/-- The loop of `run_backfill` over the days left, with the dates that had a snapshot. -/
def walk (pick : Pick) (actions : List CorporateAction) (existingDates : List ℕ) (now : String) :
    List ℕ → BackfillStore → Option BackfillStore
  | [], S => some S
  | day :: days, S =>
    if isTradingDay m.holidays day = false then walk pick actions existingDates now days S
    else if day ∈ existingDates then walk pick actions existingDates now days S
    else
      match m.equityCloses.get? day with
      | none => walk pick actions existingDates now days S
      | some close =>
        let recorded := S.recordSnapshot (m.snapshotOn pick.pickId day close)
        match terminalStatus pick actions day close with
        | none => walk pick actions existingDates now days recorded
        | some status => (recorded.closePick pick.pickId close status day now).map Prod.fst

/-- `run_backfill`; `none` if it raises. Without an end date it is today. -/
def runBackfill (S : BackfillStore) (pickId : String) (endDate : Option ℕ) (today : ℕ) (now : String) :
    Option BackfillStore :=
  match S.getPick pickId with
  | none => some S
  | some row =>
    let actions := S.toStore.getCorporateActions row.symbol
    -- of a pick that is OPEN already the entry date is not known
    if row.status ≠ .pending then some S
    else
      match m.enterBackfillPick row.toPick actions with
      | none => some S
      | some (entryDate, entryPrice) =>
        (S.updatePick pickId { entryPrice := some entryPrice } now).bind fun S₁ =>
          match S₁.getPick pickId with
          | none => some S₁
          | some opened =>
            if opened.status ≠ .opened then some S₁
            else
              m.walk opened.toPick actions (S₁.existingDates pickId) now
                (List.range' entryDate (endDate.getD today + 1 - entryDate)) S₁

end Market

/-! ### The true exit -/

section Levels

variable (pick : Pick) (actions : List CorporateAction) (day : ℕ) (close : ℚ)

/-- The close reaches the target, on the basis of the day. -/
def TargetReached : Prop :=
  ∃ target ∈ pick.targetPrice, target / cumulativeMultiplier actions pick.pickDate day ≤ close

/-- The close reaches the stop, on the basis of the day. -/
def StopReached : Prop :=
  ∃ stop ∈ pick.stopLoss, close ≤ stop / cumulativeMultiplier actions pick.pickDate day

end Levels

namespace Market

variable (m : Market)

/-- A trading day with a close. -/
def Session (day : ℕ) : Prop :=
  isTradingDay m.holidays day = true ∧ (m.equityCloses.get? day).isSome = true

/-- A day after the pick whose close is above its price, on the basis of the day. -/
def Enters (pick : Pick) (actions : List CorporateAction) (day : ℕ) : Prop :=
  pick.pickDate < day ∧ ∃ close ∈ m.equityCloses.get? day, ∃ reco ∈ pick.recoPrice,
    reco / cumulativeMultiplier actions pick.pickDate day < close

/-- A trading day whose close reaches the target or the stop. -/
def Reaches (pick : Pick) (actions : List CorporateAction) (day : ℕ) : Prop :=
  isTradingDay m.holidays day = true ∧ ∃ close ∈ m.equityCloses.get? day,
    TargetReached pick actions day close ∨ StopReached pick actions day close

/-- The new snapshots of a pick are of trading days from `first` to `last`, and each of these
days with a close has one. -/
structure WritesSnapshots (S S' : BackfillStore) (pickId : String) (first last : ℕ) : Prop where
  /-- What is new. -/
  new : ∃ new, S'.snapshots = S.snapshots ++ new ∧ ∀ s ∈ new,
    s.pickId = pickId ∧ isTradingDay m.holidays s.day = true ∧ first ≤ s.day ∧ s.day ≤ last
  /-- What is there. -/
  all : ∀ d, first ≤ d → d ≤ last → m.Session d → ∃ s ∈ S'.snapshots, s.pickId = pickId ∧ s.day = d

/-- The row is closed at the close of the exit, at the target if that is reached and else at
the stop, and what it made restates the fill from the entry day. -/
structure ClosesOn (pick : Pick) (actions : List CorporateAction) (row : StoredPick) (entryDate exitDate : ℕ) :
    Prop where
  /-- At this price. -/
  price : row.closePrice = m.equityCloses.get? exitDate
  /-- At the target. -/
  target : ∀ close ∈ row.closePrice, TargetReached pick actions exitDate close → row.status = .targetHit
  /-- At the stop. -/
  stop : ∀ close ∈ row.closePrice, ¬TargetReached pick actions exitDate close → row.status = .slHit
  /-- What it made. -/
  realized : ∃ close ∈ row.closePrice, ∃ avgCost ∈ row.avgCost,
    row.realizedPnl = (close * (1 - costBps / 10000) - avgCost / cumulativeMultiplier actions entryDate exitDate) *
      ⌊row.totalQty * cumulativeMultiplier actions entryDate exitDate⌋

/-- **The backfill finds the true exit**: the pick is entered at the first close above its
price, and closed on the first day from then to the end whose close reaches a level; if there
is no such day it stays open, and if it is not entered nothing changes. -/
structure FindsTrueExit (S : BackfillStore) (row : StoredPick) (endDate : ℕ) (outcome : Option BackfillStore) :
    Prop where
  /-- The pick is entered. -/
  entered : ∀ e, IsLeast {d | m.Enters row.toPick (S.toStore.getCorporateActions row.symbol) d} e →
    ∃ S' row', outcome = some S' ∧ S'.getPick row.pickId = some row' ∧ row'.entryPrice = m.equityCloses.get? e ∧
      (∀ x, IsLeast {d | e ≤ d ∧ d ≤ endDate ∧ m.Reaches row.toPick (S.toStore.getCorporateActions row.symbol) d} x →
        m.ClosesOn row.toPick (S.toStore.getCorporateActions row.symbol) row' e x ∧
          m.WritesSnapshots S S' row.pickId e x) ∧
      ((∀ d, e ≤ d → d ≤ endDate → ¬m.Reaches row.toPick (S.toStore.getCorporateActions row.symbol) d) →
        row'.status = .opened ∧ m.WritesSnapshots S S' row.pickId e endDate)
  /-- It is not. -/
  pending : (∀ d, ¬m.Enters row.toPick (S.toStore.getCorporateActions row.symbol) d) → outcome = some S

end Market

/-- The lump-sum fill of a pick on a day. -/
def lumpFillOn (pick : Pick) (day : ℕ) : List Fill :=
  match pick.avgCost with
  | none => []
  | some avgCost => if pick.totalQty = 0 then [] else [⟨avgCost, pick.totalQty, day⟩]

/-- A row that is entered at a price. -/
def PickRow.entered (p : PickRow) (price : ℚ) : PickRow := (p.setFields { entryPrice := some price }).fill price

namespace BackfillStore

variable (S : BackfillStore)

/-- The days of the snapshots of a pick. -/
def snapshotDays (pickId : String) : List ℕ := (S.toStore.snapshotsOf pickId).map (·.day)

/-- The fills of a pick: its tranches, or the lump sum on a day. -/
def fillsFrom (pick : Pick) (day : ℕ) : List Fill :=
  if (S.toStore.trancheFills pick.pickId).isEmpty then lumpFillOn pick day else S.toStore.trancheFills pick.pickId

end BackfillStore

namespace Market

/-- The entry price is not zero, the first day from the entry to the end whose close reaches a
level has no snapshot, and on that day the fills, the lump sum dated by the earliest of the
stored snapshots and of the trading days since the entry, make what the lump sum of the entry
day makes. -/
def ExitIsClear (m : Market) (S : BackfillStore) (row : StoredPick) (endDate : ℕ) : Prop :=
  ∀ e price, IsLeast {d | m.Enters row.toPick (S.toStore.getCorporateActions row.symbol) d} e →
    m.equityCloses.get? e = some price → price ≠ 0 ∧
      ∀ x close, IsLeast {d | e ≤ d ∧ d ≤ endDate ∧ m.Reaches row.toPick (S.toStore.getCorporateActions row.symbol) d} x →
        m.equityCloses.get? x = some close → x ∉ S.existingDates row.pickId ∧
          ∀ f, IsLeast {d | d ∈ S.snapshotDays row.pickId ∨ (e ≤ d ∧ d ≤ x ∧ m.Session d)} f →
            BackfillStore.realizedPnl close (adjustedPick (row.entered price).toPick
                (S.toStore.getCorporateActions row.symbol) x (S.fillsFrom (row.entered price).toPick f)) =
              BackfillStore.realizedPnl close (adjustedPick (row.entered price).toPick
                (S.toStore.getCorporateActions row.symbol) x (lumpFillOn (row.entered price).toPick e))

end Market

/-! ### The entry -/

section Entry

variable {m : Market} {pick : Pick} {actions : List CorporateAction}

theorem any_adjustLevel {level : Option ℚ} {levelDate asOf : ℕ} {p : ℚ → Bool} :
    (adjustLevel level actions levelDate asOf).any p = true ↔
      ∃ x ∈ level, p (x / cumulativeMultiplier actions levelDate asOf) = true := by
  rw [adjustLevel, Option.any_map, Option.any_eq_true]
  rfl

theorem mem_keys_of_get? {κ ν : Type*} [DecidableEq κ] {d : Dict κ ν} {k : κ} {v : ν} (h : d.get? k = some v) :
    k ∈ d.keys := List.mem_map_of_mem (Dict.mem_entries_iff.mpr h)

/-- The entry a day makes. -/
private def entryOn (m : Market) (pick : Pick) (actions : List CorporateAction) (d : ℕ) : Option (ℕ × ℚ) :=
  (m.equityCloses.get? d).bind fun close =>
    if (adjustLevel pick.recoPrice actions pick.pickDate d).any (· < close) then some (d, close) else none

private theorem entryOn_eq_some_iff {d e : ℕ} {price : ℚ} :
    entryOn m pick actions d = some (e, price) ↔ d = e ∧ m.equityCloses.get? d = some price ∧
      ∃ reco ∈ pick.recoPrice, reco / cumulativeMultiplier actions pick.pickDate d < price := by
  simp only [entryOn, Option.bind_eq_some_iff, Option.ite_none_right_eq_some, any_adjustLevel, decide_eq_true_eq,
    Option.some.injEq, Prod.mk.injEq]
  constructor
  · rintro ⟨close, hclose, hreco, rfl, rfl⟩
    exact ⟨rfl, hclose, hreco⟩
  · rintro ⟨rfl, hclose, hreco⟩
    exact ⟨price, hclose, hreco, rfl, rfl⟩

/-- The days the entry is looked for on, with an answer, are those that enter. -/
private theorem mem_entryDays_iff {d : ℕ} :
    d ∈ ((m.equityCloses.keys.filter fun d => pick.pickDate < d).insertionSort (· ≤ ·)) ∧
        (entryOn m pick actions d).isSome = true ↔ m.Enters pick actions d := by
  rw [List.mem_insertionSort, List.mem_filter, Option.isSome_iff_exists, decide_eq_true_eq]
  constructor
  · rintro ⟨⟨-, hlater⟩, ⟨e, price⟩, hentry⟩
    obtain ⟨-, hclose, hreco⟩ := entryOn_eq_some_iff.mp hentry
    exact ⟨hlater, price, hclose, hreco⟩
  · rintro ⟨hlater, close, hclose, hreco⟩
    exact ⟨⟨mem_keys_of_get? hclose, hlater⟩, (d, close), entryOn_eq_some_iff.mpr ⟨rfl, hclose, hreco⟩⟩

private theorem enterBackfillPick_eq :
    m.enterBackfillPick pick actions =
      ((m.equityCloses.keys.filter fun d => pick.pickDate < d).insertionSort (· ≤ ·)).findSome?
        (entryOn m pick actions) := by
  rw [Market.enterBackfillPick]
  split
  next hnone =>
    refine (List.findSome?_eq_none_iff.mpr fun d _ => ?_).symm
    rw [Option.isNone_iff_eq_none] at hnone
    refine Option.eq_none_iff_forall_ne_some.mpr fun ⟨e, price⟩ hentry => ?_
    obtain ⟨-, -, reco, hreco, -⟩ := entryOn_eq_some_iff.mp hentry
    rw [hnone] at hreco
    exact absurd hreco (by simp)
  next => rfl

/-- **The entry** is on the first day whose close is above the price of the pick. -/
theorem enterBackfillPick_eq_some_iff {e : ℕ} {price : ℚ} :
    m.enterBackfillPick pick actions = some (e, price) ↔
      IsLeast {d | m.Enters pick actions d} e ∧ m.equityCloses.get? e = some price := by
  rw [enterBackfillPick_eq, Selection.findSome?_eq_some_iff_isLeast (List.pairwise_insertionSort _ _)]
  simp only [mem_entryDays_iff]
  constructor
  · rintro ⟨d, hd, hentry⟩
    obtain ⟨rfl, hclose, -⟩ := entryOn_eq_some_iff.mp hentry
    exact ⟨hd, hclose⟩
  · rintro ⟨he, hclose⟩
    obtain ⟨-, close, hclose', hreco⟩ := he.1
    obtain rfl : close = price := Option.some.inj (hclose'.symm.trans hclose)
    exact ⟨e, he, entryOn_eq_some_iff.mpr ⟨rfl, hclose, hreco⟩⟩

theorem enterBackfillPick_eq_none_iff :
    m.enterBackfillPick pick actions = none ↔ ∀ d, ¬m.Enters pick actions d := by
  rw [enterBackfillPick_eq, List.findSome?_eq_none_iff]
  constructor
  · intro h d hd
    obtain ⟨hmem, hsome⟩ := mem_entryDays_iff.mpr hd
    rw [h d hmem] at hsome
    exact absurd hsome (by simp)
  · intro h d hmem
    by_contra hsome
    exact h d (mem_entryDays_iff.mp ⟨hmem, Option.isSome_iff_ne_none.mpr hsome⟩)

end Entry

/-! ### The walk -/

section Walk

variable {m : Market} {pick : Pick} {actions : List CorporateAction} {existingDates : List ℕ} {now : String}

theorem terminalStatus_isSome_iff {day : ℕ} {close : ℚ} :
    (Market.terminalStatus pick actions day close).isSome = true ↔
      TargetReached pick actions day close ∨ StopReached pick actions day close := by
  unfold Market.terminalStatus TargetReached StopReached
  simp only [any_adjustLevel, decide_eq_true_eq]
  split
  next htarget => exact iff_of_true rfl (Or.inl htarget)
  next htarget =>
    split
    next hstop => exact iff_of_true rfl (Or.inr hstop)
    next hstop => exact iff_of_false (by simp) (not_or.mpr ⟨htarget, hstop⟩)

/-- The status of an exit. -/
theorem terminalStatus_eq_some {day : ℕ} {close : ℚ} {status : PickStatus}
    (h : Market.terminalStatus pick actions day close = some status) :
    (TargetReached pick actions day close → status = .targetHit) ∧
      (¬TargetReached pick actions day close → status = .slHit) ∧ MVPStore.isTerminal status = true := by
  unfold Market.terminalStatus at h
  unfold TargetReached
  simp only [any_adjustLevel, decide_eq_true_eq] at h
  split at h
  next htarget =>
    obtain rfl := Option.some.inj h
    exact ⟨fun _ => rfl, fun hnot => absurd htarget hnot, rfl⟩
  next htarget =>
    split at h
    next =>
      obtain rfl := Option.some.inj h
      exact ⟨fun hyes => absurd hyes htarget, fun _ => rfl, rfl⟩
    next => exact absurd h (by simp)

/-- The snapshot that the walk stores on a day, unless it has stopped before. -/
def Market.snapshotFor (m : Market) (pick : Pick) (existingDates : List ℕ) (day : ℕ) : Option StoredSnapshot :=
  if isTradingDay m.holidays day = true ∧ day ∉ existingDates then
    (m.equityCloses.get? day).map (m.snapshotOn pick.pickId day)
  else none

/-- The exit that the walk makes on a day, unless it has stopped before. -/
def Market.exitOn (m : Market) (pick : Pick) (actions : List CorporateAction) (existingDates : List ℕ) (day : ℕ) :
    Option (ℕ × ℚ × PickStatus) :=
  if isTradingDay m.holidays day = true ∧ day ∉ existingDates then
    (m.equityCloses.get? day).bind fun close =>
      (Market.terminalStatus pick actions day close).map fun status => (day, close, status)
  else none

/-- The store with more snapshots. -/
def BackfillStore.recordAll (S : BackfillStore) (snapshots : List StoredSnapshot) : BackfillStore :=
  { S with snapshots := S.snapshots ++ snapshots }

theorem BackfillStore.recordAll_append (S : BackfillStore) (l l' : List StoredSnapshot) :
    (S.recordAll l).recordAll l' = S.recordAll (l ++ l') := by
  rw [recordAll, recordAll, recordAll]
  simp only [List.append_assoc]

theorem exitOn_eq_some_iff {day x : ℕ} {close : ℚ} {status : PickStatus} :
    m.exitOn pick actions existingDates day = some (x, close, status) ↔
      day = x ∧ isTradingDay m.holidays x = true ∧ x ∉ existingDates ∧ m.equityCloses.get? x = some close ∧
        Market.terminalStatus pick actions x close = some status := by
  simp only [Market.exitOn, Option.ite_none_right_eq_some, Option.bind_eq_some_iff, Option.map_eq_some_iff,
    Prod.mk.injEq]
  constructor
  · rintro ⟨⟨htrading, hnew⟩, close', hclose, status', hstatus, rfl, rfl, rfl⟩
    exact ⟨rfl, htrading, hnew, hclose, hstatus⟩
  · rintro ⟨rfl, htrading, hnew, hclose, hstatus⟩
    exact ⟨⟨htrading, hnew⟩, close, hclose, status, hstatus, rfl, rfl, rfl⟩

/-- The snapshots of a day and of the days after it. -/
private theorem snapshotsFor_cons (day : ℕ) (days : List ℕ) :
    (day :: days).filterMap (m.snapshotFor pick existingDates) =
      (m.snapshotFor pick existingDates day).toList ++ days.filterMap (m.snapshotFor pick existingDates) := by
  rw [List.filterMap_cons]
  cases m.snapshotFor pick existingDates day <;> rfl

/-- A day without an exit adds its snapshot and leaves the rest to the days after it. -/
theorem walk_cons_of_goes {day : ℕ} (h : m.exitOn pick actions existingDates day = none) (days : List ℕ)
    (S : BackfillStore) : m.walk pick actions existingDates now (day :: days) S =
      m.walk pick actions existingDates now days (S.recordAll (m.snapshotFor pick existingDates day).toList) := by
  by_cases hopen : isTradingDay m.holidays day = true ∧ day ∉ existingDates
  · rw [Market.exitOn, if_pos hopen] at h
    rw [Market.walk, if_neg (by simp [hopen.1]), if_neg hopen.2, Market.snapshotFor, if_pos hopen]
    cases hclose : m.equityCloses.get? day with
    | none => simp [BackfillStore.recordAll]
    | some close =>
      rw [hclose, Option.bind_some, Option.map_eq_none_iff] at h
      simp only [h]
      rfl
  · rw [Market.snapshotFor, if_neg hopen, Market.walk]
    simp only [Option.toList_none, BackfillStore.recordAll, List.append_nil]
    by_cases htrading : isTradingDay m.holidays day = true
    · rw [if_neg (by simp [htrading]), if_pos (by simpa [htrading] using hopen)]
    · rw [if_pos (by simpa using htrading)]

/-- A day with an exit adds its snapshot and closes the pick. -/
theorem walk_cons_of_exits {day : ℕ} {close : ℚ} {status : PickStatus}
    (h : m.exitOn pick actions existingDates day = some (day, close, status)) (days : List ℕ) (S : BackfillStore) :
    m.walk pick actions existingDates now (day :: days) S =
      ((S.recordAll (m.snapshotFor pick existingDates day).toList).closePick pick.pickId close status day now).map
        Prod.fst := by
  obtain ⟨-, htrading, hnew, hclose, hstatus⟩ := exitOn_eq_some_iff.mp h
  rw [Market.walk, if_neg (by simp [htrading]), if_neg hnew, hclose, Market.snapshotFor, if_pos ⟨htrading, hnew⟩,
    hclose, Option.map_some]
  simp only [hstatus]
  rfl

/-- **The walk** stores a snapshot for each day up to the first exit, and closes the pick there. -/
theorem walk_eq : ∀ {days : List ℕ} (S : BackfillStore), days.Pairwise (· < ·) →
    m.walk pick actions existingDates now days S =
      match days.findSome? (m.exitOn pick actions existingDates) with
      | none => some (S.recordAll (days.filterMap (m.snapshotFor pick existingDates)))
      | some (x, close, status) =>
        ((S.recordAll ((days.filter (· ≤ x)).filterMap (m.snapshotFor pick existingDates))).closePick pick.pickId
          close status x now).map Prod.fst
  | [], S, _ => by simp [Market.walk, BackfillStore.recordAll]
  | day :: days, S, hdays => by
    obtain ⟨hfirst, hrest⟩ := List.pairwise_cons.mp hdays
    rw [List.findSome?_cons]
    cases hexit : m.exitOn pick actions existingDates day with
    | none =>
      rw [walk_cons_of_goes hexit, walk_eq _ hrest]
      cases hfound : days.findSome? (m.exitOn pick actions existingDates) with
      | none =>
        simp only
        rw [snapshotsFor_cons, BackfillStore.recordAll_append]
      | some found =>
        obtain ⟨x, close, status⟩ := found
        -- the exit is later than the first day, which is before it
        obtain ⟨d, hd, hon⟩ := List.exists_of_findSome?_eq_some hfound
        obtain ⟨rfl, -⟩ := exitOn_eq_some_iff.mp hon
        simp only
        rw [List.filter_cons_of_pos (by simpa using (hfirst d hd).le), snapshotsFor_cons, BackfillStore.recordAll_append]
    | some found =>
      obtain ⟨x, close, status⟩ := found
      obtain rfl := (exitOn_eq_some_iff.mp hexit).1
      have hlast : days.filter (· ≤ day) = [] :=
        List.filter_eq_nil_iff.mpr fun d hd => by simpa using hfirst d hd
      simp only
      rw [walk_cons_of_exits hexit, List.filter_cons_of_pos (by simp), hlast, snapshotsFor_cons, List.filterMap_nil,
        List.append_nil]

end Walk

/-! ### The tables after the walk -/

/-- The row that `update_pick` writes when a pick gets its entry price. -/
def StoredPick.opened (row : StoredPick) (price : ℚ) (now : String) : StoredPick :=
  { row with toPickRow := { row.toPickRow.entered price with updatedAt := now } }

/-- The row that `close_pick` writes. -/
def StoredPick.closed (row : StoredPick) (closePrice : ℚ) (status : PickStatus) (realized : ℚ) (now : String) :
    StoredPick :=
  { row with closedAt := some now, closePrice := some closePrice, status, updatedAt := now, realizedPnl := realized }

namespace BackfillStore

variable {S S' : BackfillStore} {row : StoredPick} {pickId now : String}

theorem pickId_of_getPick (h : S.getPick pickId = some row) : row.pickId = pickId := by
  simpa using List.find?_some h

theorem getPick_setPick (row' : StoredPick) (h : S.getPick row'.pickId = some row) :
    (S.setPick row').getPick row'.pickId = some row' := by
  have hsame : ((fun p : StoredPick => decide (p.pickId = row'.pickId)) ∘
      fun p => if p.pickId = row'.pickId then row' else p) = fun p => decide (p.pickId = row'.pickId) := by
    funext p
    rw [Function.comp_apply]
    split
    next hp => rw [hp]
    next => rfl
  rw [getPick, setPick, List.find?_map, hsame, ← getPick, h, Option.map_some, if_pos (pickId_of_getPick h)]

/-- The price of a PENDING pick opens it, unless it is zero. -/
theorem updatePick_entryPrice (h : S.getPick pickId = some row) (hpending : row.status = .pending) (price : ℚ) :
    S.updatePick pickId { entryPrice := some price } now =
      if price = 0 then none else some (S.setPick (row.opened price now)) := by
  rw [updatePick, h]
  simp only [PickRow.update, hpending, if_true]
  split
  next => rfl
  next => rfl

theorem closePick_fst {closePrice : ℚ} {status : PickStatus} {asOf : ℕ} (h : S.getPick pickId = some row)
    (hterminal : MVPStore.isTerminal status = true) :
    (S.closePick pickId closePrice status asOf now).map Prod.fst =
      some (S.setPick (row.closed closePrice status
        (realizedPnl closePrice (S.toStore.getAdjustedPick row.toPick asOf)) now)) := by
  rw [closePick, if_pos hterminal, h]
  rfl

theorem mem_snapshotDays {d : ℕ} : d ∈ S.snapshotDays pickId ↔ ∃ s ∈ S.snapshots, s.pickId = pickId ∧ s.day = d := by
  simp only [snapshotDays, MVPStore.snapshotsOf, toStore, List.mem_map, List.mem_filter, decide_eq_true_eq]
  constructor
  · rintro ⟨_, ⟨⟨s, hs, rfl⟩, hid⟩, hday⟩
    exact ⟨s, hs, hid, hday⟩
  · rintro ⟨s, hs, hid, hday⟩
    exact ⟨s.toMVPSnapshot, ⟨⟨s, hs, rfl⟩, hid⟩, hday⟩

theorem mem_of_mem_getSnapshots {s : StoredSnapshot} {limit : ℕ} (h : s ∈ S.getSnapshots pickId limit) :
    s ∈ S.snapshots ∧ s.pickId = pickId := by
  simpa using (List.mem_insertionSort _).mp (List.mem_of_mem_take h)

theorem mem_snapshotDays_of_mem_existingDates {d : ℕ} (h : d ∈ S.existingDates pickId) :
    d ∈ S.snapshotDays pickId := by
  obtain ⟨s, hs, rfl⟩ := List.mem_map.mp h
  obtain ⟨hs, hid⟩ := mem_of_mem_getSnapshots hs
  exact mem_snapshotDays.mpr ⟨s, hs, hid, rfl⟩

/-- The fills of a pick in a store with the same tranches, whose earliest snapshot is of this day. -/
theorem getFills_eq {pick : Pick} {f : ℕ} (htranches : S'.tranches = S.tranches)
    (hf : IsLeast {d | d ∈ S'.snapshotDays pick.pickId} f) : S'.toStore.getFills pick = S.fillsFrom pick f := by
  have hsame : S'.toStore.trancheFills pick.pickId = S.toStore.trancheFills pick.pickId := by
    rw [MVPStore.trancheFills, MVPStore.trancheFills, toStore, toStore, htranches]
  have hmin : ((S'.toStore.snapshotsOf pick.pickId).map (·.day)).min? = some f :=
    List.min?_eq_some_iff.mpr ⟨hf.1, fun d hd => hf.2 hd⟩
  rw [MVPStore.getFills, hsame, fillsFrom, MVPStore.lumpFill, hmin]
  rfl

/-- **What the lump sum makes**: restated from its day, the shares rounded down. -/
theorem realizedPnl_lumpFillOn {pick : Pick} {avgCost : ℚ} {qty : ℤ} (havg : pick.avgCost = some avgCost)
    (hqty : pick.totalQty = qty) (close : ℚ) (actions : List CorporateAction) (day asOf : ℕ) :
    realizedPnl close (adjustedPick pick actions asOf (lumpFillOn pick day)) =
      (close * (1 - costBps / 10000) - avgCost / cumulativeMultiplier actions day asOf) *
        ⌊pick.totalQty * cumulativeMultiplier actions day asOf⌋ := by
  have hM := (cumulativeMultiplier_pos actions day asOf).ne'
  cases actions with
  | nil =>
    rw [adjustedPick, List.isEmpty_nil, if_pos rfl, realizedPnl, havg, cumulativeMultiplier_nil, div_one, mul_one, hqty,
      Int.floor_intCast]
  | cons a actions =>
    rw [adjustedPick, List.isEmpty_cons, if_neg Bool.false_ne_true, lumpFillOn, havg]
    by_cases hzero : pick.totalQty = 0
    · simp [hzero, realizedPnl]
    · have hrestated : restatedQty [⟨avgCost, pick.totalQty, day⟩] (a :: actions) asOf =
          pick.totalQty * cumulativeMultiplier (a :: actions) day asOf := by
        simp [restatedQty]
      have hcost : avgCost * pick.totalQty / (pick.totalQty * cumulativeMultiplier (a :: actions) day asOf) =
          avgCost / cumulativeMultiplier (a :: actions) day asOf := by
        rw [mul_comm avgCost, mul_div_mul_left _ _ hzero]
      simp only [if_neg hzero, List.map_cons, List.map_nil, List.min?_singleton, adjustPosition, hrestated,
        if_neg (mul_ne_zero hzero hM), realizedPnl, List.sum_cons, List.sum_nil, add_zero, hcost]

end BackfillStore

/-! ### What the walk has written -/

section Written

variable {m : Market} {S S' : BackfillStore} {pick : Pick} {days : List ℕ} {first last : ℕ}

theorem snapshotFor_eq_some {existingDates : List ℕ} {day : ℕ} {s : StoredSnapshot}
    (h : m.snapshotFor pick existingDates day = some s) : s.pickId = pick.pickId ∧ s.day = day ∧ m.Session day := by
  unfold Market.snapshotFor at h
  split at h
  next hopen =>
    obtain ⟨close, hclose, rfl⟩ := Option.map_eq_some_iff.mp h
    exact ⟨rfl, rfl, hopen.1, by rw [hclose, Option.isSome_some]⟩
  next => exact absurd h (by simp)

/-- A trading day with a close has a snapshot already or gets one. -/
theorem session_cases (pick : Pick) (existingDates : List ℕ) {day : ℕ} (h : m.Session day) :
    day ∈ existingDates ∨ ∃ s, m.snapshotFor pick existingDates day = some s := by
  by_cases hmem : day ∈ existingDates
  · exact Or.inl hmem
  · obtain ⟨close, hclose⟩ := Option.isSome_iff_exists.mp h.2
    exact Or.inr ⟨_, by rw [Market.snapshotFor, if_pos ⟨h.1, hmem⟩, hclose, Option.map_some]⟩

/-- **The days with a snapshot** after the walk: those before, and the trading days with a close. -/
theorem mem_snapshotDays_walked (pick : Pick) (hdays : ∀ d, d ∈ days ↔ first ≤ d ∧ d ≤ last)
    (hnew : S'.snapshots = S.snapshots ++ days.filterMap (m.snapshotFor pick (S.existingDates pick.pickId))) {d : ℕ} :
    d ∈ S'.snapshotDays pick.pickId ↔ d ∈ S.snapshotDays pick.pickId ∨ (first ≤ d ∧ d ≤ last ∧ m.Session d) := by
  simp only [BackfillStore.mem_snapshotDays, hnew, List.mem_append, List.mem_filterMap]
  constructor
  · rintro ⟨s, hs | ⟨day, hday, hs⟩, hid, rfl⟩
    · exact Or.inl ⟨s, hs, hid, rfl⟩
    · obtain ⟨-, rfl, hsession⟩ := snapshotFor_eq_some hs
      exact Or.inr ⟨((hdays _).mp hday).1, ((hdays _).mp hday).2, hsession⟩
  · rintro (⟨s, hs, hid, rfl⟩ | ⟨hfirst, hlast, hsession⟩)
    · exact ⟨s, Or.inl hs, hid, rfl⟩
    · rcases session_cases pick (S.existingDates pick.pickId) hsession with hmem | ⟨s, hs⟩
      · obtain ⟨s, hs, hid, rfl⟩ :=
          BackfillStore.mem_snapshotDays.mp (BackfillStore.mem_snapshotDays_of_mem_existingDates hmem)
        exact ⟨s, Or.inl hs, hid, rfl⟩
      · obtain ⟨hid, hday, -⟩ := snapshotFor_eq_some hs
        exact ⟨s, Or.inr ⟨d, (hdays d).mpr ⟨hfirst, hlast⟩, hs⟩, hid, hday⟩

theorem writesSnapshots_walked (pick : Pick) (hdays : ∀ d, d ∈ days ↔ first ≤ d ∧ d ≤ last)
    (hnew : S'.snapshots = S.snapshots ++ days.filterMap (m.snapshotFor pick (S.existingDates pick.pickId))) :
    m.WritesSnapshots S S' pick.pickId first last where
  new := by
    refine ⟨_, hnew, fun s hs => ?_⟩
    obtain ⟨day, hday, hs⟩ := List.mem_filterMap.mp hs
    obtain ⟨hid, rfl, hsession⟩ := snapshotFor_eq_some hs
    exact ⟨hid, hsession.1, ((hdays _).mp hday).1, ((hdays _).mp hday).2⟩
  all d hfirst hlast hsession :=
    BackfillStore.mem_snapshotDays.mp ((mem_snapshotDays_walked pick hdays hnew).mpr (Or.inr ⟨hfirst, hlast, hsession⟩))

/-- A new snapshot is of a day up to the last. -/
theorem le_of_writesSnapshots (pick : Pick) {last' d : ℕ}
    (hnew : S'.snapshots = S.snapshots ++ days.filterMap (m.snapshotFor pick (S.existingDates pick.pickId)))
    (hd : d ∈ days) (hsession : m.Session d) (hmem : d ∉ S.existingDates pick.pickId)
    (h : m.WritesSnapshots S S' pick.pickId first last') : d ≤ last' := by
  obtain ⟨new, hsplit, hall⟩ := h.new
  obtain ⟨s, hs⟩ := (session_cases pick (S.existingDates pick.pickId) hsession).resolve_left hmem
  have hwritten : s ∈ new := by
    rw [← List.append_cancel_left (hnew.symm.trans hsplit)]
    exact List.mem_filterMap.mpr ⟨d, hd, hs⟩
  rw [← (snapshotFor_eq_some hs).2.1]
  exact (hall s hwritten).2.2.2

theorem mem_daysFrom {endDate d : ℕ} : d ∈ List.range' first (endDate + 1 - first) ↔ first ≤ d ∧ d ≤ endDate := by
  rw [List.mem_range'_1]
  omega

theorem mem_daysUntil {endDate x d : ℕ} (hx : x ≤ endDate) :
    d ∈ (List.range' first (endDate + 1 - first)).filter (· ≤ x) ↔ first ≤ d ∧ d ≤ x := by
  rw [List.mem_filter, mem_daysFrom, decide_eq_true_eq]
  omega

end Written

/-! ### The exit of the walk -/

section Exit

variable {m : Market} {pick : Pick} {actions : List CorporateAction} {existingDates : List ℕ} {first endDate : ℕ}

theorem exitOn_isSome_iff {d : ℕ} :
    (m.exitOn pick actions existingDates d).isSome = true ↔ m.Reaches pick actions d ∧ d ∉ existingDates := by
  rw [Option.isSome_iff_exists]
  constructor
  · rintro ⟨⟨x, close, status⟩, hexit⟩
    obtain ⟨rfl, htrading, hmem, hclose, hstatus⟩ := exitOn_eq_some_iff.mp hexit
    exact ⟨⟨htrading, close, hclose, terminalStatus_isSome_iff.mp (by rw [hstatus, Option.isSome_some])⟩, hmem⟩
  · rintro ⟨⟨htrading, close, hclose, hlevel⟩, hmem⟩
    obtain ⟨status, hstatus⟩ := Option.isSome_iff_exists.mp (terminalStatus_isSome_iff.mpr hlevel)
    exact ⟨(d, close, status), exitOn_eq_some_iff.mpr ⟨rfl, htrading, hmem, hclose, hstatus⟩⟩

/-- **The exit of the walk** is on the first day without a snapshot whose close reaches a level. -/
theorem findSome?_exitOn_eq_some_iff {x : ℕ} {close : ℚ} {status : PickStatus} :
    (List.range' first (endDate + 1 - first)).findSome? (m.exitOn pick actions existingDates) = some (x, close, status) ↔
      IsLeast {d | first ≤ d ∧ d ≤ endDate ∧ m.Reaches pick actions d ∧ d ∉ existingDates} x ∧
        m.equityCloses.get? x = some close ∧ Market.terminalStatus pick actions x close = some status := by
  rw [Selection.findSome?_eq_some_iff_isLeast (List.pairwise_le_range' _)]
  simp only [mem_daysFrom, exitOn_isSome_iff, and_assoc]
  constructor
  · rintro ⟨d, hd, hexit⟩
    obtain ⟨rfl, -, -, hclose, hstatus⟩ := exitOn_eq_some_iff.mp hexit
    exact ⟨hd, hclose, hstatus⟩
  · rintro ⟨hx, hclose, hstatus⟩
    exact ⟨x, hx, exitOn_eq_some_iff.mpr ⟨rfl, hx.1.2.2.1.1, hx.1.2.2.2, hclose, hstatus⟩⟩

theorem findSome?_exitOn_eq_none_iff :
    (List.range' first (endDate + 1 - first)).findSome? (m.exitOn pick actions existingDates) = none ↔
      ∀ d, first ≤ d → d ≤ endDate → m.Reaches pick actions d → d ∈ existingDates := by
  rw [List.findSome?_eq_none_iff]
  constructor
  · intro h d hfirst hlast hreaches
    by_contra hmem
    have hsome := exitOn_isSome_iff.mpr ⟨hreaches, hmem⟩
    rw [h d (mem_daysFrom.mpr ⟨hfirst, hlast⟩)] at hsome
    exact absurd hsome (by simp)
  · intro h d hd
    by_contra hsome
    obtain ⟨hreaches, hmem⟩ := exitOn_isSome_iff.mp (Option.isSome_iff_ne_none.mpr hsome)
    exact hmem (h d (mem_daysFrom.mp hd).1 (mem_daysFrom.mp hd).2 hreaches)

end Exit

/-! ### The run -/

section Run

variable {m : Market} {S : BackfillStore} {row : StoredPick} {endDate : Option ℕ} {today : ℕ} {now : String}

theorem runBackfill_pending (hrow : S.getPick row.pickId = some row) (hpending : row.status = .pending)
    (hnone : m.enterBackfillPick row.toPick (S.toStore.getCorporateActions row.symbol) = none) :
    m.runBackfill S row.pickId endDate today now = some S := by
  rw [Market.runBackfill, hrow]
  simp only [hpending, ne_eq, not_true_eq_false, if_false, hnone]

/-- An entry price of zero raises. -/
theorem runBackfill_zero (hrow : S.getPick row.pickId = some row) (hpending : row.status = .pending) {e : ℕ}
    (hentry : m.enterBackfillPick row.toPick (S.toStore.getCorporateActions row.symbol) = some (e, 0)) :
    m.runBackfill S row.pickId endDate today now = none := by
  rw [Market.runBackfill, hrow]
  simp only [hpending, ne_eq, not_true_eq_false, if_false, hentry, BackfillStore.updatePick_entryPrice hrow hpending,
    if_true, Option.bind_none]

/-- The store in which the walk closes the pick or ends. -/
def walkedStore (m : Market) (S : BackfillStore) (row : StoredPick) (price : ℚ) (now : String) (days : List ℕ) :
    BackfillStore :=
  (S.setPick (row.opened price now)).recordAll
    (days.filterMap (m.snapshotFor row.toPick (S.existingDates row.pickId)))

theorem getPick_walkedStore (m : Market) (hrow : S.getPick row.pickId = some row) (price : ℚ) (now : String)
    (days : List ℕ) :
    (walkedStore m S row price now days).getPick row.pickId = some (row.opened price now) :=
  BackfillStore.getPick_setPick (row.opened price now) hrow

/-- **The run of a pick that is entered**: its walk, from the entry day. -/
theorem runBackfill_entered (hrow : S.getPick row.pickId = some row) (hpending : row.status = .pending) {e : ℕ} {price : ℚ}
    (hentry : m.enterBackfillPick row.toPick (S.toStore.getCorporateActions row.symbol) = some (e, price))
    (hprice : price ≠ 0) :
    m.runBackfill S row.pickId endDate today now =
      match (List.range' e (endDate.getD today + 1 - e)).findSome?
        (m.exitOn row.toPick (S.toStore.getCorporateActions row.symbol) (S.existingDates row.pickId)) with
      | none => some (walkedStore m S row price now (List.range' e (endDate.getD today + 1 - e)))
      | some (x, close, status) =>
        let walked := walkedStore m S row price now ((List.range' e (endDate.getD today + 1 - e)).filter (· ≤ x))
        some (walked.setPick ((row.opened price now).closed close status
          (BackfillStore.realizedPnl close (walked.toStore.getAdjustedPick (row.opened price now).toPick x)) now)) := by
  have hopened : (S.setPick (row.opened price now)).getPick row.pickId = some (row.opened price now) :=
    BackfillStore.getPick_setPick (row.opened price now) hrow
  rw [Market.runBackfill, hrow]
  simp only [hpending, ne_eq, not_true_eq_false, if_false, hentry, BackfillStore.updatePick_entryPrice hrow hpending,
    if_neg hprice, Option.bind_some, hopened]
  have hstatus : (row.opened price now).status = .opened := rfl
  rw [if_neg (not_not_intro hstatus), walk_eq _ (List.pairwise_lt_range' _)]
  have hexits : m.exitOn (row.opened price now).toPick (S.toStore.getCorporateActions row.symbol)
      ((S.setPick (row.opened price now)).existingDates row.pickId) =
        m.exitOn row.toPick (S.toStore.getCorporateActions row.symbol) (S.existingDates row.pickId) := rfl
  rw [hexits]
  cases hfound : (List.range' e (endDate.getD today + 1 - e)).findSome?
      (m.exitOn row.toPick (S.toStore.getCorporateActions row.symbol) (S.existingDates row.pickId)) with
  | none => rfl
  | some found =>
    obtain ⟨x, close, status⟩ := found
    obtain ⟨-, -, hstatus⟩ := findSome?_exitOn_eq_some_iff.mp hfound
    exact BackfillStore.closePick_fst (getPick_walkedStore m hrow price now _) (terminalStatus_eq_some hstatus).2.2

/-- The P&L of the lump sum of a day, restated as the exit restates it. -/
theorem realizedPnl_entered (row : StoredPick) (price close : ℚ) (actions : List CorporateAction) (e x : ℕ) :
    BackfillStore.realizedPnl close (adjustedPick (row.entered price).toPick actions x
        (lumpFillOn (row.entered price).toPick e)) =
      (close * (1 - costBps / 10000) - price * (1 + costBps / 10000) / cumulativeMultiplier actions e x) *
        ⌊(row.entered price).totalQty * cumulativeMultiplier actions e x⌋ :=
  BackfillStore.realizedPnl_lumpFillOn rfl rfl close actions e x

/-- The P&L that the walk books, from the fills as the earliest snapshot dates them. -/
theorem realizedPnl_walked (row : StoredPick) (price close : ℚ) (now : String) (x : ℕ) {e last f : ℕ} {days : List ℕ}
    (hdays : ∀ d, d ∈ days ↔ e ≤ d ∧ d ≤ last)
    (hf : IsLeast {d | d ∈ S.snapshotDays row.pickId ∨ (e ≤ d ∧ d ≤ last ∧ m.Session d)} f) :
    BackfillStore.realizedPnl close
        ((walkedStore m S row price now days).toStore.getAdjustedPick (row.opened price now).toPick x) =
      BackfillStore.realizedPnl close (adjustedPick (row.entered price).toPick
        (S.toStore.getCorporateActions row.symbol) x (S.fillsFrom (row.entered price).toPick f)) := by
  have hset : {d | d ∈ (walkedStore m S row price now days).snapshotDays row.pickId} =
      {d | d ∈ S.snapshotDays row.pickId ∨ (e ≤ d ∧ d ≤ last ∧ m.Session d)} :=
    Set.ext fun d => mem_snapshotDays_walked row.toPick hdays rfl
  have hfills : (walkedStore m S row price now days).toStore.getFills (row.opened price now).toPick =
      S.fillsFrom (row.opened price now).toPick f :=
    BackfillStore.getFills_eq (S := S) rfl (by
      rw [show (row.opened price now).toPick.pickId = row.pickId from rfl, hset]
      exact hf)
  rw [MVPStore.getAdjustedPick, hfills]
  rfl

end Run

/-! ### The true exit is found -/

section Found

variable {m : Market} {S : BackfillStore} {row : StoredPick} {endDate : ℕ}

/-- The first day from `e` to the end whose close reaches a level. -/
def Market.TrueExit (m : Market) (S : BackfillStore) (row : StoredPick) (e endDate x : ℕ) : Prop :=
  IsLeast {d | e ≤ d ∧ d ≤ endDate ∧ m.Reaches row.toPick (S.toStore.getCorporateActions row.symbol) d} x

/-- A day in the range that reaches a level comes with a true exit. -/
theorem exists_trueExit {e d : ℕ} (hfirst : e ≤ d) (hlast : d ≤ endDate)
    (h : m.Reaches row.toPick (S.toStore.getCorporateActions row.symbol) d) : ∃ x, m.TrueExit S row e endDate x :=
  ⟨_, isLeast_csInf (s := {d | e ≤ d ∧ d ≤ endDate ∧ m.Reaches row.toPick (S.toStore.getCorporateActions row.symbol) d})
    ⟨d, hfirst, hlast, h⟩⟩

/-- What is asked of the run of a pick that enters on `e`. -/
theorem findsTrueExit_iff_of_enters {e : ℕ} {outcome : Option BackfillStore}
    (he : IsLeast {d | m.Enters row.toPick (S.toStore.getCorporateActions row.symbol) d} e) :
    m.FindsTrueExit S row endDate outcome ↔
      ∃ S' row', outcome = some S' ∧ S'.getPick row.pickId = some row' ∧ row'.entryPrice = m.equityCloses.get? e ∧
        (∀ x, m.TrueExit S row e endDate x →
          m.ClosesOn row.toPick (S.toStore.getCorporateActions row.symbol) row' e x ∧
            m.WritesSnapshots S S' row.pickId e x) ∧
        ((∀ d, e ≤ d → d ≤ endDate → ¬m.Reaches row.toPick (S.toStore.getCorporateActions row.symbol) d) →
          row'.status = .opened ∧ m.WritesSnapshots S S' row.pickId e endDate) := by
  constructor
  · exact fun h => h.entered e he
  · intro h
    refine ⟨fun e' he' => ?_, fun hno => absurd he.1 (hno e)⟩
    rw [he'.unique he]
    exact h

/-- And of the tables before it. -/
theorem exitIsClear_iff_of_enters {e : ℕ} {price : ℚ}
    (he : IsLeast {d | m.Enters row.toPick (S.toStore.getCorporateActions row.symbol) d} e)
    (hprice : m.equityCloses.get? e = some price) :
    m.ExitIsClear S row endDate ↔ price ≠ 0 ∧
      ∀ x close, m.TrueExit S row e endDate x → m.equityCloses.get? x = some close →
        x ∉ S.existingDates row.pickId ∧
          ∀ f, IsLeast {d | d ∈ S.snapshotDays row.pickId ∨ (e ≤ d ∧ d ≤ x ∧ m.Session d)} f →
            BackfillStore.realizedPnl close (adjustedPick (row.entered price).toPick
                (S.toStore.getCorporateActions row.symbol) x (S.fillsFrom (row.entered price).toPick f)) =
              BackfillStore.realizedPnl close (adjustedPick (row.entered price).toPick
                (S.toStore.getCorporateActions row.symbol) x (lumpFillOn (row.entered price).toPick e)) := by
  constructor
  · exact fun h => h e price he hprice
  · intro h e' price' he' hprice'
    obtain rfl := he'.unique he
    obtain rfl : price' = price := Option.some.inj (hprice'.symm.trans hprice)
    exact h

/-- A walk without an exit leaves the pick OPEN, as it should if no close reaches a level. -/
theorem findsTrueExit_iff_of_no_exit (hrow : S.getPick row.pickId = some row) {e : ℕ} {price : ℚ} {now : String}
    (he : IsLeast {d | m.Enters row.toPick (S.toStore.getCorporateActions row.symbol) d} e)
    (hprice : m.equityCloses.get? e = some price) (hzero : price ≠ 0)
    (hskipped : ∀ d, e ≤ d → d ≤ endDate → m.Reaches row.toPick (S.toStore.getCorporateActions row.symbol) d →
      d ∈ S.existingDates row.pickId) :
    m.FindsTrueExit S row endDate (some (walkedStore m S row price now (List.range' e (endDate + 1 - e)))) ↔
      m.ExitIsClear S row endDate := by
  have hget := getPick_walkedStore m hrow price now (List.range' e (endDate + 1 - e))
  rw [findsTrueExit_iff_of_enters he, exitIsClear_iff_of_enters he hprice]
  constructor
  · rintro ⟨S', row', hout, hrow', -, hclosed, -⟩
    refine ⟨hzero, fun x close hx hclose => ?_⟩
    -- the pick would be closed, and it is OPEN
    obtain rfl := Option.some.inj hout
    obtain rfl := Option.some.inj (hget.symm.trans hrow')
    obtain ⟨hcloses, -⟩ := hclosed x hx
    obtain ⟨close', hclose', -⟩ := hcloses.realized
    by_cases htarget : TargetReached row.toPick (S.toStore.getCorporateActions row.symbol) x close'
    · exact absurd (hcloses.target close' hclose' htarget) (by simp [StoredPick.opened, PickRow.entered, PickRow.fill])
    · exact absurd (hcloses.stop close' hclose' htarget) (by simp [StoredPick.opened, PickRow.entered, PickRow.fill])
  · rintro ⟨-, hclear⟩
    refine ⟨_, _, rfl, hget, hprice.symm, fun x hx => ?_, fun _ => ?_⟩
    · obtain ⟨hfirst, hlast, hreaches⟩ := hx.1
      obtain ⟨-, close, hclose, -⟩ := hreaches
      exact absurd (hskipped x hfirst hlast hx.1.2.2) (hclear x close hx hclose).1
    · exact ⟨rfl, writesSnapshots_walked row.toPick (fun _ => mem_daysFrom) rfl⟩

/-- A walk that exits on `x` finds the true exit exactly when that is `x`, which it is if the
true exit has no snapshot, and the fills make what the lump sum of the entry day makes. -/
theorem findsTrueExit_iff_of_exit (hrow : S.getPick row.pickId = some row) {e x : ℕ} {price close : ℚ}
    {status : PickStatus} {now : String}
    (he : IsLeast {d | m.Enters row.toPick (S.toStore.getCorporateActions row.symbol) d} e)
    (hprice : m.equityCloses.get? e = some price) (hzero : price ≠ 0)
    (hexit : (List.range' e (endDate + 1 - e)).findSome? (m.exitOn row.toPick
      (S.toStore.getCorporateActions row.symbol) (S.existingDates row.pickId)) = some (x, close, status)) :
    m.FindsTrueExit S row endDate
        (let walked := walkedStore m S row price now ((List.range' e (endDate + 1 - e)).filter (· ≤ x))
        some (walked.setPick ((row.opened price now).closed close status
          (BackfillStore.realizedPnl close (walked.toStore.getAdjustedPick (row.opened price now).toPick x)) now))) ↔
      m.ExitIsClear S row endDate := by
  obtain ⟨hx, hclose, hstatus⟩ := findSome?_exitOn_eq_some_iff.mp hexit
  obtain ⟨⟨hfirst, hlast, hreaches, hnew⟩, hleast⟩ := hx
  obtain ⟨htarget, hstop, -⟩ := terminalStatus_eq_some hstatus
  have hdays : ∀ d, d ∈ (List.range' e (endDate + 1 - e)).filter (· ≤ x) ↔ e ≤ d ∧ d ≤ x := fun _ => mem_daysUntil hlast
  have hwritten : ∀ {S' : BackfillStore}, S'.snapshots = (walkedStore m S row price now
      ((List.range' e (endDate + 1 - e)).filter (· ≤ x))).snapshots → m.WritesSnapshots S S' row.pickId e x :=
    fun hsnap => writesSnapshots_walked row.toPick hdays hsnap
  have hsession : m.Session x := ⟨hreaches.1, by rw [hclose, Option.isSome_some]⟩
  -- the earliest snapshot after the walk
  obtain ⟨f, hf⟩ : ∃ f, IsLeast {d | d ∈ S.snapshotDays row.pickId ∨ (e ≤ d ∧ d ≤ x ∧ m.Session d)} f :=
    ⟨_, isLeast_csInf ⟨x, Or.inr ⟨hfirst, le_rfl, hsession⟩⟩⟩
  have hpnl := realizedPnl_walked row price close now x hdays hf
  have hwalked := getPick_walkedStore m hrow price now ((List.range' e (endDate + 1 - e)).filter (· ≤ x))
  have hget := BackfillStore.getPick_setPick
    ((row.opened price now).closed close status (BackfillStore.realizedPnl close
      ((walkedStore m S row price now ((List.range' e (endDate + 1 - e)).filter (· ≤ x))).toStore.getAdjustedPick
        (row.opened price now).toPick x)) now)
    hwalked
  rw [findsTrueExit_iff_of_enters he, exitIsClear_iff_of_enters he hprice]
  constructor
  · rintro ⟨S', row', hout, hrow', -, hclosed, -⟩
    refine ⟨hzero, fun x' close' hx' hclose' => ?_⟩
    obtain rfl := Option.some.inj hout
    obtain rfl := Option.some.inj (hget.symm.trans hrow')
    obtain ⟨hcloses, hwrites⟩ := hclosed x' hx'
    -- the snapshot of the exit is a new one
    obtain rfl : x' = x := le_antisymm (hx'.2 ⟨hfirst, hlast, hreaches⟩)
      (le_of_writesSnapshots row.toPick rfl ((hdays x).mpr ⟨hfirst, le_rfl⟩) hsession hnew hwrites)
    obtain rfl : close' = close := Option.some.inj (hclose'.symm.trans hclose)
    refine ⟨hnew, fun f' hf' => ?_⟩
    obtain rfl := hf'.unique hf
    obtain ⟨c, hc, avg, havg, hrealized⟩ := hcloses.realized
    obtain rfl : close' = c := Option.some.inj hc
    obtain rfl : price * (1 + costBps / 10000) = avg := Option.some.inj havg
    rw [← hpnl, realizedPnl_entered]
    exact hrealized
  · rintro ⟨-, hclear⟩
    obtain ⟨x₀, hx₀⟩ := exists_trueExit hfirst hlast hreaches
    obtain ⟨hfirst₀, hlast₀, hreaches₀⟩ := hx₀.1
    obtain ⟨close₀, hclose₀, -⟩ := hreaches₀.2
    obtain ⟨hnew₀, hsame⟩ := hclear x₀ close₀ hx₀ hclose₀
    -- the walk stops on the true exit, which has no snapshot
    obtain rfl : x₀ = x :=
      le_antisymm (hx₀.2 ⟨hfirst, hlast, hreaches⟩) (hleast ⟨hfirst₀, hlast₀, hreaches₀, hnew₀⟩)
    obtain rfl : close₀ = close := Option.some.inj (hclose₀.symm.trans hclose)
    refine ⟨_, _, rfl, hget, hprice.symm, fun x hx => ?_, fun hno => absurd hreaches (hno x₀ hfirst hlast)⟩
    obtain rfl := hx.unique hx₀
    refine ⟨⟨hclose.symm, fun c hc => ?_, fun c hc => ?_, close₀, rfl, _, rfl, ?_⟩, hwritten rfl⟩
    · obtain rfl : close₀ = c := Option.some.inj hc
      exact htarget
    · obtain rfl : close₀ = c := Option.some.inj hc
      exact hstop
    · exact (hpnl.trans (hsame f hf)).trans (realizedPnl_entered row price close₀ _ e x)

/-- **The backfill finds the true exit** of a PENDING pick exactly when the entry price is not
zero, the day of the true exit has no snapshot yet, and on it the fills on record make what the
lump sum of the entry day makes. -/
theorem findsTrueExit_iff (m : Market) (S : BackfillStore) {row : StoredPick}
    (hrow : S.getPick row.pickId = some row) (hpending : row.status = .pending) (endDate : Option ℕ) (today : ℕ)
    (now : String) :
    m.FindsTrueExit S row (endDate.getD today) (m.runBackfill S row.pickId endDate today now) ↔
      m.ExitIsClear S row (endDate.getD today) := by
  cases hentry : m.enterBackfillPick row.toPick (S.toStore.getCorporateActions row.symbol) with
  | none =>
    have hno := enterBackfillPick_eq_none_iff.mp hentry
    rw [runBackfill_pending hrow hpending hentry]
    exact iff_of_true ⟨fun e he => absurd he.1 (hno e), fun _ => rfl⟩ fun e _ he _ => absurd he.1 (hno e)
  | some entry =>
    obtain ⟨e, price⟩ := entry
    obtain ⟨he, hprice⟩ := enterBackfillPick_eq_some_iff.mp hentry
    by_cases hzero : price = 0
    · subst hzero
      rw [runBackfill_zero hrow hpending hentry, findsTrueExit_iff_of_enters he, exitIsClear_iff_of_enters he hprice]
      refine iff_of_false ?_ fun h => h.1 rfl
      rintro ⟨S', -, hout, -⟩
      exact absurd hout (by simp)
    · rw [runBackfill_entered hrow hpending hentry hzero]
      cases hexit : (List.range' e (endDate.getD today + 1 - e)).findSome?
          (m.exitOn row.toPick (S.toStore.getCorporateActions row.symbol) (S.existingDates row.pickId)) with
      | none => exact findsTrueExit_iff_of_no_exit hrow he hprice hzero (findSome?_exitOn_eq_none_iff.mp hexit)
      | some found =>
        obtain ⟨x, close, status⟩ := found
        exact findsTrueExit_iff_of_exit hrow he hprice hzero hexit

/-- Fills without a tranche make what the lump sum of the entry day makes if no ex-date up to
the exit lies between the entry and the earliest snapshot. -/
theorem realizedPnl_fillsFrom {price close : ℚ} {actions : List CorporateAction} {e f x : ℕ}
    (htranches : S.toStore.trancheFills row.pickId = [])
    (hdates : ∀ a ∈ actions, f < a.exDate ∧ a.exDate ≤ x ↔ e < a.exDate ∧ a.exDate ≤ x) :
    BackfillStore.realizedPnl close
        (adjustedPick (row.entered price).toPick actions x (S.fillsFrom (row.entered price).toPick f)) =
      BackfillStore.realizedPnl close
        (adjustedPick (row.entered price).toPick actions x (lumpFillOn (row.entered price).toPick e)) := by
  rw [BackfillStore.fillsFrom, show (row.entered price).toPick.pickId = row.pickId from rfl, htranches,
    List.isEmpty_nil, if_pos rfl, realizedPnl_entered, realizedPnl_entered, cumulativeMultiplier_congr hdates]

/-- The backfill of a pick without snapshots and tranches finds the true exit, whatever splits
there are, if the closes are of trading days. -/
theorem exitIsClear_of_fresh (hsnapshots : S.snapshotDays row.pickId = [])
    (htranches : S.toStore.trancheFills row.pickId = [])
    (hprices : ∀ d price, m.equityCloses.get? d = some price → price ≠ 0 ∧ isTradingDay m.holidays d = true) :
    m.ExitIsClear S row endDate := by
  intro e price _ hprice
  refine ⟨(hprices e price hprice).1, fun x close hx _ => ⟨fun hmem => ?_, fun f hf => ?_⟩⟩
  · have hday := BackfillStore.mem_snapshotDays_of_mem_existingDates hmem
    rw [hsnapshots] at hday
    exact absurd hday (by simp)
  · -- the first snapshot is that of the entry day
    obtain rfl : f = e := by
      refine le_antisymm (hf.2 (Or.inr ⟨le_rfl, hx.1.1, (hprices e price hprice).2, by rw [hprice, Option.isSome_some]⟩)) ?_
      rcases hf.1 with hday | ⟨hfirst, -⟩
      · rw [hsnapshots] at hday
        exact absurd hday (by simp)
      · exact hfirst
    exact realizedPnl_fillsFrom htranches fun _ _ => Iff.rfl

end Found

/-! ### A snapshot on the day of the exit -/

/-- A pick at 100 with its target at 120. -/
def targetPick : StoredPick where
  pickId := "p1"
  categoryId := none
  symbol := "TCS"
  instrumentKey := none
  entryPrice := none
  recoPrice := some 100
  pickDate := 739790
  targetPrice := some 120
  stopLoss := some 90
  status := .pending
  deployedCapital := 0
  totalQty := 0
  avgCost := none
  realizedPnl := 0
  updatedAt := "2026-06-30T00:00:00+00:00"

/-- The stock closes at 105 and at 125 on the two days after the pick. -/
def risingMarket : Market where
  holidays := fun _ => []
  equityCloses := (Dict.empty.set 739791 105).set 739792 125

/-- The tables with the pick only. -/
def freshStore : BackfillStore where
  picks := [targetPick]
  pickIds_nodup := by simp

/-- The tables with the pick and a snapshot of the second day. -/
def watchedStore : BackfillStore :=
  freshStore.recordSnapshot { pickId := "p1", ltp := 121, day := 739792, time := 36000000000 }

/-- The theorem for the pick without a snapshot: it is closed at its target. -/
theorem fresh_exit_found : risingMarket.FindsTrueExit freshStore targetPick 739792
    (risingMarket.runBackfill freshStore "p1" (some 739792) 739793 "2026-07-02T00:00:00+00:00") := by
  have hrow : freshStore.getPick targetPick.pickId = some targetPick := by
    simp [BackfillStore.getPick, freshStore]
  refine (findsTrueExit_iff risingMarket freshStore hrow rfl (some 739792) 739793 _).mpr ?_
  refine exitIsClear_of_fresh rfl rfl fun d price hprice => ?_
  simp only [risingMarket, Dict.get?_set, Dict.get?_empty] at hprice
  split at hprice
  next h =>
    subst h
    obtain rfl := Option.some.inj hprice
    exact ⟨by norm_num, by decide⟩
  next =>
    split at hprice
    next h =>
      subst h
      obtain rfl := Option.some.inj hprice
      exact ⟨by norm_num, by decide⟩
    next => exact absurd hprice (by simp)

/-- The snapshot of the second day keeps the pick from being closed at its target that day. -/
theorem stored_exit_missed : ¬risingMarket.FindsTrueExit watchedStore targetPick 739792
    (risingMarket.runBackfill watchedStore "p1" (some 739792) 739793 "2026-07-02T00:00:00+00:00") := by
  intro h
  have hentry : risingMarket.enterBackfillPick targetPick.toPick (watchedStore.toStore.getCorporateActions "TCS") =
      some (739791, 105) := by
    decide +kernel
  have hexit : (List.range' 739791 (739792 + 1 - 739791)).findSome? (risingMarket.exitOn targetPick.toPick
      (watchedStore.toStore.getCorporateActions "TCS") []) = some (739792, 125, .targetHit) := by
    decide +kernel
  obtain ⟨hx, hclose, hstatus⟩ := findSome?_exitOn_eq_some_iff.mp hexit
  simp only [List.not_mem_nil, not_false_eq_true, and_true] at hx
  obtain ⟨S', row', hout, hrow', -, hclosed, -⟩ := h.entered _ (enterBackfillPick_eq_some_iff.mp hentry).1
  -- it is OPEN, and should be closed at its target
  have hopen : ((risingMarket.runBackfill watchedStore "p1" (some 739792) 739793 "2026-07-02T00:00:00+00:00").bind
      fun S' => (S'.getPick "p1").map (·.status)) = some .opened := by
    decide +kernel
  have hcloses := (hclosed _ hx).1
  have hhit : row'.status = .targetHit := hcloses.target 125 (hcloses.price.trans hclose)
    ⟨120, rfl, by decide +kernel⟩
  rw [hout, Option.bind_some, show ("p1" : String) = targetPick.pickId from rfl, hrow', Option.map_some, hhit] at hopen
  exact absurd hopen (by decide)

end NiftyShield.Mvp
