import NiftyShield.Gamma.Features
import NiftyShield.Gamma.Models
import Mathlib.Data.List.Nodup

/-!
# The signal log

The table `gamma_signal_log` of `GammaStore` (`src/gamma/store.py`), one row for each strike
that a scan evaluated, and what `scripts/gamma_scan.py` reads back from it. A row whose paper
trade was filled is open until its exit is written.

## What is proved

What the two writes do to the number of open rows of a side: `openCount_insertSignalLog`,
`openCount_updateSignalExit`.
-/

namespace NiftyShield.Gamma

/-- `paper_trade_filled = 1 AND exit_timestamp IS NULL`. -/
def GammaSignalLogEntry.isOpen (e : GammaSignalLogEntry) : Bool := e.paperTradeFilled && e.exitTimestamp.isNone

/-- `ORDER BY signal_timestamp`. -/
def orderSignals (rows : List GammaSignalLogEntry) : List GammaSignalLogEntry :=
  rows.insertionSort fun r s => r.signalTimestamp ≤ s.signalTimestamp

/-- What an exit writes to its row. -/
structure SignalExit where
  /-- The bid. -/
  exitPrice : Option ℚ
  /-- When. -/
  exitTimestamp : ℕ
  /-- Why. -/
  exitReason : String
  /-- Largest gain while open. -/
  mfe : Option ℚ
  /-- Largest loss while open. -/
  mae : Option ℚ
  /-- Gain over the price paid. -/
  realisedRMultiple : Option ℚ

/-- The row with its exit columns set. -/
def GammaSignalLogEntry.exited (e : GammaSignalLogEntry) (x : SignalExit) : GammaSignalLogEntry :=
  { e with
    exitPrice := x.exitPrice
    exitTimestamp := some x.exitTimestamp
    exitReason := some x.exitReason
    mfe := x.mfe
    mae := x.mae
    realisedRMultiple := x.realisedRMultiple }

/-- `gamma_signal_log`. -/
structure SignalLog where
  /-- The rows, in the order of their insertion. -/
  rows : List GammaSignalLogEntry := []
  /-- `signal_id` is the primary key. -/
  ids_nodup : (rows.map (·.signalId)).Nodup := by simp

namespace SignalLog

/-- `insert_signal_log`; `none` is its `IntegrityError`. -/
def insertSignalLog (log : SignalLog) (entry : GammaSignalLogEntry) : Option SignalLog :=
  if h : entry.signalId ∈ log.rows.map (·.signalId) then none
  else some
    { rows := log.rows ++ [entry]
      ids_nodup := by
        rw [List.map_append, List.nodup_append]
        refine ⟨log.ids_nodup, by simp, fun a ha b hb hab => h ?_⟩
        obtain rfl : b = entry.signalId := by simpa using hb
        exact hab ▸ ha }

/-- The row of an id, if it is not exited, with its exit. -/
def exitRow (signalId : String) (x : SignalExit) (e : GammaSignalLogEntry) : GammaSignalLogEntry :=
  if e.signalId = signalId ∧ e.exitTimestamp = none then e.exited x else e

theorem signalId_exitRow (signalId : String) (x : SignalExit) (e : GammaSignalLogEntry) :
    (exitRow signalId x e).signalId = e.signalId := by
  unfold exitRow
  split <;> rfl

theorem contract_exitRow (signalId : String) (x : SignalExit) (e : GammaSignalLogEntry) :
    (exitRow signalId x e).contract = e.contract := by
  unfold exitRow
  split <;> rfl

/-- `update_signal_exit`. -/
def updateSignalExit (log : SignalLog) (signalId : String) (x : SignalExit) : SignalLog where
  rows := log.rows.map (exitRow signalId x)
  ids_nodup := by
    rw [List.map_map]
    exact (List.map_congr_left fun e _ => signalId_exitRow signalId x e) ▸ log.ids_nodup

/-- `get_open_signal_positions`. -/
def getOpenSignalPositions (log : SignalLog) (optionType : Option OptionType) : List GammaSignalLogEntry :=
  orderSignals (log.rows.filter fun r => r.isOpen && optionType.all (r.contract.optionType = ·))

/-- `_load_history`, at one contract. -/
def loadHistory (log : SignalLog) (contract : Contract) (since : ℕ) : List PriorScan :=
  (orderSignals (log.rows.filter fun r => r.contract = contract && decide (since ≤ r.signalTimestamp))).map fun r =>
    { «at» := r.signalTimestamp, niftySpot := r.niftySpot, gammaVal := r.gammaVal, bestAsk := r.bestAsk, oi := r.oiNow,
      distancePct := r.distancePct }

/-- `_position_track`: bid and quantity at the ask in the earlier scans of a held contract,
oldest first. -/
def positionTrack (log : SignalLog) (pos : GammaSignalLogEntry) (before : ℕ) : List (Option ℚ × Option ℤ) :=
  let since := pos.fillTimestamp.getD pos.signalTimestamp
  let rows := log.rows.filter fun r =>
    r.contract = pos.contract && decide (since ≤ r.signalTimestamp) && decide (r.signalTimestamp < before)
  (orderSignals rows).map fun r => (r.bestBid, r.askQtyL1)

/-- The track of a position has no column that an exit writes. -/
theorem positionTrack_updateSignalExit (log : SignalLog) (signalId : String) (x : SignalExit) (pos : GammaSignalLogEntry)
    (before : ℕ) : (log.updateSignalExit signalId x).positionTrack pos before = log.positionTrack pos before := by
  have hkept : ∀ e, (exitRow signalId x e).contract = e.contract ∧
      (exitRow signalId x e).signalTimestamp = e.signalTimestamp ∧ (exitRow signalId x e).bestBid = e.bestBid ∧
      (exitRow signalId x e).askQtyL1 = e.askQtyL1 := fun e => by
    unfold exitRow
    split <;> exact ⟨rfl, rfl, rfl, rfl⟩
  unfold positionTrack updateSignalExit orderSignals
  simp only [List.filter_map, Function.comp_def, hkept]
  rw [← List.map_insertionSort (s := fun r s : GammaSignalLogEntry => r.signalTimestamp ≤ s.signalTimestamp)
    (r := fun r s : GammaSignalLogEntry => r.signalTimestamp ≤ s.signalTimestamp) _ _ fun a _ b _ => by
      rw [(hkept a).2.1, (hkept b).2.1], List.map_map]
  exact List.map_congr_left fun e _ => by simp only [Function.comp_apply, hkept]

/-! ### Open rows -/

/-- An open row of a side. -/
def isOpenOf (optionType : OptionType) (e : GammaSignalLogEntry) : Bool :=
  e.isOpen && decide (e.contract.optionType = optionType)

/-- The number of open rows of a side. -/
def openCount (log : SignalLog) (optionType : OptionType) : ℕ := log.rows.countP (isOpenOf optionType)

theorem length_getOpenSignalPositions (log : SignalLog) (optionType : OptionType) :
    (log.getOpenSignalPositions (some optionType)).length = log.openCount optionType := by
  rw [getOpenSignalPositions, orderSignals, List.length_insertionSort, openCount, List.countP_eq_length_filter]
  rfl

theorem mem_getOpenSignalPositions {log : SignalLog} {e : GammaSignalLogEntry} :
    e ∈ log.getOpenSignalPositions none ↔ e ∈ log.rows ∧ e.isOpen = true := by
  simp [getOpenSignalPositions, orderSignals]

/-- The row with this id is open and of this side. -/
def HasOpen (log : SignalLog) (optionType : OptionType) (signalId : String) : Prop :=
  ∃ e ∈ log.rows, e.signalId = signalId ∧ isOpenOf optionType e = true

instance (log : SignalLog) (optionType : OptionType) (signalId : String) : Decidable (log.HasOpen optionType signalId) :=
  inferInstanceAs (Decidable (∃ e ∈ log.rows, _))

theorem rows_insertSignalLog {log log' : SignalLog} {entry : GammaSignalLogEntry}
    (h : log.insertSignalLog entry = some log') : log'.rows = log.rows ++ [entry] := by
  unfold insertSignalLog at h
  split at h
  · exact absurd h (by simp)
  · rw [← Option.some.inj h]

theorem openCount_insertSignalLog {log log' : SignalLog} {entry : GammaSignalLogEntry}
    (h : log.insertSignalLog entry = some log') (optionType : OptionType) :
    log'.openCount optionType = log.openCount optionType + if isOpenOf optionType entry then 1 else 0 := by
  rw [openCount, rows_insertSignalLog h, List.countP_append, List.countP_singleton, openCount]

/-- A row that gets its exit is not open. -/
theorem isOpenOf_exitRow {signalId : String} {x : SignalExit} {optionType : OptionType} {e : GammaSignalLogEntry} :
    isOpenOf optionType (exitRow signalId x e) = (isOpenOf optionType e && decide (e.signalId ≠ signalId)) := by
  by_cases hid : e.signalId = signalId
  · by_cases hexit : e.exitTimestamp = none
    · simp [exitRow, hid, hexit, isOpenOf, GammaSignalLogEntry.isOpen, GammaSignalLogEntry.exited]
    · simp [exitRow, hid, hexit, isOpenOf, GammaSignalLogEntry.isOpen, Option.isNone_iff_eq_none]
  · simp [exitRow, hid]

/-- An exit leaves one open row less if its row was open. -/
theorem openCount_updateSignalExit (log : SignalLog) (signalId : String) (x : SignalExit) (optionType : OptionType) :
    (log.updateSignalExit signalId x).openCount optionType + (if log.HasOpen optionType signalId then 1 else 0) =
      log.openCount optionType := by
  have hrows : ∀ {rows : List GammaSignalLogEntry}, (rows.map (·.signalId)).Nodup →
      (rows.map (exitRow signalId x)).countP (isOpenOf optionType) +
        (if ∃ e ∈ rows, e.signalId = signalId ∧ isOpenOf optionType e = true then 1 else 0) =
      rows.countP (isOpenOf optionType) := by
    intro rows
    induction rows with
    | nil => simp
    | cons e rows ih =>
      intro hnodup
      rw [List.map_cons, List.nodup_cons] at hnodup
      have hrest := ih hnodup.2
      rw [List.map_cons, List.countP_cons, List.countP_cons, isOpenOf_exitRow]
      by_cases hid : e.signalId = signalId
      · have hno : ¬ ∃ e' ∈ rows, e'.signalId = signalId ∧ isOpenOf optionType e' = true := by
          rintro ⟨e', he', hid', -⟩
          exact hnodup.1 (List.mem_map.mpr ⟨e', he', hid'.trans hid.symm⟩)
        rw [if_neg hno] at hrest
        simp only [List.mem_cons, exists_eq_or_imp, hno, or_false, hid, true_and]
        simpa using hrest
      · simp only [List.mem_cons, exists_eq_or_imp, hid, false_and, false_or]
        simp only [ne_eq, hid, not_false_eq_true, decide_true, Bool.and_true]
        rw [← hrest]
        exact Nat.add_right_comm _ _ _
  exact hrows log.ids_nodup

end SignalLog

end NiftyShield.Gamma
