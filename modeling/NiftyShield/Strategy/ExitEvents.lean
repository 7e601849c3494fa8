import NiftyShield.Strategy.Protocol
import NiftyShield.Strategy.ReEntry

/-!
# The table of exit events

`paper_exit_events` with all that the end-of-day evaluation writes and reads of a row:
`create_exit_event`, `get_exit_event`, `get_open_exit_events` and `resolve_exit_event_with_audit`
(`src/paper/store.py`).

## Honest scope

Of `event_time` only the date is kept. The columns that nothing here sets (`mid`,
`counterfactual_dte_marks`, `created_at`) are left out; so is what a resolution may add to the
audit columns and the notes, as no caller here passes any.
-/

namespace NiftyShield.Strategy

open ReEntry (EventStatus)

/-- A row of `paper_exit_events`. -/
structure ExitEventRow where
  /-- `id`, given by the table. -/
  id : ℕ := 0
  /-- `strategy_name`. -/
  strategyName : String
  /-- `leg_name`. -/
  legName : String
  /-- `trade_id`. -/
  tradeId : String
  /-- The date in `event_time`. -/
  eventDate : Date
  /-- `detected_by`. -/
  detectedBy : String := "EOD"
  /-- `exit_signal`. -/
  exitSignal : String
  /-- `severity`; `WARN` is written `WARNING`. -/
  severity : Severity
  /-- `entry_price`. -/
  entryPrice : ℚ
  /-- `snapshot_id`. -/
  snapshotId : Option ℤ := none
  /-- `ltp`. -/
  ltp : Option ℚ := none
  /-- `bid`. -/
  bid : Option ℚ := none
  /-- `ask`. -/
  ask : Option ℚ := none
  /-- `delta`. -/
  delta : Option ℚ := none
  /-- `dte`. -/
  dte : Option ℤ := none
  /-- `threshold_value`. -/
  thresholdValue : Option ℚ := none
  /-- `delta_stop_would_fire`. -/
  deltaStopWouldFire : Option Bool := none
  /-- `premium_stop_would_fire`. -/
  premiumStopWouldFire : Option Bool := none
  /-- `actual_rule_used`. -/
  actualRuleUsed : Option String := none
  /-- `notes`. -/
  notes : Option String := none
  /-- `status`. -/
  status : EventStatus := .open
  deriving DecidableEq

/-- `status IN ('OPEN', 'ACKNOWLEDGED')`. -/
def ExitEventRow.isOpen (r : ExitEventRow) : Bool := r.status = .open || r.status = .acknowledged

/-- The `paper_exit_events` table. -/
structure ExitEvents where
  /-- The rows. -/
  rows : List ExitEventRow
  /-- The next id AUTOINCREMENT hands out. -/
  nextId : ℕ
  /-- `PRIMARY KEY`. -/
  ids_unique : rows.Pairwise fun r s => r.id ≠ s.id
  /-- No id has been reused. -/
  ids_lt : ∀ r ∈ rows, r.id < nextId

namespace ExitEvents

/-- The empty table. -/
def empty : ExitEvents := ⟨[], 1, List.Pairwise.nil, by simp⟩

/-- `get_exit_event`. -/
def getExitEvent (E : ExitEvents) (id : ℕ) : Option ExitEventRow := E.rows.find? fun r => r.id = id

/-- `get_open_exit_events` of all strategies. -/
def getOpenExitEvents (E : ExitEvents) : List ExitEventRow := E.rows.filter ExitEventRow.isOpen

/-- `create_exit_event`: an open row, and its id. -/
def createExitEvent (E : ExitEvents) (r : ExitEventRow) : ExitEvents × ℕ :=
  ({ rows := E.rows ++ [{ r with id := E.nextId, status := .open }]
     nextId := E.nextId + 1
     ids_unique := by
       refine List.pairwise_append.mpr ⟨E.ids_unique, List.pairwise_singleton _ _, fun s hs t ht => ?_⟩
       rw [List.mem_singleton.mp ht]
       exact (E.ids_lt s hs).ne
     ids_lt := by
       intro s hs
       rcases List.mem_append.mp hs with hs | hs
       · exact (E.ids_lt s hs).trans (Nat.lt_succ_self _)
       · rw [List.mem_singleton.mp hs]
         exact Nat.lt_succ_self _ }, E.nextId)

/-- The row with another status. -/
private def withStatus (id : ℕ) (status : EventStatus) (r : ExitEventRow) : ExitEventRow :=
  if r.id = id then { r with status } else r

private theorem id_withStatus (id : ℕ) (status : EventStatus) (r : ExitEventRow) :
    (withStatus id status r).id = r.id := by
  unfold withStatus
  split <;> rfl

/-- `resolve_exit_event_with_audit`; `none` is its `ValueError`. -/
def resolveExitEvent (E : ExitEvents) (id : ℕ) (status : EventStatus) : Option ExitEvents :=
  if (E.getExitEvent id).any ExitEventRow.isOpen then
    some
      { rows := E.rows.map (withStatus id status)
        nextId := E.nextId
        ids_unique := List.pairwise_map.mpr (E.ids_unique.imp fun {r s} h => by
          rwa [id_withStatus, id_withStatus])
        ids_lt := fun r hr => by
          obtain ⟨s, hs, rfl⟩ := List.mem_map.mp hr
          rw [id_withStatus]
          exact E.ids_lt s hs }
  else none

/-- The status of an event. -/
def statusOf (E : ExitEvents) (id : ℕ) : Option EventStatus := (E.getExitEvent id).map (·.status)

/-- The event is there, and open. -/
def IsOpen (E : ExitEvents) (id : ℕ) : Prop := (E.getExitEvent id).any ExitEventRow.isOpen = true

instance (E : ExitEvents) (id : ℕ) : Decidable (E.IsOpen id) :=
  inferInstanceAs (Decidable ((E.getExitEvent id).any ExitEventRow.isOpen = true))

theorem isOpen_iff {E : ExitEvents} {id : ℕ} : E.IsOpen id ↔ ∃ r, E.getExitEvent id = some r ∧ r.isOpen = true := by
  rw [IsOpen, Option.any_eq_true]

/-- An open event is resolved, and has the status given. -/
theorem resolveExitEvent_of_isOpen {E : ExitEvents} {id : ℕ} (h : E.IsOpen id) (status : EventStatus) :
    ∃ E', E.resolveExitEvent id status = some E' ∧ E'.statusOf id = some status := by
  refine ⟨_, if_pos h, ?_⟩
  obtain ⟨r, hr, -⟩ := isOpen_iff.mp h
  have hid : r.id = id := by simpa using List.find?_some hr
  have hsame : ((fun s : ExitEventRow => decide (s.id = id)) ∘ withStatus id status) = fun s => decide (s.id = id) :=
    funext fun s => by rw [Function.comp_apply, id_withStatus]
  have hfind : (E.rows.map (withStatus id status)).find? (fun s => s.id = id) = some (withStatus id status r) := by
    rw [List.find?_map, hsame]
    exact congrArg _ hr
  rw [statusOf, getExitEvent, hfind, withStatus, if_pos hid]
  rfl

/-- An open event is not an acted one. -/
theorem statusOf_ne_acted {E : ExitEvents} {id : ℕ} (h : E.IsOpen id) : E.statusOf id ≠ some .acted := by
  obtain ⟨r, hr, hopen⟩ := isOpen_iff.mp h
  intro hacted
  rw [statusOf, hr] at hacted
  have hstatus : r.status = .acted := Option.some.inj hacted
  rw [ExitEventRow.isOpen, hstatus] at hopen
  exact absurd hopen (by decide)

end ExitEvents

end NiftyShield.Strategy
