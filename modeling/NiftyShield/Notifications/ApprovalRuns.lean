import NiftyShield.Lib.Run
import NiftyShield.Notifications.ApprovalFlow

/-!
# Approvals over a run of the daemon

The rows of `pending_approvals` have several writers: the two callbacks, the scan every five
minutes and the shutdown. A callback looks its row up, and only then updates it, by id and
whatever its status; between the two the event loop runs other tasks. Neither callback looks
at `expires_at`.

## What is proved

`approvals_final_iff`: over a run, rows that have left PENDING keep their status and rank,
no row has two actions dispatched and none is dispatched by a press after `expires_at`,
exactly if each update finds its row still pending and each press that dispatches came in
time. That no row has two actions dispatched needs neither (`Inv.once`). A press with nothing in
between is the `onApproved` of the approval flow (`undisturbed_press`).

## Honest scope

The polling loop awaits each callback, so that one is in flight at a time; a shutdown
cancels it, which does not stop an update already handed to its thread. What becomes of an
action once it is handed over is left out. Times are numbers.
-/

namespace NiftyShield.Notifications.ApprovalRuns

open NiftyShield.Lib.Run NiftyShield.Paper

/-! ### The daemon -/

/-- The button that was pressed. -/
inductive Press where
  /-- An action, by its rank. -/
  | approve (rank : ℤ)
  /-- Reject All. -/
  | reject
  deriving DecidableEq

namespace Press

/-- The status it writes. -/
def status : Press → ApprovalStatus
  | approve _ => .approved
  | reject => .rejected

/-- The rank it writes. -/
def approvedRank : Press → Option ℤ
  | approve rank => some rank
  | reject => none

end Press

/-- The callback in flight, with the row it looked up. -/
inductive InFlight where
  /-- Before `resolve_approval` has run. -/
  | resolving (row : ApprovalRow) (press : Press) (arrivedAt : ℕ) (cancelled : Bool)
  /-- The row is APPROVED, the action not yet handed over. -/
  | dispatching (row : ApprovalRow) (rank : ℤ) (arrivedAt : ℕ)

/-- The row of a callback. -/
def InFlight.row : InFlight → ApprovalRow
  | resolving row _ _ _ => row
  | dispatching row _ _ => row

/-- An action handed over by a callback. -/
structure Dispatched where
  /-- The row it looked up. -/
  row : ApprovalRow
  /-- When the press arrived. -/
  arrivedAt : ℕ
  /-- Where the action went. -/
  handed : Dispatch

/-- The daemon: the table, the callback in flight and what has been dispatched. -/
structure Daemon where
  /-- `pending_approvals`. -/
  approvals : Approvals
  /-- The callback in flight. -/
  inFlight : Option InFlight
  /-- The actions handed over. -/
  dispatched : List Dispatched

/-- A daemon at its start. -/
def Daemon.start (A : Approvals) : Daemon := ⟨A, none, []⟩

/-- What happens to the rows, in any order. -/
inductive Event where
  /-- `create_approval`. -/
  | createApproval (strategyName eventType : String) (councilOutput : Payload)
      (telegramMsgId : Option ℤ) (expiresAt : ℕ)
  /-- A press reaches `on_approved` or `on_rejected`. -/
  | callback (telegramMsgId : ℤ) (press : Press) (now : ℕ)
  /-- `resolve_approval` of the callback in flight ends. -/
  | resolveApproval (succeeds : Bool)
  /-- The callback in flight hands its action over. -/
  | dispatch
  /-- `scan_expired_approvals`. -/
  | scanExpired (now : ℕ)
  /-- The shutdown cancels the callback in flight. -/
  | cancel
  /-- `expire_all_pending_approvals`. -/
  | expireAll

/-- A press while another callback is in flight waits, and is an event of its own later. -/
def onCallback (s : Daemon) (telegramMsgId : ℤ) (press : Press) (now : ℕ) : Daemon :=
  match s.inFlight with
  | some _ => s
  | none => { s with inFlight := (s.approvals.getPendingByMsgId telegramMsgId).map fun row => .resolving row press now false }

/-- An approving callback goes on to its action unless it was cancelled. -/
def afterResolve (row : ApprovalRow) (arrivedAt : ℕ) (cancelled : Bool) : Press → Option InFlight
  | .approve rank => if cancelled then none else some (.dispatching row rank arrivedAt)
  | .reject => none

/-- The update by id, and on a failure nothing more. -/
def onResolved (s : Daemon) (succeeds : Bool) : Daemon :=
  match s.inFlight with
  | some (.resolving row press arrivedAt cancelled) =>
    if succeeds then
      { s with
        approvals := s.approvals.resolve row.id press.status press.approvedRank
        inFlight := afterResolve row arrivedAt cancelled press }
    else { s with inFlight := none }
  | _ => s

/-- The action of a row and a rank, and where it goes. -/
def handOver (overlayCloser : Bool) (row : ApprovalRow) (rank : ℤ) : Option Dispatch :=
  (reconstruct row.councilOutput rank).bind (dispatchAction overlayCloser row)

/-- The action is rebuilt from the row that was looked up. -/
def onDispatch (overlayCloser : Bool) (s : Daemon) : Daemon :=
  match s.inFlight with
  | some (.dispatching row rank arrivedAt) =>
    { s with
      inFlight := none
      dispatched := s.dispatched ++ ((handOver overlayCloser row rank).map fun d =>
        ⟨row, arrivedAt, d⟩).toList }
  | _ => s

/-- A cancelled callback goes no further, but its update may be on the way. -/
def onCancel (s : Daemon) : Daemon :=
  match s.inFlight with
  | some (.resolving row press arrivedAt _) =>
      { s with inFlight := some (.resolving row press arrivedAt true) }
  | _ => { s with inFlight := none }

/-- One event. -/
def step (overlayCloser : Bool) (s : Daemon) : Event → Daemon
  | .createApproval strategyName eventType councilOutput telegramMsgId expiresAt =>
    { s with approvals := s.approvals.create strategyName eventType councilOutput telegramMsgId expiresAt }
  | .callback telegramMsgId press now => onCallback s telegramMsgId press now
  | .resolveApproval succeeds => onResolved s succeeds
  | .dispatch => onDispatch overlayCloser s
  | .scanExpired now => { s with approvals := s.approvals.scanExpired now }
  | .cancel => onCancel s
  | .expireAll => { s with approvals := s.approvals.expireAll }

/-- A press with nothing in between is `onApproved`. -/
theorem undisturbed_press (overlayCloser : Bool) (A : Approvals) (telegramMsgId rank : ℤ) (now : ℕ) :
    let s := final (step overlayCloser) (Daemon.start A) [.callback telegramMsgId (.approve rank) now, .resolveApproval true, .dispatch]
    s.approvals = (onApproved overlayCloser A telegramMsgId rank).1 ∧
      s.dispatched.map (·.handed) = (onApproved overlayCloser A telegramMsgId rank).2.toList := by
  cases h : A.getPendingByMsgId telegramMsgId with
  | none => simp [Daemon.start, step, onCallback, onResolved, onDispatch, onApproved, h]
  | some row =>
    cases hd : handOver overlayCloser row rank with
    | none =>
      rw [handOver] at hd
      simp [Daemon.start, step, onCallback, onResolved, afterResolve, onDispatch, onApproved, handOver, Press.status,
        Press.approvedRank, h, hd]
    | some d =>
      rw [handOver] at hd
      simp [Daemon.start, step, onCallback, onResolved, afterResolve, onDispatch, onApproved, handOver, Press.status,
        Press.approvedRank, h, hd]

/-! ### The rows -/

/-- Rows that have left PENDING keep their status and rank. -/
def Keeps (A B : Approvals) : Prop :=
  ∀ r ∈ A.rows, r.status ≠ .pending → ∃ q ∈ B.rows, q.id = r.id ∧ q.status = r.status ∧
    q.approvedRank = r.approvedRank

/-- The row of an id is pending. -/
def IsPending (A : Approvals) (id : ℕ) : Prop := ∃ r ∈ A.rows, r.id = id ∧ r.status = .pending

/-- The row of an id has left PENDING. -/
def Settled (A : Approvals) (id : ℕ) : Prop := ∃ r ∈ A.rows, r.id = id ∧ r.status ≠ .pending

/-- The row of an id is pending, or has lapsed. -/
def Unanswered (A : Approvals) (id : ℕ) : Prop :=
  ∃ r ∈ A.rows, r.id = id ∧ (r.status = .pending ∨ r.status = .expired)

theorem Keeps.refl (A : Approvals) : Keeps A A := fun r hr _ => ⟨r, hr, rfl, rfl, rfl⟩

theorem Keeps.trans {A B C : Approvals} (h : Keeps A B) (h' : Keeps B C) : Keeps A C := by
  intro r hr hstatus
  obtain ⟨q, hq, hid, hqstatus, hqrank⟩ := h r hr hstatus
  obtain ⟨p, hp, hpid, hpstatus, hprank⟩ := h' q hq (hqstatus ▸ hstatus)
  exact ⟨p, hp, hpid.trans hid, hpstatus.trans hqstatus, hprank.trans hqrank⟩

theorem Keeps.settled {A B : Approvals} (h : Keeps A B) {id : ℕ} (hid : Settled A id) : Settled B id := by
  obtain ⟨r, hr, rfl, hstatus⟩ := hid
  obtain ⟨q, hq, hqid, hqstatus, -⟩ := h r hr hstatus
  exact ⟨q, hq, hqid, hqstatus ▸ hstatus⟩

/-- A settled row is not pending. -/
theorem not_isPending_of_settled {A : Approvals} {id : ℕ} (h : Settled A id) : ¬ IsPending A id := by
  rintro ⟨q, hq, rfl, hpending⟩
  obtain ⟨r, hr, hid, hstatus⟩ := h
  exact hstatus (Approvals.eq_of_id hr hq hid ▸ hpending)

theorem keeps_create (A : Approvals) (strategyName eventType : String) (councilOutput : Payload)
    (telegramMsgId : Option ℤ) (expiresAt : ℕ) :
    Keeps A (A.create strategyName eventType councilOutput telegramMsgId expiresAt) :=
  fun r hr _ => ⟨r, List.mem_append_left _ hr, rfl, rfl, rfl⟩

/-- A scan or a shutdown touches pending rows only. -/
theorem keeps_scanExpired (A : Approvals) (now : ℕ) : Keeps A (A.scanExpired now) := by
  intro r hr hstatus
  exact ⟨r, List.mem_map.mpr ⟨r, hr, if_neg fun h => hstatus h.1⟩, rfl, rfl, rfl⟩

theorem keeps_expireAll (A : Approvals) : Keeps A A.expireAll := by
  intro r hr hstatus
  exact ⟨r, List.mem_map.mpr ⟨r, hr, if_neg hstatus⟩, rfl, rfl, rfl⟩

theorem unanswered_create {A : Approvals} {id : ℕ} (h : Unanswered A id) (strategyName eventType : String)
    (councilOutput : Payload) (telegramMsgId : Option ℤ) (expiresAt : ℕ) :
    Unanswered (A.create strategyName eventType councilOutput telegramMsgId expiresAt) id := by
  obtain ⟨r, hr, hid, hstatus⟩ := h
  exact ⟨r, List.mem_append_left _ hr, hid, hstatus⟩

/-- A row that a change of rows leaves alone or expires is still unanswered. -/
private theorem unanswered_updateRows {A : Approvals} {f : ApprovalRow → ApprovalRow}
    {hf : ∀ r, (f r).id = r.id}
    (hcases : ∀ r, f r = r ∨ (f r).status = .expired) {id : ℕ} (h : Unanswered A id) :
    Unanswered (A.updateRows f hf) id := by
  obtain ⟨r, hr, hid, hstatus⟩ := h
  refine ⟨f r, List.mem_map_of_mem hr, (hf r).trans hid, ?_⟩
  rcases hcases r with hsame | hexpired
  · rwa [hsame]
  · exact Or.inr hexpired

theorem unanswered_scanExpired {A : Approvals} {id : ℕ} (h : Unanswered A id) (now : ℕ) :
    Unanswered (A.scanExpired now) id := by
  apply unanswered_updateRows (fun r => ?_) h
  split
  · exact Or.inr rfl
  · exact Or.inl rfl

theorem unanswered_expireAll {A : Approvals} {id : ℕ} (h : Unanswered A id) :
    Unanswered A.expireAll id := by
  apply unanswered_updateRows (fun r => ?_) h
  split
  · exact Or.inr rfl
  · exact Or.inl rfl

/-- A row that is answered leaves PENDING, if it had not before. -/
theorem settled_resolve {A : Approvals} {id : ℕ} (h : Unanswered A id) (press : Press) :
    Settled (A.resolve id press.status press.approvedRank) id := by
  obtain ⟨r, hr, rfl, -⟩ := h
  refine ⟨_, Approvals.mem_resolve hr press.status press.approvedRank, rfl, ?_⟩
  cases press <;> simp [Press.status]

/-- An answer keeps settled rows settled. -/
theorem Settled.resolve {A : Approvals} {id : ℕ} (h : Settled A id) (id' : ℕ) (press : Press) :
    Settled (A.resolve id' press.status press.approvedRank) id := by
  obtain ⟨r, hr, rfl, hstatus⟩ := h
  by_cases heq : r.id = id'
  · subst heq
    refine ⟨_, Approvals.mem_resolve hr press.status press.approvedRank, rfl, ?_⟩
    cases press <;> simp [Press.status]
  · exact ⟨r, Approvals.mem_resolve_of_ne hr heq _ _, rfl, hstatus⟩

/-- **The update has no guard**: it keeps the rows that have left PENDING exactly if the row
it answers has not lapsed meanwhile. -/
theorem keeps_resolve_iff {A : Approvals} {id : ℕ} (h : Unanswered A id) (press : Press) :
    Keeps A (A.resolve id press.status press.approvedRank) ↔ IsPending A id := by
  obtain ⟨r, hr, rfl, hcases⟩ := h
  constructor
  · intro hkeeps
    rcases hcases with hpending | hexpired
    · exact ⟨r, hr, rfl, hpending⟩
    · obtain ⟨q, hq, hid, hstatus, -⟩ := hkeeps r hr (by simp [hexpired])
      have hwritten := Approvals.mem_resolve hr press.status press.approvedRank
      have hq' : q.status = press.status := congrArg ApprovalRow.status (Approvals.eq_of_id hq hwritten hid)
      rw [hstatus, hexpired] at hq'
      exact absurd hq' (by cases press <;> simp [Press.status])
  · rintro ⟨q, hq, hid, hpending⟩ p hp hstatus
    refine ⟨p, Approvals.mem_resolve_of_ne hp (fun hpid => ?_) _ _, rfl, rfl, rfl⟩
    exact hstatus (Approvals.eq_of_id hp hq (hpid.trans hid.symm) ▸ hpending)

/-! ### What holds of every state -/

/-- The row of the callback in flight: nobody else answers it, and after the update it has
left PENDING. -/
def Held (A : Approvals) : InFlight → Prop
  | .resolving row _ _ _ => Unanswered A row.id
  | .dispatching row _ _ => Settled A row.id

/-- The invariant. -/
structure Inv (s : Daemon) : Prop where
  /-- No row has two actions dispatched. -/
  once : (s.dispatched.map (·.row.id)).Nodup
  /-- A row with an action dispatched is not looked up again. -/
  settled : ∀ d ∈ s.dispatched, Settled s.approvals d.row.id
  /-- The callback in flight is the first of its row to get so far. -/
  inFlight : ∀ c, s.inFlight = some c → Held s.approvals c ∧ ∀ d ∈ s.dispatched, d.row.id ≠ c.row.id

theorem Inv.start (A : Approvals) : Inv (Daemon.start A) where
  once := List.nodup_nil
  settled := by simp [Daemon.start]
  inFlight := by simp [Daemon.start]

/-- With nothing in flight only the dispatched rows matter. -/
theorem Inv.idle {s : Daemon} (h : Inv s) {A : Approvals}
    (hsettled : ∀ id, Settled s.approvals id → Settled A id) :
    Inv ⟨A, none, s.dispatched⟩ where
  once := h.once
  settled := fun d hd => hsettled _ (h.settled d hd)
  inFlight := by simp

/-- The writers without a callback keep the invariant. -/
theorem Inv.withTable {s : Daemon} (h : Inv s) {A : Approvals} (hkeeps : Keeps s.approvals A)
    (hunanswered : ∀ id, Unanswered s.approvals id → Unanswered A id) : Inv { s with approvals := A } where
  once := h.once
  settled := fun d hd => hkeeps.settled (h.settled d hd)
  inFlight := by
    intro c hc
    obtain ⟨hheld, hne⟩ := h.inFlight c hc
    refine ⟨?_, hne⟩
    cases c with
    | resolving row press arrivedAt cancelled => exact hunanswered _ hheld
    | dispatching row rank arrivedAt => exact hkeeps.settled hheld

/-- A row that is looked up is pending, and so has nothing dispatched. -/
theorem Inv.onCallback {s : Daemon} (h : Inv s) (telegramMsgId : ℤ) (press : Press) (now : ℕ) :
    Inv (onCallback s telegramMsgId press now) := by
  unfold ApprovalRuns.onCallback
  cases hflight : s.inFlight with
  | some c => exact h
  | none =>
    refine ⟨h.once, h.settled, fun c hc => ?_⟩
    obtain ⟨row, hrow, rfl⟩ := Option.map_eq_some_iff.mp hc
    obtain ⟨hmem, -, hpending⟩ := Approvals.mem_of_getPending hrow
    refine ⟨⟨row, hmem, rfl, Or.inl hpending⟩, fun d hd hid => ?_⟩
    exact not_isPending_of_settled (h.settled d hd) ⟨row, hmem, hid.symm, hpending⟩

theorem Inv.onResolved {s : Daemon} (h : Inv s) (succeeds : Bool) : Inv (onResolved s succeeds) := by
  unfold ApprovalRuns.onResolved
  cases hflight : s.inFlight with
  | none => exact h
  | some c =>
    cases c with
    | dispatching row rank arrivedAt => exact h
    | resolving row press arrivedAt cancelled =>
      obtain ⟨hheld, hne⟩ := h.inFlight _ hflight
      cases succeeds with
      | false => exact h.idle fun _ => id
      | true =>
        have hsettled : ∀ d ∈ s.dispatched,
            Settled (s.approvals.resolve row.id press.status press.approvedRank) d.row.id :=
          fun d hd => (h.settled d hd).resolve row.id press
        refine ⟨h.once, hsettled, fun c hc => ?_⟩
        -- only an approval that was not cancelled goes on
        obtain ⟨rank, rfl⟩ : ∃ rank, c = .dispatching row rank arrivedAt := by
          simp only [if_true] at hc
          unfold afterResolve at hc
          split at hc
          next rank =>
            split at hc
            · exact absurd hc (by simp)
            · exact ⟨rank, (Option.some.inj hc).symm⟩
          · exact absurd hc (by simp)
        exact ⟨settled_resolve hheld press, hne⟩

theorem Inv.onDispatch {overlayCloser : Bool} {s : Daemon} (h : Inv s) :
    Inv (onDispatch overlayCloser s) := by
  unfold ApprovalRuns.onDispatch
  cases hflight : s.inFlight with
  | none => exact h
  | some c =>
    cases c with
    | resolving row press arrivedAt cancelled => exact h
    | dispatching row rank arrivedAt =>
      obtain ⟨hheld, hne⟩ := h.inFlight _ hflight
      cases hd : handOver overlayCloser row rank with
      | none => simpa [hd] using h.idle (A := s.approvals) fun _ => id
      | some handed =>
        simp only [hd, Option.map_some, Option.toList_some]
        refine ⟨?_, fun d hd => ?_, by simp⟩
        · rw [List.map_append, List.map_singleton, List.nodup_append]
          refine ⟨h.once, by simp, fun i hi j hj hij => ?_⟩
          obtain ⟨d, hd, rfl⟩ := List.mem_map.mp hi
          exact hne d hd (hij.trans (List.mem_singleton.mp hj))
        · rcases List.mem_append.mp hd with hd | hd
          · exact h.settled d hd
          · rw [List.mem_singleton.mp hd]
            exact hheld

theorem Inv.onCancel {s : Daemon} (h : Inv s) : Inv (onCancel s) := by
  unfold ApprovalRuns.onCancel
  cases hflight : s.inFlight with
  | none => exact h.idle fun _ => id
  | some c =>
    cases c with
    | dispatching row rank arrivedAt => exact h.idle fun _ => id
    | resolving row press arrivedAt cancelled =>
      refine ⟨h.once, h.settled, fun c hc => ?_⟩
      obtain rfl := Option.some.inj hc
      exact h.inFlight (.resolving row press arrivedAt cancelled) hflight

/-- Every event keeps the invariant. -/
theorem Inv.step {overlayCloser : Bool} {s : Daemon} {ev : Event} (h : Inv s) :
    Inv (step overlayCloser s ev) := by
  cases ev with
  | createApproval strategyName eventType councilOutput telegramMsgId expiresAt =>
    exact h.withTable (keeps_create _ _ _ _ _ _) fun _ hid => unanswered_create hid _ _ _ _ _
  | callback telegramMsgId press now => exact h.onCallback telegramMsgId press now
  | resolveApproval succeeds => exact h.onResolved succeeds
  | dispatch => exact h.onDispatch
  | scanExpired now => exact h.withTable (keeps_scanExpired _ now) fun _ hid =>
      unanswered_scanExpired hid now
  | cancel => exact h.onCancel
  | expireAll => exact h.withTable (keeps_expireAll _) fun _ hid => unanswered_expireAll hid

/-! ### What a run does -/

/-- **When an event is harmless**: an update finds its row still pending, and a press whose
action is handed over came by `expires_at`. -/
def InOrder (overlayCloser : Bool) (s : Daemon) : Event → Prop
  | .resolveApproval true => ∀ row press arrivedAt cancelled,
      s.inFlight = some (.resolving row press arrivedAt cancelled) → IsPending s.approvals row.id
  | .dispatch => ∀ row rank arrivedAt, s.inFlight = some (.dispatching row rank arrivedAt) →
      (handOver overlayCloser row rank).isSome = true → arrivedAt ≤ row.expiresAt
  | _ => True

/-- From a state to a later one: settled rows are kept, and what is dispatched is in time. -/
def Proper (s t : Daemon) : Prop :=
  Keeps s.approvals t.approvals ∧ ∀ d ∈ t.dispatched, d ∈ s.dispatched ∨ d.arrivedAt ≤ d.row.expiresAt

theorem Proper.refl (s : Daemon) : Proper s s := ⟨Keeps.refl _, fun _ hd => Or.inl hd⟩

theorem Proper.trans {s t u : Daemon} (h : Proper s t) (h' : Proper t u) : Proper s u := by
  refine ⟨h.1.trans h'.1, fun d hd => ?_⟩
  rcases h'.2 d hd with hd | hd
  · exact h.2 d hd
  · exact Or.inr hd

/-- An event that only touches the callback in flight. -/
theorem Proper.ofEq {s t : Daemon} (happrovals : t.approvals = s.approvals) (hdispatched : t.dispatched = s.dispatched) :
    Proper s t := by
  rw [Proper, happrovals, hdispatched]
  exact Proper.refl s

theorem proper_onCallback (s : Daemon) (telegramMsgId : ℤ) (press : Press) (now : ℕ) :
    Proper s (onCallback s telegramMsgId press now) := by
  unfold onCallback
  split
  · exact Proper.refl s
  · exact Proper.ofEq rfl rfl

theorem proper_onCancel (s : Daemon) : Proper s (onCancel s) := by
  unfold onCancel
  split
  · exact Proper.ofEq rfl rfl
  · exact Proper.ofEq rfl rfl

/-- The update of the callback in flight. -/
theorem proper_onResolved_iff {overlayCloser : Bool} {s : Daemon} (h : Inv s) (succeeds : Bool) :
    Proper s (onResolved s succeeds) ↔ InOrder overlayCloser s (.resolveApproval succeeds) := by
  unfold onResolved
  cases hflight : s.inFlight with
  | none => exact iff_of_true (Proper.refl s) (by cases succeeds <;> simp [InOrder, hflight])
  | some c =>
    cases c with
    | dispatching row rank arrivedAt => exact iff_of_true (Proper.refl s) (by cases succeeds <;> simp [InOrder, hflight])
    | resolving row press arrivedAt cancelled =>
      cases succeeds with
      | false => exact iff_of_true (Proper.ofEq rfl rfl) trivial
      | true =>
        have hkeeps := keeps_resolve_iff (h.inFlight _ hflight).1 press
        constructor
        · intro hproper row' press' arrivedAt' cancelled' hflight'
          obtain ⟨rfl, rfl, rfl, rfl⟩ :=
            InFlight.resolving.inj (Option.some.inj (hflight.symm.trans hflight'))
          exact hkeeps.mp hproper.1
        · intro horder
          exact ⟨hkeeps.mpr (horder row press arrivedAt cancelled hflight), fun d hd => Or.inl hd⟩

/-- The action of the callback in flight. -/
theorem proper_onDispatch_iff {overlayCloser : Bool} {s : Daemon} (h : Inv s) :
    Proper s (onDispatch overlayCloser s) ↔ InOrder overlayCloser s .dispatch := by
  unfold onDispatch
  cases hflight : s.inFlight with
  | none => exact iff_of_true (Proper.refl s) (by simp [InOrder, hflight])
  | some c =>
    cases c with
    | resolving row press arrivedAt cancelled =>
        exact iff_of_true (Proper.refl s) (by simp [InOrder, hflight])
    | dispatching row rank arrivedAt =>
      cases hd : handOver overlayCloser row rank with
      | none =>
        refine iff_of_true (Proper.ofEq rfl (by simp [hd])) ?_
        rintro row' rank' arrivedAt' hflight' hsome
        obtain ⟨rfl, rfl, rfl⟩ := InFlight.dispatching.inj (Option.some.inj (hflight.symm.trans hflight'))
        rw [hd] at hsome
        exact absurd hsome (by simp)
      | some handed =>
        simp only [hd, Option.map_some, Option.toList_some]
        constructor
        · rintro ⟨-, hdispatched⟩ row' rank' arrivedAt' hflight' -
          obtain ⟨rfl, rfl, rfl⟩ := InFlight.dispatching.inj (Option.some.inj (hflight.symm.trans hflight'))
          rcases hdispatched ⟨row, arrivedAt, handed⟩
            (List.mem_append_right _ (List.mem_singleton_self _)) with hold | hin
          · exact absurd rfl ((h.inFlight _ hflight).2 _ hold)
          · exact hin
        · intro horder
          refine ⟨Keeps.refl _, fun d hd' => ?_⟩
          rcases List.mem_append.mp hd' with hd' | hd'
          · exact Or.inl hd'
          · rw [List.mem_singleton.mp hd']
            exact Or.inr (horder row rank arrivedAt hflight (by rw [hd]; rfl))

/-- One event. -/
theorem proper_step_iff {overlayCloser : Bool} {s : Daemon} {ev : Event} (h : Inv s) :
    Proper s (step overlayCloser s ev) ↔ InOrder overlayCloser s ev := by
  cases ev with
  | createApproval strategyName eventType councilOutput telegramMsgId expiresAt =>
    exact iff_of_true ⟨keeps_create _ _ _ _ _ _, fun _ hd => Or.inl hd⟩ trivial
  | callback telegramMsgId press now => exact iff_of_true (proper_onCallback s telegramMsgId press now) trivial
  | resolveApproval succeeds => exact proper_onResolved_iff h succeeds
  | dispatch => exact proper_onDispatch_iff h
  | scanExpired now => exact iff_of_true ⟨keeps_scanExpired _ now, fun _ hd => Or.inl hd⟩ trivial
  | cancel => exact iff_of_true (proper_onCancel s) trivial
  | expireAll => exact iff_of_true ⟨keeps_expireAll _, fun _ hd => Or.inl hd⟩ trivial

/-- Nothing dispatched is taken back. -/
theorem dispatched_subset_step (overlayCloser : Bool) (s : Daemon) (ev : Event) :
    s.dispatched ⊆ (step overlayCloser s ev).dispatched := by
  cases ev with
  | callback telegramMsgId press now =>
    rw [step, onCallback]
    split <;> exact List.Subset.refl _
  | resolveApproval succeeds =>
    rw [step, onResolved]
    split
    · split <;> exact List.Subset.refl _
    · exact List.Subset.refl _
  | dispatch =>
    rw [step, onDispatch]
    split
    · exact List.subset_append_left _ _
    · exact List.Subset.refl _
  | cancel =>
    rw [step, onCancel]
    split <;> exact List.Subset.refl _
  | _ => exact List.Subset.refl _

/-- Approval rows are final, over a run from a table: rows that have left PENDING keep
their status and rank from any state to any later one, no row has two actions dispatched,
and no action is dispatched by a press after the row's `expires_at`. -/
structure ApprovalsFinal (overlayCloser : Bool) (A : Approvals) (evs : List Event) : Prop where
  /-- The rows. -/
  rows : Throughout (step overlayCloser) (fun s t => Keeps s.approvals t.approvals) (Daemon.start A) evs
  /-- One action a row. -/
  once : ((final (step overlayCloser) (Daemon.start A) evs).dispatched.map (·.row.id)).Nodup
  /-- In time. -/
  inTime : ∀ d ∈ (final (step overlayCloser) (Daemon.start A) evs).dispatched, d.arrivedAt ≤ d.row.expiresAt

/-- **Approval rows are final exactly when every event is in order.** -/
theorem approvals_final_iff (overlayCloser : Bool) (A : Approvals) (evs : List Event) :
    ApprovalsFinal overlayCloser A evs ↔
      EachStep (step overlayCloser) (InOrder overlayCloser) (Daemon.start A) evs := by
  have hinv : ∀ s ev, Inv s → Inv (step overlayCloser s ev) := fun _ _ => Inv.step
  rw [← eachStep_congr hinv (fun s ev h => proper_step_iff h) (Inv.start A),
    ← throughout_iff_eachStep Proper.refl (fun _ _ _ => Proper.trans)]
  constructor
  · rintro ⟨hrows, -, hinTime⟩ before after hle hafter
    refine ⟨hrows before after hle hafter, fun d hd => Or.inr (hinTime d ?_)⟩
    have hgrows : Throughout (step overlayCloser) (fun s t => s.dispatched ⊆ t.dispatched)
        (Daemon.start A) evs := by
      refine (throughout_iff_eachStep ?_ ?_).mpr (eachStep_of_forall (dispatched_subset_step overlayCloser))
      · exact fun s => List.Subset.refl s.dispatched
      · exact fun _ _ _ => List.Subset.trans
    exact hgrows after evs hafter List.prefix_rfl hd
  · intro h
    refine ⟨fun before after hle hafter => (h before after hle hafter).1, ?_, fun d hd => ?_⟩
    · exact (final_of_invariant hinv evs (Inv.start A)).once
    · rcases (h [] evs List.nil_prefix List.prefix_rfl).2 d hd with hd | hd
      · exact absurd hd (by simp [Daemon.start])
      · exact hd

/-- A delta stop lapses at 1800; its one button is pressed just before, and the scan runs
while the callback waits for its update. -/
def lapsedMeanwhile : List Event :=
  [.createApproval "paper_nifty_overlay" "DELTA_STOP" collarDeltaStop.event.payload (some 17) 1800,
    .callback 17 (.approve 1) 1799, .scanExpired 1801, .resolveApproval true]

/-- A question with an action that closes a call. -/
def closeCallQuestion : Payload :=
  [("valid_actions", .list [.str "CLOSE_CC"]),
    ("actions", .list [.dict [("council_rank", .int 1), ("action_type", .str "CLOSE_CC")]])]

/-- The button is pressed after the question lapsed and before the next scan. -/
def pressedLate : List Event :=
  [.createApproval "paper_nifty_overlay" "DTE_REVIEW" closeCallQuestion (some 18) 1800,
    .callback 18 (.approve 1) 1900, .resolveApproval true, .dispatch]

/-- An EXPIRED row becomes APPROVED, and a late press has its action dispatched. -/
theorem approvals_not_final :
    ¬ ApprovalsFinal true Approvals.empty lapsedMeanwhile ∧
      ¬ ApprovalsFinal true Approvals.empty pressedLate := by
  constructor
  · intro h
    have hbefore : (final (step true) (Daemon.start Approvals.empty)
      (lapsedMeanwhile.take 3)).approvals.rows.map
        (·.status) = [.expired] := rfl
    have hafter : (final (step true) (Daemon.start Approvals.empty) lapsedMeanwhile).approvals.rows.map
        (·.status) = [.approved] := rfl
    obtain ⟨r, hr, hexpired⟩ := List.mem_map.mp (hbefore ▸ List.mem_singleton_self ApprovalStatus.expired)
    obtain ⟨q, hq, -, hstatus, -⟩ := h.rows _ _ (List.take_prefix 3 _) List.prefix_rfl r hr (by simp [hexpired])
    have happroved : q.status ∈ [ApprovalStatus.approved] := hafter ▸ List.mem_map_of_mem hq
    rw [List.mem_singleton, hstatus, hexpired] at happroved
    exact absurd happroved (by decide)
  · intro h
    have hlate : (final (step true) (Daemon.start Approvals.empty) pressedLate).dispatched.map
        (fun d => (d.arrivedAt, d.row.expiresAt)) = [(1900, 1800)] := rfl
    obtain ⟨d, hd, htimes⟩ := List.mem_map.mp (hlate ▸ List.mem_singleton_self ((1900, 1800) : ℕ × ℕ))
    obtain ⟨harrived, hexpires⟩ := Prod.mk.inj htimes
    have hle := h.inTime d hd
    omega

end NiftyShield.Notifications.ApprovalRuns
