import NiftyShield.Models.PyValue
import Mathlib.Data.List.Nodup

/-!
# Pending approvals

The `pending_approvals` table of `PaperStore` (`src/paper/store.py`): the questions sent to
the user and not yet answered.

## What is proved

A row is found by its message as long as it is pending and no other pending row has the
message (`getPending_of_mem`), and resolving it changes that row alone (`mem_resolve`,
`mem_resolve_of_ne`). However the table goes on (`Later`), a row that is still pending is as
it was created (`eq_of_later`).

## Honest scope

Times are numbers, and `council_output` is the value of its JSON text. Without an
`ORDER BY` the order of a query is the database's; here it is that of the ids.
-/

namespace NiftyShield.Paper

/-- The status column. -/
inductive ApprovalStatus where
  /-- Not answered. -/
  | pending
  /-- An action was chosen. -/
  | approved
  /-- All actions were rejected. -/
  | rejected
  /-- Not answered in time. -/
  | expired
  deriving DecidableEq

/-- A row of `pending_approvals`. -/
structure ApprovalRow where
  /-- Primary key. -/
  id : ℕ
  /-- The strategy that asked. -/
  strategyName : String
  /-- The signal it asked about. -/
  eventType : String
  /-- The payload of the signal. -/
  councilOutput : Payload
  /-- Status. -/
  status : ApprovalStatus
  /-- The rank chosen. -/
  approvedRank : Option ℤ := none
  /-- When the question lapses. -/
  expiresAt : ℕ
  /-- The message with the buttons, if it was sent. -/
  telegramMsgId : Option ℤ

/-- The `pending_approvals` table. -/
structure Approvals where
  /-- The rows, in id order. -/
  rows : List ApprovalRow
  /-- The next id AUTOINCREMENT hands out. -/
  nextId : ℕ
  /-- No id has been reused. -/
  ids_lt : ∀ r ∈ rows, r.id < nextId
  /-- The primary key. -/
  ids_nodup : (rows.map (·.id)).Nodup

namespace Approvals

/-- The empty table. -/
def empty : Approvals := ⟨[], 1, by simp, by simp⟩

/-- `create_approval`. -/
def create (A : Approvals) (strategyName eventType : String) (councilOutput : Payload) (telegramMsgId : Option ℤ)
    (expiresAt : ℕ) : Approvals where
  rows := A.rows ++ [⟨A.nextId, strategyName, eventType, councilOutput, .pending, none, expiresAt, telegramMsgId⟩]
  nextId := A.nextId + 1
  ids_lt := fun r hr => by
    rcases List.mem_append.mp hr with hr | hr
    · exact (A.ids_lt r hr).trans (Nat.lt_succ_self _)
    · rw [List.mem_singleton.mp hr]
      exact Nat.lt_succ_self _
  ids_nodup := by
    rw [List.map_append, List.map_singleton, List.nodup_append]
    refine ⟨A.ids_nodup, by simp, fun i hi j hj hij => ?_⟩
    obtain ⟨r, hr, rfl⟩ := List.mem_map.mp hi
    have hlt := A.ids_lt r hr
    rw [List.mem_singleton.mp hj] at hij
    exact absurd hij hlt.ne

/-- The table with the status of some rows changed. -/
def updateRows (A : Approvals) (f : ApprovalRow → ApprovalRow) (hf : ∀ r, (f r).id = r.id) : Approvals where
  rows := A.rows.map f
  nextId := A.nextId
  ids_lt := fun r hr => by
    obtain ⟨s, hs, rfl⟩ := List.mem_map.mp hr
    rw [hf]
    exact A.ids_lt s hs
  ids_nodup := by
    have hids : (A.rows.map f).map (·.id) = A.rows.map (·.id) := by
      rw [List.map_map]
      exact List.map_congr_left fun r _ => hf r
    rw [hids]
    exact A.ids_nodup

/-- `resolve_approval` of a row that exists. -/
def resolve (A : Approvals) (id : ℕ) (status : ApprovalStatus) (approvedRank : Option ℤ) : Approvals :=
  A.updateRows (fun r => if r.id = id then { r with status, approvedRank } else r) fun r => by split <;> rfl

/-- `scan_expired_approvals`: the questions that have lapsed. -/
def scanExpired (A : Approvals) (now : ℕ) : Approvals :=
  A.updateRows (fun r => if r.status = .pending ∧ r.expiresAt < now then { r with status := .expired } else r)
    fun r => by split <;> rfl

/-- `expire_all_pending_approvals`. -/
def expireAll (A : Approvals) : Approvals :=
  A.updateRows (fun r => if r.status = .pending then { r with status := .expired } else r) fun r => by split <;> rfl

/-- `get_pending_approval_by_msg_id`. -/
def getPendingByMsgId (A : Approvals) (telegramMsgId : ℤ) : Option ApprovalRow :=
  A.rows.find? fun r => r.telegramMsgId = some telegramMsgId && r.status = .pending

/-- A pending row is found by its message if it is the only pending one with it. -/
theorem getPending_of_mem {A : Approvals} {row : ApprovalRow} {msgId : ℤ} (hrow : row ∈ A.rows)
    (hmsg : row.telegramMsgId = some msgId) (hpending : row.status = .pending)
    (honly : ∀ r ∈ A.rows, r.telegramMsgId = some msgId → r.status = .pending → r = row) :
    A.getPendingByMsgId msgId = some row := by
  unfold getPendingByMsgId
  cases h : A.rows.find? fun r => r.telegramMsgId = some msgId && r.status = .pending with
  | none => exact absurd (List.find?_eq_none.mp h row hrow) (by simp [hmsg, hpending])
  | some r =>
    have hr := List.find?_some h
    simp only [Bool.and_eq_true, decide_eq_true_eq] at hr
    rw [honly r (List.mem_of_find?_eq_some h) hr.1 hr.2]

theorem mem_of_getPending {A : Approvals} {row : ApprovalRow} {msgId : ℤ}
    (h : A.getPendingByMsgId msgId = some row) :
    row ∈ A.rows ∧ row.telegramMsgId = some msgId ∧ row.status = .pending := by
  have hr := List.find?_some h
  simp only [Bool.and_eq_true, decide_eq_true_eq] at hr
  exact ⟨List.mem_of_find?_eq_some h, hr⟩

/-- Resolving a row changes that row alone. -/
theorem mem_resolve {A : Approvals} {row : ApprovalRow} (hrow : row ∈ A.rows) (status : ApprovalStatus)
    (rank : Option ℤ) : { row with status, approvedRank := rank } ∈ (A.resolve row.id status rank).rows :=
  List.mem_map.mpr ⟨row, hrow, if_pos rfl⟩

theorem mem_resolve_of_ne {A : Approvals} {r : ApprovalRow} {id : ℕ} (hr : r ∈ A.rows) (hne : r.id ≠ id)
    (status : ApprovalStatus) (rank : Option ℤ) : r ∈ (A.resolve id status rank).rows :=
  List.mem_map.mpr ⟨r, hr, if_neg hne⟩

/-- The table as it goes on. A row is resolved to one of the three other statuses. -/
inductive Later (A : Approvals) : Approvals → Prop where
  /-- Nothing has happened. -/
  | refl : Later A A
  /-- Another question. -/
  | create {B : Approvals} (h : Later A B) (strategyName eventType : String) (councilOutput : Payload)
      (telegramMsgId : Option ℤ) (expiresAt : ℕ) :
      Later A (B.create strategyName eventType councilOutput telegramMsgId expiresAt)
  /-- An answer. -/
  | resolve {B : Approvals} (h : Later A B) (id : ℕ) {status : ApprovalStatus} (hstatus : status ≠ .pending)
      (rank : Option ℤ) : Later A (B.resolve id status rank)
  /-- A scan. -/
  | scanExpired {B : Approvals} (h : Later A B) (now : ℕ) : Later A (B.scanExpired now)
  /-- All questions lapse. -/
  | expireAll {B : Approvals} (h : Later A B) : Later A B.expireAll

/-- Two rows of one id are one. -/
theorem eq_of_id {A : Approvals} {q r : ApprovalRow} (hq : q ∈ A.rows) (hr : r ∈ A.rows)
    (h : q.id = r.id) : q = r :=
  List.inj_on_of_nodup_map A.ids_nodup hq hr h

/-- A change of rows that makes none pending keeps those that stay so. -/
private theorem mem_updateRows {A : Approvals} {f : ApprovalRow → ApprovalRow} {hf : ∀ r, (f r).id = r.id}
    (hpending : ∀ r, (f r).status = .pending → f r = r) {q : ApprovalRow}
    (hq : q ∈ (A.updateRows f hf).rows)
    (hstatus : q.status = .pending) : q ∈ A.rows := by
  obtain ⟨r, hr, rfl⟩ := List.mem_map.mp hq
  rwa [hpending r hstatus]

/-- Of the rows the table had, those still pending are unchanged. -/
theorem eq_of_later {A B : Approvals} (h : Later A B) {row : ApprovalRow} (hrow : row ∈ A.rows) :
    row.id < B.nextId ∧ ∀ q ∈ B.rows, q.id = row.id → q.status = .pending → q = row := by
  induction h with
  | refl => exact ⟨A.ids_lt row hrow, fun q hq hid _ => eq_of_id hq hrow hid⟩
  | create h strategyName eventType councilOutput telegramMsgId expiresAt ih =>
    obtain ⟨hlt, ih⟩ := ih
    refine ⟨hlt.trans (Nat.lt_succ_self _), fun q hq hid hstatus => ?_⟩
    rcases List.mem_append.mp hq with hq | hq
    · exact ih q hq hid hstatus
    · rw [List.mem_singleton.mp hq] at hid
      exact absurd hid hlt.ne'
  | resolve h id hne rank ih =>
    refine ⟨ih.1, fun q hq hid hstatus => ih.2 q (mem_updateRows (fun r hr => ?_) hq hstatus) hid hstatus⟩
    split at hr
    · exact absurd hr hne
    next hother => rw [if_neg hother]
  | scanExpired h now ih =>
    refine ⟨ih.1, fun q hq hid hstatus => ih.2 q (mem_updateRows (fun r hr => ?_) hq hstatus) hid hstatus⟩
    split at hr
    · exact absurd hr (by simp)
    next hother => rw [if_neg hother]
  | expireAll h ih =>
    refine ⟨ih.1, fun q hq hid hstatus => ih.2 q (mem_updateRows (fun r hr => ?_) hq hstatus) hid hstatus⟩
    split at hr
    · exact absurd hr (by simp)
    next hother => rw [if_neg hother]

end Approvals

end NiftyShield.Paper
