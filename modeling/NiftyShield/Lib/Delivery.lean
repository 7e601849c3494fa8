import Mathlib.Data.List.Induction
import Mathlib.Order.MinMax

/-!
# Delivery by offset

A mailbox numbers its messages in increasing order and keeps offering those that are not
confirmed. A reader asks for the messages from an offset on, which confirms all below it, takes
up what it was given one by one, and moves its offset past each message it takes up. It
keeps the offset to itself: a new reader starts from nothing. A `Line` is a mailbox with its
reader, and with what this reader and those before it have taken up.

## What is proved

* `Line.Inv`, kept by every operation: a reader takes up, in order and without gaps, a first
  part of the messages that were unconfirmed when it started or were sent since
  (`Inv.inOrder`), and no message is confirmed that no reader has taken up (`Inv.covered`);
* `Inv.fetch_all`: a fetch that is answered in full leaves no message out.
-/

namespace NiftyShield.Lib.Delivery

variable {α : Type*}

/-- Numbered messages. -/
structure Mailbox (α : Type*) where
  /-- All messages, with their numbers. -/
  sent : List (ℕ × α)
  /-- Messages of lower numbers are not offered again. -/
  confirmed : ℕ
  /-- Above all numbers in use. -/
  nextId : ℕ
  /-- No number is reused. -/
  ids_lt : ∀ m ∈ sent, m.1 < nextId
  /-- Messages are in the order of their numbers. -/
  increasing : sent.Pairwise (·.1 < ·.1)

namespace Mailbox

/-- A mailbox without messages. -/
def empty : Mailbox α := ⟨[], 0, 0, by simp, .nil⟩

/-- A message arrives; numbers may be skipped. -/
def post (M : Mailbox α) (skipped : ℕ) (a : α) : Mailbox α where
  sent := M.sent ++ [(M.nextId + skipped, a)]
  confirmed := M.confirmed
  nextId := M.nextId + skipped + 1
  ids_lt := fun m hm => by
    rcases List.mem_append.mp hm with hm | hm
    · exact (M.ids_lt m hm).trans (by omega)
    · rw [List.mem_singleton.mp hm]
      exact Nat.lt_succ_self _
  increasing := List.pairwise_append.mpr ⟨M.increasing, List.pairwise_singleton _ _, fun m hm m' hm' => by
    rw [List.mem_singleton.mp hm']
    exact (M.ids_lt m hm).trans_le (Nat.le_add_right _ _)⟩

/-- The messages from a number on. -/
def since (M : Mailbox α) (start : ℕ) : List (ℕ × α) := M.sent.filter fun m => start ≤ m.1

/-- All messages below the offset are confirmed. -/
def confirm (M : Mailbox α) (offset : ℕ) : Mailbox α := { M with confirmed := max M.confirmed offset }

/-- The messages on offer. -/
def offered (M : Mailbox α) : List (ℕ × α) := M.since M.confirmed

@[simp] theorem since_confirm (M : Mailbox α) (offset start : ℕ) : (M.confirm offset).since start = M.since start := rfl

theorem mem_since {M : Mailbox α} {start : ℕ} {m : ℕ × α} : m ∈ M.since start ↔ m ∈ M.sent ∧ start ≤ m.1 := by
  rw [since, List.mem_filter, decide_eq_true_eq]

theorem increasing_since (M : Mailbox α) (start : ℕ) : (M.since start).Pairwise (·.1 < ·.1) :=
  M.increasing.sublist List.filter_sublist

theorem since_since (M : Mailbox α) {start later : ℕ} (h : start ≤ later) :
    M.since later = (M.since start).filter fun m => later ≤ m.1 := by
  rw [since, since, List.filter_filter]
  refine List.filter_congr fun m _ => ?_
  by_cases hm : later ≤ m.1
  · simp [hm, h.trans hm]
  · simp [hm]

theorem since_post {M : Mailbox α} {start : ℕ} (h : start ≤ M.nextId) (skipped : ℕ) (a : α) :
    (M.post skipped a).since start = M.since start ++ [(M.nextId + skipped, a)] := by
  have hstart : start ≤ M.nextId + skipped := h.trans (Nat.le_add_right _ _)
  simp only [since, post, List.filter_append, List.filter_cons, List.filter_nil, decide_eq_true hstart, if_true]

end Mailbox

/-- Past the last of the messages. -/
def past : List (ℕ × α) → ℕ
  | [] => 0
  | m :: ms => (ms.getLastD m).1 + 1

theorem past_append_singleton (ms : List (ℕ × α)) (m : ℕ × α) : past (ms ++ [m]) = m.1 + 1 := by
  cases ms with
  | nil => rfl
  | cons m' ms => simp [past, List.getLastD_eq_getLast?]

/-- Of messages in order, the first ones are those of lower numbers. -/
theorem lt_past_iff {ms rest : List (ℕ × α)} (h : (ms ++ rest).Pairwise (·.1 < ·.1)) {m : ℕ × α}
    (hm : m ∈ ms ++ rest) : m.1 < past ms ↔ m ∈ ms := by
  induction ms using List.reverseRecOn with
  | nil => simp [past]
  | append_singleton ms last _ =>
    obtain ⟨hms, -, hrest⟩ := List.pairwise_append.mp h
    have hlast : last ∈ ms ++ [last] := List.mem_append_right _ (List.mem_singleton_self _)
    rw [past_append_singleton]
    constructor
    · intro hlt
      rcases List.mem_append.mp hm with hm | hm
      · exact hm
      · exact absurd (hrest last hlast m hm) (by omega)
    · intro hm
      rcases List.mem_append.mp hm with hm | hm
      · exact ((List.pairwise_append.mp hms).2.2 m hm last (List.mem_singleton_self _)).trans (Nat.lt_succ_self _)
      · rw [List.mem_singleton.mp hm]
        exact Nat.lt_succ_self _

/-- What is left of messages in order past the first ones. -/
theorem filter_past {ms rest : List (ℕ × α)} (h : (ms ++ rest).Pairwise (·.1 < ·.1)) :
    (ms ++ rest).filter (fun m => past ms ≤ m.1) = rest := by
  have hdisjoint := (List.pairwise_append.mp h).2.2
  rw [List.filter_append, List.filter_eq_nil_iff.mpr, List.nil_append, List.filter_eq_self.mpr]
  · intro m hm
    have hnot : m ∉ ms := fun hms => absurd (hdisjoint m hms m hm) (lt_irrefl _)
    simpa using (lt_past_iff h (List.mem_append_right _ hm)).not.mpr hnot
  · intro m hm
    simpa using (lt_past_iff h (List.mem_append_left _ hm)).mpr hm

/-- A mailbox and its reader. -/
structure Line (α : Type*) where
  /-- The mailbox. -/
  mailbox : Mailbox α
  /-- The reader's offset. -/
  offset : ℕ
  /-- What it was given and has not taken up. -/
  batch : List (ℕ × α)
  /-- What was confirmed when it started. -/
  startedAt : ℕ
  /-- What it has taken up. -/
  taken : List (ℕ × α)
  /-- What the readers before it have taken up. -/
  before : List (ℕ × α)

namespace Line

/-- A first reader. -/
def start (M : Mailbox α) : Line α := ⟨M, 0, [], M.confirmed, [], []⟩

/-- A message arrives. -/
def post (L : Line α) (skipped : ℕ) (a : α) : Line α := { L with mailbox := L.mailbox.post skipped a }

/-- The reader has asked for messages, and gets the first `limit` of those on offer. -/
def fetch (L : Line α) (limit : ℕ) : Line α :=
  { L with
    mailbox := L.mailbox.confirm L.offset
    batch := (L.mailbox.confirm L.offset).offered.take limit }

/-- The reader takes up the next message. -/
def next (L : Line α) : Line α :=
  match L.batch with
  | [] => L
  | m :: batch => { L with offset := m.1 + 1, batch, taken := L.taken ++ [m] }

/-- Another reader starts. -/
def restart (L : Line α) : Line α where
  mailbox := L.mailbox
  offset := 0
  batch := []
  startedAt := L.mailbox.confirmed
  taken := []
  before := L.before ++ L.taken

/-- The invariant of a line whose first reader started at `first`. -/
structure Inv (first : ℕ) (L : Line α) : Prop where
  /-- A reader takes up the messages in order and without gaps. -/
  inOrder : L.taken ++ L.batch <+: L.mailbox.since L.startedAt
  /-- The offset is past what it has taken up. -/
  offset_eq : L.offset = past L.taken
  /-- It started where the one before it had confirmed. -/
  first_le : first ≤ L.startedAt
  /-- Nothing is unconfirmed again. -/
  started_le : L.startedAt ≤ L.mailbox.confirmed
  /-- Only what it has taken up is confirmed. -/
  confirmed_le : L.mailbox.confirmed ≤ max L.startedAt L.offset
  /-- Numbers to come are above the mark. -/
  confirmed_lt : L.mailbox.confirmed ≤ L.mailbox.nextId
  /-- What is confirmed has been taken up. -/
  covered : ∀ m ∈ L.mailbox.since first, m.1 < L.mailbox.confirmed → m ∈ L.before ++ L.taken
  /-- Readers take up only what was sent. -/
  before_sent : ∀ m ∈ L.before, m ∈ L.mailbox.sent

variable {first : ℕ} {L : Line α}

theorem Inv.start {M : Mailbox α} (h : M.confirmed ≤ M.nextId) : Inv M.confirmed (start M) where
  inOrder := List.nil_prefix
  offset_eq := rfl
  first_le := le_rfl
  started_le := le_rfl
  confirmed_le := le_max_left _ _
  confirmed_lt := h
  covered := fun _ hm hlt => absurd (Mailbox.mem_since.mp hm).2 (not_le.mpr hlt)
  before_sent := by simp [Line.start]

theorem Inv.taken_sent (h : Inv first L) : ∀ m ∈ L.taken, m ∈ L.mailbox.sent := fun _ hm =>
  (Mailbox.mem_since.mp (h.inOrder.subset (List.mem_append_left _ hm))).1

theorem Inv.post (h : Inv first L) (skipped : ℕ) (a : α) : Inv first (L.post skipped a) where
  inOrder := by
    rw [Line.post, Mailbox.since_post (h.started_le.trans h.confirmed_lt)]
    exact h.inOrder.trans (List.prefix_append _ _)
  offset_eq := h.offset_eq
  first_le := h.first_le
  started_le := h.started_le
  confirmed_le := h.confirmed_le
  confirmed_lt := h.confirmed_lt.trans (by simp only [Line.post, Mailbox.post]; omega)
  covered := by
    intro m hm hlt
    have hfirst : first ≤ L.mailbox.nextId := h.first_le.trans (h.started_le.trans h.confirmed_lt)
    rw [Line.post, Mailbox.since_post hfirst] at hm
    rcases List.mem_append.mp hm with hm | hm
    · exact h.covered m hm hlt
    · rw [List.mem_singleton.mp hm] at hlt
      exact absurd (hlt.trans_le h.confirmed_lt) (by omega)
  before_sent := fun m hm => List.mem_append_left _ (h.before_sent m hm)

/-- With the batch taken up, what is on offer next is what the reader has not taken up. -/
theorem Inv.offered (h : Inv first L) (hbatch : L.batch = []) :
    L.mailbox.since L.startedAt = L.taken ++ (L.mailbox.confirm L.offset).offered := by
  obtain ⟨rest, hrest⟩ := h.inOrder
  rw [hbatch, List.append_nil] at hrest
  have hmark : max L.mailbox.confirmed L.offset = max L.startedAt L.offset :=
    le_antisymm (max_le h.confirmed_le (le_max_right _ _)) (max_le_max h.started_le le_rfl)
  have hoffered : (L.mailbox.confirm L.offset).offered =
      (L.mailbox.since L.startedAt).filter fun m => L.offset ≤ m.1 := by
    rw [Mailbox.offered, Mailbox.since_confirm, Mailbox.confirm, hmark,
      Mailbox.since_since _ (le_max_left L.startedAt L.offset)]
    exact List.filter_congr fun m hm => by simp [(Mailbox.mem_since.mp hm).2]
  have hincreasing : (L.taken ++ rest).Pairwise (·.1 < ·.1) := hrest ▸ L.mailbox.increasing_since _
  rw [hoffered, ← hrest, h.offset_eq, filter_past hincreasing]

theorem Inv.offset_le (h : Inv first L) : L.offset ≤ L.mailbox.nextId := by
  rw [h.offset_eq]
  obtain ⟨rest, hrest⟩ := h.inOrder
  rcases List.eq_nil_or_concat L.taken with hnil | ⟨ms, m, htaken⟩
  · rw [hnil]
    exact Nat.zero_le _
  · rw [htaken, List.concat_eq_append, past_append_singleton]
    have hm : m ∈ L.mailbox.since L.startedAt := by
      rw [← hrest, htaken]
      simp
    exact L.mailbox.ids_lt m (Mailbox.mem_since.mp hm).1

theorem Inv.confirm (h : Inv first L) (hbatch : L.batch = []) (batch : List (ℕ × α))
    (hnew : batch <+: (L.mailbox.confirm L.offset).offered) :
    Inv first { L with mailbox := L.mailbox.confirm L.offset, batch } where
  inOrder := by
    rw [Mailbox.since_confirm, h.offered hbatch]
    exact (List.prefix_append_right_inj _).mpr hnew
  offset_eq := h.offset_eq
  first_le := h.first_le
  started_le := h.started_le.trans (le_max_left _ _)
  confirmed_le := max_le h.confirmed_le (le_max_right _ _)
  confirmed_lt := max_le h.confirmed_lt h.offset_le
  covered := by
    intro m hm hlt
    rcases lt_max_iff.mp hlt with hlt | hlt
    · exact h.covered m hm hlt
    by_cases hstarted : m.1 < L.startedAt
    · exact h.covered m hm (hstarted.trans_le h.started_le)
    · obtain ⟨rest, hrest⟩ := h.inOrder
      rw [List.append_assoc] at hrest
      have hsince : m ∈ L.taken ++ (L.batch ++ rest) :=
        hrest ▸ Mailbox.mem_since.mpr ⟨(Mailbox.mem_since.mp hm).1, not_lt.mp hstarted⟩
      have hincreasing : (L.taken ++ (L.batch ++ rest)).Pairwise (·.1 < ·.1) :=
        hrest ▸ L.mailbox.increasing_since _
      rw [h.offset_eq] at hlt
      exact List.mem_append_right _ ((lt_past_iff hincreasing hsince).mp hlt)
  before_sent := h.before_sent

theorem Inv.fetch (h : Inv first L) (hbatch : L.batch = []) (limit : ℕ) : Inv first (L.fetch limit) :=
  h.confirm hbatch _ (List.take_prefix _ _)

/-- **A full answer**: nothing that was sent is left out. -/
theorem Inv.fetch_all (h : Inv first L) (hbatch : L.batch = []) {limit : ℕ}
    (hlimit : (L.mailbox.confirm L.offset).offered.length ≤ limit) :
    (L.fetch limit).taken ++ (L.fetch limit).batch = (L.fetch limit).mailbox.since L.startedAt := by
  rw [Line.fetch, Mailbox.since_confirm, h.offered hbatch, List.take_of_length_le hlimit]

theorem Inv.next (h : Inv first L) : Inv first L.next := by
  unfold Line.next
  cases hbatch : L.batch with
  | nil => exact h
  | cons m batch =>
    have hoffset : L.offset ≤ m.1 + 1 := by
      rw [h.offset_eq]
      obtain ⟨rest, hrest⟩ := h.inOrder
      rw [hbatch, List.append_assoc] at hrest
      have hincreasing : (L.taken ++ (m :: batch ++ rest)).Pairwise (·.1 < ·.1) :=
        hrest ▸ L.mailbox.increasing_since _
      have hm : m ∈ L.taken ++ (m :: batch ++ rest) := by simp
      have hnot : m ∉ L.taken := fun htaken =>
        absurd ((List.pairwise_append.mp hincreasing).2.2 m htaken m (by simp)) (lt_irrefl _)
      have := (lt_past_iff hincreasing hm).not.mpr hnot
      omega
    exact
      { inOrder := by
          have := h.inOrder
          rw [hbatch] at this
          simpa using this
        offset_eq := (past_append_singleton L.taken m).symm
        first_le := h.first_le
        started_le := h.started_le
        confirmed_le := h.confirmed_le.trans (max_le_max le_rfl hoffset)
        confirmed_lt := h.confirmed_lt
        covered := fun m' hm' hlt => by
          rcases List.mem_append.mp (h.covered m' hm' hlt) with hbefore | htaken
          · exact List.mem_append_left _ hbefore
          · exact List.mem_append_right _ (List.mem_append_left _ htaken)
        before_sent := h.before_sent }

/-- A new reader is offered again what the one before it had not confirmed. -/
theorem Inv.restart (h : Inv first L) : Inv first L.restart where
  inOrder := List.nil_prefix
  offset_eq := rfl
  first_le := h.first_le.trans h.started_le
  started_le := le_rfl
  confirmed_le := le_max_left _ _
  confirmed_lt := h.confirmed_lt
  covered := fun m hm hlt => List.mem_append_left _ (h.covered m hm hlt)
  before_sent := fun m hm => (List.mem_append.mp hm).elim (h.before_sent m) (h.taken_sent m)

end Line

end NiftyShield.Lib.Delivery
