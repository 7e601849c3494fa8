import Mathlib.Order.Bounds.Basic
import NiftyShield.Lib.Selection

/-!
# Series that carry their extremes

A table holds the rows of several series, one row at most for a series and a time; a row whose
series and time are taken is ignored (`insertNew`). A series is read in the order of its times
(`inOrder`), whatever the order its rows were written in. Each row carries a low and a high,
those of the last row of its series extended by its own value. The last row then holds the
extremes of its series as long as no row is written behind it with a value outside them
(`holdsExtremes_insertNew_iff`).
-/

namespace NiftyShield.Lib.Series

/-! ### Extremes of a set -/

section Extremes

variable {α : Type*} [LinearOrder α] {S : Set α} {lo hi : α}

/-- `lo` and `hi` are the least and the greatest of `S`. -/
structure Extremes (S : Set α) (lo hi : α) : Prop where
  /-- The least. -/
  least : IsLeast S lo
  /-- The greatest. -/
  greatest : IsGreatest S hi

theorem extremes_singleton (a : α) : Extremes {a} a a := ⟨isLeast_singleton, isGreatest_singleton⟩

theorem Extremes.insert (h : Extremes S lo hi) (x : α) : Extremes (insert x S) (min lo x) (max hi x) := by
  rw [min_comm, max_comm]
  exact ⟨h.least.insert x, h.greatest.insert x⟩

/-- The extremes stay what they are exactly when the new value lies between them. -/
theorem Extremes.insert_iff (h : Extremes S lo hi) {x : α} :
    Extremes (Insert.insert x S) lo hi ↔ lo ≤ x ∧ x ≤ hi := by
  constructor
  · exact fun h' => ⟨h'.least.2 (Set.mem_insert x S), h'.greatest.2 (Set.mem_insert x S)⟩
  · rintro ⟨hlo, hhi⟩
    have h' := h.insert x
    rwa [min_eq_left hlo, max_eq_left hhi] at h'

end Extremes

/-! ### Tables of series -/

/-- The columns of a row: its series, its time, its value, and the extremes it carries. -/
structure Columns (ρ κ τ α : Type*) where
  /-- The series. -/
  key : ρ → κ
  /-- The time. -/
  time : ρ → τ
  /-- The value. -/
  value : ρ → α
  /-- The low carried. -/
  low : ρ → α
  /-- The high carried. -/
  high : ρ → α

namespace Columns

variable {ρ κ τ α : Type*} (C : Columns ρ κ τ α)

/-- The values of a series. -/
def values (k : κ) (rows : List ρ) : Set α := {x | ∃ r ∈ rows, C.key r = k ∧ C.value r = x}

theorem values_append {C : Columns ρ κ τ α} {rows : List ρ} {r : ρ} :
    C.values (C.key r) (rows ++ [r]) = insert (C.value r) (C.values (C.key r) rows) := by
  ext x
  simp only [values, List.mem_append, List.mem_singleton, Set.mem_ofPred_eq, Set.mem_insert_iff]
  constructor
  · rintro ⟨r', hr' | rfl, hk, rfl⟩
    · exact Or.inr ⟨r', hr', hk, rfl⟩
    · exact Or.inl rfl
  · rintro (rfl | ⟨r', hr', hk, rfl⟩)
    · exact ⟨r, Or.inr rfl, rfl, rfl⟩
    · exact ⟨r', Or.inl hr', hk, rfl⟩

variable [DecidableEq κ] [LinearOrder τ]

/-- The series and the times of the rows. -/
def slots (rows : List ρ) : List (κ × τ) := rows.map fun r => (C.key r, C.time r)

/-- Insert a row unless its series has one at its time. -/
def insertNew (rows : List ρ) (r : ρ) : List ρ :=
  if (C.key r, C.time r) ∈ C.slots rows then rows else rows ++ [r]

/-- The rows of a series, oldest first. -/
def inOrder (k : κ) (rows : List ρ) : List ρ :=
  (rows.filter fun r => C.key r = k).insertionSort fun r r' => C.time r ≤ C.time r'

/-- The last row of a series. -/
def last (k : κ) (rows : List ρ) : Option ρ := (C.inOrder k rows).getLast?

variable {C} {rows : List ρ} {r m : ρ} {k : κ}

theorem mem_insertNew (h : m ∈ C.insertNew rows r) : m ∈ rows ∨ m = r := by
  unfold insertNew at h
  split at h
  next => exact Or.inl h
  next => exact (List.mem_append.mp h).imp_right List.mem_singleton.mp

theorem nodup_slots_insertNew (h : (C.slots rows).Nodup) (r : ρ) : (C.slots (C.insertNew rows r)).Nodup := by
  unfold insertNew
  split
  next => exact h
  next hfree =>
    rw [slots, List.map_append]
    refine List.nodup_append.mpr ⟨h, List.nodup_singleton _, fun a ha b hb hab => ?_⟩
    rw [List.map_singleton, List.mem_singleton] at hb
    exact hfree (hb ▸ hab ▸ ha)

/-- **The last row of a series** is the one with the latest time. -/
theorem last_eq_some_iff (h : (C.slots rows).Nodup) :
    C.last k rows = some m ↔ m ∈ rows ∧ C.key m = k ∧ ∀ r ∈ rows, C.key r = k → C.time r ≤ C.time m := by
  rw [last, inOrder, Selection.getLast?_insertionSort_iff]
  constructor
  · rintro ⟨before, after, hsplit, hbefore, hafter⟩
    have hm : m ∈ rows.filter fun r => C.key r = k := by
      rw [hsplit]
      exact List.mem_append_right _ List.mem_cons_self
    refine ⟨List.mem_of_mem_filter hm, of_decide_eq_true (List.mem_filter.mp hm).2, fun r hr hk => ?_⟩
    have hr : r ∈ before ++ m :: after := hsplit ▸ List.mem_filter.mpr ⟨hr, decide_eq_true hk⟩
    rcases List.mem_append.mp hr with hr | hr
    · exact hbefore r hr
    · rcases List.mem_cons.mp hr with rfl | hr
      · exact le_rfl
      · exact (hafter r hr).le
  · rintro ⟨hm, hk, hlatest⟩
    have hfilter : m ∈ rows.filter fun r => C.key r = k := List.mem_filter.mpr ⟨hm, decide_eq_true hk⟩
    obtain ⟨before, after, hsplit⟩ := List.append_of_mem hfilter
    have hmem : ∀ r ∈ before ++ m :: after, C.key r = k ∧ C.time r ≤ C.time m := fun r hr => by
      obtain ⟨hr, hkr⟩ := List.mem_filter.mp (hsplit ▸ hr)
      exact ⟨of_decide_eq_true hkr, hlatest r hr (of_decide_eq_true hkr)⟩
    have hin : ∀ c ∈ after, c ∈ before ++ m :: after := fun c hc =>
      List.mem_append_right _ (List.mem_cons_of_mem _ hc)
    refine ⟨before, after, hsplit, fun b hb => (hmem b (List.mem_append_left _ hb)).2, fun c hc => ?_⟩
    refine lt_of_le_of_ne (hmem c (hin c hc)).2 fun heq => ?_
    -- a row of the series with its time would have its slot
    have hnd : (C.slots (before ++ m :: after)).Nodup := by
      rw [← hsplit]
      exact h.sublist (List.filter_sublist.map _)
    have hc' : (C.key m, C.time m) ∈ C.slots after := by
      rw [hk, ← (hmem c (hin c hc)).1, ← heq]
      exact List.mem_map_of_mem hc
    rw [slots, List.map_append] at hnd
    exact (List.nodup_cons.mp hnd.of_append_right).1 hc'

theorem last_eq_none_iff : C.last k rows = none ↔ ∀ r ∈ rows, C.key r ≠ k := by
  rw [last, List.getLast?_eq_none_iff, ← List.length_eq_zero_iff, inOrder, List.length_insertionSort,
    List.length_eq_zero_iff, List.filter_eq_nil_iff]
  simp

/-- A row of another series is not seen. -/
theorem last_insertNew_of_ne (hk : C.key r ≠ k) : C.last k (C.insertNew rows r) = C.last k rows := by
  unfold insertNew
  split
  next => rfl
  next =>
    rw [last, inOrder, List.filter_append, List.filter_singleton, decide_eq_false hk, cond_false,
      List.append_nil, last, inOrder]

theorem values_insertNew_of_ne (hk : C.key r ≠ k) : C.values k (C.insertNew rows r) = C.values k rows := by
  unfold insertNew
  split
  next => rfl
  next =>
    ext x
    simp [values, or_and_right, exists_or, hk]

/-- **A row that is written** is the last of its series unless it lies behind the last. -/
theorem last_append (h : (C.slots rows).Nodup) (hfree : (C.key r, C.time r) ∉ C.slots rows) :
    C.last (C.key r) (rows ++ [r]) =
      some (((C.last (C.key r) rows).filter fun m => C.time r < C.time m).getD r) := by
  have hnd : (C.slots (rows ++ [r])).Nodup := by
    have h' := nodup_slots_insertNew h r
    rwa [insertNew, if_neg hfree] at h'
  have hself : r ∈ rows ++ [r] := List.mem_append_right _ (List.mem_singleton_self r)
  -- what is latest of the rows and not before the new one is latest of all
  have hall : ∀ m, (∀ r' ∈ rows, C.key r' = C.key r → C.time r' ≤ C.time m) → C.time r ≤ C.time m →
      ∀ r' ∈ rows ++ [r], C.key r' = C.key r → C.time r' ≤ C.time m := by
    intro m hrows hr r' hr' hk
    rcases List.mem_append.mp hr' with hr' | hr'
    · exact hrows r' hr' hk
    · rwa [List.mem_singleton.mp hr']
  rw [last_eq_some_iff hnd]
  cases hlast : C.last (C.key r) rows with
  | none =>
    exact ⟨hself, rfl, hall r (fun r' hr' hk => absurd hk (last_eq_none_iff.mp hlast r' hr')) le_rfl⟩
  | some m =>
    obtain ⟨hm, hkey, hlatest⟩ := (last_eq_some_iff h).mp hlast
    by_cases hlt : C.time r < C.time m
    · rw [Option.filter_some, if_pos (decide_eq_true hlt), Option.getD_some]
      exact ⟨List.mem_append_left _ hm, hkey, hall m hlatest hlt.le⟩
    · rw [Option.filter_some, if_neg (by simpa using hlt), Option.getD_none]
      exact ⟨hself, rfl, hall r (fun r' hr' hk => (hlatest r' hr' hk).trans (not_lt.mp hlt)) le_rfl⟩

/-! ### Rows that carry the extremes -/

variable [LinearOrder α]

/-- The last row of a series holds the extremes of `S` and the values of the series. -/
def HoldsExtremes (C : Columns ρ κ τ α) (S : Set α) (k : κ) (rows : List ρ) : Prop :=
  ∀ m ∈ C.last k rows, Extremes (S ∪ C.values k rows) (C.low m) (C.high m)

/-- The low and the high of a row are those of the last row, or `lo` and `hi` if there is
none, extended by its value. -/
structure Carries (C : Columns ρ κ τ α) (lo hi : α) (rows : List ρ) (r : ρ) : Prop where
  /-- The low. -/
  low_eq : C.low r = min (((C.last (C.key r) rows).map C.low).getD lo) (C.value r)
  /-- The high. -/
  high_eq : C.high r = max (((C.last (C.key r) rows).map C.high).getD hi) (C.value r)

variable {S : Set α} {lo hi : α}

/-- The extremes a new row starts from are those of what is there. -/
theorem HoldsExtremes.carried (h : C.HoldsExtremes S k rows) (hseed : Extremes S lo hi) :
    Extremes (S ∪ C.values k rows) (((C.last k rows).map C.low).getD lo) (((C.last k rows).map C.high).getD hi) := by
  cases hlast : C.last k rows with
  | none =>
    have hempty : C.values k rows = ∅ := by
      refine Set.eq_empty_iff_forall_notMem.mpr ?_
      rintro x ⟨r, hr, hk, -⟩
      exact last_eq_none_iff.mp hlast r hr hk
    rw [hempty, Set.union_empty]
    exact hseed
  | some m => exact h m hlast

theorem holdsExtremes_insertNew_of_ne (hk : C.key r ≠ k) :
    C.HoldsExtremes S k (C.insertNew rows r) ↔ C.HoldsExtremes S k rows := by
  rw [HoldsExtremes, last_insertNew_of_ne hk, values_insertNew_of_ne hk, HoldsExtremes]

/-- **A row keeps the extremes** of its series with the last row exactly when it is ignored,
is not behind the last row, or has a value between the extremes of the last row. -/
theorem holdsExtremes_insertNew_iff (h : (C.slots rows).Nodup) (hold : C.HoldsExtremes S (C.key r) rows)
    (hseed : Extremes S lo hi) (hr : C.Carries lo hi rows r) :
    C.HoldsExtremes S (C.key r) (C.insertNew rows r) ↔
      ((C.key r, C.time r) ∉ C.slots rows → ∀ m ∈ C.last (C.key r) rows, C.time r < C.time m →
        C.low m ≤ C.value r ∧ C.value r ≤ C.high m) := by
  unfold insertNew
  split
  next htaken => exact iff_of_true hold fun hfree => absurd htaken hfree
  next hfree =>
    rw [HoldsExtremes, last_append h hfree, values_append, Set.union_insert]
    simp only [Option.mem_some_iff, forall_eq', hfree, not_false_eq_true, true_implies]
    have hnew : Extremes (insert (C.value r) (S ∪ C.values (C.key r) rows)) (C.low r) (C.high r) := by
      rw [hr.low_eq, hr.high_eq]
      exact (hold.carried hseed).insert _
    cases hlast : C.last (C.key r) rows with
    | none => exact iff_of_true hnew fun m hm => absurd hm (by simp)
    | some m =>
      by_cases hlt : C.time r < C.time m
      · rw [Option.filter_some, if_pos (decide_eq_true hlt), Option.getD_some, (hold m hlast).insert_iff]
        simp [hlt]
      · rw [Option.filter_some, if_neg (by simpa using hlt), Option.getD_none]
        refine iff_of_true hnew fun m' hm' hlt' => ?_
        rw [Option.mem_some_iff.mp hm'] at hlt
        exact absurd hlt' hlt

/-- The same for all series of the table, each with a set of its own. -/
theorem forall_holdsExtremes_insertNew_iff {S : κ → Set α} (h : (C.slots rows).Nodup)
    (hold : ∀ k, C.HoldsExtremes (S k) k rows) (hseed : Extremes (S (C.key r)) lo hi)
    (hr : C.Carries lo hi rows r) :
    (∀ k, C.HoldsExtremes (S k) k (C.insertNew rows r)) ↔
      ((C.key r, C.time r) ∉ C.slots rows → ∀ m ∈ C.last (C.key r) rows, C.time r < C.time m →
        C.low m ≤ C.value r ∧ C.value r ≤ C.high m) := by
  rw [← holdsExtremes_insertNew_iff h (hold _) hseed hr]
  refine ⟨fun hall => hall _, fun hkey k => ?_⟩
  by_cases hk : C.key r = k
  · rwa [← hk]
  · exact (holdsExtremes_insertNew_of_ne hk).mpr (hold k)

end Columns

end NiftyShield.Lib.Series
