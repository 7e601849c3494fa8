import Mathlib.Data.List.Nodup
import Mathlib.Data.List.Perm.Basic

/-!
# Tables where the first row of a key stands

A list of rows read as a table: the row of a key is the first one, and later rows of the key are
without effect. `dedup` drops these. It changes no lookup (`row?_dedup`), and where the keys are
distinct the order of the rows does not matter either (`row?_perm`). A table that rows are added to
and that is deduplicated again gets just the rows of new keys, at its end (`dedup_append`).
-/

namespace NiftyShield.Lib.FirstWins

variable {β κ : Type*} [DecidableEq κ] (key : β → κ)

/-- The row of a key. -/
def row? (l : List β) (k : κ) : Option β := l.find? fun b => key b = k

/-- The first row of each key. -/
def dedup : List β → List β
  | [] => []
  | b :: l => b :: (dedup l).filter fun c => key c ≠ key b

variable {key} {l m : List β} {k : κ} {b : β}

theorem row?_append (l m : List β) (k : κ) : row? key (l ++ m) k = (row? key l k).or (row? key m k) :=
  List.find?_append

theorem isSome_row?_iff : (row? key l k).isSome = true ↔ k ∈ l.map key := by
  rw [row?, List.find?_isSome, List.mem_map]
  simp only [decide_eq_true_iff]

theorem row?_eq_none_iff : row? key l k = none ↔ k ∉ l.map key := by
  rw [← isSome_row?_iff, Bool.not_eq_true, Option.isSome_eq_false_iff, Option.isNone_iff_eq_none]

/-- Where the keys are distinct, any row of the key is the one. -/
theorem row?_eq_some_iff (h : (l.map key).Nodup) : row? key l k = some b ↔ b ∈ l ∧ key b = k := by
  constructor
  · exact fun hb => ⟨List.mem_of_find?_eq_some hb, by simpa using List.find?_some hb⟩
  · rintro ⟨hb, rfl⟩
    obtain ⟨c, hc⟩ := Option.isSome_iff_exists.mp (isSome_row?_iff.mpr (List.mem_map_of_mem (f := key) hb))
    have hkey : key c = key b := by simpa using List.find?_some hc
    rw [hc, List.inj_on_of_nodup_map h (List.mem_of_find?_eq_some hc) hb hkey]

theorem row?_perm (h : (l.map key).Nodup) (hp : l.Perm m) (k : κ) : row? key l k = row? key m k := by
  ext b
  rw [row?_eq_some_iff h, row?_eq_some_iff ((hp.map key).nodup_iff.mp h), hp.mem_iff]

theorem row?_filter_of_pos {p : β → Bool} (h : ∀ b, key b = k → p b = true) (l : List β) :
    row? key (l.filter p) k = row? key l k := by
  rw [row?, List.find?_filter]
  refine congrArg (l.find? ·) (funext fun b => ?_)
  by_cases hb : key b = k
  · simp [hb, h b hb]
  · simp [hb]

/-- **Dropping the later rows of a key** changes no lookup. -/
theorem row?_dedup (l : List β) (k : κ) : row? key (dedup key l) k = row? key l k := by
  induction l with
  | nil => rfl
  | cons b l ih =>
    by_cases hb : key b = k
    · simp [dedup, row?, hb]
    · have hrest : row? key ((dedup key l).filter fun c => key c ≠ key b) k = row? key (dedup key l) k :=
        row?_filter_of_pos (fun c hc => by simpa using fun hcb => hb (hcb.symm.trans hc)) _
      rw [row?] at hrest ih
      simp only [dedup, row?, List.find?_cons, hb, decide_false, hrest, ih]

theorem mem_keys_dedup : k ∈ (dedup key l).map key ↔ k ∈ l.map key := by
  rw [← isSome_row?_iff, row?_dedup, isSome_row?_iff]

theorem mem_of_mem_dedup (h : b ∈ dedup key l) : b ∈ l := by
  induction l with
  | nil => exact h
  | cons a l ih =>
    rcases List.mem_cons.mp h with rfl | h
    · exact List.mem_cons_self
    · exact List.mem_cons_of_mem a (ih (List.mem_filter.mp h).1)

variable (key) in
theorem nodup_dedup (l : List β) : ((dedup key l).map key).Nodup := by
  induction l with
  | nil => exact List.nodup_nil
  | cons b l ih =>
    refine List.nodup_cons.mpr ⟨fun hb => ?_, ih.sublist (List.filter_sublist.map key)⟩
    obtain ⟨c, hc, hcb⟩ := List.mem_map.mp hb
    exact of_decide_eq_true (List.mem_filter.mp hc).2 hcb

theorem dedup_of_nodup (h : (l.map key).Nodup) : dedup key l = l := by
  induction l with
  | nil => rfl
  | cons b l ih =>
    obtain ⟨hb, hl⟩ := List.nodup_cons.mp h
    have hother : ∀ c ∈ l, decide (key c ≠ key b) = true := fun c hc => by
      simpa using fun hcb => hb (List.mem_map.mpr ⟨c, hc, hcb⟩)
    rw [dedup, ih hl, List.filter_eq_self.mpr hother]

variable (key) in
/-- The rows of keys that are not in the table yet. -/
def news (l m : List β) : List β := (dedup key m).filter fun c => key c ∉ l.map key

variable (key) in
/-- **More rows** bring what they have of new keys. -/
theorem dedup_append (l m : List β) : dedup key (l ++ m) = dedup key l ++ news key l m := by
  induction l with
  | nil => simp [dedup, news]
  | cons b l ih =>
    have hnews : (news key l m).filter (fun c => key c ≠ key b) = news key (b :: l) m := by
      rw [news, news, List.filter_filter]
      exact List.filter_congr fun c _ => by simp
    rw [List.cons_append, dedup, ih, List.filter_append, hnews, dedup, List.cons_append]

theorem news_eq_nil_iff : news key l m = [] ↔ ∀ c ∈ m, key c ∈ l.map key := by
  rw [news, List.filter_eq_nil_iff]
  constructor
  · intro h c hc
    obtain ⟨e, he, hec⟩ := List.mem_map.mp (mem_keys_dedup.mpr (List.mem_map_of_mem (f := key) hc))
    by_contra hnot
    exact h e he (decide_eq_true (hec ▸ hnot))
  · exact fun h c hc hnot => of_decide_eq_true hnot (h c (mem_of_mem_dedup hc))

end NiftyShield.Lib.FirstWins
