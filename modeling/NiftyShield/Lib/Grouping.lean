import Mathlib.Algebra.BigOperators.Group.List.Basic
import Mathlib.Data.List.Nodup

/-!
# Grouping a list by a key

A program that reports per group usually walks a list once, files every item under its
key, and then adds up one figure per group. This module has the facts such a program
rests on, for any items, any keys and any commutative monoid of figures:

* the keys in order of first appearance (`List.eraseDups`) have no duplicates;
* a figure that is a sum over items is unchanged when it is taken group by group
  (`sum_groups`), whatever nodup list of keys covers the items.

-/

namespace NiftyShield.Lib.Grouping

variable {α κ M : Type*} [DecidableEq κ]

/-- The items of `l` filed under the key `k`, in their order. -/
def group (key : α → κ) (l : List α) (k : κ) : List α := l.filter fun a => key a = k

/-- The keys of `l` in order of first appearance. -/
def keys (key : α → κ) (l : List α) : List κ := (l.map key).eraseDups

@[simp] theorem group_nil (key : α → κ) (k : κ) : group key [] k = [] := rfl

theorem group_cons (key : α → κ) (a : α) (l : List α) (k : κ) :
    group key (a :: l) k = if key a = k then a :: group key l k else group key l k := by
  by_cases h : key a = k <;> simp [group, h]

theorem group_append (key : α → κ) (l m : List α) (k : κ) :
    group key (l ++ m) k = group key l k ++ group key m k := by
  simp [group]

theorem mem_group {key : α → κ} {l : List α} {k : κ} {a : α} : a ∈ group key l k ↔ a ∈ l ∧ key a = k := by
  simp [group]

theorem mem_keys {key : α → κ} {l : List α} {k : κ} : k ∈ keys key l ↔ ∃ a ∈ l, key a = k := by
  simp [keys, List.mem_eraseDups]

theorem mem_keys_of_mem {key : α → κ} {l : List α} {a : α} (h : a ∈ l) : key a ∈ keys key l :=
  mem_keys.mpr ⟨a, h, rfl⟩

/-- A key outside the list has an empty group. -/
theorem group_eq_nil_of_not_mem {key : α → κ} {l : List α} {k : κ} (h : k ∉ keys key l) :
    group key l k = [] := by
  rw [List.eq_nil_iff_forall_not_mem]
  intro a ha
  obtain ⟨hl, rfl⟩ := mem_group.mp ha
  exact h (mem_keys_of_mem hl)

/-- The list of first appearances has no duplicates. -/
theorem nodup_eraseDups : ∀ l : List κ, l.eraseDups.Nodup
  | [] => by simp
  | a :: l => by
    rw [List.eraseDups_cons, List.nodup_cons]
    refine ⟨fun h => ?_, nodup_eraseDups _⟩
    simpa using (List.mem_filter.mp (List.mem_eraseDups.mp h)).2
  termination_by l => l.length
  decreasing_by
    simp only [List.length_cons]
    exact Nat.lt_succ_of_le (List.length_filter_le ..)

theorem nodup_keys (key : α → κ) (l : List α) : (keys key l).Nodup := nodup_eraseDups _

/-- First appearances after filtering are the filtered first appearances. -/
theorem filter_eraseDups (p : κ → Bool) : ∀ l : List κ, l.eraseDups.filter p = (l.filter p).eraseDups
  | [] => by simp
  | a :: l => by
    have ih := filter_eraseDups p (l.filter fun b => !b == a)
    rw [List.eraseDups_cons, List.filter_cons, ih, List.filter_cons, List.filter_comm]
    cases hp : p a with
    | true => rw [if_pos rfl, if_pos rfl, List.eraseDups_cons]
    | false =>
      rw [if_neg Bool.false_ne_true, if_neg Bool.false_ne_true]
      congr 1
      refine List.filter_eq_self.mpr fun b hb => ?_
      have hpb := (List.mem_filter.mp hb).2
      have hne : b ≠ a := by
        rintro rfl
        rw [hp] at hpb
        exact Bool.false_ne_true hpb
      simpa using hne
  termination_by l => l.length
  decreasing_by
    simp only [List.length_cons]
    exact Nat.lt_succ_of_le (List.length_filter_le ..)

/-- The keys of the items whose key passes. -/
theorem filter_keys (key : α → κ) (p : κ → Bool) (l : List α) :
    (keys key l).filter p = keys key (l.filter fun a => p (key a)) := by
  rw [keys, filter_eraseDups, List.filter_map]
  rfl

theorem keys_cons (key : α → κ) (a : α) (l : List α) :
    keys key (a :: l) = key a :: (keys key l).filter fun k => k ≠ key a := by
  rw [keys, List.map_cons, List.eraseDups_cons, keys, filter_eraseDups]
  congr 2
  refine List.filter_congr fun k _ => ?_
  rw [Bool.eq_iff_iff]
  simp

/-- Distinct keys all appear first. -/
theorem keys_eq_map_of_nodup (key : α → κ) : ∀ {l : List α}, (l.map key).Nodup → keys key l = l.map key
  | [], _ => rfl
  | a :: l, h => by
    obtain ⟨hnew, hl⟩ := List.nodup_cons.mp h
    rw [keys_cons, keys_eq_map_of_nodup key hl, List.map_cons, List.filter_eq_self.mpr]
    intro k hk
    refine decide_eq_true ?_
    rintro rfl
    exact hnew hk

/-- A group whose key passes is not changed by the filter. -/
theorem group_filter {key : α → κ} {p : κ → Bool} {k : κ} (hk : p k = true) (l : List α) :
    group key (l.filter fun a => p (key a)) k = group key l k := by
  rw [group, group, List.filter_filter]
  refine List.filter_congr fun a _ => ?_
  by_cases h : key a = k
  · simp [h, hk]
  · simp [h]

variable [AddCommMonoid M]

/-- A group's figure as a sum over all items. -/
theorem sum_group_eq (key : α → κ) (f : α → M) (l : List α) (k : κ) :
    ((group key l k).map f).sum = (l.map fun a => if key a = k then f a else 0).sum := by
  induction l with
  | nil => rfl
  | cons a l ih =>
    rw [group_cons, List.map_cons, List.sum_cons, ← ih]
    split
    · rw [List.map_cons, List.sum_cons]
    · rw [zero_add]

private theorem sum_ite_of_nodup {ks : List κ} (hks : ks.Nodup) {k : κ} (hk : k ∈ ks) (m : M) :
    (ks.map fun i => if k = i then m else 0).sum = m := by
  induction ks with
  | nil => simp at hk
  | cons i is ih =>
    obtain ⟨hi, his⟩ := List.nodup_cons.mp hks
    rw [List.map_cons, List.sum_cons]
    by_cases h : k = i
    · have hz : (is.map fun j => if k = j then m else 0).sum = 0 := by
        refine List.sum_eq_zero fun x hx => ?_
        obtain ⟨j, hj, rfl⟩ := List.mem_map.mp hx
        rw [if_neg]
        rintro rfl
        exact hi (h ▸ hj)
      rw [if_pos h, hz, add_zero]
    · rw [if_neg h, zero_add, ih his ((List.mem_cons.mp hk).resolve_left h)]

/-- **Group by group**: the sum of a figure over all items is the sum over the groups of
the sums within each group, for any duplicate-free list of keys that covers the items. -/
theorem sum_groups (key : α → κ) (f : α → M) {ks : List κ} (hks : ks.Nodup) :
    ∀ {l : List α}, (∀ a ∈ l, key a ∈ ks) → (ks.map fun k => ((group key l k).map f).sum).sum =
      (l.map f).sum
  | [], _ => by simp
  | a :: l, h => by
    have hsplit : (fun k => ((group key (a :: l) k).map f).sum) =
        fun k => (if key a = k then f a else 0) + ((group key l k).map f).sum := by
      funext k
      rw [group_cons]
      split <;> simp
    rw [hsplit, List.sum_map_add, sum_ite_of_nodup hks (h a (by simp)),
      sum_groups key f hks fun b hb => h b (List.mem_cons_of_mem a hb), List.map_cons, List.sum_cons]

/-- `sum_groups` for the keys of the list itself. -/
theorem sum_keys (key : α → κ) (f : α → M) (l : List α) :
    ((keys key l).map fun k => ((group key l k).map f).sum).sum = (l.map f).sum :=
  sum_groups key f (nodup_keys key l) fun _ => mem_keys_of_mem

/-- A sum over the answers is a sum over what was asked, in which a missing answer counts for nothing. -/
theorem sum_filterMap {β : Type*} (f : α → Option β) (g : β → M) :
    ∀ l : List α, ((l.filterMap f).map g).sum = (l.map fun a => (f a).elim 0 g).sum
  | [] => rfl
  | a :: l => by
    rw [List.filterMap_cons, List.map_cons, List.sum_cons, ← sum_filterMap f g l]
    cases f a with
    | none => rw [Option.elim_none, zero_add]
    | some b => rw [Option.elim_some, List.map_cons, List.sum_cons]

/-- A sum over the items that pass is a sum over all, in which the others count for nothing. -/
theorem sum_filter (p : α → Prop) [DecidablePred p] (g : α → M) :
    ∀ l : List α, ((l.filter fun a => p a).map g).sum = (l.map fun a => if p a then g a else 0).sum
  | [] => rfl
  | a :: l => by
    rw [List.map_cons, List.sum_cons, ← sum_filter p g l, List.filter_cons]
    by_cases h : p a <;> simp [h]

end NiftyShield.Lib.Grouping
