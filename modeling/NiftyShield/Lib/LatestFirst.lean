import Mathlib.Data.List.MinMax
import Mathlib.Data.List.Sort

/-!
# Stamped items, latest first

A log is often read latest first and only so far back: `ORDER BY stamp DESC LIMIT n`. The items
before a bound (a class of items that holds every item with an earlier stamp than one of its
own) are then the last of the list.

## What is proved

* `insertionSort_append_latest`: an item that no other is to follow is put first;
* `LatestFirst.eq_append`: the list is the items from the bound on, then those before it;
* `LatestFirst.filter_take`, `filter_take_of_le`: a limit above the number of items from the
  bound on leaves all of these and some of the others, if there are any; no other limit leaves
  any of the others;
* `LatestFirst.argmax_eq_head?`: the latest item is the first of the list.
-/

namespace NiftyShield.Lib

variable {α β : Type*}

/-- An item that comes before every other is put first. -/
theorem insertionSort_append_latest {r : α → α → Prop} [DecidableRel r] {a : α} :
    ∀ {l : List α}, (∀ b ∈ l, ¬ r b a) → (l ++ [a]).insertionSort r = a :: l.insertionSort r
  | [], _ => rfl
  | b :: l, h => by
    have hl := insertionSort_append_latest fun c hc => h c (List.mem_cons_of_mem b hc)
    rw [List.cons_append, List.insertionSort_cons, hl, List.orderedInsert_cons,
      if_neg (h b List.mem_cons_self), List.insertionSort_cons]

variable [LinearOrder β] {stamp : α → β}

/-- No item is later than one before it. -/
def LatestFirst (stamp : α → β) (l : List α) : Prop := l.Pairwise fun a b => stamp b ≤ stamp a

/-- A class of items before a bound. -/
def IsBefore (stamp : α → β) (p : α → Bool) : Prop := ∀ a b, p a = true → stamp b ≤ stamp a → p b = true

namespace LatestFirst

variable {l : List α} {p : α → Bool}

theorem argmax_eq_head? (h : LatestFirst stamp l) : l.argmax stamp = l.head? := by
  cases l with
  | nil => rfl
  | cons a l =>
    rw [List.head?_cons, List.argmax_cons]
    cases hmax : l.argmax stamp with
    | none => rfl
    | some c =>
      have hle : stamp c ≤ stamp a := List.rel_of_pairwise_cons h (List.argmax_mem hmax)
      exact if_neg (not_lt.mpr hle)

theorem filter (h : LatestFirst stamp l) (p : α → Bool) : LatestFirst stamp (l.filter p) :=
  h.sublist List.filter_sublist

theorem take (h : LatestFirst stamp l) (n : ℕ) : LatestFirst stamp (l.take n) :=
  h.sublist (List.take_sublist n l)

/-- The items from the bound on come first. -/
theorem eq_append (h : LatestFirst stamp l) (hp : IsBefore stamp p) :
    l = l.filter (fun a => !p a) ++ l.filter p := by
  induction l with
  | nil => rfl
  | cons a l ih =>
    obtain ⟨ha, hl⟩ := List.pairwise_cons.mp h
    cases hpa : p a with
    | false =>
      rw [List.filter_cons_of_pos (by simp [hpa]), List.filter_cons_of_neg (by simp [hpa]), List.cons_append]
      exact congrArg (a :: ·) (ih hl)
    | true =>
      -- what follows an item before the bound is before it too
      have hall : ∀ b ∈ l, p b = true := fun b hb => hp a b hpa (ha b hb)
      rw [List.filter_cons_of_neg (by simp [hpa]), List.filter_cons_of_pos hpa, List.filter_eq_self.mpr hall,
        List.filter_eq_nil_iff.mpr (by simpa using hall), List.nil_append]

/-- A limit above the number of items from the bound on. -/
theorem filter_take (h : LatestFirst stamp l) (hp : IsBefore stamp p) {n : ℕ}
    (hn : (l.filter fun a => !p a).length < n) :
    (l.take n).filter p = (l.filter p).take (n - (l.filter fun a => !p a).length) ∧
      (l.take n).filter (fun a => !p a) = l.filter fun a => !p a := by
  have htake : l.take n = l.filter (fun a => !p a) ++ (l.filter p).take (n - (l.filter fun a => !p a).length) := by
    conv_lhs => rw [h.eq_append hp, List.take_append, List.take_of_length_le hn.le]
  generalize n - (l.filter fun a => !p a).length = k at htake ⊢
  have hbefore : ∀ a ∈ (l.filter p).take k, p a = true := fun a ha => (List.mem_filter.mp (List.mem_of_mem_take ha)).2
  have hnone : ((l.filter p).take k).filter (fun a => !p a) = [] :=
    List.filter_eq_nil_iff.mpr fun a ha => by simp [hbefore a ha]
  have hnone' : (l.filter fun a => !p a).filter p = [] :=
    List.filter_eq_nil_iff.mpr fun a ha => by simpa using (List.mem_filter.mp ha).2
  rw [htake, List.filter_append, List.filter_append, hnone, hnone', List.filter_eq_self.mpr hbefore, List.nil_append,
    List.append_nil, List.filter_filter]
  simp

/-- Any other limit. -/
theorem filter_take_of_le (h : LatestFirst stamp l) (hp : IsBefore stamp p) {n : ℕ}
    (hn : n ≤ (l.filter fun a => !p a).length) : (l.take n).filter p = [] := by
  rw [h.eq_append hp, List.take_append_of_le_length hn, List.filter_eq_nil_iff]
  intro a ha
  have := (List.mem_filter.mp (List.mem_of_mem_take ha)).2
  simpa using this

end LatestFirst

end NiftyShield.Lib
