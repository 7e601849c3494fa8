import Mathlib.Data.Nat.Find
import Mathlib.Algebra.BigOperators.Group.List.Basic
import Mathlib.Algebra.Ring.Int.Defs

/-!
# The part of a history since it was last flat

For a history of items with signed quantities, `sinceFlat` drops the longest proper
prefix whose quantities add up to zero. A program that keeps running totals and clears
them whenever the quantity is zero before an item computes its totals over exactly this
part: appending an item starts afresh if the history was flat and extends the part
otherwise (`sinceFlat_concat`).
-/

namespace NiftyShield.Lib

variable {α : Type*} (q : α → ℤ)

/-- The net quantity of a history. -/
def netOf (l : List α) : ℤ := (l.map q).sum

/-- The length of the longest proper prefix that is flat. -/
def lastFlat (l : List α) : ℕ := Nat.findGreatest (fun i => netOf q (l.take i) = 0) (l.length - 1)

/-- The history since it was last flat before its last item. -/
def sinceFlat (l : List α) : List α := l.drop (lastFlat q l)

@[simp] theorem netOf_nil : netOf q [] = 0 := rfl

@[simp] theorem netOf_append (l m : List α) : netOf q (l ++ m) = netOf q l + netOf q m := by simp [netOf]

@[simp] theorem netOf_singleton (a : α) : netOf q [a] = q a := by simp [netOf]

@[simp] theorem sinceFlat_nil : sinceFlat q [] = [] := rfl

theorem netOf_take_lastFlat (l : List α) : netOf q (l.take (lastFlat q l)) = 0 :=
  Nat.findGreatest_spec (P := fun i => netOf q (l.take i) = 0) (Nat.zero_le _) (by simp)

/-- The part since the last flat point has the net quantity of the whole history. -/
theorem netOf_sinceFlat (l : List α) : netOf q (sinceFlat q l) = netOf q l := by
  conv_rhs => rw [← List.take_append_drop (lastFlat q l) l, netOf_append, netOf_take_lastFlat, zero_add]
  rfl

private theorem findGreatest_congr {P Q : ℕ → Prop} [DecidablePred P] [DecidablePred Q] :
    ∀ {n : ℕ}, (∀ i ≤ n, P i ↔ Q i) → Nat.findGreatest P n = Nat.findGreatest Q n
  | 0, _ => rfl
  | n + 1, h => by
    rw [Nat.findGreatest_succ, Nat.findGreatest_succ, findGreatest_congr fun i hi => h i (by omega)]
    simp only [h (n + 1) le_rfl]

private theorem lastFlat_concat (l : List α) (a : α) :
    lastFlat q (l ++ [a]) = if netOf q l = 0 then l.length else lastFlat q l := by
  have htake : ∀ i ≤ l.length, (l ++ [a]).take i = l.take i := fun i hi => by
    rw [List.take_append_of_le_length hi]
  have hlen : (l ++ [a]).length - 1 = l.length := by simp
  unfold lastFlat
  rw [hlen]
  cases hn : l.length with
  | zero =>
    have : l = [] := List.length_eq_zero_iff.mp hn
    subst this
    simp
  | succ n =>
    have htop : netOf q ((l ++ [a]).take (n + 1)) = netOf q l := by
      rw [htake _ (by omega), ← hn, List.take_length]
    rw [Nat.findGreatest_succ, htop]
    by_cases h : netOf q l = 0
    · rw [if_pos h, if_pos h]
    · rw [if_neg h, if_neg h, Nat.add_sub_cancel]
      exact findGreatest_congr fun i hi => by rw [htake i (by omega)]

/-- **One more item**: a flat history starts afresh, any other one is extended. -/
theorem sinceFlat_concat (l : List α) (a : α) :
    sinceFlat q (l ++ [a]) = if netOf q l = 0 then [a] else sinceFlat q l ++ [a] := by
  unfold sinceFlat
  rw [lastFlat_concat]
  split
  next => simp
  next =>
    refine List.drop_append_of_le_length ?_
    exact (Nat.findGreatest_le _).trans (Nat.sub_le _ _)

/-- A history with no flat proper prefix but the empty one is all of it since flat. -/
theorem sinceFlat_eq_self {l : List α} (h : ∀ i, 0 < i → i < l.length → netOf q (l.take i) ≠ 0) :
    sinceFlat q l = l := by
  have hz : lastFlat q l = 0 := by
    refine Nat.findGreatest_eq_zero_iff.mpr fun {i} hi _ => h i hi ?_
    omega
  rw [sinceFlat, hz, List.drop_zero]

/-- A history that is not flat is never flat again after the part it is since flat has begun. -/
theorem netOf_take_sinceFlat_ne {l : List α} (h : netOf q l ≠ 0) {i : ℕ} (hpos : 0 < i) :
    netOf q ((sinceFlat q l).take i) ≠ 0 := by
  intro hzero
  have htake : netOf q (l.take (lastFlat q l + i)) = 0 := by
    rw [List.take_add, netOf_append, netOf_take_lastFlat, zero_add]
    exact hzero
  rcases Nat.lt_or_ge (lastFlat q l + i) l.length with hlt | hge
  · have hmax : lastFlat q l + i ≤ lastFlat q l := Nat.le_findGreatest (by omega) htake
    omega
  · rw [List.take_of_length_le hge] at htake
    exact h htake

end NiftyShield.Lib
