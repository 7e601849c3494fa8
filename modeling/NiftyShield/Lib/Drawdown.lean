import Mathlib.Algebra.Order.Group.Unbundled.Basic
import Mathlib.Algebra.Order.Monoid.Defs
import Mathlib.Order.Bounds.Basic

/-!
# The deepest fall of a series

A program that goes over a series once, with the highest value so far and the deepest fall
below it so far (`next`), has at the end the least difference of a value and one at or before it
(`isLeast_deepest`). The figure is never positive, does not depend on where the zero of the
series is, and does not rise when values are added before or after.
-/

namespace NiftyShield.Lib.Drawdown

variable {K : Type*} [AddCommGroup K]

/-- The differences of a value of the series and one at or before it. -/
def falls (l : List K) : Set K :=
  {d | ∃ (i j : ℕ) (a b : K), i ≤ j ∧ l[i]? = some a ∧ l[j]? = some b ∧ d = b - a}

theorem falls_mono_append (before l after : List K) : falls l ⊆ falls (before ++ l ++ after) := by
  rintro d ⟨i, j, a, b, hij, ha, hb, rfl⟩
  have hi := (List.getElem?_eq_some_iff.mp ha).1
  have hj := (List.getElem?_eq_some_iff.mp hb).1
  have hget : ∀ k < l.length, (before ++ l ++ after)[before.length + k]? = l[k]? := fun k hk => by
    rw [List.append_assoc, List.getElem?_append_right (Nat.le_add_right _ _), Nat.add_sub_cancel_left,
      List.getElem?_append_left hk]
  exact ⟨before.length + i, before.length + j, a, b, Nat.add_le_add_left hij _, (hget i hi).trans ha,
    (hget j hj).trans hb, rfl⟩

/-- The new differences are those of the new value. -/
theorem mem_falls_concat {l : List K} {v d : K} :
    d ∈ falls (l ++ [v]) ↔ d ∈ falls l ∨ ∃ a ∈ l ++ [v], d = v - a := by
  constructor
  · rintro ⟨i, j, a, b, hij, ha, hb, rfl⟩
    rcases Nat.lt_or_ge j l.length with hj | hj
    · rw [List.getElem?_append_left (hij.trans_lt hj)] at ha
      rw [List.getElem?_append_left hj] at hb
      exact .inl ⟨i, j, a, b, hij, ha, hb, rfl⟩
    · rw [List.getElem?_append_right hj] at hb
      obtain rfl : v = b := by
        have hmem := List.mem_of_getElem? hb
        exact (List.mem_singleton.mp hmem).symm
      exact .inr ⟨a, List.mem_of_getElem? ha, rfl⟩
  · rintro (hd | ⟨a, ha, rfl⟩)
    · simpa using falls_mono_append [] l [v] hd
    · obtain ⟨i, hi⟩ := List.mem_iff_getElem?.mp ha
      have hlt := (List.getElem?_eq_some_iff.mp hi).1
      rw [List.length_append, List.length_singleton] at hlt
      exact ⟨i, l.length, a, v, Nat.lt_succ_iff.mp hlt, hi, List.getElem?_concat_length, rfl⟩

theorem falls_singleton (a : K) : falls [a] = {0} := by
  ext d
  rw [← List.nil_append [a], mem_falls_concat, Set.mem_singleton_iff]
  simp [falls]

variable [LinearOrder K]

/-- The next value: the peak and the deepest fall with it. -/
def next (s : K × K) (v : K) : K × K := (max s.1 v, min s.2 (v - max s.1 v))

/-- The deepest fall, zero for an empty series. -/
def deepest (l : List K) : K := (l.foldl next (l.headD 0, 0)).2

/-- What the pass knows of the values seen. -/
structure Seen (l : List K) (s : K × K) : Prop where
  peak : IsGreatest {a | a ∈ l} s.1
  fall : IsLeast (falls l) s.2

theorem seen_singleton (a : K) : Seen [a] (a, 0) where
  peak := ⟨List.mem_singleton_self a, fun _ hb => (List.mem_singleton.mp hb).le⟩
  fall := by
    rw [falls_singleton]
    exact isLeast_singleton

variable [IsOrderedAddMonoid K]

/-- One value keeps what the pass knows. -/
theorem Seen.next {l : List K} {s : K × K} (h : Seen l s) (v : K) : Seen (l ++ [v]) (next s v) := by
  have hpeak : IsGreatest {a | a ∈ l ++ [v]} (max s.1 v) := by
    refine ⟨?_, fun a ha => ?_⟩
    · rcases max_choice s.1 v with hmax | hmax
      · rw [hmax]
        exact List.mem_append_left _ h.peak.1
      · rw [hmax]
        exact List.mem_append_right _ (List.mem_singleton_self v)
    · rcases List.mem_append.mp ha with ha | ha
      · exact le_max_of_le_left (h.peak.2 ha)
      · exact le_max_of_le_right (List.mem_singleton.mp ha).le
  refine ⟨hpeak, ?_, fun d hd => ?_⟩
  · rcases min_choice s.2 (v - max s.1 v) with hmin | hmin
    · refine mem_falls_concat.mpr (.inl ?_)
      rw [Drawdown.next, hmin]
      exact h.fall.1
    · exact mem_falls_concat.mpr (.inr ⟨max s.1 v, hpeak.1, hmin⟩)
  · rcases mem_falls_concat.mp hd with hd | ⟨a, ha, rfl⟩
    · exact min_le_of_left_le (h.fall.2 hd)
    · exact min_le_of_right_le (sub_le_sub_left (hpeak.2 ha) v)

/-- And so do all of them. -/
theorem Seen.foldl {l : List K} {s : K × K} (h : Seen l s) (l' : List K) :
    Seen (l ++ l') (l'.foldl Drawdown.next s) := by
  induction l' generalizing l s with
  | nil => rwa [List.append_nil]
  | cons v l' ih => simpa using ih (h.next v)

/-- **The pass finds the least difference.** -/
theorem isLeast_deepest {l : List K} (hl : l ≠ []) : IsLeast (falls l) (deepest l) := by
  cases l with
  | nil => exact absurd rfl hl
  | cons a l =>
    have hfirst : (a :: l).foldl next ((a :: l).headD 0, 0) = l.foldl next (a, 0) := by simp [next]
    rw [deepest, hfirst]
    exact ((seen_singleton a).foldl l).fall

/-- A value falls by nothing below itself. -/
theorem deepest_nonpos (l : List K) : deepest l ≤ 0 := by
  cases l with
  | nil => exact le_rfl
  | cons a l => exact (isLeast_deepest (List.cons_ne_nil a l)).2 ⟨0, 0, a, a, le_rfl, rfl, rfl, (sub_self a).symm⟩

/-- The figure does not depend on where the zero is. -/
theorem deepest_map_add (l : List K) (c : K) : deepest (l.map (· + c)) = deepest l := by
  by_cases hl : l = []
  · rw [hl, List.map_nil]
  have hfalls : falls (l.map (· + c)) = falls l := by
    ext d
    simp only [falls, List.getElem?_map, Option.map_eq_some_iff, Set.mem_ofPred_eq]
    constructor
    · rintro ⟨i, j, -, -, hij, ⟨a, ha, rfl⟩, ⟨b, hb, rfl⟩, rfl⟩
      exact ⟨i, j, a, b, hij, ha, hb, add_sub_add_right_eq_sub b a c⟩
    · rintro ⟨i, j, a, b, hij, ha, hb, rfl⟩
      exact ⟨i, j, a + c, b + c, hij, ⟨a, ha, rfl⟩, ⟨b, hb, rfl⟩, (add_sub_add_right_eq_sub b a c).symm⟩
  have hmap : l.map (· + c) ≠ [] := List.map_eq_nil_iff.not.mpr hl
  exact (hfalls ▸ isLeast_deepest hmap).unique (isLeast_deepest hl)

/-- More values, before or after, leave room for deeper falls only. -/
theorem deepest_append_le (before l after : List K) : deepest (before ++ l ++ after) ≤ deepest l := by
  by_cases hl : l = []
  · rw [hl]
    exact deepest_nonpos _
  have hmore : before ++ l ++ after ≠ [] := by simp [hl]
  exact (isLeast_deepest hmore).2 (falls_mono_append before l after (isLeast_deepest hl).1)

end NiftyShield.Lib.Drawdown
