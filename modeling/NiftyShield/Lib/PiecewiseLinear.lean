import Mathlib.Algebra.Order.Field.Basic
import Mathlib.Algebra.Order.BigOperators.Group.List
import Mathlib.Order.Interval.Set.Basic
import Mathlib.Order.Bounds.Basic
import Mathlib.Tactic.FieldSimp
import Mathlib.Tactic.Linarith
import Mathlib.Tactic.LinearCombination
import Mathlib.Tactic.Ring

/-!
# Piecewise linear functions

A function that is a straight line between neighbouring points of an increasing list and
has one slope past the last point (`PiecewiseLinear`). From the first point on, the values at the
points and the slope decide where it is bounded, its extrema (`isGreatest`, `isLeast`) and its
zeros (`root_between`, `root_of_zero`, `zero_past_last`).
-/

namespace NiftyShield.Lib

/-! ### Points in increasing order -/

section
variable {α : Type*} [LinearOrder α]

/-- From the first of increasing points on, a value is a point, strictly between two
neighbours, or past the last. -/
theorem between {l : List α} (hl : l.Pairwise (· < ·)) (hne : l ≠ []) {s : α} (hs : l.head hne ≤ s) :
    s ∈ l ∨ (∃ p ∈ l.zip l.tail, s ∈ Set.Ioo p.1 p.2) ∨ l.getLast hne < s := by
  induction l with
  | nil => exact absurd rfl hne
  | cons x l ih =>
    rcases hs.eq_or_lt with heq | hlt
    · exact Or.inl (heq ▸ List.mem_cons_self)
    cases l with
    | nil => exact Or.inr (Or.inr hlt)
    | cons y l =>
      have hyl := (List.pairwise_cons.mp hl).2
      by_cases hy : y ≤ s
      · rcases ih hyl (List.cons_ne_nil _ _) hy with hmem | ⟨p, hp, hin⟩ | hlast
        · exact Or.inl (List.mem_cons_of_mem _ hmem)
        · exact Or.inr (Or.inl ⟨p, List.mem_cons_of_mem _ hp, hin⟩)
        · exact Or.inr (Or.inr hlast)
      · exact Or.inr (Or.inl ⟨(x, y), List.mem_cons_self, hlt, not_le.mp hy⟩)

/-- Neighbours are in order. -/
theorem lt_of_neighbours {l : List α} (hl : l.Pairwise (· < ·)) {p : α × α} (hp : p ∈ l.zip l.tail) : p.1 < p.2 := by
  induction l with
  | nil => exact absurd hp (by simp)
  | cons x l ih =>
    cases l with
    | nil => exact absurd hp (by simp)
    | cons y l =>
      rcases List.mem_cons.mp hp with rfl | hp
      · exact List.rel_of_pairwise_cons hl List.mem_cons_self
      · exact ih (List.pairwise_cons.mp hl).2 hp

/-- No point is strictly between neighbours. -/
theorem outside_neighbours {l : List α} (hl : l.Pairwise (· < ·)) {x : α} (hx : x ∈ l) {p : α × α}
    (hp : p ∈ l.zip l.tail) : x ≤ p.1 ∨ p.2 ≤ x := by
  induction l with
  | nil => exact absurd hx List.not_mem_nil
  | cons y l ih =>
    have hlater := (List.pairwise_cons.mp hl).2
    cases l with
    | nil => exact absurd hp (by simp)
    | cons z l =>
      rcases List.mem_cons.mp hp with rfl | hnext
      · rcases List.mem_cons.mp hx with rfl | hx
        · exact Or.inl le_rfl
        · rcases List.mem_cons.mp hx with rfl | hx
          · exact Or.inr le_rfl
          · exact Or.inr (List.rel_of_pairwise_cons hlater hx).le
      · rcases List.mem_cons.mp hx with rfl | hx
        · have hmem : p.1 ∈ z :: l := (List.of_mem_zip hnext).1
          exact Or.inl (List.rel_of_pairwise_cons hl hmem).le
        · exact ih hlater hx hnext

theorem le_getLast_of_mem {l : List α} (hl : l.Pairwise (· < ·)) (hne : l ≠ []) {x : α} (hx : x ∈ l) :
    x ≤ l.getLast hne := by
  obtain ⟨init, last, rfl⟩ := (List.eq_nil_or_concat' l).resolve_left hne
  rw [List.getLast_append_singleton]
  rcases List.mem_append.mp hx with hx | hx
  · exact ((List.pairwise_append.mp hl).2.2 x hx last (List.mem_singleton_self last)).le
  · exact (List.mem_singleton.mp hx).le

theorem head_le_of_mem {l : List α} (hl : l.Pairwise (· < ·)) (hne : l ≠ []) {x : α} (hx : x ∈ l) :
    l.head hne ≤ x := by
  cases l with
  | nil => exact absurd rfl hne
  | cons y l =>
    rcases List.mem_cons.mp hx with rfl | hx
    · exact le_rfl
    · exact (List.rel_of_pairwise_cons hl hx).le

end

/-! ### Straight lines -/

variable {K : Type*} [Field K]

/-- `f` is a straight line on `S`. -/
def LineOn (f : K → K) (S : Set K) : Prop := ∃ m c, ∀ s ∈ S, f s = m * s + c

namespace LineOn

variable {f g : K → K} {S : Set K}

theorem const (c : K) : LineOn (fun _ => c) S := ⟨0, c, fun s _ => by ring⟩

theorem add (hf : LineOn f S) (hg : LineOn g S) : LineOn (fun s => f s + g s) S := by
  obtain ⟨m, c, hf⟩ := hf
  obtain ⟨n, d, hg⟩ := hg
  exact ⟨m + n, c + d, fun s hs => by simp only [hf s hs, hg s hs]; ring⟩

theorem neg (hf : LineOn f S) : LineOn (fun s => -f s) S := by
  obtain ⟨m, c, hf⟩ := hf
  exact ⟨-m, -c, fun s hs => by simp only [hf s hs]; ring⟩

/-- A sum of lines is a line. -/
theorem sum {ι : Type*} {f : ι → K → K} {l : List ι} (h : ∀ i ∈ l, LineOn (f i) S) :
    LineOn (fun s => (l.map fun i => f i s).sum) S := by
  induction l with
  | nil => exact const 0
  | cons i l ih =>
    obtain ⟨hi, hl⟩ := List.forall_mem_cons.mp h
    simpa only [List.map_cons, List.sum_cons] using hi.add (ih hl)

end LineOn

variable [LinearOrder K]

namespace LineOn

variable {f : K → K} {a b s : K}

/-- The chord: a line on a segment is fixed by its values at the ends. -/
theorem chord (h : LineOn f (Set.Icc a b)) (hab : a ≤ b) (hs : s ∈ Set.Icc a b) :
    f s * (b - a) = f a * (b - s) + f b * (s - a) := by
  obtain ⟨m, c, h⟩ := h
  rw [h s hs, h a (Set.left_mem_Icc.mpr hab), h b (Set.right_mem_Icc.mpr hab)]
  ring

variable [IsStrictOrderedRing K]

/-- A line stays below a bound of its ends. -/
theorem le_of_ends (h : LineOn f (Set.Icc a b)) (hab : a < b) (hs : s ∈ Set.Icc a b) {M : K}
    (ha : f a ≤ M) (hb : f b ≤ M) : f s ≤ M := by
  have hchord := h.chord hab.le hs
  have hleft : f a * (b - s) ≤ M * (b - s) := mul_le_mul_of_nonneg_right ha (sub_nonneg.mpr hs.2)
  have hright : f b * (s - a) ≤ M * (s - a) := mul_le_mul_of_nonneg_right hb (sub_nonneg.mpr hs.1)
  refine le_of_mul_le_mul_right ?_ (sub_pos.mpr hab)
  calc f s * (b - a) = f a * (b - s) + f b * (s - a) := hchord
    _ ≤ M * (b - s) + M * (s - a) := add_le_add hleft hright
    _ = M * (b - a) := by ring

end LineOn

section
variable [IsStrictOrderedRing K]

/-- Where the chord from `(a, u)` to `(b, v)` crosses zero. -/
def crossing (a u b v : K) : K := a + (b - a) * -u / (v - u)

/-- Ends of opposite sign: the chord crosses zero strictly between them. -/
theorem crossing_mem {a b u v : K} (hab : a < b) (hsign : u * v < 0) : crossing a u b v ∈ Set.Ioo a b := by
  have hne : v - u ≠ 0 := by
    intro h
    rw [sub_eq_zero.mp h] at hsign
    exact absurd (mul_self_nonneg u) (not_le.mpr hsign)
  have hba := sub_pos.mpr hab
  have hratio : 0 < -u / (v - u) ∧ -u / (v - u) < 1 := by
    rcases mul_neg_iff.mp hsign with ⟨hu, hv⟩ | ⟨hu, hv⟩
    · have hden : 0 < u - v := by linarith
      have heq : -u / (v - u) = u / (u - v) := by
        rw [← neg_sub u v, neg_div_neg_eq]
      rw [heq]
      exact ⟨div_pos hu hden, (div_lt_one hden).mpr (by linarith)⟩
    · have hden : 0 < v - u := by linarith
      exact ⟨div_pos (by linarith) hden, (div_lt_one hden).mpr (by linarith)⟩
  have hcross : crossing a u b v = a + (b - a) * (-u / (v - u)) := by
    rw [crossing, mul_div_assoc]
  rw [hcross]
  constructor
  · exact lt_add_of_pos_right _ (mul_pos hba hratio.1)
  · have := mul_lt_mul_of_pos_left hratio.2 hba
    linarith

/-- The crossing solves the chord's equation, and is its only solution. -/
theorem crossing_iff {a b s u v : K} (hne : u ≠ v) :
    u * (b - s) + v * (s - a) = 0 ↔ s = crossing a u b v := by
  have hden : v - u ≠ 0 := sub_ne_zero.mpr hne.symm
  rw [crossing, ← sub_eq_iff_eq_add', eq_div_iff hden]
  constructor
  · intro h
    linear_combination h
  · intro h
    linear_combination h

namespace LineOn

variable {f : K → K} {a b s : K}

/-- A sign change has its zero at the crossing. -/
theorem root_between (h : LineOn f (Set.Icc a b)) (hab : a < b) (hsign : f a * f b < 0) :
    f (crossing a (f a) b (f b)) = 0 := by
  have hmem := crossing_mem hab hsign
  have hne : f a ≠ f b := by
    intro heq
    rw [heq] at hsign
    exact absurd (mul_self_nonneg (f b)) (not_le.mpr hsign)
  have hchord := h.chord hab.le (Set.Ioo_subset_Icc_self hmem)
  rw [(crossing_iff hne).mpr rfl] at hchord
  exact (mul_eq_zero.mp hchord).resolve_right (sub_pos.mpr hab).ne'

/-- A zero strictly inside a segment is the crossing of a sign change, or the line is zero. -/
theorem root_of_zero (h : LineOn f (Set.Icc a b)) (hs : s ∈ Set.Ioo a b) (hzero : f s = 0) :
    (f a * f b < 0 ∧ s = crossing a (f a) b (f b)) ∨ ∀ t ∈ Set.Icc a b, f t = 0 := by
  have hab : a < b := hs.1.trans hs.2
  have hchord := h.chord hab.le (Set.Ioo_subset_Icc_self hs)
  rw [hzero, zero_mul] at hchord
  have hright : 0 < s - a := sub_pos.mpr hs.1
  have hleft : 0 < b - s := sub_pos.mpr hs.2
  by_cases ha : f a = 0
  · right
    have hb : f b = 0 := by
      rw [ha, zero_mul, zero_add] at hchord
      exact (mul_eq_zero.mp hchord.symm).resolve_right hright.ne'
    intro t ht
    have hzeros := h.chord hab.le ht
    rw [ha, hb, zero_mul, zero_mul, add_zero] at hzeros
    exact (mul_eq_zero.mp hzeros).resolve_right (sub_pos.mpr hab).ne'
  · left
    have hsign : f a * f b < 0 := by
      have hprod : f a * f b * (s - a) = -(f a * f a * (b - s)) := by linear_combination f a * -hchord
      have hneg : f a * f b * (s - a) < 0 := by
        rw [hprod]
        exact neg_neg_of_pos (mul_pos (mul_self_pos.mpr ha) hleft)
      exact neg_of_mul_neg_left hneg hright.le
    refine ⟨hsign, (crossing_iff ?_).mp hchord.symm⟩
    intro heq
    rw [heq] at hsign
    exact absurd (mul_self_nonneg (f b)) (not_le.mpr hsign)

end LineOn

end

/-! ### Piecewise linear functions -/

/-- `f` is a line between neighbouring points and has slope `slope` past the last. -/
structure PiecewiseLinear (f : K → K) (points : List K) (slope : K) : Prop where
  /-- The points increase. -/
  increasing : points.Pairwise (· < ·)
  /-- There is a point. -/
  ne_nil : points ≠ []
  /-- A line between neighbours. -/
  segment : ∀ p ∈ points.zip points.tail, LineOn f (Set.Icc p.1 p.2)
  /-- One slope past the last point. -/
  tail : ∀ s, points.getLast ne_nil ≤ s → f s = f (points.getLast ne_nil) + slope * (s - points.getLast ne_nil)

namespace PiecewiseLinear

variable {f : K → K} {points : List K} {slope : K}

theorem neg (h : PiecewiseLinear f points slope) : PiecewiseLinear (fun s => -f s) points (-slope) where
  increasing := h.increasing
  ne_nil := h.ne_nil
  segment := fun p hp => (h.segment p hp).neg
  tail := fun s hs => by
    simp only [h.tail s hs]
    ring

/-- The root of the last slope, past the last point, is a zero. -/
theorem tail_root (h : PiecewiseLinear f points slope) (hslope : slope ≠ 0)
    (hroot : points.getLast h.ne_nil < points.getLast h.ne_nil - f (points.getLast h.ne_nil) / slope) :
    f (points.getLast h.ne_nil - f (points.getLast h.ne_nil) / slope) = 0 := by
  rw [h.tail _ hroot.le]
  field_simp
  ring

variable [IsStrictOrderedRing K]

/-- Where the last slope does not rise, a bound of the values at the points is a bound. -/
theorem le_of_points (h : PiecewiseLinear f points slope) (hslope : slope ≤ 0) {M : K}
    (hM : ∀ x ∈ points, f x ≤ M) {s : K} (hs : points.head h.ne_nil ≤ s) : f s ≤ M := by
  rcases between h.increasing h.ne_nil hs with hmem | ⟨p, hp, hin⟩ | hlast
  · exact hM s hmem
  · have hends := List.of_mem_zip hp
    exact (h.segment p hp).le_of_ends (lt_of_neighbours h.increasing hp) (Set.Ioo_subset_Icc_self hin)
      (hM _ hends.1) (hM _ (List.mem_of_mem_tail hends.2))
  · rw [h.tail s hlast.le]
    have hdown := mul_nonpos_of_nonpos_of_nonneg hslope (sub_nonneg.mpr hlast.le)
    have hend := hM _ (List.getLast_mem h.ne_nil)
    linarith

/-- Where the last slope rises there is no bound. -/
theorem not_bddAbove (h : PiecewiseLinear f points slope) (hslope : 0 < slope) :
    ¬ BddAbove (f '' Set.Ici (points.head h.ne_nil)) := by
  rintro ⟨M, hM⟩
  set last := points.getLast h.ne_nil
  have hlast : points.head h.ne_nil ≤ last := head_le_of_mem h.increasing h.ne_nil (List.getLast_mem h.ne_nil)
  -- far enough out for the last slope to climb past the bound
  set rise := max ((M - f last) / slope) 0 + 1
  have hrise : 0 < rise := by positivity
  have hvalue : f (last + rise) = f last + slope * rise := by
    rw [h.tail _ (le_add_of_nonneg_right hrise.le), add_sub_cancel_left]
  have hbound : f (last + rise) ≤ M :=
    hM ⟨last + rise, hlast.trans (le_add_of_nonneg_right hrise.le), rfl⟩
  have hclimb : M - f last < slope * rise := by
    have hquot : (M - f last) / slope < rise := (le_max_left _ _).trans_lt (lt_add_one _)
    rwa [div_lt_iff₀ hslope, mul_comm] at hquot
  linarith

/-- **The maximum** from the first point on, where there is one, is the largest value at a
point. -/
theorem isGreatest (h : PiecewiseLinear f points slope) (hslope : slope ≤ 0) {M : K}
    (hmem : M ∈ points.map f) (hM : ∀ v ∈ points.map f, v ≤ M) :
    IsGreatest (f '' Set.Ici (points.head h.ne_nil)) M := by
  obtain ⟨x, hx, rfl⟩ := List.mem_map.mp hmem
  refine ⟨⟨x, head_le_of_mem h.increasing h.ne_nil hx, rfl⟩, ?_⟩
  rintro _ ⟨s, hs, rfl⟩
  exact h.le_of_points hslope (fun y hy => hM _ (List.mem_map_of_mem hy)) hs

/-- The largest value at a point bounds the function only where the last slope does not rise. -/
theorem bddAbove_iff (h : PiecewiseLinear f points slope) {M : K} (hM : ∀ v ∈ points.map f, v ≤ M) :
    BddAbove (f '' Set.Ici (points.head h.ne_nil)) ↔ slope ≤ 0 := by
  constructor
  · intro hbdd
    by_contra hslope
    exact h.not_bddAbove (not_le.mp hslope) hbdd
  · intro hslope
    refine ⟨M, ?_⟩
    rintro _ ⟨s, hs, rfl⟩
    exact h.le_of_points hslope (fun y hy => hM _ (List.mem_map_of_mem hy)) hs

/-- **The minimum** from the first point on, where there is one, is the least value at a point. -/
theorem isLeast (h : PiecewiseLinear f points slope) (hslope : 0 ≤ slope) {m : K}
    (hmem : m ∈ points.map f) (hm : ∀ v ∈ points.map f, m ≤ v) :
    IsLeast (f '' Set.Ici (points.head h.ne_nil)) m := by
  obtain ⟨x, hx, rfl⟩ := List.mem_map.mp hmem
  refine ⟨⟨x, head_le_of_mem h.increasing h.ne_nil hx, rfl⟩, ?_⟩
  rintro _ ⟨s, hs, rfl⟩
  refine neg_le_neg_iff.mp (h.neg.le_of_points (neg_nonpos.mpr hslope) (fun y hy => ?_) hs)
  exact neg_le_neg (hm _ (List.mem_map_of_mem hy))

/-- The least value at a point bounds the function only where the last slope does not fall. -/
theorem bddBelow_iff (h : PiecewiseLinear f points slope) {m : K} (hm : ∀ v ∈ points.map f, m ≤ v) :
    BddBelow (f '' Set.Ici (points.head h.ne_nil)) ↔ 0 ≤ slope := by
  constructor
  · rintro ⟨M, hM⟩
    by_contra hslope
    refine h.neg.not_bddAbove (neg_pos.mpr (not_le.mp hslope)) ⟨-M, ?_⟩
    rintro _ ⟨s, hs, rfl⟩
    exact neg_le_neg (hM ⟨s, hs, rfl⟩)
  · intro hslope
    refine ⟨m, ?_⟩
    rintro _ ⟨s, hs, rfl⟩
    refine neg_le_neg_iff.mp (h.neg.le_of_points (neg_nonpos.mpr hslope) (fun y hy => ?_) hs)
    exact neg_le_neg (hm _ (List.mem_map_of_mem hy))

/-- A zero past the last point is the root of the last slope, or the tail is zero. -/
theorem zero_past_last (h : PiecewiseLinear f points slope) {s : K} (hs : points.getLast h.ne_nil < s)
    (hzero : f s = 0) :
    (slope ≠ 0 ∧ s = points.getLast h.ne_nil - f (points.getLast h.ne_nil) / slope) ∨
      ∀ t, points.getLast h.ne_nil ≤ t → f t = 0 := by
  have htail := h.tail s hs.le
  rw [hzero] at htail
  by_cases hslope : slope = 0
  · right
    intro t ht
    have hflat := h.tail t ht
    simp only [hslope, zero_mul, add_zero] at htail hflat
    rw [hflat, ← htail]
  · left
    refine ⟨hslope, ?_⟩
    field_simp
    linear_combination -htail

end PiecewiseLinear

end NiftyShield.Lib
