import Mathlib.Data.Int.Range
import Mathlib.Order.Lattice
import Mathlib.Tactic.Ring

/-!
# Unimodal functions on the integers

A function that rises up to `a` and falls from `b` on, where `b` is at most the next
integer (`PeakBetween`). It goes up through a threshold at most once, before `b`, and down through it at
most once, from `a` on, so one crossing of each kind fixes its sign everywhere (`signs`).
-/

namespace NiftyShield.Lib

variable {α : Type*} [LinearOrder α]

/-- `f` rises up to `a` and falls from `b` on, on the integers from `low` to `high`. -/
structure PeakBetween (f : ℤ → α) (low high a b : ℤ) : Prop where
  /-- No integer is strictly between. -/
  next : b ≤ a + 1
  /-- Up to `a`. -/
  rises : ∀ s t, low ≤ s → s ≤ t → t ≤ a → f s ≤ f t
  /-- From `b` on. -/
  falls : ∀ s t, b ≤ s → s ≤ t → t ≤ high → f t ≤ f s

/-- From `i` to the next integer `f` goes up through `c`. -/
structure UpAt (f : ℤ → α) (low high : ℤ) (c : α) (i : ℤ) : Prop where
  /-- From the first integer on. -/
  low_le : low ≤ i
  /-- Before the last. -/
  lt_high : i < high
  /-- At most `c`. -/
  before : f i ≤ c
  /-- Then above. -/
  after : c < f (i + 1)

/-- From `j` to the next integer `f` goes down through `c`. -/
structure DownAt (f : ℤ → α) (low high : ℤ) (c : α) (j : ℤ) : Prop where
  /-- From the first integer on. -/
  low_le : low ≤ j
  /-- Before the last. -/
  lt_high : j < high
  /-- Above `c`. -/
  before : c < f j
  /-- Then at most `c`. -/
  after : f (j + 1) ≤ c

namespace PeakBetween

variable {f : ℤ → α} {low high a b i j s : ℤ} {c : α}

/-- The largest value is at `a` or at `b`. -/
theorem le_peak (h : PeakBetween f low high a b) (hlow : low ≤ s) (hhigh : s ≤ high) :
    f s ≤ f a ∨ f s ≤ f b := by
  by_cases hsa : s ≤ a
  · exact Or.inl (h.rises s a hlow hsa le_rfl)
  · have hnext := h.next
    exact Or.inr (h.falls b s le_rfl (by omega) hhigh)

/-- It goes up before `b`. -/
theorem up_lt (h : PeakBetween f low high a b) (hup : UpAt f low high c i) : i < b := by
  by_contra hb
  have hfall := h.falls i (i + 1) (not_lt.mp hb) (by omega) hup.lt_high
  exact absurd hfall (not_le.mpr (hup.before.trans_lt hup.after))

/-- It goes down from `a` on. -/
theorem le_down (h : PeakBetween f low high a b) (hdown : DownAt f low high c j) : a ≤ j := by
  by_contra ha
  have hrise := h.rises j (j + 1) hdown.low_le (by omega) (by omega)
  exact absurd hrise (not_le.mpr (hdown.after.trans_lt hdown.before))

/-- **One rise and one fall fix the sign**: at most `c` up to the rise, above it up to the fall, and
at most `c` again after it. -/
theorem signs (h : PeakBetween f low high a b) (hup : UpAt f low high c i) (hdown : DownAt f low high c j) :
    i < j ∧ (∀ s, low ≤ s → s ≤ i → f s ≤ c) ∧ (∀ s, i < s → s ≤ j → c < f s) ∧
      ∀ s, j < s → s ≤ high → f s ≤ c := by
  have hib := h.up_lt hup
  have haj := h.le_down hdown
  have hnext := h.next
  obtain ⟨hlow, hhigh, hati, hafter⟩ := hup
  obtain ⟨hlowj, hhighj, hatj, hafterj⟩ := hdown
  have hleft : ∀ s, low ≤ s → s ≤ i → f s ≤ c := by
    intro s hs hsi
    exact (h.rises s i hs hsi (by omega)).trans hati
  have hij : i < j := by
    by_contra hji
    exact absurd (hleft j hlowj (not_lt.mp hji)) (not_le.mpr hatj)
  refine ⟨hij, hleft, ?_, ?_⟩
  · intro s his hsj
    by_cases hsa : s ≤ a
    · exact hafter.trans_le (h.rises (i + 1) s (by omega) (by omega) hsa)
    · exact hatj.trans_le (h.falls s j (by omega) hsj hhighj.le)
  · intro s hjs hs
    exact (h.falls (j + 1) s (by omega) (by omega) hs).trans hafterj

end PeakBetween

/-! ### Scanning an interval -/

/-- Neighbours in an interval of integers. -/
theorem mem_zip_tail_range {low high : ℤ} {p : ℤ × ℤ}
    (hp : p ∈ (Int.range low high).zip (Int.range low high).tail) : p.2 = p.1 + 1 ∧ low ≤ p.1 ∧ p.2 < high := by
  obtain ⟨n, hn, hget⟩ := List.mem_iff_getElem.mp hp
  simp only [List.getElem_zip, List.getElem_tail, Int.range, List.getElem_map, List.getElem_range] at hget
  simp only [Int.range, List.length_zip, List.length_map, List.length_range, List.length_tail] at hn
  subst hget
  refine ⟨?_, ?_, ?_⟩
  · push_cast
    ring
  · simp
  · simp only
    omega

end NiftyShield.Lib
