import Mathlib.Data.List.Basic

/-!
# Cutting a list at each first stop

`segments stop l` cuts `l` after the shortest non-empty prefix on which `stop` holds,
starts afresh, and leaves whatever never stops as a remainder. `segments_spec` is what
makes the cut unique: the pieces are `l` in order, every closed piece stops and no proper
prefix of it does, and no prefix of the remainder stops.
-/

namespace NiftyShield.Lib

variable {α : Type*}

/-- No non-empty prefix of `l` is a stop. -/
def NeverStops (stop : List α → Bool) (l : List α) : Prop := ∀ p, p <+: l → p ≠ [] → stop p = false

/-- `l` is a stop and none of its proper non-empty prefixes is. -/
structure FirstStop (stop : List α → Bool) (l : List α) : Prop where
  /-- A piece is not empty. -/
  ne_nil : l ≠ []
  /-- It stops at its end. -/
  stops : stop l = true
  /-- And not before. -/
  notBefore : ∀ p, p <+: l → p ≠ [] → p ≠ l → stop p = false

/-- The loop of the cut: `seg` is the piece collected so far. -/
def segmentsFrom (stop : List α → Bool) (seg : List α) : List α → List (List α) × List α
  | [] => ([], seg)
  | a :: l =>
    if stop (seg ++ [a]) then
      let rest := segmentsFrom stop [] l
      ((seg ++ [a]) :: rest.1, rest.2)
    else segmentsFrom stop (seg ++ [a]) l

/-- The closed pieces of `l` and the remainder. -/
def segments (stop : List α → Bool) (l : List α) : List (List α) × List α := segmentsFrom stop [] l

theorem prefix_concat_cases {p l : List α} {a : α} (h : p <+: l ++ [a]) : p <+: l ∨ p = l ++ [a] := by
  rcases List.prefix_concat_iff.mp h with h | h
  · exact Or.inr h
  · exact Or.inl h

/-- A piece that never stops, and stops with the next item, is a first stop. -/
theorem NeverStops.firstStop {stop : List α → Bool} {seg : List α} {a : α} (h : NeverStops stop seg)
    (hs : stop (seg ++ [a]) = true) : FirstStop stop (seg ++ [a]) where
  ne_nil := by simp
  stops := hs
  notBefore := fun p hp hne hproper => by
    rcases prefix_concat_cases hp with hp | hp
    · exact h p hp hne
    · exact absurd hp hproper

/-- A piece that never stops, also not with the next item, goes on. -/
theorem NeverStops.concat {stop : List α → Bool} {seg : List α} {a : α} (h : NeverStops stop seg)
    (hs : stop (seg ++ [a]) = false) : NeverStops stop (seg ++ [a]) := fun p hp hne => by
  rcases prefix_concat_cases hp with hp | rfl
  · exact h p hp hne
  · exact hs

theorem neverStops_nil (stop : List α → Bool) : NeverStops stop [] := fun _ hp hne =>
  absurd (List.prefix_nil.mp hp) hne

/-- The loop keeps the pieces in order and its invariant: the piece collected so far never
stops. -/
theorem segmentsFrom_spec (stop : List α → Bool) {seg : List α} (h : NeverStops stop seg) (l : List α) :
    (segmentsFrom stop seg l).1.flatten ++ (segmentsFrom stop seg l).2 = seg ++ l ∧
      (∀ s ∈ (segmentsFrom stop seg l).1, FirstStop stop s) ∧
        NeverStops stop (segmentsFrom stop seg l).2 := by
  induction l generalizing seg with
  | nil => exact ⟨by simp [segmentsFrom], by simp [segmentsFrom], h⟩
  | cons a l ih =>
    rw [segmentsFrom]
    cases hs : stop (seg ++ [a]) with
    | true =>
      obtain ⟨hflat, hclosed, hrest⟩ := ih (neverStops_nil stop)
      refine ⟨?_, ?_, hrest⟩
      · simp only [if_true, List.flatten_cons, List.append_assoc, hflat]
        simp
      · rintro s (_ | ⟨_, hmem⟩)
        · exact h.firstStop hs
        · exact hclosed s hmem
    | false =>
      obtain ⟨hflat, hclosed, hrest⟩ := ih (h.concat hs)
      refine ⟨?_, hclosed, hrest⟩
      simpa using hflat

/-- **The cut**: the pieces are the list in order, each closed piece is a first stop, and
the remainder never stops. -/
theorem segments_spec (stop : List α → Bool) (l : List α) :
    (segments stop l).1.flatten ++ (segments stop l).2 = l ∧
      (∀ s ∈ (segments stop l).1, FirstStop stop s) ∧ NeverStops stop (segments stop l).2 :=
  segmentsFrom_spec stop (neverStops_nil stop) l

end NiftyShield.Lib
