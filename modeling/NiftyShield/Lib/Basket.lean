import Mathlib.Algebra.Group.Basic
import Mathlib.Data.List.Nodup

/-!
# Baskets of independent writes

A basket is a list of writes without a transaction in common, each made by a process of its own. A
process adds a quantity to its slot or leaves the slot as it is, and it has added it if it ends well;
it may also have added it and end badly. `enter` runs processes up to the first that ends badly,
`undo` runs all of them and tells which ended well.

`enter_spec` and `undo_spec` say what the slots hold afterwards, `enter_ok_iff` when every process
of a basket ends well.
-/

namespace NiftyShield.Lib.Basket

variable {σ ι α M : Type*} [AddCommGroup M]

/-- What a process for the slot `i` and the quantity `q` may do. -/
structure Adds (amount : σ → ι → M) (i : ι) (q : M) (s : σ) (r : σ × Bool) : Prop where
  /-- The other slots stay. -/
  others : ∀ j, j ≠ i → amount r.1 j = amount s j
  /-- The quantity is added, or nothing is. -/
  slot : amount r.1 i = amount s i ∨ amount r.1 i = amount s i + q
  /-- It is added if the process ends well. -/
  of_ok : r.2 = true → amount r.1 i = amount s i + q

/-- Run processes up to the first that ends badly. -/
def enter (run : σ → α → σ × Bool) : σ → List α → σ × Bool
  | s, [] => (s, true)
  | s, a :: l => if (run s a).2 then enter run (run s a).1 l else ((run s a).1, false)

/-- Run all processes; those that ended well, and those that did not. -/
def undo (run : σ → α → σ × Bool) : σ → List α → σ × List α × List α
  | s, [] => (s, [], [])
  | s, a :: l =>
    let rest := undo run (run s a).1 l
    if (run s a).2 then (rest.1, a :: rest.2.1, rest.2.2) else (rest.1, rest.2.1, a :: rest.2.2)

variable {amount : σ → ι → M} {slot : α → ι} {qty : α → M} {run : σ → α → σ × Bool}

/-- **A basket that is entered**: each slot has its quantity or nothing, and all have it if all
processes ended well. -/
theorem enter_spec (h : ∀ s a, Adds amount (slot a) (qty a) s (run s a)) : ∀ (l : List α) (s : σ),
    (l.map slot).Nodup →
      (∀ j ∉ l.map slot, amount (enter run s l).1 j = amount s j) ∧
        (∀ a ∈ l, amount (enter run s l).1 (slot a) = amount s (slot a) ∨
          amount (enter run s l).1 (slot a) = amount s (slot a) + qty a) ∧
        ((enter run s l).2 = true → ∀ a ∈ l, amount (enter run s l).1 (slot a) = amount s (slot a) + qty a)
  | [], s, _ => ⟨fun _ _ => rfl, fun _ ha => absurd ha List.not_mem_nil, fun _ _ ha => absurd ha List.not_mem_nil⟩
  | a :: l, s, hnodup => by
    rw [List.map_cons, List.nodup_cons] at hnodup
    obtain ⟨hfresh, hl⟩ := hnodup
    have ha := h s a
    have hne : ∀ b ∈ l, slot b ≠ slot a := fun b hb hab => hfresh (hab ▸ List.mem_map_of_mem hb)
    cases hok : (run s a).2 with
    | false =>
      have henter : enter run s (a :: l) = ((run s a).1, false) := by rw [enter, hok, if_neg Bool.false_ne_true]
      rw [henter]
      refine ⟨fun j hj => ha.others j fun hja => hj (hja ▸ by simp), fun b hb => ?_, fun hfalse => absurd hfalse (by simp)⟩
      rcases List.mem_cons.mp hb with rfl | hb
      · exact ha.slot
      · exact Or.inl (ha.others _ (hne b hb))
    | true =>
      have henter : enter run s (a :: l) = enter run (run s a).1 l := by rw [enter, hok, if_pos rfl]
      rw [henter]
      obtain ⟨hothers, hslots, hall⟩ := enter_spec h l (run s a).1 hl
      have hhead : amount (enter run (run s a).1 l).1 (slot a) = amount s (slot a) + qty a :=
        (hothers _ hfresh).trans (ha.of_ok hok)
      have htail : ∀ b ∈ l, amount (run s a).1 (slot b) = amount s (slot b) := fun b hb => ha.others _ (hne b hb)
      refine ⟨fun j hj => ?_, fun b hb => ?_, fun hend b hb => ?_⟩
      · rw [List.map_cons, List.mem_cons, not_or] at hj
        rw [hothers j hj.2, ha.others j hj.1]
      · rcases List.mem_cons.mp hb with rfl | hb
        · exact Or.inr hhead
        · rw [← htail b hb]
          exact hslots b hb
      · rcases List.mem_cons.mp hb with rfl | hb
        · exact hhead
        · rw [← htail b hb]
          exact hall hend b hb

/-- **A basket that is undone**: each slot has changed by its quantity or not at all, and by its
quantity where the process ended well. -/
theorem undo_spec (h : ∀ s a, Adds amount (slot a) (qty a) s (run s a)) : ∀ (l : List α) (s : σ),
    (l.map slot).Nodup →
      (∀ j ∉ l.map slot, amount (undo run s l).1 j = amount s j) ∧
        (∀ a ∈ l, amount (undo run s l).1 (slot a) = amount s (slot a) ∨
          amount (undo run s l).1 (slot a) = amount s (slot a) + qty a) ∧
        (∀ a ∈ l, a ∉ (undo run s l).2.2 → amount (undo run s l).1 (slot a) = amount s (slot a) + qty a)
  | [], s, _ => ⟨fun _ _ => rfl, fun _ ha => absurd ha List.not_mem_nil, fun _ ha => absurd ha List.not_mem_nil⟩
  | a :: l, s, hnodup => by
    rw [List.map_cons, List.nodup_cons] at hnodup
    obtain ⟨hfresh, hl⟩ := hnodup
    have ha := h s a
    have hne : ∀ b ∈ l, slot b ≠ slot a := fun b hb hab => hfresh (hab ▸ List.mem_map_of_mem hb)
    obtain ⟨hothers, hslots, hdone⟩ := undo_spec h l (run s a).1 hl
    have hstate : (undo run s (a :: l)).1 = (undo run (run s a).1 l).1 := by
      rw [undo]
      split <;> rfl
    have hfailed : ∀ b, b ∈ (undo run (run s a).1 l).2.2 → b ∈ (undo run s (a :: l)).2.2 := by
      intro b hb
      rw [undo]
      split
      · exact hb
      · exact List.mem_cons_of_mem a hb
    rw [hstate]
    refine ⟨fun j hj => ?_, fun b hb => ?_, fun b hb hnot => ?_⟩
    · rw [List.map_cons, List.mem_cons, not_or] at hj
      rw [hothers j hj.2, ha.others j hj.1]
    · rcases List.mem_cons.mp hb with rfl | hb
      · rw [hothers _ hfresh]
        exact ha.slot
      · rw [← ha.others _ (hne b hb)]
        exact hslots b hb
    · rcases List.mem_cons.mp hb with rfl | hb
      · have hok : (run s b).2 = true := by
          by_contra hbad
          rw [undo, if_neg hbad] at hnot
          exact hnot List.mem_cons_self
        rw [hothers _ hfresh, ha.of_ok hok]
      · rw [hdone b hb fun hfail => hnot (hfailed b hfail), ha.others _ (hne b hb)]

/-- What every process keeps, `enter` keeps. -/
theorem enter_keeps {P : σ → Prop} (h : ∀ s a, P s → P (run s a).1) : ∀ (l : List α) (s : σ), P s → P (enter run s l).1
  | [], _, hs => hs
  | a :: l, s, hs => by
    rw [enter]
    split
    · exact enter_keeps h l _ (h s a hs)
    · exact h s a hs

/-- What every process keeps, `undo` keeps. -/
theorem undo_keeps {P : σ → Prop} (h : ∀ s a, P s → P (run s a).1) : ∀ (l : List α) (s : σ), P s → P (undo run s l).1
  | [], _, hs => hs
  | a :: l, s, hs => by
    rw [undo]
    split <;> exact undo_keeps h l _ (h s a hs)

/-- Only processes of the list are told. -/
theorem mem_of_mem_undo : ∀ (l : List α) (s : σ) {a : α}, a ∈ (undo run s l).2.1 ∨ a ∈ (undo run s l).2.2 → a ∈ l
  | [], _, _, ha => absurd ha (by simp [undo])
  | b :: l, s, a, ha => by
    rw [undo] at ha
    have hrest := fun h => List.mem_cons_of_mem b (mem_of_mem_undo l (run s b).1 (a := a) h)
    split at ha
    · rcases ha with ha | ha
      · rcases List.mem_cons.mp ha with rfl | ha
        · exact List.mem_cons_self
        · exact hrest (Or.inl ha)
      · exact hrest (Or.inr ha)
    · rcases ha with ha | ha
      · exact hrest (Or.inl ha)
      · rcases List.mem_cons.mp ha with rfl | ha
        · exact List.mem_cons_self
        · exact hrest (Or.inr ha)

/-- **All processes end well** exactly when each of them would at the start, where no process makes a
difference to whether a later one does. -/
theorem enter_ok_iff {Ready : σ → α → Prop} (hready : ∀ s a, (run s a).2 = true ↔ Ready s a) : ∀ (l : List α) (s : σ),
    l.Pairwise (fun a b => ∀ s, Ready (run s a).1 b ↔ Ready s b) →
      ((enter run s l).2 = true ↔ ∀ a ∈ l, Ready s a)
  | [], s, _ => iff_of_true rfl fun _ ha => absurd ha List.not_mem_nil
  | a :: l, s, hl => by
    obtain ⟨ha, hl⟩ := List.pairwise_cons.mp hl
    rw [List.forall_mem_cons, ← hready s a, enter]
    split
    next hok =>
      rw [enter_ok_iff hready l _ hl, and_iff_right hok]
      exact forall₂_congr fun b hb => ha b hb s
    next hbad => exact iff_of_false Bool.false_ne_true fun h => hbad h.1

end NiftyShield.Lib.Basket
