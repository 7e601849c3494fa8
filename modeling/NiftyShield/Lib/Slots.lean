import NiftyShield.Lib.Grouping
import Mathlib.Algebra.Order.BigOperators.Group.List
import Mathlib.Order.Defs.LinearOrder

/-!
# First come, first served

Items ask for slots one after the other, and an item whose slot is taken goes without. The
items that get theirs are `served`. They are all of them exactly when every slot is free and no
two items ask for the same (`served_eq_self_iff`), and where the items have figures above zero,
exactly when in each group the figures of the served add up to those of all
(`eq_of_sublist_of_group_sums`).
-/

namespace NiftyShield.Lib.Slots

variable {β κ γ M : Type*} [DecidableEq κ] [DecidableEq γ]

/-- The items whose slot is free when their turn comes. -/
def served (slot : β → κ) : (κ → Bool) → List β → List β
  | _, [] => []
  | taken, b :: l =>
    if taken (slot b) then served slot taken l
    else b :: served slot (fun k => taken k || decide (k = slot b)) l

@[simp] theorem served_nil (slot : β → κ) (taken : κ → Bool) : served slot taken [] = [] := rfl

theorem served_singleton (slot : β → κ) (taken : κ → Bool) (b : β) :
    served slot taken [b] = if taken (slot b) then [] else [b] := rfl

theorem served_sublist (slot : β → κ) : ∀ (l : List β) (taken : κ → Bool), (served slot taken l).Sublist l
  | [], _ => List.Sublist.slnil
  | b :: l, taken => by
    rw [served]
    split
    · exact (served_sublist slot l _).cons b
    · exact (served_sublist slot l _).cons_cons b

/-- Who is served depends on the slots that are asked for. -/
theorem served_congr {slot : β → κ} : ∀ {l : List β} {taken taken' : κ → Bool},
    (∀ b ∈ l, taken (slot b) = taken' (slot b)) → served slot taken l = served slot taken' l
  | [], _, _, _ => rfl
  | b :: l, taken, taken', h => by
    rw [served, served, h b List.mem_cons_self]
    have hrest := fun c hc => h c (List.mem_cons_of_mem b hc)
    split
    · exact served_congr hrest
    · refine congrArg (b :: ·) (served_congr fun c hc => ?_)
      rw [hrest c hc]

theorem served_append (slot : β → κ) : ∀ (l m : List β) (taken : κ → Bool),
    served slot taken (l ++ m) =
      served slot taken l ++ served slot (fun k => taken k || decide (k ∈ l.map slot)) m
  | [], m, taken => by simp
  | b :: l, m, taken => by
    rw [List.cons_append, served, served, served_append slot l m, served_append slot l m]
    cases hb : taken (slot b) with
    | true =>
      rw [if_pos rfl, if_pos rfl]
      congr 2
      funext k
      by_cases hk : k = slot b
      · simp [hk, hb]
      · simp [hk]
    | false =>
      rw [if_neg Bool.false_ne_true, if_neg Bool.false_ne_true, List.cons_append]
      congr 3
      funext k
      simp [Bool.or_assoc]

/-- **When none is served**: if every slot is taken. -/
theorem served_eq_nil_iff {slot : β → κ} {l : List β} {taken : κ → Bool} :
    served slot taken l = [] ↔ ∀ b ∈ l, taken (slot b) = true := by
  induction l with
  | nil => simp
  | cons b l ih =>
    rw [served, List.forall_mem_cons]
    cases hb : taken (slot b) with
    | true => rw [if_pos rfl, ih, eq_self, true_and]
    | false => simp

/-- The served had a free slot, and no two of them the same. -/
theorem served_spec (slot : β → κ) : ∀ (l : List β) (taken : κ → Bool),
    (∀ b ∈ served slot taken l, taken (slot b) = false) ∧ ((served slot taken l).map slot).Nodup
  | [], _ => ⟨by simp, by simp⟩
  | b :: l, taken => by
    rw [served]
    cases hb : taken (slot b) with
    | true => exact served_spec slot l taken
    | false =>
      obtain ⟨hfree, hnodup⟩ := served_spec slot l fun k => taken k || decide (k = slot b)
      simp only [Bool.or_eq_false_iff, decide_eq_false_iff_not] at hfree
      refine ⟨?_, ?_⟩
      · rintro c (_ | ⟨_, hc⟩)
        · exact hb
        · exact (hfree c hc).1
      · rw [if_neg Bool.false_ne_true, List.map_cons, List.nodup_cons]
        refine ⟨fun hmem => ?_, hnodup⟩
        obtain ⟨c, hc, heq⟩ := List.mem_map.mp hmem
        exact (hfree c hc).2 heq

/-- Items that ask for different slots are served if theirs is free. -/
theorem served_eq_filter {slot : β → κ} : ∀ {l : List β} {taken : κ → Bool}, (l.map slot).Nodup →
    served slot taken l = l.filter fun b => !taken (slot b)
  | [], _, _ => rfl
  | b :: l, taken, hnodup => by
    obtain ⟨hb, hl⟩ := List.nodup_cons.mp hnodup
    have hrest : served slot (fun k => taken k || decide (k = slot b)) l = served slot taken l :=
      served_congr fun c hc => by
        have hne : slot c ≠ slot b := fun heq => hb (heq ▸ List.mem_map_of_mem hc)
        simp [hne]
    rw [served, hrest, served_eq_filter hl, List.filter_cons]
    cases taken (slot b) <;> rfl

/-- **When all are served**: if every slot is free, and no two items ask for the same. -/
theorem served_eq_self_iff {slot : β → κ} {l : List β} {taken : κ → Bool} :
    served slot taken l = l ↔ (∀ b ∈ l, taken (slot b) = false) ∧ (l.map slot).Nodup := by
  constructor
  · intro h
    have hspec := served_spec slot l taken
    rwa [h] at hspec
  · rintro ⟨hfree, hnodup⟩
    rw [served_eq_filter hnodup]
    exact List.filter_eq_self.mpr fun b hb => by rw [hfree b hb]; rfl

/-! ### Sums over groups -/

section Sums

variable {key : β → γ} {f : β → M} {l m : List β}

/-- Where no two items share a key, the sum of a group is the figure of its item. -/
theorem group_sum_of_mem [AddCommMonoid M] {b : β} : ∀ {l : List β}, (l.map key).Nodup → b ∈ l →
    ((Grouping.group key l (key b)).map f).sum = f b
  | [], _, hb => absurd hb (by simp)
  | c :: l, hnodup, hb => by
    obtain ⟨hc, hl⟩ := List.nodup_cons.mp hnodup
    rw [Grouping.group_cons]
    rcases List.mem_cons.mp hb with rfl | hb
    · have hnil : Grouping.group key l (key b) = [] :=
        List.filter_eq_nil_iff.mpr fun d hd => by
          have hne : key d ≠ key b := fun heq => hc (heq ▸ List.mem_map_of_mem hd)
          simpa using hne
      rw [if_pos rfl, hnil, List.map_singleton, List.sum_singleton]
    · have hne : key c ≠ key b := fun heq => hc (heq ▸ List.mem_map_of_mem hb)
      rw [if_neg hne]
      exact group_sum_of_mem hl hb

/-- One item counts if it is served. -/
theorem sum_served_singleton [AddCommMonoid M] (slot : β → κ) (taken : κ → Bool) (b : β) (p : β → Bool) :
    (((served slot taken [b]).filter p).map f).sum = if taken (slot b) = false ∧ p b = true then f b else 0 := by
  rw [served_singleton]
  cases taken (slot b) <;> cases hp : p b <;> simp [hp]

theorem group_sum_of_forall_ne [AddCommMonoid M] {k : γ} (h : ∀ b ∈ l, key b ≠ k) :
    ((Grouping.group key l k).map f).sum = 0 := by
  have hnil : Grouping.group key l k = [] := List.filter_eq_nil_iff.mpr fun b hb => by simpa using h b hb
  rw [hnil, List.map_nil, List.sum_nil]

private theorem group_sum_cons [AddCommMonoid M] (b : β) (l : List β) (k : γ) :
    ((Grouping.group key (b :: l) k).map f).sum =
      (if key b = k then f b else 0) + ((Grouping.group key l k).map f).sum := by
  rw [Grouping.group_cons]
  split
  · rw [List.map_cons, List.sum_cons]
  · rw [zero_add]

variable [AddCommGroup M] [LinearOrder M] [IsOrderedAddMonoid M]

variable (key f)

/-- A part of a list adds up to no more in any group. -/
theorem group_sum_le_of_sublist (h : m.Sublist l) (hpos : ∀ b ∈ l, 0 < f b) (k : γ) :
    ((Grouping.group key m k).map f).sum ≤ ((Grouping.group key l k).map f).sum := by
  induction h with
  | slnil => exact le_rfl
  | @cons m l b _ ih =>
    have hrest := ih fun c hc => hpos c (List.mem_cons_of_mem b hc)
    have hb := hpos b List.mem_cons_self
    rw [group_sum_cons b l]
    split
    · exact hrest.trans (le_add_of_nonneg_left hb.le)
    · rwa [zero_add]
  | @cons_cons m l b _ ih =>
    rw [group_sum_cons, group_sum_cons]
    exact add_le_add_right (ih fun c hc => hpos c (List.mem_cons_of_mem b hc)) _

/-- **Nothing is left out** of a part of a list that adds up to the same in every group. -/
theorem eq_of_sublist_of_group_sums (h : m.Sublist l) (hpos : ∀ b ∈ l, 0 < f b)
    (hsum : ∀ b ∈ l, ((Grouping.group key m (key b)).map f).sum =
      ((Grouping.group key l (key b)).map f).sum) : m = l := by
  induction h with
  | slnil => rfl
  | @cons m l b hsub _ =>
    -- the group of `b` adds up to less without it
    have hle := group_sum_le_of_sublist key f hsub (fun c hc => hpos c (List.mem_cons_of_mem b hc)) (key b)
    have heq := hsum b List.mem_cons_self
    rw [group_sum_cons b l, if_pos rfl] at heq
    rw [heq] at hle
    exact absurd hle (not_le.mpr (lt_add_of_pos_left _ (hpos b List.mem_cons_self)))
  | @cons_cons m l b _ ih =>
    rw [ih (fun c hc => hpos c (List.mem_cons_of_mem b hc)) fun c hc => ?_]
    have heq := hsum c (List.mem_cons_of_mem b hc)
    rw [group_sum_cons, group_sum_cons] at heq
    exact add_left_cancel heq

end Sums

end NiftyShield.Lib.Slots
