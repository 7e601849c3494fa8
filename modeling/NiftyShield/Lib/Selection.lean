import Mathlib.Data.List.MinMax
import Mathlib.Data.List.Sort
import Mathlib.Order.Bounds.Basic

/-!
# Sorting and selecting from a part of a list

A program that sorts rows and then looks only at some of them may as well look at those
rows and then sort (`filter_insertionSort`). Of rows sorted by a figure the last is the one
written last among the greatest (`getLast?_insertionSort_iff`), the first is the one written first
among the least (`head?_insertionSort`, `le_of_insertionSort_eq_cons`). The first greatest item of a list stays the one
selected when other items are left out (`argmax_filter`), and when all are changed by a
function that keeps what they are compared by (`argmax_map`). The first answer along a list that
goes downwards is the answer at the greatest item that has one (`findSome?_eq_some_iff_greatest`),
along one that goes upwards at the least (`findSome?_eq_some_iff_isLeast`).
-/

namespace NiftyShield.Lib.Selection

variable {α : Type*}

section Sorting

variable (r : α → α → Prop) [DecidableRel r]

private theorem orderedInsert_of_forall {a : α} :
    ∀ {l : List α}, (∀ b ∈ l, r a b) → l.orderedInsert r a = a :: l
  | [], _ => rfl
  | b :: l, h => by rw [List.orderedInsert_cons, if_pos (h b (by simp))]

private theorem filter_orderedInsert [IsTrans α r] (p : α → Bool) (a : α) :
    ∀ {l : List α}, l.Pairwise r →
      (l.orderedInsert r a).filter p = if p a then (l.filter p).orderedInsert r a else l.filter p
  | [], _ => by cases h : p a <;> simp [h]
  | b :: l, hl => by
    obtain ⟨hb, hl'⟩ := List.pairwise_cons.mp hl
    by_cases hab : r a b
    · have hall : ∀ c ∈ (b :: l).filter p, r a c := fun c hc => by
        rcases List.mem_cons.mp (List.mem_filter.mp hc).1 with rfl | hc
        · exact hab
        · exact IsTrans.trans _ _ _ hab (hb c hc)
      rw [List.orderedInsert_cons, if_pos hab, orderedInsert_of_forall r hall, List.filter_cons]
    · rw [List.orderedInsert_cons, if_neg hab, List.filter_cons, filter_orderedInsert p a hl',
        List.filter_cons]
      cases hpb : p b <;> cases hpa : p a <;> simp [hab]

/-- Filtering commutes with sorting. -/
theorem filter_insertionSort [IsTrans α r] [Std.Total r] (p : α → Bool) :
    ∀ l : List α, (l.insertionSort r).filter p = (l.filter p).insertionSort r
  | [] => rfl
  | a :: l => by
    rw [List.insertionSort_cons, filter_orderedInsert r p a (List.pairwise_insertionSort r l),
      filter_insertionSort p l, List.filter_cons]
    split <;> rfl

end Sorting

section Last

variable {β : Type*} [LinearOrder β] (f : α → β)

private theorem getLast?_orderedInsert (a : α) : ∀ l : List α,
    l.Pairwise (fun b c => f b ≤ f c) →
      (l.orderedInsert (fun b c => f b ≤ f c) a).getLast? =
        some (l.getLast?.elim a fun m => if f a ≤ f m then m else a)
  | [], _ => rfl
  | b :: l, hl => by
    obtain ⟨hb, hl'⟩ := List.pairwise_cons.mp hl
    rw [List.orderedInsert_cons, List.getLast?_cons]
    by_cases hab : f a ≤ f b
    · rw [if_pos hab, List.getLast?_cons_cons, List.getLast?_cons, Option.elim_some, if_pos]
      cases hlast : l.getLast? with
      | none => exact hab
      | some m => exact hab.trans (hb m (List.mem_of_getLast? hlast))
    · rw [if_neg hab, List.getLast?_cons, getLast?_orderedInsert a l hl']
      cases l.getLast? with
      | none => exact congrArg some (if_neg hab).symm
      | some m => rfl

/-- **The last of the sorted rows**: none before it is greater, and those after it are smaller. -/
theorem getLast?_insertionSort_iff {a : α} : ∀ {l : List α},
    (l.insertionSort fun b c => f b ≤ f c).getLast? = some a ↔
      ∃ before after, l = before ++ a :: after ∧ (∀ b ∈ before, f b ≤ f a) ∧ ∀ c ∈ after, f c < f a
  | [] => by simp
  | b :: l => by
    rw [List.insertionSort_cons, getLast?_orderedInsert f b _ (List.pairwise_insertionSort _ l), Option.some.injEq]
    constructor
    · intro h
      cases hlast : (l.insertionSort fun b c => f b ≤ f c).getLast? with
      | none =>
        obtain rfl : l = [] := List.length_eq_zero_iff.mp (by
          rw [← List.length_insertionSort (fun b c => f b ≤ f c) l, List.getLast?_eq_none_iff.mp hlast, List.length_nil])
        rw [hlast, Option.elim_none] at h
        exact ⟨[], [], by rw [h, List.nil_append], by simp, by simp⟩
      | some m =>
        obtain ⟨before, after, rfl, hbefore, hafter⟩ := getLast?_insertionSort_iff.mp hlast
        rw [hlast, Option.elim_some] at h
        split at h
        next hbm =>
          subst h
          exact ⟨b :: before, after, rfl, List.forall_mem_cons.mpr ⟨hbm, hbefore⟩, hafter⟩
        next hbm =>
          subst h
          refine ⟨[], before ++ m :: after, rfl, by simp, fun c hc => lt_of_le_of_lt ?_ (not_le.mp hbm)⟩
          rcases List.mem_append.mp hc with hc | hc
          · exact hbefore c hc
          · rcases List.mem_cons.mp hc with rfl | hc
            · exact le_rfl
            · exact (hafter c hc).le
    · rintro ⟨before, after, hl, hbefore, hafter⟩
      cases before with
      | nil =>
        obtain ⟨rfl, rfl⟩ := List.cons.inj hl
        cases hlast : (l.insertionSort fun b c => f b ≤ f c).getLast? with
        | none => rfl
        | some m =>
          have hm : m ∈ l := (List.mem_insertionSort _).mp (List.mem_of_getLast? hlast)
          exact if_neg (not_le.mpr (hafter m hm))
      | cons c before =>
        obtain ⟨rfl, htail⟩ := List.cons.inj hl
        have hlast := getLast?_insertionSort_iff.mpr ⟨before, after, htail, (List.forall_mem_cons.mp hbefore).2, hafter⟩
        rw [hlast, Option.elim_some, if_pos (hbefore b List.mem_cons_self)]

/-- The first of the sorted rows is a least one. -/
theorem le_of_insertionSort_eq_cons {l t : List α} {a : α}
    (h : (l.insertionSort fun b c => f b ≤ f c) = a :: t) : a ∈ l ∧ ∀ b ∈ l, f a ≤ f b := by
  have hmem : ∀ b, b ∈ l ↔ b ∈ a :: t := fun b => by
    rw [← h, List.mem_insertionSort]
  have hsorted := List.pairwise_insertionSort (fun b c => f b ≤ f c) l
  rw [h] at hsorted
  refine ⟨(hmem a).mpr List.mem_cons_self, fun b hb => ?_⟩
  rcases List.mem_cons.mp ((hmem b).mp hb) with rfl | hb
  · exact le_rfl
  · exact List.rel_of_pairwise_cons hsorted hb

private theorem head?_orderedInsert (a : α) : ∀ l : List α,
    (l.orderedInsert (fun b c => f b ≤ f c) a).head? = some (l.head?.elim a fun m => if f m < f a then m else a)
  | [] => rfl
  | b :: l => by
    rw [List.orderedInsert_cons, List.head?_cons, Option.elim_some]
    by_cases hab : f a ≤ f b
    · rw [if_pos hab, if_neg (not_lt.mpr hab), List.head?_cons]
    · rw [if_neg hab, if_pos (not_le.mp hab), List.head?_cons]

/-- The first of the items with the least figure. -/
def firstBest (f : α → β) (l : List α) : Option α := l.argmin f

/-- **The first of the sorted rows** is the first of the least. -/
theorem head?_insertionSort : ∀ l : List α, (l.insertionSort fun b c => f b ≤ f c).head? = firstBest f l
  | [] => rfl
  | a :: l => by
    rw [List.insertionSort_cons, head?_orderedInsert, head?_insertionSort l, firstBest, firstBest, List.argmin_cons]
    cases l.argmin f with
    | none => rfl
    | some m => exact apply_ite some (f m < f a) m a

/-- The first of the sorted rows that may be taken is the first of the least of these. -/
theorem head?_filter_insertionSort (p : α → Bool) (l : List α) :
    ((l.insertionSort fun b c => f b ≤ f c).filter p).head? = firstBest f (l.filter p) := by
  have htotal : Std.Total fun b c : α => f b ≤ f c := ⟨fun b c => le_total (f b) (f c)⟩
  have htrans : IsTrans α fun b c => f b ≤ f c := ⟨fun _ _ _ => le_trans⟩
  rw [filter_insertionSort, head?_insertionSort]

end Last

section Greatest

variable {β : Type*} [LinearOrder β] (f : α → β)

/-- The item selected is selected again when others are left out. -/
theorem argmax_filter {p : α → Bool} {m : α} (hm : p m = true) :
    ∀ {l : List α}, l.argmax f = some m → (l.filter p).argmax f = some m
  | [], h => absurd h (by simp)
  | a :: l, h => by
    rw [List.argmax_cons] at h
    cases hl : l.argmax f with
    | none =>
      obtain rfl := List.argmax_eq_none.mp hl
      rw [hl] at h
      obtain rfl := Option.some.inj h
      simp [hm]
    | some c =>
      rw [hl] at h
      simp only at h
      by_cases hac : f a < f c
      · -- the tail has the greatest item; `a` matters to neither list
        rw [if_pos hac] at h
        obtain rfl := Option.some.inj h
        have ih := argmax_filter hm hl
        rw [List.filter_cons]
        split
        · rw [List.argmax_cons, ih]
          simp [hac]
        · exact ih
      · rw [if_neg hac] at h
        obtain rfl := Option.some.inj h
        rw [List.filter_cons, if_pos hm, List.argmax_cons]
        cases hf : (l.filter p).argmax f with
        | none => rfl
        | some d =>
          have hd : d ∈ l := (List.mem_filter.mp (List.argmax_mem hf)).1
          have hdc : f d ≤ f c := List.le_of_mem_argmax hd hl
          exact if_neg (not_lt.mpr (hdc.trans (not_lt.mp hac)))

/-- Selecting from changed items is changing the item selected. -/
theorem argmax_map {γ : Type*} (g : γ → α) : ∀ l : List γ, (l.map g).argmax f = (l.argmax (f ∘ g)).map g
  | [] => rfl
  | a :: l => by
    rw [List.map_cons, List.argmax_cons, List.argmax_cons, argmax_map g l]
    cases l.argmax (f ∘ g) with
    | none => rfl
    | some c =>
      simp only [Option.map_some, Function.comp_apply]
      split <;> rfl

end Greatest

section FirstAnswer

variable {β γ : Type*} [LinearOrder β] {g : α → β} {f : α → Option γ} {l : List α}

/-- **The first answer going downwards** is the one of the greatest item with an answer. -/
theorem findSome?_eq_some_iff_greatest (hl : l.Pairwise fun a b => g b ≤ g a)
    (hinj : ∀ a ∈ l, ∀ b ∈ l, g a = g b → a = b) {c : γ} :
    l.findSome? f = some c ↔ ∃ a ∈ l, f a = some c ∧ ∀ b ∈ l, (f b).isSome = true → g b ≤ g a := by
  constructor
  · intro h
    obtain ⟨before, a, after, rfl, hfa, hbefore⟩ := List.findSome?_eq_some_iff.mp h
    refine ⟨a, by simp, hfa, fun b hb hsome => ?_⟩
    rcases List.mem_append.mp hb with hb | hb
    · rw [hbefore b hb] at hsome
      exact absurd hsome (by simp)
    · rcases List.mem_cons.mp hb with rfl | hb
      · exact le_rfl
      · exact List.rel_of_pairwise_cons (List.pairwise_append.mp hl).2.1 hb
  · rintro ⟨a, ha, hfa, hgreatest⟩
    have hsome : (l.findSome? f).isSome = true :=
      List.findSome?_isSome_iff.mpr ⟨a, ha, by rw [hfa, Option.isSome_some]⟩
    obtain ⟨d, hd⟩ := Option.isSome_iff_exists.mp hsome
    obtain ⟨before, b, after, hsplit, hfb, hbefore⟩ := List.findSome?_eq_some_iff.mp hd
    have hb : b ∈ l := by rw [hsplit]; simp
    have hge : g a ≤ g b := by
      rw [hsplit] at ha hl
      rcases List.mem_append.mp ha with ha | ha
      · exact absurd hfa (by rw [hbefore a ha]; simp)
      · rcases List.mem_cons.mp ha with rfl | ha
        · exact le_rfl
        · exact List.rel_of_pairwise_cons (List.pairwise_append.mp hl).2.1 ha
    have hle : g b ≤ g a := hgreatest b hb (by rw [hfb, Option.isSome_some])
    obtain rfl := hinj a ha b hb (le_antisymm hge hle)
    rw [hd, ← hfa, hfb]

/-- **The first answer going upwards** is the one of the least item with an answer. -/
theorem findSome?_eq_some_iff_isLeast {f : β → Option γ} {l : List β} (hl : l.Pairwise (· ≤ ·)) {c : γ} :
    l.findSome? f = some c ↔ ∃ a, IsLeast {b | b ∈ l ∧ (f b).isSome = true} a ∧ f a = some c := by
  rw [findSome?_eq_some_iff_greatest (g := OrderDual.toDual) hl fun _ _ _ _ h => h]
  constructor
  · rintro ⟨a, ha, hfa, hleast⟩
    exact ⟨a, ⟨⟨ha, by rw [hfa, Option.isSome_some]⟩, fun b hb => hleast b hb.1 hb.2⟩, hfa⟩
  · rintro ⟨a, ⟨⟨ha, -⟩, hleast⟩, hfa⟩
    exact ⟨a, ha, hfa, fun b hb hsome => hleast ⟨hb, hsome⟩⟩

end FirstAnswer

end NiftyShield.Lib.Selection
