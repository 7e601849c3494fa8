import Mathlib.Algebra.BigOperators.Group.List.Basic
import Mathlib.Algebra.BigOperators.Ring.List
import Mathlib.Algebra.Field.Rat
import Mathlib.Order.Defs.LinearOrder
import Mathlib.Tactic.Ring

/-!
# Openings and closings that take turns

Openings and closings are stamped with a rising number. When they take turns (`Alternates`),
the first closing after an opening is the one of the same place in the order
(`Alternates.map_find?`). A sum of differences over two lists of one length does not depend
on which item is paired with which (`sum_zipWith_sub_mul`), so totals over either pairing are
the same.
-/

namespace NiftyShield.Lib.Alternation

variable {κ : Type*} [LinearOrder κ]

/-- The stamps of openings and closings that take turns, an opening first. -/
inductive Alternates : List κ → List κ → Prop where
  /-- Nothing has been opened. -/
  | nil : Alternates [] []
  /-- An opening after all closings, and its closing. -/
  | snoc {opens closes : List κ} {a b : κ} : Alternates opens closes → (∀ c ∈ closes, c < a) → a < b →
      Alternates (opens ++ [a]) (closes ++ [b])

theorem Alternates.length_eq {opens closes : List κ} (h : Alternates opens closes) :
    opens.length = closes.length := by
  induction h with
  | nil => rfl
  | snoc _ _ _ ih => rw [List.length_append, List.length_append, ih, List.length_singleton, List.length_singleton]

/-- The last opening has its closing. -/
theorem Alternates.last_lt {opens closes : List κ} {a : κ} (h : Alternates (opens ++ [a]) closes) :
    ∃ b ∈ closes, a < b := by
  generalize hopens : opens ++ [a] = opens' at h
  cases h with
  | nil => exact absurd hopens (by simp)
  | @snoc _ closes _ b _ _ hlt =>
    obtain ⟨-, rfl⟩ := List.append_singleton_inj.mp hopens
    exact ⟨b, List.mem_append_right _ (List.mem_singleton_self b), hlt⟩

/-- **The first closing after an opening is its own**: of items stamped by `f` and `g`. -/
theorem Alternates.map_find? {α β : Type*} {f : α → κ} {g : β → κ} {opens closes : List κ}
    (h : Alternates opens closes) :
    ∀ {as : List α} {bs : List β}, as.map f = opens → bs.map g = closes →
      as.map (fun a => bs.find? fun b => f a < g b) = bs.map some := by
  induction h with
  | nil =>
    intro as bs has hbs
    rw [List.map_eq_nil_iff.mp has, List.map_eq_nil_iff.mp hbs]
    rfl
  | @snoc opens closes x y _ hbefore hlt ih =>
    intro as bs has hbs
    obtain ⟨as, as', rfl, hopens, has'⟩ := List.map_eq_append_iff.mp has
    obtain ⟨bs, bs', rfl, hcloses, hbs'⟩ := List.map_eq_append_iff.mp hbs
    obtain ⟨a, rfl, rfl⟩ := List.map_eq_singleton_iff.mp has'
    obtain ⟨b, rfl, rfl⟩ := List.map_eq_singleton_iff.mp hbs'
    have hih := ih hopens hcloses
    -- an earlier opening finds its closing among the earlier ones
    have hearlier : ∀ a' ∈ as, (bs ++ [b]).find? (fun b' => f a' < g b') =
        bs.find? fun b' => f a' < g b' := by
      intro a' ha'
      have hmem : (bs.find? fun b' => f a' < g b') ∈ bs.map some := hih ▸ List.mem_map_of_mem ha'
      obtain ⟨c, -, hc⟩ := List.mem_map.mp hmem
      rw [List.find?_append, ← hc]
      rfl
    -- the last opening comes after all of them
    have hlast : (bs ++ [b]).find? (fun b' => f a < g b') = some b := by
      have hnone : bs.find? (fun b' => f a < g b') = none := by
        refine List.find?_eq_none.mpr fun c hc => ?_
        have hc' : g c < f a := hbefore _ (hcloses ▸ List.mem_map_of_mem hc)
        simpa using hc'.le
      rw [List.find?_append, hnone, Option.none_or, List.find?_singleton, if_pos (decide_eq_true hlt)]
    rw [List.map_append, List.map_append, List.map_congr_left hearlier, hih, List.map_singleton, hlast,
      List.map_singleton]

/-- A sum of differences in equal amounts is the difference of the sums, whatever is paired
with what. -/
theorem sum_zipWith_sub_mul {α β : Type*} (u : α → ℚ) (v w : β → ℚ) {c : ℚ} :
    ∀ {as : List α} {bs : List β}, as.length = bs.length → (∀ b ∈ bs, w b = c) →
      (List.zipWith (fun a b => (v b - u a) * w b) as bs).sum = ((bs.map v).sum - (as.map u).sum) * c
  | [], [], _, _ => by simp
  | a :: as, b :: bs, h, hw => by
    have ih := sum_zipWith_sub_mul u v w (Nat.succ.inj h) fun b' hb' =>
      hw b' (List.mem_cons_of_mem b hb')
    rw [List.zipWith_cons_cons, List.sum_cons, ih, hw b List.mem_cons_self, List.map_cons, List.map_cons,
      List.sum_cons, List.sum_cons]
    ring

end NiftyShield.Lib.Alternation
