import NiftyShield.Lib.Dict
import Mathlib.Data.Finset.Card
import Mathlib.Data.Finset.Max
import Mathlib.Data.List.Sort
import Mathlib.Order.Interval.Finset.Defs

/-!
# Retention policies

A policy chooses what to keep of a finite set of items. It is to be used over and over, on what the
earlier uses have left and what has come since, and each use may stop before all that is to go is
gone. That this gives what one use on all items would give rests on two properties of the choice:
what is kept of a set is kept of a smaller one too (`heredity`), and items that are not kept make no
difference (`outcast`).

## What is proved

* `Holds.add`, `Holds.prune`, `Holds.keep_eq`: between what is kept of the history and the history
  itself, a policy chooses what it would choose of the history;
* `newest`: the policy that keeps the newest item of each of the `n` greatest keys. `card_newest_le`
  and `max_mem_newest` say how much it keeps at most and at least;
* `mem_take_firsts`: the same by one pass over a list of the items, the newest first.
-/

namespace NiftyShield.Lib

/-- A choice of what to keep. -/
structure Policy (α : Type*) [DecidableEq α] where
  /-- What is kept of a set. -/
  keep : Finset α → Finset α
  /-- It is of the set. -/
  keep_sub : ∀ A, keep A ⊆ A
  /-- It is kept of any part of the set that it is in. -/
  heredity : ∀ {A B}, A ⊆ B → keep B ∩ A ⊆ keep A
  /-- The other items make no difference. -/
  outcast : ∀ {A B}, keep B ⊆ A → A ⊆ B → keep A = keep B

namespace Policy

variable {α : Type*} [DecidableEq α]

/-- What one policy or the other keeps. -/
def or (P Q : Policy α) : Policy α where
  keep A := P.keep A ∪ Q.keep A
  keep_sub A := Finset.union_subset (P.keep_sub A) (Q.keep_sub A)
  heredity h := by
    rw [Finset.union_inter_distrib_right]
    exact Finset.union_subset_union (P.heredity h) (Q.heredity h)
  outcast h hAB := by
    obtain ⟨hP, hQ⟩ := Finset.union_subset_iff.mp h
    rw [P.outcast hP hAB, Q.outcast hQ hAB]

/-- What is there is of the history, and has all of it that is to be kept. -/
structure Holds (P : Policy α) (history there : Finset α) : Prop where
  /-- What is to be kept is there. -/
  kept : P.keep history ⊆ there
  /-- Nothing else has come. -/
  sub : there ⊆ history

variable {P : Policy α} {H D D' N : Finset α}

theorem holds_refl (P : Policy α) (H : Finset α) : P.Holds H H := ⟨P.keep_sub H, Finset.Subset.refl H⟩

/-- Of what is there, the policy chooses what it chooses of the history. -/
theorem Holds.keep_eq (h : P.Holds H D) : P.keep D = P.keep H := P.outcast h.kept h.sub

/-- New items come, whichever they are. -/
theorem Holds.add (h : P.Holds H D) (N : Finset α) : P.Holds (H ∪ N) (D ∪ N) where
  kept := by
    intro a ha
    rcases Finset.mem_union.mp (P.keep_sub _ ha) with hH | hN
    · exact Finset.mem_union_left N (h.kept (P.heredity Finset.subset_union_left (Finset.mem_inter.mpr ⟨ha, hH⟩)))
    · exact Finset.mem_union_right D hN
  sub := Finset.union_subset_union h.sub (Finset.Subset.refl N)

/-- Some of the items go that need not be kept. -/
theorem Holds.prune (h : P.Holds H D) (hkept : P.keep D ⊆ D') (hsub : D' ⊆ D) : P.Holds H D' where
  kept := h.keep_eq ▸ hkept
  sub := hsub.trans h.sub

end Policy

/-! ### The newest of each key -/

section Newest

variable {α κ : Type*} [LinearOrder κ] (key : α → κ) (n : ℕ) {A B : Finset α} {a : α}

/-- The greater keys. -/
def keysAbove (A : Finset α) (a : α) : Finset κ := (A.image key).filter (key a < ·)

variable {key} in
theorem mem_keysAbove {k : κ} : k ∈ keysAbove key A a ↔ (∃ b ∈ A, key b = k) ∧ key a < k := by
  rw [keysAbove, Finset.mem_filter, Finset.mem_image]

variable {key} in
theorem keysAbove_mono (h : A ⊆ B) : keysAbove key A a ⊆ keysAbove key B a :=
  Finset.filter_subset_filter _ (Finset.image_subset_image h)

variable [LinearOrder α]

/-- The item is the newest of its key. -/
def IsNewest (A : Finset α) (a : α) : Prop := ∀ b ∈ A, key b = key a → b ≤ a

instance (A : Finset α) : DecidablePred (IsNewest key A) := fun _ => inferInstanceAs (Decidable (∀ b ∈ A, _))

/-- The newest item of each of the `n` greatest keys. -/
def keepNewest (A : Finset α) : Finset α := A.filter fun a => IsNewest key A a ∧ (keysAbove key A a).card < n

variable {key n}

theorem mem_keepNewest : a ∈ keepNewest key n A ↔ a ∈ A ∧ IsNewest key A a ∧ (keysAbove key A a).card < n :=
  Finset.mem_filter

variable (key) in
/-- A key of the set has a newest item. -/
theorem exists_isNewest (ha : a ∈ A) : ∃ b ∈ A, key b = key a ∧ IsNewest key A b := by
  have hne : (A.filter fun b => key b = key a).Nonempty := ⟨a, Finset.mem_filter.mpr ⟨ha, rfl⟩⟩
  obtain ⟨hmem, hkey⟩ := Finset.mem_filter.mp (Finset.max'_mem _ hne)
  exact ⟨_, hmem, hkey, fun b hb hba => Finset.le_max' _ b (Finset.mem_filter.mpr ⟨hb, hba.trans hkey⟩)⟩

/-- No greater key is lost with what is not kept, if there are not too many left. -/
theorem keysAbove_eq (hkept : keepNewest key n B ⊆ A) (hAB : A ⊆ B) (hcard : (keysAbove key A a).card < n) :
    keysAbove key A a = keysAbove key B a := by
  refine Finset.Subset.antisymm (keysAbove_mono hAB) fun k hk => ?_
  by_contra hnot
  -- The greatest key that is lost: the keys above it are still there, so its newest item is kept.
  have hne : (keysAbove key B a \ keysAbove key A a).Nonempty := ⟨k, Finset.mem_sdiff.mpr ⟨hk, hnot⟩⟩
  obtain ⟨m, hlost, hgreatest⟩ : ∃ m ∈ keysAbove key B a \ keysAbove key A a,
      ∀ j ∈ keysAbove key B a \ keysAbove key A a, j ≤ m :=
    ⟨_, Finset.max'_mem _ hne, fun j => Finset.le_max' _ j⟩
  obtain ⟨hB, hA⟩ := Finset.mem_sdiff.mp hlost
  obtain ⟨⟨b, hb, rfl⟩, hm⟩ := mem_keysAbove.mp hB
  obtain ⟨c, hc, hcb, hnewest⟩ := exists_isNewest key hb
  have habove : keysAbove key B c ⊆ keysAbove key A a := by
    intro j hj
    obtain ⟨hjB, hcj⟩ := mem_keysAbove.mp hj
    have hbj : key b < j := hcb ▸ hcj
    have hja : j ∈ keysAbove key B a := mem_keysAbove.mpr ⟨hjB, hm.trans hbj⟩
    by_contra hjA
    exact absurd (hgreatest j (Finset.mem_sdiff.mpr ⟨hja, hjA⟩)) (not_le.mpr hbj)
  have hcA : c ∈ A := hkept (mem_keepNewest.mpr ⟨hc, hnewest, (Finset.card_le_card habove).trans_lt hcard⟩)
  exact hA (mem_keysAbove.mpr ⟨⟨c, hcA, hcb⟩, hm⟩)

variable (key n) in
/-- **The policy** that keeps the newest item of each of the `n` greatest keys. -/
def newest : Policy α where
  keep := keepNewest key n
  keep_sub A := Finset.filter_subset _ A
  heredity hAB a ha := by
    obtain ⟨hkept, hA⟩ := Finset.mem_inter.mp ha
    obtain ⟨-, hnewest, hcard⟩ := mem_keepNewest.mp hkept
    exact mem_keepNewest.mpr ⟨hA, fun b hb => hnewest b (hAB hb),
      (Finset.card_le_card (keysAbove_mono hAB)).trans_lt hcard⟩
  outcast {A B} hkept hAB := by
    ext a
    rw [mem_keepNewest, mem_keepNewest]
    constructor
    · rintro ⟨ha, hnewest, hcard⟩
      have hkeys : keysAbove key A a = keysAbove key B a := keysAbove_eq hkept hAB hcard
      obtain ⟨c, hc, hca, hcnewest⟩ := exists_isNewest key (hAB ha)
      have hcabove : keysAbove key B c = keysAbove key B a := by rw [keysAbove, hca, ← keysAbove]
      have hcA : c ∈ A := hkept (mem_keepNewest.mpr ⟨hc, hcnewest, by rwa [hcabove, ← hkeys]⟩)
      obtain rfl : a = c := le_antisymm (hcnewest a (hAB ha) hca.symm) (hnewest c hcA hca)
      exact ⟨hc, hcnewest, hkeys ▸ hcard⟩
    · rintro ⟨hB, hnewest, hcard⟩
      exact ⟨hkept (mem_keepNewest.mpr ⟨hB, hnewest, hcard⟩), fun b hb => hnewest b (hAB hb),
        (Finset.card_le_card (keysAbove_mono hAB)).trans_lt hcard⟩

/-- At most `n` items are kept. -/
theorem card_newest_le (A : Finset α) : ((newest key n).keep A).card ≤ n := by
  have hinj : Set.InjOn key ((newest key n).keep A) := by
    intro a ha b hb hab
    obtain ⟨haA, hanewest, -⟩ := mem_keepNewest.mp ha
    obtain ⟨hbA, hbnewest, -⟩ := mem_keepNewest.mp hb
    exact le_antisymm (hbnewest a haA hab) (hanewest b hbA hab.symm)
  rw [← Finset.card_image_of_injOn hinj]
  rcases (((newest key n).keep A).image key).eq_empty_or_nonempty with hnone | hne
  · rw [hnone]
    exact Nat.zero_le n
  · -- All keys but the least are above it.
    obtain ⟨a, ha, hmin⟩ := Finset.mem_image.mp (Finset.min'_mem _ hne)
    have hcard := (mem_keepNewest.mp ha).2.2
    have hsub : (((newest key n).keep A).image key).erase (key a) ⊆ keysAbove key A a := by
      intro k hk
      obtain ⟨hne', hk⟩ := Finset.mem_erase.mp hk
      have hle : key a ≤ k := hmin ▸ Finset.min'_le _ k hk
      obtain ⟨b, hb, rfl⟩ := Finset.mem_image.mp hk
      exact mem_keysAbove.mpr ⟨⟨b, (mem_keepNewest.mp hb).1, rfl⟩, lt_of_le_of_ne hle (Ne.symm hne')⟩
    have herase := Finset.card_le_card hsub
    rw [Finset.card_erase_of_mem (Finset.mem_image_of_mem key ha)] at herase
    omega

/-- The newest item of all is kept. -/
theorem max_mem_newest (hkey : Monotone key) (hn : 0 < n) (ha : a ∈ A) (hmax : ∀ b ∈ A, b ≤ a) :
    a ∈ (newest key n).keep A := by
  refine mem_keepNewest.mpr ⟨ha, fun b hb _ => hmax b hb, ?_⟩
  have hnone : keysAbove key A a = ∅ := Finset.eq_empty_iff_forall_notMem.mpr fun k hk => by
    obtain ⟨⟨b, hb, rfl⟩, hlt⟩ := mem_keysAbove.mp hk
    exact absurd (hkey (hmax b hb)) (not_le.mpr hlt)
  rwa [hnone, Finset.card_empty]

/-! ### One pass over a list, the newest first -/

variable (key) in
/-- The first item of each key. -/
def firsts (l : List α) : Dict κ α := l.foldl (fun d a => if key a ∉ d.keys then d.set (key a) a else d) Dict.empty

/-- What the first items of a list by decreasing items are. -/
structure Firsts (key : α → κ) (l : List α) (d : Dict κ α) : Prop where
  /-- Each is under its own key. -/
  keys : d.keys = d.values.map key
  /-- They are the newest of their keys. -/
  values : ∀ a, a ∈ d.values ↔ a ∈ l ∧ ∀ b ∈ l, key b = key a → b ≤ a
  /-- The keys decrease. -/
  sorted : d.values.Pairwise fun a b => key b < key a

/-- One more item, older than the others. -/
theorem Firsts.snoc {l : List α} {d : Dict κ α} (hkey : Monotone key) (h : Firsts key l d) (hold : ∀ b ∈ l, a < b) :
    Firsts key (l ++ [a]) (if key a ∉ d.keys then d.set (key a) a else d) := by
  have hleast : ∀ v ∈ d.values, key a ≤ key v := fun v hv => hkey (hold v ((h.values v).mp hv).1).le
  have hvalues : ∀ v ∈ l, (∀ b ∈ l ++ [a], key b = key v → b ≤ v) ↔ ∀ b ∈ l, key b = key v → b ≤ v := by
    intro v hv
    rw [List.forall_mem_append, List.forall_mem_singleton]
    exact and_iff_left fun _ => (hold v hv).le
  by_cases hin : key a ∈ d.keys
  · rw [if_neg (not_not.mpr hin)]
    obtain ⟨v, hv, hva⟩ := List.mem_map.mp (h.keys ▸ hin)
    have hvl : v ∈ l := ((h.values v).mp hv).1
    refine ⟨h.keys, fun c => ?_, h.sorted⟩
    rw [h.values, List.mem_append, List.mem_singleton]
    constructor
    · rintro ⟨hc, hnewest⟩
      exact ⟨.inl hc, (hvalues c hc).mpr hnewest⟩
    · rintro ⟨hc | rfl, hnewest⟩
      · exact ⟨hc, (hvalues c hc).mp hnewest⟩
      · exact absurd (hnewest v (List.mem_append_left _ hvl) hva) (not_le.mpr (hold v hvl))
  · rw [if_pos hin]
    have hset : (d.set (key a) a).values = d.values ++ [a] := by
      rw [Dict.values, Dict.entries_set_of_notMem hin, List.map_append]
      rfl
    have hkeys : (d.set (key a) a).keys = d.keys ++ [key a] := by
      rw [Dict.keys, Dict.entries_set_of_notMem hin, List.map_append]
      rfl
    have hother : ∀ v ∈ d.values, key a < key v := fun v hv =>
      lt_of_le_of_ne (hleast v hv) fun heq => hin (h.keys ▸ List.mem_map.mpr ⟨v, hv, heq.symm⟩)
    refine ⟨by rw [hkeys, hset, h.keys, List.map_append]; rfl, fun c => ?_, ?_⟩
    · rw [hset, List.mem_append, List.mem_append, List.mem_singleton, h.values]
      constructor
      · rintro (⟨hc, hnewest⟩ | rfl)
        · exact ⟨.inl hc, (hvalues c hc).mpr hnewest⟩
        · refine ⟨.inr rfl, fun b hb hbc => ?_⟩
          rcases List.mem_append.mp hb with hb | hb
          · -- An item of the key has a newest one, which would be in the dictionary.
            obtain ⟨v, hv, hvb, hnewest⟩ := exists_isNewest key (List.mem_toFinset.mpr hb)
            have hvd : v ∈ d.values := (h.values v).mpr ⟨List.mem_toFinset.mp hv, fun x hx => hnewest x (List.mem_toFinset.mpr hx)⟩
            exact absurd (hvb.trans hbc) (hother v hvd).ne'
          · exact (List.mem_singleton.mp hb).le
      · rintro ⟨hc | rfl, hnewest⟩
        · exact .inl ⟨hc, (hvalues c hc).mp hnewest⟩
        · exact .inr rfl
    · rw [hset, List.pairwise_append]
      exact ⟨h.sorted, List.pairwise_singleton _ _, fun v hv c hc => List.mem_singleton.mp hc ▸ hother v hv⟩

theorem firsts_spec (hkey : Monotone key) {l : List α} (hl : l.Pairwise (· > ·)) : Firsts key l (firsts key l) := by
  induction l using List.reverseRecOn with
  | nil => exact ⟨rfl, fun a => by simp [firsts, Dict.values, Dict.empty], List.Pairwise.nil⟩
  | append_singleton l a ih =>
    obtain ⟨hl, -, hold⟩ := List.pairwise_append.mp hl
    rw [firsts, List.foldl_append]
    exact (ih hl).snoc hkey fun b hb => hold b hb a (List.mem_singleton_self a)

/-- The first items of a list by decreasing keys. -/
theorem mem_take_iff {l : List α} (hl : l.Pairwise fun a b => key b < key a) :
    a ∈ l.take n ↔ a ∈ l ∧ (keysAbove key l.toFinset a).card < n := by
  induction l generalizing n with
  | nil => simp
  | cons b l ih =>
    obtain ⟨hb, hl⟩ := List.pairwise_cons.mp hl
    cases n with
    | zero => simp
    | succ n =>
      rw [List.take_succ_cons, List.mem_cons, List.mem_cons, ih hl]
      by_cases hab : a = b
      · subst hab
        have hnone : keysAbove key (a :: l).toFinset a = ∅ := by
          refine Finset.eq_empty_iff_forall_notMem.mpr fun k hk => ?_
          obtain ⟨⟨c, hc, rfl⟩, hlt⟩ := mem_keysAbove.mp hk
          rcases List.mem_cons.mp (List.mem_toFinset.mp hc) with rfl | hc
          · exact lt_irrefl _ hlt
          · exact absurd hlt (hb c hc).not_gt
        rw [hnone]
        exact iff_of_true (.inl rfl) ⟨.inl rfl, Nat.succ_pos n⟩
      · rw [or_iff_right hab, or_iff_right hab]
        refine and_congr_right fun ha => ?_
        have habove : keysAbove key (b :: l).toFinset a = insert (key b) (keysAbove key l.toFinset a) := by
          rw [keysAbove, List.toFinset_cons, Finset.image_insert, Finset.filter_insert, if_pos (hb a ha), ← keysAbove]
        have hnew : key b ∉ keysAbove key l.toFinset a := by
          intro hk
          obtain ⟨⟨c, hc, hcb⟩, -⟩ := mem_keysAbove.mp hk
          exact (hb c (List.mem_toFinset.mp hc)).ne hcb
        rw [habove, Finset.card_insert_of_notMem hnew, Nat.add_lt_add_iff_right]

/-- **One pass** over the items, the newest first, finds what the policy keeps. -/
theorem mem_take_firsts (hkey : Monotone key) {l : List α} (hl : l.Pairwise (· > ·)) :
    a ∈ (firsts key l).values.take n ↔ a ∈ (newest key n).keep l.toFinset := by
  obtain ⟨-, hvalues, hsorted⟩ := firsts_spec hkey hl
  have hkeys : keysAbove key (firsts key l).values.toFinset a = keysAbove key l.toFinset a := by
    refine Finset.Subset.antisymm (keysAbove_mono fun b hb => ?_) fun k hk => ?_
    · exact List.mem_toFinset.mpr ((hvalues b).mp (List.mem_toFinset.mp hb)).1
    · obtain ⟨⟨b, hb, rfl⟩, hlt⟩ := mem_keysAbove.mp hk
      obtain ⟨c, hc, hcb, hnewest⟩ := exists_isNewest key hb
      have hcv : c ∈ (firsts key l).values := (hvalues c).mpr
        ⟨List.mem_toFinset.mp hc, fun x hx => hnewest x (List.mem_toFinset.mpr hx)⟩
      exact mem_keysAbove.mpr ⟨⟨c, List.mem_toFinset.mpr hcv, hcb⟩, hlt⟩
  rw [mem_take_iff hsorted, hkeys, hvalues, and_assoc]
  refine mem_keepNewest.trans ?_ |>.symm
  simp only [IsNewest, List.mem_toFinset]

end Newest

end NiftyShield.Lib
