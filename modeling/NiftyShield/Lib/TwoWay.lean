import NiftyShield.Lib.Dict

/-!
# Two-way dictionaries

A dictionary that is read in both directions: from a key to its value and back. It is built from
pairs, and a pair whose key or value is there already is refused, so that each direction undoes the
other. A `TwoWay` carries that.

`exists_ofPairs_iff` says which lists of pairs are taken, `get?_ofPairs` what is read afterwards.
-/

namespace NiftyShield.Lib

/-- A dictionary with its inverse. -/
structure TwoWay (κ ν : Type*) [DecidableEq κ] [DecidableEq ν] where
  /-- From keys to values. -/
  forth : Dict κ ν
  /-- From values to keys. -/
  back : Dict ν κ
  /-- The one undoes the other. -/
  inverse : ∀ k v, forth.get? k = some v ↔ back.get? v = some k

namespace TwoWay

variable {κ ν : Type*} [DecidableEq κ] [DecidableEq ν]

/-- Nothing. -/
def empty : TwoWay κ ν := ⟨Dict.empty, Dict.empty, fun k v => by simp⟩

theorem inverse_set {m : TwoWay κ ν} {k : κ} {v : ν} (hk : m.forth.get? k = none) (hv : m.back.get? v = none)
    (j : κ) (w : ν) : (m.forth.set k v).get? j = some w ↔ (m.back.set v k).get? w = some j := by
  rw [Dict.get?_set, Dict.get?_set]
  by_cases hj : j = k
  · subst hj
    rw [if_pos rfl]
    by_cases hw : w = v
    · simp [hw]
    · have hnone : ¬m.back.get? w = some j := fun h => by simp [(m.inverse j w).mpr h] at hk
      simp [hw, Ne.symm hw, hnone]
  · rw [if_neg hj]
    by_cases hw : w = v
    · subst hw
      have hnone : ¬m.forth.get? j = some w := fun h => by simp [(m.inverse j w).mp h] at hv
      simp [Ne.symm hj, hnone]
    · rw [if_neg hw]
      exact m.inverse j w

/-- Add a pair, unless its key or its value is there. -/
def insert? (m : TwoWay κ ν) (e : κ × ν) : Option (TwoWay κ ν) :=
  if h : m.forth.get? e.1 = none ∧ m.back.get? e.2 = none then
    some ⟨m.forth.set e.1 e.2, m.back.set e.2 e.1, inverse_set h.1 h.2⟩
  else none

/-- The dictionary of some pairs. -/
def ofPairs (es : List (κ × ν)) : Option (TwoWay κ ν) := es.foldlM insert? empty

/-- What is read after a pair is added. -/
theorem get?_insert? {m m' : TwoWay κ ν} {e : κ × ν} (h : m.insert? e = some m') {k : κ} {v : ν} :
    m'.forth.get? k = some v ↔ (k, v) = e ∨ m.forth.get? k = some v := by
  unfold insert? at h
  split at h
  next hfree =>
    obtain rfl := Option.some.inj h
    simp only [Dict.get?_set]
    by_cases hk : k = e.1
    · subst hk
      simp [hfree.1, Prod.ext_iff, eq_comm]
    · simp [hk, Prod.ext_iff]
  next => exact absurd h (by simp)

theorem get?_foldlM {es : List (κ × ν)} {m m' : TwoWay κ ν} (h : es.foldlM insert? m = some m') {k : κ} {v : ν} :
    m'.forth.get? k = some v ↔ (k, v) ∈ es ∨ m.forth.get? k = some v := by
  induction es generalizing m with
  | nil =>
    obtain rfl := Option.some.inj h
    simp
  | cons e es ih =>
    obtain ⟨m₁, hm₁, hrest⟩ := Option.bind_eq_some_iff.mp h
    rw [ih hrest, get?_insert? hm₁, List.mem_cons, or_left_comm, or_assoc]

/-- **The pairs are what is read.** -/
theorem get?_ofPairs {es : List (κ × ν)} {m : TwoWay κ ν} (h : ofPairs es = some m) {k : κ} {v : ν} :
    m.forth.get? k = some v ↔ (k, v) ∈ es := by
  rw [get?_foldlM h]
  simp [empty]

theorem exists_insert?_iff {m : TwoWay κ ν} {e : κ × ν} :
    (∃ m', m.insert? e = some m') ↔ m.forth.get? e.1 = none ∧ m.back.get? e.2 = none := by
  unfold insert?
  split
  next h => exact iff_of_true ⟨_, rfl⟩ h
  next h => exact iff_of_false (by simp) h

/-- What is free after a pair is added. -/
theorem free_insert? {m m' : TwoWay κ ν} {e : κ × ν} (h : m.insert? e = some m') (f : κ × ν) :
    (m'.forth.get? f.1 = none ∧ m'.back.get? f.2 = none) ↔
      (e.1 ≠ f.1 ∧ e.2 ≠ f.2) ∧ m.forth.get? f.1 = none ∧ m.back.get? f.2 = none := by
  unfold insert? at h
  split at h
  next =>
    obtain rfl := Option.some.inj h
    simp only [Dict.get?_set, @eq_comm _ f.1 e.1, @eq_comm _ f.2 e.2]
    by_cases hk : e.1 = f.1 <;> by_cases hv : e.2 = f.2 <;> simp [hk, hv]
  next => exact absurd h (by simp)

theorem exists_foldlM_iff {es : List (κ × ν)} {m : TwoWay κ ν} : (∃ m', es.foldlM insert? m = some m') ↔
    ((es.map Prod.fst).Nodup ∧ (es.map Prod.snd).Nodup) ∧
      ∀ e ∈ es, m.forth.get? e.1 = none ∧ m.back.get? e.2 = none := by
  induction es generalizing m with
  | nil => simp
  | cons e es ih =>
    have hstep : (∃ m', (e :: es).foldlM insert? m = some m') ↔
        ∃ m₁, m.insert? e = some m₁ ∧ ∃ m', es.foldlM insert? m₁ = some m' := by
      rw [List.foldlM_cons]
      simp only [Option.bind_eq_bind, Option.bind_eq_some_iff]
      exact ⟨fun ⟨m', m₁, h, h'⟩ => ⟨m₁, h, m', h'⟩, fun ⟨m₁, h, m', h'⟩ => ⟨m', m₁, h, h'⟩⟩
    rw [hstep, List.map_cons, List.map_cons, List.nodup_cons, List.nodup_cons, List.forall_mem_cons]
    constructor
    · rintro ⟨m₁, hm₁, hrest⟩
      obtain ⟨⟨hkeys, hvalues⟩, hfree⟩ := ih.mp hrest
      have hapart : ∀ f ∈ es, e.1 ≠ f.1 ∧ e.2 ≠ f.2 := fun f hf => ((free_insert? hm₁ f).mp (hfree f hf)).1
      refine ⟨⟨⟨fun h => ?_, hkeys⟩, fun h => ?_, hvalues⟩, exists_insert?_iff.mp ⟨m₁, hm₁⟩, fun f hf =>
        ((free_insert? hm₁ f).mp (hfree f hf)).2⟩
      · obtain ⟨f, hf, hfe⟩ := List.mem_map.mp h
        exact (hapart f hf).1 hfe.symm
      · obtain ⟨f, hf, hfe⟩ := List.mem_map.mp h
        exact (hapart f hf).2 hfe.symm
    · rintro ⟨⟨⟨hkey, hkeys⟩, hvalue, hvalues⟩, he, hfree⟩
      obtain ⟨m₁, hm₁⟩ := exists_insert?_iff.mpr he
      refine ⟨m₁, hm₁, ih.mpr ⟨⟨hkeys, hvalues⟩, fun f hf => ?_⟩⟩
      refine (free_insert? hm₁ f).mpr ⟨⟨fun h => ?_, fun h => ?_⟩, hfree f hf⟩
      · exact hkey (h ▸ List.mem_map_of_mem hf)
      · exact hvalue (h ▸ List.mem_map_of_mem hf)

/-- **The pairs are taken** exactly when no key and no value occurs twice. -/
theorem exists_ofPairs_iff {es : List (κ × ν)} :
    (∃ m, ofPairs es = some m) ↔ (es.map Prod.fst).Nodup ∧ (es.map Prod.snd).Nodup := by
  rw [ofPairs, exists_foldlM_iff]
  simp [empty]

end TwoWay

end NiftyShield.Lib
