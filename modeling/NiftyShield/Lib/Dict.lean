import Mathlib.Algebra.BigOperators.Group.List.Basic
import Mathlib.Data.List.Nodup

/-!
# Insertion-ordered dictionaries

Finite maps that remember the order in which their keys were first written, as the
dictionaries of Python do: writing an existing key keeps its place, a new key goes to the
end. A `Dict` carries that its keys are distinct.

The lookup laws are `get?_set` (a write is read back and changes no other key) and
`mem_entries_iff` (the entries are exactly what lookups return); `get?_index` says what a
list indexed by a key of its values holds.
-/

namespace NiftyShield.Lib

/-- An insertion-ordered dictionary. -/
structure Dict (κ ν : Type*) where
  /-- The entries, in order of first insertion. -/
  entries : List (κ × ν)
  /-- No key occurs twice. -/
  nodup : (entries.map Prod.fst).Nodup

namespace Dict

variable {κ ν : Type*}

/-- The empty dictionary. -/
def empty : Dict κ ν := ⟨[], List.nodup_nil⟩

/-- The keys, in order. -/
def keys (d : Dict κ ν) : List κ := d.entries.map Prod.fst

/-- The values, in key order. -/
def values (d : Dict κ ν) : List ν := d.entries.map Prod.snd

@[simp] theorem keys_empty : (empty : Dict κ ν).keys = [] := rfl

theorem nodup_keys (d : Dict κ ν) : d.keys.Nodup := d.nodup

variable [DecidableEq κ]

/-- The value of a key, if present. -/
def get? (d : Dict κ ν) (k : κ) : Option ν := (d.entries.find? fun e => e.1 = k).map Prod.snd

/-- The entry with the value of `k` replaced. -/
private def replace (k : κ) (v : ν) (e : κ × ν) : κ × ν := if e.1 = k then (e.1, v) else e

private theorem fst_replace (k : κ) (v : ν) (e : κ × ν) : (replace k v e).1 = e.1 := by
  unfold replace
  split <;> rfl

private theorem map_fst_replace (k : κ) (v : ν) (es : List (κ × ν)) :
    (es.map (replace k v)).map Prod.fst = es.map Prod.fst := by
  rw [List.map_map]
  exact List.map_congr_left fun e _ => fst_replace k v e

/-- Write a key: in place if it is present, else at the end. -/
def set (d : Dict κ ν) (k : κ) (v : ν) : Dict κ ν :=
  if h : k ∈ d.entries.map Prod.fst then
    ⟨d.entries.map (replace k v), by
      rw [map_fst_replace]
      exact d.nodup⟩
  else
    ⟨d.entries ++ [(k, v)], by
      rw [List.map_append]
      exact d.nodup.append (List.nodup_singleton k) (by simpa using h)⟩

/-- A new key goes to the end. -/
theorem entries_set_of_notMem {d : Dict κ ν} {k : κ} (h : k ∉ d.keys) (v : ν) :
    (d.set k v).entries = d.entries ++ [(k, v)] := by
  rw [keys] at h
  rw [set, dif_neg h]

/-- Write a key if there is one. -/
def set? (d : Dict κ ν) (k : Option κ) (v : ν) : Dict κ ν := k.elim d fun j => d.set j v

/-- Remove a key. -/
def erase (d : Dict κ ν) (k : κ) : Dict κ ν :=
  ⟨d.entries.filter fun e => e.1 ≠ k, d.nodup.sublist (List.filter_sublist.map Prod.fst)⟩

@[simp] theorem get?_empty (k : κ) : (empty : Dict κ ν).get? k = none := rfl

private theorem find_replace_self (k : κ) (v : ν) :
    ∀ es : List (κ × ν), k ∈ es.map Prod.fst →
      ((es.map (replace k v)).find? fun e => e.1 = k).map Prod.snd = some v
  | [], h => absurd h (by simp)
  | e :: es, h => by
    by_cases he : e.1 = k
    · simp [replace, he]
    · have hes : k ∈ es.map Prod.fst := by
        simpa [Ne.symm he] using h
      simpa [replace, he] using find_replace_self k v es hes

private theorem find_replace_ne {k j : κ} (hne : j ≠ k) (v : ν) :
    ∀ es : List (κ × ν), ((es.map (replace k v)).find? fun e => e.1 = j) = es.find? fun e => e.1 = j
  | [] => rfl
  | e :: es => by
    rw [List.map_cons, List.find?_cons, List.find?_cons, fst_replace, find_replace_ne hne v es]
    by_cases hj : e.1 = j
    · simp [replace, hj, hne]
    · simp [hj]

/-- **Read after write**: the written key reads the new value, any other key its old one. -/
theorem get?_set (d : Dict κ ν) (k j : κ) (v : ν) :
    (d.set k v).get? j = if j = k then some v else d.get? j := by
  unfold set get?
  split
  next h =>
    by_cases hj : j = k
    · rw [if_pos hj, hj]
      exact find_replace_self k v _ h
    · rw [if_neg hj]
      exact congrArg _ (find_replace_ne hj v _)
  next h =>
    by_cases hj : j = k
    · subst hj
      have hnone : (d.entries.find? fun e => e.1 = j) = none :=
        List.find?_eq_none.mpr fun e he hej => h (List.mem_map.mpr ⟨e, he, of_decide_eq_true hej⟩)
      simp [List.find?_append, hnone]
    · simp [hj, List.find?_append, Ne.symm hj]

/-- A removed key reads nothing, any other key its old value. -/
theorem get?_erase (d : Dict κ ν) (k j : κ) : (d.erase k).get? j = if j = k then none else d.get? j := by
  unfold erase get?
  rw [List.find?_filter]
  by_cases hj : j = k
  · subst hj
    rw [if_pos rfl, Option.map_eq_none_iff, List.find?_eq_none]
    simp
  · rw [if_neg hj]
    congr 2
    funext e
    by_cases he : e.1 = j
    · simp [he, hj]
    · simp [he]

/-- The entries are what lookups return. -/
theorem mem_entries_iff {d : Dict κ ν} {k : κ} {v : ν} : (k, v) ∈ d.entries ↔ d.get? k = some v := by
  obtain ⟨es, hes⟩ := d
  simp only [get?]
  induction es with
  | nil => simp
  | cons e es ih =>
    obtain ⟨hnot, htail⟩ := List.nodup_cons.mp hes
    by_cases he : e.1 = k
    · have hfresh : (k, v) ∉ es := fun h => hnot (he ▸ List.mem_map.mpr ⟨_, h, rfl⟩)
      obtain ⟨a, b⟩ := e
      simp only at he
      subst he
      simp [hfresh, eq_comm]
    · have hne : (k, v) ≠ e := fun h => he (h ▸ rfl)
      simp [he, hne, ih htail]

theorem mem_values_iff {d : Dict κ ν} {v : ν} : v ∈ d.values ↔ ∃ k, d.get? k = some v := by
  simp [values, ← mem_entries_iff]

/-- Dictionaries with the same lookups have the same entries. -/
theorem entries_perm {d e : Dict κ ν} (h : ∀ k, d.get? k = e.get? k) : d.entries.Perm e.entries := by
  have hnodup : ∀ d : Dict κ ν, d.entries.Nodup := fun d => List.Nodup.of_map _ d.nodup
  refine (List.perm_ext_iff_of_nodup (hnodup d) (hnodup e)).mpr fun ⟨k, v⟩ => ?_
  rw [mem_entries_iff, mem_entries_iff, h k]

/-- A sum over the entries, with one key apart. -/
theorem sum_entries {M : Type*} [AddCommMonoid M] (f : κ × ν → M) (d : Dict κ ν) (k : κ) :
    (d.entries.map f).sum = ((d.get? k).map fun v => f (k, v)).getD 0 + ((d.erase k).entries.map f).sum := by
  have hsplit : d.entries.Perm ((((d.get? k).map fun v => (k, v)).toList) ++ (d.erase k).entries) := by
    have hrest : ∀ e : κ × ν, e ∈ (d.erase k).entries ↔ e ∈ d.entries ∧ e.1 ≠ k := fun e => by simp [erase]
    refine (List.perm_ext_iff_of_nodup (List.Nodup.of_map _ d.nodup) ?_).mpr fun ⟨j, v⟩ => ?_
    · refine List.nodup_append.mpr ⟨?_, List.Nodup.of_map _ (d.erase k).nodup, ?_⟩
      · cases d.get? k <;> simp
      · rintro ⟨i, u⟩ hu ⟨j, v⟩ hv heq
        obtain ⟨-, rfl⟩ : d.get? k = some u ∧ k = i := by simpa using hu
        exact ((hrest _).mp hv).2 (congrArg Prod.fst heq).symm
    · rw [List.mem_append, hrest, mem_entries_iff]
      by_cases hj : j = k
      · subst hj
        simp
      · simp [hj, Ne.symm hj]
  rw [(hsplit.map f).sum_eq, List.map_append, List.sum_append]
  cases d.get? k <;> simp

/-- Accumulating under a key: the value of a key is what its own items add up to. -/
theorem get?_foldl_accumulate {β : Type*} (key : β → κ) (add : ν → β → ν) (start : ν) (k : κ) :
    ∀ (l : List β) (d : Dict κ ν),
      (l.foldl (fun d b => d.set (key b) (add ((d.get? (key b)).getD start) b)) d).get? k =
        if (l.filter fun b => key b = k) = [] then d.get? k
        else some ((l.filter fun b => key b = k).foldl add ((d.get? k).getD start))
  | [], _ => by simp
  | b :: l, d => by
    rw [List.foldl_cons, get?_foldl_accumulate key add start k l, get?_set, List.filter_cons]
    by_cases hb : key b = k
    · subst hb
      simp only [decide_true, if_true, Option.getD_some, reduceCtorEq, if_false, List.foldl_cons]
      split
      next h => rw [h, List.foldl_nil]
      next => rfl
    · simp only [hb, decide_false, Bool.false_eq_true, if_false, if_neg (Ne.symm hb)]

/-- Writing one value under several keys. -/
theorem get?_foldl_set_const {β : Type*} (key : β → κ) (v : ν) (k : κ) : ∀ (l : List β) (d : Dict κ ν),
    (l.foldl (fun d b => d.set (key b) v) d).get? k = if k ∈ l.map key then some v else d.get? k
  | [], d => by simp
  | b :: l, d => by
    rw [List.foldl_cons, get?_foldl_set_const key v k l, get?_set, List.map_cons]
    by_cases hl : k ∈ l.map key
    · rw [if_pos hl, if_pos (List.mem_cons_of_mem _ hl)]
    · by_cases hb : k = key b
      · simp [hb]
      · rw [if_neg hl, if_neg hb, if_neg (by simpa [hb] using hl)]

/-- Writing the items of a list that have a key: the last of a key is the one that is read. -/
theorem get?_foldl_set_some {β : Type*} (key : β → Option κ) (val : β → ν) (k : κ) : ∀ (l : List β) (d : Dict κ ν),
    (l.foldl (fun d b => d.set? (key b) (val b)) d).get? k =
      (((l.filter fun b => key b = some k).getLast?).map val).or (d.get? k)
  | [], d => by simp
  | b :: l, d => by
    rw [List.foldl_cons, get?_foldl_set_some key val k l, List.filter_cons]
    cases hb : key b with
    | none => simp [set?]
    | some j =>
      simp only [set?, Option.elim_some, get?_set]
      by_cases h : j = k
      · subst h
        simp only [decide_true, if_true, List.getLast?_cons]
        cases (l.filter fun b => decide (key b = some j)).getLast? <;> rfl
      · simp [h, Ne.symm h]

/-- What is read after such writes is the value of an item, or what was there. -/
theorem of_get?_foldl_set {β : Type*} (key : β → Option κ) (val : β → ν) {k : κ} {v : ν} {l : List β} {d : Dict κ ν}
    (h : (l.foldl (fun d b => d.set? (key b) (val b)) d).get? k = some v) :
    (∃ b ∈ l, key b = some k ∧ val b = v) ∨ d.get? k = some v := by
  rw [get?_foldl_set_some] at h
  cases hlast : (l.filter fun b => decide (key b = some k)).getLast? with
  | none => exact .inr (by simpa [hlast] using h)
  | some b =>
    obtain ⟨hb, hbk⟩ := List.mem_filter.mp (List.mem_of_getLast? hlast)
    exact .inl ⟨b, hb, of_decide_eq_true hbk, by simpa [hlast] using h⟩

/-- If all items of a key agree, their value is the one that is read. -/
theorem get?_foldl_set_of_agree {β : Type*} (key : β → Option κ) (val : β → ν) {k : κ} {v : ν} {l : List β}
    (hmem : ∃ b ∈ l, key b = some k) (hval : ∀ b ∈ l, key b = some k → val b = v) (d : Dict κ ν) :
    (l.foldl (fun d b => d.set? (key b) (val b)) d).get? k = some v := by
  rw [get?_foldl_set_some]
  obtain ⟨b, hb, hbk⟩ := hmem
  have hne : (l.filter fun b => decide (key b = some k)) ≠ [] :=
    List.ne_nil_of_mem (List.mem_filter.mpr ⟨hb, decide_eq_true hbk⟩)
  obtain ⟨hlast, hlastk⟩ := List.mem_filter.mp (List.getLast_mem hne)
  rw [List.getLast?_eq_getLast_of_ne_nil hne, Option.map_some, Option.some_or,
    hval _ hlast (of_decide_eq_true hlastk)]

/-- A key that no item has reads as before. -/
theorem get?_foldl_set_of_ne {β : Type*} (key : β → Option κ) (val : β → ν) {k : κ} {l : List β}
    (h : ∀ b ∈ l, key b ≠ some k) (d : Dict κ ν) :
    (l.foldl (fun d b => d.set? (key b) (val b)) d).get? k = d.get? k := by
  have hnil : (l.filter fun b => decide (key b = some k)) = [] :=
    List.filter_eq_nil_iff.mpr fun b hb hbk => h b hb (of_decide_eq_true hbk)
  rw [get?_foldl_set_some, hnil]
  rfl

/-- A reading of the entries that does not look at a key is not changed by writing it. -/
theorem filterMap_set {β : Type*} {f : κ × ν → Option β} {k : κ} (h : ∀ v, f (k, v) = none) (d : Dict κ ν) (v : ν) :
    (d.set k v).entries.filterMap f = d.entries.filterMap f := by
  unfold set
  split
  · rw [List.filterMap_map]
    refine List.filterMap_congr fun e _ => ?_
    obtain ⟨j, w⟩ := e
    rw [Function.comp_apply, replace]
    split
    next hj =>
      obtain rfl : j = k := hj
      rw [h, h]
    next => rfl
  · rw [List.filterMap_append]
    simp [h]

/-- A reading of the values that does not tell a new value from the old one is not changed by
writing it. -/
theorem filterMap_values_set {β : Type*} {f : ν → Option β} {d : Dict κ ν} {k : κ} {v w : ν} (h : d.get? k = some w)
    (hf : f v = f w) : (d.set k v).values.filterMap f = d.values.filterMap f := by
  have hmem : (k, w) ∈ d.entries := mem_entries_iff.mpr h
  rw [values, values, set, dif_pos (List.mem_map_of_mem hmem), List.map_map, List.filterMap_map, List.filterMap_map]
  refine List.filterMap_congr fun e he => ?_
  obtain ⟨j, u⟩ := e
  simp only [Function.comp_apply, replace]
  split
  next hj =>
    obtain rfl : j = k := hj
    obtain rfl : u = w := Option.some.inj ((mem_entries_iff.mp he).symm.trans h)
    exact hf
  next => rfl

/-! ### Indexing values -/

/-- The values of a list under their keys; a later value replaces an earlier one. -/
def index (key : ν → κ) (l : List ν) : Dict κ ν := l.foldl (fun d v => d.set (key v) v) empty

private theorem get?_foldl_set (key : ν → κ) (k : κ) : ∀ (l : List ν) (d : Dict κ ν),
    (l.foldl (fun d v => d.set (key v) v) d).get? k = ((l.filter fun v => key v = k).getLast?).or (d.get? k)
  | [], d => by simp
  | v :: l, d => by
    rw [List.foldl_cons, get?_foldl_set key k l, get?_set, List.filter_cons]
    by_cases h : key v = k
    · simp only [h, decide_true, if_true, List.getLast?_cons]
      cases (l.filter fun v => decide (key v = k)).getLast? <;> rfl
    · simp [h, Ne.symm h]

/-- An index holds the last value of each key. -/
theorem get?_index (key : ν → κ) (l : List ν) (k : κ) :
    (index key l).get? k = (l.filter fun v => key v = k).getLast? := by
  rw [index, get?_foldl_set, get?_empty, Option.or_none]

private theorem entries_foldl_set (key : ν → κ) : ∀ (l : List ν) (d : Dict κ ν),
    (d.entries.map Prod.fst ++ l.map key).Nodup →
      (l.foldl (fun d v => d.set (key v) v) d).entries = d.entries ++ l.map fun v => (key v, v)
  | [], d, _ => by simp
  | v :: l, d, h => by
    have hfresh : key v ∉ d.entries.map Prod.fst := fun hin =>
      (List.nodup_append.mp h).2.2 _ hin _ (List.mem_map_of_mem List.mem_cons_self) rfl
    have hset : (d.set (key v) v).entries = d.entries ++ [(key v, v)] := by
      rw [set, dif_neg hfresh]
    rw [List.foldl_cons, entries_foldl_set key l _ (by simpa [hset] using h), hset]
    simp

/-- Under distinct keys an index holds the values of the list, in order. -/
theorem values_index (key : ν → κ) {l : List ν} (h : (l.map key).Nodup) : (index key l).values = l := by
  have hentries := entries_foldl_set key l empty (by simpa [empty] using h)
  rw [index, values, hentries]
  simp [empty, Function.comp_def]

end Dict

end NiftyShield.Lib
