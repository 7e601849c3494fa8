import NiftyShield.Lib.Dict
import Mathlib.Data.List.MinMax
import Mathlib.Order.Basic

/-!
# Dated rows

A table with one row for each key and day. The row of a key that counts is the newest, or the
newest before some day (`newest`). It depends on the rows whose day passes only
(`newest_congr`), so that a day later than all rows does not tell the two apart.
-/

namespace NiftyShield.Lib

/-- Rows by key and day. -/
abbrev Dated (κ δ ν : Type*) := Dict (κ × δ) ν

namespace Dated

variable {κ δ ν : Type*} [DecidableEq κ] [LinearOrder δ]

/-- The newest row of a key, of those whose day passes. -/
def newest (d : Dated κ δ ν) (p : δ → Bool) (k : κ) : Option (δ × ν) :=
  ((d.entries.filter fun e => e.1.1 = k && p e.1.2).argmax fun e => e.1.2).map fun e => (e.1.2, e.2)

/-- The newest row of a key. -/
def latest (d : Dated κ δ ν) (k : κ) : Option (δ × ν) := newest d (fun _ => true) k

/-- The newest row of a key before a day. -/
def latestBefore (d : Dated κ δ ν) (k : κ) (t : δ) : Option (δ × ν) := newest d (fun u => u < t) k

variable {d d' : Dated κ δ ν} {p q : δ → Bool} {k : κ} {t u : δ} {v : ν}

private theorem mem_rows {e : (κ × δ) × ν} :
    e ∈ d.entries.filter (fun e => e.1.1 = k && p e.1.2) ↔
      e.1.1 = k ∧ d.get? (k, e.1.2) = some e.2 ∧ p e.1.2 = true := by
  obtain ⟨⟨k', u⟩, v⟩ := e
  rw [List.mem_filter, Bool.and_eq_true, decide_eq_true_iff, Dict.mem_entries_iff]
  constructor
  · rintro ⟨hrow, rfl, hp⟩
    exact ⟨rfl, hrow, hp⟩
  · rintro ⟨rfl, hrow, hp⟩
    exact ⟨hrow, rfl, hp⟩

/-- **The newest row**: a row whose day passes, with none newer. -/
theorem newest_eq_some_iff : newest d p k = some (u, v) ↔
    d.get? (k, u) = some v ∧ p u = true ∧ ∀ u' v', d.get? (k, u') = some v' → p u' = true → u' ≤ u := by
  unfold newest
  rw [Option.map_eq_some_iff]
  constructor
  · rintro ⟨e, he, heq⟩
    obtain ⟨rfl, rfl⟩ := Prod.mk.inj heq
    obtain ⟨-, hrow, hp⟩ := mem_rows.mp (List.argmax_mem he)
    refine ⟨hrow, hp, fun u' v' hrow' hp' => ?_⟩
    have hmem : ((k, u'), v') ∈ d.entries.filter fun e => e.1.1 = k && p e.1.2 := mem_rows.mpr ⟨rfl, hrow', hp'⟩
    exact List.le_of_mem_argmax hmem he
  · rintro ⟨hrow, hp, hmax⟩
    have hmem : ((k, u), v) ∈ d.entries.filter fun e => e.1.1 = k && p e.1.2 := mem_rows.mpr ⟨rfl, hrow, hp⟩
    cases he : (d.entries.filter fun e => e.1.1 = k && p e.1.2).argmax fun e => e.1.2 with
    | none => exact absurd hmem (List.argmax_eq_none.mp he ▸ List.not_mem_nil)
    | some e =>
      obtain ⟨-, hrow', hp'⟩ := mem_rows.mp (List.argmax_mem he)
      have hday : e.1.2 = u := le_antisymm (hmax _ _ hrow' hp') (List.le_of_mem_argmax hmem he)
      refine ⟨e, rfl, ?_⟩
      rw [hday] at hrow'
      rw [hday, Option.some.inj (hrow'.symm.trans hrow)]

/-- The newest row depends on the rows whose day passes. -/
theorem newest_congr (h : ∀ u v, d.get? (k, u) = some v ∧ p u = true ↔ d'.get? (k, u) = some v ∧ q u = true) :
    newest d p k = newest d' q k := by
  refine Option.ext fun uv => ?_
  obtain ⟨u, v⟩ := uv
  rw [newest_eq_some_iff, newest_eq_some_iff, ← and_assoc, ← and_assoc, h u v]
  refine and_congr_right fun _ => forall₂_congr fun u' v' => ?_
  rw [← and_imp, ← and_imp, h u' v']

/-- The newest row of all is the newest before a later day. -/
theorem latestBefore_eq_latest (h : ∀ u v, d.get? (k, u) = some v → u < t) : latestBefore d k t = latest d k := by
  refine newest_congr fun u v => and_congr_right fun hrow => ?_
  simpa using h u v hrow

/-- The rows of a key before a day, one by one, the newest first. -/
def Chain (d : Dated κ δ ν) (k : κ) : List (δ × ν) → δ → Prop
  | [], t => latestBefore d k t = none
  | row :: rows, t => latestBefore d k t = some row ∧ Chain d k rows row.1

theorem lt_of_latestBefore (h : latestBefore d k t = some (u, v)) : u < t := by
  simpa using (newest_eq_some_iff.mp h).2.1

/-- Rows of that day or later do not matter. -/
theorem chain_congr : ∀ {rows : List (δ × ν)} {t : δ}, (∀ u, u < t → d.get? (k, u) = d'.get? (k, u)) →
    (Chain d k rows t ↔ Chain d' k rows t) := by
  have hlast : ∀ {t}, (∀ u, u < t → d.get? (k, u) = d'.get? (k, u)) → latestBefore d k t = latestBefore d' k t :=
    fun h => newest_congr fun u v => and_congr_left fun hu => by rw [h u (by simpa using hu)]
  intro rows
  induction rows with
  | nil =>
    intro t h
    rw [Chain, Chain, hlast h]
  | cons row rows ih =>
    intro t h
    rw [Chain, Chain, hlast h]
    refine and_congr_right fun hrow => ih fun u hu => h u (hu.trans ?_)
    exact lt_of_latestBefore hrow

/-- Nor does a later day, with no row between. -/
theorem chain_of_later {rows : List (δ × ν)} {t' : δ} (h : ∀ u v, d.get? (k, u) = some v → u < t ∧ u < t') :
    Chain d k rows t ↔ Chain d k rows t' := by
  have hlast : latestBefore d k t = latestBefore d k t' := by
    rw [latestBefore_eq_latest fun u v hrow => (h u v hrow).1, latestBefore_eq_latest fun u v hrow => (h u v hrow).2]
  cases rows <;> rw [Chain, Chain, hlast]

/-! ### The rows of one day -/

/-- The rows of a day. -/
def onDay (d : Dated κ δ ν) (t : δ) : Dict κ ν where
  entries := d.entries.filterMap fun e => if e.1.2 = t then some (e.1.1, e.2) else none
  nodup := by
    have hkeys : (d.entries.filterMap fun e => if e.1.2 = t then some (e.1.1, e.2) else none).map Prod.fst =
        (d.entries.map Prod.fst).filterMap fun c => if c.2 = t then some c.1 else none := by
      rw [List.map_filterMap, List.filterMap_map]
      refine List.filterMap_congr fun e _ => ?_
      by_cases h : e.1.2 = t <;> simp [h]
    rw [hkeys]
    refine d.nodup.filterMap fun c c' j hc hc' => ?_
    simp only [Option.mem_def, Option.ite_none_right_eq_some, Option.some.injEq] at hc hc'
    exact Prod.ext (hc.2.trans hc'.2.symm) (hc.1.trans hc'.1.symm)

theorem get?_onDay (d : Dated κ δ ν) (t : δ) (k : κ) : (onDay d t).get? k = d.get? (k, t) := by
  refine Option.ext fun v => ?_
  rw [← Dict.mem_entries_iff, ← Dict.mem_entries_iff]
  simp only [onDay, List.mem_filterMap, Option.ite_none_right_eq_some, Option.some.injEq, Prod.mk.injEq]
  constructor
  · rintro ⟨⟨⟨k', t'⟩, v'⟩, he, rfl, rfl, rfl⟩
    exact he
  · exact fun he => ⟨_, he, rfl, rfl, rfl⟩

/-- A row of another day leaves the rows of a day. -/
theorem onDay_set_of_ne (h : u ≠ t) (d : Dated κ δ ν) (k : κ) (v : ν) : onDay (d.set (k, u) v) t = onDay d t := by
  have hentries := Dict.filterMap_set (f := fun e : (κ × δ) × ν => if e.1.2 = t then some (e.1.1, e.2) else none)
    (k := (k, u)) (fun _ => if_neg h) d v
  unfold onDay
  congr 1

/-- The last day with a row before a day: `MAX(date) WHERE date < t`. -/
def dayBefore (d : Dated κ δ ν) (t : δ) : Option δ := ((d.keys.map Prod.snd).filter (· < t)).max?

theorem dayBefore_eq_some_iff : dayBefore d t = some u ↔
    (∃ k v, d.get? (k, u) = some v) ∧ u < t ∧ ∀ u' k v, d.get? (k, u') = some v → u' < t → u' ≤ u := by
  have hmem : ∀ w, w ∈ (d.keys.map Prod.snd).filter (· < t) ↔ (∃ k v, d.get? (k, w) = some v) ∧ w < t := by
    intro w
    rw [List.mem_filter, decide_eq_true_iff]
    refine and_congr_left fun _ => ?_
    simp only [Dict.keys, List.mem_map, ← Dict.mem_entries_iff]
    constructor
    · rintro ⟨_, ⟨⟨⟨k, w⟩, v⟩, he, rfl⟩, rfl⟩
      exact ⟨k, v, he⟩
    · rintro ⟨k, v, he⟩
      exact ⟨_, ⟨_, he, rfl⟩, rfl⟩
  rw [dayBefore, List.max?_eq_some_iff, hmem, and_assoc]
  refine and_congr_right fun _ => and_congr_right fun _ => ?_
  constructor
  · exact fun h u' k v hrow hlt => h u' ((hmem u').mpr ⟨⟨k, v, hrow⟩, hlt⟩)
  · rintro h u' hu'
    obtain ⟨⟨k, v, hrow⟩, hlt⟩ := (hmem u').mp hu'
    exact h u' k v hrow hlt

/-- A row of a later day leaves the last day before a day. -/
theorem dayBefore_set_of_le (h : t ≤ u) (d : Dated κ δ ν) (k : κ) (v : ν) :
    dayBefore (d.set (k, u) v) t = dayBefore d t := by
  have hget : ∀ w, w < t → ∀ j, (d.set (k, u) v).get? (j, w) = d.get? (j, w) := by
    intro w hw j
    rw [Dict.get?_set, if_neg]
    rintro hkey
    obtain ⟨-, rfl⟩ := Prod.mk.inj hkey
    exact absurd (hw.trans_le h) (lt_irrefl _)
  refine Option.ext fun w => ?_
  rw [dayBefore_eq_some_iff, dayBefore_eq_some_iff]
  constructor
  · rintro ⟨⟨j, x, hrow⟩, hlt, hmax⟩
    exact ⟨⟨j, x, hget w hlt j ▸ hrow⟩, hlt, fun u' j x hrow hlt => hmax u' j x ((hget u' hlt j).trans hrow) hlt⟩
  · rintro ⟨⟨j, x, hrow⟩, hlt, hmax⟩
    exact ⟨⟨j, x, (hget w hlt j).trans hrow⟩, hlt, fun u' j x hrow hlt => hmax u' j x (hget u' hlt j ▸ hrow) hlt⟩

/-- The rows of the last day before a day. -/
def before (d : Dated κ δ ν) (t : δ) : Option (δ × Dict κ ν) := (dayBefore d t).map fun u => (u, onDay d u)

/-- They are not changed by a row of a later day. -/
theorem before_set_of_le (h : t ≤ u) (d : Dated κ δ ν) (k : κ) (v : ν) : before (d.set (k, u) v) t = before d t := by
  rw [before, before, dayBefore_set_of_le h]
  refine Option.map_congr fun w hw => ?_
  have hne : u ≠ w := (((dayBefore_eq_some_iff.mp hw).2.1).trans_le h).ne'
  rw [onDay_set_of_ne hne]

end Dated

end NiftyShield.Lib
