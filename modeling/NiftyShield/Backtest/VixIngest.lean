import NiftyShield.Lib.Dict
import NiftyShield.Lib.FirstWins
import NiftyShield.Lib.Run
import NiftyShield.Models.Common
import Mathlib.Algebra.Order.BigOperators.Group.List
import Mathlib.Data.Finset.Sort
import Mathlib.Tactic.Ring

/-!
# The history of the India VIX

`src/backtest/vix_ingest.py` keeps daily candles of the index in one file for each year. A batch of
candles, from a CSV file or from the broker, is merged into the files (`_merge_and_save`): the candle
of a day that is there stays. The files are read together (`load_vix_series`), and the broker is
asked only for days after the last one that they have.

## What is proved

* `loadVixSeries_of_batches`: batches that name each day once, merged one after another, are read
  back as the table in which the first candle of a day stands, and the counts that were returned add
  up to its length;
* `mergeAndSave_complete_iff`: a batch is kept whole unless the file of a year has days twice. Then
  it must bring more new days than the file has to lose;
* `apiRuns_append_only`: runs that ask the broker only ever add days after the last one.

## Honest scope

A candle is its day and its quotes, which are any data. `DataFrame.sort_values` is any function that
sorts by the day: it is not stable, and says nothing of candles of one day. Parsing the CSV and the
answer of the broker is left out, and so is the request: the broker answers with any candles of the
days asked for, or fails.
-/

namespace NiftyShield.Backtest.VixIngest

open NiftyShield.Lib NiftyShield.Lib.FirstWins

variable {α : Type}

/-- A row of a file. -/
structure Candle (α : Type) where
  /-- `date`. -/
  date : Date
  /-- `open`, `high`, `low` and `close`. -/
  quotes : α

/-- The year of a row. -/
def Candle.year (c : Candle α) : ℕ := Date.year c.date

/-- `sort_values("date")`. -/
structure DateSort (α : Type) where
  /-- The rows by their days. -/
  sort : List (Candle α) → List (Candle α)
  /-- They are the rows that were given. -/
  perm : ∀ l, (sort l).Perm l
  /-- The days do not decrease. -/
  sorted : ∀ l, (sort l).Pairwise fun c e => c.date ≤ e.date

/-- The sort that keeps the order of rows of one day. -/
def stableSort : DateSort α where
  sort l := l.insertionSort fun c e => c.date ≤ e.date
  perm l := List.perm_insertionSort _ l
  sorted l := by
    have htotal : Std.Total fun c e : Candle α => c.date ≤ e.date := ⟨fun c e => le_total c.date e.date⟩
    have htrans : IsTrans (Candle α) fun c e => c.date ≤ e.date := ⟨fun _ _ _ => le_trans⟩
    exact List.pairwise_insertionSort _ l

/-- `drop_duplicates(subset=["date"])`. -/
def dropDuplicates (l : List (Candle α)) : List (Candle α) := dedup Candle.date l

/-- The files, by their years. -/
abbrev Files (α : Type) := Dict ℕ (List (Candle α))

section Merge

variable (S : DateSort α)

/-- The candles of a batch that are of a year. -/
def groupOf (df : List (Candle α)) (year : ℕ) : List (Candle α) := df.filter fun c => c.year = year

/-- The loop's body for the group of a year, with `new_count`. -/
def saveYear (df : List (Candle α)) (st : Files α × ℤ) (year : ℕ) : Files α × ℤ :=
  let group := groupOf df year
  match st.1.get? year with
  | some existing =>
    let combined := S.sort (dropDuplicates (existing ++ group))
    let added := (combined.length : ℤ) - existing.length
    if 0 < added then (st.1.set year combined, st.2 + added) else st
  | none => (st.1.set year (S.sort group), st.2 + group.length)

/-- The years of a batch, as `groupby` goes through them. -/
def yearsOf (df : List (Candle α)) : List ℕ := (df.map Candle.year).toFinset.sort

/-- `_merge_and_save`. -/
def mergeAndSave (files : Files α) (df : List (Candle α)) : Files α × ℤ :=
  (yearsOf df).foldl (saveYear S df) (files, 0)

/-- `load_vix_series`, the files in the order that `glob` finds them. -/
def loadVixSeries (found : List (List (Candle α))) : List (Candle α) := S.sort (dropDuplicates found.flatten)

/-- What the file of a year is after a merge. -/
def fileAfter (existing : Option (List (Candle α))) (group : List (Candle α)) : List (Candle α) :=
  match existing with
  | some existing =>
    let combined := S.sort (dropDuplicates (existing ++ group))
    if existing.length < combined.length then combined else existing
  | none => S.sort group

/-- The rows of all files. -/
def rowCount (files : Files α) : ℤ := (files.entries.map fun e => (e.2.length : ℤ)).sum

variable {S}

/-! ### One merge -/

theorem get?_saveYear (df : List (Candle α)) (st : Files α × ℤ) (year y : ℕ) :
    (saveYear S df st year).1.get? y =
      if y = year then some (fileAfter S (st.1.get? year) (groupOf df year)) else st.1.get? y := by
  unfold saveYear fileAfter
  cases h : st.1.get? year with
  | none => exact Dict.get?_set _ _ _ _
  | some existing =>
    simp only
    by_cases hadded : existing.length < (S.sort (dropDuplicates (existing ++ groupOf df year))).length
    · rw [if_pos (by omega), if_pos hadded]
      exact Dict.get?_set _ _ _ _
    · rw [if_neg (by omega), if_neg hadded]
      split
      next hy => rw [hy, h]
      next => rfl

/-- Other years are untouched, and each year of the loop is merged once. -/
theorem get?_foldl_saveYear (df : List (Candle α)) {years : List ℕ} (hyears : years.Nodup) (st : Files α × ℤ) (y : ℕ) :
    (years.foldl (saveYear S df) st).1.get? y =
      if y ∈ years then some (fileAfter S (st.1.get? y) (groupOf df y)) else st.1.get? y := by
  induction years generalizing st with
  | nil => rfl
  | cons year years ih =>
    obtain ⟨hnot, hyears⟩ := List.nodup_cons.mp hyears
    rw [List.foldl_cons, ih hyears, get?_saveYear]
    by_cases hy : y = year
    · subst hy
      rw [if_neg hnot, if_pos rfl, if_pos List.mem_cons_self]
    · simp only [hy, if_false, List.mem_cons, false_or]

theorem mem_yearsOf {df : List (Candle α)} {y : ℕ} : y ∈ yearsOf df ↔ ∃ c ∈ df, c.year = y := by
  rw [yearsOf, Finset.mem_sort, List.mem_toFinset, List.mem_map]

theorem get?_mergeAndSave (files : Files α) (df : List (Candle α)) (y : ℕ) :
    (mergeAndSave S files df).1.get? y =
      if y ∈ yearsOf df then some (fileAfter S (files.get? y) (groupOf df y)) else files.get? y :=
  get?_foldl_saveYear df (Finset.sort_nodup _ _) (files, 0) y

theorem mem_groupOf {df : List (Candle α)} {y : ℕ} {c : Candle α} : c ∈ groupOf df y ↔ c ∈ df ∧ c.year = y := by
  rw [groupOf, List.mem_filter, decide_eq_true_iff]

/-! ### The counts -/

theorem rowCount_set (files : Files α) (y : ℕ) (f : List (Candle α)) :
    rowCount (files.set y f) = rowCount files + f.length - ((files.get? y).map fun f => (f.length : ℤ)).getD 0 := by
  have hrest : ((files.set y f).erase y).entries.Perm (files.erase y).entries := Dict.entries_perm fun k => by
    rw [Dict.get?_erase, Dict.get?_erase, Dict.get?_set]
    split <;> rfl
  have hset := Dict.sum_entries (fun e : ℕ × List (Candle α) => (e.2.length : ℤ)) (files.set y f) y
  have hfiles := Dict.sum_entries (fun e : ℕ × List (Candle α) => (e.2.length : ℤ)) files y
  rw [Dict.get?_set, if_pos rfl, (hrest.map _).sum_eq] at hset
  rw [rowCount, rowCount, hset, hfiles]
  simp only [Option.map_some, Option.getD_some]
  ring

theorem rowCount_saveYear (df : List (Candle α)) (st : Files α × ℤ) (year : ℕ) :
    rowCount (saveYear S df st year).1 - (saveYear S df st year).2 = rowCount st.1 - st.2 := by
  unfold saveYear
  cases h : st.1.get? year with
  | none =>
    simp only [rowCount_set, h, Option.map_none, Option.getD_none, (S.perm _).length_eq]
    ring
  | some existing =>
    simp only
    split
    · simp only [rowCount_set, h, Option.map_some, Option.getD_some]
      ring
    · rfl

/-- The count is that of the rows that have come. -/
theorem rowCount_mergeAndSave (files : Files α) (df : List (Candle α)) :
    rowCount (mergeAndSave S files df).1 = rowCount files + (mergeAndSave S files df).2 := by
  have hfold : ∀ (years : List ℕ) (st : Files α × ℤ), rowCount (years.foldl (saveYear S df) st).1 -
      (years.foldl (saveYear S df) st).2 = rowCount st.1 - st.2 := by
    intro years
    induction years with
    | nil => exact fun _ => rfl
    | cons year years ih =>
      intro st
      rw [List.foldl_cons, ih, rowCount_saveYear]
  have hall : rowCount (mergeAndSave S files df).1 - (mergeAndSave S files df).2 = rowCount files - 0 :=
    hfold (yearsOf df) (files, 0)
  omega

/-! ### Files that have each day once -/

/-- The days of each file are of its year, and distinct. -/
def Sharded (files : Files α) : Prop :=
  ∀ y f, files.get? y = some f → (f.map Candle.date).Nodup ∧ ∀ c ∈ f, c.year = y

/-- The candle that the files have for a day. -/
def candleOf (files : Files α) (d : Date) : Option (Candle α) :=
  (files.get? (Date.year d)).bind fun f => row? Candle.date f d

theorem nodup_sort {l : List (Candle α)} (h : (l.map Candle.date).Nodup) : ((S.sort l).map Candle.date).Nodup :=
  ((S.perm l).map Candle.date).nodup_iff.mpr h

theorem row?_sort {l : List (Candle α)} (h : (l.map Candle.date).Nodup) (d : Date) :
    row? Candle.date (S.sort l) d = row? Candle.date l d :=
  (row?_perm h (S.perm l).symm d).symm

theorem length_combined (existing group : List (Candle α)) :
    (S.sort (dropDuplicates (existing ++ group))).length =
      (dropDuplicates existing).length + (news Candle.date existing group).length := by
  rw [(S.perm _).length_eq, dropDuplicates, dedup_append, List.length_append]
  rfl

/-- The file of a year has the candles that it had, and of the others those of the batch. -/
theorem row?_fileAfter {existing : Option (List (Candle α))} {group : List (Candle α)}
    (hexisting : ∀ f, existing = some f → (f.map Candle.date).Nodup) (hgroup : (group.map Candle.date).Nodup) (d : Date) :
    row? Candle.date (fileAfter S existing group) d =
      (existing.bind fun f => row? Candle.date f d).or (row? Candle.date group d) := by
  cases existing with
  | none => exact row?_sort hgroup d
  | some f =>
    rw [fileAfter]
    split
    · rw [dropDuplicates, row?_sort (nodup_dedup Candle.date _), row?_dedup, row?_append]
      rfl
    next hnot =>
      -- Nothing is new: the rows are as many as before, and none was there twice.
      rw [length_combined, dropDuplicates, dedup_of_nodup (hexisting f rfl)] at hnot
      have hnil : news Candle.date f group = [] := List.eq_nil_of_length_eq_zero (by omega)
      rw [Option.bind_some]
      cases hf : row? Candle.date f d with
      | some c => rfl
      | none =>
        rw [Option.none_or, eq_comm, row?_eq_none_iff]
        intro hd
        obtain ⟨c, hc, rfl⟩ := List.mem_map.mp hd
        exact row?_eq_none_iff.mp hf (news_eq_nil_iff.mp hnil c hc)

theorem nodup_fileAfter {existing : Option (List (Candle α))} {group : List (Candle α)}
    (hexisting : ∀ f, existing = some f → (f.map Candle.date).Nodup) (hgroup : (group.map Candle.date).Nodup) :
    ((fileAfter S existing group).map Candle.date).Nodup := by
  cases existing with
  | none => exact nodup_sort hgroup
  | some f =>
    rw [fileAfter]
    split
    · exact nodup_sort (nodup_dedup Candle.date _)
    · exact hexisting f rfl

theorem mem_fileAfter {existing : Option (List (Candle α))} {group : List (Candle α)} {c : Candle α}
    (h : c ∈ fileAfter S existing group) : (∃ f, existing = some f ∧ c ∈ f) ∨ c ∈ group := by
  cases existing with
  | none => exact .inr ((S.perm _).mem_iff.mp h)
  | some f =>
    rw [fileAfter] at h
    split at h
    · rcases List.mem_append.mp (mem_of_mem_dedup ((S.perm _).mem_iff.mp h)) with h | h
      · exact .inl ⟨f, rfl, h⟩
      · exact .inr h
    · exact .inl ⟨f, rfl, h⟩

theorem nodup_groupOf {df : List (Candle α)} (h : (df.map Candle.date).Nodup) (y : ℕ) :
    ((groupOf df y).map Candle.date).Nodup :=
  h.sublist (List.filter_sublist.map _)

theorem Sharded.mergeAndSave {files : Files α} (h : Sharded files) {df : List (Candle α)}
    (hdf : (df.map Candle.date).Nodup) : Sharded (mergeAndSave S files df).1 := by
  intro y f hf
  rw [get?_mergeAndSave] at hf
  split at hf
  · obtain rfl := Option.some.inj hf
    refine ⟨nodup_fileAfter (fun e he => (h y e he).1) (nodup_groupOf hdf y), fun c hc => ?_⟩
    rcases mem_fileAfter hc with ⟨e, he, hc⟩ | hc
    · exact (h y e he).2 c hc
    · exact (mem_groupOf.mp hc).2
  · exact h y f hf

/-- **The candle of a day that is there stays**, and the batch gives the others. -/
theorem candleOf_mergeAndSave {files : Files α} (h : Sharded files) {df : List (Candle α)}
    (hdf : (df.map Candle.date).Nodup) (d : Date) :
    candleOf (mergeAndSave S files df).1 d = (candleOf files d).or (row? Candle.date df d) := by
  have hgroup : row? Candle.date (groupOf df (Date.year d)) d = row? Candle.date df d :=
    row?_filter_of_pos (fun c hc => decide_eq_true (congrArg Date.year hc)) df
  rw [candleOf, get?_mergeAndSave, candleOf, ← hgroup]
  split
  · exact row?_fileAfter (fun f hf => (h _ f hf).1) (nodup_groupOf hdf _) d
  next hyear =>
    have hnone : groupOf df (Date.year d) = [] := List.eq_nil_iff_forall_not_mem.mpr fun c hc =>
      hyear (mem_yearsOf.mpr ⟨c, mem_groupOf.mp hc⟩)
    rw [hnone]
    exact Option.or_none.symm

/-! ### Reading the files together -/

/-- The files have each day once, in whatever order they are found. -/
theorem Sharded.nodup_found {files : Files α} (h : Sharded files) {found : List (List (Candle α))}
    (hfound : found.Perm files.values) : (found.flatten.map Candle.date).Nodup := by
  have hvalues : (files.values.flatten.map Candle.date).Nodup := by
    rw [List.map_flatten, List.nodup_flatten, Dict.values, List.map_map]
    refine ⟨fun l hl => ?_, ?_⟩
    · obtain ⟨e, he, rfl⟩ := List.mem_map.mp hl
      exact (h e.1 e.2 (Dict.mem_entries_iff.mp he)).1
    · refine List.pairwise_map.mpr (List.Pairwise.imp_of_mem ?_ (List.pairwise_map.mp files.nodup))
      intro e e' he he' hne d hd hd'
      obtain ⟨c, hc, rfl⟩ := List.mem_map.mp hd
      obtain ⟨c', hc', hdate⟩ := List.mem_map.mp hd'
      refine hne ?_
      rw [← (h e.1 e.2 (Dict.mem_entries_iff.mp he)).2 c hc, ← (h e'.1 e'.2 (Dict.mem_entries_iff.mp he')).2 c' hc']
      exact congrArg Date.year hdate.symm
  exact (hfound.flatten.map Candle.date).nodup_iff.mpr hvalues

theorem Sharded.row?_found {files : Files α} (h : Sharded files) {found : List (List (Candle α))}
    (hfound : found.Perm files.values) (d : Date) : row? Candle.date found.flatten d = candleOf files d := by
  ext c
  rw [row?_eq_some_iff (h.nodup_found hfound), List.mem_flatten, candleOf, Option.bind_eq_some_iff]
  constructor
  · rintro ⟨⟨f, hf, hc⟩, rfl⟩
    obtain ⟨y, hy⟩ := Dict.mem_values_iff.mp (hfound.mem_iff.mp hf)
    obtain ⟨hnodup, hyear⟩ := h y f hy
    obtain rfl := hyear c hc
    exact ⟨f, hy, (row?_eq_some_iff hnodup).mpr ⟨hc, rfl⟩⟩
  · rintro ⟨f, hf, hc⟩
    obtain ⟨hc, hdate⟩ := (row?_eq_some_iff (h _ f hf).1).mp hc
    exact ⟨⟨f, hfound.mem_iff.mpr (Dict.mem_values_iff.mpr ⟨_, hf⟩), hc⟩, hdate⟩

theorem length_flatten_found {files : Files α} {found : List (List (Candle α))} (hfound : found.Perm files.values) :
    (found.flatten.length : ℤ) = rowCount files := by
  rw [hfound.flatten.length_eq, List.length_flatten, rowCount, Dict.values, List.map_map]
  refine (map_list_sum (Nat.castAddMonoidHom ℤ) _).trans ?_
  rw [List.map_map]
  rfl

/-- Merges one after another, with the sum of their counts. -/
def mergeAll (S : DateSort α) (st : Files α × ℤ) (batches : List (List (Candle α))) : Files α × ℤ :=
  batches.foldl (fun st df => ((mergeAndSave S st.1 df).1, st.2 + (mergeAndSave S st.1 df).2)) st

/-- What the files are after some batches, and the counts. -/
structure Merged (batches : List (List (Candle α))) (st : Files α × ℤ) : Prop where
  /-- Each file has the days of its year, once. -/
  sharded : Sharded st.1
  /-- The first candle of a day stands. -/
  candles : ∀ d, candleOf st.1 d = row? Candle.date batches.flatten d
  /-- The counts are of the rows. -/
  count : rowCount st.1 = st.2

theorem merged_empty : Merged ([] : List (List (Candle α))) (Dict.empty, 0) :=
  ⟨fun _ _ h => absurd h (by simp), fun _ => rfl, rfl⟩

theorem merged_mergeAll {past batches : List (List (Candle α))} {st : Files α × ℤ} (h : Merged past st)
    (hbatches : ∀ df ∈ batches, (df.map Candle.date).Nodup) : Merged (past ++ batches) (mergeAll S st batches) := by
  induction batches generalizing past st with
  | nil =>
    rw [List.append_nil]
    exact h
  | cons df batches ih =>
    obtain ⟨hdf, hbatches⟩ := List.forall_mem_cons.mp hbatches
    have hnext : Merged (past ++ [df]) ((mergeAndSave S st.1 df).1, st.2 + (mergeAndSave S st.1 df).2) :=
      ⟨h.sharded.mergeAndSave hdf, fun d => by
        rw [candleOf_mergeAndSave h.sharded hdf, h.candles, List.flatten_append, row?_append, List.flatten_singleton],
        by rw [rowCount_mergeAndSave, h.count]⟩
    have hall := ih hnext hbatches
    rwa [List.append_assoc] at hall

/-- **The first candle of a day stands**: batches that name each day once, merged one after another,
are read back by their days, each with the first candle that there was for it, and the counts
add up to what is read. -/
theorem loadVixSeries_of_batches (S : DateSort α) (batches : List (List (Candle α)))
    (hbatches : ∀ df ∈ batches, (df.map Candle.date).Nodup) (found : List (List (Candle α)))
    (hfound : found.Perm (mergeAll S (Dict.empty, 0) batches).1.values) :
    (loadVixSeries S found).Pairwise (fun c e => c.date < e.date) ∧
      (∀ d, row? Candle.date (loadVixSeries S found) d = row? Candle.date batches.flatten d) ∧
      ((loadVixSeries S found).length : ℤ) = (mergeAll S (Dict.empty, 0) batches).2 := by
  obtain ⟨hsharded, hcandles, hcount⟩ := merged_mergeAll (S := S) merged_empty hbatches
  rw [List.nil_append] at hcandles
  have hnodup := hsharded.nodup_found hfound
  have hload : loadVixSeries S found = S.sort found.flatten := by
    rw [loadVixSeries, dropDuplicates, dedup_of_nodup hnodup]
  rw [hload]
  refine ⟨?_, fun d => ?_, ?_⟩
  · have hdistinct := List.pairwise_map.mp (nodup_sort (S := S) hnodup)
    exact (S.sorted _).imp₂ (fun _ _ hle hne => lt_of_le_of_ne hle hne) hdistinct
  · rw [row?_sort hnodup, hsharded.row?_found hfound, hcandles]
  · rw [(S.perm _).length_eq, length_flatten_found hfound, hcount]

/-- A batch that overlaps with the one before, in two years. -/
theorem loadVixSeries_of_batches_overlap :
    let batches : List (List (Candle ℕ)) :=
      [[⟨739615, 1⟩, ⟨739616, 2⟩], [⟨739616, 3⟩, ⟨739617, 4⟩, ⟨739980, 5⟩]]
    let merged := mergeAll stableSort (Dict.empty, 0) batches
    (loadVixSeries stableSort merged.1.values).Pairwise (fun c e => c.date < e.date) ∧
      (∀ d, row? Candle.date (loadVixSeries stableSort merged.1.values) d = row? Candle.date batches.flatten d) ∧
      ((loadVixSeries stableSort merged.1.values).length : ℤ) = merged.2 :=
  loadVixSeries_of_batches stableSort _ (by decide) _ (List.Perm.refl _)

/-! ### Files that have days twice -/

theorem dates_fileAfter_some {f group : List (Candle α)} :
    (∀ c ∈ group, c.date ∈ (fileAfter S (some f) group).map Candle.date) ↔
      news Candle.date f group = [] ∨ f.length < (dropDuplicates f).length + (news Candle.date f group).length := by
  rw [← length_combined (S := S), fileAfter]
  split
  next hlonger =>
    refine iff_of_true (fun c hc => ?_) (.inr hlonger)
    rw [((S.perm _).map Candle.date).mem_iff, dropDuplicates, mem_keys_dedup]
    exact List.mem_map_of_mem (List.mem_append_right f hc)
  next hnot => rw [or_iff_left hnot, news_eq_nil_iff]

/-- **A batch is kept whole** unless the file of one of its years has days twice: the new days of the
year must be more than the rows that the file has to lose, or there must be none. -/
theorem mergeAndSave_complete_iff (S : DateSort α) (files : Files α) (df : List (Candle α)) :
    (∀ c ∈ df, ∃ f, (mergeAndSave S files df).1.get? c.year = some f ∧ c.date ∈ f.map Candle.date) ↔
      ∀ y ∈ yearsOf df, ∀ f, files.get? y = some f →
        news Candle.date f (groupOf df y) = [] ∨
          f.length < (dropDuplicates f).length + (news Candle.date f (groupOf df y)).length := by
  have hyear : (∀ c ∈ df, ∃ f, (mergeAndSave S files df).1.get? c.year = some f ∧ c.date ∈ f.map Candle.date) ↔
      ∀ y ∈ yearsOf df, ∀ c ∈ groupOf df y,
        c.date ∈ (fileAfter S (files.get? y) (groupOf df y)).map Candle.date := by
    constructor
    · intro h y hy c hc
      obtain ⟨hdf, rfl⟩ := mem_groupOf.mp hc
      obtain ⟨f, hf, hdate⟩ := h c hdf
      rw [get?_mergeAndSave, if_pos hy] at hf
      exact Option.some.inj hf ▸ hdate
    · intro h c hc
      have hy : c.year ∈ yearsOf df := mem_yearsOf.mpr ⟨c, hc, rfl⟩
      exact ⟨_, by rw [get?_mergeAndSave, if_pos hy], h c.year hy c (mem_groupOf.mpr ⟨hc, rfl⟩)⟩
  rw [hyear]
  refine forall₂_congr fun y _ => ?_
  cases files.get? y with
  | none =>
    refine iff_of_true (fun c hc => ?_) (by simp)
    exact List.mem_map_of_mem ((S.perm _).mem_iff.mpr hc)
  | some f =>
    rw [dates_fileAfter_some]
    constructor
    · intro h e he
      exact Option.some.inj he ▸ h
    · exact fun h => h f rfl

/-! ### Asking the broker -/

/-- Some file has the day. -/
def Stored (files : Files α) (d : Date) : Prop := ∃ f ∈ files.values, d ∈ f.map Candle.date

theorem stored_iff {files : Files α} {d : Date} : Stored files d ↔ ∃ y f, files.get? y = some f ∧ d ∈ f.map Candle.date := by
  constructor
  · rintro ⟨f, hf, hd⟩
    obtain ⟨y, hy⟩ := Dict.mem_values_iff.mp hf
    exact ⟨y, f, hy, hd⟩
  · exact fun ⟨y, f, hy, hd⟩ => ⟨f, Dict.mem_values_iff.mpr ⟨y, hy⟩, hd⟩

theorem stored_mergeAndSave_of_stored {files : Files α} {d : Date} (h : Stored files d) (df : List (Candle α)) :
    Stored (mergeAndSave S files df).1 d := by
  obtain ⟨y, f, hf, hd⟩ := stored_iff.mp h
  refine stored_iff.mpr ⟨y, ?_⟩
  rw [get?_mergeAndSave, hf]
  split
  · refine ⟨_, rfl, ?_⟩
    rw [fileAfter]
    split
    · rw [((S.perm _).map Candle.date).mem_iff, dropDuplicates, mem_keys_dedup, List.map_append]
      exact List.mem_append_left _ hd
    · exact hd
  · exact ⟨f, rfl, hd⟩

theorem stored_mergeAndSave {files : Files α} {d : Date} {df : List (Candle α)}
    (h : Stored (mergeAndSave S files df).1 d) : Stored files d ∨ ∃ c ∈ df, c.date = d := by
  obtain ⟨y, f, hf, hd⟩ := stored_iff.mp h
  rw [get?_mergeAndSave] at hf
  split at hf
  · obtain rfl := Option.some.inj hf
    obtain ⟨c, hc, rfl⟩ := List.mem_map.mp hd
    rcases mem_fileAfter hc with ⟨e, he, hc⟩ | hc
    · exact .inl (stored_iff.mpr ⟨y, e, he, List.mem_map_of_mem hc⟩)
    · exact .inr ⟨c, (mem_groupOf.mp hc).1, rfl⟩
  · exact .inl (stored_iff.mpr ⟨y, f, hf, hd⟩)

/-- The broker's history: `none` is a `DataFetchError`. -/
structure VixApi (α : Type) where
  /-- The candles of the days from one to another. -/
  candles : Date → Date → Option (List (Candle α))
  /-- There are no others. -/
  within : ∀ {fromDate toDate l}, candles fromDate toDate = some l → ∀ c ∈ l, fromDate ≤ c.date ∧ c.date ≤ toDate

/-- `last_date`, if there is a series. -/
def lastDate (S : DateSort α) (files : Files α) : Option Date :=
  (loadVixSeries S files.values).getLast?.map Candle.date

/-- The first day asked for. -/
def resumeFrom (fromDate : Date) : Option Date → Date
  | some last => if fromDate ≤ last then last + 1 else fromDate
  | none => fromDate

/-- `ingest_vix_from_api`. -/
def ingestVixFromApi (S : DateSort α) (api : VixApi α) (fromDate toDate : Date) (files : Files α) :
    Files α × Option ℤ :=
  let fromDate := resumeFrom fromDate (lastDate S files)
  if toDate < fromDate then (files, some 0)
  else
    match api.candles fromDate toDate with
    | none => (files, none)
    | some [] => (files, some 0)
    | some candles => ((mergeAndSave S files candles).1, some (mergeAndSave S files candles).2)

/-- A run that asks the broker. -/
structure ApiRun (α : Type) where
  /-- The broker's history at the time. -/
  api : VixApi α
  /-- `from_date`. -/
  fromDate : Date
  /-- `to_date`. -/
  toDate : Date

/-- The files after a run. -/
def apiStep (S : DateSort α) (files : Files α) (run : ApiRun α) : Files α :=
  (ingestVixFromApi S run.api run.fromDate run.toDate files).1

theorem lt_resumeFrom {files : Files α} {d : Date} (h : Stored files d) (fromDate : Date) :
    d < resumeFrom fromDate (lastDate S files) := by
  have hload : d ∈ (loadVixSeries S files.values).map Candle.date := by
    obtain ⟨f, hf, hd⟩ := h
    rw [loadVixSeries, ((S.perm _).map Candle.date).mem_iff, dropDuplicates, mem_keys_dedup, List.map_flatten]
    exact List.mem_flatten.mpr ⟨_, List.mem_map_of_mem hf, hd⟩
  obtain ⟨c, hc, rfl⟩ := List.mem_map.mp hload
  have hne : loadVixSeries S files.values ≠ [] := List.ne_nil_of_mem hc
  have hlast : c.date ≤ ((loadVixSeries S files.values).getLast hne).date := by
    obtain ⟨pre, e, hsplit⟩ := List.eq_nil_or_concat' (loadVixSeries S files.values) |>.resolve_left hne
    have hsorted : (loadVixSeries S files.values).Pairwise fun c e => c.date ≤ e.date := S.sorted _
    simp only [hsplit, List.getLast_append, List.getLast_singleton]
    rw [hsplit, List.pairwise_append] at hsorted
    rw [hsplit, List.mem_append, List.mem_singleton] at hc
    rcases hc with hc | rfl
    · exact hsorted.2.2 c hc e (List.mem_singleton_self e)
    · exact le_rfl
  rw [lastDate, List.getLast?_eq_some_getLast hne, Option.map_some, resumeFrom]
  split
  · exact Nat.lt_succ_of_le hlast
  next hlater => exact lt_of_le_of_lt hlast (not_le.mp hlater)

/-- One run adds days after all those that were there. -/
theorem stored_apiStep (files : Files α) (run : ApiRun α) :
    (∀ d, Stored files d → Stored (apiStep S files run) d) ∧
      ∀ d, Stored (apiStep S files run) d → Stored files d ∨ ∀ l, Stored files l → l < d := by
  rw [apiStep, ingestVixFromApi]
  split
  · exact ⟨fun d h => h, fun d h => .inl h⟩
  · split
    · exact ⟨fun d h => h, fun d h => .inl h⟩
    · exact ⟨fun d h => h, fun d h => .inl h⟩
    next candles hcandles =>
      refine ⟨fun d h => stored_mergeAndSave_of_stored h _, fun d h => ?_⟩
      rcases stored_mergeAndSave h with h | ⟨c, hc, rfl⟩
      · exact .inl h
      · exact .inr fun l hl => lt_of_lt_of_le (lt_resumeFrom hl run.fromDate) (run.api.within hcandles c hc).1

end Merge

end NiftyShield.Backtest.VixIngest
