import NiftyShield.Lib.Retention
import NiftyShield.Lib.Run
import NiftyShield.Models.Calendar
import Mathlib.Data.Finset.Sort

/-!
# Backups of the database

`scripts/portfolio/backup_db.py` makes a backup of the database and then deletes the backups that
are no longer wanted: it keeps the newest of each of the last 30 days that have one, and the newest
of each of the last 12 months that have one. It only ever sees the files that its earlier runs have
left, and a run that fails half way leaves some of the files that it should have deleted.

## What is proved

* `mem_pruneBackups_iff`: what `prune_backups` keeps, said of the set of files instead of the two
  dictionaries that the code fills;
* `backups_of_history`: after any runs of the script, whenever the clock said they were and wherever
  they broke off, the files there are among those ever made, with all that is to be kept of these;
* `pruneBackups_of_history`, `final_of_complete`: so pruning them gives what pruning all files ever
  made would give, and that is what a run leaves that comes to its end;
* `card_pruneBackups_le`, `latest_mem_pruneBackups`: how much is kept at most, and at least.

## Honest scope

A backup is the time in its name; what is in the file is left out, and so is a backup that breaks
off before it is complete: its file has the name already. Other files of the directory, with names
that do not parse, are never touched.
-/

namespace NiftyShield.Portfolio.Backups

open NiftyShield.Lib

/-- The time in a backup's name, in seconds from the first day of year 1. -/
abbrev Stamp := ℕ

namespace Stamp

/-- The date of the time. -/
def date (dt : Stamp) : Date := dt / 86400 + 1

/-- `dt.strftime("%Y%m%d")`: the days in their order. -/
def dayKey (dt : Stamp) : ℕ := dt.date

/-- `dt.strftime("%Y%m")`: the months in their order. -/
def monthKey (dt : Stamp) : ℕ := Date.monthIndex (Date.year dt.date) (Date.month dt.date)

theorem date_mono : Monotone date := fun _ _ h => Nat.succ_le_succ (Nat.div_le_div_right h)

theorem dayKey_mono : Monotone dayKey := date_mono

theorem monthKey_mono : Monotone monthKey := fun _ _ h =>
  (Date.inMonth_toYmd (Nat.succ_pos _)).monthIndex_le (Date.inMonth_toYmd (Nat.succ_pos _)) (date_mono h)

end Stamp

/-- The files of the directory that are backups. -/
abbrev Directory := Finset Stamp

/-! ### `prune_backups` -/

/-- The backups, the newest first. -/
def sorted (dir : Directory) : List Stamp := dir.sort (· ≥ ·)

/-- One turn of the loop that fills `daily_candidates` and `monthly_candidates`. -/
def addCandidate (found : Dict ℕ Stamp × Dict ℕ Stamp) (dt : Stamp) : Dict ℕ Stamp × Dict ℕ Stamp :=
  (if dt.dayKey ∉ found.1.keys then found.1.set dt.dayKey dt else found.1,
    if dt.monthKey ∉ found.2.keys then found.2.set dt.monthKey dt else found.2)

/-- The candidates of each day and of each month. -/
def candidates (backups : List Stamp) : Dict ℕ Stamp × Dict ℕ Stamp :=
  backups.foldl addCandidate (Dict.empty, Dict.empty)

/-- `retained_all`. -/
def retainedAll (backups : List Stamp) (dailyKeep monthlyKeep : ℕ) : Finset Stamp :=
  let found := candidates backups
  (found.1.values.take dailyKeep).toFinset ∪ (found.2.values.take monthlyKeep).toFinset

/-- The files that are deleted, in order. -/
def deletions (dir : Directory) (dailyKeep monthlyKeep : ℕ) : List Stamp :=
  (sorted dir).filter fun dt => dt ∉ retainedAll (sorted dir) dailyKeep monthlyKeep

/-- The directory after some files are deleted. -/
def unlink (dir : Directory) (files : List Stamp) : Directory := files.foldl Finset.erase dir

/-- `prune_backups`. -/
def pruneBackups (dir : Directory) (dailyKeep monthlyKeep : ℕ) : Directory :=
  unlink dir (deletions dir dailyKeep monthlyKeep)

/-- The newest backup of each of the last days, and the newest of each of the last months. -/
def retention (dailyKeep monthlyKeep : ℕ) : Policy Stamp :=
  (newest Stamp.dayKey dailyKeep).or (newest Stamp.monthKey monthlyKeep)

/-- The loop fills each of the dictionaries as if there were no other. -/
theorem candidates_eq (backups : List Stamp) :
    candidates backups = (firsts Stamp.dayKey backups, firsts Stamp.monthKey backups) := by
  have hfold : ∀ found, backups.foldl addCandidate found =
      (backups.foldl (fun d dt => if dt.dayKey ∉ d.keys then d.set dt.dayKey dt else d) found.1,
        backups.foldl (fun m dt => if dt.monthKey ∉ m.keys then m.set dt.monthKey dt else m) found.2) := by
    induction backups with
    | nil => exact fun _ => rfl
    | cons dt backups ih => exact fun found => ih (addCandidate found dt)
  exact hfold _

theorem sorted_desc (dir : Directory) : (sorted dir).Pairwise (· > ·) := (Finset.sortedGT_sort dir).pairwise

/-- What the code keeps is what the policy keeps. -/
theorem retainedAll_sorted (dir : Directory) (dailyKeep monthlyKeep : ℕ) :
    retainedAll (sorted dir) dailyKeep monthlyKeep = (retention dailyKeep monthlyKeep).keep dir := by
  have hdir : (sorted dir).toFinset = dir := Finset.sort_toFinset dir (· ≥ ·)
  ext dt
  rw [retainedAll, candidates_eq, Finset.mem_union, List.mem_toFinset, List.mem_toFinset,
    mem_take_firsts Stamp.dayKey_mono (sorted_desc dir), mem_take_firsts Stamp.monthKey_mono (sorted_desc dir), hdir]
  exact Finset.mem_union.symm

theorem mem_unlink {dir : Directory} {files : List Stamp} {dt : Stamp} :
    dt ∈ unlink dir files ↔ dt ∈ dir ∧ dt ∉ files := by
  induction files generalizing dir with
  | nil => simp [unlink]
  | cons file files ih =>
    rw [unlink, List.foldl_cons, ← unlink, ih, Finset.mem_erase, List.mem_cons]
    tauto

theorem mem_deletions {dir : Directory} {d m : ℕ} {dt : Stamp} :
    dt ∈ deletions dir d m ↔ dt ∈ dir ∧ dt ∉ (retention d m).keep dir := by
  rw [deletions, List.mem_filter, decide_eq_true_iff, retainedAll_sorted]
  exact and_congr_left' (Finset.mem_sort _)

theorem pruneBackups_eq (dir : Directory) (d m : ℕ) : pruneBackups dir d m = (retention d m).keep dir := by
  ext dt
  rw [pruneBackups, mem_unlink, mem_deletions]
  constructor
  · rintro ⟨hdir, hnot⟩
    by_contra hkeep
    exact hnot ⟨hdir, hkeep⟩
  · exact fun hkeep => ⟨(retention d m).keep_sub dir hkeep, fun h => h.2 hkeep⟩

/-- **What `prune_backups` keeps**: the newest backup of a day, if fewer than `dailyKeep` later days
have one, and the newest of a month, if fewer than `monthlyKeep` later months have one. -/
theorem mem_pruneBackups_iff (dir : Directory) (dailyKeep monthlyKeep : ℕ) (dt : Stamp) :
    dt ∈ pruneBackups dir dailyKeep monthlyKeep ↔ dt ∈ dir ∧
      (((∀ b ∈ dir, b.dayKey = dt.dayKey → b ≤ dt) ∧
          ((dir.image Stamp.dayKey).filter (dt.dayKey < ·)).card < dailyKeep) ∨
        ((∀ b ∈ dir, b.monthKey = dt.monthKey → b ≤ dt) ∧
          ((dir.image Stamp.monthKey).filter (dt.monthKey < ·)).card < monthlyKeep)) := by
  rw [pruneBackups_eq, and_or_left]
  exact Finset.mem_union.trans (or_congr mem_keepNewest mem_keepNewest)

theorem card_pruneBackups_le (dir : Directory) (dailyKeep monthlyKeep : ℕ) :
    (pruneBackups dir dailyKeep monthlyKeep).card ≤ dailyKeep + monthlyKeep := by
  rw [pruneBackups_eq]
  exact (Finset.card_union_le _ _).trans (Nat.add_le_add (card_newest_le dir) (card_newest_le dir))

/-- The latest backup of all is never deleted. -/
theorem latest_mem_pruneBackups {dir : Directory} {dt : Stamp} (hdt : dt ∈ dir) (hlatest : ∀ b ∈ dir, b ≤ dt)
    {dailyKeep : ℕ} (hkeep : 0 < dailyKeep) (monthlyKeep : ℕ) : dt ∈ pruneBackups dir dailyKeep monthlyKeep := by
  rw [pruneBackups_eq]
  exact Finset.mem_union_left _ (max_mem_newest Stamp.dayKey_mono hkeep hdt hlatest)

/-! ### The script, run after run -/

/-- A run of the script. -/
structure Invocation where
  /-- The clock. -/
  now : Stamp
  /-- Whether the database is where it should be. -/
  sourceExists : Bool
  /-- The files that it deletes before it breaks off, if it does. -/
  unlinked : ℕ

/-- `main`, with the window that it asks for. -/
def main (dir : Directory) (run : Invocation) : Directory :=
  if run.sourceExists then
    let dir := insert run.now dir
    unlink dir ((deletions dir 30 12).take run.unlinked)
  else dir

/-- The backups that there have ever been. -/
def everMade (dir : Directory) (runs : List Invocation) : Directory :=
  dir ∪ ((runs.filter (·.sourceExists)).map (·.now)).toFinset

theorem everMade_cons (dir : Directory) (run : Invocation) (runs : List Invocation) :
    everMade dir (run :: runs) = everMade (if run.sourceExists then insert run.now dir else dir) runs := by
  cases h : run.sourceExists <;> simp [everMade, h]

/-- One run keeps what is to be kept of the backups that there have ever been. -/
theorem holds_main {history dir : Directory} (h : (retention 30 12).Holds history dir) (run : Invocation) :
    (retention 30 12).Holds (if run.sourceExists then insert run.now history else history) (main dir run) := by
  rw [main]
  cases run.sourceExists with
  | false => exact h
  | true =>
    have hnew : (retention 30 12).Holds (insert run.now history) (insert run.now dir) := by
      rw [Finset.insert_eq, Finset.insert_eq, Finset.union_comm, Finset.union_comm {run.now}]
      exact h.add {run.now}
    refine hnew.prune (fun dt hdt => mem_unlink.mpr ⟨(retention 30 12).keep_sub _ hdt, fun htake => ?_⟩)
      fun dt hdt => (mem_unlink.mp hdt).1
    exact (mem_deletions.mp (List.mem_of_mem_take htake)).2 hdt

theorem holds_final {history dir : Directory} (h : (retention 30 12).Holds history dir) (runs : List Invocation) :
    (retention 30 12).Holds (everMade history runs) (Run.final main dir runs) := by
  induction runs generalizing history dir with
  | nil =>
    rw [everMade, List.filter_nil, List.map_nil, List.toFinset_nil, Finset.union_empty]
    exact h
  | cons run runs ih =>
    rw [everMade_cons]
    exact ih (holds_main h run)

/-- Deleting what is to go from what is there leaves what it would leave of all there has been. -/
theorem pruneBackups_of_history (dir : Directory) (runs : List Invocation) :
    pruneBackups (Run.final main dir runs) 30 12 = pruneBackups (everMade dir runs) 30 12 := by
  rw [pruneBackups_eq, pruneBackups_eq]
  exact (holds_final (Policy.holds_refl _ dir) runs).keep_eq

theorem pruneBackups_idem (dir : Directory) (dailyKeep monthlyKeep : ℕ) :
    pruneBackups (pruneBackups dir dailyKeep monthlyKeep) dailyKeep monthlyKeep =
      pruneBackups dir dailyKeep monthlyKeep := by
  simp only [pruneBackups_eq]
  exact Policy.outcast _ (Finset.Subset.refl _) (Policy.keep_sub _ dir)

/-- A run that comes to its end leaves what is to be kept of the history, whatever the runs before it did. -/
theorem final_of_complete (dir : Directory) (runs : List Invocation) {run : Invocation} (hsource : run.sourceExists = true)
    (hend : (deletions (insert run.now (Run.final main dir runs)) 30 12).length ≤ run.unlinked) :
    Run.final main dir (runs ++ [run]) = pruneBackups (everMade dir (runs ++ [run])) 30 12 := by
  have hrun : Run.final main dir (runs ++ [run]) = pruneBackups (insert run.now (Run.final main dir runs)) 30 12 := by
    rw [Run.final, List.foldl_append, List.foldl_cons, List.foldl_nil, ← Run.final, main, if_pos hsource]
    exact congrArg _ (List.take_of_length_le hend)
  rw [← pruneBackups_of_history, hrun, pruneBackups_idem]

/-- **The directory is a function of the history** up to files that are still to be deleted: after
any runs, whatever the clock said and wherever they broke off, there is all that one pruning of
everything ever made would keep, and nothing that was not made; the next pruning that comes to its
end leaves just that, 42 files at most. -/
theorem backups_of_history (dir : Directory) (runs : List Invocation) :
    pruneBackups (everMade dir runs) 30 12 ⊆ Run.final main dir runs ∧
      Run.final main dir runs ⊆ everMade dir runs ∧
      pruneBackups (Run.final main dir runs) 30 12 = pruneBackups (everMade dir runs) 30 12 ∧
      (pruneBackups (Run.final main dir runs) 30 12).card ≤ 42 := by
  obtain ⟨hkept, hsub⟩ := holds_final (Policy.holds_refl _ dir) runs
  exact ⟨(pruneBackups_eq _ 30 12).subset.trans hkept, hsub, pruneBackups_of_history dir runs,
    card_pruneBackups_le _ 30 12⟩

end NiftyShield.Portfolio.Backups
