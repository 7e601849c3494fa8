import NiftyShield.Gamma.Models
import NiftyShield.Lib.Dict
import Mathlib.Algebra.Order.Ring.Rat
import Mathlib.Data.List.Sort

/-!
# Watchlist rules

`evaluate_watchlist` (`src/gamma/watchlist.py`): which strikes to add, to keep with refreshed
values, and to remove, from the snapshots of today, the history and the active entries.

## What is proved

What each part of a decision says of its entries (`mem_add`, `mem_retain`, `mem_remove`) and
that no option is in two parts.
-/

namespace NiftyShield.Gamma

open NiftyShield.Lib

/-- `MIN_DTE`. -/
def minDte : ℤ := 2

/-- `MAX_DTE`. -/
def maxDte : ℤ := 6

/-- `MAX_DISTANCE_ADD`. -/
def maxDistanceAdd : ℚ := 4 / 100

/-- `MIN_GEARING`. -/
def minGearing : ℚ := 3

/-- `MIN_OI`. -/
def minOi : ℤ := 1000

/-- `ELEVATE_DISTANCE`. -/
def elevateDistance : ℚ := 3 / 100

/-- `ELEVATE_OI_CHANGE`. -/
def elevateOiChange : ℚ := 10 / 100

/-- `REMOVE_DISTANCE`. -/
def removeDistance : ℚ := 5 / 100

/-- `REMOVE_OI_CHANGE`. -/
def removeOiChange : ℚ := -20 / 100

/-- `GEARING_AVG_DAYS`. -/
def gearingAvgDays : ℕ := 3

/-- An entry to mark removed. -/
structure WatchlistRemoval where
  /-- The option. -/
  contract : Contract
  /-- Why. -/
  removalReason : String
  deriving DecidableEq

/-- What an evaluation decides. -/
structure WatchlistDecision where
  /-- New or revived entries. -/
  add : List GammaWatchlistEntry
  /-- Active entries with refreshed values. -/
  retain : List GammaWatchlistEntry
  /-- Entries to remove. -/
  remove : List WatchlistRemoval
  /-- Those of the first two elevated today. -/
  elevate : List GammaWatchlistEntry

/-- `_qualifies`. -/
def qualifies (s : GammaChainSnapshot) : Bool :=
  match s.gammaGearing, s.oi, s.distancePct with
  | some gearing, some oi, some distance =>
    minDte ≤ s.dteCalendar && s.dteCalendar ≤ maxDte && distance ≤ maxDistanceAdd && minGearing ≤ gearing &&
      minOi ≤ oi && s.oiChange1d.all (0 ≤ ·)
  | _, _, _ => false

/-- The mean of the gearings, if there are enough and none is missing. -/
def gearingAverage (prior : List (Option ℚ)) : Option ℚ :=
  if prior.length < gearingAvgDays ∨ none ∈ prior then none else some (prior.reduceOption.sum / prior.length)

/-- `_elevated`. -/
def isElevated (s : GammaChainSnapshot) (yesterday : Option GammaChainSnapshot) (priorGearing : List (Option ℚ)) : Bool :=
  match yesterday.bind (·.distancePct), s.oiChange1d, gearingAverage priorGearing, s.distancePct, s.gammaGearing with
  | some before, some oiChange, some average, some distance, some gearing =>
    qualifies s && elevateOiChange ≤ oiChange && distance ≤ elevateDistance && distance < before && average < gearing
  | _, _, _, _, _ => false

/-- Both values are there and meet the test. -/
def bothDays (test : ℚ → Bool) (today yesterday : Option ℚ) : Bool := today.any test && yesterday.any test

/-- `_removal_reason`. -/
def removalReason (s : GammaChainSnapshot) (yesterday : Option GammaChainSnapshot) : Option String :=
  match yesterday with
  | none => none
  | some before =>
    if bothDays (removeDistance < ·) s.distancePct before.distancePct then some "spot_moved_away"
    else if bothDays (· < removeOiChange) s.oiChange1d before.oiChange1d then some "oi_unwinding"
    else none

/-- `_entry`. -/
def watchlistEntry (s : GammaChainSnapshot) (today addedDate : Date) (elevated : Bool) : GammaWatchlistEntry where
  contract := s.contract
  addedDate
  lastSeenDate := today
  removedDate := none
  removalReason := none
  distancePct := s.distancePct
  gammaGearing := s.gammaGearing
  oi := s.oi
  oiChange1d := s.oiChange1d
  daysOnWatchlist := addedDate.daysBetween today + 1
  elevated
  elevationReason := if elevated then some "closing_gearing_oi_growth" else none

/-- The dates of the history, the latest first. -/
def historyDates (history : List GammaChainSnapshot) : List Date :=
  (history.map (·.snapshotDate)).dedup.insertionSort (· ≥ ·)

/-- `on(day, s)`: the snapshot of the same strike and type on an earlier day. -/
def historyOn (history : List GammaChainSnapshot) (day : Date) (s : GammaChainSnapshot) : Option GammaChainSnapshot :=
  (Dict.index (fun h : GammaChainSnapshot => (h.snapshotDate, h.contract.strike, h.contract.optionType)) history).get?
    (day, s.contract.strike, s.contract.optionType)

/-- The snapshot of the previous snapshot date. -/
def yesterdayOf (history : List GammaChainSnapshot) (s : GammaChainSnapshot) : Option GammaChainSnapshot :=
  (historyDates history).head?.bind (historyOn history · s)

/-- The gearings of the last three dates. -/
def priorGearings (history : List GammaChainSnapshot) (s : GammaChainSnapshot) : List (Option ℚ) :=
  ((historyDates history).take gearingAvgDays).map fun day => (historyOn history day s).bind (·.gammaGearing)

/-- The reason to remove an active entry, if there is one. -/
def entryRemoval (todayBy : Dict Contract GammaChainSnapshot) (history : List GammaChainSnapshot) (today : Date)
    (e : GammaWatchlistEntry) : Option String :=
  if e.contract.expiryDate < today then some "expired"
  else (todayBy.get? e.contract).bind fun s => removalReason s (yesterdayOf history s)

/-- The removals: the active entries that have a reason. -/
def removals (todayBy : Dict Contract GammaChainSnapshot) (history : List GammaChainSnapshot)
    (active : List GammaWatchlistEntry) (today : Date) : List WatchlistRemoval :=
  (Dict.index (·.contract) active).values.filterMap fun e =>
    (entryRemoval todayBy history today e).map fun reason => ⟨e.contract, reason⟩

/-- The entry of a snapshot, and whether its option has an active one. -/
def refreshed (history : List GammaChainSnapshot) (active : List GammaWatchlistEntry) (today : Date)
    (s : GammaChainSnapshot) : Bool × GammaWatchlistEntry :=
  let existing := (Dict.index (·.contract) active).get? s.contract
  (existing.isSome, watchlistEntry s today ((existing.map (·.addedDate)).getD today)
    (isElevated s (yesterdayOf history s) (priorGearings history s)))

/-- `evaluate_watchlist`. -/
def evaluateWatchlist (todaySnaps history : List GammaChainSnapshot) (active : List GammaWatchlistEntry) (today : Date) :
    WatchlistDecision :=
  let todayBy := Dict.index (·.contract) todaySnaps
  let remove := removals todayBy history active today
  let kept := todayBy.values.filter fun s =>
    s.contract ∉ remove.map (·.contract) &&
      (((Dict.index (·.contract) active).get? s.contract).isSome || qualifies s)
  let entries := kept.map (refreshed history active today)
  { add := (entries.filter (!·.1)).map (·.2)
    retain := (entries.filter (·.1)).map (·.2)
    remove
    elevate := (entries.map (·.2)).filter (·.elevated) }

/-! ### What a decision says -/

variable {todaySnaps history : List GammaChainSnapshot} {active : List GammaWatchlistEntry} {today : Date}

/-- An index finds one of the values it was made from. -/
theorem mem_of_index {ν : Type*} {key : ν → Contract} {l : List ν} {k : Contract} {v : ν}
    (h : (Dict.index key l).get? k = some v) : v ∈ l ∧ key v = k := by
  rw [Dict.get?_index] at h
  have hmem := List.mem_filter.mp (List.mem_of_getLast? h)
  exact ⟨hmem.1, by simpa using hmem.2⟩

/-- An entry to add or to retain is the one of a snapshot that is not removed. -/
theorem entry_of_snapshot {e : GammaWatchlistEntry}
    (h : e ∈ (evaluateWatchlist todaySnaps history active today).add ++
      (evaluateWatchlist todaySnaps history active today).retain) :
    ∃ s : GammaChainSnapshot, e = (refreshed history active today s).2 ∧
      s.contract ∉ (evaluateWatchlist todaySnaps history active today).remove.map (·.contract) := by
  have hentry : ∃ b, (b, e) ∈ ((Dict.index (·.contract) todaySnaps).values.filter fun s =>
      s.contract ∉ (evaluateWatchlist todaySnaps history active today).remove.map (·.contract) &&
        (((Dict.index (·.contract) active).get? s.contract).isSome || qualifies s)).map
      (refreshed history active today) := by
    rcases List.mem_append.mp h with h | h
    · obtain ⟨⟨b, _⟩, hmem, rfl⟩ := List.mem_map.mp h
      exact ⟨b, (List.mem_filter.mp hmem).1⟩
    · obtain ⟨⟨b, _⟩, hmem, rfl⟩ := List.mem_map.mp h
      exact ⟨b, (List.mem_filter.mp hmem).1⟩
  obtain ⟨b, hb⟩ := hentry
  obtain ⟨s, hs, hpair⟩ := List.mem_map.mp hb
  exact ⟨s, (congrArg Prod.snd hpair).symm, by simpa using (Bool.and_eq_true_iff.mp (List.mem_filter.mp hs).2).1⟩

/-- The entry was evaluated today. -/
theorem entry_today {e : GammaWatchlistEntry}
    (h : e ∈ (evaluateWatchlist todaySnaps history active today).add ++
      (evaluateWatchlist todaySnaps history active today).retain) :
    e.lastSeenDate = today ∧ e.removedDate = none ∧
      e.daysOnWatchlist = e.addedDate.daysBetween e.lastSeenDate + 1 := by
  obtain ⟨s, rfl, -⟩ := entry_of_snapshot h
  exact ⟨rfl, rfl, rfl⟩

/-- An entry to add has no active one, and starts today. -/
theorem mem_add {e : GammaWatchlistEntry} (h : e ∈ (evaluateWatchlist todaySnaps history active today).add) :
    (∀ a ∈ active, a.contract ≠ e.contract) ∧ e.addedDate = today := by
  obtain ⟨⟨_, _⟩, hmem, rfl⟩ := List.mem_map.mp h
  obtain ⟨hentry, hnew⟩ := List.mem_filter.mp hmem
  obtain ⟨s, -, hs⟩ := List.mem_map.mp hentry
  obtain ⟨rfl, rfl⟩ := Prod.mk.inj hs
  have hnone : (Dict.index (·.contract) active).get? s.contract = none := by simpa using hnew
  refine ⟨fun a ha heq => ?_, by simp [hnone, watchlistEntry]⟩
  rw [Dict.get?_index, List.getLast?_eq_none_iff, List.filter_eq_nil_iff] at hnone
  exact hnone a ha (by simpa [watchlistEntry] using heq)

/-- An entry to retain keeps the date of the active one. -/
theorem mem_retain {e : GammaWatchlistEntry} (h : e ∈ (evaluateWatchlist todaySnaps history active today).retain) :
    ∃ a ∈ active, a.contract = e.contract ∧ e.addedDate = a.addedDate := by
  obtain ⟨⟨_, _⟩, hmem, rfl⟩ := List.mem_map.mp h
  obtain ⟨hentry, hold⟩ := List.mem_filter.mp hmem
  obtain ⟨s, -, hs⟩ := List.mem_map.mp hentry
  obtain ⟨rfl, rfl⟩ := Prod.mk.inj hs
  obtain ⟨a, ha⟩ := Option.isSome_iff_exists.mp hold
  obtain ⟨hmem, hkey⟩ := mem_of_index ha
  exact ⟨a, hmem, hkey, by simp [ha, watchlistEntry]⟩

/-- A removal is of an active entry. -/
theorem mem_remove {r : WatchlistRemoval} (h : r ∈ (evaluateWatchlist todaySnaps history active today).remove) :
    ∃ a ∈ active, a.contract = r.contract := by
  obtain ⟨e, he, hr⟩ := List.mem_filterMap.mp h
  obtain ⟨reason, -, rfl⟩ := Option.map_eq_some_iff.mp hr
  obtain ⟨k, hk⟩ := Dict.mem_values_iff.mp he
  exact ⟨e, (mem_of_index hk).1, rfl⟩

/-- No option is both kept and removed. -/
theorem entry_not_removed {e : GammaWatchlistEntry}
    (h : e ∈ (evaluateWatchlist todaySnaps history active today).add ++
      (evaluateWatchlist todaySnaps history active today).retain) :
    ∀ r ∈ (evaluateWatchlist todaySnaps history active today).remove, r.contract ≠ e.contract := by
  obtain ⟨s, rfl, hnot⟩ := entry_of_snapshot h
  exact fun r hr heq => hnot (List.mem_map.mpr ⟨r, hr, heq⟩)

end NiftyShield.Gamma
