import NiftyShield.Gamma.Watchlist

/-!
# The snapshot and watchlist tables

The tables `gamma_chain_snapshots` and `gamma_watchlist` of `GammaStore`
(`src/gamma/store.py`). Each is keyed by its UNIQUE constraint, so an upsert is an assignment
to the key.

## What is proved

`added_upsertWatchlist`, `added_removeFromWatchlist`: no write changes the `added_date` of a
row, or drops one.

## Honest scope

The order in which the two readers return their rows is left out: the caller indexes them by
a key.
-/

namespace NiftyShield.Gamma

open NiftyShield.Lib

/-! ### Snapshots -/

/-- `gamma_chain_snapshots`, by snapshot date, snapshot time and option. -/
abbrev SnapshotTable := Dict (Date × ℕ × Contract) GammaChainSnapshot

namespace SnapshotTable

/-- `insert_chain_snapshot`. -/
def insertChainSnapshot (T : SnapshotTable) (snap : GammaChainSnapshot) : SnapshotTable :=
  T.set (snap.snapshotDate, snap.snapshotTime, snap.contract) snap

/-- `ORDER BY snapshot_date DESC, snapshot_time DESC`. -/
def notBefore (r r' : GammaChainSnapshot) : Prop :=
  r'.snapshotDate < r.snapshotDate ∨ r'.snapshotDate = r.snapshotDate ∧ r'.snapshotTime ≤ r.snapshotTime

instance : DecidableRel notBefore := fun _ _ => inferInstanceAs (Decidable (_ ∨ _))

/-- The latest of some rows. -/
def latest (rows : List GammaChainSnapshot) : Option GammaChainSnapshot := (rows.insertionSort notBefore).head?

/-- `get_prior_oi`, at one option. -/
def getPriorOi (T : SnapshotTable) (today : Date) (contract : Contract) : Option ℤ :=
  (latest (T.values.filter fun r => r.contract = contract && decide (r.snapshotDate < today) && r.oi.isSome)).bind (·.oi)

/-- `get_prior_snapshots`. -/
def getPriorSnapshots (T : SnapshotTable) (expiryDate today : Date) (days : ℕ) : List GammaChainSnapshot :=
  let rows := T.values.filter fun r => r.contract.expiryDate = expiryDate && decide (r.snapshotDate < today)
  let dates := (historyDates rows).take days
  rows.filter fun r => r.snapshotDate ∈ dates &&
    latest (rows.filter fun r' => r'.snapshotDate = r.snapshotDate && r'.contract = r.contract) = some r

end SnapshotTable

/-! ### Watchlist -/

/-- `gamma_watchlist`. -/
structure WatchlistTable where
  /-- The rows by option. -/
  rows : Dict Contract GammaWatchlistEntry
  /-- A row is under its own option. -/
  keyed : ∀ {c e}, rows.get? c = some e → e.contract = c

namespace WatchlistTable

/-- No rows. -/
def empty : WatchlistTable := ⟨Dict.empty, fun h => absurd h (by simp)⟩

/-- `upsert_watchlist`: on conflict every column but `added_date` is set. -/
def upsertWatchlist (T : WatchlistTable) (entry : GammaWatchlistEntry) : WatchlistTable where
  rows := T.rows.set entry.contract
    { entry with addedDate := ((T.rows.get? entry.contract).map (·.addedDate)).getD entry.addedDate }
  keyed := by
    intro c e h
    rw [Dict.get?_set] at h
    split at h
    next hc =>
      obtain rfl := Option.some.inj h
      exact hc.symm
    next => exact T.keyed h

/-- `get_all_active_watchlist`. -/
def getAllActiveWatchlist (T : WatchlistTable) : List GammaWatchlistEntry := T.rows.values.filter (·.active)

/-- `remove_from_watchlist`. -/
def removeFromWatchlist (T : WatchlistTable) (contract : Contract) (reason : String) (removedDate : Date) :
    WatchlistTable :=
  match h : T.rows.get? contract with
  | none => T
  | some row =>
    { rows := T.rows.set contract { row with removedDate := some removedDate, removalReason := some reason }
      keyed := by
        intro c e he
        rw [Dict.get?_set] at he
        split at he
        next hc =>
          obtain rfl := Option.some.inj he
          exact (T.keyed h).trans hc.symm
        next => exact T.keyed he }

/-- The `added_date` of a row. -/
def added (T : WatchlistTable) (c : Contract) : Option Date := (T.rows.get? c).map (·.addedDate)

theorem get?_upsertWatchlist (T : WatchlistTable) (entry : GammaWatchlistEntry) (c : Contract) :
    (T.upsertWatchlist entry).rows.get? c =
      if c = entry.contract then
        some { entry with addedDate := (T.added entry.contract).getD entry.addedDate }
      else T.rows.get? c := Dict.get?_set _ _ _ _

theorem get?_removeFromWatchlist (T : WatchlistTable) (contract : Contract) (reason : String) (removedDate : Date)
    (c : Contract) : (T.removeFromWatchlist contract reason removedDate).rows.get? c =
      if c = contract then (T.rows.get? c).map fun row =>
        { row with removedDate := some removedDate, removalReason := some reason }
      else T.rows.get? c := by
  unfold removeFromWatchlist
  split
  next h =>
    split
    next hc => rw [hc, h, Option.map_none]
    next => rfl
  next row h =>
    rw [Dict.get?_set]
    split
    next hc => rw [hc, h, Option.map_some]
    next => rfl

/-- An upsert gives an option a date only if it had none. -/
theorem added_upsertWatchlist (T : WatchlistTable) (entry : GammaWatchlistEntry) (c : Contract) :
    (T.upsertWatchlist entry).added c =
      if c = entry.contract then some ((T.added c).getD entry.addedDate) else T.added c := by
  rw [added, get?_upsertWatchlist]
  split
  next hc =>
    rw [hc]
    rfl
  next => rfl

@[simp] theorem added_removeFromWatchlist (T : WatchlistTable) (contract : Contract) (reason : String)
    (removedDate : Date) (c : Contract) :
    (T.removeFromWatchlist contract reason removedDate).added c = T.added c := by
  rw [added, get?_removeFromWatchlist]
  split
  · rw [Option.map_map]
    rfl
  · rfl

theorem mem_getAllActiveWatchlist {T : WatchlistTable} {e : GammaWatchlistEntry} :
    e ∈ T.getAllActiveWatchlist ↔ T.rows.get? e.contract = some e ∧ e.active = true := by
  rw [getAllActiveWatchlist, List.mem_filter, Dict.mem_values_iff]
  constructor
  · rintro ⟨⟨c, hc⟩, hactive⟩
    exact ⟨(T.keyed hc).symm ▸ hc, hactive⟩
  · rintro ⟨hrow, hactive⟩
    exact ⟨⟨_, hrow⟩, hactive⟩

end WatchlistTable

end NiftyShield.Gamma
