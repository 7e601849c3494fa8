import NiftyShield.Lib.Dated
import NiftyShield.Models.Common
import Mathlib.Algebra.Order.Ring.Rat
import Mathlib.Data.List.Sort

/-!
# The mutual fund tables

The transactions and NAV snapshots of `MFStore` (`src/mf/store.py`) and their records
(`src/models/mf.py`). The holdings are derived from the transactions; the NAV rows of the last
recorded day before a day are found by that day, whatever the calendar says.

## Honest scope

`Decimal` is exact rational; a NAV that is not finite is refused as one that is not positive is.
The pattern of an AMFI code is not stated.
-/

namespace NiftyShield.Mf

open NiftyShield.Lib

/-! ### Records -/

/-- What a transaction does. -/
inductive TransactionType where
  /-- Lump sum at the start of tracking. -/
  | initial
  /-- Monthly instalment. -/
  | sip
  /-- Partial or full exit. -/
  | redemption
  deriving DecidableEq, Repr

/-- `MFTransaction`. -/
structure MfTransaction where
  /-- Name of the fund. -/
  schemeName : String
  /-- AMFI scheme code. -/
  amfiCode : String
  /-- Day the units were allotted. -/
  transactionDate : Date
  /-- Units purchased or redeemed. -/
  units : ℚ
  /-- Rupee value. -/
  amount : ℚ
  /-- What it does. -/
  transactionType : TransactionType
  /-- `min_length=1`. -/
  schemeName_ne : schemeName ≠ ""
  /-- `gt=0`. -/
  units_pos : 0 < units
  /-- `gt=0`. -/
  amount_pos : 0 < amount
  deriving DecidableEq

/-- The columns of the UNIQUE constraint of `mf_transactions`. -/
def MfTransaction.uniqueKey (tx : MfTransaction) : String × Date × TransactionType :=
  (tx.amfiCode, tx.transactionDate, tx.transactionType)

/-- `MFNavSnapshot`. -/
structure MfNavSnapshot where
  /-- Day the NAV is recorded for. -/
  snapshotDate : Date
  /-- AMFI scheme code. -/
  amfiCode : String
  /-- Name of the fund. -/
  schemeName : String
  /-- Net asset value per unit. -/
  nav : ℚ
  /-- `gt=0`. -/
  nav_pos : 0 < nav
  deriving DecidableEq

/-- `MFHolding`. -/
structure MfHolding where
  /-- AMFI scheme code. -/
  amfiCode : String
  /-- Name of the fund. -/
  schemeName : String
  /-- Net units. -/
  totalUnits : ℚ
  /-- Net amount invested. -/
  totalInvested : ℚ
  deriving DecidableEq

/-- The columns of `mf_nav_snapshots` beside its key. -/
structure NavRow where
  /-- Name of the fund. -/
  schemeName : String
  /-- Net asset value per unit. -/
  nav : ℚ
  /-- Only validated snapshots are written. -/
  nav_pos : 0 < nav
  deriving DecidableEq

/-- The tables. -/
structure MfTables where
  /-- `mf_transactions`, in id order. -/
  transactions : List MfTransaction
  /-- `mf_nav_snapshots`, one row for each scheme and day. -/
  navs : Dated String Date NavRow
  /-- The UNIQUE constraint. -/
  keys_unique : (transactions.map MfTransaction.uniqueKey).Nodup

/-- Without transactions no key is repeated. -/
theorem nodup_noKeys : (([] : List MfTransaction).map MfTransaction.uniqueKey).Nodup := List.nodup_nil

/-- The fund of the sample tables has a name. -/
theorem flexiCapName_ne : "Parag Parikh Flexi Cap Fund - Reg Gr" ≠ "" := by decide

/-! ### Holdings -/

/-- What `get_holdings` accumulates for a scheme: `_names`, `_units` and `_invested`. -/
structure SchemeTally where
  /-- Name in the last transaction. -/
  name : String := ""
  /-- Units so far. -/
  units : ℚ := 0
  /-- Amount so far. -/
  invested : ℚ := 0

/-- Account for one transaction. -/
def SchemeTally.add (s : SchemeTally) (tx : MfTransaction) : SchemeTally :=
  match tx.transactionType with
  | .initial | .sip => ⟨tx.schemeName, s.units + tx.units, s.invested + tx.amount⟩
  | .redemption => ⟨tx.schemeName, s.units - tx.units, s.invested - tx.amount⟩

/-- The tallies of all schemes. -/
def tallies (txs : List MfTransaction) : Dict String SchemeTally :=
  txs.foldl (fun d tx => d.set tx.amfiCode (((d.get? tx.amfiCode).getD {}).add tx)) Dict.empty

namespace MfTables

variable (T : MfTables)

/-- `get_transactions`: ordered by date, then id. -/
def getTransactions : List MfTransaction :=
  T.transactions.insertionSort fun tx tx' => tx.transactionDate ≤ tx'.transactionDate

/-- `get_holdings`: the schemes with a positive balance. -/
def getHoldings : Dict String MfHolding where
  entries := ((tallies T.getTransactions).entries.filter fun e => 0 < e.2.units).map fun (code, s) =>
    (code, { amfiCode := code, schemeName := s.name, totalUnits := s.units, totalInvested := s.invested })
  nodup := by
    rw [List.map_map]
    exact (tallies T.getTransactions).nodup.sublist (List.filter_sublist.map Prod.fst)

/-! ### NAV snapshots -/

/-- `upsert_nav_snapshot`. -/
def upsertNavSnapshot (snap : MfNavSnapshot) : MfTables :=
  { T with navs := T.navs.set (snap.amfiCode, snap.snapshotDate) ⟨snap.schemeName, snap.nav, snap.nav_pos⟩ }

/-- The rows of a day as snapshots, ordered by code. -/
def snapshotsOf (d : Date) (rows : Dict String NavRow) : List MfNavSnapshot :=
  (rows.entries.insertionSort fun e e' => e.1 ≤ e'.1).map fun (code, row) => ⟨d, code, row.schemeName, row.nav, row.nav_pos⟩

/-- `get_nav_snapshots_for_date`. -/
def getNavSnapshotsForDate (d : Date) : List MfNavSnapshot := snapshotsOf d (T.navs.onDay d)

/-- `get_prev_nav_snapshots`: those of the last recorded day before `d`. -/
def getPrevNavSnapshots (d : Date) : List MfNavSnapshot := ((T.navs.before d).map fun (u, rows) => snapshotsOf u rows).getD []

/-- A snapshot of a later day leaves the previous ones. -/
theorem before_upsertNavSnapshot {d : Date} {snap : MfNavSnapshot} (h : d ≤ snap.snapshotDate) :
    (T.upsertNavSnapshot snap).navs.before d = T.navs.before d := Dated.before_set_of_le h ..

theorem getNavSnapshotsForDate_eq_nil_iff (d : Date) :
    T.getNavSnapshotsForDate d = [] ↔ ∀ code row, T.navs.get? (code, d) ≠ some row := by
  have hperm : (T.getNavSnapshotsForDate d) = [] ↔ (T.navs.onDay d).entries = [] := by
    rw [getNavSnapshotsForDate, snapshotsOf, List.map_eq_nil_iff, ← List.length_eq_zero_iff, List.length_insertionSort,
      List.length_eq_zero_iff]
  rw [hperm, List.eq_nil_iff_forall_not_mem, Prod.forall]
  refine forall₂_congr fun code row => ?_
  rw [Dict.mem_entries_iff, Dated.get?_onDay]

end MfTables

end NiftyShield.Mf
