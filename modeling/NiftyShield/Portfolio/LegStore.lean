import NiftyShield.Lib.Dated
import NiftyShield.Portfolio.Summary

/-!
# Strategies, legs and daily snapshots

The tables of `PortfolioStore` (`src/portfolio/store.py`) beside the trades ledger. A leg that
exists only in the trades is given a row the first time a snapshot of it is recorded
(`ensure_leg`), and found again by strategy, instrument, direction and the text of its entry price.

## What is proved

`upsertLeg_spec`: the leg that is found or inserted, and that the other rows stay.

## Honest scope

`Decimal` is exact rational. Two decimals have the same text when they have the same value and the
same exponent, so a row keeps the exponent beside the price. The description and the creation time
of a strategy are kept as they are; the subclass made by `create_strategy_instance` is left out.
-/

namespace NiftyShield.Portfolio

open NiftyShield.Lib

/-! ### Rows -/

/-- A row of `strategies`. -/
structure StrategyRow where
  /-- Row id. -/
  id : ℕ
  /-- Name. -/
  name : String
  /-- Description. -/
  description : String := ""
  /-- When it was created. -/
  createdAt : String := ""
  deriving DecidableEq

/-- What `_upsert_leg` matches on beside the strategy: instrument, direction and the text of the
entry price. -/
structure LegText where
  /-- `instrument_key`. -/
  instrumentKey : String
  /-- `direction`. -/
  direction : Direction
  /-- Value of the entry price. -/
  entryPrice : ℚ
  /-- Exponent of the entry price. -/
  entryExponent : ℤ
  deriving DecidableEq

/-- A row of `legs`. -/
structure LegRow where
  /-- Row id. -/
  id : ℕ
  /-- Row id of the strategy. -/
  strategyId : ℕ
  /-- The other columns. -/
  columns : Leg
  /-- Exponent of the entry price. -/
  entryExponent : ℤ
  deriving DecidableEq

/-- The text of a leg whose entry price has an exponent. -/
def Leg.text (leg : Leg) (entryExponent : ℤ) : LegText := ⟨leg.instrumentKey, leg.direction, leg.entryPrice, entryExponent⟩

/-- The text of a row. -/
def LegRow.text (row : LegRow) : LegText := row.columns.text row.entryExponent

/-- The leg loaded from a row. -/
def LegRow.toLeg (row : LegRow) : Leg := { row.columns with id := some row.id, strategyId := some row.strategyId }

@[simp] theorem LegRow.id_toLeg (row : LegRow) : row.toLeg.id = some row.id := rfl

@[simp] theorem LegRow.instrumentKey_toLeg (row : LegRow) : row.toLeg.instrumentKey = row.columns.instrumentKey := rfl

/-- The tables. -/
structure PortfolioTables where
  /-- `strategies`. -/
  strategies : List StrategyRow
  /-- `legs`, in id order. -/
  legs : List LegRow
  /-- The next id of `legs`. -/
  nextLegId : ℕ
  /-- `daily_snapshots`, one row for each leg and day. -/
  dailySnapshots : Dated ℕ Date DailySnapshot
  /-- `trades`. -/
  trades : LiveTrades
  /-- `name TEXT NOT NULL UNIQUE`. -/
  nodup_names : (strategies.map StrategyRow.name).Nodup
  /-- `PRIMARY KEY`. -/
  nodup_ids : (strategies.map StrategyRow.id).Nodup
  /-- `PRIMARY KEY`. -/
  nodup_legIds : (legs.map LegRow.id).Nodup
  /-- `AUTOINCREMENT`. -/
  legIds_lt : ∀ row ∈ legs, row.id < nextLegId

namespace PortfolioTables

variable (t : PortfolioTables)

/-! ### Reading -/

/-- The row of a strategy name. -/
def strategyRow? (name : String) : Option StrategyRow := t.strategies.find? fun row => row.name = name

/-- The rows of a strategy id, in id order. -/
def legRows (strategyId : ℕ) : List LegRow := t.legs.filter fun row => row.strategyId = strategyId

/-- `_get_legs`. -/
def getLegs (strategyId : ℕ) : List Leg := (t.legRows strategyId).map LegRow.toLeg

/-- The strategy of a row, with its legs. -/
def load (row : StrategyRow) : Strategy where
  id := some row.id
  name := row.name
  description := row.description
  legs := t.getLegs row.id
  createdAt := some row.createdAt

/-- `get_strategy`. -/
def getStrategy (name : String) : Option Strategy := (t.strategyRow? name).map t.load

/-- The rows of `strategies`, `ORDER BY name`. -/
def byName : List StrategyRow := t.strategies.insertionSort fun row row' => row.name ≤ row'.name

/-- `get_all_strategies`. -/
def getAllStrategies : List Strategy := t.byName.map t.load

/-- `get_snapshots_for_date`. -/
def getSnapshotsForDate (d : Date) : Dict ℕ DailySnapshot := t.dailySnapshots.onDay d

/-- `get_prev_snapshots`: those of the last recorded day before `d`. -/
def getPrevSnapshots (d : Date) : Dict ℕ DailySnapshot := ((t.dailySnapshots.before d).map Prod.snd).getD Dict.empty

/-! ### Writing -/

/-- The row that `_upsert_leg` finds. -/
def findLeg (strategyId : ℕ) (text : LegText) : Option LegRow :=
  t.legs.find? fun row => row.strategyId = strategyId ∧ row.text = text

/-- The row that `_upsert_leg` inserts. -/
def newLeg (strategyId : ℕ) (leg : Leg) (entryExponent : ℤ) : LegRow := ⟨t.nextLegId, strategyId, leg, entryExponent⟩

/-- `INSERT INTO legs`. -/
def insertLeg (strategyId : ℕ) (leg : Leg) (entryExponent : ℤ) : PortfolioTables :=
  { t with
    legs := t.legs ++ [t.newLeg strategyId leg entryExponent]
    nextLegId := t.nextLegId + 1
    nodup_legIds := by
      rw [List.map_append]
      refine t.nodup_legIds.append (List.nodup_singleton _) ?_
      intro i hi hi'
      obtain ⟨row, hrow, rfl⟩ := List.mem_map.mp hi
      have hlt := t.legIds_lt row hrow
      rw [List.mem_singleton.mp hi'] at hlt
      exact lt_irrefl _ hlt
    legIds_lt := by
      intro row hrow
      rcases List.mem_append.mp hrow with hrow | hrow
      · exact Nat.lt_succ_of_lt (t.legIds_lt row hrow)
      · rw [List.mem_singleton.mp hrow]
        exact Nat.lt_succ_self _ }

/-- `_upsert_leg`: the id found or inserted. -/
def upsertLeg (strategyId : ℕ) (leg : Leg) (entryExponent : ℤ) : PortfolioTables × ℕ :=
  match t.findLeg strategyId (leg.text entryExponent) with
  | some row => (t, row.id)
  | none => (t.insertLeg strategyId leg entryExponent, t.nextLegId)

/-- `ensure_leg`; `none` is its `ValueError`. -/
def ensureLeg (strategyName : String) (leg : Leg) (entryExponent : ℤ) : Option (PortfolioTables × ℕ) :=
  match leg.id with
  | some id => some (t, id)
  | none => (t.strategyRow? strategyName).map fun row => t.upsertLeg row.id leg entryExponent

/-- `record_snapshots_bulk`. -/
def recordSnapshotsBulk (d : Date) (snapshots : List (ℕ × DailySnapshot)) : PortfolioTables :=
  { t with dailySnapshots := snapshots.foldl (fun rows s => rows.set (s.1, d) s.2) t.dailySnapshots }

/-! ### What an upsert leaves -/

theorem strategyRow?_eq_some {t : PortfolioTables} {row : StrategyRow} (h : row ∈ t.strategies) :
    t.strategyRow? row.name = some row := by
  cases hfind : t.strategyRow? row.name with
  | none => exact absurd (List.find?_eq_none.mp hfind row h) (by simp)
  | some row' =>
    have hname : row'.name = row.name := by simpa using List.find?_some hfind
    rw [List.inj_on_of_nodup_map t.nodup_names (List.mem_of_find?_eq_some hfind) h hname]

theorem mem_byName {t : PortfolioTables} {row : StrategyRow} : row ∈ t.byName ↔ row ∈ t.strategies :=
  List.mem_insertionSort _

theorem nodup_byName (t : PortfolioTables) : t.byName.Nodup :=
  (List.perm_insertionSort _ t.strategies).nodup_iff.mpr t.nodup_names.of_map

theorem mem_legRows {t : PortfolioTables} {strategyId : ℕ} {row : LegRow} :
    row ∈ t.legRows strategyId ↔ row ∈ t.legs ∧ row.strategyId = strategyId := by
  simp [legRows]

theorem leg_eq_of_id {t : PortfolioTables} {row row' : LegRow} (h : row ∈ t.legs) (h' : row' ∈ t.legs)
    (hid : row.id = row'.id) : row = row' := List.inj_on_of_nodup_map t.nodup_legIds h h' hid

theorem findLeg_eq_none_iff {t : PortfolioTables} {strategyId : ℕ} {text : LegText} :
    t.findLeg strategyId text = none ↔ ∀ row ∈ t.legs, row.strategyId = strategyId → row.text ≠ text := by
  simp [findLeg, List.find?_eq_none]

/-- The second tables are the first with more legs of a strategy. -/
structure LegsAdded (t t' : PortfolioTables) (strategyId : ℕ) (added : List LegRow) : Prop where
  /-- The strategies stay. -/
  strategies : t'.strategies = t.strategies
  /-- And the trades. -/
  trades : t'.trades = t.trades
  /-- And the snapshots. -/
  dailySnapshots : t'.dailySnapshots = t.dailySnapshots
  /-- The legs are added at the end. -/
  legs : t'.legs = t.legs ++ added
  /-- They are of the strategy. -/
  own : ∀ row ∈ added, row.strategyId = strategyId

namespace LegsAdded

variable {t t' t'' : PortfolioTables} {strategyId : ℕ} {added added' : List LegRow}

theorem refl (t : PortfolioTables) (strategyId : ℕ) : LegsAdded t t strategyId [] :=
  ⟨rfl, rfl, rfl, (List.append_nil _).symm, fun _ h => absurd h List.not_mem_nil⟩

theorem trans (h : LegsAdded t t' strategyId added) (h' : LegsAdded t' t'' strategyId added') :
    LegsAdded t t'' strategyId (added ++ added') where
  strategies := h'.strategies.trans h.strategies
  trades := h'.trades.trans h.trades
  dailySnapshots := h'.dailySnapshots.trans h.dailySnapshots
  legs := by rw [h'.legs, h.legs, List.append_assoc]
  own row hrow := (List.mem_append.mp hrow).elim (h.own row) (h'.own row)

theorem mem_of_mem (h : LegsAdded t t' strategyId added) {row : LegRow} (hrow : row ∈ t.legs) : row ∈ t'.legs :=
  h.legs ▸ List.mem_append_left added hrow

theorem strategyRow? (h : LegsAdded t t' strategyId added) (name : String) : t'.strategyRow? name = t.strategyRow? name := by
  rw [PortfolioTables.strategyRow?, h.strategies]
  rfl

/-- Of the strategy they are found by their text. -/
theorem findLeg_eq_none_iff (h : LegsAdded t t' strategyId added) {text : LegText} :
    t'.findLeg strategyId text = none ↔ t.findLeg strategyId text = none ∧ text ∉ added.map LegRow.text := by
  rw [PortfolioTables.findLeg_eq_none_iff, PortfolioTables.findLeg_eq_none_iff, h.legs, List.forall_mem_append]
  refine and_congr_right fun _ => ?_
  constructor
  · rintro hnone htext
    obtain ⟨row, hrow, rfl⟩ := List.mem_map.mp htext
    exact hnone row hrow (h.own row hrow) rfl
  · rintro hout row hrow - rfl
    exact hout (List.mem_map_of_mem hrow)

/-- The strategy has the new legs at the end, another has its own still. -/
theorem legRows (h : LegsAdded t t' strategyId added) (sid : ℕ) :
    t'.legRows sid = t.legRows sid ++ if sid = strategyId then added else [] := by
  rw [PortfolioTables.legRows, h.legs, List.filter_append]
  congr 1
  by_cases hsid : sid = strategyId
  · rw [if_pos hsid, List.filter_eq_self.mpr fun row hrow => decide_eq_true ((h.own row hrow).trans hsid.symm)]
  · rw [if_neg hsid, List.filter_eq_nil_iff]
    intro row hrow hrow'
    exact hsid ((of_decide_eq_true hrow').symm.trans (h.own row hrow))

end LegsAdded

/-- **An upsert** leaves a row with the text and the id it returns; it adds the row exactly when
none was found. -/
theorem upsertLeg_spec (t : PortfolioTables) (strategyId : ℕ) (leg : Leg) (entryExponent : ℤ) :
    ∃ added, LegsAdded t (t.upsertLeg strategyId leg entryExponent).1 strategyId added ∧
      added.map LegRow.text =
        (if t.findLeg strategyId (leg.text entryExponent) = none then [leg.text entryExponent] else []) ∧
      (∀ row ∈ added, row.id = (t.upsertLeg strategyId leg entryExponent).2) ∧
      ∃ row ∈ (t.upsertLeg strategyId leg entryExponent).1.legs,
        row.id = (t.upsertLeg strategyId leg entryExponent).2 ∧ row.text = leg.text entryExponent := by
  rw [upsertLeg]
  cases hfind : t.findLeg strategyId (leg.text entryExponent) with
  | some row =>
    obtain ⟨-, htext⟩ : row.strategyId = strategyId ∧ row.text = leg.text entryExponent := by
      simpa using List.find?_some hfind
    exact ⟨[], .refl _ _, by simp, by simp, row, List.mem_of_find?_eq_some hfind, rfl, htext⟩
  | none =>
    refine ⟨[t.newLeg strategyId leg entryExponent], ⟨rfl, rfl, rfl, rfl, ?_⟩, by simp [LegRow.text, newLeg],
      by simp [newLeg], t.newLeg strategyId leg entryExponent, List.mem_append_right _ (List.mem_singleton_self _), rfl, rfl⟩
    intro row hrow
    rw [List.mem_singleton.mp hrow]
    rfl

end PortfolioTables

end NiftyShield.Portfolio
