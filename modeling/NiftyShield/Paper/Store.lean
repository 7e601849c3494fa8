import NiftyShield.Instruments.Lookup
import NiftyShield.Lib.Grouping
import NiftyShield.Paper.Models
import Mathlib.Data.List.MinMax
import Mathlib.Data.List.Sort

/-!
# The paper trades ledger

The `paper_trades` table of `PaperStore` (`src/paper/store.py`) and its operations.

A `PaperTrades` value is a table that SQLite could hold: row ids increase and are below
the AUTOINCREMENT counter, and no two rows share the UNIQUE key (strategy, leg role,
instrument key, date, action). Every operation returns such a table, so the constraint is
never a hypothesis.

## What is proved

* what each write does to the rows and to the unique keys (`recordTrade_fresh`,
  `recordTrade_duplicate`, `hasKey_recordTrade_of_ne`, `rows_updateState`,
  `hasKey_updateState`);
* `get_trades` returns the strategy's rows, each once (`getTrades_perm`).

## Honest scope

A table operation here is one that commits; a failing database is modelled where a result
is about it. The option type of a position is resolved from the BOD file, `none` when the
file does not load.
-/

namespace NiftyShield.Paper

open NiftyShield.Instruments NiftyShield.Lib

/-- One row of `paper_trades`. -/
structure TradeRow where
  /-- The primary key. -/
  id : ℕ
  /-- The stored trade. -/
  trade : PaperTrade
  deriving DecidableEq

/-- The `paper_trades` table. -/
structure PaperTrades where
  /-- The rows, in id order. -/
  rows : List TradeRow
  /-- The next id AUTOINCREMENT hands out. -/
  nextId : ℕ
  /-- Ids increase along the rows. -/
  ids_increasing : rows.Pairwise fun r s => r.id < s.id
  /-- No id has been reused. -/
  ids_lt : ∀ r ∈ rows, r.id < nextId
  /-- The UNIQUE constraint. -/
  keys_unique : rows.Pairwise fun r s => r.trade.uniqueKey ≠ s.trade.uniqueKey

namespace PaperTrades

/-- The empty table. -/
def empty : PaperTrades := ⟨[], 1, List.Pairwise.nil, by simp, List.Pairwise.nil⟩

/-- Whether a row with this unique key exists. -/
def hasKey (T : PaperTrades) (k : PaperTrade.UniqueKey) : Bool := T.rows.any fun r => r.trade.uniqueKey = k

theorem hasKey_iff {T : PaperTrades} {k : PaperTrade.UniqueKey} :
    T.hasKey k = true ↔ ∃ r ∈ T.rows, r.trade.uniqueKey = k := by
  simp [hasKey]

theorem hasKey_eq_false_iff {T : PaperTrades} {k : PaperTrade.UniqueKey} :
    T.hasKey k = false ↔ ∀ r ∈ T.rows, r.trade.uniqueKey ≠ k := by
  simp [hasKey]

/-! ### Inserting -/

/-- The table with a new row for a trade whose unique key is free. -/
def insertRow (T : PaperTrades) (t : PaperTrade) (h : T.hasKey t.uniqueKey = false) : PaperTrades where
  rows := T.rows ++ [⟨T.nextId, t⟩]
  nextId := T.nextId + 1
  ids_increasing := by
    refine List.pairwise_append.mpr ⟨T.ids_increasing, List.pairwise_singleton _ _, fun r hr s hs => ?_⟩
    rw [List.mem_singleton.mp hs]
    exact T.ids_lt r hr
  ids_lt := fun r hr => by
    rcases List.mem_append.mp hr with hr | hr
    · exact (T.ids_lt r hr).trans (Nat.lt_succ_self _)
    · rw [List.mem_singleton.mp hr]
      exact Nat.lt_succ_self _
  keys_unique := by
    refine List.pairwise_append.mpr ⟨T.keys_unique, List.pairwise_singleton _ _, fun r hr s hs => ?_⟩
    rw [List.mem_singleton.mp hs]
    exact hasKey_eq_false_iff.mp h r hr

/-- `record_trade`: insert, or do nothing on a conflict of the unique key; `true` if the
row was inserted. -/
def recordTrade (T : PaperTrades) (t : PaperTrade) : PaperTrades × Bool :=
  if h : T.hasKey t.uniqueKey = false then (T.insertRow t h, true) else (T, false)

theorem recordTrade_fresh {T : PaperTrades} {t : PaperTrade} (h : T.hasKey t.uniqueKey = false) :
    (T.recordTrade t).2 = true ∧ (T.recordTrade t).1.rows = T.rows ++ [⟨T.nextId, t⟩] := by
  simp [recordTrade, h, insertRow]

theorem recordTrade_duplicate {T : PaperTrades} {t : PaperTrade} (h : T.hasKey t.uniqueKey = true) :
    T.recordTrade t = (T, false) := by
  simp [recordTrade, h]

/-- A write changes the table unless the key is taken. -/
theorem recordTrade_eq_self_iff {T : PaperTrades} {t : PaperTrade} :
    (T.recordTrade t).1 = T ↔ T.hasKey t.uniqueKey = true := by
  cases hkey : T.hasKey t.uniqueKey with
  | true => exact iff_of_true (by rw [recordTrade_duplicate hkey]) rfl
  | false =>
    refine iff_of_false (fun heq => ?_) Bool.false_ne_true
    have hrows := (recordTrade_fresh hkey).2
    rw [heq] at hrows
    simpa using congrArg List.length hrows

/-- After `record_trade` the unique key is taken. -/
theorem hasKey_recordTrade_self (T : PaperTrades) (t : PaperTrade) :
    (T.recordTrade t).1.hasKey t.uniqueKey = true := by
  cases h : T.hasKey t.uniqueKey with
  | true => rw [recordTrade_duplicate h, h]
  | false =>
    rw [hasKey_iff, (recordTrade_fresh h).2]
    exact ⟨_, List.mem_append_right _ (List.mem_singleton_self _), rfl⟩

/-- `record_trade` keeps every row. -/
theorem mem_recordTrade {T : PaperTrades} {r : TradeRow} (t : PaperTrade) (hr : r ∈ T.rows) :
    r ∈ (T.recordTrade t).1.rows := by
  cases h : T.hasKey t.uniqueKey with
  | true => rwa [recordTrade_duplicate h]
  | false =>
    rw [(recordTrade_fresh h).2]
    exact List.mem_append_left _ hr

/-- `record_trade` writes no other key. -/
theorem hasKey_recordTrade_of_ne (T : PaperTrades) {t : PaperTrade} {k : PaperTrade.UniqueKey}
    (hk : t.uniqueKey ≠ k) : (T.recordTrade t).1.hasKey k = T.hasKey k := by
  cases h : T.hasKey t.uniqueKey with
  | true => rw [recordTrade_duplicate h]
  | false => simp [hasKey, (recordTrade_fresh h).2, hk]

/-- `record_trades`: each trade in turn, in one transaction; the trades inserted and the
trades skipped as duplicates. -/
def recordTrades (T : PaperTrades) : List PaperTrade → PaperTrades × List PaperTrade × List PaperTrade
  | [] => (T, [], [])
  | t :: ts =>
    let r := T.recordTrade t
    let rest := r.1.recordTrades ts
    if r.2 then (rest.1, t :: rest.2.1, rest.2.2) else (rest.1, rest.2.1, t :: rest.2.2)

/-! ### Updating the state column -/

/-- `UPDATE paper_trades SET state = … WHERE p`. -/
def updateState (T : PaperTrades) (p : PaperTrade → Bool) (state : TradeState) : PaperTrades :=
  let f : TradeRow → TradeRow := fun r => if p r.trade then { r with trade := { r.trade with state } } else r
  have hid : ∀ r, (f r).id = r.id := fun r => by simp only [f]; split <;> rfl
  have hkey : ∀ r, (f r).trade.uniqueKey = r.trade.uniqueKey := fun r => by simp only [f]; split <;> rfl
  { rows := T.rows.map f
    nextId := T.nextId
    ids_increasing := List.pairwise_map.mpr (T.ids_increasing.imp fun {r s} h => by rwa [hid, hid])
    ids_lt := fun r hr => by
      obtain ⟨s, hs, rfl⟩ := List.mem_map.mp hr
      rw [hid]
      exact T.ids_lt s hs
    keys_unique := List.pairwise_map.mpr (T.keys_unique.imp fun {r s} h => by rwa [hkey, hkey]) }

theorem rows_updateState (T : PaperTrades) (p : PaperTrade → Bool) (state : TradeState) :
    (T.updateState p state).rows =
      T.rows.map fun r => if p r.trade then { r with trade := { r.trade with state } } else r := rfl

@[simp] theorem hasKey_updateState (T : PaperTrades) (p : PaperTrade → Bool) (state : TradeState)
    (k : PaperTrade.UniqueKey) : (T.updateState p state).hasKey k = T.hasKey k := by
  simp only [hasKey, rows_updateState, List.any_map]
  congr 1
  funext r
  simp only [Function.comp]
  split <;> rfl

/-- A row of the leg that is still OPEN or DEFENDED. -/
def isActive (strategyName legRole instrumentKey : String) (t : PaperTrade) : Bool :=
  t.strategyName = strategyName && t.legRole = legRole && t.instrumentKey = instrumentKey &&
    (t.state = .open || t.state = .defended)

/-- `mark_trade_closed`: the OPEN and DEFENDED rows of the leg become CLOSED. -/
def markTradeClosed (T : PaperTrades) (strategyName legRole instrumentKey : String) : PaperTrades :=
  T.updateState (isActive strategyName legRole instrumentKey) .closed

/-- `mark_trade_defended`: the OPEN rows of the leg become DEFENDED. -/
def markTradeDefended (T : PaperTrades) (strategyName legRole instrumentKey : String) : PaperTrades :=
  T.updateState (fun t => t.strategyName = strategyName && t.legRole = legRole &&
    t.instrumentKey = instrumentKey && t.state = .open) .defended

/-! ### Deleting -/

/-- `delete_trade`: the row with the trade's unique key, if there is one. -/
def deleteTrade (T : PaperTrades) (t : PaperTrade) : PaperTrades where
  rows := T.rows.filter fun r => r.trade.uniqueKey ≠ t.uniqueKey
  nextId := T.nextId
  ids_increasing := T.ids_increasing.filter _
  ids_lt := fun r hr => T.ids_lt r (List.mem_of_mem_filter hr)
  keys_unique := T.keys_unique.filter _

/-! ### Reading -/

/-- `ORDER BY trade_date ASC, id ASC`. -/
def orderRows (rows : List TradeRow) : List TradeRow :=
  rows.insertionSort fun r s => r.trade.tradeDate < s.trade.tradeDate ∨
    (r.trade.tradeDate = s.trade.tradeDate ∧ r.id ≤ s.id)

theorem orderRows_perm (rows : List TradeRow) : (orderRows rows).Perm rows := List.perm_insertionSort _ _

/-- `get_trades` of a strategy, all legs. -/
def getTrades (T : PaperTrades) (strategyName : String) : List PaperTrade :=
  (orderRows (T.rows.filter fun r => r.trade.strategyName = strategyName)).map (·.trade)

/-- `get_trades` of one leg of a strategy. -/
def getLegTrades (T : PaperTrades) (strategyName legRole : String) : List PaperTrade :=
  (orderRows (T.rows.filter fun r => r.trade.strategyName = strategyName && r.trade.legRole = legRole)).map (·.trade)

theorem getTrades_perm (T : PaperTrades) (strategyName : String) :
    (T.getTrades strategyName).Perm ((T.rows.map (·.trade)).filter fun t =>
      t.strategyName = strategyName) := by
  have h : (T.rows.map (·.trade)).filter (fun t => t.strategyName = strategyName) =
      (T.rows.filter fun r => r.trade.strategyName = strategyName).map (·.trade) := by
    rw [List.filter_map]
    rfl
  rw [h]
  exact (orderRows_perm _).map _

end PaperTrades

/-! ### Positions -/

/-- The running totals of one (leg, instrument) group since it was last flat. -/
structure CycleTotals where
  /-- `net_qty`. -/
  netQty : ℤ := 0
  /-- `buy_total_qty`. -/
  buyTotalQty : ℕ := 0
  /-- `buy_total_cost`. -/
  buyTotalCost : ℚ := 0
  /-- `sell_total_qty`. -/
  sellTotalQty : ℕ := 0
  /-- `sell_total_cost`. -/
  sellTotalCost : ℚ := 0
  /-- `cycle_start_date`. -/
  cycleStartDate : Option Date := none
  /-- `cycle_instrument_key`. -/
  cycleInstrumentKey : String

namespace CycleTotals

/-- The reset at a trade the group is flat before: the trade opens a new cycle. -/
def startCycle (c : CycleTotals) (t : PaperTrade) : CycleTotals :=
  if c.netQty = 0 then
    { netQty := c.netQty, cycleStartDate := some t.tradeDate, cycleInstrumentKey := t.instrumentKey }
  else c

/-- The totals after one more row. -/
def addTrade (c : CycleTotals) (t : PaperTrade) : CycleTotals :=
  let c := c.startCycle t
  match t.action with
  | .buy =>
    { c with
      netQty := c.netQty + t.quantity
      buyTotalQty := c.buyTotalQty + t.quantity
      buyTotalCost := c.buyTotalCost + t.price * t.quantity }
  | .sell =>
    { c with
      netQty := c.netQty - t.quantity
      sellTotalQty := c.sellTotalQty + t.quantity
      sellTotalCost := c.sellTotalCost + t.price * t.quantity }

/-- The totals of a whole group. -/
def ofTrades (instrumentKey : String) (ts : List PaperTrade) : CycleTotals :=
  ts.foldl addTrade { cycleInstrumentKey := instrumentKey }

end CycleTotals

/-- The instrument key of NiftyBees. -/
def niftybeesKey : String := "NSE_EQ|INF204KB14I2"

/-- `_resolve_option_type`: `"EQ"` for NiftyBees, else the type in the BOD file if it is
an option or a future. -/
def resolveOptionType (lookup : Option InstrumentLookup) (instrumentKey : String) : Option OptionType :=
  if instrumentKey = niftybeesKey then some .eq
  else
    match (lookup.bind (·.getByKey instrumentKey)).bind (·.instrumentType) with
    | some "CE" => some .ce
    | some "PE" => some .pe
    | some "FUT" => some .fut
    | _ => none

/-- The group key of `get_positions`. -/
def PaperTrade.legInstrument (t : PaperTrade) : String × String := (t.legRole, t.instrumentKey)

/-- The position of one group of rows, unless the group is flat. -/
def groupPosition (lookup : Option InstrumentLookup) (strategyName : String) (trades : List PaperTrade)
    (k : String × String) : Option PaperPosition :=
  let c := CycleTotals.ofTrades k.2 (Grouping.group PaperTrade.legInstrument trades k)
  if c.netQty = 0 then none
  else
    some
      { strategyName
        legRole := k.1
        netQty := c.netQty
        avgCost := if 0 < c.buyTotalQty then c.buyTotalCost / c.buyTotalQty else 0
        avgSellPrice := if 0 < c.sellTotalQty then c.sellTotalCost / c.sellTotalQty else 0
        instrumentKey := c.cycleInstrumentKey
        entryDate := c.cycleStartDate
        optionType := resolveOptionType lookup c.cycleInstrumentKey }

namespace PaperTrades

/-- `get_positions`: one position per (leg, instrument) group that is not flat, in order
of first appearance. -/
def getPositions (T : PaperTrades) (lookup : Option InstrumentLookup) (strategyName : String) : List PaperPosition :=
  let trades := T.getTrades strategyName
  (Grouping.keys PaperTrade.legInstrument trades).filterMap (groupPosition lookup strategyName trades)

/-- The flat position `get_position` returns when nothing matches. -/
def flatDefault (strategyName legRole : String) : PaperPosition :=
  { strategyName, legRole, netQty := 0, avgCost := 0, avgSellPrice := 0, instrumentKey := "" }

/-- The position `get_position` picks: the named instrument's, else the one of the leg
that was entered last. -/
def pickPosition (positions : List PaperPosition) (legRole : String) (instrumentKey : Option String) :
    Option PaperPosition :=
  let found := positions.filter fun p => p.legRole = legRole
  match instrumentKey with
  | some k => found.find? fun p => p.instrumentKey = k
  | none => found.argmax fun p => p.entryDate.getD Date.min

/-- `get_position`. -/
def getPosition (T : PaperTrades) (lookup : Option InstrumentLookup) (strategyName legRole : String)
    (instrumentKey : Option String) : PaperPosition :=
  (pickPosition (T.getPositions lookup strategyName) legRole instrumentKey).getD (flatDefault strategyName legRole)

end PaperTrades

end NiftyShield.Paper
