import NiftyShield.Lib.Rounding
import NiftyShield.Lib.Selection
import Mathlib.Data.List.Sort
import Mathlib.Data.Prod.Lex
import Mathlib.Data.Rat.Defs
import Mathlib.Algebra.Order.Ring.Rat

/-!
# Strike selection by delta

`filter_strikes_by_delta`, `rank_strikes` and `_apply_liquidity_gate`
(`src/instruments/strike_selector.py`) on the raw rows of the option chain endpoint, which carry the
instrument keys.

## What is proved

* `mem_filterStrikesByDelta`, `applyLiquidityGate_eq`: the rows that are found, and those of them
  that may be traded;
* `head?_applyLiquidityGate`: the row that is taken is the best ranked of those that may be traded.

## Honest scope

A raw entry is a record with the defaults of the source already applied: a missing delta
is `0`, a missing key empty, a missing price `none`. Floats are exact rationals.
-/

namespace NiftyShield.Instruments

open NiftyShield.Lib

/-- One side of a raw chain entry. -/
structure RawOption where
  /-- `instrument_key`, empty if missing. -/
  instrumentKey : String := ""
  /-- `option_greeks.delta`. -/
  delta : ℚ := 0
  /-- `option_greeks.iv`. -/
  iv : ℚ := 0
  /-- `market_data.ltp`. -/
  ltp : Option ℚ := none
  /-- `market_data.bid_price`. -/
  bidPrice : Option ℚ := none
  /-- `market_data.ask_price`. -/
  askPrice : Option ℚ := none
  /-- `market_data.oi`. -/
  oi : ℚ := 0
  deriving DecidableEq

/-- One raw chain entry. -/
structure RawEntry where
  /-- `strike_price`. -/
  strikePrice : ℚ
  /-- `call_options`. -/
  callOptions : RawOption := {}
  /-- `put_options`. -/
  putOptions : RawOption := {}
  deriving DecidableEq

/-- A flat row for one side of a strike. -/
structure StrikeRow where
  /-- `"CE"` or `"PE"`. -/
  side : String
  /-- Strike price. -/
  strike : ℚ
  /-- Delta. -/
  delta : ℚ
  /-- Implied volatility. -/
  iv : ℚ
  /-- Last price. -/
  ltp : ℚ
  /-- Mid, or last price for a one-sided quote. -/
  mid : ℚ
  /-- Best bid, `0` if missing. -/
  bid : ℚ
  /-- Best ask, `0` if missing. -/
  ask : ℚ
  /-- Open interest. -/
  oi : ℤ
  /-- Instrument key. -/
  instrumentKey : String
  deriving DecidableEq

/-- `_sides_for`. -/
def sidesFor (optionType : String) : List String :=
  if optionType = "CE" then ["CE"] else if optionType = "PE" then ["PE"] else ["CE", "PE"]

/-- The row of one side, if its delta is in range and it has a key and a last price. -/
def strikeRow (deltaMin deltaMax : ℚ) (entry : RawEntry) (side : String) : Option StrikeRow :=
  let opt := if side = "CE" then entry.callOptions else entry.putOptions
  if deltaMin ≤ |opt.delta| ∧ |opt.delta| ≤ deltaMax ∧ opt.instrumentKey ≠ "" then
    opt.ltp.map fun ltp =>
      let bid := opt.bidPrice.getD 0
      let ask := opt.askPrice.getD 0
      { side, strike := entry.strikePrice, delta := opt.delta, iv := opt.iv, ltp
        mid := if 0 < bid ∧ 0 < ask then (bid + ask) / 2 else ltp
        bid, ask, oi := truncate opt.oi, instrumentKey := opt.instrumentKey }
  else none

/-- `filter_strikes_by_delta`: the rows in range, by descending absolute delta. -/
def filterStrikesByDelta (chainData : List RawEntry) (optionType : String) (deltaMin deltaMax : ℚ) : List StrikeRow :=
  (chainData.flatMap fun entry => (sidesFor optionType).filterMap (strikeRow deltaMin deltaMax entry)).insertionSort
    fun r s => |s.delta| ≤ |r.delta|

/-- The spread `rank_strikes` compares. -/
def StrikeRow.spread (r : StrikeRow) : ℚ := if 0 < r.ask ∧ 0 < r.bid then r.ask - r.bid else 9999

/-- The ranking key: round hundreds first, then the two-rupee spread bucket, then open
interest, then the spread. -/
def StrikeRow.rankKey (r : StrikeRow) : ℕ ×ₗ ℤ ×ₗ ℤ ×ₗ ℚ :=
  toLex (if truncate r.strike % 100 = 0 then 0 else 1, toLex (truncate (r.spread / 2), toLex (-r.oi, r.spread)))

/-- `rank_strikes`: the rows by ascending key. -/
def rankStrikes (rows : List StrikeRow) : List StrikeRow := rows.insertionSort fun r s => r.rankKey ≤ s.rankKey

/-- `GateFailure`. -/
inductive GateFailure where
  /-- A side of the quote is missing. -/
  | oneSided
  /-- The quote is too wide. -/
  | spread
  /-- Too few contracts are open. -/
  | oi
  deriving DecidableEq

/-- `gate_failure_reason`. -/
def gateFailureReason (row : StrikeRow) (spreadCap : ℚ) (minOi : ℤ) (requireTwoSided : Bool) : Option GateFailure :=
  let twoSided := decide (0 < row.bid ∧ 0 < row.ask ∧ 0 < row.mid)
  if requireTwoSided && !twoSided then some .oneSided
  else if twoSided && decide (spreadCap < (row.ask - row.bid) / row.mid) then some .spread
  else if row.oi < minOi then some .oi else none

/-- `_apply_liquidity_gate` with its defaults. -/
def applyLiquidityGate (ranked : List StrikeRow) : List StrikeRow :=
  ranked.filter fun r => gateFailureReason r (5 / 100) 0 true = none

/-! ### The rows that are found -/

/-- A row that may be traded is quoted on both sides, at most a twentieth of the mid apart. -/
structure StrikeRow.Tradable (row : StrikeRow) : Prop where
  /-- There is a bid. -/
  bid_pos : 0 < row.bid
  /-- There is an ask. -/
  ask_pos : 0 < row.ask
  /-- They have a mid. -/
  mid_pos : 0 < row.mid
  /-- They are close. -/
  spread_le : row.ask - row.bid ≤ 5 / 100 * row.mid
  /-- The count of open contracts is one. -/
  oi_nonneg : 0 ≤ row.oi

theorem gateFailureReason_eq_none_iff {row : StrikeRow} :
    gateFailureReason row (5 / 100) 0 true = none ↔ row.Tradable := by
  unfold gateFailureReason
  by_cases htwo : 0 < row.bid ∧ 0 < row.ask ∧ 0 < row.mid
  · have hcap : 5 / 100 < (row.ask - row.bid) / row.mid ↔ 5 / 100 * row.mid < row.ask - row.bid :=
      lt_div_iff₀ htwo.2.2
    simp only [htwo, and_self, decide_true, Bool.not_true, Bool.and_false, Bool.false_eq_true, if_false, hcap,
      Bool.true_and, decide_eq_true_eq]
    split_ifs with hspread hoi
    · exact iff_of_false (by simp) fun h => not_lt.mpr h.spread_le hspread
    · exact iff_of_false (by simp) fun h => not_lt.mpr h.oi_nonneg hoi
    · exact iff_of_true rfl ⟨htwo.1, htwo.2.1, htwo.2.2, not_lt.mp hspread, not_lt.mp hoi⟩
  · simp only [htwo, decide_false, Bool.not_false, Bool.and_self, if_true]
    exact iff_of_false (by simp) fun h => htwo ⟨h.bid_pos, h.ask_pos, h.mid_pos⟩

instance (row : StrikeRow) : Decidable row.Tradable := decidable_of_iff _ gateFailureReason_eq_none_iff

theorem applyLiquidityGate_eq (ranked : List StrikeRow) :
    applyLiquidityGate ranked = ranked.filter fun r => r.Tradable := by
  unfold applyLiquidityGate
  congr 1
  funext r
  exact decide_eq_decide.mpr gateFailureReason_eq_none_iff

/-- **The row that is taken** is the first of the best ranked of those that may be traded. -/
theorem head?_applyLiquidityGate (rows : List StrikeRow) :
    (applyLiquidityGate (rankStrikes rows)).head? =
      Selection.firstBest StrikeRow.rankKey (rows.filter fun r => r.Tradable) := by
  rw [applyLiquidityGate_eq, rankStrikes, Selection.head?_filter_insertionSort]

/-- The rows of one side that are found. -/
theorem mem_filterStrikesByDelta {chainData : List RawEntry} {side : String} (hside : side = "CE" ∨ side = "PE")
    {deltaMin deltaMax : ℚ} {row : StrikeRow} :
    row ∈ filterStrikesByDelta chainData side deltaMin deltaMax ↔
      ∃ entry ∈ chainData, strikeRow deltaMin deltaMax entry side = some row := by
  have hsides : sidesFor side = [side] := by rcases hside with rfl | rfl <;> rfl
  rw [filterStrikesByDelta, List.mem_insertionSort, List.mem_flatMap, hsides]
  simp only [List.mem_filterMap, List.mem_singleton, exists_eq_left]

/-- What a row that is found has from its entry. -/
theorem strikeRow_eq_some {deltaMin deltaMax : ℚ} {entry : RawEntry} {side : String} {row : StrikeRow}
    (h : strikeRow deltaMin deltaMax entry side = some row) :
    row.side = side ∧ row.strike = entry.strikePrice ∧ deltaMin ≤ |row.delta| ∧ |row.delta| ≤ deltaMax ∧
      row.instrumentKey ≠ "" ∧ row.mid = if 0 < row.bid ∧ 0 < row.ask then (row.bid + row.ask) / 2 else row.ltp := by
  unfold strikeRow at h
  dsimp only at h
  generalize (if side = "CE" then entry.callOptions else entry.putOptions) = opt at h
  split at h
  next hin =>
    obtain ⟨ltp, -, rfl⟩ := Option.map_eq_some_iff.mp h
    exact ⟨rfl, rfl, hin.1, hin.2.1, hin.2.2, rfl⟩
  next => exact absurd h (by simp)

end NiftyShield.Instruments
