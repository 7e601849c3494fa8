import NiftyShield.Lib.Rounding
import NiftyShield.Portfolio.Tracker

/-!
# The combined portfolio summary

`_build_portfolio_summary` (`src/portfolio/summary.py`) adds up the strategies, the mutual
funds and the Dhan and Nuvama holdings. The gain of the EQUITY legs is computed as value less
cost, and the figure called options P&L is the total of every strategy, which has the gain of
its EQUITY legs already; the day change repeats both.

## What is proved

* `totalPnl_eq` and `totalDayDelta_eq`: the totals are what they should be plus the gain of the
  EQUITY legs, or its change;
* `counted_once_iff`: so they count each gain once exactly when that is zero.

## Honest scope

`Decimal` is exact rational. Of the summaries of the brokers and of the funds only the totals
are read. The percentages of single legs are left out.
-/

namespace NiftyShield.Portfolio

open NiftyShield.Lib

/-! ### The P&L of a strategy -/

/-- Prices by instrument key. -/
abbrev Prices := Dict String ℚ

/-- `prices.get(leg.instrument_key, leg.entry_price)`. -/
def priceOf (prices : Prices) (leg : Leg) : ℚ := (prices.get? leg.instrumentKey).getD leg.entryPrice

/-- `LegPnL`. -/
structure LegPnL where
  /-- The leg. -/
  leg : Leg
  /-- `current_price`. -/
  currentPrice : ℚ
  /-- `pnl`. -/
  pnl : ℚ
  deriving DecidableEq

/-- `StrategyPnL`. -/
structure StrategyPnL where
  /-- `strategy_name`. -/
  strategyName : String
  /-- `legs`. -/
  legs : List LegPnL
  deriving DecidableEq

/-- `total_pnl`. -/
def StrategyPnL.totalPnl (p : StrategyPnL) : ℚ := (p.legs.map LegPnL.pnl).sum

/-- `PortfolioTracker._build_strategy_pnl`. -/
def buildStrategyPnl (strategy : Strategy) (prices : Prices) : StrategyPnL where
  strategyName := strategy.name
  legs := strategy.legs.map fun leg =>
    { leg, currentPrice := priceOf prices leg, pnl := leg.pnl (priceOf prices leg) }

/-- `_compute_strategy_pnl_from_prices`, the same from stored prices. -/
def computeStrategyPnlFromPrices (strategy : Strategy) (prices : Prices) : StrategyPnL :=
  buildStrategyPnl strategy prices

/-! ### The other holdings -/

/-- The totals of `PortfolioPnL`. -/
structure MfPnL where
  /-- `total_current_value`. -/
  totalCurrentValue : ℚ
  /-- `total_invested`. -/
  totalInvested : ℚ
  /-- `total_pnl`. -/
  totalPnl : ℚ
  deriving DecidableEq

/-- The totals of `DhanPortfolioSummary`. -/
structure DhanSummary where
  /-- `equity_value`. -/
  equityValue : ℚ
  /-- `equity_basis`. -/
  equityBasis : ℚ
  /-- `equity_pnl`. -/
  equityPnl : ℚ
  /-- `bond_value`. -/
  bondValue : ℚ
  /-- `bond_basis`. -/
  bondBasis : ℚ
  /-- `bond_pnl`. -/
  bondPnl : ℚ
  /-- `equity_day_delta`. -/
  equityDayDelta : Option ℚ := none
  /-- `bond_day_delta`. -/
  bondDayDelta : Option ℚ := none
  deriving DecidableEq

/-- The totals of `NuvamaBondSummary`. -/
structure NuvamaSummary where
  /-- `total_value`. -/
  totalValue : ℚ
  /-- `total_basis`. -/
  totalBasis : ℚ
  /-- `total_pnl`. -/
  totalPnl : ℚ
  /-- `total_day_delta`. -/
  totalDayDelta : ℚ
  deriving DecidableEq

/-- `DailySnapshot` of a leg. -/
structure DailySnapshot where
  /-- `ltp`. -/
  ltp : ℚ
  deriving DecidableEq

/-! ### The summary -/

/-- The legs of all strategies. -/
def allLegs (strategies : List Strategy) : List Leg := strategies.flatMap Strategy.legs

/-- The EQUITY legs. -/
def equityLegs (strategies : List Strategy) : List Leg :=
  (allLegs strategies).filter fun leg => leg.assetType = .equity

/-- `_etf_current_value`. -/
def etfCurrentValue (strategies : List Strategy) (prices : Prices) : ℚ :=
  ((equityLegs strategies).map fun leg => priceOf prices leg * (leg.quantity : ℚ)).sum

/-- `_etf_cost_basis`. -/
def etfCostBasis (strategies : List Strategy) : ℚ :=
  ((equityLegs strategies).map fun leg => leg.entryPrice * (leg.quantity : ℚ)).sum

/-- `leg_id_to_key`. -/
def legIdToKey (strategies : List Strategy) : Dict ℕ String :=
  (allLegs strategies).foldl (fun d leg =>
    match leg.id with
    | some id => d.set id leg.instrumentKey
    | none => d) Dict.empty

/-- `_build_prev_prices`. -/
def buildPrevPrices (strategies : List Strategy) (prevSnapshots : Dict ℕ DailySnapshot) : Prices :=
  prevSnapshots.entries.foldl (fun d e =>
    match (legIdToKey strategies).get? e.1 with
    | some key => d.set key e.2.ltp
    | none => d) Dict.empty

/-- The strategies of the database, whose names are unique. -/
structure StrategyTable where
  /-- The strategies. -/
  strategies : List Strategy
  /-- `name TEXT NOT NULL UNIQUE`. -/
  nodup : (strategies.map Strategy.name).Nodup

/-- The arguments of `_build_portfolio_summary` but the P&L of the strategies. -/
structure SummaryInput where
  /-- `snap_date`. -/
  snapDate : Date
  /-- `strategies`. -/
  table : StrategyTable
  /-- The `HedgeStrategy` ones. -/
  hedge : Strategy → Bool := fun _ => false
  /-- `prices`. -/
  prices : Prices
  /-- `mf_pnl`. -/
  mfPnl : Option MfPnL := none
  /-- `prev_snapshots`. -/
  prevSnapshots : Option (Dict ℕ DailySnapshot) := none
  /-- `prev_mf_pnl`. -/
  prevMfPnl : Option MfPnL := none
  /-- `dhan_summary`. -/
  dhan : Option DhanSummary := none
  /-- `nuvama_summary`. -/
  nuvama : Option NuvamaSummary := none
  /-- `net_pnl` of `nuvama_options_summary`. -/
  nuvamaOptionsPnl : Option ℚ := none

/-- `PortfolioSummary`. -/
structure PortfolioSummary where
  /-- `snapshot_date`. -/
  snapshotDate : Date
  /-- `etf_value`. -/
  etfValue : ℚ
  /-- `etf_basis`. -/
  etfBasis : ℚ
  /-- `options_pnl`. -/
  optionsPnl : ℚ
  /-- `total_value`. -/
  totalValue : ℚ
  /-- `total_invested`. -/
  totalInvested : ℚ
  /-- `total_pnl`. -/
  totalPnl : ℚ
  /-- `total_pnl_pct`. -/
  totalPnlPct : ℚ
  /-- `mf_day_delta`. -/
  mfDayDelta : Option ℚ
  /-- `etf_day_delta`. -/
  etfDayDelta : Option ℚ
  /-- `options_day_delta`. -/
  optionsDayDelta : Option ℚ
  /-- `total_day_delta`. -/
  totalDayDelta : Option ℚ
  /-- `finrakshak_day_delta`. -/
  finrakshakDayDelta : Option ℚ
  deriving DecidableEq

namespace SummaryInput

variable (i : SummaryInput)

/-- The P&L by strategy name, as `PortfolioTracker` computes it from the legs and prices. -/
def strategyPnls : Dict String StrategyPnL :=
  Dict.index StrategyPnL.strategyName (i.table.strategies.map fun s => buildStrategyPnl s i.prices)

/-- `if prev_snapshots:`. -/
def prevPrices : Option Prices :=
  (i.prevSnapshots.filter fun prev => prev.entries ≠ []).map (buildPrevPrices i.table.strategies)

/-- `etf_value`. -/
def etfValue : ℚ := etfCurrentValue i.table.strategies i.prices

/-- `etf_basis`. -/
def etfBasis : ℚ := etfCostBasis i.table.strategies

/-- `options_pnl`. -/
def optionsPnl : ℚ := (i.strategyPnls.values.map StrategyPnL.totalPnl).sum

/-- `etf_day_delta`. -/
def etfDayDelta : Option ℚ := i.prevPrices.map fun prev => i.etfValue - etfCurrentValue i.table.strategies prev

/-- `options_day_delta`. -/
def optionsDayDelta : Option ℚ := i.prevPrices.map fun prev =>
  i.optionsPnl - (i.table.strategies.map fun s => (computeStrategyPnlFromPrices s prev).totalPnl).sum

/-- `finrakshak_day_delta`: that of the first hedge with a P&L. -/
def finrakshakDayDelta : Option ℚ := i.prevPrices.bind fun prev =>
  (i.table.strategies.filter i.hedge).findSome? fun s =>
    (i.strategyPnls.get? s.name).map fun curr => curr.totalPnl - (computeStrategyPnlFromPrices s prev).totalPnl

/-- `mf_value`. -/
def mfValue : ℚ := i.mfPnl.elim 0 MfPnL.totalCurrentValue

/-- `mf_day_delta`. -/
def mfDayDelta : Option ℚ :=
  match i.prevMfPnl, i.mfPnl with
  | some prev, some _ => some (i.mfValue - prev.totalCurrentValue)
  | _, _ => none

/-- The day deltas of the funds, Dhan and Nuvama. -/
def otherDayDelta : ℚ :=
  i.mfDayDelta.getD 0 + (i.dhan.bind DhanSummary.equityDayDelta).getD 0 + (i.dhan.bind DhanSummary.bondDayDelta).getD 0 +
    i.nuvama.elim 0 NuvamaSummary.totalDayDelta

/-- `any_delta`. -/
def anyDelta : Bool :=
  i.etfDayDelta.isSome || i.mfDayDelta.isSome || (i.dhan.bind DhanSummary.equityDayDelta).isSome ||
    (i.dhan.bind DhanSummary.bondDayDelta).isSome || i.nuvama.isSome

/-- `total_day_delta`. -/
def totalDayDelta : Option ℚ :=
  if i.anyDelta then some (i.etfDayDelta.getD 0 + i.optionsDayDelta.getD 0 + i.otherDayDelta) else none

/-- `total_value`. -/
def totalValue : ℚ :=
  i.mfValue + i.etfValue + i.optionsPnl + i.dhan.elim 0 DhanSummary.equityValue + i.dhan.elim 0 DhanSummary.bondValue +
    i.nuvama.elim 0 NuvamaSummary.totalValue

/-- `total_invested`. -/
def totalInvested : ℚ :=
  i.mfPnl.elim 0 MfPnL.totalInvested + i.etfBasis + i.dhan.elim 0 DhanSummary.equityBasis +
    i.dhan.elim 0 DhanSummary.bondBasis + i.nuvama.elim 0 NuvamaSummary.totalBasis

/-- The P&L of the funds, Dhan and Nuvama. -/
def otherPnl : ℚ :=
  i.mfPnl.elim 0 MfPnL.totalPnl + i.dhan.elim 0 DhanSummary.equityPnl + i.dhan.elim 0 DhanSummary.bondPnl +
    i.nuvama.elim 0 NuvamaSummary.totalPnl + i.nuvamaOptionsPnl.getD 0

/-- `total_pnl`. -/
def totalPnl : ℚ := i.etfValue - i.etfBasis + i.optionsPnl + i.otherPnl

/-- `_build_portfolio_summary`. -/
def buildPortfolioSummary : PortfolioSummary where
  snapshotDate := i.snapDate
  etfValue := i.etfValue
  etfBasis := i.etfBasis
  optionsPnl := i.optionsPnl
  totalValue := i.totalValue
  totalInvested := i.totalInvested
  totalPnl := i.totalPnl
  totalPnlPct := if i.totalInvested = 0 then 0 else quantizePaise (i.totalPnl / i.totalInvested * 100)
  mfDayDelta := i.mfDayDelta
  etfDayDelta := i.etfDayDelta
  optionsDayDelta := i.optionsDayDelta
  totalDayDelta := i.totalDayDelta
  finrakshakDayDelta := i.finrakshakDayDelta

/-! ### What the totals should be -/

/-- The sum of `leg.pnl` over all legs, each at its price. -/
def legsPnl (price : Leg → ℚ) : ℚ := ((allLegs i.table.strategies).map fun leg => leg.pnl (price leg)).sum

/-- The price of a leg in its own previous snapshot. -/
def prevLtp (prev : Dict ℕ DailySnapshot) (leg : Leg) : ℚ := ((leg.id.bind prev.get?).map DailySnapshot.ltp).getD 0

/-- The total P&L counts each leg once. -/
def PnlCountedOnce : Prop :=
  i.buildPortfolioSummary.totalPnl = i.legsPnl (priceOf i.prices) + i.otherPnl

/-- There are previous snapshots, one for every leg. -/
def HasPrev (prev : Dict ℕ DailySnapshot) : Prop :=
  i.prevSnapshots = some prev ∧ prev.entries ≠ [] ∧
    ∀ leg ∈ allLegs i.table.strategies, (leg.id.bind prev.get?).isSome = true

/-- The total day delta is the change of that sum. -/
def DayDeltaCountedOnce : Prop := ∀ prev, i.HasPrev prev →
  i.buildPortfolioSummary.totalDayDelta =
    some (i.legsPnl (priceOf i.prices) - i.legsPnl (prevLtp prev) + i.otherDayDelta)

/-- The gain of the EQUITY legs from one price to another. -/
def equityGain (before after : Leg → ℚ) : ℚ :=
  ((equityLegs i.table.strategies).map fun leg => (after leg - before leg) * (leg.quantity : ℚ)).sum

/-- What the previous P&L is off where two legs of one instrument have different previous
snapshots: the price by instrument is that of one of them. -/
def prevClash (prev : Dict ℕ DailySnapshot) : ℚ :=
  i.legsPnl (prevLtp prev) - i.legsPnl (priceOf (buildPrevPrices i.table.strategies prev))

end SummaryInput

/-! ### What the totals are -/

theorem sum_flatMap {α β : Type} (f : β → ℚ) (g : α → List β) :
    ∀ l : List α, ((l.flatMap g).map f).sum = (l.map fun a => ((g a).map f).sum).sum
  | [] => rfl
  | a :: l => by rw [List.flatMap_cons, List.map_append, List.sum_append, sum_flatMap f g l, List.map_cons, List.sum_cons]

theorem totalPnl_buildStrategyPnl (s : Strategy) (prices : Prices) :
    (buildStrategyPnl s prices).totalPnl = (s.legs.map fun leg => leg.pnl (priceOf prices leg)).sum := by
  rw [StrategyPnL.totalPnl, buildStrategyPnl, List.map_map]
  rfl

namespace SummaryInput

variable (i : SummaryInput)

theorem legsPnl_eq (prices : Prices) :
    i.legsPnl (priceOf prices) = (i.table.strategies.map fun s => (buildStrategyPnl s prices).totalPnl).sum := by
  rw [legsPnl, allLegs, sum_flatMap]
  simp only [totalPnl_buildStrategyPnl]

/-- The options P&L is that of every leg. -/
theorem optionsPnl_eq : i.optionsPnl = i.legsPnl (priceOf i.prices) := by
  have hnodup : ((i.table.strategies.map fun s => buildStrategyPnl s i.prices).map StrategyPnL.strategyName).Nodup := by
    rw [List.map_map]
    exact i.table.nodup
  rw [optionsPnl, strategyPnls, Dict.values_index _ hnodup, legsPnl_eq, List.map_map]
  rfl

theorem etfValue_sub (before after : Prices) :
    etfCurrentValue i.table.strategies after - etfCurrentValue i.table.strategies before =
      i.equityGain (priceOf before) (priceOf after) := by
  rw [etfCurrentValue, etfCurrentValue, equityGain, sub_eq_iff_eq_add, ← List.sum_map_add]
  congr 1
  exact List.map_congr_left fun leg _ => by ring

/-- **The total P&L** has the gain of the EQUITY legs once more. -/
theorem totalPnl_eq :
    i.buildPortfolioSummary.totalPnl =
      i.legsPnl (priceOf i.prices) + i.otherPnl + i.equityGain Leg.entryPrice (priceOf i.prices) := by
  have hgain : i.etfValue - i.etfBasis = i.equityGain Leg.entryPrice (priceOf i.prices) := by
    rw [etfValue, etfBasis, etfCurrentValue, etfCostBasis, equityGain, sub_eq_iff_eq_add, ← List.sum_map_add]
    congr 1
    exact List.map_congr_left fun leg _ => by ring
  show i.totalPnl = _
  rw [totalPnl, hgain, optionsPnl_eq]
  ring

/-- **The total day delta** has the day change of the EQUITY legs once more. -/
theorem totalDayDelta_eq {prev : Dict ℕ DailySnapshot} (h : i.HasPrev prev) :
    i.buildPortfolioSummary.totalDayDelta =
      some (i.legsPnl (priceOf i.prices) - i.legsPnl (prevLtp prev) + i.otherDayDelta +
        (i.equityGain (priceOf (buildPrevPrices i.table.strategies prev)) (priceOf i.prices) + i.prevClash prev)) := by
  have hprev : i.prevPrices = some (buildPrevPrices i.table.strategies prev) := by
    rw [prevPrices, h.1, Option.filter_some, if_pos (decide_eq_true h.2.1), Option.map_some]
  have hany : i.anyDelta = true := by simp [anyDelta, etfDayDelta, hprev]
  show i.totalDayDelta = _
  rw [totalDayDelta, if_pos hany, etfDayDelta, optionsDayDelta, hprev, Option.map_some, Option.map_some, Option.getD_some,
    Option.getD_some, etfValue, etfValue_sub, optionsPnl_eq, prevClash, Option.some.injEq]
  simp only [computeStrategyPnlFromPrices]
  rw [← legsPnl_eq]
  ring

/-- **When each gain is counted once**: when the EQUITY legs have gained nothing in total, nor
changed in total since the previous snapshots. -/
theorem counted_once_iff :
    i.PnlCountedOnce ∧ i.DayDeltaCountedOnce ↔
      i.equityGain Leg.entryPrice (priceOf i.prices) = 0 ∧
        ∀ prev, i.HasPrev prev →
          i.equityGain (priceOf (buildPrevPrices i.table.strategies prev)) (priceOf i.prices) + i.prevClash prev = 0 := by
  refine and_congr ?_ (forall₂_congr fun prev h => ?_)
  · rw [PnlCountedOnce, totalPnl_eq, add_eq_left]
  · rw [totalDayDelta_eq i h, Option.some.injEq, add_eq_left]

end SummaryInput

/-! ### One fund bought at 1388 -/

/-- A hundred units of an exchange-traded fund. -/
def fundLeg : Leg where
  id := some 1
  instrumentKey := "NSE_EQ|INF732E01045"
  displayName := "LIQUIDBEES"
  assetType := .equity
  direction := .buy
  quantity := 100
  entryPrice := 1388
  entryDate := 739266
  productType := .cnc

/-- The fund at 1400, after a close at 1390. -/
def fundInput : SummaryInput where
  snapDate := 739797
  table := { strategies := [{ name := "finideas_ilts", legs := [fundLeg] }], nodup := by decide }
  prices := Dict.empty.set "NSE_EQ|INF732E01045" 1400
  prevSnapshots := some (Dict.empty.set 1 { ltp := 1390 })

/-- The fund has gained 1200, and 1000 of it today; the summary reports 2400 and 2000. -/
theorem fund_counted_twice : ¬(fundInput.PnlCountedOnce ∧ fundInput.DayDeltaCountedOnce) := by
  rintro ⟨hpnl, -⟩
  have htotal : fundInput.buildPortfolioSummary.totalPnl = 2400 := by decide +kernel
  have hdue : fundInput.legsPnl (priceOf fundInput.prices) + fundInput.otherPnl = 1200 := by decide +kernel
  exact absurd (htotal.symm.trans (hpnl.trans hdue)) (by norm_num)

end NiftyShield.Portfolio
