import NiftyShield.MarketCalendar.Sessions
import NiftyShield.Mf.Tracker
import NiftyShield.Portfolio.SnapshotRun

/-!
# Replaying a recorded day

The daily snapshot script (`scripts/portfolio/daily_snapshot.py`) takes a day's snapshot live
(`_async_main`) and prints a past day again from the rows it left (`_historical_main`). Both use
the same overlay and the same fallback to the entry price. But the live run writes the price 0 for a
leg that has none, so the fallback never applies when the day is printed again; a trade-only leg is
a leg of the strategy by then, with one position for each instrument; and only the live run looks
for the previous NAVs before the previous trading day.

## What is proved

* `prices_replayed`: every leg of the past day has the price it was recorded with;
* `total_replayed`: what the past day's total is off;
* `replays_iff`: the past day shows the totals and the previous fund value of the live run exactly
  when, strategy by strategy, these errors cancel and the funds are worth the same on both days.

## Honest scope

Of the two paths the portfolio and the funds are modelled; Dhan, Nuvama and the printing are left
out. The fetched prices and NAVs are inputs. A live run without the database or the client does not
get as far as the model begins.
-/

namespace NiftyShield.Portfolio

open NiftyShield.Lib NiftyShield.Mf
open NiftyShield.MarketCalendar (TradingCalendar)

/-! ### The two paths -/

/-- The database: the tables of the portfolio and of the funds. -/
structure Database where
  /-- Portfolio. -/
  portfolio : PortfolioTables
  /-- Mutual funds. -/
  mf : MfTables

/-- What is handed to the summary of a day. -/
structure DayReport where
  /-- `strategies`. -/
  strategies : List Strategy
  /-- `prices`. -/
  prices : Prices
  /-- `strategy_pnls`. -/
  strategyPnls : Dict String (Option StrategyPnL)
  /-- `mf_pnl`. -/
  mfPnl : Option PortfolioPnL
  /-- `prev_snapshots`. -/
  prevSnapshots : Dict ℕ DailySnapshot
  /-- `prev_mf_pnl`. -/
  prevMfPnl : Option PortfolioPnL

/-- What a live run gets from outside the database. -/
structure LiveInputs where
  /-- The trading days. -/
  calendar : TradingCalendar
  /-- `date.today()`. -/
  today : Date
  /-- The fetched prices. -/
  prices : Prices
  /-- `fetch_navs`. -/
  fetchNavs : List String → Option (Dict String ℚ)
  /-- The exponents of the entry prices of trade-only legs. -/
  exponents : PortfolioTables.Exponents

/-- `strategies` with the trades laid over them, as both paths begin. -/
def PortfolioTables.withTrades (t : PortfolioTables) (today : Date) : List Strategy :=
  t.getAllStrategies.map fun s => applyTradePositions s (t.positions s.name) today

/-- `_async_main`: a day's snapshot; `none` if it fails. -/
def asyncMain (i : LiveInputs) (snapDate : Date) (db : Database) : Option (Database × DayReport) :=
  if db.portfolio.getAllStrategies = [] then none
  else
    (db.portfolio.recordAllStrategies i.exponents i.today snapDate i.prices).map fun (portfolio, strategyPnls) =>
      let run := recordSnapshot i.fetchNavs snapDate db.mf
      -- the funds are not fatal: if their run raises, there is no previous value either
      let prevMfPnl := run.2.bind fun _ =>
        computePrevMfPnl (run.1.getPrevNavSnapshots (i.calendar.prevTradingDay snapDate)) run.1.getHoldings
      ({ portfolio, mf := run.1 },
        { strategies := db.portfolio.withTrades i.today
          prices := i.prices
          strategyPnls
          mfPnl := run.2
          prevSnapshots := db.portfolio.getPrevSnapshots snapDate
          prevMfPnl })

/-- `_historical_main`: a past day from its rows; `none` if it fails. -/
def historicalMain (today snapDate : Date) (db : Database) : Option DayReport :=
  let strategies := db.portfolio.withTrades today
  let snapshots := db.portfolio.getSnapshotsForDate snapDate
  if strategies = [] then none
  else if snapshots.entries = [] then none
  else
    let prices := buildPrevPrices strategies snapshots
    let navs := db.mf.getNavSnapshotsForDate snapDate
    let schemes := navs.filterMap fun s => (db.mf.getHoldings.get? s.amfiCode).map fun h => computeSchemePnl h s.nav
    some
      { strategies
        prices
        strategyPnls := strategies.foldl (fun d s => d.set s.name (some (computeStrategyPnlFromPrices s prices))) Dict.empty
        mfPnl := if navs = [] ∨ schemes = [] then none else some (aggregateMfPnl snapDate schemes)
        prevSnapshots := db.portfolio.getPrevSnapshots snapDate
        prevMfPnl := if navs = [] then none
          else computePrevMfPnl (db.mf.getPrevNavSnapshots snapDate) db.mf.getHoldings }

/-- The total of a strategy. -/
def DayReport.totalPnl (r : DayReport) (name : String) : Option ℚ :=
  ((r.strategyPnls.get? name).bind id).map StrategyPnL.totalPnl

/-- The previous value of the funds. -/
def DayReport.prevMfValue (r : DayReport) : Option ℚ := r.prevMfPnl.map PortfolioPnL.totalCurrentValue

/-- The past day shows what the live run did: the total of every strategy and the previous value of
the funds. -/
def Replays (live : DayReport) (historical : Option DayReport) : Prop :=
  ∃ r, historical = some r ∧ (∀ name, r.totalPnl name = live.totalPnl name) ∧ r.prevMfValue = live.prevMfValue

/-! ### The errors -/

/-- What legs without a fetched price would report at the price 0 they are recorded with. -/
def unpricedPnl (prices : Prices) (legs : List Leg) : ℚ :=
  ((legs.filter fun leg => prices.get? leg.instrumentKey = none).map fun leg => leg.pnl 0).sum

/-- What the last position of an instrument reports for a trade-only leg. -/
def lastPnl (positions : List Position) (price : String → ℚ) (key : String) : ℚ :=
  ((usedPosition positions key).map fun pos => (price key - pos.averagePrice) * pos.quantity).getD 0

namespace PortfolioTables

/-- What trade-only legs report once they are legs of the strategy, each text once and at the last
position of its instrument, less what they report themselves. -/
def sharedError (i : LiveInputs) (t : PortfolioTables) (row : StrategyRow) : ℚ :=
  let legs := (t.overlaid i.today row).legs
  ((tradeOnlyTexts i.exponents row.name legs).map fun x =>
      lastPnl (t.positions row.name).values (snapshotLtp i.prices) x.instrumentKey).sum -
    ((legs.filter fun leg => leg.id = none).map fun leg => leg.pnl (snapshotLtp i.prices leg.instrumentKey)).sum

end PortfolioTables

/-- The day has a NAV after the live run. -/
def NavRecorded (i : LiveInputs) (snapDate : Date) (T : MfTables) : Prop := T.HasNavs snapDate ∨ NavRunWrites i.fetchNavs T

/-- When a day replays. -/
structure DayReplays (i : LiveInputs) (snapDate : Date) (db : Database) : Prop where
  /-- There is something to print. -/
  hasRows : db.portfolio.HasSnapshots snapDate ∨
    ∃ row ∈ db.portfolio.strategies, (db.portfolio.overlaid i.today row).legs ≠ []
  /-- In every strategy the errors cancel. -/
  totals : ∀ row ∈ db.portfolio.strategies,
    unpricedPnl i.prices (db.portfolio.overlaid i.today row).legs + db.portfolio.sharedError i row = 0
  /-- The funds are worth the same before the day as before the trading day before it. -/
  sameValue : ¬NavRunFails i.fetchNavs db.mf → NavRecorded i snapDate db.mf →
    db.mf.worthBefore snapDate = db.mf.worthBefore (i.calendar.prevTradingDay snapDate)
  /-- If the day has no NAV, they are worth nothing before the trading day before it. -/
  noValue : ¬NavRunFails i.fetchNavs db.mf → ¬NavRecorded i snapDate db.mf →
    db.mf.worthBefore (i.calendar.prevTradingDay snapDate) = none
  /-- If the run of the funds raised and the day has a NAV, they are worth nothing before it. -/
  failed : NavRunFails i.fetchNavs db.mf → NavRecorded i snapDate db.mf → db.mf.worthBefore snapDate = none

/-! ### The legs of the past day -/

namespace PortfolioTables.Recorded

variable {exponents : Exponents} {today later snapDate : Date} {prices : Prices} {t t' : PortfolioTables}

/-- Every trade-only leg has become a leg of its strategy: the past day appends none. -/
theorem appendedLegs_replayed (h : Recorded exponents today snapDate prices t t' t.byName) {row : StrategyRow}
    (hrow : row ∈ t.strategies) : appendedLegs (t'.load row) (t.positions row.name) later = [] := by
  obtain ⟨added, hlegs, htexts⟩ := h.added row (mem_byName.mpr hrow)
  refine List.eq_nil_iff_forall_not_mem.mpr fun leg hleg => ?_
  obtain ⟨legRole, pos, hpos, hout, hopen, rfl⟩ := mem_appendedLegs.mp hleg
  have hkeys : ∀ r ∈ t'.legRows row.id, r.columns.instrumentKey ≠ pos.instrumentKey := fun r hr hkey =>
    hout (List.mem_map.mpr ⟨r.toLeg, List.mem_map_of_mem hr, hkey⟩)
  -- the live run appended a leg for the position, so a row was added for its text
  let live := appendedLeg (((t.load row).legs.head?.map (·.entryDate)).getD today) legRole pos
  have hlive : live ∈ appendedLegs (t.load row) (t.positions row.name) today := by
    refine mem_appendedLegs.mpr ⟨legRole, pos, hpos, fun hin => ?_, hopen, rfl⟩
    obtain ⟨leg, hleg, hkey⟩ := List.mem_map.mp hin
    obtain ⟨r, hr, rfl⟩ := List.mem_map.mp hleg
    exact hkeys r (hlegs ▸ List.mem_append_left added hr) hkey
  have htext : live.text (exponents row.name live) ∈ added.map LegRow.text := by
    rw [htexts, tradeOnlyTexts, tradeOnly_overlaid]
    exact Grouping.mem_keys_of_mem hlive
  obtain ⟨r, hr, hrtext⟩ := List.mem_map.mp htext
  exact hkeys r (hlegs ▸ List.mem_append_right _ hr) (congrArg LegText.instrumentKey hrtext)

theorem withTrades_replayed (h : Recorded exponents today snapDate prices t t' t.byName) :
    t'.withTrades later = t.byName.map fun row => applyTradePositions (t'.load row)
    (t.positions row.name) later := by
  have hnames : t'.byName = t.byName := by rw [byName, h.strategies, byName]
  rw [withTrades, getAllStrategies, hnames, List.map_map]
  refine List.map_congr_left fun row _ => ?_
  rw [← h.positions_eq]
  rfl

theorem legs_replayed (h : Recorded exponents today snapDate prices t t' t.byName) {row : StrategyRow}
    (hrow : row ∈ t.strategies) : (applyTradePositions (t'.load row) (t.positions row.name) later).legs =
      (t'.getLegs row.id).filterMap (overlayLeg (byInstrumentKey (t.positions row.name))) := by
  rw [legs_applyTradePositions, h.appendedLegs_replayed hrow, List.append_nil]
  rfl

/-- Every leg of the past day is that of a row with a price of the day. -/
theorem row_of_replayed (h : Recorded exponents today snapDate prices t t' t.byName) {leg : Leg}
    (hleg : leg ∈ allLegs (t'.withTrades later)) :
    ∃ r ∈ t'.legs, leg.id = some r.id ∧ leg.instrumentKey = r.columns.instrumentKey ∧
      t'.PricedAt snapDate prices r := by
  rw [h.withTrades_replayed, allLegs] at hleg
  obtain ⟨strategy, hstrategy, hleg⟩ := List.mem_flatMap.mp hleg
  obtain ⟨row, hrow, rfl⟩ := List.mem_map.mp hstrategy
  rw [h.legs_replayed (mem_byName.mp hrow)] at hleg
  obtain ⟨loaded, hloaded, hover⟩ := List.mem_filterMap.mp hleg
  obtain ⟨r, hr, rfl⟩ := List.mem_map.mp hloaded
  obtain ⟨hid, hkey⟩ := of_overlayLeg_eq_some hover
  exact ⟨r, (mem_legRows.mp hr).1, hid, hkey, h.pricedAt row hrow r hr (by simp [hover])⟩

theorem legIdToKey_eq (strategies : List Strategy) : legIdToKey strategies =
    (allLegs strategies).foldl (fun d leg => d.set? leg.id leg.instrumentKey) Dict.empty := by
  unfold legIdToKey
  congr 1
  funext d leg
  cases leg.id <;> rfl

theorem buildPrevPrices_eq (strategies : List Strategy) (snapshots : Dict ℕ DailySnapshot) :
    buildPrevPrices strategies snapshots =
      snapshots.entries.foldl (fun d e => d.set? ((legIdToKey strategies).get? e.1) e.2.ltp) Dict.empty := by
  unfold buildPrevPrices
  congr 1
  funext d e
  cases (legIdToKey strategies).get? e.1 <;> rfl

/-- **The prices of the past day**: every leg has the price it was recorded with. -/
theorem prices_replayed (h : Recorded exponents today snapDate prices t t' t.byName) {leg : Leg}
    (hleg : leg ∈ allLegs (t'.withTrades later)) :
    (buildPrevPrices (t'.withTrades later) (t'.getSnapshotsForDate snapDate)).get? leg.instrumentKey =
      some (snapshotLtp prices leg.instrumentKey) := by
  have hkeys : ∀ i key, (legIdToKey (t'.withTrades later)).get? i = some key →
      ∃ leg ∈ allLegs (t'.withTrades later), leg.id = some i ∧ leg.instrumentKey = key := by
    intro i key hget
    rw [legIdToKey_eq] at hget
    exact (Dict.of_get?_foldl_set Leg.id Leg.instrumentKey hget).resolve_right (by simp)
  obtain ⟨r, hr, hid, hkey, hpriced⟩ := h.row_of_replayed hleg
  have hown : (legIdToKey (t'.withTrades later)).get? r.id = some leg.instrumentKey := by
    rw [legIdToKey_eq]
    refine Dict.get?_foldl_set_of_agree Leg.id Leg.instrumentKey ⟨leg, hleg, hid⟩
      (fun leg' hleg' hid' => ?_) Dict.empty
    obtain ⟨r', hr', hrid', hkey', -⟩ := h.row_of_replayed hleg'
    rw [hkey', hkey, leg_eq_of_id hr' hr (Option.some.inj (hrid'.symm.trans hid'))]
  have hentry : (r.id, ⟨snapshotLtp prices r.columns.instrumentKey⟩) ∈ (t'.getSnapshotsForDate
      snapDate).entries :=
    Dict.mem_entries_iff.mpr ((Dated.get?_onDay _ _ _).trans hpriced)
  rw [buildPrevPrices_eq]
  refine Dict.get?_foldl_set_of_agree (fun e : ℕ × DailySnapshot => (legIdToKey (t'.withTrades later)).get? e.1)
    (fun e => e.2.ltp) ⟨_, hentry, hown⟩ (fun e he hget => ?_) Dict.empty
  obtain ⟨leg', hleg', hid', hkey'⟩ := hkeys _ _ hget
  obtain ⟨r', -, hrid', hrkey', hpriced'⟩ := h.row_of_replayed hleg'
  have hrow : t'.dailySnapshots.get? (e.1, snapDate) = some e.2 :=
    (Dated.get?_onDay _ _ _).symm.trans (Dict.mem_entries_iff.mp he)
  rw [Option.some.inj (hid'.symm.trans hrid')] at hrow
  have hltp : e.2 = ⟨snapshotLtp prices r'.columns.instrumentKey⟩ := Option.some.inj (hrow.symm.trans hpriced')
  rw [hltp, ← hrkey', hkey']

end PortfolioTables.Recorded

/-! ### The totals of the past day -/

theorem pnl_entryPrice (leg : Leg) : leg.pnl leg.entryPrice = 0 := by
  unfold Leg.pnl
  cases leg.direction <;> simp

/-- Of the legs at their recorded prices, those without a fetched price are off. -/
theorem pnl_recorded (prices : Prices) : ∀ legs : List Leg,
    (legs.map fun leg => leg.pnl (snapshotLtp prices leg.instrumentKey)).sum =
      (legs.map fun leg => leg.pnl (priceOf prices leg)).sum + unpricedPnl prices legs
  | [] => by simp [unpricedPnl]
  | leg :: legs => by
    have ih := pnl_recorded prices legs
    rw [List.map_cons, List.sum_cons, ih, List.map_cons, List.sum_cons]
    cases hprice : prices.get? leg.instrumentKey with
    | none =>
      have hunpriced : unpricedPnl prices (leg :: legs) = leg.pnl 0 + unpricedPnl prices legs := by
        rw [unpricedPnl, List.filter_cons_of_pos (by simp [hprice]), List.map_cons, List.sum_cons]
        rfl
      rw [hunpriced, snapshotLtp, priceOf, hprice, Option.getD_none, Option.getD_none, pnl_entryPrice]
      ring
    | some price =>
      have hpriced : unpricedPnl prices (leg :: legs) = unpricedPnl prices legs := by
        rw [unpricedPnl, List.filter_cons_of_neg (by simp [hprice])]
        rfl
      rw [hpriced, snapshotLtp, priceOf, hprice, Option.getD_some, Option.getD_some]
      ring

/-- A bought leg on a traded instrument reports what the last position of it does. -/
theorem pnl_overlay_traded {positions : Dict String Position} (price : String → ℚ) {legs : List Leg}
    (hlegs : ∀ leg ∈ legs, leg.direction = .buy ∧ leg.instrumentKey ∈ positions.values.map (·.instrumentKey)) :
    ((legs.filterMap (overlayLeg (byInstrumentKey positions))).map fun leg =>
      leg.pnl (price leg.instrumentKey)).sum =
      (legs.map fun leg => lastPnl positions.values price leg.instrumentKey).sum := by
  have htraded : ((legs.filterMap (overlayLeg (byInstrumentKey positions))).filter fun leg =>
      leg.instrumentKey ∈ positions.values.map (·.instrumentKey)) =
      legs.filterMap (overlayLeg (byInstrumentKey positions)) := by
    refine List.filter_eq_self.mpr fun leg hleg => decide_eq_true ?_
    obtain ⟨loaded, hloaded, hover⟩ := List.mem_filterMap.mp hleg
    rw [(of_overlayLeg_eq_some hover).2]
    exact (hlegs loaded hloaded).2
  have hmatched := matched_pnl positions price legs
  rw [tradedPnl, ← byInstrumentKey, htraded] at hmatched
  rw [hmatched]
  congr 1
  refine List.map_congr_left fun leg hleg => ?_
  rw [lastPnl]
  congr 2
  funext pos
  rw [overlaidPnl, Leg.pnl, (hlegs leg hleg).1]

namespace PortfolioTables

variable {i : LiveInputs} {later snapDate : Date} {t t' : PortfolioTables}

/-- A trade-only text is of a bought leg on a traded instrument. -/
theorem of_mem_tradeOnlyTexts {row : StrategyRow} {x : LegText}
    (hx : x ∈ tradeOnlyTexts i.exponents row.name (t.overlaid i.today row).legs) :
    x.direction = .buy ∧ x.instrumentKey ∈ (t.positions row.name).values.map (·.instrumentKey) := by
  rw [tradeOnlyTexts, tradeOnly_overlaid] at hx
  obtain ⟨leg, hleg, rfl⟩ := Grouping.mem_keys.mp hx
  refine ⟨?_, (of_mem_appendedLegs hleg).2.1⟩
  obtain ⟨legRole, pos, -, -, -, rfl⟩ := mem_appendedLegs.mp hleg
  rfl

/-- **The total of the past day**: that of the live run, off by the legs without a price and by
the trade-only legs that have become one. -/
theorem total_replayed (h : Recorded i.exponents i.today snapDate i.prices t t' t.byName) {row : StrategyRow}
    (hrow : row ∈ t.strategies) :
    (computeStrategyPnlFromPrices (applyTradePositions (t'.load row) (t.positions row.name) later)
        (buildPrevPrices (t'.withTrades later) (t'.getSnapshotsForDate snapDate))).totalPnl =
      (buildStrategyPnl (t.overlaid i.today row) i.prices).totalPnl +
        (unpricedPnl i.prices (t.overlaid i.today row).legs + t.sharedError i row) := by
  let price := snapshotLtp i.prices
  obtain ⟨added, hadded, htexts⟩ := h.added row (mem_byName.mpr hrow)
  have hpriced : ∀ leg ∈ (applyTradePositions (t'.load row) (t.positions row.name) later).legs,
      priceOf (buildPrevPrices (t'.withTrades later) (t'.getSnapshotsForDate snapDate)) leg =
        price leg.instrumentKey := by
    intro leg hleg
    have hall : leg ∈ allLegs (t'.withTrades later) := by
      rw [h.withTrades_replayed, allLegs]
      exact List.mem_flatMap.mpr ⟨_, List.mem_map_of_mem (mem_byName.mpr hrow), hleg⟩
    rw [priceOf, h.prices_replayed hall, Option.getD_some]
  have hlegs : (t'.getLegs row.id).filterMap (overlayLeg (byInstrumentKey (t.positions row.name))) =
      (t.getLegs row.id).filterMap (overlayLeg (byInstrumentKey (t.positions row.name))) ++
        (added.map LegRow.toLeg).filterMap (overlayLeg (byInstrumentKey (t.positions row.name))) := by
    rw [getLegs, hadded, List.map_append, List.filterMap_append, getLegs]
  have hsaved : (((added.map LegRow.toLeg).filterMap (overlayLeg (byInstrumentKey (t.positions row.name)))).map
      fun leg => leg.pnl (price leg.instrumentKey)).sum =
      ((tradeOnlyTexts i.exponents row.name (t.overlaid i.today row).legs).map fun x =>
        lastPnl (t.positions row.name).values price x.instrumentKey).sum := by
    rw [pnl_overlay_traded price, ← htexts, List.map_map, List.map_map]
    · rfl
    · rintro leg hleg
      obtain ⟨r, hr, rfl⟩ := List.mem_map.mp hleg
      have hx : r.text ∈ tradeOnlyTexts i.exponents row.name (t.overlaid i.today row).legs :=
        htexts ▸ List.mem_map_of_mem hr
      exact of_mem_tradeOnlyTexts hx
  calc (computeStrategyPnlFromPrices (applyTradePositions (t'.load row) (t.positions row.name) later)
        (buildPrevPrices (t'.withTrades later) (t'.getSnapshotsForDate snapDate))).totalPnl
      = ((applyTradePositions (t'.load row) (t.positions row.name) later).legs.map fun leg =>
          leg.pnl (price leg.instrumentKey)).sum := by
        rw [computeStrategyPnlFromPrices, totalPnl_buildStrategyPnl]
        exact congrArg List.sum (List.map_congr_left fun leg hleg => by rw [hpriced leg hleg])
    _ = (((t.getLegs row.id).filterMap (overlayLeg (byInstrumentKey (t.positions row.name)))).map fun leg =>
          leg.pnl (price leg.instrumentKey)).sum +
          ((tradeOnlyTexts i.exponents row.name (t.overlaid i.today row).legs).map fun x =>
            lastPnl (t.positions row.name).values price x.instrumentKey).sum := by
        rw [h.legs_replayed hrow, hlegs, List.map_append, List.sum_append, hsaved]
    _ = ((t.overlaid i.today row).legs.map fun leg =>
      leg.pnl (price leg.instrumentKey)).sum + t.sharedError i row := by
        rw [sharedError, tradeOnly_overlaid, legs_overlaid, List.map_append, List.sum_append]
        ring
    _ = _ := by
        rw [pnl_recorded, totalPnl_buildStrategyPnl]
        ring

/-- With all prices fetched nothing is off. -/
theorem unpricedPnl_eq_zero {prices : Prices} {legs : List Leg}
    (h : ∀ leg ∈ legs, (prices.get? leg.instrumentKey).isSome = true) : unpricedPnl prices legs = 0 := by
  have hnil : (legs.filter fun leg => prices.get? leg.instrumentKey = none) = [] := by
    refine List.filter_eq_nil_iff.mpr fun leg hleg hnone => ?_
    have hsome := h leg hleg
    rw [of_decide_eq_true hnone] at hsome
    exact Bool.false_ne_true hsome
  rw [unpricedPnl, hnil]
  rfl

private theorem sublist_map_filterMap {α β γ : Type} {f : α → Option β} {g : β → γ} {k : α → γ}
    (h : ∀ a b, f a = some b → g b = k a) : ∀ l : List α, ((l.filterMap f).map g).Sublist (l.map k)
  | [] => .slnil
  | a :: l => by
    have ih := sublist_map_filterMap h l
    rw [List.filterMap_cons, List.map_cons]
    cases hfa : f a with
    | none => exact ih.cons _
    | some b =>
      rw [List.map_cons, h a b hfa]
      exact ih.cons_cons _

private theorem usedPosition_of_nodup {ps : List Position} (hps : (ps.map (·.instrumentKey)).Nodup)
    {pos : Position}
    (hpos : pos ∈ ps) : usedPosition ps pos.instrumentKey = some pos := by
  have hsome := usedPosition_isSome_iff.mpr (List.mem_map_of_mem (f := (·.instrumentKey)) hpos)
  obtain ⟨last, hlast⟩ := Option.isSome_iff_exists.mp hsome
  obtain ⟨hmem, hkey⟩ := Grouping.mem_group.mp (List.mem_of_getLast? hlast)
  rw [hlast, List.inj_on_of_nodup_map hps hmem hpos hkey]

/-- Where each instrument is traded under one role, a trade-only leg reports the same once it is a
leg of the strategy. -/
theorem sharedError_eq_zero {row : StrategyRow}
    (h : ((t.positions row.name).values.map (·.instrumentKey)).Nodup) : t.sharedError i row = 0 := by
  have hkeys : ((appendedLegs (t.load row) (t.positions row.name) i.today).map (·.instrumentKey)).Nodup := by
    have hsub : ((appendedLegs (t.load row) (t.positions row.name) i.today).map (·.instrumentKey)).Sublist
        ((t.positions row.name).values.map (·.instrumentKey)) := by
      rw [Dict.values, List.map_map]
      refine sublist_map_filterMap (fun e leg hleg => ?_) _
      simp only [Option.ite_none_left_eq_some, Option.some.injEq] at hleg
      obtain ⟨-, -, rfl⟩ := hleg
      rfl
    exact h.sublist hsub
  have htexts : tradeOnlyTexts i.exponents row.name (t.overlaid i.today row).legs =
      (appendedLegs (t.load row) (t.positions row.name) i.today).map fun leg =>
        leg.text (i.exponents row.name leg) := by
    rw [tradeOnlyTexts, tradeOnly_overlaid]
    refine Grouping.keys_eq_map_of_nodup _ (List.Nodup.of_map LegText.instrumentKey ?_)
    rw [List.map_map]
    exact hkeys
  rw [sharedError, htexts, tradeOnly_overlaid, List.map_map, sub_eq_zero]
  congr 1
  refine List.map_congr_left fun leg hleg => ?_
  obtain ⟨legRole, pos, hpos, -, -, rfl⟩ := mem_appendedLegs.mp hleg
  have hused : usedPosition (t.positions row.name).values pos.instrumentKey = some pos :=
    usedPosition_of_nodup h (List.mem_map.mpr ⟨_, hpos, rfl⟩)
  show lastPnl (t.positions row.name).values (snapshotLtp i.prices) pos.instrumentKey = _
  rw [lastPnl, hused]
  rfl

/-- The past day has one value for each strategy, under its name. -/
theorem pnls_replayed (h : Recorded i.exponents i.today snapDate i.prices t t' t.byName)
    (f : Strategy → Option StrategyPnL) :
    (∀ row ∈ t.strategies,
        ((t'.withTrades later).foldl (fun d s => d.set s.name (f s)) Dict.empty).get? row.name =
          some (f (applyTradePositions (t'.load row) (t.positions row.name) later))) ∧
      ∀ name ∉ t.strategies.map StrategyRow.name,
        ((t'.withTrades later).foldl (fun d s => d.set s.name (f s)) Dict.empty).get? name = none := by
  have hmem : ∀ s ∈ t'.withTrades later, ∃ row ∈ t.strategies,
      s = applyTradePositions (t'.load row) (t.positions row.name) later ∧ s.name = row.name := by
    intro s hs
    rw [h.withTrades_replayed] at hs
    obtain ⟨row, hrow, rfl⟩ := List.mem_map.mp hs
    exact ⟨row, mem_byName.mp hrow, rfl, rfl⟩
  constructor
  · rintro row hrow
    have hself : applyTradePositions (t'.load row) (t.positions row.name) later ∈ t'.withTrades later := by
      rw [h.withTrades_replayed]
      exact List.mem_map_of_mem (mem_byName.mpr hrow)
    refine Dict.get?_foldl_set_of_agree (fun s : Strategy => some s.name) f ⟨_, hself, rfl⟩
      (fun s hs hname => ?_) Dict.empty
    obtain ⟨row', hrow', rfl, hname'⟩ := hmem s hs
    have heq : row'.name = row.name := hname'.symm.trans (Option.some.inj hname)
    rw [List.inj_on_of_nodup_map t.nodup_names hrow' hrow heq]
  · rintro name hout
    refine Dict.get?_foldl_set_of_ne (fun s : Strategy => some s.name) f (fun s hs hname => hout ?_) Dict.empty
    obtain ⟨row, hrow, -, hrowname⟩ := hmem s hs
    exact List.mem_map.mpr ⟨row, hrow, hrowname.symm.trans (Option.some.inj hname)⟩

theorem hasSnapshots_iff (t : PortfolioTables) (d : Date) :
    t.HasSnapshots d ↔ (t.getSnapshotsForDate d).entries ≠ [] := by
  constructor
  · rintro ⟨i, s, hs⟩
    exact List.ne_nil_of_mem (Dict.mem_entries_iff.mpr ((Dated.get?_onDay ..).trans hs))
  · rintro hne
    obtain ⟨⟨i, s⟩, hs⟩ := List.exists_mem_of_ne_nil _ hne
    exact ⟨i, s, (Dated.get?_onDay ..).symm.trans (Dict.mem_entries_iff.mp hs)⟩

end PortfolioTables

/-! ### Replaying -/

variable {i : LiveInputs} {later snapDate : Date} {db db' : Database} {live : DayReport}

/-- What a live run leaves and hands to the summary. -/
theorem asyncMain_spec (h : asyncMain i snapDate db = some (db', live)) :
    db.portfolio.getAllStrategies ≠ [] ∧
      db.portfolio.Recorded i.exponents i.today snapDate i.prices db'.portfolio db.portfolio.byName ∧
      (∀ row ∈ db.portfolio.strategies,
        live.strategyPnls.get? row.name = some
          (some (buildStrategyPnl (db.portfolio.overlaid i.today row) i.prices))) ∧
      (∀ name ∉ db.portfolio.strategies.map StrategyRow.name, live.strategyPnls.get? name = none) ∧
      db'.mf = (recordSnapshot i.fetchNavs snapDate db.mf).1 ∧
      live.prevMfPnl = (recordSnapshot i.fetchNavs snapDate db.mf).2.bind fun _ =>
        computePrevMfPnl (db'.mf.getPrevNavSnapshots (i.calendar.prevTradingDay snapDate))
          db'.mf.getHoldings := by
  obtain ⟨t', pnls, hrun, hrecorded, hvalues, hnone⟩ :=
    @PortfolioTables.recordAllStrategies_spec i.exponents i.today snapDate i.prices db.portfolio
  rw [asyncMain, hrun] at h
  simp only [Option.ite_none_left_eq_some, Option.map_some, Option.some.injEq, Prod.mk.injEq] at h
  obtain ⟨hne, rfl, rfl⟩ := h
  exact ⟨hne, hrecorded, hvalues, hnone, rfl, rfl⟩

theorem prevTradingDay_le (c : TradingCalendar) (d : Date) : c.prevTradingDay d ≤ d :=
  (MarketCalendar.backToTradingDay_spec c.isTradingDay (d - 1)).1.trans (Nat.sub_le d 1)

/-- The previous value of the funds that the live run hands to the summary. -/
theorem live_prevMfValue (h : asyncMain i snapDate db = some (db', live)) :
    (NavRunFails i.fetchNavs db.mf → live.prevMfValue = none) ∧
      (¬NavRunFails i.fetchNavs db.mf →
        live.prevMfValue = db.mf.worthBefore (i.calendar.prevTradingDay snapDate)) := by
  obtain ⟨-, -, -, -, hmf, hprev⟩ := asyncMain_spec h
  obtain ⟨hwritten, -, hraise⟩ := recordSnapshot_spec i.fetchNavs snapDate db.mf
  rw [DayReport.prevMfValue, hprev]
  constructor
  · rintro hfails
    rw [hraise.mpr hfails]
    rfl
  · rintro hruns
    obtain ⟨pnl, hpnl⟩ := Option.ne_none_iff_exists'.mp (mt hraise.mp hruns)
    rw [hpnl, Option.bind_some, prev_value_eq, hmf]
    exact hwritten.worthBefore (prevTradingDay_le _ _)

/-- The previous value of the funds that the past day hands to the summary. -/
theorem replayed_prevMfValue (h : asyncMain i snapDate db = some (db', live)) {r : DayReport}
    (hr : historicalMain later snapDate db' = some r) :
    (NavRecorded i snapDate db.mf → r.prevMfValue = db.mf.worthBefore snapDate) ∧
      (¬NavRecorded i snapDate db.mf → r.prevMfValue = none) := by
  obtain ⟨-, -, -, -, hmf, -⟩ := asyncMain_spec h
  obtain ⟨hwritten, hrows, -⟩ := recordSnapshot_spec i.fetchNavs snapDate db.mf
  have hnavs : db'.mf.getNavSnapshotsForDate snapDate = [] ↔ ¬NavRecorded i snapDate db.mf := by
    rw [MfTables.getNavSnapshotsForDate_eq_nil_iff, NavRecorded, ← hrows, ← hmf, MfTables.HasNavs]
    simp
  simp only [historicalMain, Option.ite_none_left_eq_some, Option.some.injEq] at hr
  obtain ⟨-, -, rfl⟩ := hr
  rw [DayReport.prevMfValue]
  constructor
  · rintro hrecorded
    rw [if_neg (fun hnil => hnavs.mp hnil hrecorded), prev_value_eq, hmf]
    exact hwritten.worthBefore le_rfl
  · rintro hnone
    rw [if_pos (hnavs.mpr hnone)]
    rfl

/-- When the past day can be printed. -/
theorem historicalMain_isSome_iff (h : asyncMain i snapDate db = some (db', live)) :
    (∃ r, historicalMain later snapDate db' = some r) ↔
      db.portfolio.HasSnapshots snapDate ∨ ∃ row ∈ db.portfolio.strategies,
        (db.portfolio.overlaid i.today row).legs ≠ [] := by
  obtain ⟨hne, hrecorded, -⟩ := asyncMain_spec h
  have hstrategies : db'.portfolio.withTrades later ≠ [] := by
    rw [hrecorded.withTrades_replayed, ne_eq, List.map_eq_nil_iff]
    rintro hnil
    exact hne (by rw [PortfolioTables.getAllStrategies, hnil, List.map_nil])
  have hrows := hrecorded.hasSnapshots
  simp only [PortfolioTables.mem_byName] at hrows
  rw [← hrows, PortfolioTables.hasSnapshots_iff, historicalMain, if_neg hstrategies]
  by_cases hempty : (db'.portfolio.getSnapshotsForDate snapDate).entries = [] <;> simp [hempty]

/-- When the past day shows the totals of the live run. -/
theorem totals_replayed_iff (h : asyncMain i snapDate db = some (db', live)) {r : DayReport}
    (hr : historicalMain later snapDate db' = some r) :
    (∀ name, r.totalPnl name = live.totalPnl name) ↔
      ∀ row ∈ db.portfolio.strategies,
        unpricedPnl i.prices (db.portfolio.overlaid i.today row).legs + db.portfolio.sharedError i row = 0 := by
  obtain ⟨-, hrecorded, hvalues, hnone, -, -⟩ := asyncMain_spec h
  simp only [historicalMain, Option.ite_none_left_eq_some, Option.some.injEq] at hr
  obtain ⟨-, -, rfl⟩ := hr
  obtain ⟨hpast, hpastNone⟩ := @PortfolioTables.pnls_replayed i later snapDate db.portfolio
    db'.portfolio hrecorded fun s =>
    some (computeStrategyPnlFromPrices s
      (buildPrevPrices (db'.portfolio.withTrades later) (db'.portfolio.getSnapshotsForDate snapDate)))
  constructor
  · rintro hall row hrow
    have htotal := hall row.name
    simp only [DayReport.totalPnl, hpast row hrow, hvalues row hrow, Option.bind_some, id_eq, Option.map_some,
      Option.some.injEq, PortfolioTables.total_replayed hrecorded hrow] at htotal
    exact add_eq_left.mp htotal
  · rintro herr name
    by_cases hname : name ∈ db.portfolio.strategies.map StrategyRow.name
    · obtain ⟨row, hrow, rfl⟩ := List.mem_map.mp hname
      simp only [DayReport.totalPnl, hpast row hrow, hvalues row hrow, Option.bind_some, id_eq, Option.map_some,
        PortfolioTables.total_replayed hrecorded hrow, herr row hrow, add_zero]
    · simp only [DayReport.totalPnl, hpastNone name hname, hnone name hname]

/-- **When a day replays**: exactly when something was recorded, the errors of each strategy cancel
and the funds are worth the same before the day as before the trading day before it. -/
theorem replays_iff (h : asyncMain i snapDate db = some (db', live)) :
    Replays live (historicalMain later snapDate db') ↔ DayReplays i snapDate db := by
  obtain ⟨hliveFailed, hliveRan⟩ := live_prevMfValue h
  constructor
  · rintro ⟨r, hr, htotals, hprev⟩
    obtain ⟨hrecorded, hnot⟩ := replayed_prevMfValue h hr
    refine ⟨(historicalMain_isSome_iff h).mp ⟨r, hr⟩, (totals_replayed_iff h hr).mp htotals, ?_, ?_, ?_⟩
    · exact fun hruns hnav => (hrecorded hnav).symm.trans (hprev.trans (hliveRan hruns))
    · exact fun hruns hnav => (hliveRan hruns).symm.trans (hprev.symm.trans (hnot hnav))
    · exact fun hfails hnav => (hrecorded hnav).symm.trans (hprev.trans (hliveFailed hfails))
  · rintro hday
    obtain ⟨r, hr⟩ : ∃ r, historicalMain later snapDate db' = some r :=
      (historicalMain_isSome_iff h).mpr hday.hasRows
    obtain ⟨hrecorded, hnot⟩ := replayed_prevMfValue h hr
    refine ⟨r, hr, (totals_replayed_iff h hr).mpr hday.totals, ?_⟩
    by_cases hfails : NavRunFails i.fetchNavs db.mf <;> by_cases hnav : NavRecorded i snapDate db.mf
    · rw [hrecorded hnav, hliveFailed hfails, hday.failed hfails hnav]
    · rw [hnot hnav, hliveFailed hfails]
    · rw [hrecorded hnav, hliveRan hfails, hday.sameValue hfails hnav]
    · rw [hnot hnav, hliveRan hfails, hday.noValue hfails hnav]

/-! ### A weekend between two runs -/

/-- A hundred units of an exchange-traded fund, defined in a strategy. -/
def bondRow : LegRow where
  id := 1
  strategyId := 1
  columns :=
    { instrumentKey := "NSE_EQ|INF754K01LE1", displayName := "EBBETF0431", assetType := .equity, direction := .buy
      quantity := 100, entryPrice := 1388, entryDate := 739266, productType := .cnc }
  entryExponent := 0

/-- Ten units of another one, known from the trades only. -/
def liquidTrade : Trade where
  strategyName := "finideas_ilts"
  legRole := "LIQUIDBEES"
  instrumentKey := "NSE_EQ|INF732E01045"
  tradeDate := 739700
  action := .buy
  quantity := 10
  price := 1000
  strategyName_ne := finideas_ne
  legRole_ne := by decide
  instrumentKey_ne := by decide
  quantity_pos := by decide
  price_pos := by norm_num

/-- One strategy with the two. -/
def ilts : PortfolioTables where
  strategies := [{ id := 1, name := "finideas_ilts" }]
  legs := [bondRow]
  nextLegId := 2
  dailySnapshots := Dict.empty
  trades := LiveTrades.empty.recordTrade liquidTrade
  nodup_names := by decide
  nodup_ids := by decide
  nodup_legIds := by decide
  legIds_lt := by decide

/-- A thousand units of a mutual fund, with the NAVs of a Thursday and a Friday. -/
def flexiCap : MfTables where
  transactions :=
    [{ schemeName := "Parag Parikh Flexi Cap Fund - Reg Gr", amfiCode := "122639", transactionDate := 739266, units := 1000
       amount := 70000, transactionType := .initial, schemeName_ne := flexiCapName_ne, units_pos := by norm_num
       amount_pos := by norm_num }]
  navs := (Dict.empty.set ("122639", 739799) ⟨"Parag Parikh Flexi Cap Fund - Reg Gr", 80, by norm_num⟩).set
    ("122639", 739800) ⟨"Parag Parikh Flexi Cap Fund - Reg Gr", 81, by norm_num⟩
  keys_unique := by decide

/-- No fund was ever bought. -/
def noFunds : MfTables := { transactions := [], navs := Dict.empty, keys_unique := nodup_noKeys }

/-- A Monday's run with these prices. AMFI has Friday's NAV still. -/
def mondayRun (prices : Prices) : LiveInputs where
  calendar := TradingCalendar.weekdays
  today := 739803
  prices
  fetchNavs _ := some (Dict.empty.set "122639" 81)
  exponents _ _ := 0

/-- The fund of the strategy has no price that day: the live run reports the 10 rupees of the other
one and the funds of Thursday, the past day a loss of 138790 and the funds of Friday. -/
theorem monday_not_replayed :
    ∃ db' live, asyncMain (mondayRun (Dict.empty.set "NSE_EQ|INF732E01045" 1001)) 739803 ⟨ilts, flexiCap⟩ = some (db', live) ∧
      ¬Replays live (historicalMain 739810 739803 db') := by
  have hrun : ((asyncMain (mondayRun (Dict.empty.set "NSE_EQ|INF732E01045" 1001)) 739803 ⟨ilts, flexiCap⟩).map
      fun p => (p.2.totalPnl "finideas_ilts", p.2.prevMfValue)) = some (some 10, some 80000) := by
        decide +kernel
  have hpast : ((asyncMain (mondayRun (Dict.empty.set "NSE_EQ|INF732E01045" 1001)) 739803 ⟨ilts, flexiCap⟩).bind
      fun p => (historicalMain 739810 739803 p.1).map fun r => (r.totalPnl "finideas_ilts", r.prevMfValue)) =
      some (some (-138790), some 81000) := by decide +kernel
  cases h : asyncMain (mondayRun (Dict.empty.set "NSE_EQ|INF732E01045" 1001)) 739803 ⟨ilts, flexiCap⟩ with
  | none => simp [h] at hrun
  | some p =>
    obtain ⟨db', live⟩ := p
    refine ⟨db', live, rfl, ?_⟩
    rintro ⟨r, hr, htotals, -⟩
    simp only [h, hr, Option.map_some, Option.bind_some, Option.some.injEq, Prod.mk.injEq] at hrun hpast
    have htotal := htotals "finideas_ilts"
    rw [hrun.1, hpast.1] at htotal
    exact absurd (Option.some.inj htotal) (by norm_num)

/-- With both prices fetched and no mutual funds the day replays, trade-only leg included. -/
theorem replays_iff_monday :
    ∃ db' live, asyncMain (mondayRun ((Dict.empty.set "NSE_EQ|INF732E01045" 1001).set "NSE_EQ|INF754K01LE1" 1400)) 739803
        ⟨ilts, noFunds⟩ = some (db', live) ∧ Replays live (historicalMain 739810 739803 db') := by
  obtain ⟨⟨db', live⟩, h⟩ : ∃ p, asyncMain
      (mondayRun ((Dict.empty.set "NSE_EQ|INF732E01045" 1001).set "NSE_EQ|INF754K01LE1" 1400)) 739803
        ⟨ilts, noFunds⟩ = some p :=
    Option.isSome_iff_exists.mp (by decide +kernel)
  have hno : ∀ d, noFunds.worthBefore d = none := fun d => rfl
  refine ⟨db', live, h, (replays_iff h).mpr ⟨.inr ⟨_, List.mem_singleton_self _, ?_⟩, ?_, ?_, ?_, ?_⟩⟩
  · decide +kernel
  · decide +kernel
  · exact fun _ _ => (hno _).trans (hno _).symm
  · exact fun _ _ => hno _
  · exact fun _ _ => hno _

end NiftyShield.Portfolio
