import NiftyShield.Paper.Realized

/-!
# Paper P&L and cash

`PaperTracker.compute_pnl` (`src/paper/tracker.py`) adds the unrealized profit of the open
positions to the realized profit of the ledger. The two use different averages: a
position is marked against the averages since its (leg, instrument) pair was last flat,
the realized profit against the averages of the whole history of its leg role.

## What is proved

* `unrealized_eq`: the unrealized profit is market value less what the positions cost
  since they were last flat;
* `total_eq`: the total is cash plus market value plus the difference between the two
  costs of the open positions;
* `totalIsCash_iff`: so the total is cash plus market value exactly when the two costs
  agree, for any prices;
* `sinceFlatCost_eq_wholeHistoryCost`: they agree when every role trades one instrument
  and is never flat between two trades.

A role that is closed and opened again at another average violates the condition: in
`reopenedLedger` a profit of 100 is reported as a loss of 400.
-/

namespace NiftyShield.Paper

open NiftyShield.Lib NiftyShield.Instruments

/-! ### The code -/

/-- `_compute_leg_unrealized_pnl`. -/
def computeLegUnrealizedPnl (p : PaperPosition) (ltp : ℚ) : ℚ :=
  if p.netQty = 0 then 0
  else if p.netQty < 0 then (p.avgSellPrice - ltp) * |p.netQty|
  else (ltp - p.avgCost) * p.netQty

/-- `_compute_realized_pnl_by_leg`. -/
def computeRealizedPnlByLeg (trades : List PaperTrade) : List (String × ℚ) := realizedByRole trades

/-- `_compute_realized_pnl`. -/
def computeRealizedPnl (T : PaperTrades) (strategyName : String) : ℚ :=
  let trades := T.getTrades strategyName
  if trades = [] then 0 else ((computeRealizedPnlByLeg trades).map Prod.snd).sum

/-- A market data provider: the prices it returns for the keys it is asked for. -/
abbrev MarketLtp := List String → String → Option ℚ

/-- `PaperTracker.compute_pnl`: unrealized, realized and total profit, `none` for a
strategy without trades. -/
def computePnl (T : PaperTrades) (lookup : Option InstrumentLookup) (market : MarketLtp) (strategyName : String) :
    Option (ℚ × ℚ × ℚ) :=
  if T.getTrades strategyName = [] then none
  else
    let positions := (T.getPositions lookup strategyName).filter fun p => p.netQty ≠ 0
    let instrumentKeys := (positions.map (·.instrumentKey)).filter (· ≠ "")
    let prices : String → Option ℚ := if instrumentKeys = [] then fun _ => none else market instrumentKeys
    let unrealized := (positions.map fun p => computeLegUnrealizedPnl p ((prices p.instrumentKey).getD 0)).sum
    let realized := computeRealizedPnl T strategyName
    some (unrealized, realized, unrealized + realized)

/-! ### Market value and the two costs -/

/-- Net quantity times price, over the (leg, instrument) pairs. -/
def marketValue (ltp : String → ℚ) (trades : List PaperTrade) : ℚ :=
  ((Grouping.keys PaperTrade.legInstrument trades).map fun k =>
    (netOf PaperTrade.signedQty (legInstrumentTrades trades k) : ℚ) * ltp k.2).sum

/-- What the open positions cost since their pair was last flat: net quantity times the
average of the side that is ahead, over the trades since then. -/
def sinceFlatCost (trades : List PaperTrade) : ℚ :=
  ((Grouping.keys PaperTrade.legInstrument trades).map fun k =>
    (bookOf (sinceFlat PaperTrade.signedQty (legInstrumentTrades trades k))).carry).sum

/-! ### Unrealized profit -/

/-- The unrealized profit of one group: market value less its cost since it was flat. -/
private theorem unrealized_group (lookup : Option InstrumentLookup) (s : String) (ts : List PaperTrade)
    (k : String × String) (ltp : String → ℚ) :
    ((groupPosition lookup s ts k).elim 0 fun p => computeLegUnrealizedPnl p (ltp p.instrumentKey)) =
      (netOf PaperTrade.signedQty (legInstrumentTrades ts k) : ℚ) * ltp k.2 -
        (bookOf (sinceFlat PaperTrade.signedQty (legInstrumentTrades ts k))).carry := by
  have hnet : (bookOf (sinceFlat PaperTrade.signedQty (legInstrumentTrades ts k))).net =
      netOf PaperTrade.signedQty (legInstrumentTrades ts k) := by
    rw [net_bookOf, netOf_sinceFlat]
  rw [groupPosition_eq]
  generalize netOf PaperTrade.signedQty (legInstrumentTrades ts k) = n at hnet
  generalize bookOf (sinceFlat PaperTrade.signedQty (legInstrumentTrades ts k)) = b at hnet
  subst hnet
  unfold Book.carry Book.openAvg
  by_cases hz : b.net = 0
  · simp [hz]
  · rw [if_neg hz]
    simp only [Option.elim_some, computeLegUnrealizedPnl, if_neg hz]
    by_cases hneg : b.net < 0
    · have habs : |b.net| = -b.net := abs_of_neg hneg
      rw [if_pos hneg, if_neg (by omega), habs]
      push_cast
      ring
    · rw [if_neg hneg, if_pos (by omega)]
      ring

private theorem sum_filterMap_elim {α β : Type} (f : α → Option β) (g : β → ℚ) :
    ∀ l : List α, ((l.filterMap f).map g).sum = (l.map fun a => (f a).elim 0 g).sum
  | [] => rfl
  | a :: l => by
    rw [List.map_cons, List.sum_cons, ← sum_filterMap_elim f g l]
    cases h : f a <;> simp [h]

/-- The market has a price for every open instrument: it answers `ltp` when asked for
the instruments of the open positions. -/
def Quotes (market : MarketLtp) (ltp : String → ℚ) (positions : List PaperPosition) : Prop :=
  ∀ p ∈ positions, market (positions.map (·.instrumentKey)) p.instrumentKey = some (ltp p.instrumentKey)

/-- The unrealized profit is market value less the cost since the positions were flat. -/
theorem unrealized_eq (T : PaperTrades) (lookup : Option InstrumentLookup) (s : String) (ltp : String → ℚ) :
    ((T.getPositions lookup s).map fun p => computeLegUnrealizedPnl p (ltp p.instrumentKey)).sum =
      marketValue ltp (T.getTrades s) - sinceFlatCost (T.getTrades s) := by
  rw [PaperTrades.getPositions, sum_filterMap_elim, marketValue, sinceFlatCost, eq_sub_iff_add_eq,
    ← List.sum_map_add]
  congr 1
  refine List.map_congr_left fun k _ => ?_
  rw [unrealized_group]
  ring

/-! ### The total -/

theorem computeRealizedPnl_eq (T : PaperTrades) (s : String) :
    computeRealizedPnl T s = cashFlow (T.getTrades s) + wholeHistoryCost (T.getTrades s) := by
  rw [← realizedByRole_eq]
  unfold computeRealizedPnl computeRealizedPnlByLeg
  by_cases h : T.getTrades s = []
  · rw [if_pos h, h]
    rfl
  · rw [if_neg h]

/-- **What the total is**: cash plus market value, off by the difference between the two
costs of the open positions. -/
theorem total_eq {T : PaperTrades} {lookup : Option InstrumentLookup} {market : MarketLtp} {s : String}
    {ltp : String → ℚ} (hq : Quotes market ltp (T.getPositions lookup s)) {u r total : ℚ}
    (h : computePnl T lookup market s = some (u, r, total)) :
    total = cashFlow (T.getTrades s) + marketValue ltp (T.getTrades s) +
      (wholeHistoryCost (T.getTrades s) - sinceFlatCost (T.getTrades s)) := by
  have hopen : (T.getPositions lookup s).filter (fun p => p.netQty ≠ 0) = T.getPositions lookup s :=
    List.filter_eq_self.mpr fun p hp => by simpa using (getPositions_open hp).2.1
  have hkeys : ((T.getPositions lookup s).map (·.instrumentKey)).filter (· ≠ "") =
      (T.getPositions lookup s).map (·.instrumentKey) :=
    List.filter_eq_self.mpr fun k hk => by
      obtain ⟨p, hp, rfl⟩ := List.mem_map.mp hk
      simpa using (getPositions_open hp).2.2
  unfold computePnl at h
  split at h
  next => exact absurd h (by simp)
  next =>
    simp only [hopen, hkeys, Option.some.injEq, Prod.mk.injEq] at h
    obtain ⟨-, -, rfl⟩ := h
    rw [computeRealizedPnl_eq]
    have hprices : ((T.getPositions lookup s).map fun p => computeLegUnrealizedPnl p
        (((if (T.getPositions lookup s).map (·.instrumentKey) = [] then fun _ => none
          else market ((T.getPositions lookup s).map (·.instrumentKey))) p.instrumentKey).getD 0)) =
        (T.getPositions lookup s).map fun p => computeLegUnrealizedPnl p (ltp p.instrumentKey) := by
      refine List.map_congr_left fun p hp => ?_
      rw [if_neg (by simpa using List.ne_nil_of_mem hp), hq p hp]
      rfl
    rw [hprices, unrealized_eq]
    ring

/-- The total of `compute_pnl`, when it returns one, is cash plus market value. -/
def TotalIsCash (T : PaperTrades) (lookup : Option InstrumentLookup) (market : MarketLtp) (ltp : String → ℚ)
    (s : String) : Prop :=
  ∀ u r total, computePnl T lookup market s = some (u, r, total) →
    total = cashFlow (T.getTrades s) + marketValue ltp (T.getTrades s)

/-- **Cash conservation**: the total is cash plus market value exactly when the open
positions cost the same since they were last flat as over the whole history of their
role. -/
theorem totalIsCash_iff (T : PaperTrades) (lookup : Option InstrumentLookup) (market : MarketLtp)
    (ltp : String → ℚ) (s : String) (hq : Quotes market ltp (T.getPositions lookup s)) :
    TotalIsCash T lookup market ltp s ↔ sinceFlatCost (T.getTrades s) = wholeHistoryCost (T.getTrades s) := by
  by_cases hnone : T.getTrades s = []
  · have hpnl : computePnl T lookup market s = none := if_pos hnone
    have hcost : sinceFlatCost (T.getTrades s) = wholeHistoryCost (T.getTrades s) := by rw [hnone]; rfl
    exact ⟨fun _ => hcost, fun _ u r total h => absurd (hpnl.symm.trans h) (by simp)⟩
  · obtain ⟨u, r, total, hpnl⟩ : ∃ u r total, computePnl T lookup market s = some (u, r, total) :=
      ⟨_, _, _, if_neg hnone⟩
    have htotal := total_eq hq hpnl
    constructor
    · intro h
      have := h u r total hpnl
      linarith
    · intro h u' r' total' hpnl'
      obtain ⟨rfl, rfl, rfl⟩ : u' = u ∧ r' = r ∧ total' = total := by
        simpa [Prod.ext_iff] using hpnl'.symm.trans hpnl
      linarith

/-! ### When the costs agree -/

/-- Every role trades one instrument and is never flat between two of its trades. -/
structure SingleCycle (trades : List PaperTrade) : Prop where
  /-- One instrument for each role. -/
  oneInstrument : ∀ t ∈ trades, ∀ u ∈ trades, t.legRole = u.legRole → t.instrumentKey = u.instrumentKey
  /-- Never flat in between. -/
  neverFlat : ∀ role i, 0 < i → i < (roleTrades trades role).length →
    netOf PaperTrade.signedQty ((roleTrades trades role).take i) ≠ 0

private theorem SingleCycle.group_eq {trades : List PaperTrade} (h : SingleCycle trades)
    {k : String × String}
    (hk : k ∈ Grouping.keys PaperTrade.legInstrument trades) :
    legInstrumentTrades trades k = roleTrades trades k.1 := by
  obtain ⟨t, ht, rfl⟩ := Grouping.mem_keys.mp hk
  refine List.filter_congr fun u hu => ?_
  have hiff : u.legInstrument = t.legInstrument ↔ u.legRole = t.legRole :=
    ⟨congrArg Prod.fst, fun hrole => Prod.ext hrole (h.oneInstrument u hu t ht hrole)⟩
  exact decide_eq_decide.mpr hiff

private theorem SingleCycle.roles_perm {trades : List PaperTrade} (h : SingleCycle trades) :
    ((Grouping.keys PaperTrade.legInstrument trades).map Prod.fst).Perm (sortedRoles trades) := by
  refine (List.perm_ext_iff_of_nodup ?_ (nodup_sortedRoles trades)).mpr fun role => ?_
  · refine (List.nodup_map_iff_inj_on (Grouping.nodup_keys _ _)).mpr fun k hk l hl hkl => ?_
    obtain ⟨t, ht, rfl⟩ := Grouping.mem_keys.mp hk
    obtain ⟨u, hu, rfl⟩ := Grouping.mem_keys.mp hl
    exact Prod.ext hkl (h.oneInstrument t ht u hu hkl)
  · rw [List.mem_map, mem_sortedRoles]
    constructor
    · rintro ⟨k, hk, rfl⟩
      obtain ⟨t, ht, rfl⟩ := Grouping.mem_keys.mp hk
      exact ⟨t, ht, rfl⟩
    · rintro ⟨t, ht, rfl⟩
      exact ⟨_, Grouping.mem_keys_of_mem ht, rfl⟩

/-- A ledger whose roles each hold one instrument through one cycle costs the same either
way, so its total is cash plus market value. -/
theorem sinceFlatCost_eq_wholeHistoryCost {trades : List PaperTrade} (h : SingleCycle trades) :
    sinceFlatCost trades = wholeHistoryCost trades := by
  have hgroup : (Grouping.keys PaperTrade.legInstrument trades).map (fun k =>
      (bookOf (sinceFlat PaperTrade.signedQty (legInstrumentTrades trades k))).carry) =
      ((Grouping.keys PaperTrade.legInstrument trades).map Prod.fst).map fun role =>
        (bookOf (roleTrades trades role)).carry := by
    rw [List.map_map]
    refine List.map_congr_left fun k hk => ?_
    rw [h.group_eq hk, sinceFlat_eq_self _ (h.neverFlat k.1)]
    rfl
  rw [sinceFlatCost, hgroup, wholeHistoryCost]
  exact (h.roles_perm.map _).sum_eq

/-! ### A ledger where they differ -/

/-- One trade of a long put leg of `paper_pp`. -/
private def putTrade (d : Date) (a : TradeAction) (price : ℚ) (h : 0 < price) : PaperTrade where
  strategyName := "paper_pp"
  legRole := "overlay_pp"
  instrumentKey := "NSE_FO|65900"
  tradeDate := d
  action := a
  quantity := 10
  price := price
  paperPrefix := by decide
  legRole_ne := overlayPp_ne
  instrumentKey_ne := key65900_ne
  quantity_pos := tenUnits_pos
  price_pos := h

/-- Buy 10 at 100, sell them at 110, buy 10 again at 200. -/
def reopenedLedger : PaperTrades :=
  (((PaperTrades.empty.recordTrade (putTrade 739700 .buy 100 price100_pos)).1.recordTrade
    (putTrade 739710 .sell 110 price110_pos)).1.recordTrade (putTrade 739720 .buy 200 (by norm_num))).1

/-- At a price of 200 the reopened leg has made 100 and `compute_pnl` reports −400. -/
theorem reopenedLedger_not_cash :
    Quotes (fun _ _ => some 200) (fun _ => 200) (reopenedLedger.getPositions none "paper_pp") ∧
      ¬ TotalIsCash reopenedLedger none (fun _ _ => some 200) (fun _ => 200) "paper_pp" := by
  refine ⟨fun _ _ => rfl, fun h => ?_⟩
  have hpnl : computePnl reopenedLedger none (fun _ _ => some 200) "paper_pp" = some (0, -400, -400) := by
    decide +kernel
  have hcash : cashFlow (reopenedLedger.getTrades "paper_pp") +
      marketValue (fun _ => 200) (reopenedLedger.getTrades "paper_pp") = 100 := by
    decide +kernel
  exact absurd ((h _ _ _ hpnl).trans hcash) (by norm_num)

/-- The equivalence at that ledger: its positions cost 2000 since they were flat and 1500
over the whole history. -/
theorem totalIsCash_iff_reopenedLedger :
    TotalIsCash reopenedLedger none (fun _ _ => some 200) (fun _ => 200) "paper_pp" ↔
      sinceFlatCost (reopenedLedger.getTrades "paper_pp") = wholeHistoryCost (reopenedLedger.getTrades "paper_pp") :=
  totalIsCash_iff reopenedLedger none (fun _ _ => some 200) (fun _ => 200) "paper_pp" fun _ _ => rfl

end NiftyShield.Paper
