import NiftyShield.Lib.Drawdown
import NiftyShield.Paper.Tracker
import NiftyShield.Paper.Writes

/-!
# The daily snapshot of a track

`generate_track_snapshot` (`src/paper/track_snapshot.py`) values a track from the open position
of each base role: its unrealized profit, and with it the realized profit of the role. It looks
at one position of a role, the one entered last, and at no role that is flat.
`PaperTracker.compute_pnl` values every open position and adds the realized profit of every
role.

## What is proved

* `computePnl_eq_snapshot`: the tracker has, besides what the snapshot has, the realized
  profit of the flat roles (`flatRealized`) and the unrealized profit of the positions that the
  snapshot does not look at (`hiddenUnrealized`);
* `engines_agree_iff`: so the two agree exactly when both are zero;
* `maxDrawdownAbs_isLeast`: the drawdown of a history is the least difference of a value and one
  at or before it, whatever is added to every value, and deeper for every longer history.

## Honest scope

The Greeks of a position are a parameter, as is the history of the track's own snapshots. The
proxy monitor is left out. A price map answers the same to every request.
-/

namespace NiftyShield.Paper

open NiftyShield.Lib NiftyShield.Instruments

/-! ### The code -/

/-- `TrackGreeks`. -/
structure TrackGreeks where
  /-- `net_delta`. -/
  netDelta : ℚ := 0
  /-- `net_theta`. -/
  netTheta : ℚ := 0
  /-- `net_vega`. -/
  netVega : ℚ := 0
  deriving DecidableEq

/-- `TrackPnL`. -/
structure TrackPnL where
  /-- `base_pnl`. -/
  basePnl : ℚ := 0
  /-- `net_pnl`. -/
  netPnl : ℚ := 0
  /-- `unrealized_pnl`. -/
  unrealizedPnl : ℚ := 0
  /-- `realized_pnl`. -/
  realizedPnl : ℚ := 0
  deriving DecidableEq

/-- `TrackSnapshot`. -/
structure TrackSnapshot where
  /-- `track_name`. -/
  trackName : String
  /-- `pnl`. -/
  pnl : TrackPnL := {}
  /-- `greeks`. -/
  greeks : TrackGreeks := {}
  /-- `max_drawdown_abs`. -/
  maxDrawdownAbs : ℚ := 0
  /-- `max_drawdown_pct`. -/
  maxDrawdownPct : ℚ := 0
  /-- `return_on_nee`. -/
  returnOnNee : ℚ := 0
  deriving DecidableEq

/-- `compute_return_on_nee`. -/
def computeReturnOnNee (pnl nee : ℚ) : ℚ := if nee = 0 then 0 else pnl / nee * 100

/-- `compute_cycle_max_drawdown`: the peak so far and the deepest fall from it. -/
def computeCycleMaxDrawdown (navHistory : List ℚ) (nee : ℚ) : ℚ × ℚ :=
  let fall := (navHistory.foldl (fun s val => (max s.1 val, min s.2 (val - max s.1 val)))
    (navHistory.headD 0, (0 : ℚ))).2
  (fall, if nee = 0 then 0 else fall / nee * 100)

/-- `_compute_realized_pnl_by_leg`: the realized profit of a role, zero if none is closed. -/
def realizedOfRole (trades : List PaperTrade) (role : String) : ℚ := (weightedRealized (roleTrades trades role)).getD 0

/-- `leg_role.startswith("base_")`. -/
def isBaseRole (role : String) : Bool := "base_".toList.isPrefixOf role.toList

/-- `open_positions`: for each base role, the position entered last. -/
def openPositions (T : PaperTrades) (lookup : Option InstrumentLookup) (s : String) : List PaperPosition :=
  (((sortedRoles (T.getTrades s)).filter isBaseRole).map fun role => T.getPosition lookup s role none).filter
    fun p => p.netQty ≠ 0

/-- `unrealized`: zero without a price. -/
def unrealizedOf (prices : String → Option ℚ) (p : PaperPosition) : ℚ :=
  (prices p.instrumentKey).elim 0 (computeLegUnrealizedPnl p)

/-- `generate_track_snapshot`, with the Greeks of a position, the P&L history of the track and
its notional exposure. -/
def generateTrackSnapshot (T : PaperTrades) (lookup : Option InstrumentLookup) (market : MarketLtp)
    (resolveLegDelta : PaperPosition → TrackGreeks) (navHistory : List ℚ) (nee : ℚ) (trackNamespace : String) :
    TrackSnapshot :=
  let trades := T.getTrades trackNamespace
  if trades = [] then { trackName := trackNamespace }
  else
    let positions := openPositions T lookup trackNamespace
    let instrumentKeys := (positions.map (·.instrumentKey)).filter (· ≠ "")
    let prices : String → Option ℚ := if instrumentKeys = [] then fun _ => none else market instrumentKeys
    let netPnl := (positions.map fun p => unrealizedOf prices p + realizedOfRole trades p.legRole).sum
    let navHistory := if navHistory.getLast? = some netPnl then navHistory else navHistory ++ [netPnl]
    { trackName := trackNamespace
      pnl :=
        { basePnl := netPnl
          netPnl
          unrealizedPnl := (positions.map (unrealizedOf prices)).sum
          realizedPnl := (positions.map fun p => realizedOfRole trades p.legRole).sum }
      greeks :=
        { netDelta := (positions.map fun p => (resolveLegDelta p).netDelta * p.netQty).sum
          netTheta := (positions.map fun p => (resolveLegDelta p).netTheta * p.netQty).sum
          netVega := (positions.map fun p => (resolveLegDelta p).netVega * p.netQty).sum }
      maxDrawdownAbs := (computeCycleMaxDrawdown navHistory nee).1
      maxDrawdownPct := (computeCycleMaxDrawdown navHistory nee).2
      returnOnNee := computeReturnOnNee netPnl nee }

/-! ### The drawdown -/

/-- The loop is the pass over the series that keeps the peak and the deepest fall. -/
theorem maxDrawdownAbs_eq_deepest (navHistory : List ℚ) (nee : ℚ) :
    (computeCycleMaxDrawdown navHistory nee).1 = Drawdown.deepest navHistory := rfl

/-- **The drawdown is the worst fall from a value to one at or after it.** -/
theorem maxDrawdownAbs_isLeast (navHistory : List ℚ) (nee : ℚ) :
    (navHistory = [] → (computeCycleMaxDrawdown navHistory nee).1 = 0) ∧
      (navHistory ≠ [] → IsLeast {d | ∃ (i j : ℕ) (a b : ℚ), i ≤ j ∧ navHistory[i]? = some a ∧ navHistory[j]? = some b ∧
        d = b - a} (computeCycleMaxDrawdown navHistory nee).1) ∧
      (computeCycleMaxDrawdown navHistory nee).1 ≤ 0 ∧
      (∀ c, (computeCycleMaxDrawdown (navHistory.map (· + c)) nee).1 = (computeCycleMaxDrawdown navHistory nee).1) ∧
      ∀ before after, (computeCycleMaxDrawdown (before ++ navHistory ++ after) nee).1 ≤
        (computeCycleMaxDrawdown navHistory nee).1 := by
  simp only [maxDrawdownAbs_eq_deepest]
  refine ⟨?_, Drawdown.isLeast_deepest, Drawdown.deepest_nonpos _, Drawdown.deepest_map_add _, ?_⟩
  · rintro rfl
    rfl
  · exact fun before after => Drawdown.deepest_append_le before navHistory after

/-! ### What the snapshot does not look at -/

section Engines

variable (T : PaperTrades) (lookup : Option InstrumentLookup) (s : String)

/-- The position is the one of its role that was entered last. -/
def isPicked (p : PaperPosition) : Bool :=
  PaperTrades.pickPosition (T.getPositions lookup s) p.legRole none = some p

/-- The realized profit of the roles that are flat. -/
def flatRealized : ℚ :=
  (((sortedRoles (T.getTrades s)).filter fun role =>
    (T.getPositions lookup s).all fun p => p.legRole ≠ role).map (realizedOfRole (T.getTrades s))).sum

/-- The unrealized profit of the open positions that are not the last entered of their role. -/
def hiddenUnrealized (prices : String → Option ℚ) : ℚ :=
  (((T.getPositions lookup s).filter fun p => !isPicked T lookup s p).map (unrealizedOf prices)).sum

/-- Every role of the ledger is a base role. -/
def OnlyBaseRoles : Prop := ∀ t ∈ T.getTrades s, isBaseRole t.legRole = true

/-- There is a price for every open instrument. -/
def AllPriced (prices : String → Option ℚ) : Prop :=
  ∀ p ∈ T.getPositions lookup s, (prices p.instrumentKey).isSome = true

/-- The snapshot's P&L is the tracker's, in total and in its two parts. -/
def EnginesAgree (prices : String → Option ℚ) (resolveLegDelta : PaperPosition → TrackGreeks) (navHistory : List ℚ)
    (nee : ℚ) : Prop :=
  ∀ unrealized realized total, computePnl T lookup (fun _ => prices) s = some (unrealized, realized, total) →
    let pnl := (generateTrackSnapshot T lookup (fun _ => prices) resolveLegDelta navHistory nee s).pnl
    pnl.netPnl = total ∧ pnl.unrealizedPnl = unrealized ∧ pnl.realizedPnl = realized

variable {T lookup s}

theorem legRole_getPosition (role : String) : (T.getPosition lookup s role none).legRole = role := by
  rw [PaperTrades.getPosition]
  cases hpick : PaperTrades.pickPosition (T.getPositions lookup s) role none with
  | none => rfl
  | some p => exact (mem_of_pickPosition hpick).2.1

/-- A role with an open position has one that is picked. -/
theorem pickPosition_isSome {p : PaperPosition} (hp : p ∈ T.getPositions lookup s) :
    ∃ q, PaperTrades.pickPosition (T.getPositions lookup s) p.legRole none = some q := by
  rw [← Option.isSome_iff_exists, Option.isSome_iff_ne_none]
  intro hnone
  have hempty := List.argmax_eq_none.mp hnone
  exact absurd (List.mem_filter.mpr ⟨hp, decide_eq_true rfl⟩) (hempty ▸ List.not_mem_nil)

theorem legRole_mem_sortedRoles {p : PaperPosition} (hp : p ∈ T.getPositions lookup s) :
    p.legRole ∈ sortedRoles (T.getTrades s) := by
  obtain ⟨k, hk, hpos⟩ := mem_getPositions.mp hp
  obtain ⟨t, ht, hleg⟩ := Grouping.mem_keys.mp hk
  exact mem_sortedRoles.mpr ⟨t, ht, congrArg Prod.fst (hleg.trans (pair_of_groupPosition hpos).symm)⟩

/-- The positions that are read role by role, for the roles that pass a test. -/
theorem pickedPositions_perm (test : String → Bool) :
    ((((sortedRoles (T.getTrades s)).filter test).map fun role => T.getPosition lookup s role none).filter
      fun p => p.netQty ≠ 0).Perm
      ((T.getPositions lookup s).filter fun p => test p.legRole && isPicked T lookup s p) := by
  have hnodup : ((((sortedRoles (T.getTrades s)).filter test).map fun role => T.getPosition lookup s role none).filter
      fun p => p.netQty ≠ 0).Nodup := by
    refine List.Nodup.filter _ (List.Nodup.of_map PaperPosition.legRole ?_)
    rw [List.map_map, show (PaperPosition.legRole ∘ fun role => T.getPosition lookup s role none) = id from
      funext legRole_getPosition, List.map_id]
    exact (nodup_sortedRoles _).filter _
  have hnodup' : ((T.getPositions lookup s).filter fun p => test p.legRole && isPicked T lookup s p).Nodup :=
    (List.Nodup.of_map _ (PaperTrades.nodup_pairs T lookup s)).filter _
  refine (List.perm_ext_iff_of_nodup hnodup hnodup').mpr fun p => ?_
  rw [List.mem_filter, List.mem_map, List.mem_filter, Bool.and_eq_true, isPicked, decide_eq_true_iff,
    decide_eq_true_iff]
  constructor
  · rintro ⟨⟨role, hrole, rfl⟩, hopen⟩
    rw [legRole_getPosition]
    rw [PaperTrades.getPosition] at hopen ⊢
    cases hpick : PaperTrades.pickPosition (T.getPositions lookup s) role none with
    | none =>
      rw [hpick] at hopen
      exact absurd rfl hopen
    | some q => exact ⟨(mem_of_pickPosition hpick).1, (List.mem_filter.mp hrole).2, rfl⟩
  · rintro ⟨hp, htest, hpick⟩
    refine ⟨⟨p.legRole, List.mem_filter.mpr ⟨legRole_mem_sortedRoles hp, htest⟩, ?_⟩, (getPositions_open hp).2.1⟩
    rw [PaperTrades.getPosition, hpick]
    rfl

/-- The positions that the snapshot looks at. -/
theorem openPositions_perm (hbase : OnlyBaseRoles T s) :
    (openPositions T lookup s).Perm ((T.getPositions lookup s).filter (isPicked T lookup s)) := by
  refine (pickedPositions_perm isBaseRole).trans (List.Perm.of_eq (List.filter_congr fun p hp => ?_))
  obtain ⟨t, ht, hrole⟩ := mem_sortedRoles.mp (legRole_mem_sortedRoles hp)
  rw [← hrole, hbase t ht, Bool.true_and]

/-- A sum over the open positions is one over those the snapshot looks at and one over the
others. -/
theorem sum_positions (hbase : OnlyBaseRoles T s) (f : PaperPosition → ℚ) :
    ((T.getPositions lookup s).map f).sum = ((openPositions T lookup s).map f).sum +
      (((T.getPositions lookup s).filter fun p => !isPicked T lookup s p).map f).sum := by
  rw [((openPositions_perm hbase).map f).sum_eq, ← List.sum_append, ← List.map_append]
  exact ((List.filter_append_perm (isPicked T lookup s) _).map f).sum_eq.symm

/-- The roles of the positions the snapshot looks at are those that are not flat. -/
theorem openRoles_perm (hbase : OnlyBaseRoles T s) :
    ((openPositions T lookup s).map PaperPosition.legRole).Perm ((sortedRoles (T.getTrades s)).filter fun role =>
      !(T.getPositions lookup s).all fun p => p.legRole ≠ role) := by
  refine ((openPositions_perm hbase).map _).trans ?_
  refine (List.perm_ext_iff_of_nodup ?_ ((nodup_sortedRoles _).filter _)).mpr fun role => ?_
  · refine (List.nodup_map_iff_inj_on ((List.Nodup.of_map _ (PaperTrades.nodup_pairs T lookup s)).filter _)).mpr ?_
    intro p hp q hq hrole
    have hpick := of_decide_eq_true (List.mem_filter.mp hp).2
    have hpick' := of_decide_eq_true (List.mem_filter.mp hq).2
    rw [hrole] at hpick
    exact Option.some.inj (hpick.symm.trans hpick')
  · rw [List.mem_map, List.mem_filter, Bool.not_eq_true', List.all_eq_false]
    constructor
    · rintro ⟨p, hp, rfl⟩
      have hmem := List.mem_of_mem_filter hp
      exact ⟨legRole_mem_sortedRoles hmem, p, hmem, by simp⟩
    · rintro ⟨-, p, hp, hrole⟩
      obtain rfl : p.legRole = role := by simpa using hrole
      obtain ⟨q, hpick⟩ := pickPosition_isSome hp
      obtain ⟨hq, hqrole, -⟩ := mem_of_pickPosition hpick
      refine ⟨q, List.mem_filter.mpr ⟨hq, decide_eq_true ?_⟩, hqrole⟩
      rw [hqrole]
      exact hpick

/-- The realized profit of all roles is that of the roles looked at and that of the flat ones. -/
theorem sum_realized (hbase : OnlyBaseRoles T s) :
    ((sortedRoles (T.getTrades s)).map (realizedOfRole (T.getTrades s))).sum =
      ((openPositions T lookup s).map fun p => realizedOfRole (T.getTrades s) p.legRole).sum +
        flatRealized T lookup s := by
  have hopen : ((openPositions T lookup s).map fun p => realizedOfRole (T.getTrades s) p.legRole) =
      ((openPositions T lookup s).map PaperPosition.legRole).map (realizedOfRole (T.getTrades s)) := by
    rw [List.map_map]
    rfl
  rw [hopen, ((openRoles_perm hbase).map _).sum_eq, flatRealized, add_comm, ← List.sum_append, ← List.map_append]
  exact ((List.filter_append_perm _ _).map _).sum_eq.symm

theorem computeRealizedPnl_eq_sum :
    computeRealizedPnl T s = ((sortedRoles (T.getTrades s)).map (realizedOfRole (T.getTrades s))).sum := by
  have hsum : ∀ roles : List String, ((roles.filterMap fun role =>
      (weightedRealized (roleTrades (T.getTrades s) role)).map fun r => (role, r)).map Prod.snd).sum =
        (roles.map (realizedOfRole (T.getTrades s))).sum := by
    intro roles
    induction roles with
    | nil => rfl
    | cons role roles ih =>
      rw [List.map_cons, List.sum_cons, ← ih, realizedOfRole]
      cases h : weightedRealized (roleTrades (T.getTrades s) role) <;> simp [h]
  rw [computeRealizedPnl, computeRealizedPnlByLeg]
  by_cases hnone : T.getTrades s = []
  · simp only [if_pos hnone]
    rw [hnone]
    rfl
  · simp only [if_neg hnone]
    exact hsum _

/-- A price map answers for the positions asked about, whichever else are. -/
private theorem prices_of_mem {prices : String → Option ℚ} {ps : List PaperPosition} {p : PaperPosition} (hp : p ∈ ps)
    (hkey : p.instrumentKey ≠ "") :
    (if (ps.map (·.instrumentKey)).filter (· ≠ "") = [] then fun _ => none else prices) p.instrumentKey =
      prices p.instrumentKey := by
  rw [if_neg]
  exact List.ne_nil_of_mem (List.mem_filter.mpr ⟨List.mem_map_of_mem hp, decide_eq_true hkey⟩)

/-- What the tracker reports where every open position has a price. -/
theorem computePnl_of_priced {prices : String → Option ℚ} (hpriced : AllPriced T lookup s prices)
    (htrades : T.getTrades s ≠ []) :
    computePnl T lookup (fun _ => prices) s =
      some (((T.getPositions lookup s).map (unrealizedOf prices)).sum,
        ((sortedRoles (T.getTrades s)).map (realizedOfRole (T.getTrades s))).sum,
        ((T.getPositions lookup s).map (unrealizedOf prices)).sum +
          ((sortedRoles (T.getTrades s)).map (realizedOfRole (T.getTrades s))).sum) := by
  have hopen : (T.getPositions lookup s).filter (fun p => p.netQty ≠ 0) = T.getPositions lookup s :=
    List.filter_eq_self.mpr fun p hp => by simpa using (getPositions_open hp).2.1
  have hunrealized : ((T.getPositions lookup s).map fun p => computeLegUnrealizedPnl p
      (((if ((T.getPositions lookup s).map (·.instrumentKey)).filter (· ≠ "") = [] then fun _ => none else prices)
        p.instrumentKey).getD 0)) = (T.getPositions lookup s).map (unrealizedOf prices) := by
    refine List.map_congr_left fun p hp => ?_
    obtain ⟨ltp, hltp⟩ := Option.isSome_iff_exists.mp (hpriced p hp)
    rw [prices_of_mem hp (getPositions_open hp).2.2, unrealizedOf, hltp]
    rfl
  unfold computePnl
  simp only [if_neg htrades, hopen, hunrealized, computeRealizedPnl_eq_sum]

/-- **The tracker has more**: the realized profit of the flat roles and the unrealized profit
of the positions not looked at. -/
theorem computePnl_eq_snapshot (hbase : OnlyBaseRoles T s) {prices : String → Option ℚ}
    (hpriced : AllPriced T lookup s prices) (resolveLegDelta : PaperPosition → TrackGreeks) (navHistory : List ℚ)
    (nee : ℚ) {unrealized realized total : ℚ}
    (h : computePnl T lookup (fun _ => prices) s = some (unrealized, realized, total)) :
    let pnl := (generateTrackSnapshot T lookup (fun _ => prices) resolveLegDelta navHistory nee s).pnl
    unrealized = pnl.unrealizedPnl + hiddenUnrealized T lookup s prices ∧
      realized = pnl.realizedPnl + flatRealized T lookup s ∧ total = unrealized + realized ∧
        pnl.netPnl = pnl.unrealizedPnl + pnl.realizedPnl := by
  have htrades : T.getTrades s ≠ [] := fun hnone => absurd h (by rw [computePnl, if_pos hnone]; simp)
  have hlooked : ∀ p ∈ openPositions T lookup s, p ∈ T.getPositions lookup s := fun p hp =>
    List.mem_of_mem_filter ((openPositions_perm hbase).subset hp)
  have hsnapshot : (openPositions T lookup s).map (unrealizedOf
      (if ((openPositions T lookup s).map (·.instrumentKey)).filter (· ≠ "") = [] then fun _ => none else prices)) =
      (openPositions T lookup s).map (unrealizedOf prices) := by
    refine List.map_congr_left fun p hp => ?_
    rw [unrealizedOf, unrealizedOf, prices_of_mem hp (getPositions_open (hlooked p hp)).2.2]
  obtain ⟨rfl, rfl, rfl⟩ := by
    simpa only [Option.some.injEq, Prod.mk.injEq] using (computePnl_of_priced hpriced htrades).symm.trans h
  simp only [generateTrackSnapshot, if_neg htrades, List.sum_map_add]
  refine ⟨?_, ?_, trivial, trivial⟩
  · rw [hsnapshot, hiddenUnrealized, sum_positions hbase]
  · exact sum_realized hbase

/-- **When the two engines agree**: when the flat roles have realized nothing in total and the
open positions that are not the last entered of their role have no unrealized profit in
total. -/
theorem engines_agree_iff (hbase : OnlyBaseRoles T s) {prices : String → Option ℚ}
    (hpriced : AllPriced T lookup s prices) (resolveLegDelta : PaperPosition → TrackGreeks) (navHistory : List ℚ)
    (nee : ℚ) :
    EnginesAgree T lookup s prices resolveLegDelta navHistory nee ↔
      flatRealized T lookup s = 0 ∧ hiddenUnrealized T lookup s prices = 0 := by
  by_cases htrades : T.getTrades s = []
  · have hpositions : T.getPositions lookup s = [] := by
      refine List.eq_nil_iff_forall_not_mem.mpr fun p hp => ?_
      obtain ⟨t, ht, -⟩ := mem_sortedRoles.mp (legRole_mem_sortedRoles hp)
      exact absurd ht (htrades ▸ List.not_mem_nil)
    refine iff_of_true (fun _ _ _ h => ?_) ⟨?_, ?_⟩
    · rw [computePnl, if_pos htrades] at h
      exact absurd h (by simp)
    · rw [flatRealized, htrades]
      rfl
    · rw [hiddenUnrealized, hpositions]
      rfl
  obtain ⟨unrealized, realized, total, hpnl⟩ : ∃ unrealized realized total,
      computePnl T lookup (fun _ => prices) s = some (unrealized, realized, total) := ⟨_, _, _, if_neg htrades⟩
  obtain ⟨hu, hr, ht, hnet⟩ := computePnl_eq_snapshot hbase hpriced resolveLegDelta navHistory nee hpnl
  constructor
  · intro h
    obtain ⟨-, hu', hr'⟩ := h _ _ _ hpnl
    exact ⟨by linarith, by linarith⟩
  · rintro ⟨hflat, hhidden⟩ u r t hpnl'
    obtain ⟨rfl, rfl, rfl⟩ : unrealized = u ∧ realized = r ∧ total = t := by
      simpa [Prod.ext_iff] using hpnl.symm.trans hpnl'
    exact ⟨by linarith, by linarith, by linarith⟩

end Engines

/-! ### A closed track -/

/-- One trade of the ETF holding of `paper_nifty_spot`. -/
private def etfTrade (d : Date) (a : TradeAction) (price : ℚ) (h : 0 < price) : PaperTrade where
  strategyName := "paper_nifty_spot"
  legRole := "base_etf"
  instrumentKey := "NSE_EQ|INF204KB14I2"
  tradeDate := d
  action := a
  quantity := 10
  price := price
  paperPrefix := hasPaperPrefix_spot
  legRole_ne := by decide
  instrumentKey_ne := by decide
  quantity_pos := tenUnits_pos
  price_pos := h

/-- Bought at 100. -/
def heldEtf : PaperTrades := (PaperTrades.empty.recordTrade (etfTrade 739700 .buy 100 price100_pos)).1

/-- And sold at 110. -/
def closedEtf : PaperTrades := (heldEtf.recordTrade (etfTrade 739710 .sell 110 price110_pos)).1

theorem closedEtf_onlyBase : OnlyBaseRoles closedEtf "paper_nifty_spot" := by
  have h : ∀ t ∈ closedEtf.getTrades "paper_nifty_spot", isBaseRole t.legRole = true := by decide +kernel
  exact h

theorem heldEtf_onlyBase : OnlyBaseRoles heldEtf "paper_nifty_spot" := by
  have h : ∀ t ∈ heldEtf.getTrades "paper_nifty_spot", isBaseRole t.legRole = true := by decide +kernel
  exact h

/-- The tracker reports the profit of 100, the snapshot nothing. -/
theorem closedEtf_engines_disagree :
    OnlyBaseRoles closedEtf "paper_nifty_spot" ∧
      AllPriced closedEtf none "paper_nifty_spot" (fun _ => some 112) ∧
      ¬ EnginesAgree closedEtf none "paper_nifty_spot" (fun _ => some 112) (fun _ => {}) [] 100000 := by
  refine ⟨closedEtf_onlyBase, fun _ _ => rfl, fun h => ?_⟩
  have hpnl : computePnl closedEtf none (fun _ _ => some 112) "paper_nifty_spot" = some (0, 100, 100) := by
    decide +kernel
  have hnet : (generateTrackSnapshot closedEtf none (fun _ _ => some 112) (fun _ => {}) [] 100000
      "paper_nifty_spot").pnl.netPnl = 0 := by decide +kernel
  exact absurd (hnet.symm.trans (h _ _ _ hpnl).1) (by norm_num)

/-- The equivalence at the holding before its sale. -/
theorem engines_agree_iff_heldEtf :
    EnginesAgree heldEtf none "paper_nifty_spot" (fun _ => some 112) (fun _ => {}) [] 100000 ↔
      flatRealized heldEtf none "paper_nifty_spot" = 0 ∧
        hiddenUnrealized heldEtf none "paper_nifty_spot" (fun _ => some 112) = 0 :=
  engines_agree_iff heldEtf_onlyBase (fun _ _ => rfl) (fun _ => {}) [] 100000

end NiftyShield.Paper
