import NiftyShield.Strategy.IcExecution
import Mathlib.Algebra.Order.BigOperators.Group.Finset
import Mathlib.Algebra.Order.BigOperators.Group.List

/-!
# No naked short

Whether the shorts of an Iron Condor V2 are covered by the long hedges of their side, before
and after an auto-executed action of `check_signals` (`src/strategy/ic_nifty_v2.py`,
`src/strategy/ic_close_executor.py`). "The IC never ends up structurally one-sided as its
final state", says the strategy where it turns a blocked roll into a full close, and a roll
whose replacement keys do not resolve is blocked; but a Zone 2 lock leaves such a wing out of
the legs to open and still closes both old ones.

## What is proved

* `netQty_planned`: what a planned action leaves of each pair;
* `covered_iff`: coverage of the open positions as coverage of the net quantities;
* `covered_after_auto_iff`: after the action of an event the shorts are covered exactly when
  nothing is planned, or what stays and what is opened covers what stays short;
* `lock_leaves_naked_put`: a Zone 2 lock that does not resolve its put wing.

## Honest scope

The positions are those of the ledger, or a part of them, such as one expiry's. Quantities
are counted over the whole strategy.
-/

namespace NiftyShield.Strategy.IronCondor

open NiftyShield.Instruments NiftyShield.Lib NiftyShield.Lib.Raising NiftyShield.Paper

/-! ### Coverage -/

/-- The units of the long hedges of a side. -/
def hedgeQty (positions : List PaperPosition) (side : Side) : ℤ :=
  ((positions.filter fun p => p.legRole = side.longRole ∧ 0 < p.netQty).map (·.netQty)).sum

/-- Every short is covered by the long hedges of its side. -/
def Covered (positions : List PaperPosition) : Prop :=
  ∀ p ∈ positions, ∀ side : Side, p.legRole = side.shortRole → p.netQty < 0 →
    -p.netQty ≤ hedgeQty positions side

instance (positions : List PaperPosition) : Decidable (Covered positions) :=
  inferInstanceAs (Decidable (∀ p ∈ positions, ∀ _ : Side, _ → _ → _))

/-- Every short is covered by one long hedge of its side. -/
def HedgedEach (positions : List PaperPosition) : Prop :=
  ∀ p ∈ positions, ∀ side : Side, p.legRole = side.shortRole → p.netQty < 0 →
    ∃ q ∈ positions, q.legRole = side.longRole ∧ -p.netQty ≤ q.netQty

instance (positions : List PaperPosition) : Decidable (HedgedEach positions) :=
  inferInstanceAs (Decidable (∀ p ∈ positions, ∀ _ : Side, _ → _ → ∃ q ∈ positions, _ ∧ _))

/-- One hedge that is large enough is among them. -/
theorem HedgedEach.covered {positions : List PaperPosition} (h : HedgedEach positions) :
    Covered positions := by
  intro p hp side hrole hshort
  obtain ⟨q, hq, hqrole, hle⟩ := h p hp side hrole hshort
  have hmem : q ∈ positions.filter fun p => p.legRole = side.longRole ∧ 0 < p.netQty :=
    List.mem_filter.mpr ⟨hq, decide_eq_true ⟨hqrole, by omega⟩⟩
  refine hle.trans (List.single_le_sum (fun n hn => ?_) _ (List.mem_map_of_mem hmem))
  obtain ⟨r, hr, rfl⟩ := List.mem_map.mp hn
  exact (of_decide_eq_true (List.mem_filter.mp hr).2).2.le

/-- Coverage of the net quantities of the pairs, over some instruments. -/
def CoveredOver (K : Finset String) (net : String × String → ℤ) : Prop :=
  ∀ side : Side, ∀ i ∈ K, -net (side.shortRole, i) ≤ ∑ j ∈ K, max (net (side.longRole, j)) 0

instance (K : Finset String) (net : String × String → ℤ) : Decidable (CoveredOver K net) :=
  inferInstanceAs (Decidable (∀ _ : Side, ∀ i ∈ K, _ ≤ _))

/-- The hedges of a side, by their instruments. -/
theorem hedgeQty_getPositions {T : PaperTrades} {lookup : Option InstrumentLookup} {s : String}
    {K : Finset String}
    (hK : ∀ k, T.netQty s k ≠ 0 → k.2 ∈ K) (side : Side) :
    hedgeQty (T.getPositions lookup s) side = ∑ j ∈ K, max (T.netQty s (side.longRole, j)) 0 := by
  have hlong : ∀ p ∈ (T.getPositions lookup s).filter fun p => p.legRole = side.longRole ∧ 0 < p.netQty,
      p ∈ T.getPositions lookup s ∧ p.legRole = side.longRole ∧ 0 < p.netQty := fun p hp =>
    ⟨(List.mem_filter.mp hp).1, of_decide_eq_true (List.mem_filter.mp hp).2⟩
  have hnet : ∀ p ∈ (T.getPositions lookup s).filter fun p => p.legRole = side.longRole ∧ 0 < p.netQty,
      p.netQty = max (T.netQty s (side.longRole, p.instrumentKey)) 0 := fun p hp => by
    obtain ⟨hmem, hrole, hpos⟩ := hlong p hp
    have hpair := PaperTrades.netQty_of_mem hmem
    rw [PaperPosition.pair, hrole] at hpair
    rw [← hpair, max_eq_left hpos.le]
  have hnd : (((T.getPositions lookup s).filter fun p => p.legRole = side.longRole ∧ 0 < p.netQty).map
      (·.instrumentKey)).Nodup := by
    refine List.Nodup.map_on (fun p hp q hq hkey => ?_)
      ((PaperTrades.nodup_pairs T lookup s).of_map _ |>.filter _)
    obtain ⟨hpm, hpr, -⟩ := hlong p hp
    obtain ⟨hqm, hqr, -⟩ := hlong q hq
    exact PaperTrades.pair_injOn hpm hqm (Prod.ext (hpr.trans hqr.symm) hkey)
  rw [hedgeQty, List.map_congr_left hnet,
    show (fun p : PaperPosition => max (T.netQty s (side.longRole, p.instrumentKey)) 0) =
      (fun j => max (T.netQty s (side.longRole, j)) 0) ∘ (·.instrumentKey) from rfl,
    ← List.map_map, ← List.sum_toFinset _ hnd]
  refine Finset.sum_subset (fun j hj => ?_) (fun j _ hj => ?_)
  · obtain ⟨p, hp, rfl⟩ := List.mem_map.mp (List.mem_toFinset.mp hj)
    obtain ⟨hmem, -, -⟩ := hlong p hp
    exact hK p.pair (PaperTrades.exists_position_iff.mp ⟨p, hmem, rfl⟩)
  · -- an instrument without a long hedge adds nothing
    refine max_eq_right (not_lt.mp fun hpos => hj ?_)
    obtain ⟨p, hp, hpair⟩ : ∃ p ∈ T.getPositions lookup s, p.pair = (side.longRole, j) :=
      PaperTrades.exists_position_iff.mpr hpos.ne'
    obtain ⟨hrole, rfl⟩ := Prod.mk.inj hpair
    rw [← hpair, ← PaperTrades.netQty_of_mem hp] at hpos
    exact List.mem_toFinset.mpr (List.mem_map_of_mem
      (List.mem_filter.mpr ⟨hp, decide_eq_true ⟨hrole, hpos⟩⟩))

/-- **Coverage of the positions** is coverage of the net quantities, over any instruments
that include those of the open pairs. -/
theorem covered_iff {T : PaperTrades} {lookup : Option InstrumentLookup} {s : String} {K : Finset String}
    (hK : ∀ k, T.netQty s k ≠ 0 → k.2 ∈ K) :
    Covered (T.getPositions lookup s) ↔ CoveredOver K (T.netQty s) := by
  constructor
  · intro h side i _
    rw [← hedgeQty_getPositions hK]
    by_cases hshort : T.netQty s (side.shortRole, i) < 0
    · obtain ⟨p, hp, hpair⟩ : ∃ p ∈ T.getPositions lookup s, p.pair = (side.shortRole, i) :=
        PaperTrades.exists_position_iff.mpr hshort.ne
      have hnet := PaperTrades.netQty_of_mem hp
      rw [hpair] at hnet
      rw [← hnet] at hshort ⊢
      exact h p hp side (Prod.mk.inj hpair).1 hshort
    · have hpos : 0 ≤ hedgeQty (T.getPositions lookup s) side := by
        rw [hedgeQty_getPositions hK]
        exact Finset.sum_nonneg fun j _ => le_max_right _ _
      omega
  · intro h p hp side hrole _
    have hnet := PaperTrades.netQty_of_mem hp
    rw [PaperPosition.pair, hrole] at hnet
    rw [hedgeQty_getPositions hK, hnet]
    refine h side p.instrumentKey (hK p.pair ?_)
    exact PaperTrades.exists_position_iff.mp ⟨p, hp, rfl⟩

/-! ### What an action leaves -/

variable {ic : Condor} {env : IcEnv} {positions : List PaperPosition} {action : IcAction} {T : PaperTrades}
  {lookup : Option InstrumentLookup}

/-- The units of a pair that are there before, less those closed in a free row, plus those
opened in one. -/
def unitsLeft (s : String) (today : Date) (closing : List PaperPosition) (opening : List LegSpec)
    (T : PaperTrades)
    (k : String × String) : ℤ :=
  T.netQty s k - closedUnits s today T.hasKey (fun l => l = k) closing +
    openedUnits s today (fun l => l = k)
      (fun u => T.hasKey u || decide (u ∈ closing.map (closeKeyOf s today))) opening

/-- The instruments of the open pairs and of the legs opened. -/
def instrumentsOf (T : PaperTrades) (lookup : Option InstrumentLookup) (s : String)
    (opening : List LegSpec) : Finset String :=
  ((T.getPositions lookup s).map (·.instrumentKey) ++ opening.map (·.instrumentKey)).toFinset

/-- **What a planned action leaves** of each pair. -/
theorem netQty_planned {c o : List PaperTrade}
    (hnd : ((ic.closing positions action).map PaperPosition.pair).Nodup)
    (h : planned ic env positions action = some (c, o)) (k : String × String) :
    (written env T (some (c, o))).netQty ic.strategyName k =
      unitsLeft ic.strategyName env.today (ic.closing positions action) (opening action) T k := by
  obtain ⟨-, ⟨ltpMap, _, hc⟩, _, ho⟩ := planned_eq_some h
  rw [written, PaperTrades.netQty_eq_legsQty, PaperTrades.legsQty_markAllClosed,
    PaperTrades.legsQty_recordTrades,
    fresh_append, List.filter_append, netOf_append, netOf_closing _ hc hnd, netOf_opening _ ho,
      keys_closing hc,
    ← PaperTrades.netQty_eq_legsQty, unitsLeft]
  ring

private theorem closedUnits_eq_zero {s : String} {today : Date} {taken : PaperTrade.UniqueKey → Bool}
    {P : String × String → Bool} {ps : List PaperPosition} (h : ∀ p ∈ ps, P p.pair = false) :
    closedUnits s today taken P ps = 0 := by
  rw [closedUnits, List.filter_eq_nil_iff.mpr]
  · rfl
  · intro p hp
    simp [h p hp]

private theorem openedUnits_eq_zero {s : String} {today : Date} {P : String × String → Bool}
    {legs : List LegSpec}
    (h : ∀ leg ∈ legs, P (leg.legRole, leg.instrumentKey) = false) :
    ∀ taken, openedUnits s today P taken legs = 0 := by
  induction legs with
  | nil => exact fun _ => rfl
  | cons leg legs ih =>
    intro taken
    obtain ⟨hleg, hlegs⟩ := List.forall_mem_cons.mp h
    rw [openedUnits, hleg]
    split
    · exact ih hlegs taken
    · split
      · exact ih hlegs taken
      · simpa using ih hlegs _

/-- Nothing is left of an instrument that was neither open nor is opened. -/
theorem mem_instrumentsOf {s : String} {today : Date} {closing : List PaperPosition}
    {opening : List LegSpec}
    (hsub : closing ⊆ T.getPositions lookup s) {k : String × String}
    (h : unitsLeft s today closing opening T k ≠ 0) : k.2 ∈ instrumentsOf T lookup s opening := by
  by_contra hk
  rw [instrumentsOf, List.mem_toFinset, List.mem_append, not_or, List.mem_map, List.mem_map] at hk
  obtain ⟨hopen, hnew⟩ := hk
  have hnet : T.netQty s k = 0 := by
    by_contra hne
    obtain ⟨p, hp, rfl⟩ : ∃ p ∈ T.getPositions lookup s, p.pair = k :=
      PaperTrades.exists_position_iff.mpr hne
    exact hopen ⟨p, hp, rfl⟩
  refine h ?_
  rw [unitsLeft, hnet, closedUnits_eq_zero, openedUnits_eq_zero]
  · rfl
  · exact fun leg hleg => decide_eq_false fun heq => hnew ⟨leg, hleg, congrArg Prod.snd heq⟩
  · exact fun p hp => decide_eq_false fun heq => hopen ⟨p, hsub hp, congrArg Prod.snd heq⟩

/-! ### The events of a call -/

/-- The action keeps the shorts covered: it comes to no write, or every short that is left
is at most the long hedges that are left of its side. -/
def KeepsCover (ic : Condor) (env : IcEnv) (lookup : Option InstrumentLookup)
    (positions : List PaperPosition)
    (action : IcAction) (T : PaperTrades) : Prop :=
  planned ic env positions action = none ∨
    CoveredOver (instrumentsOf T lookup ic.strategyName (opening action))
      (unitsLeft ic.strategyName env.today (ic.closing positions action) (opening action) T)

instance (ic : Condor) (env : IcEnv) (lookup : Option InstrumentLookup) (positions : List PaperPosition)
    (action : IcAction) (T : PaperTrades) : Decidable (KeepsCover ic env lookup positions action T) :=
  inferInstanceAs (Decidable (_ ∨ _))

/-- A call of `check_signals` emits an event that the monitor executes. -/
structure IronCondorV2.Emits (ic : IronCondorV2) (env : SignalEnv) (positions : List PaperPosition)
    (st : V2State)
    (e : IcSignal) (st' : V2State) : Prop where
  /-- It is in the answer. -/
  answer : ∃ events, ic.checkSignals env positions st = .ok events st' ∧ e ∈ events
  /-- It is an ACTION event. -/
  action : e.severity = .action
  /-- Its payload says `auto_execute`. -/
  auto : e.autoAction.isSome = true

/-- **What an action leaves covered**: nothing is planned, or what is left is covered. -/
theorem covered_applyActionV2_iff {S : IcStore}
    (hpos : positions.Sublist (S.trades.getPositions lookup ic.strategyName))
    (hcov : HedgedEach (S.trades.getPositions lookup ic.strategyName)) :
    Covered ((finalState (applyActionV2 ic env positions action S)).trades.getPositions lookup
      ic.strategyName) ↔
      KeepsCover ic env lookup positions action S.trades := by
  rw [trades_applyActionV2, KeepsCover]
  cases hplan : planned ic env positions action with
  | none => exact ⟨fun _ => Or.inl rfl, fun _ => hcov.covered⟩
  | some co =>
    obtain ⟨c, o⟩ := co
    have hsub : (ic.closing positions action).Sublist (S.trades.getPositions lookup ic.strategyName) :=
      (List.filter_sublist.trans List.filter_sublist).trans hpos
    have hleft : (written env S.trades (some (c, o))).netQty ic.strategyName =
        unitsLeft ic.strategyName env.today (ic.closing positions action) (opening action) S.trades :=
      funext (netQty_planned ((PaperTrades.nodup_pairs _ _ _).sublist (hsub.map _)) hplan)
    rw [covered_iff (K := instrumentsOf S.trades lookup ic.strategyName (opening action)), hleft]
    · simp
    · intro k hk
      rw [hleft] at hk
      exact mem_instrumentsOf hsub.subset hk

/-- **Covered after the action** of an event exactly when the action keeps the cover. -/
theorem covered_after_auto_iff {ic : IronCondorV2} {env : SignalEnv} {exec : IcEnv} {lookup : Option InstrumentLookup}
    {st st' : V2State} {e : IcSignal} {positions : List PaperPosition}
    (hpos : positions.Sublist (st.store.trades.getPositions lookup ic.strategyName))
    (hcov : HedgedEach (st.store.trades.getPositions lookup ic.strategyName)) (he : ic.Emits env positions st e st') :
    Covered ((finalState (applyActionV2 ic.condor exec positions e.approvedAction st'.store)).trades.getPositions lookup
        ic.strategyName) ↔
      KeepsCover ic.condor exec lookup positions e.approvedAction st.store.trades := by
  obtain ⟨events, hcheck, -⟩ := he.answer
  rw [← (checkSignals_ok hcheck).trades] at hpos hcov ⊢
  exact covered_applyActionV2_iff hpos hcov

/-! ### A wing that does not resolve -/

/-- A Nifty option of the June expiry. -/
private def juneOption (key typeText : String) (strike : ℚ) : Instrument where
  instrumentKey := key
  instrumentType := some typeText
  underlyingSymbol := "NIFTY"
  strikePrice := some strike
  expiry := some 739797

/-- The condor's options and the new call wing; the put at 23900 is missing. -/
def bodWithoutPutWing : InstrumentLookup where
  instruments :=
    [juneOption "NSE_FO|65901" "PE" 24000, juneOption "NSE_FO|65902" "PE" 23500,
      juneOption "NSE_FO|65911" "CE" 25000,
      juneOption "NSE_FO|65912" "CE" 25500, juneOption "NSE_FO|65913" "CE" 25100]

/-- The same with the put at 23900. -/
def bodWithPutWing : InstrumentLookup where
  instruments := juneOption "NSE_FO|65903" "PE" 23900 :: bodWithoutPutWing.instruments

/-- A quote one rupee wide. -/
private def quote (strike ltp delta : ℚ) : OptionLeg where
  ltp := ltp
  bid := ltp - 1 / 2
  ask := ltp + 1 / 2
  delta := some delta
  strike := strike

/-- A chain in which the condor has lost more than half of its price. -/
def halfCapturedChain : OptionChain where
  underlyingSpot := 24500
  expiry := 739797
  strikes := (((((Dict.empty.set 23500 { pe := some (quote 23500 15 (-5 / 100)) }).set
    23900 { pe := some (quote 23900 30 (-19 / 100)) }).set 24000 { pe := some (quote 24000 60 (-25 / 100)) }).set
    25000 { ce := some (quote 25000 60 (23 / 100)) }).set 25100 { ce := some (quote 25100 30 (19 / 100)) }).set
    25500 { ce := some (quote 25500 15 (5 / 100)) }

/-- One lot of a leg. -/
private def juneLeg (role key : String) (a : TradeAction) (price : ℚ) (role_ne : role ≠ "")
    (key_ne : key ≠ "")
    (price_pos : 0 < price) : PaperTrade where
  strategyName := "paper_ic_nifty_v2_monthly"
  legRole := role
  instrumentKey := key
  tradeDate := 739776
  action := a
  quantity := 65
  price := price
  paperPrefix := hasPaperPrefix_icMonthly
  legRole_ne := role_ne
  instrumentKey_ne := key_ne
  quantity_pos := lot_pos
  price_pos := price_pos

/-- The condor as entered, for a credit of 200. -/
def juneCondor : V2State where
  store :=
    { trades := (PaperTrades.empty.recordTrades
        [juneLeg "short_put" "NSE_FO|65901" .sell 120 shortPut_ne key65901_ne price120_pos,
          juneLeg "long_put_hedge" "NSE_FO|65902" .buy 20 longPutHedge_ne key65902_ne price20_pos,
          juneLeg "short_call" "NSE_FO|65911" .sell 120 shortCall_ne key65911_ne price120_pos,
          juneLeg "long_call_hedge" "NSE_FO|65912" .buy 20 longCallHedge_ne key65912_ne price20_pos]).1 }

/-- Its positions. -/
def junePositions : List PaperPosition := juneCondor.store.trades.getPositions none monthlyV2.strategyName

/-- A call on that chain, seventeen days before expiry. -/
def lockEnv (bod : InstrumentLookup) : SignalEnv where
  market := halfCapturedChain
  bod := some bod
  cachedBod := some bod
  today := 739780

/-- Both old wings are sold at 15. -/
def lockExec : IcEnv where
  getLtp _ := some ((Dict.empty.set "NSE_FO|65902" 15).set "NSE_FO|65912" 15)
  bodLookup := none
  today := 739780

/-- The lock sells both wings and buys one: the short put is naked. -/
theorem lock_leaves_naked_put :
    ¬ ∀ (ic : IronCondorV2) (env : SignalEnv) (exec : IcEnv) (lookup : Option InstrumentLookup) (st st' : V2State)
        (e : IcSignal) (positions : List PaperPosition),
      positions.Sublist (st.store.trades.getPositions lookup ic.strategyName) →
      HedgedEach (st.store.trades.getPositions lookup ic.strategyName) → ic.Emits env positions st e st' →
      Covered ((finalState (applyActionV2 ic.condor exec positions e.approvedAction st'.store)).trades.getPositions lookup
        ic.strategyName) := by
  intro h
  have hends : returnsWith (fun events st' => decide (∃ e ∈ events, e.severity = .action ∧ e.autoAction.isSome = true ∧
        ¬Covered ((finalState (applyActionV2 monthlyV2.condor lockExec junePositions e.approvedAction
          st'.store)).trades.getPositions none monthlyV2.strategyName)))
      (monthlyV2.checkSignals (lockEnv bodWithoutPutWing) junePositions juneCondor) = true := by
    decide +kernel
  obtain ⟨events, st', hcheck, hnaked⟩ := returnsWith_iff.mp hends
  obtain ⟨e, he, haction, hauto, hnaked⟩ := of_decide_eq_true hnaked
  exact hnaked (h monthlyV2 (lockEnv bodWithoutPutWing) lockExec none juneCondor st' e junePositions
    (List.Sublist.refl _)
    (by decide +kernel) ⟨⟨events, hcheck, he⟩, haction, hauto⟩)

/-- Where the put wing resolves too, the condor stays covered. -/
theorem lock_with_both_wings :
    ∃ e st', monthlyV2.Emits (lockEnv bodWithPutWing) junePositions juneCondor e st' ∧
      Covered ((finalState (applyActionV2 monthlyV2.condor lockExec junePositions e.approvedAction
        st'.store)).trades.getPositions none monthlyV2.strategyName) := by
  have hends : returnsWith (fun events _ => decide (∃ e ∈ events, e.severity = .action ∧ e.autoAction.isSome = true ∧
        KeepsCover monthlyV2.condor lockExec none junePositions e.approvedAction juneCondor.store.trades))
      (monthlyV2.checkSignals (lockEnv bodWithPutWing) junePositions juneCondor) = true := by
    decide +kernel
  obtain ⟨events, st', hcheck, hkeeps⟩ := returnsWith_iff.mp hends
  obtain ⟨e, he, haction, hauto, hkeeps⟩ := of_decide_eq_true hkeeps
  have hemits : monthlyV2.Emits (lockEnv bodWithPutWing) junePositions juneCondor e st' :=
    ⟨⟨events, hcheck, he⟩, haction, hauto⟩
  exact ⟨e, st', hemits, (covered_after_auto_iff (List.Sublist.refl _)
    (by decide +kernel) hemits).mpr hkeeps⟩

end NiftyShield.Strategy.IronCondor
