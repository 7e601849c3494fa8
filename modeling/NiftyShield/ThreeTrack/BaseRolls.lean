import NiftyShield.Instruments.Expiries
import NiftyShield.Lib.Slots
import NiftyShield.MarketCalendar.Sessions
import NiftyShield.Paper.LegRows
import NiftyShield.ThreeTrack.EodExits

/-!
# Rolling the base legs

`paper_3track_roll.py` (`scripts/strategies/three_track`) replaces the future and the deep
in-the-money call that carry two of the three tracks before they expire. For each position that
is due it writes a sale of the old contract, dated today, and a purchase of the next, dated the
next trading day, in one batch that skips a row whose unique key is taken.

## What is proved

* `rollTracks_run`: what a run leaves, in terms of the sales and purchases whose slot is free when
  their turn comes;
* `moved_intact_iff`: which ledgers a run moves intact, and what that says of a ledger whose base
  legs are all long.

## Honest scope

The open interest and the depth of a contract are what the broker returns, `none` where it has
none or fails; the factor of the futures gate is exact. The notification, which never changes what
is written, is left out.
-/

namespace NiftyShield.ThreeTrack.BaseRolls

open NiftyShield.Instruments NiftyShield.Lib NiftyShield.Lib.Raising NiftyShield.MarketCalendar
    NiftyShield.Paper NiftyShield.ThreeTrack.EodExits

/-! ### Triggers and gates -/

/-- `FUTURES_ROLL_DTE`. -/
def futuresRollDte : ℤ := 1

/-- `DITM_ROLL_DTE`. -/
def ditmRollDte : ℤ := 20

/-- `FUTURES_OI_RATIO_MIN`. -/
def futuresOiRatioMin : ℚ := 1 / 10

/-- `PROXY_OI_MIN`. -/
def proxyOiMin : ℤ := 5000

/-- `PROXY_SPREAD_MAX`. -/
def proxySpreadMax : ℚ := 5

/-- `ROLLABLE_LEG_ROLES`. -/
def rollableLegRoles : List String := ["base_futures", "base_ditm_call"]

/-- `STRATEGY_FUTURES` and `STRATEGY_PROXY`. -/
def tracks : List String := ["paper_nifty_futures", "paper_nifty_proxy"]

/-- `should_roll_futures`. -/
def shouldRollFutures (dte : ℤ) : Bool := dte ≤ futuresRollDte

/-- `should_roll_ditm`. -/
def shouldRollDitm (dte : ℤ) : Bool := dte < ditmRollDte

/-- `due`. -/
def isDue (legRole : String) (dte : ℤ) : Bool :=
  if legRole = "base_futures" then shouldRollFutures dte else shouldRollDitm dte

/-- `check_futures_liquidity_gate`. -/
def checkFuturesLiquidityGate (nextOi nearOi : Option ℤ) : Bool :=
  match nextOi, nearOi with
  | some nextOi, some nearOi => 0 < nearOi && futuresOiRatioMin * nearOi ≤ nextOi
  | _, _ => false

/-- `check_ditm_liquidity_gate`; without two quotes the spread is infinite. -/
def checkDitmLiquidityGate (oi : ℤ) (bid ask : ℚ) : Bool :=
  proxyOiMin ≤ oi && (0 < ask && 0 < bid) && ask - bid ≤ proxySpreadMax

/-- What `get_market_depth` knows of a contract. -/
structure MarketDepth where
  /-- `oi`. -/
  oi : Option ℤ := none
  /-- `bid`. -/
  bid : Option ℚ := none
  /-- `ask`. -/
  ask : Option ℚ := none

/-! ### The rolls -/

/-- What a check works with, apart from the ledger. -/
structure RollEnv where
  /-- `instruments`. -/
  instruments : InstrumentLookup
  /-- The file from which the store resolves option types. -/
  storeLookup : Option InstrumentLookup := none
  /-- The trading days. -/
  calendar : TradingCalendar
  /-- `today`. -/
  today : Date
  /-- `get_ltp`. -/
  ltp : String → Option ℚ
  /-- `get_open_interest`. -/
  openInterest : String → Option ℤ := fun _ => none
  /-- `get_market_depth`. -/
  marketDepth : String → MarketDepth := fun _ => {}
  /-- `dry_run`. -/
  dryRun : Bool := false

/-- A position that is due, the days left to it and what replaces it. -/
structure Roll where
  /-- `pos`. -/
  pos : PaperPosition
  /-- `dte`. -/
  dte : ℤ
  /-- `next_inst`. -/
  next : Instrument
  deriving DecidableEq

/-- The summary of a roll. -/
structure RollSummary where
  /-- `strategy_name`. -/
  strategyName : String
  /-- `leg_role`. -/
  legRole : String
  /-- `old_key`. -/
  oldKey : String
  /-- `new_key`. -/
  newKey : String
  /-- `dte`. -/
  dte : ℤ
  /-- `liquidity_gate_passed`. -/
  liquidityGatePassed : Bool
  /-- `inserted`, unless dry. -/
  inserted : Option ℕ := none
  /-- `skipped`, unless dry. -/
  skipped : Option ℕ := none
  /-- `partial`, unless dry. -/
  isPartial : Option Bool := none
  deriving DecidableEq

/-- `build_roll_trades`: the sale of the old contract and the purchase of the new one. -/
def buildRollTrades (strategyName legRole oldInstrumentKey newInstrumentKey : String) (quantity : ℤ)
    (closePrice openPrice : ℚ) (closeDate openDate : Date) : Option (PaperTrade × PaperTrade) := do
  let closeTrade ← PaperTrade.validate strategyName legRole oldInstrumentKey closeDate .sell quantity closePrice
    ("S5 auto-roll: close ahead of expiry, replaced by " ++ newInstrumentKey) none .open
  let openTrade ← PaperTrade.validate strategyName legRole newInstrumentKey openDate .buy quantity openPrice
    ("S5 auto-roll: opened to replace " ++ oldInstrumentKey) none .open
  some (closeTrade, openTrade)

namespace RollEnv

variable (env : RollEnv)

/-- `next_trading_date`. -/
def openDate : Date := env.calendar.nextTradingDay env.today

/-- `next_inst`. -/
def nextInst (legRole instrumentKey : String) : Option Instrument :=
  if legRole = "base_futures" then env.instruments.getNextContract instrumentKey
  else env.instruments.getNextContractInBand instrumentKey env.today

/-- The days left to a contract and what replaces it; `none` where it is not due, or nothing
does. -/
def rollTarget (legRole instrumentKey : String) : Option (ℤ × Instrument) := do
  let expiryDate ← getExpiryDate instrumentKey env.instruments
  let dte := Date.daysBetween env.today expiryDate
  if isDue legRole dte then
    let next ← env.nextInst legRole instrumentKey
    if next.instrumentKey = "" then none else some (dte, next)
  else none

/-- The roll of a position, if it is of a rollable leg, open and due. -/
def dueRoll (pos : PaperPosition) : Option Roll :=
  if pos.legRole ∉ rollableLegRoles ∨ pos.netQty = 0 then none
  else (env.rollTarget pos.legRole pos.instrumentKey).map fun target => ⟨pos, target.1, target.2⟩

/-- `_run_liquidity_gate`. -/
def runLiquidityGate (pos : PaperPosition) (nextKey : String) : Bool :=
  if pos.legRole = "base_futures" then
    checkFuturesLiquidityGate (env.openInterest nextKey) (env.openInterest pos.instrumentKey)
  else
    let depth := env.marketDepth nextKey
    match depth.oi, depth.bid, depth.ask with
    | some oi, some bid, some ask => checkDitmLiquidityGate oi bid ask
    | _, _, _ => false

/-- `check_and_roll_leg`. A trade that does not validate raises. -/
def checkAndRollLeg (pos : PaperPosition) : EStateM Unit PaperTrades (Option RollSummary) :=
  match env.dueRoll pos with
  | none => pure none
  | some roll =>
    let nextKey := roll.next.instrumentKey
    match env.ltp pos.instrumentKey, env.ltp nextKey with
    | some closePrice, some openPrice => do
      let (closeTrade, openTrade) ← fromOption () (buildRollTrades pos.strategyName pos.legRole pos.instrumentKey
        nextKey |pos.netQty| closePrice openPrice env.today env.openDate)
      let summary : RollSummary :=
        { strategyName := pos.strategyName
          legRole := pos.legRole
          oldKey := pos.instrumentKey
          newKey := nextKey
          dte := roll.dte
          liquidityGatePassed := env.runLiquidityGate pos nextKey }
      if env.dryRun then pure (some summary)
      else
        let (inserted, skipped) ← updates fun T => T.recordTrades [closeTrade, openTrade]
        -- only the sale closes the rows of the leg, and only if it was written
        if closeTrade ∈ inserted then
          updates fun T => (T.markTradeClosed pos.strategyName pos.legRole pos.instrumentKey, ())
        pure (some { summary with
          inserted := some inserted.length
          skipped := some skipped.length
          isPartial := some (inserted.length ≠ 2) })
    | _, _ => pure none

/-- The loop over the positions of a track, and its summaries. -/
def rollPositions : List PaperPosition → EStateM Unit PaperTrades (List RollSummary)
  | [] => pure []
  | pos :: rest => do
    let summary ← env.checkAndRollLeg pos
    let results ← rollPositions rest
    pure (summary.toList ++ results)

/-- The loop over the tracks; the positions of each are read when its turn comes. -/
def rollTracks : List String → EStateM Unit PaperTrades (List RollSummary)
  | [] => pure []
  | strategyName :: rest => do
    let positions ← reads fun T => T.getPositions env.storeLookup strategyName
    let results ← env.rollPositions positions
    let others ← rollTracks rest
    pure (results ++ others)

/-- `run_roll_check`. -/
def runRollCheck : EStateM Unit PaperTrades (List RollSummary) := env.rollTracks tracks

end RollEnv

/-! ### Legs and slots -/

namespace Roll

/-- The leg that is rolled. -/
def leg (r : Roll) : LegId := (r.pos.strategyName, r.pos.pair)

/-- The leg it is replaced by. -/
def nextLeg (r : Roll) : LegId := (r.pos.strategyName, r.pos.legRole, r.next.instrumentKey)

/-- The track and the base role, which stay the same. -/
def base (r : Roll) : String × String := (r.pos.strategyName, r.pos.legRole)

/-- `qty`. -/
def qty (r : Roll) : ℤ := |r.pos.netQty|

end Roll

/-- The unique key of a row of a leg. -/
def rowKey (leg : LegId) (tradeDate : Date) (action : TradeAction) : PaperTrade.UniqueKey :=
  ⟨leg.1, leg.2.1, leg.2.2, tradeDate, action⟩

theorem rowKey_injective (tradeDate : Date) (action : TradeAction) :
    Function.Injective fun leg => rowKey leg tradeDate action := by
  intro leg leg' h
  simp only [rowKey, PaperTrade.UniqueKey.mk.injEq] at h
  exact Prod.ext h.1 (Prod.ext h.2.1 h.2.2.1)

/-- Whether a leg is of a strategy and among these pairs. -/
def ofPairs (s : String) (P : String × String → Bool) (leg : LegId) : Bool := leg.1 = s && P leg.2

theorem ofLegs_of_uniqueKey {t : PaperTrade} {leg : LegId} {tradeDate : Date} {action : TradeAction}
    (h : t.uniqueKey = rowKey leg tradeDate action) {s : String} {P : String × String → Bool} :
    PaperTrades.ofLegs s P t = ofPairs s P leg := by
  have hleg : t.legId = leg := by
    obtain ⟨hs, hrole, hkey, -, -⟩ := (PaperTrade.UniqueKey.mk.injEq ..).mp h
    exact Prod.ext hs (Prod.ext hrole hkey)
  rw [← hleg]
  rfl

namespace RollEnv

variable (env : RollEnv)

/-- The slot of the sale. -/
def closeKey (r : Roll) : PaperTrade.UniqueKey := rowKey r.leg env.today .sell

/-- The slot of the purchase. -/
def openKey (r : Roll) : PaperTrade.UniqueKey := rowKey r.nextLeg env.openDate .buy

/-- The rolls whose sale is written. -/
def sold (T : PaperTrades) (rolls : List Roll) : List Roll := Slots.served env.closeKey T.hasKey rolls

/-- The rolls whose purchase is written. -/
def bought (T : PaperTrades) (rolls : List Roll) : List Roll := Slots.served env.openKey T.hasKey rolls

/-- The table after these rolls. -/
structure Rolled (rolls : List Roll) (T T' : PaperTrades) : Prop where
  /-- Their slots are taken. -/
  hasKey : ∀ k, T'.hasKey k =
    (T.hasKey k || decide (k ∈ rolls.map env.closeKey) || decide (k ∈ rolls.map env.openKey))
  /-- What is sold has gone, and what is bought has come. -/
  legsQty : ∀ s P, T'.legsQty s P = T.legsQty s P -
    netOf Roll.qty ((env.sold T rolls).filter fun r => ofPairs s P r.leg) +
      netOf Roll.qty ((env.bought T rolls).filter fun r => ofPairs s P r.nextLeg)
  /-- Other strategies hold what they held. -/
  others : ∀ s, (∀ r ∈ rolls, r.pos.strategyName ≠ s) →
    T'.getPositions env.storeLookup s = T.getPositions env.storeLookup s
  /-- Without rolls nothing is written. -/
  idle : rolls = [] → T' = T

variable {env} {T T₁ T' : PaperTrades}

theorem closeKey_notMem_open (r : Roll) (rolls : List Roll) : env.closeKey r ∉ rolls.map env.openKey := by
  intro h
  obtain ⟨e, -, he⟩ := List.mem_map.mp h
  exact absurd (congrArg PaperTrade.UniqueKey.action he) (by simp [openKey, closeKey, rowKey])

theorem openKey_notMem_close (r : Roll) (rolls : List Roll) : env.openKey r ∉ rolls.map env.closeKey := by
  intro h
  obtain ⟨e, -, he⟩ := List.mem_map.mp h
  exact absurd (congrArg PaperTrade.UniqueKey.action he) (by simp [openKey, closeKey, rowKey])

theorem rolled_nil (T : PaperTrades) : env.Rolled [] T T where
  hasKey k := by simp
  legsQty s P := by simp [sold, bought]
  others _ _ := rfl
  idle _ := rfl

/-- Rolls in two parts. -/
theorem Rolled.append {rolls rest : List Roll} (h : env.Rolled rolls T T₁) (h' : env.Rolled rest T₁ T') :
    env.Rolled (rolls ++ rest) T T' where
  hasKey k := by
    rw [h'.hasKey, h.hasKey, List.map_append, List.map_append]
    simp only [List.mem_append, Bool.decide_or, Bool.or_assoc]
    rw [Bool.or_left_comm (decide (k ∈ rolls.map env.openKey))]
  legsQty s P := by
    -- a purchase takes no slot of a sale, nor a sale one of a purchase
    have hsold : env.sold T (rolls ++ rest) = env.sold T rolls ++ env.sold T₁ rest := by
      rw [sold, Slots.served_append]
      refine congrArg (_ ++ ·) (Slots.served_congr fun r _ => ?_)
      rw [h.hasKey, decide_eq_false (closeKey_notMem_open r rolls), Bool.or_false]
    have hbought : env.bought T (rolls ++ rest) = env.bought T rolls ++ env.bought T₁ rest := by
      rw [bought, Slots.served_append]
      refine congrArg (_ ++ ·) (Slots.served_congr fun r _ => ?_)
      rw [h.hasKey, decide_eq_false (openKey_notMem_close r rolls), Bool.or_false]
    rw [h'.legsQty, h.legsQty, hsold, hbought, List.filter_append, List.filter_append, netOf_append, netOf_append]
    ring
  others s hs := by
    rw [h'.others s fun r hr => hs r (List.mem_append_right _ hr),
      h.others s fun r hr => hs r (List.mem_append_left _ hr)]
  idle hnil := by
    obtain ⟨hrolls, hrest⟩ := List.append_eq_nil_iff.mp hnil
    rw [h'.idle hrest, h.idle hrolls]

/-- What one batch writes. -/
theorem rolled_one {r : Roll} {closeTrade openTrade : PaperTrade} (hclose : closeTrade.uniqueKey = env.closeKey r)
    (hopen : openTrade.uniqueKey = env.openKey r) (hcloseQty : (closeTrade.quantity : ℤ) = r.qty)
    (hopenQty : (openTrade.quantity : ℤ) = r.qty) (T : PaperTrades) :
    env.Rolled [r] T (T.recordTrades [closeTrade, openTrade]).1 where
  hasKey k := by
    rw [PaperTrades.hasKey_recordTrades, List.map_cons, List.map_singleton, hclose, hopen]
    simp [Bool.or_assoc]
  legsQty s P := by
    have hcloseSigned : closeTrade.signedQty = -r.qty := by
      have hsell : closeTrade.action = .sell := congrArg PaperTrade.UniqueKey.action hclose
      rw [PaperTrade.signedQty, hsell]
      simp only [hcloseQty]
    have hopenSigned : openTrade.signedQty = r.qty := by
      have hbuy : openTrade.action = .buy := congrArg PaperTrade.UniqueKey.action hopen
      rw [PaperTrade.signedQty, hbuy]
      exact hopenQty
    have hcloseLeg : PaperTrades.ofLegs s P closeTrade = ofPairs s P r.leg := ofLegs_of_uniqueKey hclose
    have hopenLeg : PaperTrades.ofLegs s P openTrade = ofPairs s P r.nextLeg := ofLegs_of_uniqueKey hopen
    -- the sale takes no slot of the purchase
    have hfree : (T.hasKey (env.openKey r) || decide (env.openKey r ∈ [closeTrade].map PaperTrade.uniqueKey)) =
        T.hasKey (env.openKey r) := by
      rw [List.map_singleton, hclose]
      exact (congrArg _ (decide_eq_false (openKey_notMem_close r [r]))).trans (Bool.or_false _)
    rw [PaperTrades.legsQty_recordTrades, ← List.singleton_append, fresh_append, fresh_eq_served, fresh_eq_served,
      List.filter_append, netOf_append, sold, bought]
    simp only [netOf, Slots.sum_served_singleton, hclose, hopen, hfree, hcloseLeg, hopenLeg, hcloseSigned,
      hopenSigned]
    split_ifs <;> ring
  others s hs := by
    have hne := hs r (List.mem_singleton_self r)
    refine PaperTrades.getPositions_recordTrades_of_ne (fun t ht => ?_) T _
    rcases List.mem_pair.mp ht with rfl | rfl
    · exact fun heq => hne ((congrArg PaperTrade.UniqueKey.strategyName hclose).symm.trans heq)
    · exact fun heq => hne ((congrArg PaperTrade.UniqueKey.strategyName hopen).symm.trans heq)
  idle hnil := absurd hnil (by simp)

/-- A state change is no part of it. -/
theorem Rolled.updateState {rolls : List Roll} (h : env.Rolled rolls T T') (hne : rolls ≠ [])
    (p : PaperTrade → Bool) (state : TradeState) : env.Rolled rolls T (T'.updateState p state) where
  hasKey k := by rw [PaperTrades.hasKey_updateState, h.hasKey]
  legsQty s P := by rw [PaperTrades.legsQty_updateState, h.legsQty]
  others s hs := by rw [PaperTrades.getPositions_updateState, h.others s hs]
  idle hnil := absurd hnil hne

/-! ### A run -/

theorem rollTarget_key_ne {role key : String} {target : ℤ × Instrument} (h : env.rollTarget role key = some target) :
    target.2.instrumentKey ≠ "" := by
  obtain ⟨expiryDate, -, h⟩ := Option.bind_eq_some_iff.mp h
  dsimp only at h
  split at h
  · obtain ⟨next, -, h⟩ := Option.bind_eq_some_iff.mp h
    split at h
    next => exact absurd h (by simp)
    next hne =>
      obtain rfl := Option.some.inj h
      exact hne
  · exact absurd h (by simp)

theorem dueRoll_eq_some_iff {pos : PaperPosition} {r : Roll} :
    env.dueRoll pos = some r ↔ r.pos = pos ∧ pos.legRole ∈ rollableLegRoles ∧ pos.netQty ≠ 0 ∧
      env.rollTarget pos.legRole pos.instrumentKey = some (r.dte, r.next) := by
  unfold dueRoll
  split
  next h =>
    refine iff_of_false (by simp) ?_
    rintro ⟨-, hrole, hnet, -⟩
    exact h.elim (fun hn => hn hrole) hnet
  next h =>
    obtain ⟨hrole, hnet⟩ := not_or.mp h
    rw [Option.map_eq_some_iff]
    constructor
    · rintro ⟨target, htarget, rfl⟩
      exact ⟨rfl, not_not.mp hrole, hnet, htarget⟩
    · rintro ⟨rfl, -, -, htarget⟩
      exact ⟨_, htarget, rfl⟩

variable (env) in
/-- Every contract has a price. -/
def AllPriced : Prop := ∀ key, ∃ price, env.ltp key = some price ∧ 0 < price

/-- The fields of a position that go into a trade. -/
def Valid (pos : PaperPosition) : Prop :=
  hasPaperPrefix pos.strategyName = true ∧ pos.legRole ≠ "" ∧ pos.instrumentKey ≠ ""

/-- Nothing is written for a position that is not due. -/
theorem checkAndRollLeg_of_none {pos : PaperPosition} (h : env.dueRoll pos = none) (T : PaperTrades) :
    env.checkAndRollLeg pos T = .ok none T := by
  rw [checkAndRollLeg, h]
  rfl

/-- The trades of a roll validate, and are of its slots. -/
theorem exists_rollTrades {pos : PaperPosition} {r : Roll} (h : env.dueRoll pos = some r) (hvalid : Valid pos)
    {closePrice openPrice : ℚ} (hclose : 0 < closePrice) (hopen : 0 < openPrice) :
    ∃ closeTrade openTrade, buildRollTrades pos.strategyName pos.legRole pos.instrumentKey r.next.instrumentKey
        |pos.netQty| closePrice openPrice env.today env.openDate = some (closeTrade, openTrade) ∧
      closeTrade.uniqueKey = env.closeKey r ∧ openTrade.uniqueKey = env.openKey r ∧
      (closeTrade.quantity : ℤ) = r.qty ∧ (openTrade.quantity : ℤ) = r.qty := by
  obtain ⟨rfl, -, hnet, htarget⟩ := dueRoll_eq_some_iff.mp h
  obtain ⟨hpaper, hrole, hkey⟩ := hvalid
  have hqty : 0 < |r.pos.netQty| := abs_pos.mpr hnet
  obtain ⟨closeTrade, hc⟩ := exists_validate_iff.mpr ⟨hpaper, hrole, hkey, hqty, hclose⟩
  obtain ⟨openTrade, ho⟩ := exists_validate_iff.mpr ⟨hpaper, hrole, rollTarget_key_ne htarget, hqty, hopen⟩
  refine ⟨closeTrade, openTrade, ?_, (validate_eq_some hc).1, (validate_eq_some ho).1, (validate_eq_some hc).2,
    (validate_eq_some ho).2⟩
  rw [buildRollTrades, hc, Option.bind_eq_bind, Option.bind_some, ho]
  rfl

/-- A position that is due is rolled. -/
theorem checkAndRollLeg_of_due (hdry : env.dryRun = false) (hpriced : env.AllPriced) {pos : PaperPosition} {r : Roll}
    (h : env.dueRoll pos = some r) (hvalid : Valid pos) (T : PaperTrades) :
    ∃ summary T', env.checkAndRollLeg pos T = .ok summary T' ∧ env.Rolled [r] T T' := by
  obtain ⟨closePrice, hclosePrice, hclose⟩ := hpriced pos.instrumentKey
  obtain ⟨openPrice, hopenPrice, hopen⟩ := hpriced r.next.instrumentKey
  obtain ⟨closeTrade, openTrade, hbuild, hck, hok, hcq, hoq⟩ := exists_rollTrades h hvalid hclose hopen
  have hrolled := rolled_one hck hok hcq hoq T
  rw [checkAndRollLeg, h]
  simp only [hclosePrice, hopenPrice, hdry]
  rw [bind_of_ok (fromOption_of_some hbuild T)]
  simp only [Bool.false_eq_true, if_false]
  rw [bind_of_ok (updates_run _ T)]
  split
  · exact ⟨_, _, rfl, hrolled.updateState (by simp) _ _⟩
  · exact ⟨_, _, rfl, hrolled⟩

theorem rollPositions_run (hdry : env.dryRun = false) (hpriced : env.AllPriced) :
    ∀ {positions : List PaperPosition}, (∀ pos ∈ positions, Valid pos) → ∀ T : PaperTrades,
      ∃ results T', env.rollPositions positions T = .ok results T' ∧
        env.Rolled (positions.filterMap env.dueRoll) T T'
  | [], _, T => ⟨[], T, rfl, rolled_nil T⟩
  | pos :: rest, hvalid, T => by
    have hrest := fun c hc => hvalid c (List.mem_cons_of_mem pos hc)
    cases hdue : env.dueRoll pos with
    | none =>
      obtain ⟨results, T', hrun, hrolled⟩ := rollPositions_run hdry hpriced hrest T
      rw [List.filterMap_cons_none hdue, rollPositions, bind_of_ok (checkAndRollLeg_of_none hdue T),
        bind_of_ok hrun]
      exact ⟨_, T', rfl, hrolled⟩
    | some r =>
      obtain ⟨summary, T₁, hfirst, hone⟩ := checkAndRollLeg_of_due hdry hpriced hdue (hvalid pos List.mem_cons_self) T
      obtain ⟨results, T', hrun, hrolled⟩ := rollPositions_run hdry hpriced hrest T₁
      rw [List.filterMap_cons_some hdue, rollPositions, bind_of_ok hfirst, bind_of_ok hrun]
      exact ⟨_, T', rfl, hone.append hrolled⟩

variable (env) in
/-- The rolls of some tracks that are due by a table, in order. -/
def dueRolls (T : PaperTrades) (strategies : List String) : List Roll :=
  strategies.flatMap fun s => (T.getPositions env.storeLookup s).filterMap env.dueRoll

/-- A track is not changed by the rolls of the tracks before it. -/
theorem rollTracks_run (hdry : env.dryRun = false) (hpriced : env.AllPriced) :
    ∀ {strategies : List String}, strategies.Nodup → ∀ T : PaperTrades,
      ∃ results T', env.rollTracks strategies T = .ok results T' ∧ env.Rolled (env.dueRolls T strategies) T T'
  | [], _, T => ⟨[], T, rfl, rolled_nil T⟩
  | s :: rest, hnodup, T => by
    obtain ⟨hs, hrest⟩ := List.nodup_cons.mp hnodup
    have hvalid : ∀ pos ∈ T.getPositions env.storeLookup s, Valid pos := fun pos hpos => by
      obtain ⟨hpaper, hrole, hkey, -⟩ := getPositions_valid hpos
      exact ⟨(getPositions_open hpos).1 ▸ hpaper, hrole, hkey⟩
    obtain ⟨results, T₁, hfirst, hone⟩ := rollPositions_run hdry hpriced hvalid T
    obtain ⟨others, T', hrun, hrolled⟩ := rollTracks_run hdry hpriced hrest T₁
    have hdue : env.dueRolls T₁ rest = env.dueRolls T rest := by
      refine List.flatMap_congr fun s' hs' => ?_
      rw [hone.others s' fun r hr heq => ?_]
      obtain ⟨pos, hpos, hroll⟩ := List.mem_filterMap.mp hr
      rw [(dueRoll_eq_some_iff.mp hroll).1, (getPositions_open hpos).1] at heq
      exact hs (heq ▸ hs')
    rw [hdue] at hrolled
    rw [rollTracks, bind_of_ok (reads_run _ T), bind_of_ok hfirst, bind_of_ok hrun]
    exact ⟨_, T', rfl, hone.append hrolled⟩

/-! ### The rolls that are due -/

variable (env) in
/-- The rolls of a run. -/
def allDue (T : PaperTrades) : List Roll := env.dueRolls T tracks

theorem mem_allDue {r : Roll} : r ∈ env.allDue T ↔
    ∃ s ∈ tracks, r.pos ∈ T.getPositions env.storeLookup s ∧ env.dueRoll r.pos = some r := by
  simp only [allDue, dueRolls, List.mem_flatMap, List.mem_filterMap]
  refine exists_congr fun s => and_congr_right fun _ => ⟨?_, fun h => ⟨r.pos, h⟩⟩
  rintro ⟨pos, hpos, hdue⟩
  obtain rfl := (dueRoll_eq_some_iff.mp hdue).1
  exact ⟨hpos, hdue⟩

/-- What is known of a roll of a run. -/
theorem allDue_spec {r : Roll} (h : r ∈ env.allDue T) :
    r.pos.strategyName ∈ tracks ∧ r.pos.legRole ∈ rollableLegRoles ∧ r.pos.netQty ≠ 0 ∧
      T.netQty r.leg.1 r.leg.2 = r.pos.netQty ∧
        env.rollTarget r.pos.legRole r.pos.instrumentKey = some (r.dte, r.next) := by
  obtain ⟨s, hs, hpos, hdue⟩ := mem_allDue.mp h
  obtain ⟨-, hrole, hnet, htarget⟩ := dueRoll_eq_some_iff.mp hdue
  obtain rfl := (getPositions_open hpos).1
  exact ⟨hs, hrole, hnet, (PaperTrades.netQty_of_mem hpos).symm, htarget⟩

theorem qty_pos {r : Roll} (h : r ∈ env.allDue T) : 0 < r.qty := abs_pos.mpr (allDue_spec h).2.2.1

/-- A due contract that is held is rolled. -/
theorem exists_due {s role key : String} (hs : s ∈ tracks) (hrole : role ∈ rollableLegRoles)
    (htarget : env.rollTarget role key ≠ none) (hnet : T.netQty s (role, key) ≠ 0) :
    ∃ r ∈ env.allDue T, r.leg = (s, role, key) := by
  obtain ⟨target, htarget⟩ := Option.ne_none_iff_exists'.mp htarget
  obtain ⟨pos, hpos, hpair⟩ : ∃ pos ∈ T.getPositions env.storeLookup s, pos.pair = (role, key) :=
    PaperTrades.exists_position_iff.mpr hnet
  obtain ⟨rfl, rfl⟩ := (Prod.mk.injEq ..).mp hpair
  obtain ⟨rfl, hopen, -⟩ := getPositions_open hpos
  exact ⟨⟨pos, target.1, target.2⟩,
    mem_allDue.mpr ⟨_, hs, hpos, dueRoll_eq_some_iff.mpr ⟨rfl, hrole, hopen, htarget⟩⟩, rfl⟩

/-- No leg is rolled twice. -/
theorem nodup_legs (env : RollEnv) (T : PaperTrades) : ((env.allDue T).map Roll.leg).Nodup := by
  have hstrategy : ∀ s, ∀ r ∈ (T.getPositions env.storeLookup s).filterMap env.dueRoll, r.leg.1 = s := by
    intro s r hr
    obtain ⟨pos, hpos, hdue⟩ := List.mem_filterMap.mp hr
    obtain rfl := (dueRoll_eq_some_iff.mp hdue).1
    exact (getPositions_open hpos).1
  rw [allDue, dueRolls, List.map_flatMap, List.nodup_flatMap]
  refine ⟨fun s _ => ?_, ?_⟩
  · rw [List.Nodup, List.pairwise_map, List.pairwise_filterMap]
    refine (List.pairwise_map.mp (PaperTrades.nodup_pairs T env.storeLookup s)).imp fun {p q} hne r hr r' hr' heq => ?_
    obtain rfl := (dueRoll_eq_some_iff.mp hr).1
    obtain rfl := (dueRoll_eq_some_iff.mp hr').1
    exact hne (congrArg Prod.snd heq)
  · have htracks : tracks.Nodup := by decide
    refine htracks.imp fun {s s'} hne => ?_
    intro leg hleg hleg'
    obtain ⟨r, hr, rfl⟩ := List.mem_map.mp hleg
    obtain ⟨r', hr', heq⟩ := List.mem_map.mp hleg'
    exact hne ((hstrategy s r hr).symm.trans ((congrArg Prod.fst heq).symm.trans (hstrategy s' r' hr')))

/-! ### What comes and goes -/

variable (env) in
/-- The quantity that is sold of a leg. -/
def leaving (T : PaperTrades) (leg : LegId) : ℤ :=
  netOf Roll.qty (Grouping.group Roll.leg (env.sold T (env.allDue T)) leg)

variable (env) in
/-- The quantity that is bought of a leg. -/
def arriving (T : PaperTrades) (leg : LegId) : ℤ :=
  netOf Roll.qty (Grouping.group Roll.nextLeg (env.bought T (env.allDue T)) leg)

theorem Rolled.netQty (h : env.Rolled (env.allDue T) T T') (leg : LegId) :
    T'.netQty leg.1 leg.2 = T.netQty leg.1 leg.2 - env.leaving T leg + env.arriving T leg := by
  have hpair : ∀ leg' : LegId, ofPairs leg.1 (fun l => l = leg.2) leg' = decide (leg' = leg) := fun leg' => by
    rw [ofPairs, ← Bool.decide_and]
    exact decide_eq_decide.mpr Prod.ext_iff.symm
  rw [PaperTrades.netQty_eq_legsQty, h.legsQty, ← PaperTrades.netQty_eq_legsQty]
  simp only [hpair]
  rfl

theorem Rolled.roleQty {rolls : List Roll} (h : env.Rolled rolls T T') (s role : String) :
    T'.roleQty s role = T.roleQty s role -
      netOf Roll.qty (Grouping.group Roll.base (env.sold T rolls) (s, role)) +
        netOf Roll.qty (Grouping.group Roll.base (env.bought T rolls) (s, role)) := by
  have hbase : ∀ r : Roll, ∀ key, ofPairs s (fun l => l.1 = role) (r.pos.strategyName, r.pos.legRole, key) =
      decide (r.base = (s, role)) := fun r key => by
    rw [ofPairs, ← Bool.decide_and]
    exact decide_eq_decide.mpr (Prod.mk.injEq ..).symm.to_iff
  rw [PaperTrades.roleQty, h.legsQty, PaperTrades.roleQty]
  simp only [Roll.leg, Roll.nextLeg, PaperPosition.pair, hbase]
  rfl

theorem nodup_closeKeys (env : RollEnv) (T : PaperTrades) : ((env.allDue T).map env.closeKey).Nodup := by
  have hmap : (env.allDue T).map env.closeKey =
      ((env.allDue T).map Roll.leg).map fun leg => rowKey leg env.today .sell := by
    rw [List.map_map]
    rfl
  rw [hmap]
  exact (nodup_legs env T).map (rowKey_injective _ _)

/-- A leg that is rolled loses its quantity, if its sale is written. -/
theorem leaving_of_mem {r : Roll} (h : r ∈ env.allDue T) :
    env.leaving T r.leg = if T.hasKey (env.closeKey r) = true then 0 else r.qty := by
  have hsold : env.sold T (env.allDue T) = (env.allDue T).filter fun r => !T.hasKey (env.closeKey r) :=
    Slots.served_eq_filter (nodup_closeKeys env T)
  have hlegs : ((env.sold T (env.allDue T)).map Roll.leg).Nodup :=
    (nodup_legs env T).sublist ((Slots.served_sublist ..).map _)
  cases htaken : T.hasKey (env.closeKey r) with
  | true =>
    rw [if_pos rfl]
    refine Slots.group_sum_of_forall_ne fun d hd heq => ?_
    rw [hsold, List.mem_filter] at hd
    obtain rfl := List.inj_on_of_nodup_map (nodup_legs env T) hd.1 h heq
    exact absurd hd.2 (by simp [htaken])
  | false =>
    rw [if_neg Bool.false_ne_true]
    refine Slots.group_sum_of_mem hlegs ?_
    rw [hsold]
    exact List.mem_filter.mpr ⟨h, by simp [htaken]⟩

/-- A leg that is not rolled loses nothing. -/
theorem leaving_of_forall_ne {leg : LegId} (h : ∀ r ∈ env.allDue T, r.leg ≠ leg) : env.leaving T leg = 0 :=
  Slots.group_sum_of_forall_ne fun d hd => h d ((Slots.served_sublist ..).subset hd)

/-- What arrives at a leg is what one roll brings. -/
theorem arriving_of_mem {e : Roll} (he : e ∈ env.bought T (env.allDue T)) : env.arriving T e.nextLeg = e.qty := by
  refine Slots.group_sum_of_mem ?_ he
  have hkeys := (Slots.served_spec env.openKey (env.allDue T) T.hasKey).2
  refine List.Nodup.of_map (fun leg => rowKey leg env.openDate .buy) ?_
  rw [List.map_map]
  exact hkeys

theorem arriving_of_forall_ne {leg : LegId} (h : ∀ e ∈ env.bought T (env.allDue T), e.nextLeg ≠ leg) :
    env.arriving T leg = 0 := Slots.group_sum_of_forall_ne h

theorem mem_of_mem_bought {e : Roll} (he : e ∈ env.bought T (env.allDue T)) : e ∈ env.allDue T :=
  (Slots.served_sublist ..).subset he

theorem arriving_nonneg (env : RollEnv) (T : PaperTrades) (leg : LegId) : 0 ≤ env.arriving T leg := by
  refine List.sum_nonneg fun q hq => ?_
  obtain ⟨e, he, rfl⟩ := List.mem_map.mp hq
  exact (qty_pos (mem_of_mem_bought (Grouping.mem_group.mp he).1)).le

theorem arriving_eq_zero_iff {leg : LegId} :
    env.arriving T leg = 0 ↔ ∀ e ∈ env.bought T (env.allDue T), e.nextLeg ≠ leg := by
  refine ⟨fun h e he heq => ?_, arriving_of_forall_ne⟩
  have hqty := qty_pos (mem_of_mem_bought he)
  rw [← heq, arriving_of_mem he] at h
  omega

theorem arriving_eq_iff {leg : LegId} {q : ℤ} (hq : 0 < q) :
    env.arriving T leg = q ↔ ∃ e ∈ env.bought T (env.allDue T), e.nextLeg = leg ∧ e.qty = q := by
  constructor
  · intro h
    by_contra hnone
    rw [arriving_of_forall_ne fun e he heq => hnone ⟨e, he, heq, ?_⟩] at h
    · omega
    · rw [← h, ← heq, arriving_of_mem he]
  · rintro ⟨e, he, rfl, rfl⟩
    exact arriving_of_mem he

/-! ### Moving the position intact -/

variable (env) in
/-- A run leaves each base role what it held, is out of every due contract that something
replaces, and has nothing left to write for a second run. -/
def MovedIntact (T : PaperTrades) : Prop :=
  ∃ results T', env.runRollCheck T = .ok results T' ∧
    (∀ s ∈ tracks, ∀ role ∈ rollableLegRoles, T'.roleQty s role = T.roleQty s role) ∧
    (∀ s ∈ tracks, ∀ role ∈ rollableLegRoles, ∀ key, env.rollTarget role key ≠ none → T'.netQty s (role, key) = 0) ∧
    ∃ again, env.runRollCheck T' = .ok again T'

variable (env) in
/-- The condition on a ledger. -/
structure RollsCleanly (T : PaperTrades) : Prop where
  /-- The sale of a long leg has its slot, and nothing is bought of it. -/
  long_sold : ∀ r ∈ env.allDue T, 0 < r.pos.netQty →
    T.hasKey (env.closeKey r) = false ∧ ∀ e ∈ env.bought T (env.allDue T), e.nextLeg ≠ r.leg
  /-- Of a short leg, which a sale doubles, so much is bought. -/
  short_bought : ∀ r ∈ env.allDue T, r.pos.netQty < 0 → ∃ e ∈ env.bought T (env.allDue T),
    e.nextLeg = r.leg ∧ e.qty = if T.hasKey (env.closeKey r) = true then r.qty else 2 * r.qty
  /-- What is bought and was not held is not due itself. -/
  target_not_due : ∀ e ∈ env.bought T (env.allDue T), T.netQty e.nextLeg.1 e.nextLeg.2 = 0 →
    env.rollTarget e.pos.legRole e.next.instrumentKey = none
  /-- In each base role as much is bought as sold. -/
  balanced : ∀ s ∈ tracks, ∀ role ∈ rollableLegRoles,
    netOf Roll.qty (Grouping.group Roll.base (env.sold T (env.allDue T)) (s, role)) =
      netOf Roll.qty (Grouping.group Roll.base (env.bought T (env.allDue T)) (s, role))

variable (env) in
/-- The condition on a ledger whose base legs are long. -/
structure EachHasRoom (T : PaperTrades) : Prop where
  /-- No sale of a due leg is recorded today yet. -/
  sale_free : ∀ r ∈ env.allDue T, T.hasKey (env.closeKey r) = false
  /-- Nor a purchase of what replaces it on the next trading day. -/
  purchase_free : ∀ r ∈ env.allDue T, T.hasKey (env.openKey r) = false
  /-- No two legs are replaced by the same. -/
  targets_nodup : ((env.allDue T).map Roll.nextLeg).Nodup
  /-- What replaces a leg is not due itself. -/
  target_not_due : ∀ r ∈ env.allDue T, env.rollTarget r.pos.legRole r.next.instrumentKey = none

/-- When a due leg is flat after a run. -/
theorem Rolled.flat_iff (h : env.Rolled (env.allDue T) T T') {r : Roll} (hr : r ∈ env.allDue T) :
    T'.netQty r.leg.1 r.leg.2 = 0 ↔
      (0 < r.pos.netQty → T.hasKey (env.closeKey r) = false ∧
        ∀ e ∈ env.bought T (env.allDue T), e.nextLeg ≠ r.leg) ∧
      (r.pos.netQty < 0 → ∃ e ∈ env.bought T (env.allDue T),
        e.nextLeg = r.leg ∧ e.qty = if T.hasKey (env.closeKey r) = true then r.qty else 2 * r.qty) := by
  obtain ⟨-, -, hopen, hnet, -⟩ := allDue_spec hr
  have hqty := qty_pos hr
  rw [h.netQty, hnet, leaving_of_mem hr, ← arriving_eq_zero_iff]
  rcases lt_or_gt_of_ne hopen with hshort | hlong
  · have habs : r.qty = -r.pos.netQty := abs_of_neg hshort
    have hcover : (∃ e ∈ env.bought T (env.allDue T), e.nextLeg = r.leg ∧
        e.qty = if T.hasKey (env.closeKey r) = true then r.qty else 2 * r.qty) ↔
          env.arriving T r.leg = if T.hasKey (env.closeKey r) = true then r.qty else 2 * r.qty :=
      (arriving_eq_iff (by split <;> omega)).symm
    have hequation : r.pos.netQty - (if T.hasKey (env.closeKey r) = true then 0 else r.qty) +
        env.arriving T r.leg = 0 ↔
          env.arriving T r.leg = if T.hasKey (env.closeKey r) = true then r.qty else 2 * r.qty := by
      split <;> omega
    rw [hequation, hcover]
    exact ⟨fun h => ⟨fun hlong => absurd hlong (not_lt.mpr hshort.le), fun _ => h⟩, fun h => h.2 hshort⟩
  · have habs : r.qty = r.pos.netQty := abs_of_pos hlong
    have harrive := arriving_nonneg env T r.leg
    have hequation : r.pos.netQty - (if T.hasKey (env.closeKey r) = true then 0 else r.qty) +
        env.arriving T r.leg = 0 ↔ T.hasKey (env.closeKey r) = false ∧ env.arriving T r.leg = 0 := by
      cases T.hasKey (env.closeKey r) with
      | true => simp; omega
      | false => simp; omega
    rw [hequation]
    exact ⟨fun h => ⟨fun _ => h, fun hshort => absurd hshort (not_lt.mpr hlong.le)⟩, fun h => h.1 hlong⟩

/-- When every due contract is flat after a run. -/
theorem Rolled.all_flat_iff (h : env.Rolled (env.allDue T) T T') :
    (∀ s ∈ tracks, ∀ role ∈ rollableLegRoles, ∀ key, env.rollTarget role key ≠ none → T'.netQty s (role, key) = 0) ↔
      (∀ r ∈ env.allDue T, T'.netQty r.leg.1 r.leg.2 = 0) ∧
        ∀ e ∈ env.bought T (env.allDue T), T.netQty e.nextLeg.1 e.nextLeg.2 = 0 →
          env.rollTarget e.pos.legRole e.next.instrumentKey = none := by
  constructor
  · intro hflat
    refine ⟨fun r hr => ?_, fun e he hnet => ?_⟩
    · obtain ⟨hs, hrole, -, -, htarget⟩ := allDue_spec hr
      exact hflat _ hs _ hrole _ (by rw [htarget]; simp)
    · obtain ⟨hs, hrole, -, -, -⟩ := allDue_spec (mem_of_mem_bought he)
      by_contra hdue
      have hzero : T'.netQty e.nextLeg.1 e.nextLeg.2 = 0 := hflat _ hs _ hrole _ hdue
      -- what was not held is not sold, and what is bought stays
      have hleave : env.leaving T e.nextLeg = 0 := leaving_of_forall_ne fun r hr heq => by
        obtain ⟨-, -, hopen, hheld, -⟩ := allDue_spec hr
        rw [heq, hnet] at hheld
        exact hopen hheld.symm
      have hqty := qty_pos (mem_of_mem_bought he)
      rw [h.netQty, hnet, hleave, arriving_of_mem he] at hzero
      omega
  · rintro ⟨hrolled, htarget⟩ s hs role hrole key hdue
    by_cases hnet : T.netQty s (role, key) = 0
    · have hleave : env.leaving T (s, role, key) = 0 := leaving_of_forall_ne fun r hr heq => by
        obtain ⟨-, -, hopen, hheld, -⟩ := allDue_spec hr
        rw [heq] at hheld
        exact hopen (hheld.symm.trans hnet)
      have harrive : env.arriving T (s, role, key) = 0 := arriving_of_forall_ne fun e he heq => by
        obtain ⟨rfl, rfl, rfl⟩ : e.pos.strategyName = s ∧ e.pos.legRole = role ∧ e.next.instrumentKey = key := by
          simpa [Roll.nextLeg] using heq
        exact hdue (htarget e he hnet)
      have hafter := h.netQty (s, role, key)
      rw [hleave, harrive] at hafter
      simpa [hnet] using hafter
    · obtain ⟨r, hr, hleg⟩ := exists_due hs hrole hdue hnet
      have hzero := hrolled r hr
      rwa [hleg] at hzero

/-- Where every due contract is flat a run writes nothing. -/
theorem runRollCheck_of_flat (hdry : env.dryRun = false) (hpriced : env.AllPriced)
    (h : ∀ s ∈ tracks, ∀ role ∈ rollableLegRoles, ∀ key, env.rollTarget role key ≠ none → T.netQty s (role, key) = 0) :
    ∃ results, env.runRollCheck T = .ok results T := by
  obtain ⟨results, T', hrun, hrolled⟩ := rollTracks_run hdry hpriced (show tracks.Nodup by decide) T
  have hnil : env.dueRolls T tracks = [] := by
    rw [List.eq_nil_iff_forall_not_mem]
    intro r hr
    obtain ⟨hs, hrole, hopen, hnet, htarget⟩ := allDue_spec hr
    have hzero : T.netQty r.leg.1 r.leg.2 = 0 := h _ hs _ hrole _ (by rw [htarget]; simp)
    exact hopen (hnet.symm.trans hzero)
  obtain rfl := hrolled.idle hnil
  exact ⟨results, hrun⟩

theorem movedIntact_iff (hdry : env.dryRun = false) (hpriced : env.AllPriced) (T : PaperTrades) :
    env.MovedIntact T ↔ env.RollsCleanly T := by
  obtain ⟨results, T', hrun, hrolled⟩ := rollTracks_run hdry hpriced (show tracks.Nodup by decide) T
  have hbalanced : (∀ s ∈ tracks, ∀ role ∈ rollableLegRoles, T'.roleQty s role = T.roleQty s role) ↔
      ∀ s ∈ tracks, ∀ role ∈ rollableLegRoles,
        netOf Roll.qty (Grouping.group Roll.base (env.sold T (env.allDue T)) (s, role)) =
          netOf Roll.qty (Grouping.group Roll.base (env.bought T (env.allDue T)) (s, role)) := by
    refine forall₂_congr fun s _ => forall₂_congr fun role _ => ?_
    rw [hrolled.roleQty, allDue]
    omega
  have hflat := hrolled.all_flat_iff
  constructor
  · rintro ⟨results', T'', hrun', hroles, hdue, -⟩
    obtain ⟨-, rfl⟩ := (EStateM.Result.ok.injEq ..).mp (hrun.symm.trans hrun')
    obtain ⟨hlegs, htarget⟩ := hflat.mp hdue
    exact
      { long_sold := fun r hr => ((hrolled.flat_iff hr).mp (hlegs r hr)).1
        short_bought := fun r hr => ((hrolled.flat_iff hr).mp (hlegs r hr)).2
        target_not_due := htarget
        balanced := hbalanced.mp hroles }
  · intro h
    have hdue := hflat.mpr ⟨fun r hr => (hrolled.flat_iff hr).mpr ⟨h.long_sold r hr, h.short_bought r hr⟩,
      h.target_not_due⟩
    exact ⟨results, T', hrun, hbalanced.mpr h.balanced, hdue, runRollCheck_of_flat hdry hpriced hdue⟩

/-- On long legs the condition is that each roll finds its slots free and its target its own. -/
theorem rollsCleanly_iff_of_long (hlong : ∀ r ∈ env.allDue T, 0 < r.pos.netQty) :
    env.RollsCleanly T ↔ env.EachHasRoom T := by
  have hopenKeys : (env.allDue T).map env.openKey =
      ((env.allDue T).map Roll.nextLeg).map fun leg => rowKey leg env.openDate .buy := by
    rw [List.map_map]
    rfl
  constructor
  · intro h
    have hfree : ∀ r ∈ env.allDue T, T.hasKey (env.closeKey r) = false := fun r hr =>
      (h.long_sold r hr (hlong r hr)).1
    have hsold : env.sold T (env.allDue T) = env.allDue T :=
      Slots.served_eq_self_iff.mpr ⟨hfree, nodup_closeKeys env T⟩
    -- as much is bought as sold of every base role, so no purchase was left out
    have hbought : env.bought T (env.allDue T) = env.allDue T := by
      refine Slots.eq_of_sublist_of_group_sums Roll.base Roll.qty (Slots.served_sublist ..)
        (fun r hr => qty_pos hr) fun r hr => ?_
      obtain ⟨hs, hrole, -⟩ := allDue_spec hr
      have hbalanced := h.balanced _ hs _ hrole
      rw [hsold] at hbalanced
      exact hbalanced.symm
    obtain ⟨hpurchase, hkeys⟩ := Slots.served_eq_self_iff.mp hbought
    refine ⟨hfree, hpurchase, ?_, fun r hr => ?_⟩
    · rw [hopenKeys] at hkeys
      exact hkeys.of_map
    · have hr' : r ∈ env.bought T (env.allDue T) := hbought.symm ▸ hr
      by_contra hdue
      by_cases hnet : T.netQty r.nextLeg.1 r.nextLeg.2 = 0
      · exact hdue (h.target_not_due r hr' hnet)
      · obtain ⟨hs, hrole, -⟩ := allDue_spec hr
        obtain ⟨d, hd, hleg⟩ := exists_due hs hrole hdue hnet
        exact (h.long_sold d hd (hlong d hd)).2 r hr' hleg.symm
  · intro h
    have hsold : env.sold T (env.allDue T) = env.allDue T :=
      Slots.served_eq_self_iff.mpr ⟨h.sale_free, nodup_closeKeys env T⟩
    have hbought : env.bought T (env.allDue T) = env.allDue T := by
      refine Slots.served_eq_self_iff.mpr ⟨h.purchase_free, ?_⟩
      rw [hopenKeys]
      exact h.targets_nodup.map (rowKey_injective _ _)
    constructor
    · intro r hr _
      refine ⟨h.sale_free r hr, fun e he heq => ?_⟩
      -- a leg that is bought is not due, and this one is
      rw [hbought] at he
      have hnone := h.target_not_due e he
      obtain ⟨-, hrole, hkey⟩ : e.pos.strategyName = r.pos.strategyName ∧ e.pos.legRole = r.pos.legRole ∧
          e.next.instrumentKey = r.pos.instrumentKey := by
        simpa [Roll.nextLeg, Roll.leg, PaperPosition.pair] using heq
      rw [hrole, hkey, (allDue_spec hr).2.2.2.2] at hnone
      exact absurd hnone (by simp)
    · exact fun r hr hshort => absurd (hlong r hr) (not_lt.mpr hshort.le)
    · exact fun e he _ => h.target_not_due e (mem_of_mem_bought he)
    · intro s _ role _
      rw [hsold, hbought]

end RollEnv

/-! ### Which rolls move the position intact -/

/-- **A run moves the position intact** exactly when each long leg that is due is sold and not
bought again, each short one bought in the right quantity, nothing new is due itself, and each
base role is bought what it is sold. Where the due legs are long, that is when every roll finds
the slots of its sale and its purchase free, has a target of its own, and one that is not due. -/
theorem moved_intact_iff (env : RollEnv) (hdry : env.dryRun = false) (hpriced : env.AllPriced) (T : PaperTrades) :
    (env.MovedIntact T ↔ env.RollsCleanly T) ∧
      ((∀ r ∈ env.allDue T, 0 < r.pos.netQty) → (env.RollsCleanly T ↔ env.EachHasRoom T)) :=
  ⟨RollEnv.movedIntact_iff hdry hpriced T, RollEnv.rollsCleanly_iff_of_long⟩

/-! ### Calls of one strike -/

/-- A call of the 22000 strike. -/
def ditmCall (instrumentKey : String) (expiry : Date) : Instrument where
  instrumentKey := instrumentKey
  instrumentType := some "CE"
  underlyingSymbol := "NIFTY"
  strikePrice := some 22000
  expiry := some expiry

/-- The first of July, with the calls of the 7th, the 14th and the 28th. -/
def julyCalls : RollEnv where
  instruments := ⟨[ditmCall "NSE_FO|41001" 739804, ditmCall "NSE_FO|41002" 739811, ditmCall "NSE_FO|41003" 739825]⟩
  calendar := TradingCalendar.weekdays
  today := 739798
  ltp _ := some 2400

theorem julyCalls_priced : julyCalls.AllPriced := fun _ => ⟨2400, rfl, by norm_num⟩

/-- The purchase of a lot of a call in June. -/
def ditmPurchase (instrumentKey : String) (hkey : instrumentKey ≠ "") : PaperTrade where
  strategyName := "paper_nifty_proxy"
  legRole := "base_ditm_call"
  instrumentKey := instrumentKey
  tradeDate := 739782
  action := .buy
  quantity := 65
  price := 2350
  paperPrefix := by decide
  legRole_ne := by decide
  instrumentKey_ne := hkey
  quantity_pos := lot_pos
  price_pos := by norm_num

/-- One call, of the 7th. -/
def oneCall : PaperTrades := (PaperTrades.empty.recordTrades [ditmPurchase "NSE_FO|41001" (by decide)]).1

/-- Two calls, of the 7th and of the 14th. -/
def twoCalls : PaperTrades :=
  (PaperTrades.empty.recordTrades
    [ditmPurchase "NSE_FO|41001" (by decide), ditmPurchase "NSE_FO|41002" (by decide)]).1

theorem moved_intact_one_call : julyCalls.MovedIntact oneCall := by
  obtain ⟨hiff, hlong⟩ := moved_intact_iff julyCalls rfl julyCalls_priced oneCall
  exact hiff.mpr ((hlong (by decide +kernel)).mpr
    { sale_free := by decide +kernel
      purchase_free := by decide +kernel
      targets_nodup := by decide +kernel
      target_not_due := by decide +kernel })

/-- Both calls are sold and replaced by that of the 28th, which is bought once. -/
theorem two_calls_halved :
    (julyCalls.dryRun = false ∧ julyCalls.AllPriced) ∧ ¬julyCalls.MovedIntact twoCalls := by
  refine ⟨⟨rfl, julyCalls_priced⟩, ?_⟩
  rintro ⟨results, T', hrun, hroles, -⟩
  have hbefore : twoCalls.roleQty "paper_nifty_proxy" "base_ditm_call" = 130 := by decide +kernel
  have hafter : (finalState (julyCalls.runRollCheck twoCalls)).roleQty "paper_nifty_proxy" "base_ditm_call" = 65 := by
    decide +kernel
  have hsame := hroles "paper_nifty_proxy" (by decide) "base_ditm_call" (by decide)
  rw [hrun, finalState_ok, hsame, hbefore] at hafter
  exact absurd hafter (by decide)

end NiftyShield.ThreeTrack.BaseRolls
