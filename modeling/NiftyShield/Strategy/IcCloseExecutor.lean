import NiftyShield.Lib.Rounding
import NiftyShield.Paper.Batch
import NiftyShield.Strategy.Executor

/-!
# Closing and rolling Iron Condor legs

`close_ic_legs` and `roll_ic_legs` (`src/strategy/ic_close_executor.py`): price the legs to
close, build the trades of the whole action and write them with one `record_trades`.

The write is one transaction, but it skips a trade whose unique key is taken and commits
the rest, and `mark_trade_closed` afterwards works on (leg, instrument), not on rows.

## What is proved

* `rollIcLegs_final`, `rollIcLegs_ok`: what a roll writes, in terms of the trades it plans
  (`plannedRoll`), and likewise for a close;
* `roll_atomic_iff`: a roll leaves either the whole roll or the ledger as it was, exactly
  when its trades collide with no row of today (or all of them do), it does not reopen a
  leg it closes, and the legs it closes have no row waiting for re-entry.

## Honest scope

The broker's answers are any finite map of prices, or an exception. `record_trades` may
fail, and then leaves the table alone; so may any `mark_trade_closed`. Logging is left out.
-/

namespace NiftyShield.Strategy.IronCondor

open NiftyShield.Instruments NiftyShield.Lib NiftyShield.Lib.Raising NiftyShield.Paper

/-! ### Collaborators -/

/-- `LOT_SIZE`. -/
def lotSize : ℕ := 65

/-- `_NIFTY_SPOT_KEY`. -/
def niftySpotKey : String := "NSE_INDEX|Nifty 50"

/-- `_OTM_EXPIRY_PRICE`. -/
def otmExpiryPrice : ℚ := 1 / 20

/-- What the executor and the strategies can raise. -/
inductive IcError where
  /-- `IronCondorV… does not permit …`. -/
  | notPermitted (actionType : String)
  /-- `ROLL_WING action requires at least one leg in legs_to_open`. -/
  | noLegToOpen
  /-- pydantic's `ValidationError`, or the `KeyError` of `TradeAction[leg.action]`. -/
  | invalidTrade
  /-- An exception of the database. -/
  | database
  deriving DecidableEq

/-- The store operations of the call that fail. -/
structure StoreFaults where
  /-- `record_trades` raises. -/
  recordTrades : Bool := false
  /-- The number of `mark_trade_closed` calls before one that raises, if one does. -/
  markClosed : Option ℕ := none
  /-- `set_profit_lock_state` raises. -/
  setLockState : Bool := false

/-- The collaborators of a call, apart from the ledger. -/
structure IcEnv where
  /-- `broker.get_ltp`, `none` if it raises. -/
  getLtp : List String → Option (Dict String ℚ)
  /-- The BOD file, `none` if it does not load. -/
  bodLookup : Option InstrumentLookup
  /-- `market_today()`. -/
  today : Date
  /-- Failing store operations. -/
  faults : StoreFaults := {}

/-- A program over the ledger. -/
abbrev IcExec := EStateM IcError PaperTrades

/-! ### Prices -/

/-- The spot used for settlement. -/
def spotPrice (env : IcEnv) : Option ℚ := (env.getLtp [niftySpotKey]).bind (·.get? niftySpotKey)

/-- The price an expired option settles at: intrinsic value in the money, else the tick
floor. `none` if it has not expired or something needed is missing. -/
def settlementPrice (env : IcEnv) (pos : PaperPosition) : Option ℚ := do
  let inst ← env.bodLookup.bind (·.getByKey pos.instrumentKey)
  let expiry ← inst.expiry
  let strike ← inst.strikePrice
  if env.today < expiry then none
  else
    match inst.instrumentType with
    | some "CE" => (spotPrice env).map fun spot => if strike < spot
        then quantizePaise (spot - strike) else otmExpiryPrice
    | some "PE" => (spotPrice env).map fun spot => if spot < strike
        then quantizePaise (strike - spot) else otmExpiryPrice
    | _ => none

/-- The entry price of a position. -/
def entryPrice (pos : PaperPosition) : ℚ := if pos.netQty < 0 then pos.avgSellPrice else pos.avgCost

/-- The price a position is closed at: the last price, else its settlement, else the price
it was entered at. -/
def closePrice (env : IcEnv) (ltpMap : Dict String ℚ) (pos : PaperPosition) : ℚ :=
  match ltpMap.get? pos.instrumentKey with
  | some raw => if raw ≤ 0 then (settlementPrice env pos).getD (entryPrice pos) else quantizePaise raw
  | none => (settlementPrice env pos).getD (entryPrice pos)

/-! ### Trades -/

/-- The trade that closes a position. -/
def closeTrade (env : IcEnv) (ltpMap : Dict String ℚ) (strategyName notes : String) (pos : PaperPosition) :
    Option PaperTrade :=
  PaperTrade.validate strategyName pos.legRole pos.instrumentKey env.today (closeAction pos) |pos.netQty|
    (closePrice env ltpMap pos) notes none .open

/-- `_build_close_trades`; `none` if a trade does not validate. -/
def buildCloseTrades (env : IcEnv) (toClose : List PaperPosition) (strategyName notes : String) :
    Option (List PaperTrade) :=
  let ltpMap := (env.getLtp (toClose.map (·.instrumentKey))).getD Dict.empty
  toClose.mapM (closeTrade env ltpMap strategyName notes)

/-- The trade that opens a leg: `quantity` counts lots. -/
def openTrade (env : IcEnv) (strategyName notes : String) (leg : LegSpec) : Option PaperTrade := do
  let action ← TradeAction.ofValue leg.action
  let price ← leg.price
  PaperTrade.validate strategyName leg.legRole leg.instrumentKey env.today action
    (leg.quantity * lotSize) price notes
    none .open

/-- The positions of the roles to close that are open. -/
def toClose (positions : List PaperPosition) (closedRoles : List String) : List PaperPosition :=
  positions.filter fun p => p.legRole ∈ closedRoles ∧ p.netQty ≠ 0

/-! ### The two calls -/

/-- `close_ic_legs`: the closing trades that were inserted. -/
def closeIcLegs (env : IcEnv) (positions : List PaperPosition) (closedRoles : List String)
    (strategyName notes : String) : IcExec (List PaperTrade) :=
  if toClose positions closedRoles = [] then pure []
  else do
    let trades ← fromOption .invalidTrade
      (buildCloseTrades env (toClose positions closedRoles) strategyName notes)
    -- an exception of `record_trades` is caught
    if env.faults.recordTrades then pure []
    else do
      let inserted ← updates fun T => ((T.recordTrades trades).1, (T.recordTrades trades).2.1)
      markClosedEach .database env.faults.markClosed inserted
      pure inserted

/-- A leg to open without a positive price. -/
def missesPrice (leg : LegSpec) : Bool :=
  match leg.price with
  | none => true
  | some price => price ≤ 0

/-- `roll_ic_legs`: the closing and opening trades that were inserted. -/
def rollIcLegs (env : IcEnv) (closePositions : List PaperPosition) (closedRoles : List String)
    (openLegs : List LegSpec) (strategyName notes : String) : IcExec (List PaperTrade) :=
  if toClose closePositions closedRoles = [] ∧ openLegs = [] then pure []
  -- an open-only roll would add exposure with nothing closed
  else if openLegs ≠ [] ∧ toClose closePositions closedRoles = [] then pure []
  else if openLegs.any missesPrice then pure []
  else do
    let closeTrades ← fromOption .invalidTrade
      (buildCloseTrades env (toClose closePositions closedRoles) strategyName notes)
    let openTrades ← fromOption .invalidTrade (openLegs.mapM (openTrade env strategyName notes))
    if env.faults.recordTrades then pure []
    else do
      let inserted ← updates fun T =>
        let r := T.recordTrades (closeTrades ++ openTrades)
        (r.1, r.2.1, (T.recordTrades closeTrades).2.1)
      -- only the inserted close trades, told apart by identity: the batch inserts them first
      markClosedEach .database env.faults.markClosed inserted.2
      pure inserted.1

/-! ### What a roll plans and writes -/

/-- The closing and the opening trades of a roll that comes to its write. -/
def plannedRoll (env : IcEnv) (closePositions : List PaperPosition) (closedRoles : List String)
    (openLegs : List LegSpec) (strategyName notes : String) : Option (List PaperTrade × List PaperTrade) :=
  if toClose closePositions closedRoles = [] ∨ openLegs.any missesPrice ∨ env.faults.recordTrades then none
  else do
    let closeTrades ← buildCloseTrades env (toClose closePositions closedRoles) strategyName notes
    let openTrades ← openLegs.mapM (openTrade env strategyName notes)
    some (closeTrades, openTrades)

/-- The closing trades of a close that comes to its write. -/
def plannedClose (env : IcEnv) (positions : List PaperPosition) (closedRoles : List String)
    (strategyName notes : String) : Option (List PaperTrade) :=
  if toClose positions closedRoles = [] ∨ env.faults.recordTrades then none
  else buildCloseTrades env (toClose positions closedRoles) strategyName notes

/-- **What a roll leaves**, however it ends: nothing new if it does not come to its write,
else the fresh trades of its batch, with the legs of the fresh close trades marked. -/
theorem rollIcLegs_final (env : IcEnv) (closePositions : List PaperPosition) (closedRoles : List String)
    (openLegs : List LegSpec) (s notes : String) (T : PaperTrades) :
    finalState (rollIcLegs env closePositions closedRoles openLegs s notes T) =
      match plannedRoll env closePositions closedRoles openLegs s notes with
      | none => T
      | some (c, o) =>
        (T.recordTrades (c ++ o)).1.markAllClosed
          (markedBefore env.faults.markClosed (fresh T.hasKey c)) := by
  unfold rollIcLegs plannedRoll
  by_cases hclose : toClose closePositions closedRoles = []
  · -- nothing to close: both guards return
    by_cases hopen : openLegs = [] <;> simp [hclose, hopen, pure_run]
  · cases hprice : openLegs.any missesPrice with
    | true => simp [hclose, pure_run]
    | false =>
      cases hc : buildCloseTrades env (toClose closePositions closedRoles) s notes with
      | none => simp [hclose, fromOption, bind_run, throw_run]
      | some c =>
        cases ho : openLegs.mapM (openTrade env s notes) with
        | none => simp [hclose, fromOption, bind_run, pure_run, throw_run]
        | some o =>
          cases hfault : env.faults.recordTrades with
          | true => simp [hclose, fromOption, bind_run, pure_run]
          | false =>
            simp only [hclose, false_and, and_false, if_false, Bool.false_eq_true, or_self, fromOption,
              bind_run, pure_run, updates_run, Option.bind_eq_bind, Option.bind_some]
            rw [← finalState_markClosedEach IcError.database, PaperTrades.inserted_recordTrades c]
            cases markClosedEach IcError.database env.faults.markClosed (fresh T.hasKey c)
              (T.recordTrades (c ++ o)).1 <;> rfl

/-- A roll that returns trades planned them and inserted the fresh ones. -/
theorem rollIcLegs_ok {env : IcEnv} {closePositions : List PaperPosition} {closedRoles : List String}
    {openLegs : List LegSpec} {s notes : String} {T T' : PaperTrades} {ts : List PaperTrade}
    (h : rollIcLegs env closePositions closedRoles openLegs s notes T = .ok ts T') (hts : ts ≠ []) :
    ∃ c o, plannedRoll env closePositions closedRoles openLegs s notes = some (c, o) ∧
      ts = fresh T.hasKey (c ++ o) ∧ T' = (T.recordTrades (c ++ o)).1.markAllClosed (fresh T.hasKey c) := by
  unfold rollIcLegs at h
  split at h
  next => exact absurd (pure_ok_iff.mp h).1.symm hts
  next hnone =>
    split at h
    next => exact absurd (pure_ok_iff.mp h).1.symm hts
    next hopenOnly =>
      split at h
      next => exact absurd (pure_ok_iff.mp h).1.symm hts
      next hprice =>
        simp only [bind_ok_iff, fromOption_ok_iff] at h
        obtain ⟨c, _, ⟨hc, rfl⟩, o, _, ⟨ho, rfl⟩, h⟩ := h
        split at h
        next => exact absurd (pure_ok_iff.mp h).1.symm hts
        next hfault =>
          obtain ⟨inserted, T₁, hins, h⟩ := bind_ok_iff.mp h
          obtain ⟨⟨⟩, T₂, hmark, h⟩ := bind_ok_iff.mp h
          obtain ⟨rfl, rfl⟩ := pure_ok_iff.mp h
          simp only [updates_ok_iff, Prod.mk.injEq] at hins
          obtain ⟨rfl, rfl⟩ := hins
          have hclose : toClose closePositions closedRoles ≠ [] := fun hclose => by
            by_cases hopen : openLegs = []
            · exact hnone ⟨hclose, hopen⟩
            · exact hopenOnly ⟨hopen, hclose⟩
          refine ⟨c, o, ?_, PaperTrades.inserted_recordTrades _ _, ?_⟩
          · rw [plannedRoll, if_neg (by simp [hclose, hprice, hfault]), hc, ho]
            rfl
          · rw [markClosedEach_ok _ hmark]
            simp only [PaperTrades.inserted_recordTrades]

/-- A close that returns wrote the fresh trades of its plan and marked their legs, or
planned nothing and wrote nothing. -/
theorem closeIcLegs_ok {env : IcEnv} {positions : List PaperPosition} {closedRoles : List String}
    {s notes : String}
    {T T' : PaperTrades} {ts : List PaperTrade}
    (h : closeIcLegs env positions closedRoles s notes T = .ok ts T') :
    (plannedClose env positions closedRoles s notes = none ∧ T' = T) ∨
      ∃ c, plannedClose env positions closedRoles s notes = some c ∧
        T' = (T.recordTrades c).1.markAllClosed (fresh T.hasKey c) := by
  unfold closeIcLegs at h
  split at h
  next hnone =>
    refine Or.inl ⟨?_, (pure_ok_iff.mp h).2.symm⟩
    rw [plannedClose, if_pos (Or.inl hnone)]
  next hsome =>
    simp only [bind_ok_iff, fromOption_ok_iff] at h
    obtain ⟨c, _, ⟨hc, rfl⟩, h⟩ := h
    split at h
    next hfault =>
      refine Or.inl ⟨?_, (pure_ok_iff.mp h).2.symm⟩
      rw [plannedClose, if_pos (Or.inr hfault)]
    next hfault =>
      obtain ⟨inserted, T₁, hins, h⟩ := bind_ok_iff.mp h
      obtain ⟨⟨⟩, T₂, hmark, h⟩ := bind_ok_iff.mp h
      obtain ⟨-, rfl⟩ := pure_ok_iff.mp h
      simp only [updates_ok_iff, Prod.mk.injEq] at hins
      obtain ⟨rfl, rfl⟩ := hins
      refine Or.inr ⟨c, ?_, ?_⟩
      · rw [plannedClose, if_neg (by simp [hsome, hfault]), hc]
      · rw [markClosedEach_ok _ hmark, PaperTrades.inserted_recordTrades]

theorem closeTrade_spec {env : IcEnv} {ltpMap : Dict String ℚ} {s notes : String} {pos : PaperPosition}
    {t : PaperTrade} (h : closeTrade env ltpMap s notes pos = some t) :
    t.uniqueKey = ⟨s, pos.legRole, pos.instrumentKey, env.today, closeAction pos⟩ ∧
      t.signedQty = -pos.netQty ∧
      t.state = .open := by
  obtain ⟨hkey, hqty⟩ := validate_eq_some h
  obtain ⟨-, -, -, -, haction⟩ := PaperTrade.UniqueKey.mk.inj hkey
  refine ⟨hkey, ?_, validate_state h⟩
  rw [PaperTrade.signedQty, haction, closeAction]
  rcases lt_or_ge 0 pos.netQty with hlong | hshort
  · rw [abs_of_pos hlong] at hqty
    rw [if_pos hlong, hqty]
  · rw [abs_of_nonpos hshort] at hqty
    rw [if_neg (not_lt.mpr hshort), hqty]

theorem openTrade_spec {env : IcEnv} {s notes : String} {leg : LegSpec} {t : PaperTrade}
    (h : openTrade env s notes leg = some t) :
    ∃ a, TradeAction.ofValue leg.action = some a ∧
      t.uniqueKey = ⟨s, leg.legRole, leg.instrumentKey, env.today, a⟩ ∧
        (t.quantity : ℤ) = leg.quantity * lotSize ∧
      t.state = .open := by
  simp only [openTrade, Option.bind_eq_bind, Option.bind_eq_some_iff] at h
  obtain ⟨a, ha, price, -, ht⟩ := h
  obtain ⟨hkey, hqty⟩ := validate_eq_some ht
  exact ⟨a, ha, hkey, hqty, validate_state ht⟩

/-- The trades a roll plans are those of its positions and legs. -/
theorem plannedRoll_eq_some {env : IcEnv} {closePositions : List PaperPosition} {closedRoles : List String}
    {openLegs : List LegSpec} {s notes : String} {c o : List PaperTrade}
    (h : plannedRoll env closePositions closedRoles openLegs s notes = some (c, o)) :
    (∃ ltpMap, List.Forall₂ (fun p t => closeTrade env ltpMap s notes p = some t)
      (toClose closePositions closedRoles) c) ∧
      List.Forall₂ (fun leg t => openTrade env s notes leg = some t) openLegs o := by
  unfold plannedRoll at h
  split at h
  next => exact absurd h (by simp)
  next =>
    simp only [Option.bind_eq_bind, Option.bind_eq_some_iff, Option.some.injEq, Prod.mk.injEq] at h
    obtain ⟨c', hc, o', ho, rfl, rfl⟩ := h
    exact ⟨⟨_, mapM_eq_some_iff.mp hc⟩, mapM_eq_some_iff.mp ho⟩

private theorem forall₂_right {α β : Type} {R : α → β → Prop} {P : β → Prop} (hP : ∀ a b, R a b → P b) :
    ∀ {l : List α} {m : List β}, List.Forall₂ R l m → ∀ b ∈ m, P b
  | _, _, .nil => by simp
  | _, _, .cons hab h => List.forall_mem_cons.mpr ⟨hP _ _ hab, forall₂_right hP h⟩

/-- Every trade a roll plans is OPEN. -/
theorem state_plannedRoll {env : IcEnv} {closePositions : List PaperPosition} {closedRoles : List String}
    {openLegs : List LegSpec} {s notes : String} {c o : List PaperTrade}
    (h : plannedRoll env closePositions closedRoles openLegs s notes = some (c, o)) :
    ∀ t ∈ c ++ o, t.state = .open := by
  obtain ⟨⟨ltpMap, hc⟩, ho⟩ := plannedRoll_eq_some h
  intro t ht
  rcases List.mem_append.mp ht with ht | ht
  · exact forall₂_right (P := fun t => t.state = .open) (fun _ _ h => (closeTrade_spec h).2.2) hc t ht
  · refine forall₂_right (P := fun t => t.state = .open) (fun leg t h => ?_) ho t ht
    obtain ⟨_, _, _, _, hst⟩ := openTrade_spec h
    exact hst

/-! ### Atomicity -/

/-- A trade as it was before any state change. -/
def opened (t : PaperTrade) : PaperTrade := { t with state := .open }

/-- The whole roll is in the ledger: its trades are the new rows, the earlier rows of the
legs it closes are CLOSED, and the rows it opened are OPEN. -/
structure RolledWhole (T T' : PaperTrades) (c o : List PaperTrade) : Prop where
  /-- The close trades and the open trades are the new rows. -/
  written : (PaperTrades.newRows T T').map (fun r => opened r.trade) = c ++ o
  /-- The closed legs' old rows. -/
  closed : ∀ r ∈ T'.rows, r.id < T.nextId → (∃ t ∈ c, PaperTrades.sameLeg t r.trade = true) →
    r.trade.state = .closed
  /-- The newly opened rows. -/
  stillOpen : ∀ r ∈ (PaperTrades.newRows T T').drop c.length, r.trade.state = .open

/-- After a roll, the whole of it is in the ledger or nothing. -/
def RollAtomic (env : IcEnv) (closePositions : List PaperPosition) (closedRoles : List String)
    (openLegs : List LegSpec)
    (s notes : String) (T : PaperTrades) : Prop :=
  finalState (rollIcLegs env closePositions closedRoles openLegs s notes T) = T ∨
    ∃ c o, plannedRoll env closePositions closedRoles openLegs s notes = some (c, o) ∧
      RolledWhole T (finalState (rollIcLegs env closePositions closedRoles openLegs s notes T)) c o

/-- Nothing stands in the way of a roll with these trades: no key is taken or repeated, no
leg is opened that is also closed, and every earlier row of a closed leg is CLOSED or is
OPEN or DEFENDED and reached by the marking. -/
structure Unobstructed (env : IcEnv) (T : PaperTrades) (c o : List PaperTrade) : Prop where
  /-- No key is in the ledger, and none twice in the roll. -/
  fresh : AllFresh T.hasKey (c ++ o)
  /-- No marked leg is opened. -/
  notReopened : ∀ u ∈ o, ∀ t ∈ markedBefore env.faults.markClosed c, PaperTrades.sameLeg t u = false
  /-- No earlier row of a closed leg is left. -/
  noneLeft : ∀ r ∈ T.rows, (∃ t ∈ c, PaperTrades.sameLeg t r.trade = true) →
    r.trade.state = .closed ∨
      (PaperTrades.isLive r.trade = true ∧
        ∃ t ∈ markedBefore env.faults.markClosed c, PaperTrades.sameLeg t r.trade = true)

theorem allFresh_left {taken : PaperTrade.UniqueKey → Bool} {c o : List PaperTrade}
    (h : AllFresh taken (c ++ o)) :
    AllFresh taken c :=
  ⟨fun t ht => h.1 t (List.mem_append_left o ht), (List.pairwise_append.mp h.2).1⟩

private theorem opened_afterMarks {t : PaperTrade} (ms : List PaperTrade) (ht : t.state = .open) :
    opened (PaperTrades.afterMarks ms t) = t := by
  have hself : opened t = t := by
    rw [opened, ← ht]
  unfold PaperTrades.afterMarks
  split
  · exact hself
  · exact hself

/-- **What it takes to roll whole**, for a batch of OPEN trades and its marking. -/
theorem rolledWhole_iff {env : IcEnv} {T : PaperTrades} {c o : List PaperTrade}
    (hopen : ∀ t ∈ c ++ o, t.state = .open) :
    RolledWhole T ((T.recordTrades (c ++ o)).1.markAllClosed
      (markedBefore env.faults.markClosed (fresh T.hasKey c))) c o ↔
      Unobstructed env T c o := by
  have hnew : ∀ ms, (PaperTrades.newRows T ((T.recordTrades (c ++ o)).1.markAllClosed ms)).map
    (fun r => opened r.trade) =
      fresh T.hasKey (c ++ o) := by
    intro ms
    have hbatch := congrArg (List.map opened) (PaperTrades.newRows_batch T (c ++ o) ms)
    rw [List.map_map, List.map_map] at hbatch
    refine hbatch.trans ((List.map_congr_left fun t ht => ?_).trans (List.map_id _))
    exact opened_afterMarks ms (hopen t ((fresh_sublist _ _).subset ht))
  have hrows : ∀ ms, AllFresh T.hasKey (c ++ o) →
      (PaperTrades.newRows T ((T.recordTrades (c ++ o)).1.markAllClosed ms)).map (·.trade) =
        (c ++ o).map (PaperTrades.afterMarks ms) := fun ms hfresh => by
    rw [PaperTrades.newRows_batch, fresh_eq_self_iff.mpr hfresh]
  constructor
  · rintro ⟨hwritten, hclosed, hstill⟩
    rw [hnew] at hwritten
    have hfresh := fresh_eq_self_iff.mp hwritten
    rw [fresh_eq_self_iff.mpr (allFresh_left hfresh)] at hclosed hstill
    refine ⟨hfresh, fun u hu => ?_, fun r hr hleg => ?_⟩
    · -- the row of `u` is new and was left OPEN
      obtain ⟨r, hr, hru⟩ : ∃ r ∈ (PaperTrades.newRows T ((T.recordTrades (c ++ o)).1.markAllClosed
          (markedBefore env.faults.markClosed c))).drop c.length,
          r.trade = PaperTrades.afterMarks (markedBefore env.faults.markClosed c) u := by
        have hmem : PaperTrades.afterMarks (markedBefore env.faults.markClosed c) u ∈
            ((PaperTrades.newRows T ((T.recordTrades (c ++ o)).1.markAllClosed
              (markedBefore env.faults.markClosed c))).drop c.length).map (·.trade) := by
          rw [List.map_drop, hrows _ hfresh, List.map_append, List.drop_left' (by simp)]
          exact List.mem_map_of_mem hu
        exact List.mem_map.mp hmem
      have hst := hstill r hr
      rw [hru] at hst
      exact (PaperTrades.state_afterMarks_eq_open_iff (hopen u (List.mem_append_right c hu))).mp hst
    · obtain ⟨hmem, hlt⟩ := PaperTrades.mem_old_batch.mpr ⟨r, hr, rfl⟩
      have hst := hclosed _ hmem hlt (by simpa using hleg)
      exact PaperTrades.state_afterMarks_eq_closed_iff.mp hst
  · rintro ⟨hfresh, hreopen, hleft⟩
    rw [fresh_eq_self_iff.mpr (allFresh_left hfresh)]
    refine ⟨(hnew _).trans (fresh_eq_self_iff.mpr hfresh), fun r hr hlt hleg => ?_, fun r hr => ?_⟩
    · obtain ⟨r₀, hr₀, rfl⟩ := PaperTrades.mem_old_batch.mp ⟨hr, hlt⟩
      exact PaperTrades.state_afterMarks_eq_closed_iff.mpr (hleft r₀ hr₀ (by simpa using hleg))
    · have hmem := List.mem_map_of_mem (f := fun r : TradeRow => r.trade) hr
      rw [List.map_drop, hrows _ hfresh, List.map_append, List.drop_left' (by simp)] at hmem
      obtain ⟨u, hu, hur⟩ := List.mem_map.mp hmem
      rw [← hur]
      exact (PaperTrades.state_afterMarks_eq_open_iff (hopen u (List.mem_append_right c hu))).mpr
        (hreopen u hu)

/-- **Rolls are atomic** exactly when the roll does not come to its write, all its trades
are already in the ledger, or nothing stands in its way. -/
theorem roll_atomic_iff (env : IcEnv) (closePositions : List PaperPosition) (closedRoles : List String)
    (openLegs : List LegSpec) (s notes : String) (T : PaperTrades) :
    RollAtomic env closePositions closedRoles openLegs s notes T ↔
      ∀ c o, plannedRoll env closePositions closedRoles openLegs s notes = some (c, o) →
        (∀ t ∈ c ++ o, T.hasKey t.uniqueKey = true) ∨ Unobstructed env T c o := by
  rw [RollAtomic, rollIcLegs_final]
  cases hplan : plannedRoll env closePositions closedRoles openLegs s notes with
  | none => simp
  | some co =>
    obtain ⟨c, o⟩ := co
    have hsub : markedBefore env.faults.markClosed (fresh T.hasKey c) ⊆ fresh T.hasKey (c ++ o) := by
      rw [fresh_append]
      exact List.Subset.trans (markedBefore_subset _ _) (List.subset_append_left _ _)
    have hself := PaperTrades.batch_eq_self_iff hsub
    have hwhole := @rolledWhole_iff env T c o (state_plannedRoll hplan)
    simp only [Option.some.injEq, Prod.mk.injEq]
    constructor
    · rintro (hsame | ⟨c', o', ⟨rfl, rfl⟩, hroll⟩) c'' o'' ⟨rfl, rfl⟩
      · exact Or.inl (hself.mp hsame)
      · exact Or.inr (hwhole.mp hroll)
    · intro h
      rcases h c o ⟨rfl, rfl⟩ with htaken | hfree
      · exact Or.inl (hself.mpr htaken)
      · exact Or.inr ⟨c, o, ⟨rfl, rfl⟩, hwhole.mpr hfree⟩

/-! ### A roll back on the day of the entry -/

/-- 65 units of a short put of the monthly Iron Condor. -/
private def shortPut (key : String) (a : TradeAction) (key_ne : key ≠ "") : PaperTrade where
  strategyName := "paper_ic_nifty_v1_monthly"
  legRole := "short_put"
  instrumentKey := key
  tradeDate := 739791
  action := a
  quantity := 65
  price := 120
  paperPrefix := by decide
  legRole_ne := shortPut_ne
  instrumentKey_ne := key_ne
  quantity_pos := lot_pos
  price_pos := price120_pos

/-- Sold one put and rolled it to another, today. -/
def rolledLedger : PaperTrades :=
  (PaperTrades.empty.recordTrades
    [shortPut "NSE_FO|65901" .sell key65901_ne, shortPut "NSE_FO|65901" .buy key65901_ne,
      shortPut "NSE_FO|65902" .sell key65902_ne]).1

/-- The open positions of that ledger. -/
def rolledPositions : List PaperPosition := rolledLedger.getPositions none "paper_ic_nifty_v1_monthly"

/-- The second put is quoted at 90. -/
def rollBackEnv : IcEnv where
  getLtp _ := some (Dict.empty.set "NSE_FO|65902" 90)
  bodLookup := none
  today := 739791

/-- Back to the first put. -/
def rollBackLeg : LegSpec where
  instrumentKey := "NSE_FO|65901"
  action := "SELL"
  quantity := 1
  legRole := "short_put"
  price := some 120

/-- The close is written and the replacement is not. -/
theorem rollBack_not_atomic :
    ¬ RollAtomic rollBackEnv rolledPositions ["short_put"]
    [rollBackLeg] "paper_ic_nifty_v1_monthly" "roll" rolledLedger := by
  have hplan : (plannedRoll rollBackEnv rolledPositions ["short_put"]
    [rollBackLeg] "paper_ic_nifty_v1_monthly" "roll").map
      (fun co => (co.1 ++ co.2).map fun t => rolledLedger.hasKey t.uniqueKey) = some [false, true] := by
    decide +kernel
  obtain ⟨⟨c, o⟩, hco, hkeys⟩ := Option.map_eq_some_iff.mp hplan
  rw [RollAtomic, rollIcLegs_final, hco]
  simp only [Option.some.injEq, Prod.mk.injEq]
  rintro (hsame | ⟨c', o', ⟨rfl, rfl⟩, hwhole⟩)
  · -- the ledger has changed: the first key was free
    have hsub : markedBefore rollBackEnv.faults.markClosed (fresh rolledLedger.hasKey c) ⊆
        fresh rolledLedger.hasKey (c ++ o) := by
      rw [fresh_append]
      exact List.subset_append_left _ _
    have htaken := (PaperTrades.batch_eq_self_iff hsub).mp hsame
    have hfalse : false ∈ (c ++ o).map fun t => rolledLedger.hasKey t.uniqueKey := by
      rw [hkeys]
      decide
    obtain ⟨t, ht, hkey⟩ := List.mem_map.mp hfalse
    exact absurd ((htaken t ht).symm.trans hkey) (by decide)
  · -- not the whole roll: the second key was taken
    have hfresh := ((rolledWhole_iff (state_plannedRoll hco)).mp hwhole).fresh
    have htrue : true ∈ (c ++ o).map fun t => rolledLedger.hasKey t.uniqueKey := by
      rw [hkeys]
      decide
    obtain ⟨t, ht, hkey⟩ := List.mem_map.mp htrue
    exact absurd ((hfresh.1 t ht).symm.trans hkey) (by decide)

end NiftyShield.Strategy.IronCondor
