import NiftyShield.Strategy.IcCloseExecutor

/-!
# The actions of the Iron Condors

`apply_action` of `IronCondorV1` and `IronCondorV2` (`src/strategy/ic_nifty_v1.py`,
`src/strategy/ic_nifty_v2.py`). For an auto-executed action the roles to close follow from
the action type; V2 then closes, in each role, the position `_position_for_role` picks,
V1 the positions that match the action's `legs_to_close`.

## What is proved

* what a close and a roll add to any set of legs: the units of the positions they close
  and of the legs they open, less the trades that are duplicates (`netOf_closing`,
  `netOf_opening`);
* `close_full_flattens_picked`: `CLOSE_FULL` of V2 flattens the position it picks in each
  role and no other, so it flattens the condor exactly when no two open positions share a
  role;
* `roll_keeps_size_iff`: a roll of either version keeps the size of its roles exactly when
  it closes and opens the same number of units.

## Honest scope

The notifications after an action write nothing and are left out. The metadata of an action
is a record of the keys `apply_action` reads, with the defaults of its `meta.get` calls.
-/

namespace NiftyShield.Strategy.IronCondor

open NiftyShield.Instruments NiftyShield.Lib NiftyShield.Lib.Raising NiftyShield.Paper

/-! ### State and actions -/

/-- `ProfitLockState`. -/
structure ProfitLockState where
  /-- Highest zone reached. -/
  profitLockZone : ℤ := 0
  /-- The Zone 2 lock has been executed. -/
  zone2LockExecuted : Bool := false
  /-- The Zone 3 lock has been executed. -/
  zone3LockExecuted : Bool := false
  /-- Debit spent on locks. -/
  cumulativeLockDebitPts : ℚ := 0
  /-- Width of the put wing. -/
  activePutWidthPts : ℤ := 0
  /-- Width of the call wing. -/
  activeCallWidthPts : ℤ := 0
  /-- Cycle the state belongs to. -/
  cycleId : String := ""
  deriving DecidableEq

/-- What the Iron Condors read and write of the store. -/
structure IcStore where
  /-- `paper_trades`. -/
  trades : PaperTrades
  /-- The profit-lock columns of `paper_strategies`, by strategy. -/
  lockStates : Dict String ProfitLockState := Dict.empty
  /-- `original_entry_credit` of `paper_strategies`, where it is not NULL. -/
  entryCredits : Dict String ℚ := Dict.empty

/-- `get_profit_lock_state`. The default row it inserts is the state it returns. -/
def IcStore.getProfitLockState (S : IcStore) (strategyName : String) : ProfitLockState :=
  (S.lockStates.get? strategyName).getD {}

/-- `set_profit_lock_state`. -/
def IcStore.setProfitLockState (S : IcStore) (strategyName : String) (state : ProfitLockState) : IcStore :=
  { S with lockStates := S.lockStates.set strategyName state }

/-- What `apply_action` reads of an action's metadata. -/
structure IcMetadata where
  /-- `auto_selected` is there and true. -/
  autoSelected : Bool := false
  /-- `event_type`. -/
  eventType : Option String := none
  /-- `new_profit_lock_zone`. -/
  newProfitLockZone : ℤ := 2
  /-- `cumulative_lock_debit_pts`. -/
  cumulativeLockDebitPts : ℚ := 0
  /-- `new_put_width_pts`. -/
  newPutWidthPts : ℤ := 0
  /-- `new_call_width_pts`. -/
  newCallWidthPts : ℤ := 0
  /-- `cycle_id`. -/
  cycleId : String := ""
  deriving DecidableEq

/-- `ApprovedAction`, as the Iron Condors read it. -/
structure IcAction where
  /-- e.g. `CLOSE_FULL`. -/
  actionType : String
  /-- Positions to close. -/
  legsToClose : List LegClose
  /-- Legs to open; quantities are lots. -/
  legsToOpen : List LegSpec
  /-- Free text. -/
  rationale : String
  /-- The payload of the signal. -/
  metadata : IcMetadata := {}
  deriving DecidableEq

/-- `IronCondorV1` or `IronCondorV2`. -/
inductive IcVersion where
  /-- `IronCondorV1`. -/
  | v1
  /-- `IronCondorV2`. -/
  | v2
  deriving DecidableEq

/-- A strategy object. -/
structure Condor where
  /-- Name in the ledger. -/
  strategyName : String
  /-- A broker and a store are injected. -/
  wired : Bool := true

/-- A program over the store. -/
abbrev IcProgram := EStateM IcError IcStore

/-- A program over the ledger, run on the store. -/
def onTrades {α : Type} (x : IcExec α) : IcProgram α := fun S =>
  match x S.trades with
  | .ok a T => .ok a { S with trades := T }
  | .error e T => .error e { S with trades := T }

/-! ### Which positions an action closes -/

/-- `_SHORT_ROLES | _LONG_ROLES`. -/
def icRoles : List String := ["short_call", "short_put", "long_call_hedge", "long_put_hedge"]

/-- `_leg_close_matches`. -/
def legCloseMatches (pos : PaperPosition) (leg : LegClose) : Bool :=
  pos.legRole = leg.legRole &&
    match leg.instrumentKey with
    | some k => pos.instrumentKey = k
    | none => true

/-- `_position_for_role`: the position of the role entered last. -/
def positionForRole (icPositions : List PaperPosition) (legRole : String) : Option PaperPosition :=
  (icPositions.filter fun p => p.legRole = legRole).argmax fun p => p.entryDate.getD Date.min

/-- `_is_auto_execute`. -/
def isAutoExecute (action : IcAction) : Bool :=
  action.metadata.autoSelected || action.rationale = "auto-execute"

/-- `closed`: the roles to close. -/
def closedRoles (v : IcVersion) (action : IcAction) : List String :=
  if isAutoExecute action then
    if action.actionType = "CLOSE_FULL" then icRoles
    else if action.actionType = "CLOSE_CALL_SPREAD" then ["short_call", "long_call_hedge"]
    else if action.actionType = "CLOSE_PUT_SPREAD" then ["short_put", "long_put_hedge"]
    else if v = .v2 ∧ action.actionType = "PROFIT_LOCK_ZONE2" then ["long_put_hedge", "long_call_hedge"]
    else action.legsToClose.map (·.legRole)
  else action.legsToClose.map (·.legRole)

/-- `ic_positions`. -/
def icPositions (ic : Condor) (positions : List PaperPosition) : List PaperPosition :=
  positions.filter fun p => p.strategyName = ic.strategyName ∧ p.netQty ≠ 0

/-- `effective_legs`. V1 takes the key of a role from the action (`key_by_role`, the last
one given), V2 from the position it picks. -/
def effectiveLegs (v : IcVersion) (ic : Condor) (positions : List PaperPosition) (action : IcAction) :
    List LegClose :=
  (closedRoles v action).map fun r =>
    match v with
    | .v1 => ⟨r, ((action.legsToClose.filter fun leg => leg.legRole = r).getLast?).bind (·.instrumentKey)⟩
    | .v2 => ⟨r, (positionForRole (icPositions ic positions) r).map (·.instrumentKey)⟩

/-- The positions that match an effective leg. -/
def matched (v : IcVersion) (ic : Condor) (positions : List PaperPosition) (action : IcAction) :
    List PaperPosition :=
  positions.filter fun p => (effectiveLegs v ic positions action).any (legCloseMatches p)

/-! ### The calls -/

/-- `_ALLOWED_ACTIONS` of V1 and `_ALLOWED_V2_ACTIONS`. -/
def allowedActions : IcVersion → List String
  | .v1 => ["CLOSE_FULL", "CLOSE_CALL_SPREAD", "CLOSE_PUT_SPREAD", "ROLL_WING"]
  | .v2 => ["CLOSE_FULL", "CLOSE_CALL_SPREAD", "CLOSE_PUT_SPREAD", "ROLL_WING", "PROFIT_LOCK_ZONE2"]

/-- The closing action types. -/
def closeActions : List String := ["CLOSE_FULL", "CLOSE_CALL_SPREAD", "CLOSE_PUT_SPREAD"]

/-- The state V2 persists after a Zone 2 lock. -/
def lockStateOf (m : IcMetadata) : ProfitLockState where
  profitLockZone := m.newProfitLockZone
  zone2LockExecuted := true
  zone3LockExecuted := false
  cumulativeLockDebitPts := m.cumulativeLockDebitPts
  activePutWidthPts := m.newPutWidthPts
  activeCallWidthPts := m.newCallWidthPts
  cycleId := m.cycleId

/-- The name a version signs its trades with. -/
def IcVersion.name : IcVersion → String
  | .v1 => "ic_nifty_v1"
  | .v2 => "ic_nifty_v2"

/-- `triggering_signal`. -/
def triggeringSignal (action : IcAction) : String := action.metadata.eventType.getD action.actionType

/-- The close of either version: `close_ic_legs` over the matched positions. -/
def closeMatched (v : IcVersion) (ic : Condor) (env : IcEnv) (positions : List PaperPosition)
    (action : IcAction) :
    IcProgram (List PaperTrade) :=
  onTrades (closeIcLegs env (matched v ic positions action) (closedRoles v action) ic.strategyName
    (v.name ++ " auto-close: " ++ triggeringSignal action))

/-- The roll of either version: `roll_ic_legs` over the matched positions. -/
def rollMatched (v : IcVersion) (ic : Condor) (env : IcEnv) (positions : List PaperPosition)
    (action : IcAction) :
    IcProgram (List PaperTrade) :=
  onTrades (rollIcLegs env (matched v ic positions action)
    (closedRoles v action) action.legsToOpen ic.strategyName
    (v.name ++ " roll: " ++ triggeringSignal action))

/-- What V1 executes of an action. -/
def executeV1 (ic : Condor) (env : IcEnv) (positions : List PaperPosition) (action : IcAction) :
    IcProgram Unit :=
  if action.actionType = "ROLL_WING" then
    if action.legsToOpen = [] ∧ isAutoExecute action = false then throw .noLegToOpen
    else if isAutoExecute action = true ∧ ic.wired = true then do
      let _ ← rollMatched .v1 ic env positions action
      pure ()
    else pure ()
  else if isAutoExecute action = true ∧ ic.wired = true then do
    let _ ← closeMatched .v1 ic env positions action
    pure ()
  else pure ()

/-- `IronCondorV1.apply_action`. -/
def applyActionV1 (ic : Condor) (env : IcEnv) (positions : List PaperPosition) (action : IcAction) :
    IcProgram (List PaperPosition) :=
  if action.actionType ∉ allowedActions .v1 then throw (.notPermitted action.actionType)
  else do
    executeV1 ic env positions action
    pure (positions.filter fun p => !(effectiveLegs .v1 ic positions action).any (legCloseMatches p))

/-- `set_profit_lock_state` after a Zone 2 roll that wrote something. -/
def persistLock (ic : Condor) (env : IcEnv) (action : IcAction) (rolled : List PaperTrade) :
    IcProgram Unit :=
  if action.actionType = "PROFIT_LOCK_ZONE2" ∧ rolled ≠ [] then
    if env.faults.setLockState then throw .database
    else updates fun S => (S.setProfitLockState ic.strategyName (lockStateOf action.metadata), ())
  else pure ()

/-- What V2 executes of an action. -/
def executeV2 (ic : Condor) (env : IcEnv) (positions : List PaperPosition) (action : IcAction) :
    IcProgram Unit :=
  if isAutoExecute action = false ∨ ic.wired = false then pure ()
  else if action.actionType ∈ closeActions then do
    let _ ← closeMatched .v2 ic env positions action
    pure ()
  else do
    let rolled ← rollMatched .v2 ic env positions action
    persistLock ic env action rolled

/-- `IronCondorV2.apply_action`. -/
def applyActionV2 (ic : Condor) (env : IcEnv) (positions : List PaperPosition) (action : IcAction) :
    IcProgram (List PaperPosition) :=
  if action.actionType ∉ allowedActions .v2 then throw (.notPermitted action.actionType)
  else do
    executeV2 ic env positions action
    pure (positions.filter fun p => !(effectiveLegs .v2 ic positions action).any (legCloseMatches p))

/-- `apply_action` of a version. -/
def applyAction : IcVersion → Condor → IcEnv → List PaperPosition → IcAction →
    IcProgram (List PaperPosition)
  | .v1 => applyActionV1
  | .v2 => applyActionV2

/-! ### What a call does to the ledger -/

theorem onTrades_ok_iff {α : Type} {x : IcExec α} {S S' : IcStore} {a : α} :
    onTrades x S = .ok a S' ↔ ∃ T', x S.trades = .ok a T' ∧ S' = { S with trades := T' } := by
  unfold onTrades
  cases x S.trades with
  | ok b T =>
    simp only [EStateM.Result.ok.injEq]
    constructor
    · rintro ⟨rfl, rfl⟩
      exact ⟨T, ⟨rfl, rfl⟩, rfl⟩
    · rintro ⟨T', ⟨rfl, rfl⟩, rfl⟩
      exact ⟨rfl, rfl⟩
  | error e T => simp

/-- A close that returns has run `close_ic_legs` on the matched positions. -/
theorem applyActionV2_close_ok {ic : Condor} {env : IcEnv} {positions out : List PaperPosition}
    {action : IcAction}
    {S S' : IcStore} (htype : action.actionType ∈ closeActions) (hauto : isAutoExecute action = true)
    (hwired : ic.wired = true) (h : applyActionV2 ic env positions action S = .ok out S') :
    ∃ ts, closeIcLegs env (matched .v2 ic positions action) (closedRoles .v2 action) ic.strategyName
      (IcVersion.v2.name ++ " auto-close: " ++ triggeringSignal action) S.trades = .ok ts S'.trades := by
  unfold applyActionV2 at h
  split at h
  · exact absurd h throw_ne_ok
  · obtain ⟨⟨⟩, S₁, hexec, h⟩ := bind_ok_iff.mp h
    obtain ⟨-, rfl⟩ := pure_ok_iff.mp h
    rw [executeV2, if_neg (by simp [hauto, hwired]), if_pos htype] at hexec
    obtain ⟨ts, S₂, hclose, hret⟩ := bind_ok_iff.mp hexec
    obtain ⟨-, rfl⟩ := pure_ok_iff.mp hret
    obtain ⟨T, hrun, rfl⟩ := onTrades_ok_iff.mp hclose
    exact ⟨ts, hrun⟩

/-- A lock state that is persisted leaves the ledger alone. -/
theorem persistLock_ok {ic : Condor} {env : IcEnv} {action : IcAction} {rolled : List PaperTrade}
    {S S' : IcStore}
    (h : persistLock ic env action rolled S = .ok () S') : S'.trades = S.trades := by
  unfold persistLock at h
  split at h
  · split at h
    · exact absurd h throw_ne_ok
    · rw [updates_ok_iff] at h
      rw [← (Prod.mk.inj h).1]
      rfl
  · rw [(pure_ok_iff.mp h).2]

/-- The rolls of a version. -/
def IsRoll (v : IcVersion) (action : IcAction) : Prop :=
  action.actionType = "ROLL_WING" ∨ (v = .v2 ∧ action.actionType = "PROFIT_LOCK_ZONE2")

/-- A roll that returns has run `roll_ic_legs` on the matched positions. -/
theorem applyAction_roll_ok {v : IcVersion} {ic : Condor} {env : IcEnv} {positions out : List PaperPosition}
    {action : IcAction} {S S' : IcStore} (htype : IsRoll v action) (hauto : isAutoExecute action = true)
    (hwired : ic.wired = true) (h : applyAction v ic env positions action S = .ok out S') :
    ∃ ts, rollIcLegs env (matched v ic positions action)
    (closedRoles v action) action.legsToOpen ic.strategyName
      (v.name ++ " roll: " ++ triggeringSignal action) S.trades = .ok ts S'.trades := by
  cases v with
  | v1 =>
    have hroll : action.actionType = "ROLL_WING" := htype.resolve_right fun h => by simp at h
    rw [applyAction, applyActionV1] at h
    split at h
    · exact absurd h throw_ne_ok
    · obtain ⟨⟨⟩, S₁, hexec, h⟩ := bind_ok_iff.mp h
      obtain ⟨-, rfl⟩ := pure_ok_iff.mp h
      rw [executeV1, if_pos hroll, if_neg (by simp [hauto]), if_pos ⟨hauto, hwired⟩] at hexec
      obtain ⟨ts, S₂, hcall, hret⟩ := bind_ok_iff.mp hexec
      obtain ⟨-, rfl⟩ := pure_ok_iff.mp hret
      obtain ⟨T, hrun, rfl⟩ := onTrades_ok_iff.mp hcall
      exact ⟨ts, hrun⟩
  | v2 =>
    have hnot : action.actionType ∉ closeActions := by
      rcases htype with hroll | ⟨-, hlock⟩
      · rw [hroll]
        decide
      · rw [hlock]
        decide
    rw [applyAction, applyActionV2] at h
    split at h
    · exact absurd h throw_ne_ok
    · obtain ⟨⟨⟩, S₁, hexec, h⟩ := bind_ok_iff.mp h
      obtain ⟨-, rfl⟩ := pure_ok_iff.mp h
      rw [executeV2, if_neg (by simp [hauto, hwired]), if_neg hnot] at hexec
      obtain ⟨ts, S₂, hcall, hlock⟩ := bind_ok_iff.mp hexec
      obtain ⟨T, hrun, rfl⟩ := onTrades_ok_iff.mp hcall
      refine ⟨ts, ?_⟩
      rw [persistLock_ok hlock]
      exact hrun

/-! ### Units closed and opened -/

/-- The unique key of the trade that closes a position. -/
def closeKeyOf (s : String) (today : Date) (p : PaperPosition) : PaperTrade.UniqueKey :=
  ⟨s, p.legRole, p.instrumentKey, today, closeAction p⟩

/-- The unique key of the trade that opens a leg. -/
def openKeyOf (s : String) (today : Date) (leg : LegSpec) (a : TradeAction) : PaperTrade.UniqueKey :=
  ⟨s, leg.legRole, leg.instrumentKey, today, a⟩

/-- The units a leg opens, with their sign. -/
def legUnits (leg : LegSpec) : TradeAction → ℤ
  | .buy => leg.quantity * lotSize
  | .sell => -(leg.quantity * lotSize)

/-- The units that closing these positions takes out of a set of legs: the net of the
positions whose closing key is free. -/
def closedUnits (s : String) (today : Date) (taken : PaperTrade.UniqueKey → Bool)
    (P : String × String → Bool)
    (ps : List PaperPosition) : ℤ :=
  ((ps.filter fun p => P p.pair && !taken (closeKeyOf s today p)).map (·.netQty)).sum

/-- The units that opening these legs brings into a set of legs: those of the legs whose
key is free and not that of an earlier one. -/
def openedUnits (s : String) (today : Date) (P : String × String → Bool) :
    (PaperTrade.UniqueKey → Bool) → List LegSpec → ℤ
  | _, [] => 0
  | taken, leg :: legs =>
    match TradeAction.ofValue leg.action with
    | none => openedUnits s today P taken legs
    | some a =>
      if taken (openKeyOf s today leg a) then openedUnits s today P taken legs
      else
        (if P (leg.legRole, leg.instrumentKey) then legUnits leg a else 0) +
          openedUnits s today P (fun k => taken k || decide (k = openKeyOf s today leg a)) legs

theorem closedUnits_congr {s : String} {today : Date} {taken taken' : PaperTrade.UniqueKey → Bool}
    {P : String × String → Bool} {ps : List PaperPosition}
    (h : ∀ p ∈ ps, taken (closeKeyOf s today p) = taken' (closeKeyOf s today p)) :
    closedUnits s today taken P ps = closedUnits s today taken' P ps := by
  unfold closedUnits
  congr 2
  exact List.filter_congr fun p hp => by rw [h p hp]

private theorem closedUnits_cons (s : String) (today : Date) (taken : PaperTrade.UniqueKey → Bool)
    (P : String × String → Bool) (p : PaperPosition) (ps : List PaperPosition) :
    closedUnits s today taken P (p :: ps) =
      (if P p.pair && !taken (closeKeyOf s today p) then p.netQty else 0) + closedUnits s today
        taken P ps := by
  unfold closedUnits
  rw [List.filter_cons]
  split <;> simp

private theorem netOf_filter_cons (s : String) (P : String × String → Bool) (t : PaperTrade)
    (ts : List PaperTrade) :
    netOf PaperTrade.signedQty ((t :: ts).filter (PaperTrades.ofLegs s P)) =
      (if PaperTrades.ofLegs s P t then t.signedQty else 0) + netOf PaperTrade.signedQty
        (ts.filter (PaperTrades.ofLegs s P)) := by
  rw [List.filter_cons]
  split <;> simp [netOf]

/-- **What a close adds**: the closing trades that are written take out the units of their
positions. -/
theorem netOf_closing {env : IcEnv} {ltpMap : Dict String ℚ} {s notes : String} (P : String × String → Bool)
    {ps : List PaperPosition} {c : List PaperTrade}
    (h : List.Forall₂ (fun p t => closeTrade env ltpMap s notes p = some t) ps c) :
    ∀ {taken : PaperTrade.UniqueKey → Bool}, (ps.map PaperPosition.pair).Nodup →
      netOf PaperTrade.signedQty ((fresh taken c).filter (PaperTrades.ofLegs s P)) =
        -closedUnits s env.today taken P ps := by
  induction h with
  | nil => exact fun _ => rfl
  | @cons p t ps c hpt _ ih =>
    intro taken hnd
    rw [List.map_cons, List.nodup_cons] at hnd
    obtain ⟨hp, hnd⟩ := hnd
    obtain ⟨hkey, hqty, -⟩ := closeTrade_spec hpt
    have hkey' : t.uniqueKey = closeKeyOf s env.today p := hkey
    obtain ⟨hname, hrole, hinst, -, -⟩ := PaperTrade.UniqueKey.mk.inj hkey
    have hlegs : PaperTrades.ofLegs s P t = P p.pair := by
      rw [PaperTrades.ofLegs, PaperTrade.legInstrument, PaperPosition.pair, hrole, hinst, hname]
      simp
    rw [fresh, closedUnits_cons, hkey']
    cases htaken : taken (closeKeyOf s env.today p) with
    | true => simp [ih hnd]
    | false =>
      -- no other position has this pair, so no other closing key is this one
      have hrest : closedUnits s env.today
        (fun k => taken k || decide (k = closeKeyOf s env.today p)) P ps =
          closedUnits s env.today taken P ps := by
        refine closedUnits_congr fun q hq => ?_
        have hne : closeKeyOf s env.today q ≠ closeKeyOf s env.today p := by
          intro heq
          obtain ⟨-, hqr, hqi, -, -⟩ := PaperTrade.UniqueKey.mk.inj heq
          exact hp (List.mem_map.mpr ⟨q, hq, Prod.ext hqr hqi⟩)
        simp [hne]
      rw [if_neg Bool.false_ne_true, netOf_filter_cons, ih hnd, hrest, hlegs, hqty]
      cases P p.pair <;> simp [add_comm]

/-- **What opening adds**: the opening trades that are written bring in the units of their
legs. -/
theorem netOf_opening {env : IcEnv} {s notes : String} (P : String × String → Bool) {legs : List LegSpec}
    {o : List PaperTrade} (h : List.Forall₂ (fun leg t => openTrade env s notes leg = some t) legs o) :
    ∀ {taken : PaperTrade.UniqueKey → Bool},
      netOf PaperTrade.signedQty ((fresh taken o).filter (PaperTrades.ofLegs s P)) =
        openedUnits s env.today P taken legs := by
  induction h with
  | nil => exact rfl
  | @cons leg t legs o hlt _ ih =>
    intro taken
    obtain ⟨a, ha, hkey, hqty, -⟩ := openTrade_spec hlt
    have hkey' : t.uniqueKey = openKeyOf s env.today leg a := hkey
    obtain ⟨hname, hrole, hinst, -, haction⟩ := PaperTrade.UniqueKey.mk.inj hkey
    have hlegs : PaperTrades.ofLegs s P t = P (leg.legRole, leg.instrumentKey) := by
      rw [PaperTrades.ofLegs, PaperTrade.legInstrument, hrole, hinst, hname]
      simp
    have hunits : t.signedQty = legUnits leg a := by
      rw [PaperTrade.signedQty, haction]
      cases a with
      | buy => exact hqty
      | sell => exact congrArg Neg.neg hqty
    rw [fresh, openedUnits, ha, hkey']
    simp only
    cases htaken : taken (openKeyOf s env.today leg a) with
    | true => simp [ih]
    | false => rw [if_neg Bool.false_ne_true, if_neg Bool.false_ne_true, netOf_filter_cons, ih,
        hlegs, hunits]

/-- A closing batch is that of its positions. -/
theorem plannedClose_eq_some {env : IcEnv} {ps : List PaperPosition} {roles : List String}
    {s notes : String}
    {c : List PaperTrade} (h : plannedClose env ps roles s notes = some c) :
    ∃ ltpMap, List.Forall₂ (fun p t => closeTrade env ltpMap s notes p = some t) (toClose ps roles) c := by
  unfold plannedClose at h
  split at h
  · exact absurd h (by simp)
  · exact ⟨_, mapM_eq_some_iff.mp h⟩

/-- The keys of the closing trades are the closing keys of the positions. -/
theorem keys_closing {env : IcEnv} {ltpMap : Dict String ℚ} {s notes : String} {ps : List PaperPosition}
    {c : List PaperTrade} (h : List.Forall₂ (fun p t => closeTrade env ltpMap s notes p = some t) ps c) :
    c.map PaperTrade.uniqueKey = ps.map (closeKeyOf s env.today) := by
  induction h with
  | nil => rfl
  | cons hpt _ ih =>
    rw [List.map_cons, List.map_cons, ih, (closeTrade_spec hpt).1]
    rfl

/-- **What a close that comes to its write changes** in a set of legs. -/
theorem legsQty_close {env : IcEnv} {ps : List PaperPosition} {roles : List String} {s notes : String}
    {T T' : PaperTrades} {ts : List PaperTrade} (P : String × String → Bool)
    (hnd : ((toClose ps roles).map PaperPosition.pair).Nodup) (hfault : env.faults.recordTrades = false)
    (hrun : closeIcLegs env ps roles s notes T = .ok ts T') :
    T'.legsQty s P = T.legsQty s P - closedUnits s env.today T.hasKey P (toClose ps roles) := by
  rcases closeIcLegs_ok hrun with ⟨hnone, rfl⟩ | ⟨c, hc, rfl⟩
  · -- nothing is planned only when there is nothing to close: the build did not raise
    have hempty : toClose ps roles = [] := by
      by_contra hne
      unfold closeIcLegs at hrun
      rw [if_neg hne] at hrun
      obtain ⟨c, _, hbuild, -⟩ := bind_ok_iff.mp hrun
      rw [plannedClose, if_neg (by simp [hne, hfault]), (fromOption_ok_iff.mp hbuild).1] at hnone
      exact absurd hnone (by simp)
    simp [hempty, closedUnits]
  · obtain ⟨ltpMap, hclose⟩ := plannedClose_eq_some hc
    rw [PaperTrades.legsQty_markAllClosed, PaperTrades.legsQty_recordTrades, netOf_closing P hclose hnd]
    ring

/-- **What a roll that comes to its write changes** in a set of legs. -/
theorem legsQty_roll {env : IcEnv} {ps : List PaperPosition} {roles : List String} {legs : List LegSpec}
    {s notes : String} {T T' : PaperTrades} {ts : List PaperTrade} (P : String × String → Bool)
    (hnd : ((toClose ps roles).map PaperPosition.pair).Nodup)
    (hplan : (plannedRoll env ps roles legs s notes).isSome = true)
    (hrun : rollIcLegs env ps roles legs s notes T = .ok ts T') :
    T'.legsQty s P = T.legsQty s P - closedUnits s env.today T.hasKey P (toClose ps roles) +
      openedUnits s env.today P
        (fun k => T.hasKey k || decide (k ∈ (toClose ps roles).map (closeKeyOf s env.today))) legs := by
  obtain ⟨⟨c, o⟩, hco⟩ := Option.isSome_iff_exists.mp hplan
  have hfinal := rollIcLegs_final env ps roles legs s notes T
  rw [hrun, hco] at hfinal
  simp only [finalState_ok] at hfinal
  obtain ⟨⟨ltpMap, hc⟩, ho⟩ := plannedRoll_eq_some hco
  have hkeys := keys_closing hc
  rw [hfinal, PaperTrades.legsQty_markAllClosed, PaperTrades.legsQty_recordTrades, fresh_append,
    List.filter_append,
    netOf_append, netOf_closing P hc hnd, netOf_opening P ho, hkeys]
  ring

/-! ### `CLOSE_FULL` -/

theorem mem_of_positionForRole {ps : List PaperPosition} {role : String} {p : PaperPosition}
    (h : positionForRole ps role = some p) : p ∈ ps ∧ p.legRole = role := by
  simpa using List.mem_filter.mp (List.argmax_mem h)

theorem positionForRole_isSome {ps : List PaperPosition} {p : PaperPosition} (hp : p ∈ ps) :
    ∃ q, positionForRole ps p.legRole = some q := by
  rw [← Option.isSome_iff_exists, ← Option.ne_none_iff_isSome]
  intro hnone
  have hmem : p ∈ ps.filter fun q => q.legRole = p.legRole := List.mem_filter.mpr ⟨hp, by simp⟩
  rw [List.argmax_eq_none.mp hnone] at hmem
  exact absurd hmem (by simp)

/-- The positions of the store are all open positions of the strategy. -/
theorem icPositions_getPositions (ic : Condor) (T : PaperTrades) (lookup : Option InstrumentLookup) :
    icPositions ic (T.getPositions lookup ic.strategyName) = T.getPositions lookup ic.strategyName :=
  List.filter_eq_self.mpr fun p hp => by
    obtain ⟨hname, hopen, -⟩ := getPositions_open hp
    simp [hname, hopen]

/-- V2 closes the positions of the closed roles that `_position_for_role` picks. -/
theorem toClose_matched_v2 (ic : Condor) (T : PaperTrades) (lookup : Option InstrumentLookup)
    (action : IcAction) :
    toClose (matched .v2 ic (T.getPositions lookup ic.strategyName) action) (closedRoles .v2 action) =
      (T.getPositions lookup ic.strategyName).filter fun p =>
        p.legRole ∈ closedRoles .v2 action ∧
          positionForRole (T.getPositions lookup ic.strategyName) p.legRole = some p := by
  unfold toClose matched
  rw [List.filter_filter]
  refine List.filter_congr fun p hp => ?_
  have hopen := (getPositions_open hp).2.1
  rw [Bool.eq_iff_iff]
  simp only [effectiveLegs, icPositions_getPositions, List.any_map, Bool.and_eq_true, decide_eq_true_eq,
    List.any_eq_true, Function.comp, legCloseMatches]
  constructor
  · rintro ⟨⟨hrole, -⟩, r, hr, rfl, hkey⟩
    refine ⟨hrole, ?_⟩
    obtain ⟨q, hq⟩ := positionForRole_isSome hp
    obtain ⟨hqm, hqr⟩ := mem_of_positionForRole hq
    rw [hq] at hkey ⊢
    simp only [Option.map_some, decide_eq_true_eq] at hkey
    rw [PaperTrades.pair_injOn hp hqm (Prod.ext hqr.symm hkey)]
  · rintro ⟨hrole, hpick⟩
    refine ⟨⟨hrole, hopen⟩, p.legRole, hrole, rfl, ?_⟩
    rw [hpick]
    simp

theorem nodup_toClose_matched (v : IcVersion) (ic : Condor) (T : PaperTrades)
    (lookup : Option InstrumentLookup)
    (action : IcAction) (roles : List String) :
    ((toClose (matched v ic (T.getPositions lookup ic.strategyName) action) roles).map
      PaperPosition.pair).Nodup :=
  (PaperTrades.nodup_pairs T lookup ic.strategyName).sublist
    ((List.filter_sublist.trans List.filter_sublist).map _)

/-- The units of one pair that are closed: its whole net if its position is among those
closed with a free key. -/
theorem closedUnits_pair {T : PaperTrades} {lookup : Option InstrumentLookup} {s : String} {today : Date}
    {taken : PaperTrade.UniqueKey → Bool} {ps : List PaperPosition} (k : String × String)
    (hps : ps.Sublist (T.getPositions lookup s)) (hfree : ∀ p ∈ ps, taken (closeKeyOf s today p) = false) :
    closedUnits s today taken (fun l => l = k) ps = if k ∈ ps.map PaperPosition.pair
      then T.netQty s k else 0 := by
  have hnd : (ps.map PaperPosition.pair).Nodup := (PaperTrades.nodup_pairs T lookup s).sublist (hps.map _)
  have hnet : ∀ p ∈ ps, p.netQty = T.netQty s p.pair := fun p hp =>
    PaperTrades.netQty_of_mem (hps.subset hp)
  clear hps
  induction ps with
  | nil => rfl
  | cons p ps ih =>
    rw [List.map_cons, List.nodup_cons] at hnd
    rw [closedUnits_cons, ih (fun q hq => hfree q (List.mem_cons_of_mem p hq)) hnd.2
      (fun q hq => hnet q (List.mem_cons_of_mem p hq)), hfree p List.mem_cons_self, List.map_cons]
    by_cases hpk : p.pair = k
    · subst hpk
      simp [hnd.1, hnet p List.mem_cons_self]
    · have hkp : k ≠ p.pair := fun h => hpk h.symm
      simp [hpk, hkp]

/-- **`CLOSE_FULL` flattens what it picks**: after an auto-executed `CLOSE_FULL` whose write
succeeds, with no close row of today, the position entered last in each role is flat and
every other pair is as it was; so the condor is flat exactly when no two open positions
share a role. -/
theorem close_full_flattens_picked {ic : Condor} {env : IcEnv} {lookup : Option InstrumentLookup}
    {action : IcAction}
    {S S' : IcStore} {out : List PaperPosition} (htype : action.actionType = "CLOSE_FULL")
    (hauto : isAutoExecute action = true) (hwired : ic.wired = true)
    (hwrite : env.faults.recordTrades = false)
    (hfree : ∀ p ∈ S.trades.getPositions lookup ic.strategyName, p.legRole ∈ icRoles →
      S.trades.hasKey (closeKeyOf ic.strategyName env.today p) = false)
    (hrun : applyActionV2 ic env (S.trades.getPositions lookup ic.strategyName) action S = .ok out S') :
    (∀ k, S'.trades.netQty ic.strategyName k =
        if ∃ role ∈ icRoles,
          (positionForRole (S.trades.getPositions lookup ic.strategyName) role).map
            PaperPosition.pair = some k
        then 0 else S.trades.netQty ic.strategyName k) ∧
      ((∀ role ∈ icRoles, ∀ i, S'.trades.netQty ic.strategyName (role, i) = 0) ↔
        ∀ p ∈ S.trades.getPositions lookup ic.strategyName,
          ∀ q ∈ S.trades.getPositions lookup ic.strategyName,
          p.legRole ∈ icRoles → p.legRole = q.legRole → p = q) := by
  have hroles : closedRoles .v2 action = icRoles := by
    rw [closedRoles, if_pos hauto, if_pos htype]
  obtain ⟨ts, hclose⟩ := applyActionV2_close_ok (by rw [htype]; decide) hauto hwired hrun
  have hpicks := toClose_matched_v2 ic S.trades lookup action
  rw [hroles] at hclose hpicks
  have hsub : (toClose (matched .v2 ic (S.trades.getPositions lookup ic.strategyName) action)
    icRoles).Sublist
      (S.trades.getPositions lookup ic.strategyName) := List.filter_sublist.trans List.filter_sublist
  have hpickFree : ∀ p ∈ toClose (matched .v2 ic
    (S.trades.getPositions lookup ic.strategyName) action) icRoles,
      S.trades.hasKey (closeKeyOf ic.strategyName env.today p) = false := fun p hp => by
    have hp' := hp
    rw [hpicks] at hp'
    exact hfree p (hsub.subset hp) (of_decide_eq_true (List.mem_filter.mp hp').2).1
  have hpair : ∀ k, k ∈ (toClose (matched .v2 ic
    (S.trades.getPositions lookup ic.strategyName) action) icRoles).map
      PaperPosition.pair ↔ ∃ role ∈ icRoles,
        (positionForRole (S.trades.getPositions lookup ic.strategyName) role).map
          PaperPosition.pair = some k := by
    intro k
    rw [hpicks, List.mem_map]
    constructor
    · rintro ⟨p, hp, rfl⟩
      obtain ⟨-, hp⟩ := List.mem_filter.mp hp
      obtain ⟨hrole, hpick⟩ : p.legRole ∈ icRoles ∧
          positionForRole (S.trades.getPositions lookup ic.strategyName) p.legRole = some p := by
            simpa using hp
      exact ⟨p.legRole, hrole, by rw [hpick]; rfl⟩
    · rintro ⟨role, hrole, hk⟩
      obtain ⟨p, hpick, rfl⟩ := Option.map_eq_some_iff.mp hk
      obtain ⟨hp, rfl⟩ := mem_of_positionForRole hpick
      exact ⟨p, List.mem_filter.mpr ⟨hp, by simpa using ⟨hrole, hpick⟩⟩, rfl⟩
  have hnet : ∀ k, S'.trades.netQty ic.strategyName k =
      if ∃ role ∈ icRoles,
        (positionForRole (S.trades.getPositions lookup ic.strategyName) role).map
          PaperPosition.pair = some k
      then 0 else S.trades.netQty ic.strategyName k := by
    intro k
    rw [PaperTrades.netQty_eq_legsQty, legsQty_close _ (nodup_toClose_matched ..) hwrite hclose,
      closedUnits_pair k hsub hpickFree, ← PaperTrades.netQty_eq_legsQty]
    simp only [hpair k]
    split <;> simp
  refine ⟨hnet, ?_, ?_⟩
  · -- each position of a role is the one picked there, since it is flat afterwards
    intro hflat p hp q hq hrole hpq
    have hpicked : ∀ r ∈ S.trades.getPositions lookup ic.strategyName, r.legRole ∈ icRoles →
        positionForRole (S.trades.getPositions lookup ic.strategyName) r.legRole = some r := by
      intro r hr hrr
      have hzero := hflat r.legRole hrr r.instrumentKey
      rw [hnet] at hzero
      split at hzero
      next hex =>
        obtain ⟨role, -, hk⟩ := hex
        obtain ⟨r', hpick, hpair'⟩ := Option.map_eq_some_iff.mp hk
        obtain ⟨hr', rfl⟩ := mem_of_positionForRole hpick
        obtain rfl := PaperTrades.pair_injOn hr' hr hpair'
        exact hpick
      next =>
        have hopen := (getPositions_open hr).2.1
        rw [PaperTrades.netQty_of_mem hr] at hopen
        exact absurd hzero hopen
    have h1 := hpicked p hp hrole
    have h2 := hpicked q hq (hpq ▸ hrole)
    rw [hpq, h2] at h1
    exact (Option.some.inj h1).symm
  · intro hone role hrole i
    rw [hnet]
    split
    next => rfl
    next hnone =>
      by_contra hopen
      obtain ⟨p, hp, hpk⟩ : ∃ p ∈ S.trades.getPositions lookup ic.strategyName, p.pair = (role, i) :=
        PaperTrades.exists_position_iff.mpr hopen
      obtain ⟨rfl, rfl⟩ := Prod.mk.inj hpk
      obtain ⟨q, hq⟩ := positionForRole_isSome hp
      obtain ⟨hqm, hqr⟩ := mem_of_positionForRole hq
      obtain rfl := hone p hp q hqm hrole hqr.symm
      exact hnone ⟨p.legRole, hrole, by rw [hq]; rfl⟩

/-- A trade of a leg of a monthly Iron Condor. -/
private def icTrade (role key : String) (a : TradeAction) (q : ℕ) (d : Date) (role_ne : role ≠ "")
    (key_ne : key ≠ "")
    (hq : 0 < q) : PaperTrade where
  strategyName := "paper_ic_nifty_v2_monthly"
  legRole := role
  instrumentKey := key
  tradeDate := d
  action := a
  quantity := q
  price := 120
  paperPrefix := hasPaperPrefix_icMonthly
  legRole_ne := role_ne
  instrumentKey_ne := key_ne
  quantity_pos := hq
  price_pos := price120_pos

/-- The monthly Iron Condor. -/
def monthlyCondor : Condor where
  strategyName := "paper_ic_nifty_v2_monthly"

/-- Both puts are quoted, a week after the second was sold. -/
def overlapEnv : IcEnv where
  getLtp _ := some ((Dict.empty.set "NSE_FO|65901" 95).set "NSE_FO|65902" 90)
  bodLookup := none
  today := 739791

/-- One short put, then a second one in the same role. -/
def overlapStore : IcStore where
  trades := (PaperTrades.empty.recordTrades
    [icTrade "short_put" "NSE_FO|65901" .sell 65 739781 shortPut_ne key65901_ne lot_pos,
      icTrade "short_put" "NSE_FO|65902" .sell 65 739784 shortPut_ne key65902_ne lot_pos]).1

/-- An auto-executed `CLOSE_FULL`. -/
def closeFull : IcAction where
  actionType := "CLOSE_FULL"
  legsToClose := []
  legsToOpen := []
  rationale := "auto-execute"

/-- The put sold first stays open. -/
theorem closeFull_leaves_overlap :
    ¬ ∀ (ic : Condor) (env : IcEnv) (lookup : Option InstrumentLookup) (action : IcAction) (S S' : IcStore)
        (out : List PaperPosition), action.actionType = "CLOSE_FULL" → isAutoExecute action = true →
          ic.wired = true →
      env.faults.recordTrades = false →
      (∀ p ∈ S.trades.getPositions lookup ic.strategyName, p.legRole ∈ icRoles →
        S.trades.hasKey (closeKeyOf ic.strategyName env.today p) = false) →
      applyActionV2 ic env (S.trades.getPositions lookup ic.strategyName) action S = .ok out S' →
      ∀ role ∈ icRoles, ∀ i, S'.trades.netQty ic.strategyName (role, i) = 0 := by
  intro h
  have hends : returnsWith
      (fun _ S' => decide (S'.trades.netQty monthlyCondor.strategyName ("short_put", "NSE_FO|65901") = -65))
      (applyActionV2 monthlyCondor overlapEnv
        (overlapStore.trades.getPositions none monthlyCondor.strategyName) closeFull
        overlapStore) = true := by
    decide +kernel
  obtain ⟨out, S', hrun, hnet⟩ := returnsWith_iff.mp hends
  have hflat := h monthlyCondor overlapEnv none closeFull overlapStore S' out rfl (by decide) rfl rfl
    (by decide +kernel) hrun "short_put" (by decide) "NSE_FO|65901"
  exact absurd ((of_decide_eq_true hnet).symm.trans hflat) (by decide)

/-- At that store the newer put is flat and the older one is as it was. -/
theorem closeFull_overlap_picked :
    ∃ out S', applyActionV2 monthlyCondor overlapEnv
        (overlapStore.trades.getPositions none monthlyCondor.strategyName) closeFull overlapStore =
          .ok out S' ∧
      S'.trades.netQty monthlyCondor.strategyName ("short_put", "NSE_FO|65902") = 0 := by
  have hends : returnsWith (fun _ _ => true) (applyActionV2 monthlyCondor overlapEnv
      (overlapStore.trades.getPositions none monthlyCondor.strategyName) closeFull overlapStore) =
        true := by
    decide +kernel
  obtain ⟨out, S', hrun, -⟩ := returnsWith_iff.mp hends
  refine ⟨out, S', hrun, ?_⟩
  rw [(@close_full_flattens_picked monthlyCondor overlapEnv none closeFull overlapStore S' out
    rfl (by decide) rfl rfl (by decide +kernel) hrun).1, if_pos]
  exact ⟨"short_put", by decide, by decide +kernel⟩

/-! ### The size of a role across a roll -/

/-- **A roll keeps the size of a role** exactly when the units it closes there are those it
opens there: the net of the positions closed, against the lots of the legs opened times
`LOT_SIZE`. -/
theorem roll_keeps_size_iff {v : IcVersion} {ic : Condor} {env : IcEnv} {lookup : Option InstrumentLookup}
    {action : IcAction} {S S' : IcStore} {out : List PaperPosition} (htype : IsRoll v action)
    (hauto : isAutoExecute action = true) (hwired : ic.wired = true)
    (hplan : (plannedRoll env (matched v ic (S.trades.getPositions lookup ic.strategyName) action)
      (closedRoles v action) action.legsToOpen ic.strategyName
      (v.name ++ " roll: " ++ triggeringSignal action)).isSome = true)
    (hrun : applyAction v ic env (S.trades.getPositions lookup ic.strategyName) action S =
      .ok out S') (role : String) :
    S'.trades.roleQty ic.strategyName role = S.trades.roleQty ic.strategyName role ↔
      closedUnits ic.strategyName env.today S.trades.hasKey (fun k => k.1 = role)
          (toClose (matched v ic (S.trades.getPositions lookup ic.strategyName) action)
            (closedRoles v action)) =
        openedUnits ic.strategyName env.today (fun k => k.1 = role)
          (fun k => S.trades.hasKey k || decide (k ∈ (toClose (matched v ic
            (S.trades.getPositions lookup ic.strategyName) action) (closedRoles v action)).map
              (closeKeyOf ic.strategyName env.today)))
          action.legsToOpen := by
  obtain ⟨ts, hroll⟩ := applyAction_roll_ok htype hauto hwired hrun
  rw [PaperTrades.roleQty, PaperTrades.roleQty, legsQty_roll _ (nodup_toClose_matched ..) hplan hroll]
  constructor
  · intro h
    linarith
  · intro h
    linarith

/-- A condor of two lots. -/
def twoLotStore : IcStore where
  trades := (PaperTrades.empty.recordTrades
    [icTrade "short_put" "NSE_FO|65901" .sell 130 739781 shortPut_ne key65901_ne (by decide),
      icTrade "short_call" "NSE_FO|65911" .sell 130 739781 shortCall_ne key65911_ne (by decide),
      icTrade "long_put_hedge" "NSE_FO|65921" .buy 130 739781 longPutHedge_ne (by decide) (by decide),
      icTrade "long_call_hedge" "NSE_FO|65931" .buy 130 739781 longCallHedge_ne (by decide) (by decide)]).1

/-- The roll of the put side: one lot of each leg, as the strategy builds it. -/
def rollPutSide : IcAction where
  actionType := "ROLL_WING"
  legsToClose := [⟨"short_put", some "NSE_FO|65901"⟩, ⟨"long_put_hedge", some "NSE_FO|65921"⟩]
  legsToOpen :=
    [{ instrumentKey := "NSE_FO|65902", action := "SELL", quantity := 1, legRole :=
      "short_put", price := some 80 },
      { instrumentKey := "NSE_FO|65922", action := "BUY", quantity := 1, legRole :=
        "long_put_hedge", price := some 30 }]
  rationale := "auto-execute"

/-- Two lots become one. -/
theorem rollPutSide_halves_two_lots :
    ¬ ∀ (v : IcVersion) (ic : Condor) (env : IcEnv) (lookup : Option InstrumentLookup) (action : IcAction)
        (S S' : IcStore) (out : List PaperPosition), IsRoll v action → isAutoExecute action = true →
          ic.wired = true →
      (plannedRoll env (matched v ic (S.trades.getPositions lookup ic.strategyName) action)
        (closedRoles v action) action.legsToOpen ic.strategyName
        (v.name ++ " roll: " ++ triggeringSignal action)).isSome = true →
      applyAction v ic env (S.trades.getPositions lookup ic.strategyName) action S = .ok out S' →
      ∀ role ∈ closedRoles v action, S'.trades.roleQty ic.strategyName role =
        S.trades.roleQty ic.strategyName role := by
  intro h
  have hends : returnsWith (fun _ S' => decide
    (S'.trades.roleQty monthlyCondor.strategyName "short_put" = -65))
      (applyAction .v2 monthlyCondor overlapEnv
        (twoLotStore.trades.getPositions none monthlyCondor.strategyName)
        rollPutSide twoLotStore) = true := by
    decide +kernel
  obtain ⟨out, S', hrun, hqty⟩ := returnsWith_iff.mp hends
  have hsame := h .v2 monthlyCondor overlapEnv none rollPutSide twoLotStore S' out (Or.inl rfl)
    (by decide) rfl
    (by decide +kernel) hrun "short_put" (by decide)
  have hbefore : twoLotStore.trades.roleQty monthlyCondor.strategyName "short_put" = -130 := by
    decide +kernel
  rw [hbefore] at hsame
  exact absurd ((of_decide_eq_true hqty).symm.trans hsame) (by decide)

/-- There 130 units are closed and 65 opened. -/
theorem rollPutSide_changes_size :
    ∃ out S', applyAction .v2 monthlyCondor overlapEnv
        (twoLotStore.trades.getPositions none monthlyCondor.strategyName) rollPutSide twoLotStore =
          .ok out S' ∧
      S'.trades.roleQty monthlyCondor.strategyName "short_put" ≠
        twoLotStore.trades.roleQty monthlyCondor.strategyName "short_put" := by
  have hends : returnsWith (fun _ _ => true) (applyAction .v2 monthlyCondor overlapEnv
      (twoLotStore.trades.getPositions none monthlyCondor.strategyName) rollPutSide twoLotStore) =
        true := by
    decide +kernel
  obtain ⟨out, S', hrun, -⟩ := returnsWith_iff.mp hends
  refine ⟨out, S', hrun, ?_⟩
  rw [Ne, @roll_keeps_size_iff .v2 monthlyCondor overlapEnv none rollPutSide twoLotStore S' out (Or.inl rfl)
    (by decide) rfl (by decide +kernel) hrun "short_put"]
  decide +kernel

end NiftyShield.Strategy.IronCondor
