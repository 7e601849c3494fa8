import NiftyShield.Paper.Closing
import NiftyShield.Strategy.ExitEvents
import NiftyShield.Strategy.OverlayCloser

/-!
# Closing what fired

`auto_close_overlay` (`src/strategy/auto_close.py`) closes the overlay position whose exit event
it is given, through `OverlayCloser.close_single_leg` and `close_collar_all`
(`src/strategy/overlay_closer.py`). The closer looks the position up again, by its role, and
takes the one entered last; the closing trade is dropped if its unique key is taken; the event
is resolved in any case.

## What is proved

* `closeSingleLeg_cases`: how a close ends;
* `addsOnly_autoCloseOverlay`: a close adds no trade but those it builds;
* `closes_what_fired_iff`: it closes the position that fired, and reports so, exactly when that
  is the one that is looked up and the key of its closing trade is free, unless it fails.

## Honest scope

The fill simulator is `PaperFillSimulator`. The BOD file that the closer loads by itself is the
store's. The message sent after a close cannot fail and is left out.
-/

namespace NiftyShield.Strategy.AutoClose

open NiftyShield.Instruments NiftyShield.Lib NiftyShield.Lib.Raising NiftyShield.Paper OverlayCloser

/-! ### The code -/

/-- `AUTO_CLOSE_SIGNALS`. -/
def autoCloseSignals : List (String × String) :=
  [("overlay_cc", "PROFIT_TARGET"), ("overlay_cc", "TIME_STOP"), ("overlay_cc", "LOSS_STOP"),
    ("overlay_cc", "DELTA_STOP"), ("overlay_collar_call", "PROFIT_TARGET"), ("overlay_collar_call", "TIME_STOP"),
    ("overlay_collar_call", "LOSS_STOP"), ("overlay_collar_call", "DELTA_STOP"), ("overlay_pp", "PROFIT_TARGET"),
    ("overlay_pp", "CRASH_MONETIZE"), ("overlay_pp", "ROLL_ELIGIBLE")]

/-- `OVERLAY_ROLES`. -/
def overlayRoles : List String := ["overlay_cc", "overlay_collar_call", "overlay_collar_put", "overlay_pp"]

/-- The paper ledger and the exit events. -/
structure Desk where
  /-- `paper_trades`. -/
  trades : PaperTrades
  /-- `paper_exit_events`. -/
  events : ExitEvents

/-- What a close can raise. -/
inductive CloseError where
  /-- An exception of the closer. -/
  | closer (e : OverlayError)
  /-- `close_collar_all reported failure — position still open`. -/
  | reportedFailure
  /-- `No open or acknowledged paper_exit_events row`. -/
  | noOpenEvent
  deriving DecidableEq

/-- A program over the ledger and the events. -/
abbrev CloseExec := EStateM CloseError Desk

/-- The trade of `close_single_leg`: a loss stop is filled at one and a half times the
slippage. -/
def closingTrade (env : OverlayEnv) (role : String) (isLossStop : Bool) (pos : PaperPosition) : Option PaperTrade := do
  let action : TradeAction := if 0 < pos.netQty then .sell else .buy
  let leg ← findOptionLeg pos.instrumentKey env.market env.lookup
  let mid ← resolvePrice leg
  let fill ← env.simulateFill pos.instrumentKey action.value |pos.netQty| mid env.vix
  let fillPrice :=
    if isLossStop then
      max (if action = .buy then mid + 3 / 2 * fill.slippage else mid - 3 / 2 * fill.slippage) (1 / 100)
    else fill.fillPrice
  PaperTrade.validate env.strategyName role pos.instrumentKey env.today action fill.quantity fillPrice
    ("overlay_close event_id=" ++ eventText env.eventId) none .open

/-- `record_trade`: whether the trade was inserted. -/
def recordTrade (env : OverlayEnv) (t : PaperTrade) : CloseExec Bool :=
  if env.faults.recordTrades then throw (.closer .database)
  else updates fun s => ({ s with trades := (s.trades.recordTrade t).1 }, (s.trades.recordTrade t).2)

/-- `mark_trade_closed`. -/
def markTradeClosed (env : OverlayEnv) (t : PaperTrade) : CloseExec Unit :=
  if env.faults.markClosed = some 0 then throw (.closer .database)
  else updates fun s =>
    ({ s with trades := s.trades.markTradeClosed t.strategyName t.legRole t.instrumentKey }, ())

/-- `resolve_exit_event_with_audit`. -/
def resolveEvent (env : OverlayEnv) (eventId : ℕ) (status : ReEntry.EventStatus) : CloseExec Unit := fun s =>
  if env.faults.exitEvent then .error (.closer .database) s
  else
    match s.events.resolveExitEvent eventId status with
    | some events => .ok () { s with events }
    | none => .error .noOpenEvent s

/-- The position that the closer looks up. -/
def picked (env : OverlayEnv) (T : PaperTrades) (role : String) : PaperPosition :=
  T.getPosition env.lookup env.strategyName role none

/-- `close_single_leg`. -/
def closeSingleLeg (env : OverlayEnv) (role : String) (eventId : ℕ) (isLossStop : Bool) : CloseExec Unit := do
  let position ← reads fun s => picked env s.trades role
  if position.netQty = 0 then pure ()
  else
    let trade ← fromOption (.closer .notBuilt) (closingTrade env role isLossStop position)
    let inserted ← recordTrade env trade
    if inserted then markTradeClosed env trade
    resolveEvent env eventId .acted

/-- The collar branch: `close_collar_all`, which dismisses the event of a flat collar. -/
def closeCollar (env : OverlayEnv) (eventId : ℕ) : CloseExec Unit := fun s =>
  let flat := (callPos env s.trades).netQty = 0 ∧ (putPos env s.trades).netQty = 0
  match closeCollarAll env s.trades with
  | .ok true trades => resolveEvent env eventId (if flat then .dismissed else .acted) { s with trades }
  | .ok false trades => .error .reportedFailure { s with trades }
  | .error e trades => .error (.closer e) { s with trades }

/-- `_is_loss_stop_signal`. -/
def isLossStopSignal (E : ExitEvents) (eventId : ℕ) : Bool :=
  (E.getExitEvent eventId).any fun ev => ev.exitSignal = "LOSS_STOP" || ev.exitSignal = "DELTA_STOP"

/-- What a call works with, apart from the position, the event and the tables. -/
structure CloseEnv where
  /-- `chain`. -/
  chain : OptionChain
  /-- The BOD file. -/
  lookup : Option InstrumentLookup := none
  /-- `vix`. -/
  vix : Option ℚ := none
  /-- `market_today()`. -/
  today : Date
  /-- Failing store operations. -/
  faults : OverlayFaults := {}

/-- The closer's part of it. -/
def CloseEnv.overlay (env : CloseEnv) (pos : PaperPosition) (eventId : ℕ) : OverlayEnv where
  strategyName := pos.strategyName
  market := env.chain
  lookup := env.lookup
  vix := env.vix
  eventId := some eventId
  today := env.today
  faults := env.faults

/-- The close of a role; `none` for `auto_close.unknown_role`. -/
def closeOf (env : CloseEnv) (pos : PaperPosition) (eventId : ℕ) (E : ExitEvents) : Option (CloseExec Unit) :=
  let overlay := env.overlay pos eventId
  if pos.legRole = "overlay_cc" then some (closeSingleLeg overlay pos.legRole eventId (isLossStopSignal E eventId))
  else if pos.legRole = "overlay_collar_call" then some (closeCollar overlay eventId)
  else if pos.legRole = "overlay_pp" then some (closeSingleLeg overlay pos.legRole eventId false)
  else none

/-- `auto_close_overlay`: whether it closed, an exception being reported and caught. -/
def autoCloseOverlay (env : CloseEnv) (pos : PaperPosition) (eventId : ℕ) (s : Desk) : Bool × Desk :=
  match closeOf env pos eventId s.events with
  | none => (false, s)
  | some close =>
    match close s with
    | .ok _ s' => (true, s')
    | .error _ s' => (false, s')

/-! ### What a close trades -/

/-- The closing trade of a single leg. -/
def tradeOf (env : CloseEnv) (P : PaperPosition) (eventId : ℕ) (s : Desk) : Option PaperTrade :=
  closingTrade (env.overlay P eventId) P.legRole (P.legRole = "overlay_cc" && isLossStopSignal s.events eventId)
    (picked (env.overlay P eventId) s.trades P.legRole)

/-- The positions that a close looks up, by their roles. -/
def pickedLegs (env : CloseEnv) (P : PaperPosition) (eventId : ℕ) (s : Desk) : List PaperPosition :=
  let overlay := env.overlay P eventId
  if P.legRole = "overlay_cc" ∨ P.legRole = "overlay_pp" then
    [picked overlay s.trades P.legRole].filter fun pos => pos.netQty ≠ 0
  else if P.legRole = "overlay_collar_call" then
    ([callPos overlay s.trades].filter fun pos => pos.netQty < 0) ++
      [putPos overlay s.trades].filter fun pos => 0 < pos.netQty
  else []

/-- The closing trades that it builds of them, all or none. -/
def builtTrades (env : CloseEnv) (P : PaperPosition) (eventId : ℕ) (s : Desk) : List PaperTrade :=
  let overlay := env.overlay P eventId
  if P.legRole = "overlay_cc" ∨ P.legRole = "overlay_pp" then
    if (picked overlay s.trades P.legRole).netQty = 0 then [] else (tradeOf env P eventId s).toList
  else if P.legRole = "overlay_collar_call" then
    (closeAllTrades overlay (callPos overlay s.trades) (putPos overlay s.trades)).getD []
  else []

/-! ### How a close ends -/

theorem recordTrade_fails {env : OverlayEnv} (h : env.faults.recordTrades = true) (t : PaperTrade) (s : Desk) :
    recordTrade env t s = .error (.closer .database) s := by
  rw [recordTrade, if_pos h]
  rfl

theorem recordTrade_run {env : OverlayEnv} (h : env.faults.recordTrades = false) (t : PaperTrade) (s : Desk) :
    recordTrade env t s =
      .ok (!s.trades.hasKey t.uniqueKey) { s with trades := (s.trades.recordTrade t).1 } := by
  rw [recordTrade, if_neg (by simp [h]), updates_run]
  cases hkey : s.trades.hasKey t.uniqueKey with
  | true => rw [PaperTrades.recordTrade_duplicate hkey]; rfl
  | false => rw [(PaperTrades.recordTrade_fresh hkey).1]; rfl

/-- **How a close of a position ends**: before any write, with a duplicate, after the trade
alone, or with the trade recorded and the rows of the leg closed. -/
theorem closeSingleLeg_cases (env : OverlayEnv) (role : String) (eventId : ℕ) (isLossStop : Bool) (s : Desk)
    (hpick : (picked env s.trades role).netQty ≠ 0) :
    (closingTrade env role isLossStop (picked env s.trades role) = none ∧
        ∃ e, closeSingleLeg env role eventId isLossStop s = .error e s) ∨
      ∃ t, closingTrade env role isLossStop (picked env s.trades role) = some t ∧
        ((env.faults.recordTrades = true ∧ ∃ e, closeSingleLeg env role eventId isLossStop s = .error e s) ∨
          (env.faults.recordTrades = false ∧
            ((s.trades.hasKey t.uniqueKey = true ∧
                closeSingleLeg env role eventId isLossStop s = resolveEvent env eventId .acted s) ∨
              (s.trades.hasKey t.uniqueKey = false ∧ env.faults.markClosed = some 0 ∧ ∃ e,
                closeSingleLeg env role eventId isLossStop s =
                  .error e { s with trades := (s.trades.recordTrade t).1 }) ∨
              (s.trades.hasKey t.uniqueKey = false ∧ env.faults.markClosed ≠ some 0 ∧
                closeSingleLeg env role eventId isLossStop s =
                  resolveEvent env eventId .acted { s with trades := s.trades.recordClose t })))) := by
  rw [closeSingleLeg, bind_run, reads_run]
  simp only [if_neg hpick]
  cases htrade : closingTrade env role isLossStop (picked env s.trades role) with
  | none => exact Or.inl ⟨rfl, _, rfl⟩
  | some t =>
    refine Or.inr ⟨t, rfl, ?_⟩
    rw [fromOption, bind_run, pure_run]
    simp only
    cases hfault : env.faults.recordTrades with
    | true =>
      refine Or.inl ⟨rfl, .closer .database, ?_⟩
      rw [bind_run, recordTrade_fails hfault]
    | false =>
      refine Or.inr ⟨rfl, ?_⟩
      rw [bind_run, recordTrade_run hfault]
      cases hkey : s.trades.hasKey t.uniqueKey with
      | true =>
        refine Or.inl ⟨rfl, ?_⟩
        rw [PaperTrades.recordTrade_duplicate hkey]
        rfl
      | false =>
        refine Or.inr ?_
        simp only [Bool.not_false, if_true, bind_run, markTradeClosed]
        by_cases hmark : env.faults.markClosed = some 0
        · exact Or.inl ⟨trivial, hmark, _, by rw [if_pos hmark]; rfl⟩
        · refine Or.inr ⟨trivial, hmark, ?_⟩
          rw [if_neg hmark, updates_run, PaperTrades.recordClose,
            (PaperTrades.recordTrade_fresh hkey).1, if_pos rfl]

theorem resolveEvent_cases (env : OverlayEnv) {eventId : ℕ} {s : Desk} (hopen : s.events.IsOpen eventId) :
    (env.faults.exitEvent = true ∧ ∃ e, resolveEvent env eventId .acted s = .error e s) ∨
      (env.faults.exitEvent = false ∧ ∃ events, resolveEvent env eventId .acted s = .ok () { s with events } ∧
        events.statusOf eventId = some .acted) := by
  unfold resolveEvent
  cases env.faults.exitEvent with
  | true => exact Or.inl ⟨rfl, _, rfl⟩
  | false =>
    obtain ⟨events, hresolve, hstatus⟩ := ExitEvents.resolveExitEvent_of_isOpen hopen .acted
    exact Or.inr ⟨rfl, events, by simp [hresolve], hstatus⟩

/-- The closing trade is of the position's instrument. -/
theorem instrumentKey_closingTrade {env : OverlayEnv} {role : String} {isLossStop : Bool} {pos : PaperPosition}
    {t : PaperTrade} (ht : closingTrade env role isLossStop pos = some t) :
      t.instrumentKey = pos.instrumentKey := by
  unfold closingTrade at ht
  simp only [Option.bind_eq_bind, Option.bind_eq_some_iff] at ht
  obtain ⟨_, _, _, _, _, _, hvalid⟩ := ht
  obtain ⟨-, -, hinst, -, -⟩ := PaperTrade.UniqueKey.mk.inj (validate_eq_some hvalid).1
  exact hinst

/-- The closing trade takes the position that was looked up to zero. -/
theorem closingTrade_closes {env : OverlayEnv} {T : PaperTrades} {role : String} {isLossStop : Bool}
    {t : PaperTrade}
    (hsim : env.simulateFill = fun key action quantity mid vix =>
      some (simulateFill key action quantity mid vix))
    (hpick : (picked env T role).netQty ≠ 0)
    (ht : closingTrade env role isLossStop (picked env T role) = some t) :
    picked env T role ∈ T.getPositions env.lookup env.strategyName ∧
      PaperTrades.Closes env.strategyName t (picked env T role) := by
  obtain ⟨hmem, hrole⟩ := getPosition_mem hpick
  refine ⟨hmem, ?_⟩
  unfold closingTrade at ht
  simp only [hsim, Option.bind_eq_bind, Option.bind_eq_some_iff, Option.some.injEq] at ht
  obtain ⟨leg, -, mid, -, fill, rfl, hvalid⟩ := ht
  obtain ⟨hkey, hqty⟩ := validate_eq_some hvalid
  obtain ⟨hname, hlegRole, hinst, -, haction⟩ := PaperTrade.UniqueKey.mk.inj hkey
  refine ⟨hname, Prod.ext (hlegRole.trans hrole.symm) hinst, ?_⟩
  have habs : (t.quantity : ℤ) = |(picked env T role).netQty| := hqty
  rw [PaperTrade.signedQty, haction]
  by_cases hlong : 0 < (picked env T role).netQty
  · rw [if_pos hlong]
    simp only [habs, abs_of_pos hlong]
  · rw [if_neg hlong]
    simp only [habs, abs_of_nonpos (not_lt.mp hlong)]

/-- The close of a single leg. -/
theorem closeOf_single {env : CloseEnv} {P : PaperPosition} {eventId : ℕ} {E : ExitEvents}
    (hrole : P.legRole = "overlay_cc" ∨ P.legRole = "overlay_pp") :
    closeOf env P eventId E = some (closeSingleLeg (env.overlay P eventId) P.legRole eventId
      (P.legRole = "overlay_cc" && isLossStopSignal E eventId)) := by
  rcases hrole with h | h <;> simp [closeOf, h]

/-! ### What a close writes -/

private theorem keys_singleton {Q : PaperPosition} {q : PaperPosition → Prop} [DecidablePred q]
    {leg : Option PaperTrade} {ts : List PaperTrade}
    (hleg : ∀ t, leg = some t → t.instrumentKey = Q.instrumentKey)
    (h : (if q Q then leg.map fun t => [t] else some []) = some ts) :
    ts.map (·.instrumentKey) = ([Q].filter fun pos => q pos).map (·.instrumentKey) := by
  by_cases hq : q Q
  · rw [if_pos hq] at h
    obtain ⟨t, ht, rfl⟩ := Option.map_eq_some_iff.mp h
    simp [hq, hleg t ht]
  · rw [if_neg hq] at h
    obtain rfl := Option.some.inj h
    simp [hq]

private theorem instrumentKey_legTrade {env : OverlayEnv} {role notes : String} {action : TradeAction}
    {pos : PaperPosition} (t : PaperTrade) (h : legTrade env role notes action pos = some t) :
    t.instrumentKey = pos.instrumentKey :=
  congrArg Prod.snd (legTrade_spec h).2

/-- The closing trades, if they can be built, are of the positions that are looked up. -/
theorem keys_builtTrades {env : CloseEnv} {P : PaperPosition} {eventId : ℕ} {s : Desk}
    (h : builtTrades env P eventId s ≠ []) :
    (builtTrades env P eventId s).map (·.instrumentKey) = (pickedLegs env P eventId s).map
      (·.instrumentKey) := by
  unfold builtTrades pickedLegs at *
  by_cases hsingle : P.legRole = "overlay_cc" ∨ P.legRole = "overlay_pp"
  · simp only [if_pos hsingle] at *
    by_cases hflat : (picked (env.overlay P eventId) s.trades P.legRole).netQty = 0
    · exact absurd (if_pos hflat) h
    · rw [if_neg hflat] at *
      cases htrade : tradeOf env P eventId s with
      | none =>
        rw [htrade] at h
        exact absurd rfl h
      | some t => simp [hflat, instrumentKey_closingTrade htrade]
  · simp only [if_neg hsingle] at *
    by_cases hcollar : P.legRole = "overlay_collar_call"
    · simp only [if_pos hcollar] at *
      cases htrades : closeAllTrades (env.overlay P eventId) (callPos (env.overlay P eventId) s.trades)
          (putPos (env.overlay P eventId) s.trades) with
      | none =>
        rw [htrades] at h
        exact absurd rfl h
      | some ts =>
        simp only [closeAllTrades, Option.bind_eq_bind, Option.bind_eq_some_iff, Option.some.injEq] at htrades
        obtain ⟨calls, hcalls, puts, hputs, rfl⟩ := htrades
        rw [Option.getD_some, List.map_append, List.map_append]
        congr 1
        · exact keys_singleton (q := fun pos => pos.netQty < 0) instrumentKey_legTrade hcalls
        · exact keys_singleton (q := fun pos => 0 < pos.netQty) instrumentKey_legTrade hputs
    · exact absurd (if_neg hcollar) h

/-- Of trades, only these are added. -/
def AddsOnly (ts : List PaperTrade) (T T' : PaperTrades) : Prop :=
  ∀ k, T'.hasKey k = true → T.hasKey k = true ∨ k ∈ ts.map PaperTrade.uniqueKey

private theorem AddsOnly.refl (ts : List PaperTrade) (T : PaperTrades) : AddsOnly ts T T := fun _ => Or.inl

private theorem addsOnly_of_hasKey {ts : List PaperTrade} {T T' : PaperTrades}
    (h : ∀ k, T'.hasKey k = (T.hasKey k || decide (k ∈ ts.map PaperTrade.uniqueKey))) : AddsOnly ts T T' := by
  intro k hk
  rw [h] at hk
  simpa using hk

private theorem trades_resolveEvent (env : OverlayEnv) (eventId : ℕ) (status : ReEntry.EventStatus) (s : Desk) :
    (finalState (resolveEvent env eventId status s)).trades = s.trades := by
  unfold resolveEvent
  split
  · rfl
  · split <;> rfl

private theorem addsOnly_writeAll (env : OverlayEnv) (ts : List PaperTrade) (T : PaperTrades) :
    AddsOnly ts T (finalState (writeAll env ts T)) := by
  unfold writeAll
  split
  · exact AddsOnly.refl ts T
  · split
    · exact AddsOnly.refl ts T
    · rw [bind_run, updates_run]
      dsimp only
      split
      · exact addsOnly_of_hasKey fun k => PaperTrades.hasKey_recordTrades ts T k
      · refine addsOnly_of_hasKey fun k => ?_
        have hfinal := finalState_markClosedEach OverlayError.database ts env.faults.markClosed
          (T.recordTrades ts).1
        rw [bind_run]
        cases hmark : markClosedEach OverlayError.database env.faults.markClosed ts (T.recordTrades ts).1 with
        | ok _ T' | error _ T' =>
          rw [hmark] at hfinal
          simp only [pure_run, finalState_ok, finalState_error] at hfinal ⊢
          rw [hfinal, PaperTrades.hasKey_markAllClosed, PaperTrades.hasKey_recordTrades]

private theorem addsOnly_closeCollarAll (env : OverlayEnv) (T : PaperTrades) :
    AddsOnly ((closeAllTrades env (callPos env T) (putPos env T)).getD []) T
      (finalState (closeCollarAll env T)) := by
  have hevent : ∀ (b : Bool) (T' : PaperTrades), finalState (writeEvent env b T') = T' := by
    intro b T'
    unfold writeEvent
    split <;> rfl
  rw [closeCollarAll_run]
  split
  · unfold dismissEvent
    split
    · rw [hevent]
      exact AddsOnly.refl _ T
    · exact AddsOnly.refl _ T
  · cases closeAllTrades env (callPos env T) (putPos env T) with
    | none => exact AddsOnly.refl _ T
    | some ts =>
      have hadds := addsOnly_writeAll env ts T
      simp only [Option.getD_some]
      cases hwrite : writeAll env ts T with
      | error e T' =>
        rw [hwrite] at hadds
        exact hadds
      | ok b T' =>
        rw [hwrite] at hadds
        cases b with
        | true =>
          simp only [hevent]
          exact hadds
        | false => exact hadds

private theorem addsOnly_closeSingleLeg (env : OverlayEnv) (role : String) (eventId : ℕ)
    (isLossStop : Bool) (s : Desk)
    (hpick : (picked env s.trades role).netQty ≠ 0) :
    AddsOnly (closingTrade env role isLossStop (picked env s.trades role)).toList s.trades
      (finalState (closeSingleLeg env role eventId isLossStop s)).trades := by
  rcases closeSingleLeg_cases env role eventId isLossStop s hpick with
    ⟨-, e, hrun⟩ | ⟨t, ht, ⟨-, e, hrun⟩ | ⟨-, ⟨-, hrun⟩ | ⟨-, -, e, hrun⟩ | ⟨-, -, hrun⟩⟩⟩
  · rw [hrun]
    exact AddsOnly.refl _ _
  · rw [hrun]
    exact AddsOnly.refl _ _
  · rw [hrun, trades_resolveEvent]
    exact AddsOnly.refl _ _
  · rw [hrun, ht]
    exact addsOnly_of_hasKey fun k => by simp [PaperTrades.hasKey_recordTrade]
  · rw [hrun, trades_resolveEvent, ht]
    exact addsOnly_of_hasKey fun k => by simp [PaperTrades.hasKey_recordClose]

/-- A close adds no trade but those it builds. -/
theorem addsOnly_autoCloseOverlay (env : CloseEnv) (P : PaperPosition) (eventId : ℕ) (s : Desk) :
    AddsOnly (builtTrades env P eventId s) s.trades (autoCloseOverlay env P eventId s).2.trades := by
  have hfinal : ∀ close, closeOf env P eventId s.events = some close →
      (autoCloseOverlay env P eventId s).2 = finalState (close s) := by
    intro close hclose
    rw [autoCloseOverlay, hclose]
    cases hrun : close s <;> simp [hrun]
  by_cases hsingle : P.legRole = "overlay_cc" ∨ P.legRole = "overlay_pp"
  · rw [hfinal _ (closeOf_single hsingle), builtTrades]
    simp only [if_pos hsingle]
    by_cases hflat : (picked (env.overlay P eventId) s.trades P.legRole).netQty = 0
    · rw [if_pos hflat, closeSingleLeg, bind_run, reads_run]
      simp only [if_pos hflat]
      exact AddsOnly.refl _ _
    · rw [if_neg hflat]
      exact addsOnly_closeSingleLeg _ _ _ _ _ hflat
  · obtain ⟨hcc, hpp⟩ := not_or.mp hsingle
    by_cases hcollar : P.legRole = "overlay_collar_call"
    · rw [hfinal (closeCollar (env.overlay P eventId) eventId) (by simp [closeOf, hcollar]), builtTrades]
      simp only [if_neg hsingle, if_pos hcollar]
      have hadds := addsOnly_closeCollarAll (env.overlay P eventId) s.trades
      unfold closeCollar
      cases hrun : closeCollarAll (env.overlay P eventId) s.trades with
      | error e T' =>
        rw [hrun] at hadds
        exact hadds
      | ok b T' =>
        rw [hrun] at hadds
        cases b with
        | true =>
          simp only [trades_resolveEvent]
          exact hadds
        | false => exact hadds
    · have hnone : closeOf env P eventId s.events = none := by simp [closeOf, hcc, hpp, hcollar]
      rw [autoCloseOverlay, hnone]
      exact AddsOnly.refl _ _

/-! ### What fired -/

/-- The position is gone from the ledger, and nothing else is. -/
structure ClosedOnly (T T' : PaperTrades) (P : PaperPosition) : Prop where
  /-- Its pair is flat. -/
  flat : T'.netQty P.strategyName P.pair = 0
  /-- The others are what they were. -/
  others : ∀ s k, (s, k) ≠ (P.strategyName, P.pair) → T'.netQty s k = T.netQty s k

/-- `True`, or an acted event, means that the position that fired was closed, it alone, and
that the event says so. -/
def ClosesWhatFired (env : CloseEnv) (P : PaperPosition) (eventId : ℕ) (s : Desk) : Prop :=
  ((autoCloseOverlay env P eventId s).1 = true ∨
      (autoCloseOverlay env P eventId s).2.events.statusOf eventId = some .acted) →
    (autoCloseOverlay env P eventId s).1 = true ∧ ClosedOnly s.trades (autoCloseOverlay env P eventId s).2.trades P ∧
      (autoCloseOverlay env P eventId s).2.events.statusOf eventId = some .acted

/-- Unless the call fails, the position of the role entered last is the one that fired, and the
key of its closing trade is free. -/
def FindsItFree (env : CloseEnv) (P : PaperPosition) (eventId : ℕ) (s : Desk) : Prop :=
  ∀ t, tradeOf env P eventId s = some t → env.faults.recordTrades = false → env.faults.exitEvent = false →
    s.trades.hasKey t.uniqueKey = false ∧
      (env.faults.markClosed = some 0 ∨
        (picked (env.overlay P eventId) s.trades P.legRole).instrumentKey = P.instrumentKey)

/-- A close of the position that was looked up closes the one that fired, and it alone, exactly
when the two are of one instrument. -/
theorem closedOnly_iff {T : PaperTrades} {lookup : Option InstrumentLookup} {P Q : PaperPosition}
    {t : PaperTrade}
    (hP : P ∈ T.getPositions lookup P.strategyName) (hQ : Q ∈ T.getPositions lookup P.strategyName)
    (hrole : Q.legRole = P.legRole) (hcloses : PaperTrades.Closes P.strategyName t Q)
    (hkey : T.hasKey t.uniqueKey = false) :
    ClosedOnly T (T.recordClose t) P ↔ Q.instrumentKey = P.instrumentKey := by
  have hin : ∀ s k, PaperTrades.inPair s k t = true ↔ (s, k) = (P.strategyName, Q.pair) := by
    intro s k
    simp only [PaperTrades.inPair, hcloses.strategy, hcloses.pair, Bool.and_eq_true,
      decide_eq_true_eq, Prod.mk.injEq]
    exact and_congr eq_comm eq_comm
  constructor
  · intro h
    by_contra hne
    have hno : ¬PaperTrades.inPair P.strategyName P.pair t = true := fun hpair =>
      hne (congrArg Prod.snd (Prod.mk.inj ((hin _ _).mp hpair)).2).symm
    have hflat := h.flat
    rw [PaperTrades.netQty_recordClose hkey, if_neg hno, add_zero, ← PaperTrades.netQty_of_mem hP] at hflat
    exact (getPositions_open hP).2.1 hflat
  · intro hsame
    have hpair : Q.pair = P.pair := Prod.ext hrole hsame
    refine ⟨?_, fun s k hne => ?_⟩
    · rw [PaperTrades.netQty_recordClose hkey, if_pos ((hin _ _).mpr (by rw [hpair])), ← hpair,
        ← PaperTrades.netQty_of_mem hQ, hcloses.quantity, add_neg_cancel]
    · rw [PaperTrades.netQty_recordClose hkey, if_neg fun h => hne (hpair ▸ (hin s k).mp h), add_zero]

/-- **Closing what fired**: `auto_close_overlay` closes the position that fired exactly when the
closer looks up that one and the key of the closing trade is free. -/
theorem closes_what_fired_iff {env : CloseEnv} {P : PaperPosition} {eventId : ℕ} {s : Desk}
    (hrole : P.legRole = "overlay_cc" ∨ P.legRole = "overlay_pp")
    (hP : P ∈ s.trades.getPositions env.lookup P.strategyName) (hopen : s.events.IsOpen eventId) :
    ClosesWhatFired env P eventId s ↔ FindsItFree env P eventId s := by
  have hnet := PaperTrades.netQty_of_mem hP
  have hheld : s.trades.netQty P.strategyName P.pair ≠ 0 := hnet ▸ (getPositions_open hP).2.1
  have hpick : (picked (env.overlay P eventId) s.trades P.legRole).netQty ≠ 0 := fun hflat =>
    getPosition_flat_iff.mp hflat P hP rfl
  have hnotActed := ExitEvents.statusOf_ne_acted hopen
  -- a call that fails has not resolved the event
  have hfails : ∀ {e : CloseError} {T : PaperTrades}, closeSingleLeg (env.overlay P eventId) P.legRole eventId
      (P.legRole = "overlay_cc" && isLossStopSignal s.events eventId) s = .error e { s with trades := T } →
      ClosesWhatFired env P eventId s := by
    intro e T hrun
    rw [ClosesWhatFired, autoCloseOverlay, closeOf_single hrole]
    simp only [hrun]
    rintro (h | h)
    · exact absurd h (by decide)
    · exact absurd h hnotActed
  have hreturns : ∀ {T : PaperTrades} {events : ExitEvents},
    closeSingleLeg (env.overlay P eventId) P.legRole eventId
      (P.legRole = "overlay_cc" && isLossStopSignal s.events eventId) s = .ok () { trades := T, events } →
      events.statusOf eventId = some .acted → (ClosesWhatFired env P eventId s ↔ ClosedOnly s.trades T P) := by
    intro T events hrun hacted
    rw [ClosesWhatFired, autoCloseOverlay, closeOf_single hrole]
    simp only [hrun, hacted]
    simp
  unfold FindsItFree tradeOf
  rcases closeSingleLeg_cases (env.overlay P eventId) P.legRole eventId
    (P.legRole = "overlay_cc" && isLossStopSignal s.events eventId) s hpick with
    ⟨hnone, e, hrun⟩ | ⟨t, ht, ⟨hfault, e, hrun⟩ |
      ⟨hfault, ⟨hkey, hrun⟩ | ⟨hkey, hmark, e, hrun⟩ | ⟨hkey, hmark, hrun⟩⟩⟩
  · refine iff_of_true (hfails hrun) fun t ht => ?_
    rw [hnone] at ht
    exact absurd ht (by simp)
  · refine iff_of_true (hfails hrun) fun _ _ hno => ?_
    exact absurd (hfault.symm.trans hno) (by decide)
  · rcases resolveEvent_cases (env.overlay P eventId) hopen with ⟨hevent, e, hres⟩ |
      ⟨hevent, events, hres, hacted⟩
    · refine iff_of_true (hfails (hrun.trans hres)) fun _ _ _ hno => ?_
      exact absurd (hevent.symm.trans hno) (by decide)
    · -- a duplicate: the event is resolved, the position still there
      rw [hreturns (hrun.trans hres) hacted]
      refine iff_of_false (fun h => hheld h.flat) fun h => ?_
      exact absurd (hkey.symm.trans (h t ht hfault hevent).1) (by decide)
  · refine iff_of_true (hfails hrun) fun t' ht' _ _ => ?_
    obtain rfl := Option.some.inj (ht.symm.trans ht')
    exact ⟨hkey, Or.inl hmark⟩
  · have hopen' : ({ s with trades := s.trades.recordClose t } : Desk).events.IsOpen eventId := hopen
    rcases resolveEvent_cases (env.overlay P eventId) hopen' with ⟨hevent, e, hres⟩ |
      ⟨hevent, events, hres, hacted⟩
    · refine iff_of_true (hfails (hrun.trans hres)) fun _ _ _ hno => ?_
      exact absurd (hevent.symm.trans hno) (by decide)
    · obtain ⟨hQ, hcloses⟩ := closingTrade_closes rfl hpick ht
      rw [hreturns (hrun.trans hres) hacted, closedOnly_iff hP hQ (getPosition_mem hpick).2 hcloses hkey]
      constructor
      · intro hsame t' ht' _ _
        obtain rfl := Option.some.inj (ht.symm.trans ht')
        exact ⟨hkey, Or.inr hsame⟩
      · exact fun h => (h t ht hfault hevent).2.resolve_left hmark

/-! ### Two open puts -/

/-- 65 units of a protective put bought on a day. -/
private def boughtPut (key : String) (d : Date) (h : key ≠ "") : PaperTrade where
  strategyName := "paper_nifty_overlay_pp"
  legRole := "overlay_pp"
  instrumentKey := key
  tradeDate := d
  action := .buy
  quantity := 65
  price := 90
  paperPrefix := by decide
  legRole_ne := overlayPp_ne
  instrumentKey_ne := h
  quantity_pos := lot_pos
  price_pos := price90_pos

/-- A put, and the profit target it has reached. -/
def onePut : Desk where
  trades := (PaperTrades.empty.recordTrade (boughtPut "NSE_FO|NIFTY24000PE" 739760 key24000Put_ne)).1
  events := (ExitEvents.empty.createExitEvent
    { strategyName := "paper_nifty_overlay_pp"
      legName := "overlay_pp"
      tradeId := ""
      eventDate := 739791
      exitSignal := "PROFIT_TARGET"
      severity := .action
      entryPrice := 90 }).1

/-- The put that it is rolled into is there as well. -/
def twoPuts : Desk :=
  { onePut with trades := (onePut.trades.recordTrade (boughtPut "NSE_FO|NIFTY23500PE" 739790 (by decide))).1 }

/-- The first put. -/
def firstPut : PaperPosition where
  strategyName := "paper_nifty_overlay_pp"
  legRole := "overlay_pp"
  netQty := 65
  avgCost := 90
  avgSellPrice := 0
  instrumentKey := "NSE_FO|NIFTY24000PE"
  entryDate := some 739760

/-- Both puts are quoted. -/
def putsEnv : CloseEnv where
  chain :=
    { underlyingSpot := 24600
      expiry := 739797
      strikes := (Dict.empty.set 24000 { pe := some { ltp := 181, bid := 180, ask := 182, strike := 24000 } }).set 23500
        { pe := some { ltp := 81, bid := 80, ask := 82, strike := 23500 } } }
  today := 739791

/-- `True`, and the event acted, with the put that fired still held. -/
theorem twoPuts_wrong_close :
    firstPut ∈ twoPuts.trades.getPositions putsEnv.lookup firstPut.strategyName ∧ twoPuts.events.IsOpen 1 ∧
      ¬ClosesWhatFired putsEnv firstPut 1 twoPuts := by
  refine ⟨by decide +kernel, by decide +kernel, fun h => ?_⟩
  have hreturns : (autoCloseOverlay putsEnv firstPut 1 twoPuts).1 = true := by decide +kernel
  have hheld : (autoCloseOverlay putsEnv firstPut 1 twoPuts).2.trades.netQty firstPut.strategyName
      firstPut.pair = 65 := by
    decide +kernel
  exact absurd (hheld.symm.trans (h (Or.inl hreturns)).2.1.flat) (by decide)

/-- The equivalence before the roll. -/
theorem closes_what_fired_iff_onePut :
    ClosesWhatFired putsEnv firstPut 1 onePut ↔ FindsItFree putsEnv firstPut 1 onePut :=
  closes_what_fired_iff (Or.inr rfl) (by decide +kernel) (by decide +kernel)

end NiftyShield.Strategy.AutoClose
