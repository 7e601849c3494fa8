import NiftyShield.Instruments.Lookup
import NiftyShield.Lib.Raising
import NiftyShield.Lib.Rounding
import NiftyShield.Models.Options
import NiftyShield.Paper.Approvals
import NiftyShield.Paper.Store
import NiftyShield.Strategy.Protocol

/-!
# The strategy monitor

One tick of `StrategyMonitor` (`src/strategy/monitor.py`): it loads the positions of the
strategies that are due, fetches one option chain for each expiry among them, hands every
strategy its positions expiry by expiry, and routes the events that come back. WARN events
are sent once while a row of `warn_signal_state` is active; ACTION events are executed or
become pending approvals.

A tick is a program that may be ended by an exception; `run` swallows it and the writes
made before stay. What the tick did is in its state: the calls of `check_signals`, the
WARN messages sent, the actions executed.

## Honest scope

What a tick meets from outside is its `TickEnv`, any one of it: the ledger, the broker's
answers, what each `check_signals` answers or that it raises, and of every event whether
routing it raises before it has had an effect. A set of dates is iterated in an order of
the environment's. The operations on `warn_signal_state` and `pending_approvals` succeed. A
WARN's `leg_role` is a text, and a payload entry of another type than its key's raises. The
hooks without effect on positions, events or WARN state (heartbeat, `check_without_chain`,
the P&L diagnostic) are left out.
-/

namespace NiftyShield.Strategy.Monitor

open NiftyShield.Instruments NiftyShield.Lib NiftyShield.Lib.Raising NiftyShield.Paper

/-! ### Configuration -/

/-- A positive number of seconds. -/
abbrev Seconds := { n : ℕ // 0 < n }

theorem pollDefault_pos : 0 < 90 := by decide

/-- A registered strategy, as the loop sees it. -/
structure Registered where
  /-- `strategy_name`. -/
  strategyName : String
  /-- `due_interval_s`, if the strategy sets it. -/
  dueIntervalS : Option Seconds := none
  /-- `auto_execute`. -/
  autoExecute : Bool := false
  deriving DecidableEq

/-- A `StrategyMonitor`. -/
structure Config where
  /-- The registered strategies, in order. -/
  strategies : List Registered
  /-- `poll_interval_s`. -/
  pollIntervalS : Seconds := ⟨90, pollDefault_pos⟩
  /-- BOD instrument lookup. -/
  lookup : Option InstrumentLookup := none

/-- `_loop_interval_s`. -/
def Config.loopIntervalS (cfg : Config) : ℕ :=
  (cfg.strategies.filterMap (·.dueIntervalS)).foldl (fun m n => min m n.1) cfg.pollIntervalS.1

/-- The ticks from one processing of the strategy to the next. -/
def Config.ratio (cfg : Config) (s : Registered) : ℕ :=
  max 1 (roundHalfEven ((s.dueIntervalS.getD cfg.pollIntervalS).1 / cfg.loopIntervalS)).toNat

/-- `_due_strategies`, each with its place in the registry. -/
def Config.dueStrategies (cfg : Config) (tick : ℕ) : List (Registered × ℕ) :=
  cfg.strategies.zipIdx.filter fun s => tick % cfg.ratio s.1 = 0

/-! ### Expiries -/

/-- `_get_position_expiry`. The cache of a tick only saves the repetition. -/
def Config.positionExpiry (cfg : Config) (pos : PaperPosition) : Option Date :=
  let named := (searchFrom (fun s => do
    let s ← stripPrefixCI "NIFTY".toList s
    let (day, month, year, rest) ← takeDayMonthYear s
    let _ ← optionSuffix rest
    some (day, month, year)) pos.instrumentKey.toList).bind fun (day, month, year) => dateOfParts day month year
  named.orElse fun _ => (cfg.lookup.bind (·.getByKey pos.instrumentKey)).bind (·.expiry)

/-- The open positions that resolve, with their expiries. -/
def Config.datedPositions (cfg : Config) (positions : List PaperPosition) : List (Date × PaperPosition) :=
  positions.filterMap fun pos => if pos.netQty = 0 then none else (cfg.positionExpiry pos).map fun exp => (exp, pos)

/-- `_group_positions_by_expiry`. -/
def Config.groupPositionsByExpiry (cfg : Config) (positions : List PaperPosition) : List (Date × List PaperPosition) :=
  let dated := cfg.datedPositions positions
  (Grouping.keys Prod.fst dated).map fun exp => (exp, (Grouping.group Prod.fst dated exp).map Prod.snd)

/-! ### The outside of a tick -/

/-- The broker's answer to a chain request, parsed. -/
inductive ChainAnswer where
  /-- A chain. -/
  | chain (c : OptionChain)
  /-- `DataFetchError`. -/
  | dataFetchError
  /-- Any other exception. -/
  | raises

/-- An event, with what routing it meets. -/
structure RoutedEvent where
  /-- The event. -/
  event : SignalEvent
  /-- Routing raises before it has had an effect. -/
  raises : Bool := false
  /-- The message id of the approval request, if it was sent. -/
  telegramMsgId : Option ℤ := none
  /-- When the approval lapses. -/
  expiresAt : ℕ := 0

/-- What `check_signals` answers. -/
inductive Evaluation where
  /-- An exception. -/
  | raised
  /-- Events. -/
  | events (es : List RoutedEvent)

theorem id_perm (l : List Date) : (id l).Perm l := List.Perm.refl _

/-- What one tick meets. -/
structure TickEnv where
  /-- `is_trading_day(today)`. -/
  tradingDay : Bool := true
  /-- `is_market_session_now()`. -/
  marketSession : Bool := true
  /-- The paper ledger. -/
  ledger : PaperTrades
  /-- The store's BOD lookup. -/
  storeLookup : Option InstrumentLookup := none
  /-- The broker. -/
  fetchChain : Date → ChainAnswer
  /-- `expiry_fn`, if set; the date its text gives, if it gives one. -/
  expiryFn : Option (Option Date) := none
  /-- `market_today()`. -/
  marketToday : Date
  /-- The order in which a set of dates is iterated. -/
  setOrder : List Date → List Date := id
  /-- It iterates each once. -/
  setOrder_perm : ∀ l, (setOrder l).Perm l := by exact id_perm
  /-- What the strategy at a place of the registry answers. -/
  checkSignals : ℕ → OptionChain → List PaperPosition → Evaluation

/-- `parse_upstox_option_chain([])`. -/
def emptyChain : OptionChain := ⟨0, 719163, Dict.empty⟩

example : Date.ofYmd 1970 1 1 = some emptyChain.expiry := by decide

/-- A strategy's positions. -/
def TickEnv.positionsOf (env : TickEnv) (strategyName : String) : List PaperPosition :=
  env.ledger.getPositions env.storeLookup strategyName

/-- The dates `_fetch_chains` asks for. -/
def TickEnv.wantedExpiries (env : TickEnv) (cfg : Config) (positions : List PaperPosition) : List Date :=
  match env.setOrder (Grouping.keys Prod.fst (cfg.datedPositions positions)) with
  | [] => (env.expiryFn.bind id).toList
  | dates => dates

/-- The loop of `_fetch_chains`; `none` if a request raises. -/
def TickEnv.fetchEach (env : TickEnv) : List Date → Option (List (Date × OptionChain))
  | [] => some []
  | exp :: exps =>
    match env.fetchChain exp with
    | .chain c => (env.fetchEach exps).map fun chains => (exp, c) :: chains
    | .dataFetchError => env.fetchEach exps
    | .raises => none

/-- `_fetch_chains`. -/
def TickEnv.fetchChains (env : TickEnv) (cfg : Config) (positions : List PaperPosition) :
    Option (List (Date × OptionChain)) :=
  match env.wantedExpiries cfg positions with
  | [] => some [(env.marketToday, emptyChain)]
  | exps => env.fetchEach exps

/-! ### State of a tick -/

/-- The primary key of `warn_signal_state`. -/
structure WarnKey where
  /-- Strategy. -/
  strategyName : String
  /-- Event type. -/
  eventType : String
  /-- Leg. -/
  legRole : String
  /-- Expiry of the chain. -/
  expiry : Date
  deriving DecidableEq

/-- A call of `check_signals`. -/
structure Call where
  /-- The strategy. -/
  strategy : Registered
  /-- Its place in the registry. -/
  index : ℕ
  /-- The chain it was given. -/
  chain : OptionChain
  /-- The positions it was given. -/
  positions : List PaperPosition

/-- The tables a tick writes, and what it has done. -/
structure TickState where
  /-- The `active` column of `warn_signal_state`. -/
  warn : Dict WarnKey Bool
  /-- `pending_approvals`. -/
  approvals : Approvals
  /-- The WARN keys of the strategy being processed. -/
  warnFired : List WarnKey := []
  /-- Calls of `check_signals`. -/
  calls : List Call := []
  /-- WARN messages sent. -/
  sent : List WarnKey := []
  /-- Actions executed, with the place of the strategy. -/
  executed : List (ℕ × List PaperPosition × ApprovedAction) := []

/-- Empty tables. -/
def TickState.initial : TickState := { warn := Dict.empty, approvals := Approvals.empty }

/-- A program over that state. Its exception is one that ends the tick. -/
abbrev Tick := EStateM Unit TickState

/-- `is_warn_active`. -/
def TickState.isWarnActive (s : TickState) (k : WarnKey) : Bool := (s.warn.get? k).getD false

/-- `reconcile_warn_state`. -/
def TickState.reconcileWarnState (s : TickState) (strategyName : String) : TickState :=
  let recovered := s.warn.entries.filter fun e => e.1.strategyName = strategyName && e.2 && e.1 ∉ s.warnFired
  { s with warn := recovered.foldl (fun w e => w.set e.1 false) s.warn }

/-! ### Routing -/

/-- The WARN key of an event. -/
def warnKey (strategyName : String) (chain : OptionChain) (event : SignalEvent) : WarnKey where
  strategyName := strategyName
  eventType := event.eventType
  legRole :=
    match PyValue.lookup event.payload "leg_role" with
    | some (.str legRole) => legRole
    | _ => ""
  expiry := chain.expiry

/-- A text of a payload, with the default for a missing key. -/
def payloadText (payload : Payload) (key default : String) : Option String :=
  match PyValue.lookup payload key with
  | none => some default
  | some (.str s) => some s
  | some _ => none

/-- One entry of `legs_to_close`. -/
def legCloseOf : PyValue → Option LegClose
  | .dict d =>
    match PyValue.lookup d "leg_role", PyValue.lookup d "instrument_key" with
    | some (.str legRole), some (.str instrumentKey) => some ⟨legRole, some instrumentKey⟩
    | some (.str legRole), none | some (.str legRole), some .none => some ⟨legRole, none⟩
    | _, _ => none
  | _ => none

/-- One entry of `legs_to_open`. -/
def legSpecOf : PyValue → Option LegSpec
  | .legSpec instrumentKey action quantity legRole notes price =>
    some ⟨instrumentKey, action, quantity, legRole, notes, price⟩
  | _ => none

/-- A list of a payload, entry by entry; empty if the key is missing. -/
def payloadList {α : Type} (payload : Payload) (key : String) (f : PyValue → Option α) : Option (List α) :=
  match PyValue.lookup payload key with
  | none => some []
  | some (.list vs) => vs.mapM f
  | some _ => none

/-- The action of an auto-executed event. -/
def autoAction (payload : Payload) : Option ApprovedAction := do
  let actionType ← payloadText payload "auto_action" "CLOSE_AND_WAIT"
  let named ← payloadList payload "legs_to_close" legCloseOf
  let legRole ← payloadText payload "leg_role" "short_put"
  let legsToOpen ← payloadList payload "legs_to_open" legSpecOf
  some
    { actionType
      legsToClose := if named = [] then [{ legRole }] else named
      legsToOpen
      rationale := "auto-execute"
      councilRank := 1
      metadata := payload }

/-- Whether an ACTION event is executed without approval. -/
def isAutoExecuted (strategy : Registered) (event : SignalEvent) : Bool :=
  strategy.autoExecute && ((PyValue.lookup event.payload "auto_execute").map PyValue.truthy).getD false

/-- Whether routing the event ends the tick. -/
def RoutedEvent.endsTick (strategy : Registered) (r : RoutedEvent) : Bool :=
  r.raises ||
    match r.event.severity with
    | .action =>
      if isAutoExecuted strategy r.event then (autoAction r.event.payload).isNone
      else (Payload.jsonDumps r.event.payload).isNone
    | _ => false

/-- `_route_event`. -/
def routeEvent (strategy : Registered) (index : ℕ) (chain : OptionChain) (positions : List PaperPosition)
    (r : RoutedEvent) : Tick Unit :=
  if r.raises then throw ()
  else
    match r.event.severity with
    | .info => pure ()
    | .warn =>
      let key := warnKey strategy.strategyName chain r.event
      updates fun s =>
        let s := { s with warnFired := key :: s.warnFired }
        if s.isWarnActive key then (s, ())
        else ({ s with sent := s.sent ++ [key], warn := s.warn.set key true }, ())
    | .action =>
      if isAutoExecuted strategy r.event then do
        let action ← fromOption () (autoAction r.event.payload)
        updates fun s => ({ s with executed := s.executed ++ [(index, positions, action)] }, ())
      else do
        let council ← fromOption () (Payload.jsonDumps r.event.payload)
        updates fun s =>
          ({ s with
            approvals := s.approvals.create strategy.strategyName r.event.eventType council r.telegramMsgId r.expiresAt },
            ())

/-! ### The tick -/

/-- The chain of an expiry. -/
def chainOf (chains : List (Date × OptionChain)) (exp : Date) : Option OptionChain :=
  (chains.find? fun c => c.1 = exp).map Prod.snd

/-- The groups a strategy is evaluated on: by expiry, or all positions against the first
chain if none resolves. -/
def expiryGroups (cfg : Config) (chains : List (Date × OptionChain)) (positions : List PaperPosition) :
    List (Date × List PaperPosition) :=
  match cfg.groupPositionsByExpiry positions with
  | [] => (chains.head?.map fun c => (c.1, positions)).toList
  | groups => groups

/-- The body of the loop over expiry groups. -/
def processGroup (env : TickEnv) (chains : List (Date × OptionChain)) (strategy : Registered) (index : ℕ)
    (g : Date × List PaperPosition) : Tick Unit :=
  match chainOf chains g.1 with
  | none => pure ()
  | some chain => do
    updates fun s => ({ s with calls := s.calls ++ [⟨strategy, index, chain, g.2⟩] }, ())
    match env.checkSignals index chain g.2 with
    | .raised => pure ()
    | .events es => es.forM (routeEvent strategy index chain g.2)

/-- The body of the loop over due strategies. -/
def processStrategy (cfg : Config) (env : TickEnv) (chains : List (Date × OptionChain)) (s : Registered × ℕ) :
    Tick Unit := do
  updates fun st => ({ st with warnFired := [] }, ())
  (expiryGroups cfg chains (env.positionsOf s.1.strategyName)).forM (processGroup env chains s.1 s.2)
  updates fun st => (st.reconcileWarnState s.1.strategyName, ())

/-- The positions of all due strategies. -/
def duePositions (cfg : Config) (env : TickEnv) (tick : ℕ) : List PaperPosition :=
  (cfg.dueStrategies tick).flatMap fun s => env.positionsOf s.1.strategyName

/-- `_tick`, at a tick number. -/
def tick (cfg : Config) (env : TickEnv) (tick : ℕ) : Tick Unit :=
  if env.tradingDay = false then pure ()
  else if env.marketSession = false then pure ()
  else
    match env.fetchChains cfg (duePositions cfg env tick) with
    | none => throw ()
    | some [] => pure ()
    | some chains => (cfg.dueStrategies tick).forM (processStrategy cfg env chains)

end NiftyShield.Strategy.Monitor
