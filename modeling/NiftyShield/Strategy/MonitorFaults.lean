import NiftyShield.Strategy.MonitorCoverage
import Mathlib.Data.List.TakeWhile

/-!
# What the failure of one strategy costs the others

A tick takes the due strategies in turn: the calls of `check_signals` for the expiry groups
that have a chain, the routing of what they emit, and last `reconcile_warn_state`. Of the calls
of the routing only `apply_action` is guarded, and of the turn only `check_signals`. Any other
exception ends the tick.

## What is proved

`others_served_iff`: if only one strategy fails, all others have their turn exactly if none of
its events ends the tick, or it is the last due. `endsTick_ofFaults`: an event ends the tick
exactly if an unguarded call that its routing reaches raises, or its payload cannot be read or
written as JSON.
-/

namespace NiftyShield.Strategy.Monitor

open NiftyShield.Instruments NiftyShield.Lib NiftyShield.Lib.Raising NiftyShield.Paper

/-! ### The calls of the routing -/

/-- A call that `_route_event` makes. -/
inductive RoutingCall where
  /-- `is_warn_active`. -/
  | isWarnActive
  /-- `send_plain_message`. -/
  | sendPlainMessage
  /-- `set_warn_active`. -/
  | setWarnActive
  /-- `apply_action`. -/
  | applyAction
  /-- `describe_context`. -/
  | describeContext
  /-- `send_approval_request`. -/
  | sendApprovalRequest
  /-- `create_approval`. -/
  | createApproval
  deriving DecidableEq

/-- Its exception is caught. -/
def RoutingCall.guarded : RoutingCall → Bool
  | applyAction => true
  | _ => false

/-- The calls that the routing of an event comes to, with the row of its WARN active or not. -/
def routingCalls (strategy : Registered) (event : SignalEvent) (active : Bool) : List RoutingCall :=
  match event.severity with
  | .info => []
  | .warn => .isWarnActive :: if active then [] else [.sendPlainMessage, .setWarnActive]
  | .action =>
    if isAutoExecuted strategy event then [.applyAction] else [.describeContext, .sendApprovalRequest, .createApproval]

/-- An event some of whose calls raise. -/
def RoutedEvent.ofFaults (strategy : Registered) (event : SignalEvent) (active : Bool) (raises : RoutingCall → Bool) :
    RoutedEvent where
  event
  raises := (routingCalls strategy event active).any fun c => raises c && !c.guarded

/-- The payload of an ACTION can be read for its execution, or written as JSON for its
approval. -/
def readablePayload (strategy : Registered) (event : SignalEvent) : Bool :=
  match event.severity with
  | .action =>
    if isAutoExecuted strategy event then (autoAction event.payload).isSome else (Payload.jsonDumps event.payload).isSome
  | _ => true

/-- **Which failures end a tick.** -/
theorem endsTick_ofFaults (strategy : Registered) (event : SignalEvent) (active : Bool) (raises : RoutingCall → Bool) :
    (RoutedEvent.ofFaults strategy event active raises).endsTick strategy = true ↔
      (∃ c ∈ routingCalls strategy event active, c ≠ .applyAction ∧ raises c = true) ∨
        readablePayload strategy event = false := by
  have hguarded : ∀ c : RoutingCall, c.guarded = false ↔ c ≠ .applyAction := fun c => by cases c <;> simp [RoutingCall.guarded]
  have hraises : (RoutedEvent.ofFaults strategy event active raises).raises = true ↔
      ∃ c ∈ routingCalls strategy event active, c ≠ .applyAction ∧ raises c = true := by
    simp only [RoutedEvent.ofFaults, List.any_eq_true, Bool.and_eq_true, Bool.not_eq_true', hguarded]
    simp only [and_comm]
  rw [RoutedEvent.endsTick, Bool.or_eq_true, hraises]
  refine or_congr_right ?_
  unfold readablePayload RoutedEvent.ofFaults
  cases event.severity with
  | info => simp
  | warn => simp
  | action =>
    simp only
    split <;> simp [Option.isNone_iff_eq_none]

/-! ### Turns -/

/-- The strategies whose turn ends, with their WARN rows reconciled, in a loop over the due
ones. -/
def turnsEnded (cfg : Config) (env : TickEnv) (chains : List (Date × OptionChain)) :
    List (Registered × ℕ) → TickState → List (Registered × ℕ)
  | [], _ => []
  | r :: rest, s =>
    match processStrategy cfg env chains r s with
    | .ok _ t => r :: turnsEnded cfg env chains rest t
    | .error _ _ => []

/-- Some event of the strategy ends the tick. -/
def endsTurn (cfg : Config) (env : TickEnv) (chains : List (Date × OptionChain)) (r : Registered × ℕ) : Bool :=
  (plannedCalls cfg env chains r).any env.stops

/-- The strategy's `check_signals` is called for each of its groups with a chain, and its WARN
state is reconciled. -/
def Served (cfg : Config) (env : TickEnv) (chains : List (Date × OptionChain)) (n : ℕ) (s : TickState)
    (r : Registered × ℕ) : Prop :=
  (∀ c ∈ plannedCalls cfg env chains r, c ∈ callsMade cfg env n s) ∧
    r ∈ turnsEnded cfg env chains (cfg.dueStrategies n) s

/-- The turns end up to the first strategy that ends the tick. -/
theorem turnsEnded_eq (cfg : Config) (env : TickEnv) (chains : List (Date × OptionChain)) :
    ∀ (due : List (Registered × ℕ)) (s : TickState),
      turnsEnded cfg env chains due s = due.takeWhile fun r => !endsTurn cfg env chains r
  | [], _ => rfl
  | r :: rest, s => by
    have hraises := (processStrategy_performs cfg env chains r).2 s
    rw [turnsEnded, List.takeWhile_cons]
    cases hrun : processStrategy cfg env chains r s with
    | ok a t =>
      have hends : endsTurn cfg env chains r = false := hraises.mp ⟨a, t, hrun⟩
      simp [hends, turnsEnded_eq cfg env chains rest t]
    | error e t =>
      have hends : endsTurn cfg env chains r = true := by
        by_contra hno
        obtain ⟨a, t', hok⟩ := hraises.mpr (Bool.eq_false_of_not_eq_true hno)
        rw [hrun] at hok
        exact absurd hok (by simp)
      simp [hends]

/-- The calls of a strategy before which no other ends the tick are made, if it does not end
the tick itself. -/
theorem mem_takeThrough {cfg : Config} {env : TickEnv} {chains : List (Date × OptionChain)}
    {due : List (Registered × ℕ)} {r : Registered × ℕ} (hr : r ∈ due.takeWhile fun r => !endsTurn cfg env chains r)
    {c : Call} (hc : c ∈ plannedCalls cfg env chains r) :
    c ∈ takeThrough env.stops (due.flatMap (plannedCalls cfg env chains)) := by
  have hsplit := List.takeWhile_append_dropWhile (p := fun r => !endsTurn cfg env chains r) (l := due)
  have hquiet : ((due.takeWhile fun r => !endsTurn cfg env chains r).flatMap (plannedCalls cfg env chains)).any
      env.stops = false := by
    rw [List.any_flatMap, List.any_eq_false]
    intro r' hr'
    have := List.mem_takeWhile_imp hr'
    simpa [endsTurn] using this
  rw [← hsplit, List.flatMap_append, takeThrough_append, if_neg (by simp [hquiet])]
  exact List.mem_append_left _ (List.mem_flatMap.mpr ⟨r, hr, hc⟩)

section Served

variable {cfg : Config} {env : TickEnv} {n : ℕ} {chain : Date × OptionChain} {chains : List (Date × OptionChain)}

/-- A due strategy is served if its turn ends. -/
theorem served_iff (hopen : env.tradingDay = true ∧ env.marketSession = true)
    (hchains : env.fetchChains cfg (duePositions cfg env n) = some (chain :: chains)) (s : TickState)
    (r : Registered × ℕ) :
    Served cfg env (chain :: chains) n s r ↔
      r ∈ (cfg.dueStrategies n).takeWhile fun r => !endsTurn cfg env (chain :: chains) r := by
  rw [Served, turnsEnded_eq, callsMade_eq, plan, if_pos hopen, hchains]
  exact and_iff_right_of_imp fun hr c hc => mem_takeThrough hr hc

/-- **One strategy's failure.** On a market-hours tick with chains, if no event of another due
strategy ends the tick, all the others are served exactly if no event of this one does or it is
the last one due. -/
theorem others_served_iff (hopen : env.tradingDay = true ∧ env.marketSession = true)
    (hchains : env.fetchChains cfg (duePositions cfg env n) = some (chain :: chains)) (s : TickState)
    {x : Registered × ℕ} (hx : x ∈ cfg.dueStrategies n)
    (honly : ∀ r ∈ cfg.dueStrategies n, r ≠ x → endsTurn cfg env (chain :: chains) r = false) :
    (∀ r ∈ cfg.dueStrategies n, r ≠ x → Served cfg env (chain :: chains) n s r) ↔
      endsTurn cfg env (chain :: chains) x = false ∨ (cfg.dueStrategies n).getLast? = some x := by
  simp only [served_iff hopen hchains]
  have hnodup := nodup_dueStrategies cfg n
  obtain ⟨pre, post, hsplit⟩ := List.append_of_mem hx
  rw [hsplit] at hnodup honly ⊢
  obtain ⟨hpre, hpost, hdisjoint⟩ := List.nodup_append.mp hnodup
  have hxpre : ∀ r ∈ pre, r ≠ x := fun r hr => hdisjoint r hr x List.mem_cons_self
  have hxpost : ∀ r ∈ post, r ≠ x := fun r hr hrx => (List.nodup_cons.mp hpost).1 (hrx ▸ hr)
  have htake : pre.takeWhile (fun r => !endsTurn cfg env (chain :: chains) r) = pre := by
    rw [List.takeWhile_eq_self_iff]
    intro r hr
    simp [honly r (List.mem_append_left _ hr) (hxpre r hr)]
  rw [List.takeWhile_append_of_pos fun r hr => by simp [honly r (List.mem_append_left _ hr) (hxpre r hr)]]
  cases hends : endsTurn cfg env (chain :: chains) x with
  | false =>
    have hpostTake : post.takeWhile (fun r => !endsTurn cfg env (chain :: chains) r) = post := by
      rw [List.takeWhile_eq_self_iff]
      intro r hr
      simp [honly r (by simp [hr]) (hxpost r hr)]
    simp only [true_or, iff_true]
    intro r hr _
    simpa [hends, hpostTake] using hr
  | true =>
    simp only [Bool.true_eq_false, false_or]
    have htail : (x :: post).takeWhile (fun r => !endsTurn cfg env (chain :: chains) r) = [] := by simp [hends]
    rw [htail, List.append_nil]
    constructor
    · intro hserved
      cases post with
      | nil => simp
      | cons r post =>
        have hr := hserved r (by simp) (hxpost r List.mem_cons_self)
        exact absurd rfl (hdisjoint r hr r (by simp))
    · intro hlast r hr hrx
      have hpostNil : post = [] := by
        cases post with
        | nil => rfl
        | cons r post =>
          rw [List.getLast?_append_of_ne_nil _ (by simp), List.getLast?_cons_cons] at hlast
          exact absurd rfl (hxpost x (List.mem_of_getLast? hlast))
      rw [hpostNil] at hr
      rcases List.mem_append.mp hr with hr | hr
      · exact hr
      · exact absurd (List.mem_singleton.mp hr) hrx

end Served

/-! ### A payload that is not JSON -/

/-- A put of the iron condor, sold on day 739790. -/
def condorPut : PaperTrade where
  strategyName := "paper_ic_nifty_v1"
  legRole := "short_put"
  instrumentKey := "NSE_FO|NIFTY30JUN2026PE23000"
  tradeDate := 739790
  action := .sell
  quantity := 65
  price := 100
  paperPrefix := by decide +kernel
  legRole_ne := shortPut_ne
  instrumentKey_ne := by decide
  quantity_pos := lot_pos
  price_pos := price100_pos

/-- A ROLL_WING of a condor whose actions are approved by hand, with the leg to open. -/
def rollWing : SignalEvent where
  eventType := "ROLL_WING"
  severity := .action
  description := "short_put roll target available"
  payload := [("leg_role", .str "short_put"),
    ("legs_to_open", .list [.legSpec "NSE_FO|NIFTY30JUN2026PE22500" "SELL" 65 "short_put" "" (some 80)])]

/-- A monitor of the condor and, after it, the cash-secured put. -/
def condorFirst : Config where
  strategies := [{ strategyName := "paper_ic_nifty_v1" }, { strategyName := "paper_csp_nifty_v1" }]

/-- A tick on which the condor emits the event. -/
def rollWingTick : TickEnv where
  ledger := ((PaperTrades.empty.recordTrade condorPut).1.recordTrade
    (soldLeg "short_put" "NSE_FO|NIFTY30JUN2026PE" shortPut_ne keyJunePut_ne)).1
  fetchChain := fun exp => .chain ⟨24000, exp, Dict.empty⟩
  marketToday := 739791
  checkSignals := fun index _ _ => .events (if index = 0 then [{ event := rollWing }] else [])

/-- The chains of that tick. -/
def rollWingChains : List (Date × OptionChain) := [(739797, ⟨24000, 739797, Dict.empty⟩)]

theorem rollWingTick_chains : rollWingTick.fetchChains condorFirst (duePositions condorFirst rollWingTick 0) =
    some rollWingChains := by
  have hwanted : rollWingTick.wantedExpiries condorFirst (duePositions condorFirst rollWingTick 0) = [739797] := by
    decide +kernel
  rw [TickEnv.fetchChains, hwanted]
  rfl

/-- The approval of the event raises: the cash-secured put is not evaluated. -/
theorem rollWing_silences :
    (rollWingTick.tradingDay = true ∧ rollWingTick.marketSession = true) ∧
      rollWingTick.fetchChains condorFirst (duePositions condorFirst rollWingTick 0) = some rollWingChains ∧
      (∀ r ∈ condorFirst.dueStrategies 0, r.2 ≠ 0 → endsTurn condorFirst rollWingTick rollWingChains r = false) ∧
      ¬ ∀ r ∈ condorFirst.dueStrategies 0, r.2 ≠ 0 →
        Served condorFirst rollWingTick rollWingChains 0 TickState.initial r := by
  refine ⟨⟨rfl, rfl⟩, rollWingTick_chains, by decide +kernel, fun h => ?_⟩
  have hserved := h ({ strategyName := "paper_csp_nifty_v1" }, 1) (by decide +kernel) (by decide)
  have hends := hserved.2
  rw [turnsEnded_eq] at hends
  exact absurd hends (by decide +kernel)

/-- The equivalence at that tick. -/
theorem others_served_iff_rollWing :
    (∀ r ∈ condorFirst.dueStrategies 0, r ≠ ({ strategyName := "paper_ic_nifty_v1" }, 0) →
        Served condorFirst rollWingTick rollWingChains 0 TickState.initial r) ↔
      endsTurn condorFirst rollWingTick rollWingChains ({ strategyName := "paper_ic_nifty_v1" }, 0) = false ∨
        (condorFirst.dueStrategies 0).getLast? = some ({ strategyName := "paper_ic_nifty_v1" }, 0) :=
  others_served_iff ⟨rfl, rfl⟩ rollWingTick_chains TickState.initial (by decide +kernel) (by decide +kernel)

end NiftyShield.Strategy.Monitor
