import NiftyShield.Paper.Batch
import NiftyShield.Strategy.CspNiftyV1

/-!
# Which put an action closes

`check_signals` of `CSPNiftyV1` emits its events put by put; the monitor routes them one after
the other, each with the positions the tick began with. `apply_action` closes the first short
put of that list, whichever put the event was emitted for, and the purchase of a second closing
action falls on the key of the first and is dropped.

## What is proved

* `closings_emissions`: a tick emits one closing event for each put that a rule wants closed
  (`Watch.actionDue`), and no other;
* `allHit_of_closings`, `closings_of_calm`: the events hit the puts they were emitted for
  exactly when at most one of them closes, and that one the first short put of the list;
* `actions_hit_fired_iff`: so every action hits its put if and only if no put but the first is
  due, and the first, if it is due, has not been bought back earlier the same day.

## Honest scope

Every action meets outside conditions of its own, except that the day is the same for the whole
tick. The positions of a tick are some of those of the ledger, as the monitor passes them expiry
by expiry.
-/

namespace NiftyShield.Strategy.CspNiftyV1

open NiftyShield.Instruments NiftyShield.Lib NiftyShield.Lib.Raising NiftyShield.Paper

/-! ### Routing the events of a tick -/

/-- The unique key of the purchase that closes a position. -/
def buyKey (today : Date) (p : PaperPosition) : PaperTrade.UniqueKey :=
  ⟨p.strategyName, p.legRole, p.instrumentKey, today, .buy⟩

section Routing

variable (env : ActionEnv) (positions : List PaperPosition) (event : SignalEvent)

/-- The action the monitor dispatches for the event, if it executes it. -/
def dispatched : Option ApprovedAction :=
  if event.severity = .action && Monitor.isAutoExecuted registered event then Monitor.autoAction event.payload else none

/-- The ledger after `_route_event`, which logs what `apply_action` raises. -/
def route (T : PaperTrades) : PaperTrades :=
  match dispatched event with
  | some action => finalState (applyAction env positions action T)
  | none => T

/-- **The event hits the position**: a purchase it adds is that of the position, and an action
that returns with nothing to report has bought the whole of the position back. -/
def Hits (p : PaperPosition) (T : PaperTrades) : Prop :=
  (∀ k, k.action = .buy → (route env positions event T).hasKey k = true → T.hasKey k = true ∨ k = buyKey env.today p) ∧
    ∀ action r T', dispatched event = some action → applyAction env positions action T = .ok r T' → r.failures = [] →
      NewRow T T' (buyKey env.today p) p.netQty.natAbs

end Routing

/-- Routed one after the other, the events each hit the position they were emitted for. -/
def AllHit (positions : List PaperPosition) : (ℕ → ActionEnv) → List (PaperPosition × SignalEvent) → PaperTrades → Prop
  | _, [], _ => True
  | envs, (p, event) :: rest, T =>
    Hits (envs 0) positions event p T ∧
      AllHit positions (fun n => envs (n + 1)) rest (route (envs 0) positions event T)

/-- Positions of the strategy in the ledger. -/
def openPuts (T : PaperTrades) (lookup : Option InstrumentLookup) (passed : PaperPosition → Bool) : List PaperPosition :=
  (T.getPositions lookup strategyName).filter passed

/-- Whatever the actions of a tick meet, each hits the put that fired. -/
def ActionsHitFired (w : Watch) (lookup : Option InstrumentLookup) (passed : PaperPosition → Bool)
    (market : OptionChain) : Prop :=
  ∀ ems, w.emissions market (openPuts w.trades lookup passed) = some ems →
    ∀ envs : ℕ → ActionEnv, (∀ n, (envs n).today = w.today) → AllHit (openPuts w.trades lookup passed) envs ems w.trades

/-! ### The closing events -/

/-- A rule wants the put closed: in the chain its premium has doubled, its delta has reached 0.40
or 70% of the credit is captured, or it is held for 21 days, or it expires within a week. -/
def Watch.actionDue (w : Watch) (market : OptionChain) (pos : PaperPosition) : Bool :=
  (w.putLeg market pos).any (fun leg =>
      pos.avgSellPrice * 2 ≤ leg.ltp || leg.delta.any (fun d => 40 / 100 ≤ |d|) ||
        leg.ltp ≤ pos.avgSellPrice * profitTargetRetention) ||
    (21 ≤ w.daysHeld pos && (parseExpiry pos.instrumentKey).all fun d => Date.daysBetween w.today d ≤ 21) ||
      w.dte pos ≤ 7

/-- The event is executed, and what it executes closes a put. -/
def isClosing (event : SignalEvent) : Bool := (dispatched event).any fun action => action.actionType ∈ closingActions

section Events

variable {w : Watch} {market : OptionChain} {pos : PaperPosition}

theorem anyAction_hardStop (text : RuleText) (ltp credit : ℚ) :
    anyAction (evaluateHardStopCsp text ltp credit) = (credit * 2 ≤ ltp : Bool) := by
  unfold evaluateHardStopCsp
  simp only
  split <;> simp_all [anyAction_cons]

theorem anyAction_profitTarget (text : RuleText) (ltp credit : ℚ) :
    anyAction (evaluateProfitTargetCsp text ltp credit) = (ltp ≤ credit * profitTargetRetention : Bool) := by
  unfold evaluateProfitTargetCsp
  simp only
  split <;> simp_all [anyAction_cons]

/-- The delta rule acts at 0.40 in every state in which it does not raise. -/
theorem anyAction_deltaBreach {text : RuleText} {delta : Option ℚ} {state : TradeState}
    {results : List ExitSignalResult}
    (h : evaluateDeltaBreachCspIn text delta state = some results) :
    anyAction results = delta.any fun d => 40 / 100 ≤ |d| := by
  unfold evaluateDeltaBreachCspIn at h
  split at h
  · exact absurd h (by simp)
  · split at h
    · obtain rfl := Option.some.inj h
      cases delta with
      | none => rfl
      | some d =>
        rw [evaluateDeltaBreachCsp]
        split <;> simp_all [anyAction_cons]
    · cases delta with
      | none =>
        obtain rfl := Option.some.inj h
        rfl
      | some d =>
        simp only at h
        split at h <;> (obtain rfl := Option.some.inj h; simp_all [anyAction_cons])

theorem anyAction_timeStop (daysHeld : ℤ) (dte : Option ℤ) :
    anyAction (evaluateTimeStopCsp daysHeld dte) = (21 ≤ daysHeld && dte.all (· ≤ 21)) := by
  unfold evaluateTimeStopCsp
  split <;> simp_all [anyAction_cons]

theorem anyAction_rollEligible (dte : ℤ) : anyAction (evaluateRollEligibleCsp dte) = (dte ≤ 7 : Bool) := by
  unfold evaluateRollEligibleCsp
  split <;> simp_all [anyAction_cons]

/-- Some result is an ACTION exactly when a rule wants the put closed. -/
theorem anyAction_results {results : List ExitSignalResult} (h : w.results market pos = some results) :
    anyAction results = w.actionDue market pos := by
  have hdte : ((parseExpiry pos.instrumentKey).map fun d => Date.daysBetween w.today d).all (· ≤ 21) =
      (parseExpiry pos.instrumentKey).all fun d => Date.daysBetween w.today d ≤ 21 := by
    cases parseExpiry pos.instrumentKey <;> rfl
  unfold Watch.actionDue
  cases hleg : w.putLeg market pos with
  | none =>
    simp only [Watch.results, hleg] at h
    obtain rfl := Option.some.inj h
    rw [anyAction_sortResults, List.nil_append, anyAction_append, anyAction_timeStop,
      anyAction_rollEligible, hdte]
    rfl
  | some leg =>
    simp only [Watch.results, hleg] at h
    obtain ⟨breach, hbreach, h⟩ := Option.bind_eq_some_iff.mp h
    obtain rfl := Option.some.inj h
    rw [anyAction_sortResults, anyAction_append, anyAction_append, anyAction_append, anyAction_append,
      anyAction_hardStop, anyAction_deltaBreach hbreach, anyAction_profitTarget, anyAction_timeStop,
        anyAction_rollEligible, hdte]
    rfl

/-! ### Counting them -/

theorem isClosing_rollEvent (leg : OptionLeg) : isClosing (w.rollEvent market pos leg) = false := by
  have haction : (w.rollEvent market pos leg).severity = .action := rfl
  rw [isClosing, dispatched, isAutoExecuted_rollEvent, autoAction_rollEvent, haction]
  rfl

theorem dispatched_eventOf {r : ExitSignalResult} (hr : r.severity = .action) :
    dispatched (w.eventOf market pos r) =
      some
        { actionType := autoActionOf r.exitSignal
          legsToClose := [{ legRole := pos.legRole }]
          legsToOpen := []
          rationale := "auto-execute"
          councilRank := 1
          metadata := (w.eventOf market pos r).payload } := by
  have hsev : (w.eventOf market pos r).severity = .action := hr
  have hauto : Monitor.isAutoExecuted registered (w.eventOf market pos r) = true := by
    have hpayload : (w.eventOf market pos r).payload =
        w.basePayload market pos ++ actionPayload r.exitSignal := by
      rw [Watch.eventOf, if_pos hr]
    rw [Monitor.isAutoExecuted, hpayload]
    cases hleg : w.putLeg market pos with
    | none => simp [registered, Watch.basePayload, hleg, actionPayload, PyValue.lookup, PyValue.truthy]
    | some leg => simp [registered, Watch.basePayload, hleg, actionPayload, PyValue.lookup, PyValue.truthy]
  rw [dispatched, hsev, hauto, ← autoAction_eventOf hr]
  rfl

theorem isClosing_eventOf (r : ExitSignalResult) :
    isClosing (w.eventOf market pos r) = (r.severity = .action : Bool) := by
  by_cases hr : r.severity = .action
  · rw [isClosing, dispatched_eventOf hr, Option.any_some, decide_eq_true hr]
    exact decide_eq_true (autoActionOf_mem r.exitSignal)
  · have hsev : (w.eventOf market pos r).severity = r.severity := rfl
    rw [isClosing, dispatched, hsev, decide_eq_false hr]
    rfl

/-- Of the results of a put one closing event is left, if there is one. -/
theorem closings_eventsOf : ∀ (emitted : Bool) (results : List ExitSignalResult),
    ((w.eventsOf market pos emitted results).filter isClosing).length =
      if !emitted && anyAction results then 1 else 0
  | emitted, [] => by simp [Watch.eventsOf]
  | emitted, r :: results => by
    rw [Watch.eventsOf, anyAction_cons]
    by_cases hr : r.severity = .action
    · cases emitted with
      | true =>
        rw [if_pos hr, if_pos rfl, closings_eventsOf]
        simp
      | false =>
        rw [if_pos hr, if_neg Bool.false_ne_true, List.filter_cons, isClosing_eventOf,
          decide_eq_true hr, if_pos rfl,
          List.length_cons, closings_eventsOf true results]
        rfl
    · rw [if_neg hr, List.filter_cons, isClosing_eventOf, decide_eq_false hr]
      simp [closings_eventsOf emitted results]

/-- **A put has one closing event** if a rule wants it closed, else none. -/
theorem closings_positionEvents {es : List SignalEvent} (h : w.positionEvents market pos = some es) :
    (es.filter isClosing).length = if w.actionDue market pos then 1 else 0 := by
  obtain ⟨results, hresults, rfl⟩ := Option.map_eq_some_iff.mp h
  have hroll : ((w.rollOffer market pos).map (w.rollEvent market pos)).toList.filter isClosing = [] := by
    cases w.rollOffer market pos with
    | none => rfl
    | some leg => simp [isClosing_rollEvent]
  rw [List.filter_append, hroll, List.append_nil, closings_eventsOf, anyAction_results hresults]
  rfl

/-- The puts that the closing events of a tick were emitted for. -/
def closingPuts (ems : List (PaperPosition × SignalEvent)) : List PaperPosition :=
  (ems.filter fun em => isClosing em.2).map Prod.fst

theorem closingPuts_append (ems ems' : List (PaperPosition × SignalEvent)) :
    closingPuts (ems ++ ems') = closingPuts ems ++ closingPuts ems' := by
  simp [closingPuts]

theorem closingPuts_cons (p : PaperPosition) (e : SignalEvent) (ems : List (PaperPosition × SignalEvent)) :
    closingPuts ((p, e) :: ems) = (if isClosing e then [p] else []) ++ closingPuts ems := by
  cases he : isClosing e <;> simp [closingPuts, he]

/-- The closing events of one put name it. -/
theorem closingPuts_group (es : List SignalEvent) :
    closingPuts (es.map fun e => (pos, e)) = List.replicate (es.filter isClosing).length pos := by
  induction es with
  | nil => rfl
  | cons e es ih =>
    rw [List.map_cons, closingPuts_cons, ih, List.filter_cons]
    cases isClosing e <;> simp [List.replicate_succ]

/-- **The closing events of a tick** are one for each short put that a rule wants closed, in order. -/
theorem closings_emissions {positions : List PaperPosition} {ems : List (PaperPosition × SignalEvent)}
    (h : w.emissions market positions = some ems) :
    closingPuts ems = (positions.filter isShort).filter (w.actionDue market) := by
  obtain ⟨groups, hgroups, rfl⟩ := Option.map_eq_some_iff.mp h
  have hall := mapM_eq_some_iff.mp hgroups
  clear h hgroups
  generalize positions.filter isShort = puts at hall ⊢
  induction hall with
  | nil => rfl
  | @cons p group puts groups hp _ ih =>
    obtain ⟨es, hes, rfl⟩ := Option.map_eq_some_iff.mp hp
    rw [List.flatten_cons, closingPuts_append, closingPuts_group, closings_positionEvents hes, ih,
      List.filter_cons]
    cases w.actionDue market p <;> simp

end Events

/-! ### Purchases -/

/-- The only purchase that is new has this key. -/
def OnlyBuys (k : PaperTrade.UniqueKey) (T T' : PaperTrades) : Prop :=
  ∀ k', k'.action = .buy → T'.hasKey k' = true → T.hasKey k' = true ∨ k' = k

section OnlyBuys

variable {k : PaperTrade.UniqueKey}

theorem OnlyBuys.refl (T : PaperTrades) : OnlyBuys k T T := fun _ _ h => Or.inl h

theorem OnlyBuys.trans (T T' T'' : PaperTrades) (h : OnlyBuys k T T') (h' : OnlyBuys k T' T'') :
    OnlyBuys k T T'' := by
  intro j hbuy hj
  rcases h' j hbuy hj with hj | rfl
  · exact h j hbuy hj
  · exact Or.inr rfl

theorem onlyBuys_recordTrade {t : PaperTrade} (ht : t.action = .sell ∨ t.uniqueKey = k) (T : PaperTrades) :
    OnlyBuys k T (T.recordTrade t).1 := by
  intro j hbuy hj
  rw [PaperTrades.hasKey_recordTrade, Bool.or_eq_true, decide_eq_true_iff] at hj
  rcases hj with hj | rfl
  · exact Or.inl hj
  · rcases ht with hsell | rfl
    · exact absurd (hsell.symm.trans hbuy) (by simp)
    · exact Or.inr rfl

theorem onlyBuys_updateState (p : PaperTrade → Bool) (state : TradeState) (T : PaperTrades) :
    OnlyBuys k T (T.updateState p state) := by
  intro j _ hj
  rw [PaperTrades.hasKey_updateState] at hj
  exact Or.inl hj

theorem onlyBuys_deleteTrade (t : PaperTrade) (T : PaperTrades) : OnlyBuys k T (T.deleteTrade t) := by
  intro j _ hj
  obtain ⟨r, hr, hkey⟩ := PaperTrades.hasKey_iff.mp hj
  exact Or.inl (PaperTrades.hasKey_iff.mpr ⟨r, List.mem_of_mem_filter hr, hkey⟩)

theorem keeps_storeOp {α : Type} {fault : Option String} {op : PaperTrades → PaperTrades × α}
    (h : ∀ T, OnlyBuys k T (op T).1) : Keeps (OnlyBuys k) (CspRoll.storeOp fault op) := by
  cases fault with
  | none => exact keeps_updates h
  | some text => exact OnlyBuys.refl

theorem keeps_ofExcept {α : Type} (x : Except CspRoll.RollError α) :
    Keeps (OnlyBuys k) (CspRoll.ofExcept x) := by
  cases x with
  | ok a => exact OnlyBuys.refl
  | error e => exact OnlyBuys.refl

theorem keeps_closeCspLeg (renv : CspRoll.RollEnv) :
    Keeps (OnlyBuys (CspRoll.closeKey renv)) (CspRoll.closeCspLeg renv) := by
  refine keeps_bind OnlyBuys.trans (keeps_ofExcept _) fun price => ?_
  show Keeps _ (if renv.dryRun then _ else _)
  split
  · exact keeps_pure OnlyBuys.refl _
  · refine keeps_bind OnlyBuys.trans (keeps_storeOp (onlyBuys_recordTrade (Or.inr rfl))) fun inserted => ?_
    split
    · exact keeps_bind OnlyBuys.trans (keeps_storeOp (onlyBuys_updateState _ _)) fun _ =>
        keeps_pure OnlyBuys.refl _
    · exact keeps_pure OnlyBuys.refl _

/-- The replacement is a sale. -/
theorem replacementTrade_sell {renv : CspRoll.RollEnv} {row : StrikeRow} {t : PaperTrade}
    (h : CspRoll.replacementTrade renv row = some t) : t.action = .sell :=
  congrArg PaperTrade.UniqueKey.action (validate_eq_some h).1

theorem keeps_openResolvedLeg (renv : CspRoll.RollEnv) (row : StrikeRow) :
    Keeps (OnlyBuys k) (CspRoll.openResolvedLeg renv row) := by
  refine keeps_fromOption_bind OnlyBuys.refl fun t ht => ?_
  split
  · exact keeps_pure OnlyBuys.refl t
  · exact keeps_bind OnlyBuys.trans (keeps_storeOp (onlyBuys_recordTrade (Or.inl (replacementTrade_sell ht))))
      fun _ => keeps_pure OnlyBuys.refl t

theorem keeps_openNewCspLeg (renv : CspRoll.RollEnv) (ivr : Option ℚ) (index : ℕ) (expiry : Option Date) :
    Keeps (OnlyBuys k) (CspRoll.openNewCspLeg renv ivr index expiry) := by
  refine keeps_bind OnlyBuys.trans (keeps_ofExcept _) fun row => ?_
  refine keeps_fromOption_bind OnlyBuys.refl fun t ht => ?_
  split
  · exact keeps_pure OnlyBuys.refl t
  · exact keeps_bind OnlyBuys.trans (keeps_ofExcept _) fun _ =>
      keeps_bind OnlyBuys.trans (keeps_storeOp (onlyBuys_recordTrade (Or.inl (replacementTrade_sell ht))))
        fun _ => keeps_pure OnlyBuys.refl t

theorem keeps_openOrRestore (renv : CspRoll.RollEnv) (close : PaperTrade) {opening : CspRoll.Roll PaperTrade}
    (h : Keeps (OnlyBuys k) opening) : Keeps (OnlyBuys k) (CspRoll.openOrRestore renv close opening) := by
  intro T
  have hT := h T
  unfold CspRoll.openOrRestore
  cases hrun : opening T with
  | ok t T' => rwa [hrun] at hT
  | error e T' =>
    rw [hrun] at hT
    simp only
    split
    · exact OnlyBuys.trans _ _ _ hT (onlyBuys_deleteTrade close T')
    · exact hT

theorem keeps_rollDownAndOut (renv : CspRoll.RollEnv) (ivr : Option ℚ) :
    Keeps (OnlyBuys (CspRoll.closeKey renv)) (CspRoll.rollDownAndOut renv ivr) :=
  keeps_bind OnlyBuys.trans (keeps_ofExcept _) fun row =>
    keeps_bind OnlyBuys.trans (keeps_closeCspLeg renv) fun close =>
      keeps_bind OnlyBuys.trans (keeps_openOrRestore renv close (keeps_openResolvedLeg renv row))
        fun _ => keeps_pure OnlyBuys.refl _

theorem keeps_letThrough {α : Type} {x : CspRoll.Roll α} (h : Keeps (OnlyBuys k) x) :
    Keeps (OnlyBuys k) (letThrough x) := by
  intro T
  have hT := h T
  unfold letThrough
  cases hrun : x T <;> rwa [hrun] at hT

theorem keeps_reporting {x : CspRoll.Roll Unit} (h : Keeps (OnlyBuys k) x) :
    Keeps (OnlyBuys k) (reporting x) := by
  intro T
  have hT := h T
  unfold reporting
  cases hrun : x T with
  | ok u T' => rwa [hrun] at hT
  | error e T' =>
    rw [hrun] at hT
    simp only
    split <;> exact hT

end OnlyBuys

/-! ### What a closing action writes -/

section Closing

variable {env : ActionEnv} {positions : List PaperPosition} {action : ApprovedAction} {pos : PaperPosition}
  {T T' : PaperTrades}

/-- The trade rebuilt from a position is closed under the position's key, and whole. -/
theorem existingTrade_spec {existing : PaperTrade} (h : existingTrade env.today pos = some existing) :
    CspRoll.closeKey (env.rollEnv existing) = buyKey env.today pos ∧ existing.quantity = pos.netQty.natAbs := by
  obtain ⟨hkey, hqty⟩ := validate_eq_some h
  obtain ⟨hs, hrole, hinst, -, haction⟩ := (PaperTrade.UniqueKey.mk.injEq ..).mp hkey
  rw [Int.abs_eq_natAbs] at hqty
  refine ⟨?_, by exact_mod_cast hqty⟩
  show PaperTrade.UniqueKey.mk existing.strategyName existing.legRole existing.instrumentKey env.today
    existing.action.opposite = _
  rw [hs, hrole, hinst, haction]
  rfl

theorem keeps_closeLeg : Keeps (OnlyBuys (buyKey env.today pos)) (closeLeg env pos) := by
  refine keeps_fromOption_bind OnlyBuys.refl fun existing hexisting => ?_
  rw [← (existingTrade_spec hexisting).1]
  exact keeps_bind OnlyBuys.trans (keeps_letThrough (keeps_closeCspLeg _)) fun _ =>
    keeps_pure OnlyBuys.refl existing

theorem keeps_openNew {k : PaperTrade.UniqueKey} (existing : PaperTrade) :
    Keeps (OnlyBuys k) (openNew env existing) :=
  keeps_reporting (keeps_bind OnlyBuys.trans (keeps_openNewCspLeg _ _ _ _) fun _ => keeps_pure OnlyBuys.refl ())

theorem keeps_rollDown : Keeps (OnlyBuys (buyKey env.today pos)) (rollDown env pos) := by
  refine keeps_fromOption_bind OnlyBuys.refl fun existing hexisting => ?_
  rw [← (existingTrade_spec hexisting).1]
  exact keeps_reporting (keeps_bind OnlyBuys.trans (keeps_rollDownAndOut _ _) fun _ =>
    keeps_storeOp (onlyBuys_updateState _ _))

/-- **A closing action buys back the first short put** of the list and nothing else. -/
theorem keeps_applyAction (h : action.actionType ∈ closingActions) (hpos : shortPut positions = some pos) :
    Keeps (OnlyBuys (buyKey env.today pos)) (applyAction env positions action) := by
  simp only [closingActions, List.mem_cons, List.not_mem_nil, or_false] at h
  rcases h with h | h | h
  · rw [applyAction_closeAndWait h hpos]
    exact keeps_bind OnlyBuys.trans keeps_closeLeg fun _ => keeps_pure OnlyBuys.refl _
  · rw [applyAction_rollDownAndOut h hpos]
    exact keeps_bind OnlyBuys.trans keeps_rollDown fun _ => keeps_pure OnlyBuys.refl _
  · rw [applyAction_closeAndRoll h hpos]
    exact keeps_bind OnlyBuys.trans keeps_closeLeg fun existing =>
      keeps_bind OnlyBuys.trans (keeps_openNew existing) fun _ => keeps_pure OnlyBuys.refl _

/-- What was passed to `record_trade` begins with the purchase of the position; the rest is sold. -/
def BuysFirst (today : Date) (pos : PaperPosition) (T T' : PaperTrades) : Prop :=
  ∃ W, Wrote T ((buyKey today pos, pos.netQty.natAbs) :: W) T' ∧ ∀ e ∈ W, e.1.action = .sell

theorem closeCspLeg_wrote {existing t : PaperTrade} (hexisting : existingTrade env.today pos = some existing)
    (h : CspRoll.closeCspLeg (env.rollEnv existing) T = .ok t T') : BuysFirst env.today pos T T' := by
  obtain ⟨price, -, rfl, -, hT⟩ := CspRoll.closeCspLeg_ok rfl h
  obtain ⟨hkey, hqty⟩ := existingTrade_spec hexisting
  have hrecord : Wrote T [(buyKey env.today pos, pos.netQty.natAbs)]
      (T.recordTrade (CspRoll.closeTrade (env.rollEnv existing) price)).1 := by
    have hwrote := (Wrote.nil (T := T)).record (CspRoll.closeTrade (env.rollEnv existing) price)
    rw [CspRoll.closeTrade_uniqueKey, hkey] at hwrote
    rw [← hqty]
    exact hwrote
  refine ⟨[], ?_, by simp⟩
  rcases hT with ⟨hdup, rfl⟩ | ⟨-, -, rfl⟩
  · rw [PaperTrades.recordTrade_duplicate hdup] at hrecord
    exact hrecord
  · exact hrecord.state _ _

theorem closeLeg_wrote {existing : PaperTrade} (h : closeLeg env pos T = .ok existing T') :
    BuysFirst env.today pos T T' := by
  obtain ⟨existing, U, hbuilt, h⟩ := bind_ok_iff.mp h
  obtain ⟨hexisting, rfl⟩ := fromOption_ok_iff.mp hbuilt
  obtain ⟨t, U, hclose, h⟩ := bind_ok_iff.mp h
  obtain ⟨-, rfl⟩ := pure_ok_iff.mp h
  unfold letThrough at hclose
  cases hrun : CspRoll.closeCspLeg (env.rollEnv existing) T with
  | ok t' V =>
    rw [hrun] at hclose
    obtain ⟨rfl, rfl⟩ := EStateM.Result.ok.inj hclose
    exact closeCspLeg_wrote hexisting hrun
  | error e V =>
    rw [hrun] at hclose
    exact absurd hclose (by simp)

theorem BuysFirst.trans {today : Date} {U : PaperTrades} (h : BuysFirst today pos T U)
    {W : List (PaperTrade.UniqueKey × ℕ)} (hW : Wrote U W T') (hsell : ∀ e ∈ W, e.1.action = .sell) :
    BuysFirst today pos T T' := by
  obtain ⟨V, hV, hVsell⟩ := h
  refine ⟨V ++ W, hV.trans hW, fun e he => ?_⟩
  rcases List.mem_append.mp he with he | he
  · exact hVsell e he
  · exact hsell e he

/-- A recorded opening is a sale. -/
theorem recordOpen_wrote {fault : Option String} {t : PaperTrade} (ht : t.action = .sell) {b : Bool}
    (h : CspRoll.storeOp fault (fun T => T.recordTrade t) T = .ok b T') :
    ∃ W, Wrote T W T' ∧ ∀ e ∈ W, e.1.action = .sell := by
  obtain ⟨-, hrecord⟩ := CspRoll.storeOp_ok_iff.mp h
  obtain rfl := congrArg Prod.fst hrecord
  have hsell : t.uniqueKey.action = .sell := ht
  exact ⟨_, Wrote.nil.record t, by simpa using hsell⟩

theorem openResolvedLeg_wrote {renv : CspRoll.RollEnv} {row : StrikeRow} {t : PaperTrade}
    (hdry : renv.dryRun = false)
    (h : CspRoll.openResolvedLeg renv row T = .ok t T') : ∃ W, Wrote T W T' ∧ ∀ e ∈ W, e.1.action = .sell := by
  obtain ⟨t, U, hbuilt, h⟩ := bind_ok_iff.mp h
  obtain ⟨ht, rfl⟩ := fromOption_ok_iff.mp hbuilt
  rw [hdry, if_neg Bool.false_ne_true] at h
  obtain ⟨b, U, hrecord, h⟩ := bind_ok_iff.mp h
  obtain ⟨-, rfl⟩ := pure_ok_iff.mp h
  exact recordOpen_wrote (replacementTrade_sell ht) hrecord

theorem openNewCspLeg_wrote {renv : CspRoll.RollEnv} {ivr : Option ℚ} {index : ℕ}
    {expiry : Option Date} {t : PaperTrade}
    (hdry : renv.dryRun = false) (h : CspRoll.openNewCspLeg renv ivr index expiry T = .ok t T') :
    ∃ W, Wrote T W T' ∧ ∀ e ∈ W, e.1.action = .sell := by
  obtain ⟨row, U, hrow, h⟩ := bind_ok_iff.mp h
  obtain ⟨-, rfl⟩ := CspRoll.ofExcept_ok_iff.mp hrow
  obtain ⟨t, U, hbuilt, h⟩ := bind_ok_iff.mp h
  obtain ⟨ht, rfl⟩ := fromOption_ok_iff.mp hbuilt
  rw [hdry, if_neg Bool.false_ne_true] at h
  obtain ⟨_, U, hltp, h⟩ := bind_ok_iff.mp h
  obtain ⟨-, rfl⟩ := CspRoll.ofExcept_ok_iff.mp hltp
  obtain ⟨b, U, hrecord, h⟩ := bind_ok_iff.mp h
  obtain ⟨-, rfl⟩ := pure_ok_iff.mp h
  exact recordOpen_wrote (replacementTrade_sell ht) hrecord

/-- What `_open_new` leaves: its sale, or nothing if it failed. -/
theorem openNew_wrote {existing : PaperTrade} {failures : List CspRoll.RollError}
    (h : openNew env existing T = .ok failures T') : ∃ W, Wrote T W T' ∧ ∀ e ∈ W, e.1.action = .sell := by
  unfold openNew reporting at h
  split at h
  next u U hrun =>
    obtain ⟨-, rfl⟩ := EStateM.Result.ok.inj h
    obtain ⟨t, V, hopen, hpure⟩ := bind_ok_iff.mp hrun
    obtain ⟨-, rfl⟩ := pure_ok_iff.mp hpure
    exact openNewCspLeg_wrote rfl hopen
  next e U hrun =>
    have hU : U = T := by
      rcases bind_error_iff.mp hrun with hopen | ⟨t, V, -, hpure⟩
      · exact (CspRoll.openNewCspLeg_error hopen).1
      · exact (pure_ne_error hpure).elim
    split at h
    · obtain ⟨-, rfl⟩ := EStateM.Result.ok.inj h
      exact ⟨[], hU ▸ Wrote.nil, by simp⟩
    · exact absurd h (by simp)

/-- A defensive roll with nothing to report has closed the position and sold its replacement. -/
theorem rollDown_wrote (h : rollDown env pos T = .ok [] T') : BuysFirst env.today pos T T' := by
  obtain ⟨existing, U, hbuilt, h⟩ := bind_ok_iff.mp h
  obtain ⟨hexisting, rfl⟩ := fromOption_ok_iff.mp hbuilt
  unfold reporting at h
  split at h
  next u U hrun =>
    obtain ⟨-, rfl⟩ := EStateM.Result.ok.inj h
    obtain ⟨result, V, hroll, hmark⟩ := bind_ok_iff.mp hrun
    obtain ⟨row, V', hrow, hroll⟩ := bind_ok_iff.mp hroll
    obtain ⟨-, rfl⟩ := CspRoll.ofExcept_ok_iff.mp hrow
    obtain ⟨close, V', hclose, hroll⟩ := bind_ok_iff.mp hroll
    obtain ⟨opened, V'', hopen, hroll⟩ := bind_ok_iff.mp hroll
    obtain ⟨-, rfl⟩ := pure_ok_iff.mp hroll
    obtain ⟨-, hmark⟩ := CspRoll.storeOp_ok_iff.mp hmark
    obtain rfl := congrArg Prod.fst hmark
    unfold CspRoll.openOrRestore at hopen
    split at hopen
    next t W' hsold =>
      obtain ⟨rfl, rfl⟩ := EStateM.Result.ok.inj hopen
      obtain ⟨W, hW, hsell⟩ := openResolvedLeg_wrote rfl hsold
      have hmarked : Wrote V' W (W'.markTradeDefended pos.strategyName pos.legRole result.newInstrumentKey) :=
        hW.state _ _
      exact (closeCspLeg_wrote hexisting hclose).trans hmarked hsell
    next => split at hopen <;> exact absurd hopen (by simp)
  next e U hrun =>
    split at h
    · exact absurd (EStateM.Result.ok.inj h).1 (by simp)
    · exact absurd h (by simp)

/-- **A closing action with nothing to report** bought back the first short put of the list. -/
theorem applyAction_wrote (h : action.actionType ∈ closingActions)
    (hpos : shortPut positions = some pos) {r : Applied}
    (hrun : applyAction env positions action T = .ok r T') (hr : r.failures = []) :
      BuysFirst env.today pos T T' := by
  simp only [closingActions, List.mem_cons, List.not_mem_nil, or_false] at h
  rcases h with h | h | h
  · rw [applyAction_closeAndWait h hpos] at hrun
    obtain ⟨existing, U, hclose, hrun⟩ := bind_ok_iff.mp hrun
    obtain ⟨-, rfl⟩ := pure_ok_iff.mp hrun
    exact closeLeg_wrote hclose
  · rw [applyAction_rollDownAndOut h hpos] at hrun
    obtain ⟨failures, U, hroll, hrun⟩ := bind_ok_iff.mp hrun
    obtain ⟨rfl, rfl⟩ := pure_ok_iff.mp hrun
    obtain rfl : failures = [] := hr
    exact rollDown_wrote hroll
  · rw [applyAction_closeAndRoll h hpos] at hrun
    obtain ⟨existing, U, hclose, hrun⟩ := bind_ok_iff.mp hrun
    obtain ⟨failures, V, hopen, hrun⟩ := bind_ok_iff.mp hrun
    obtain ⟨-, rfl⟩ := pure_ok_iff.mp hrun
    obtain ⟨W, hW, hsell⟩ := openNew_wrote hopen
    exact (closeLeg_wrote hclose).trans hW hsell

/-- The purchase is there afterwards. -/
theorem BuysFirst.hasKey {today : Date} (h : BuysFirst today pos T T') :
    T'.hasKey (buyKey today pos) = true := by
  obtain ⟨W, hW, -⟩ := h
  rw [hW.hasKey]
  simp

/-- **A position is hit** exactly when its key was free and it is the one bought back. -/
theorem BuysFirst.newRow_iff {today : Date} {p : PaperPosition} (h : BuysFirst today pos T T')
    (hq : buyKey today p = buyKey today pos → p = pos) :
    NewRow T T' (buyKey today p) p.netQty.natAbs ↔ T.hasKey (buyKey today p) = false ∧ p = pos := by
  obtain ⟨W, hW, hsell⟩ := h
  rw [hW.newRow_iff]
  refine and_congr_right fun _ => ⟨fun hfirst => ?_, ?_⟩
  · obtain ⟨e, he, -⟩ := Option.map_eq_some_iff.mp hfirst
    have hkey : e.1 = buyKey today p := by simpa using List.find?_some he
    rcases List.mem_cons.mp (List.mem_of_find?_eq_some he) with rfl | hmem
    · exact hq hkey.symm
    · exact absurd ((hsell e hmem).symm.trans (congrArg PaperTrade.UniqueKey.action hkey)) (by simp [buyKey])
  · rintro rfl
    simp [firstQty]

end Closing

/-! ### A day on which every action is carried out -/

/-- A put with a delta of −0.22. -/
def calmRow : StrikeRow :=
  { side := "PE", strike := 23000, delta := -22 / 100, iv := 0, ltp := 100, mid := 100, bid := 0, ask := 0, oi := 0
    instrumentKey := "NSE_FO|1" }

/-- It alone is quoted. -/
def calmChain : CspRoll.RawChain :=
  .entries [{ strikePrice := 23000, putOptions := { instrumentKey := "NSE_FO|1", delta := -22 / 100, ltp := some 100 } }]

/-- An outside in which every action is carried out: one NIFTY put is listed, two weeks out. -/
def calmEnv (today : Date) : ActionEnv where
  today
  broker := { getLtp := fun _ => .ok fun _ => some (.number 1), getOptionChain := fun _ => .ok calmChain }
  lookup := ⟨[{ instrumentKey := "NSE_FO|1", instrumentType := some "PE", underlyingSymbol := "NIFTY"
                expiry := some (today + 14) }]⟩

theorem allOptionExpiries_calm (today : Date) :
    (calmEnv today).lookup.allOptionExpiries "NIFTY" = [today + 14] := by
  simp [calmEnv, InstrumentLookup.allOptionExpiries]

theorem rankedPuts_calm (expiry : Date) : CspRoll.rankedPuts calmChain none expiry = .ok [calmRow] := by
  have hrows : filterStrikesByDelta
      [{ strikePrice := 23000, putOptions :=
        { instrumentKey := "NSE_FO|1", delta := -22 / 100, ltp := some 100 } }]
      "PE" (1 / 5) (27 / 100) = [calmRow] := by decide +kernel
  simp only [CspRoll.rankedPuts, calmChain, CspRoll.ivrToDeltaRange, hrows]
  rfl

theorem daysBetween_calm (today : Date) : Date.daysBetween today (today + 14) = 14 := by
  simp [Date.daysBetween]

theorem selectDownAndOut_calm (today : Date) (existing : PaperTrade) :
    CspRoll.selectDownAndOut ((calmEnv today).rollEnv existing) none = .ok calmRow := by
  have hlisted : ((calmEnv today).rollEnv existing).lookup.allOptionExpiries "NIFTY" = [today + 14] :=
    allOptionExpiries_calm today
  have hday : ((calmEnv today).rollEnv existing).rollDate = today := rfl
  have hchain : ((calmEnv today).rollEnv existing).broker.getOptionChain = fun _ => .ok calmChain := rfl
  have hquoted : calmChain ≠ .entries [] := by decide
  unfold CspRoll.selectDownAndOut
  simp only [hlisted, hday, hchain, daysBetween_calm, List.filter_cons, List.filter_nil]
  simp [Bind.bind, Except.bind, hquoted, rankedPuts_calm, daysBetween_calm]
  rfl

theorem selectReplacement_calm (today : Date) (existing : PaperTrade) :
    CspRoll.selectReplacement ((calmEnv today).rollEnv existing) none 0 none = .ok calmRow := by
  have hlisted : ((calmEnv today).rollEnv existing).lookup.allOptionExpiries "NIFTY" = [today + 14] :=
    allOptionExpiries_calm today
  have hday : ((calmEnv today).rollEnv existing).rollDate = today := rfl
  have hchain : ((calmEnv today).rollEnv existing).broker.getOptionChain = fun _ => .ok calmChain := rfl
  have hquoted : calmChain ≠ .entries [] := by decide
  have hmonthly : ((calmEnv today).rollEnv existing).lookup.expiryCandidates "NIFTY" today ["monthly"] none =
      [("monthly", today + 14)] := by
    simp [InstrumentLookup.expiryCandidates, hlisted, daysBetween_calm, isLastOfMonth]
  unfold CspRoll.selectReplacement
  rw [hday, hmonthly, hchain]
  simp [Bind.bind, Except.bind, hquoted, rankedPuts_calm]
  rfl
section Calm

variable (today : Date) (existing : PaperTrade) (T : PaperTrades)

theorem replacementTrade_calm : ∃ t, CspRoll.replacementTrade
    ((calmEnv today).rollEnv existing) calmRow = some t := by
  refine exists_validate_iff.mpr ⟨existing.paperPrefix, by decide, by decide, ?_, by decide +kernel⟩
  exact_mod_cast existing.quantity_pos

theorem closePrice_calm : ∃ price, CspRoll.closePrice ((calmEnv today).rollEnv existing) = .ok price := by
  refine ⟨⟨1, one_pos⟩, ?_⟩
  have hpaise : quantizePaise 1 = 1 := by decide +kernel
  have hltp : ((calmEnv today).rollEnv existing).broker.getLtp = fun _ => .ok fun _ => some (.number 1) := rfl
  unfold CspRoll.closePrice
  rw [hltp]
  simp [Bind.bind, Except.bind, hpaise]
  rfl

theorem closeCspLeg_calm : ∃ t T', CspRoll.closeCspLeg ((calmEnv today).rollEnv existing) T = .ok t T' := by
  obtain ⟨price, hprice⟩ := closePrice_calm today existing
  have hget : CspRoll.ofExcept (CspRoll.closePrice ((calmEnv today).rollEnv existing)) T = .ok price T :=
    CspRoll.ofExcept_ok_iff.mpr ⟨hprice, rfl⟩
  have hrecord : CspRoll.storeOp ((calmEnv today).rollEnv existing).faults.recordClose
      (fun T => T.recordTrade (CspRoll.closeTrade ((calmEnv today).rollEnv existing) price)) T =
      .ok (T.recordTrade (CspRoll.closeTrade ((calmEnv today).rollEnv existing) price)).2
        (T.recordTrade (CspRoll.closeTrade ((calmEnv today).rollEnv existing) price)).1 := rfl
  have hdry : ((calmEnv today).rollEnv existing).dryRun = false := rfl
  unfold CspRoll.closeCspLeg
  rw [bind_of_ok hget]
  simp only [hdry, Bool.false_eq_true, if_false]
  rw [bind_of_ok hrecord]
  cases (T.recordTrade (CspRoll.closeTrade ((calmEnv today).rollEnv existing) price)).2 with
  | false => exact ⟨_, _, rfl⟩
  | true => exact ⟨_, _, rfl⟩

theorem openResolvedLeg_calm :
    ∃ t T', CspRoll.openResolvedLeg ((calmEnv today).rollEnv existing) calmRow T = .ok t T' := by
  obtain ⟨t, ht⟩ := replacementTrade_calm today existing
  exact ⟨t, _, by rw [CspRoll.openResolvedLeg, bind_of_ok (fromOption_of_some ht T)]; rfl⟩

theorem openNewCspLeg_calm :
    ∃ t T', CspRoll.openNewCspLeg ((calmEnv today).rollEnv existing) none 0 none T = .ok t T' := by
  obtain ⟨t, ht⟩ := replacementTrade_calm today existing
  have hrow : CspRoll.ofExcept (CspRoll.selectReplacement ((calmEnv today).rollEnv existing) none 0 none) T =
      .ok calmRow T := CspRoll.ofExcept_ok_iff.mpr ⟨selectReplacement_calm today existing, rfl⟩
  exact ⟨t, _, by rw [CspRoll.openNewCspLeg, bind_of_ok hrow, bind_of_ok (fromOption_of_some ht T)]; rfl⟩

theorem openNew_calm : ∃ T', openNew (calmEnv today) existing T = .ok [] T' := by
  obtain ⟨t, T', hopen⟩ := openNewCspLeg_calm today existing T
  exact ⟨T', by rw [openNew, reporting, bind_of_ok hopen]; rfl⟩

variable {today existing} {positions : List PaperPosition} {action : ApprovedAction} {pos : PaperPosition}

theorem closeLeg_calm (h : existingTrade (calmEnv today).today pos = some existing) :
    ∃ T', closeLeg (calmEnv today) pos T = .ok existing T' := by
  obtain ⟨t, T', hclose⟩ := closeCspLeg_calm today existing T
  have hthrough : letThrough (CspRoll.closeCspLeg ((calmEnv today).rollEnv existing)) T = .ok t T' := by
    rw [letThrough, hclose]
  exact ⟨T', by rw [closeLeg, bind_of_ok (fromOption_of_some h T), bind_of_ok hthrough]; rfl⟩

theorem rollDown_calm (h : existingTrade (calmEnv today).today pos = some existing) :
    ∃ T', rollDown (calmEnv today) pos T = .ok [] T' := by
  obtain ⟨t, U, hclose⟩ := closeCspLeg_calm today existing T
  obtain ⟨t', V, hopen⟩ := openResolvedLeg_calm today existing U
  have hrow : CspRoll.ofExcept (CspRoll.selectDownAndOut ((calmEnv today).rollEnv existing) none) T =
      .ok calmRow T := CspRoll.ofExcept_ok_iff.mpr ⟨selectDownAndOut_calm today existing, rfl⟩
  have hrestore : CspRoll.openOrRestore ((calmEnv today).rollEnv existing) t
      (CspRoll.openResolvedLeg ((calmEnv today).rollEnv existing) calmRow) U = .ok t' V := by
    rw [CspRoll.openOrRestore, hopen]
  have hroll : CspRoll.rollDownAndOut ((calmEnv today).rollEnv existing) none T =
      .ok (CspRoll.rollResult ((calmEnv today).rollEnv existing) t t') V := by
    rw [CspRoll.rollDownAndOut, bind_of_ok hrow, bind_of_ok hclose, bind_of_ok hrestore]
    rfl
  exact ⟨_, by rw [rollDown, bind_of_ok (fromOption_of_some h T), reporting, bind_of_ok hroll]; rfl⟩

/-- A closing action is carried out. -/
theorem applyAction_calm (h : action.actionType ∈ closingActions) (hpos : shortPut positions = some pos)
    (hexisting : existingTrade (calmEnv today).today pos = some existing) :
    ∃ r T', applyAction (calmEnv today) positions action T = .ok r T' ∧ r.failures = [] := by
  simp only [closingActions, List.mem_cons, List.not_mem_nil, or_false] at h
  rcases h with h | h | h
  · obtain ⟨U, hclose⟩ := closeLeg_calm T hexisting
    exact ⟨_, U, by rw [applyAction_closeAndWait h hpos, bind_of_ok hclose]; rfl, rfl⟩
  · obtain ⟨U, hroll⟩ := rollDown_calm T hexisting
    exact ⟨_, U, by rw [applyAction_rollDownAndOut h hpos, bind_of_ok hroll]; rfl, rfl⟩
  · obtain ⟨U, hclose⟩ := closeLeg_calm T hexisting
    obtain ⟨V, hopen⟩ := openNew_calm today existing U
    exact ⟨_, V, by rw [applyAction_closeAndRoll h hpos, bind_of_ok hclose, bind_of_ok hopen]; rfl, rfl⟩

end Calm

/-! ### A tick -/

section Tick

variable {positions : List PaperPosition} {pos : PaperPosition}

/-- What the monitor executes of the event is a closing action, a roll without a leg, or nothing. -/
def Known (event : SignalEvent) : Prop :=
  ∀ action, dispatched event = some action →
    action.actionType ∈ closingActions ∨ (action.actionType = "ROLL" ∧ action.legsToOpen = [])

theorem known_of_mem {w : Watch} {market : OptionChain} {ems : List (PaperPosition × SignalEvent)}
    (h : w.emissions market positions = some ems) {p : PaperPosition} {e : SignalEvent} (hmem : (p, e) ∈ ems) :
    Known e := by
  obtain ⟨-, -, es, hes, he⟩ := (mem_emissions h).mp hmem
  intro action haction
  rcases mem_positionEvents hes he with ⟨r, rfl⟩ | ⟨leg, -, rfl⟩
  · by_cases hr : r.severity = .action
    · rw [dispatched_eventOf hr] at haction
      obtain rfl := Option.some.inj haction
      exact Or.inl (autoActionOf_mem r.exitSignal)
    · have hsev : (w.eventOf market p r).severity = r.severity := rfl
      rw [dispatched, hsev, decide_eq_false hr] at haction
      exact absurd haction (by simp)
  · have hsev : (w.rollEvent market p leg).severity = .action := rfl
    rw [dispatched, hsev, isAutoExecuted_rollEvent, autoAction_rollEvent] at haction
    obtain rfl := Option.some.inj haction
    exact Or.inr ⟨rfl, rfl⟩

variable (hpos : shortPut positions = some pos)

include hpos

/-- An event that closes nothing changes nothing. -/
theorem run_of_not_closing {event : SignalEvent} (hknown : Known event) (hidle : isClosing event = false)
    {action : ApprovedAction} (haction : dispatched event = some action) (env : ActionEnv) (T : PaperTrades) :
    applyAction env positions action T = .error .rollWithoutLegs T := by
  rcases hknown action haction with hclosing | ⟨hroll, hlegs⟩
  · rw [isClosing, haction, Option.any_some, decide_eq_false_iff_not] at hidle
    exact absurd hclosing hidle
  · rw [applyAction_roll hroll hlegs hpos]
    rfl

theorem route_of_not_closing {event : SignalEvent} (hknown : Known event) (hidle : isClosing event = false)
    (env : ActionEnv) (T : PaperTrades) : route env positions event T = T := by
  unfold route
  cases haction : dispatched event with
  | none => rfl
  | some action => simp only [run_of_not_closing hpos hknown hidle haction env T, finalState_error]

theorem hits_of_not_closing {event : SignalEvent} (hknown : Known event) (hidle : isClosing event = false)
    (env : ActionEnv) (p : PaperPosition) (T : PaperTrades) : Hits env positions event p T := by
  refine ⟨fun k _ hk => ?_, fun action r T' haction hrun => ?_⟩
  · rw [route_of_not_closing hpos hknown hidle] at hk
    exact Or.inl hk
  · rw [run_of_not_closing hpos hknown hidle haction] at hrun
    exact absurd hrun (by simp)

/-- A closing event of the first short put hits it. -/
theorem hits_of_closing {event : SignalEvent} (hclosing : isClosing event = true) {env : ActionEnv}
    {T : PaperTrades}
    (hfree : T.hasKey (buyKey env.today pos) = false) : Hits env positions event pos T := by
  obtain ⟨action, haction, hmem⟩ := (Option.any_eq_true ..).mp hclosing
  have hmem : action.actionType ∈ closingActions := of_decide_eq_true hmem
  refine ⟨?_, fun action' r T' haction' hrun hr => ?_⟩
  · have hkeeps : OnlyBuys (buyKey env.today pos) T (finalState (applyAction env positions action T)) :=
      keeps_applyAction hmem hpos T
    rw [route, haction]
    exact hkeeps
  · obtain rfl := Option.some.inj (haction.symm.trans haction')
    exact ((applyAction_wrote hmem hpos hrun hr).newRow_iff fun _ => rfl).mpr ⟨hfree, rfl⟩

/-- **A tick with at most one closing event**, that of the first short put, hits whatever fired. -/
theorem allHit_of_closings {today : Date} {ems : List (PaperPosition × SignalEvent)} :
    ∀ {envs : ℕ → ActionEnv} {T : PaperTrades}, (∀ em ∈ ems, Known em.2) → (∀ n, (envs n).today = today) →
      (closingPuts ems = [] ∨ closingPuts ems = [pos] ∧ T.hasKey (buyKey today pos) = false) →
        AllHit positions envs ems T := by
  induction ems with
  | nil => exact fun _ _ _ => trivial
  | cons em ems ih =>
    obtain ⟨p, event⟩ := em
    intro envs T hknown hday hclosings
    have hevent := hknown _ List.mem_cons_self
    have hrest : ∀ em ∈ ems, Known em.2 := fun em hem => hknown em (List.mem_cons_of_mem _ hem)
    cases he : isClosing event with
    | false =>
      rw [closingPuts_cons, he] at hclosings
      refine ⟨hits_of_not_closing hpos hevent he _ p T, ?_⟩
      rw [route_of_not_closing hpos hevent he]
      exact ih hrest (fun n => hday (n + 1)) hclosings
    | true =>
      rw [closingPuts_cons, he] at hclosings
      rcases hclosings with h | ⟨h, hfree⟩
      · exact absurd h (by simp)
      · obtain ⟨rfl, hnone⟩ := List.cons.inj h
        exact ⟨hits_of_closing hpos he (by rwa [hday 0]), ih hrest (fun n => hday (n + 1)) (Or.inl hnone)⟩

/-- **On a day on which every action is carried out** a tick that hits whatever fired has at most
one closing event, that of the first short put, which has not been bought back before. -/
theorem closings_of_calm {today : Date} {existing : PaperTrade}
    (hexisting : existingTrade today pos = some existing)
    (hinj : ∀ p ∈ positions, buyKey today p = buyKey today pos → p = pos)
    {ems : List (PaperPosition × SignalEvent)} :
    ∀ {T : PaperTrades}, (∀ em ∈ ems, Known em.2) → (∀ em ∈ ems, em.1 ∈ positions) →
      AllHit positions (fun _ => calmEnv today) ems T →
        closingPuts ems = [] ∨ closingPuts ems = [pos] ∧ T.hasKey (buyKey today pos) = false := by
  induction ems with
  | nil => exact fun _ _ _ => Or.inl rfl
  | cons em ems ih =>
    obtain ⟨p, event⟩ := em
    intro T hknown hmem ⟨hhit, hrest⟩
    have hevent := hknown _ List.mem_cons_self
    have hknown' : ∀ em ∈ ems, Known em.2 := fun em hem => hknown em (List.mem_cons_of_mem _ hem)
    have hmem' : ∀ em ∈ ems, em.1 ∈ positions := fun em hem => hmem em (List.mem_cons_of_mem _ hem)
    have hclosings := ih hknown' hmem' hrest
    rw [closingPuts_cons]
    cases he : isClosing event with
    | false =>
      rw [route_of_not_closing hpos hevent he] at hclosings
      exact hclosings
    | true =>
      obtain ⟨action, haction, hclosing⟩ := (Option.any_eq_true ..).mp he
      have hclosing : action.actionType ∈ closingActions := of_decide_eq_true hclosing
      obtain ⟨r, T', hrun, hr⟩ := applyAction_calm T hclosing hpos hexisting
      have hbuys := applyAction_wrote hclosing hpos hrun hr
      have hroute : route (calmEnv today) positions event T = T' := by
        rw [route, haction]
        simp only [hrun, finalState_ok]
      obtain ⟨hfree, rfl⟩ := (hbuys.newRow_iff (hinj p (hmem _ List.mem_cons_self))).mp
        (hhit.2 action r T' haction hrun hr)
      -- the key of a second closing event would be taken
      rw [hroute] at hclosings
      rcases hclosings with hnone | ⟨-, htaken⟩
      · exact Or.inr ⟨by rw [hnone]; rfl, hfree⟩
      · exact absurd (hbuys.hasKey.symm.trans htaken) (by simp)

end Tick

section Ledger

variable {T : PaperTrades} {lookup : Option InstrumentLookup} {passed : PaperPosition → Bool}

theorem mem_openPuts {p : PaperPosition} (h : p ∈ openPuts T lookup passed) :
    p ∈ T.getPositions lookup strategyName :=
  List.mem_of_mem_filter h

/-- A put of the ledger is rebuilt as a trade. -/
theorem existingTrade_openPuts {p : PaperPosition} (h : p ∈ openPuts T lookup passed)
    (hshort : isShort p = true)
    (today : Date) : ∃ existing, existingTrade today p = some existing := by
  obtain ⟨hpaper, hrole, hkey, hopen⟩ := getPositions_valid (mem_openPuts h)
  have hnet : p.netQty < 0 := by
    rw [isShort, Bool.and_eq_true, decide_eq_true_iff, decide_eq_true_iff] at hshort
    exact hshort.2
  refine exists_validate_iff.mpr ⟨?_, hrole, hkey, abs_pos.mpr hopen, (avg_pos_of_mem (mem_openPuts h)).2 hnet⟩
  rwa [(getPositions_open (mem_openPuts h)).1]

/-- The puts of the ledger are closed under different keys. -/
theorem buyKey_inj {today : Date} {p q : PaperPosition} (hp : p ∈ openPuts T lookup passed)
    (hq : q ∈ openPuts T lookup passed) (h : buyKey today p = buyKey today q) : p = q := by
  obtain ⟨-, hrole, hkey, -, -⟩ := (PaperTrade.UniqueKey.mk.injEq ..).mp h
  exact List.inj_on_of_nodup_map (T.nodup_pairs lookup strategyName) (mem_openPuts hp) (mem_openPuts hq)
    (Prod.ext hrole hkey)

theorem nodup_openPuts : (openPuts T lookup passed).Nodup :=
    (List.Nodup.of_map _ (T.nodup_pairs lookup strategyName)).filter _

end Ledger

/-- A list without repetition whose items are all the same one is empty or a singleton. -/
theorem nodup_subsingleton_iff {α : Type} {l : List α} (hl : l.Nodup) (o : Option α) (F : α → Prop) :
    (l = [] ∨ ∃ a, o = some a ∧ l = [a] ∧ F a) ↔ ∀ a ∈ l, o = some a ∧ F a := by
  constructor
  · rintro (rfl | ⟨a, ho, rfl, hF⟩) b hb
    · exact absurd hb (by simp)
    · obtain rfl := List.mem_singleton.mp hb
      exact ⟨ho, hF⟩
  · intro h
    cases l with
    | nil => exact Or.inl rfl
    | cons a l =>
      obtain ⟨ho, hF⟩ := h a List.mem_cons_self
      refine Or.inr ⟨a, ho, ?_, hF⟩
      have hnil : l = [] := by
        refine List.eq_nil_iff_forall_not_mem.mpr fun b hb => ?_
        obtain rfl := Option.some.inj (ho.symm.trans (h b (List.mem_cons_of_mem a hb)).1)
        exact (List.nodup_cons.mp hl).1 hb
      rw [hnil]

section Claim

variable (w : Watch) (lookup : Option InstrumentLookup) (passed : PaperPosition → Bool) (market : OptionChain)

/-- The puts a tick closes are at most the first short one, and that not for the second time today. -/
theorem actionsHitFired_iff_closings {ems : List (PaperPosition × SignalEvent)}
    (hems : w.emissions market (openPuts w.trades lookup passed) = some ems) :
    ActionsHitFired w lookup passed market ↔
      closingPuts ems = [] ∨ ∃ pos, shortPut (openPuts w.trades lookup passed) = some pos ∧
        closingPuts ems = [pos] ∧ w.trades.hasKey (buyKey w.today pos) = false := by
  have hknown : ∀ em ∈ ems, Known em.2 := fun em hem => known_of_mem hems (p := em.1) hem
  have hmem : ∀ em ∈ ems, em.1 ∈ openPuts w.trades lookup passed ∧ isShort em.1 = true := fun em hem =>
    ⟨((mem_emissions hems).mp hem).1, ((mem_emissions hems).mp hem).2.1⟩
  cases hpos : shortPut (openPuts w.trades lookup passed) with
  | none =>
    -- no short put, no event
    have hnil : ems = [] := by
      refine List.eq_nil_iff_forall_not_mem.mpr fun em hem => ?_
      exact List.find?_eq_none.mp hpos em.1 (hmem em hem).1 (hmem em hem).2
    subst hnil
    refine iff_of_true (fun ems' hems' => ?_) (Or.inl rfl)
    obtain rfl := Option.some.inj (hems.symm.trans hems')
    exact fun _ _ => trivial
  | some pos =>
    have hposmem := List.mem_of_find?_eq_some hpos
    constructor
    · intro hall
      obtain ⟨existing, hexisting⟩ := existingTrade_openPuts hposmem (List.find?_some hpos) w.today
      have hcalm := hall ems hems (fun _ => calmEnv w.today) fun _ => rfl
      rcases closings_of_calm hpos hexisting (fun p hp => buyKey_inj hp hposmem) hknown
        (fun em hem => (hmem em hem).1)
        hcalm with hnone | hone
      · exact Or.inl hnone
      · exact Or.inr ⟨pos, rfl, hone⟩
    · intro hclosings ems' hems' envs hday
      obtain rfl := Option.some.inj (hems.symm.trans hems')
      refine allHit_of_closings hpos hknown hday ?_
      rcases hclosings with hnone | ⟨pos', hpos', hone⟩
      · exact Or.inl hnone
      · obtain rfl := Option.some.inj hpos'
        exact Or.inr hone

/-- **Every action hits the put that fired**, whatever the actions of the tick meet, if and only if
the check raises, or a rule wants no put closed but the first short one of the list, and that one,
if it does, has not been bought back earlier the same day. -/
theorem actions_hit_fired_iff :
    ActionsHitFired w lookup passed market ↔
      (∃ p ∈ openPuts w.trades lookup passed, isShort p = true ∧ (w.putLeg market p).isSome ∧
        w.trades.getTradeState strategyName p.legRole = .reEntryPending) ∨
      ∀ p ∈ openPuts w.trades lookup passed, isShort p = true → w.actionDue market p = true →
        shortPut (openPuts w.trades lookup passed) = some p ∧ w.trades.hasKey (buyKey w.today p) = false := by
  rw [← checkSignals_eq_none_iff]
  cases hems : w.emissions market (openPuts w.trades lookup passed) with
  | none =>
    refine iff_of_true (fun ems hems' => ?_) (Or.inl (by rw [Watch.checkSignals, hems, Option.map_none]))
    rw [hems] at hems'
    exact absurd hems' (by simp)
  | some ems =>
    rw [or_iff_right (by simp [Watch.checkSignals, hems]),
      actionsHitFired_iff_closings w lookup passed market hems,
      closings_emissions hems, nodup_subsingleton_iff ((nodup_openPuts.filter _).filter _)]
    simp only [List.mem_filter, and_imp]

end Claim

/-! ### Two puts of which the second fires -/

/-- A sale of 65 puts at 120. -/
def putSale (instrumentKey : String) (h : instrumentKey ≠ "") : PaperTrade where
  strategyName := strategyName
  legRole := "short_put"
  instrumentKey
  tradeDate := 739790
  action := .sell
  quantity := 65
  price := 120
  paperPrefix := hasPaperPrefix_csp
  legRole_ne := shortPut_ne
  instrumentKey_ne := h
  quantity_pos := lot_pos
  price_pos := price120_pos

/-- The puts of two strikes are sold. -/
def twoPuts : PaperTrades :=
  (PaperTrades.empty.recordTrades
    [putSale "NSE_FO|NIFTY23000PE" key23000Put_ne, putSale "NSE_FO|NIFTY22000PE" (by decide)]).1

/-- Of the two the second is quoted at twice its credit. -/
def doubledChain : OptionChain where
  underlyingSpot := 22100
  expiry := 739830
  strikes := (Dict.empty.set 23000
      { pe := some { ltp := 130, bid := 129, ask := 131, delta := some (-22 / 100), strike := 23000 } }).set 22000
    { pe := some { ltp := 240, bid := 239, ask := 241, delta := some (-38 / 100), strike := 22000 } }

/-- The hard stop of the second put closes the first. -/
theorem hardStop_closes_other :
    ¬ ∀ (w : Watch) (lookup : Option InstrumentLookup) (passed : PaperPosition → Bool) (market : OptionChain),
      ActionsHitFired w lookup passed market := by
  intro h
  let w : Watch := { today := 739791, trades := twoPuts, text := wholeText }
  have hems : (w.emissions doubledChain (openPuts twoPuts none fun _ => true)).isSome = true := by
    decide +kernel
  obtain ⟨ems, hems⟩ := Option.isSome_iff_exists.mp hems
  have hclosings := closings_emissions hems
  have hkeys : (((openPuts twoPuts none fun _ => true).filter isShort).filter (w.actionDue doubledChain)).map
      (·.instrumentKey) = ["NSE_FO|NIFTY22000PE"] := by decide +kernel
  have hfirst : (shortPut (openPuts twoPuts none fun _ => true)).map (·.instrumentKey) =
      some "NSE_FO|NIFTY23000PE" := by
    decide +kernel
  rw [← hclosings] at hkeys
  rcases (actionsHitFired_iff_closings w none (fun _ => true) doubledChain hems).mp (h _ _ _ _) with
    hnone | ⟨pos, hpos, hone, -⟩
  · rw [hnone] at hkeys
    exact absurd hkeys (by simp)
  · have hpos' : shortPut (openPuts twoPuts none fun _ => true) = some pos := hpos
    rw [hpos', Option.map_some, Option.some.injEq] at hfirst
    rw [hone, List.map_singleton, hfirst] at hkeys
    exact absurd hkeys (by decide)

end NiftyShield.Strategy.CspNiftyV1
