import NiftyShield.Strategy.IcNiftyV2

/-!
# What executing an Iron Condor V2 action leaves

The store after `IronCondorV2.apply_action` (`src/strategy/ic_nifty_v2.py`), whether it
returns or raises, in terms of the trades the action comes to write (`planned`).

## What is proved

* `trades_applyActionV2`: the ledger is as it was where nothing is planned, and else has the
  fresh trades of the batch, with the legs of the fresh closes marked;
* `lock_of_applyActionV2`: the Zone 2 flag is only set by a `PROFIT_LOCK_ZONE2` that inserts a
  trade.
-/

namespace NiftyShield.Strategy.IronCondor

open NiftyShield.Lib NiftyShield.Lib.Raising NiftyShield.Paper

variable {ic : Condor} {env : IcEnv} {positions : List PaperPosition} {action : IcAction} {S : IcStore}

/-- An action that `apply_action` executes. -/
def Executes (ic : Condor) (action : IcAction) : Prop :=
  action.actionType ∈ allowedActions .v2 ∧ isAutoExecute action = true ∧ ic.wired = true

instance (ic : Condor) (action : IcAction) : Decidable (Executes ic action) :=
  inferInstanceAs (Decidable (_ ∧ _ ∧ _))

/-- The closing and the opening trades that an action of V2 comes to write. -/
def planned (ic : Condor) (env : IcEnv) (positions : List PaperPosition) (action : IcAction) :
    Option (List PaperTrade × List PaperTrade) :=
  if Executes ic action then
    if action.actionType ∈ closeActions then
      (plannedClose env (matched .v2 ic positions action) (closedRoles .v2 action) ic.strategyName
        (IcVersion.v2.name ++ " auto-close: " ++ triggeringSignal action)).map fun c => (c, [])
    else
      plannedRoll env (matched .v2 ic positions action)
        (closedRoles .v2 action) action.legsToOpen ic.strategyName
        (IcVersion.v2.name ++ " roll: " ++ triggeringSignal action)
  else none

/-- The positions an action of V2 closes. -/
def Condor.closing (ic : Condor) (positions : List PaperPosition) (action : IcAction) :
    List PaperPosition :=
  toClose (matched .v2 ic positions action) (closedRoles .v2 action)

/-- The legs it opens. -/
def opening (action : IcAction) : List LegSpec :=
  if action.actionType ∈ closeActions then [] else action.legsToOpen

/-- What is planned has a trade for each position closed and each leg opened. -/
theorem planned_eq_some {c o : List PaperTrade} (h : planned ic env positions action = some (c, o)) :
    ic.closing positions action ≠ [] ∧
      (∃ ltpMap notes, List.Forall₂ (fun p t => closeTrade env ltpMap ic.strategyName notes p = some t)
        (ic.closing positions action) c) ∧
      ∃ notes, List.Forall₂ (fun leg t => openTrade env ic.strategyName notes leg = some t)
      (opening action) o := by
  rw [planned] at h
  split at h
  next =>
    split at h
    next htype =>
      obtain ⟨c', hclose, hc⟩ := Option.map_eq_some_iff.mp h
      obtain ⟨rfl, rfl⟩ := Prod.mk.inj hc
      obtain ⟨ltpMap, hc⟩ := plannedClose_eq_some hclose
      refine ⟨fun hnone => ?_, ⟨ltpMap, _, hc⟩, "", ?_⟩
      · rw [Condor.closing] at hnone
        rw [plannedClose, if_pos (Or.inl hnone)] at hclose
        exact absurd hclose (by simp)
      · rw [opening, if_pos htype]
        exact List.Forall₂.nil
    next htype =>
      obtain ⟨⟨ltpMap, hc⟩, ho⟩ := plannedRoll_eq_some h
      refine ⟨fun hnone => ?_, ⟨ltpMap, _, hc⟩,
        IcVersion.v2.name ++ " roll: " ++ triggeringSignal action, ?_⟩
      · rw [Condor.closing] at hnone
        rw [plannedRoll, if_pos (Or.inl hnone)] at h
        exact absurd h (by simp)
      · rw [opening, if_neg htype]
        exact ho
  next => exact absurd h (by simp)

/-- A ledger after a batch of which the legs of some closes were marked. -/
def written (env : IcEnv) (T : PaperTrades) : Option (List PaperTrade × List PaperTrade) → PaperTrades
  | none => T
  | some (c, o) => (T.recordTrades (c ++ o)).1.markAllClosed
    (markedBefore env.faults.markClosed (fresh T.hasKey c))

/-- **What a close leaves**, however it ends. -/
theorem closeIcLegs_final (env : IcEnv) (ps : List PaperPosition) (roles : List String)
    (s notes : String) (T : PaperTrades) :
    finalState (closeIcLegs env ps roles s notes T) =
      written env T ((plannedClose env ps roles s notes).map fun c => (c, [])) := by
  unfold closeIcLegs plannedClose
  by_cases hclose : toClose ps roles = []
  · simp [hclose, pure_run, written]
  · cases hc : buildCloseTrades env (toClose ps roles) s notes with
    | none => simp [hclose, fromOption, bind_run, throw_run, written]
    | some c =>
      cases hfault : env.faults.recordTrades with
      | true => simp [hclose, fromOption, bind_run, pure_run, written]
      | false =>
        simp only [hclose, if_false, Bool.false_eq_true, or_self, fromOption, bind_run, pure_run,
          updates_run,
          Option.map_some, written, List.append_nil]
        rw [← finalState_markClosedEach IcError.database, PaperTrades.inserted_recordTrades c]
        cases markClosedEach IcError.database env.faults.markClosed (fresh T.hasKey c)
          (T.recordTrades c).1 <;> rfl

theorem rollIcLegs_written (env : IcEnv) (ps : List PaperPosition) (roles : List String)
    (legs : List LegSpec)
    (s notes : String) (T : PaperTrades) :
    finalState (rollIcLegs env ps roles legs s notes T) = written env T
      (plannedRoll env ps roles legs s notes) := by
  rw [rollIcLegs_final]
  cases plannedRoll env ps roles legs s notes <;> rfl

/-! ### The call -/

theorem finalState_onTrades {α : Type} (x : IcExec α) (S : IcStore) :
    finalState (onTrades x S) = { S with trades := finalState (x S.trades) } := by
  unfold onTrades
  cases x S.trades <;> rfl

theorem keeps_persistLock (ic : Condor) (env : IcEnv) (action : IcAction) (rolled : List PaperTrade) :
    Keeps (fun S S' : IcStore => S'.trades = S.trades) (persistLock ic env action rolled) := by
  intro S
  unfold persistLock
  split
  · split <;> rfl
  · rfl

private theorem finalState_bind_pure {α β : Type} (x : IcProgram α) (b : β) (S : IcStore) :
    finalState ((x >>= fun _ => pure b) S) = finalState (x S) := by
  rw [bind_run]
  cases x S <;> rfl

/-- What is not executed changes nothing. -/
theorem finalState_idle (h : ¬Executes ic action) :
    finalState (applyActionV2 ic env positions action S) = S := by
  unfold applyActionV2
  by_cases hallowed : action.actionType ∉ allowedActions .v2
  · rw [if_pos hallowed]
    rfl
  · have hidle : isAutoExecute action = false ∨ ic.wired = false := by
      rw [← Bool.not_eq_true, ← Bool.not_eq_true, ← not_and_or]
      exact fun hauto => h ⟨not_not.mp hallowed, hauto⟩
    rw [if_neg hallowed, finalState_bind_pure, executeV2, if_pos hidle]
    rfl

private theorem finalState_executed (h : Executes ic action) :
    finalState (applyActionV2 ic env positions action S) = finalState
      (executeV2 ic env positions action S) ∧
      ¬(isAutoExecute action = false ∨ ic.wired = false) := by
  obtain ⟨hallowed, hauto, hwired⟩ := h
  constructor
  · unfold applyActionV2
    rw [if_neg (not_not.mpr hallowed), finalState_bind_pure]
  · simp [hauto, hwired]

/-- A close. -/
theorem finalState_close (h : Executes ic action) (htype : action.actionType ∈ closeActions) :
    finalState (applyActionV2 ic env positions action S) =
      { S with trades := written env S.trades (planned ic env positions action) } := by
  obtain ⟨hfinal, hauto⟩ := @finalState_executed ic env positions action S h
  rw [hfinal, executeV2, if_neg hauto, if_pos htype, finalState_bind_pure, closeMatched,
    finalState_onTrades,
    closeIcLegs_final, planned, if_pos h, if_pos htype]

/-- A roll, and then the lock state. -/
theorem finalState_roll (h : Executes ic action) (htype : action.actionType ∉ closeActions) :
    finalState (applyActionV2 ic env positions action S) =
      finalState ((rollMatched .v2 ic env positions action >>= persistLock ic env action) S) := by
  obtain ⟨hfinal, hauto⟩ := @finalState_executed ic env positions action S h
  rw [hfinal, executeV2, if_neg hauto, if_neg htype]

/-- **What a call leaves of the ledger**, however it ends. -/
theorem trades_applyActionV2 (ic : Condor) (env : IcEnv) (positions : List PaperPosition)
    (action : IcAction) (S : IcStore) :
    (finalState (applyActionV2 ic env positions action S)).trades =
      written env S.trades (planned ic env positions action) := by
  by_cases hexec : Executes ic action
  · by_cases htype : action.actionType ∈ closeActions
    · rw [finalState_close hexec htype]
    · have hroll := congrArg IcStore.trades
        (finalState_onTrades (rollIcLegs env (matched .v2 ic positions action)
        (closedRoles .v2 action) action.legsToOpen ic.strategyName
        (IcVersion.v2.name ++ " roll: " ++ triggeringSignal action)) S)
      rw [rollIcLegs_written] at hroll
      rw [finalState_roll hexec htype, planned, if_pos hexec, if_neg htype, bind_run, rollMatched]
      -- persisting the lock writes nothing to the ledger
      cases hrun : onTrades (rollIcLegs env (matched .v2 ic positions action)
        (closedRoles .v2 action) action.legsToOpen
          ic.strategyName (IcVersion.v2.name ++ " roll: " ++ triggeringSignal action)) S with
      | ok ts S₁ =>
        rw [hrun] at hroll
        exact (keeps_persistLock ic env action ts S₁).trans hroll
      | error e S₁ =>
        rw [hrun] at hroll
        exact hroll
  · rw [finalState_idle hexec, planned, if_neg hexec]
    rfl

/-! ### The Zone 2 flag -/

/-- **Who sets the Zone 2 flag**: after a call it is as it was, or the call was a
`PROFIT_LOCK_ZONE2` that inserted a trade. -/
theorem lock_of_applyActionV2 (h : ((finalState
    (applyActionV2 ic env positions action S)).getProfitLockState
      ic.strategyName).zone2LockExecuted = true) :
    (S.getProfitLockState ic.strategyName).zone2LockExecuted = true ∨
      (action.actionType = "PROFIT_LOCK_ZONE2" ∧
        ∃ c o, planned ic env positions action = some (c, o) ∧ fresh S.trades.hasKey (c ++ o) ≠ []) := by
  by_cases hexec : Executes ic action
  · by_cases htype : action.actionType ∈ closeActions
    · rw [finalState_close hexec htype] at h
      exact Or.inl h
    · rw [finalState_roll hexec htype, bind_run] at h
      have hkeeps : ∀ {r : EStateM.Result IcError IcStore (List PaperTrade)},
        rollMatched .v2 ic env positions action S = r →
          (finalState r).lockStates = S.lockStates := by
        rintro _ rfl
        rw [rollMatched, finalState_onTrades]
      cases hrun : rollMatched .v2 ic env positions action S with
      | error e S₁ =>
        have hlocks := hkeeps hrun
        rw [hrun] at h
        refine Or.inl ?_
        rw [IcStore.getProfitLockState, ← hlocks]
        exact h
      | ok ts S₁ =>
        have hlocks := hkeeps hrun
        rw [hrun] at h
        simp only [persistLock] at h
        split at h
        next hlock =>
          refine Or.inr ⟨hlock.1, ?_⟩
          obtain ⟨T, hroll, rfl⟩ := onTrades_ok_iff.mp hrun
          obtain ⟨c, o, hplan, hts, -⟩ := rollIcLegs_ok hroll hlock.2
          refine ⟨c, o, ?_, hts ▸ hlock.2⟩
          rw [planned, if_pos hexec, if_neg htype]
          exact hplan
        next =>
          refine Or.inl ?_
          rw [IcStore.getProfitLockState, ← hlocks]
          exact h
  · rw [finalState_idle hexec] at h
    exact Or.inl h

end NiftyShield.Strategy.IronCondor
