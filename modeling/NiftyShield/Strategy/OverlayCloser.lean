import NiftyShield.Paper.Batch
import NiftyShield.Strategy.Executor

/-!
# Closing a collar

`close_collar_all` and `monetize_collar_put` of `OverlayCloser`
(`src/strategy/overlay_closer.py`). Both read the position `get_position` picks for the
short call and for the long put, build the closing trades before any write, insert them in
one batch, and only then look whether a trade was skipped as a duplicate.

## What is proved

* `writeAll_cases`: the five ways the write phase ends;
* `flat_after_iff`: which batches flatten the collar's roles;
* `collar_closes_whole_iff`: when a full close is all or nothing, and when a monetised put
  leaves no short call behind.

## Honest scope

The fill simulator is a parameter. The exit-event rows the calls write after the trades are
left out, but that these writes can raise is not; nor are the alerts, which never raise.
The return value of `monetize_collar_put` is the path that returned: the source returns
nothing and logs it.
-/

namespace NiftyShield.Strategy.OverlayCloser

open NiftyShield.Instruments NiftyShield.Lib NiftyShield.Lib.Raising NiftyShield.Paper

/-! ### The calls -/

/-- `SHORT_CALL_ROLE`. -/
def shortCallRole : String := "overlay_collar_call"

/-- `LONG_PUT_ROLE`. -/
def longPutRole : String := "overlay_collar_put"

/-- What the closer can raise. -/
inductive OverlayError where
  /-- A closing trade cannot be built: no price, an exception of the simulator, or
  pydantic's `ValidationError`. -/
  | notBuilt
  /-- An exception of the database. -/
  | database
  deriving DecidableEq

/-- The store operations of the call that fail. -/
structure OverlayFaults where
  /-- `record_trades` raises. -/
  recordTrades : Bool := false
  /-- The number of `mark_trade_closed` calls before one that raises, if one does. -/
  markClosed : Option ℕ := none
  /-- Writing the exit event raises. -/
  exitEvent : Bool := false

/-- The arguments and collaborators of a call, apart from the ledger. -/
structure OverlayEnv where
  /-- Strategy acted for. -/
  strategyName : String
  /-- Option chain the prices come from. -/
  market : OptionChain
  /-- The BOD file. -/
  lookup : Option InstrumentLookup := none
  /-- `simulator.simulate_fill`; `none` if it raises. -/
  simulateFill : String → String → ℤ → ℚ → Option ℚ → Option FillResult :=
    fun key action quantity mid vix => some (Strategy.simulateFill key action quantity mid vix)
  /-- India VIX. -/
  vix : Option ℚ := none
  /-- Exit event that is acted on. -/
  eventId : Option ℤ := none
  /-- `market_today()`. -/
  today : Date
  /-- Failing store operations. -/
  faults : OverlayFaults := {}

/-- A program over the ledger. -/
abbrev OverlayExec := EStateM OverlayError PaperTrades

/-- `{event_id}` in a note. -/
def eventText : Option ℤ → String
  | none => "None"
  | some n => toString n

/-- The trade that closes a leg: the mid of the chain, filled by the simulator. -/
def legTrade (env : OverlayEnv) (role notes : String) (action : TradeAction) (pos : PaperPosition) :
    Option PaperTrade := do
  let leg ← findOptionLeg pos.instrumentKey env.market env.lookup
  let mid ← resolvePrice leg
  let fill ← env.simulateFill pos.instrumentKey action.value |pos.netQty| mid env.vix
  PaperTrade.validate env.strategyName role pos.instrumentKey env.today action fill.quantity
    fill.fillPrice notes none .open

/-- The buy-back of a short call, if the position is short. -/
def callTrade (env : OverlayEnv) (notes : String) (callPos : PaperPosition) : Option (List PaperTrade) :=
  if callPos.netQty < 0 then (legTrade env shortCallRole notes .buy callPos).map fun t => [t] else some []

/-- The sale of a long put, if the position is long. -/
def putTrade (env : OverlayEnv) (notes : String) (putPos : PaperPosition) : Option (List PaperTrade) :=
  if 0 < putPos.netQty then (legTrade env longPutRole notes .sell putPos).map fun t => [t] else some []

/-- `residual`: the last price of the short call, zero if the chain lacks it. -/
def residual (env : OverlayEnv) (callPos : PaperPosition) : ℚ :=
  match findOptionLeg callPos.instrumentKey env.market env.lookup with
  | some leg => leg.ltp
  | none => 0

/-- `trades_to_write` of `close_collar_all`. -/
def closeAllTrades (env : OverlayEnv) (callPos putPos : PaperPosition) : Option (List PaperTrade) := do
  let calls ← callTrade env ("collar_close_all call event_id=" ++ eventText env.eventId) callPos
  let puts ← putTrade env ("collar_close_all put event_id=" ++ eventText env.eventId) putPos
  some (calls ++ puts)

/-- The buy-back before a put is monetised: a call worth 5 or more stays. -/
def cheapCallTrade (env : OverlayEnv) (notes : String) (callPos : PaperPosition) :
    Option (List PaperTrade) :=
  if residual env callPos < 5 then callTrade env notes callPos else some []

/-- `trades_to_write` of `monetize_collar_put`. -/
def monetizeTrades (env : OverlayEnv) (callPos putPos : PaperPosition) : Option (List PaperTrade) := do
  let calls ← cheapCallTrade env ("collar_put_monetize call close event_id=" ++ eventText
    env.eventId) callPos
  let puts ← putTrade env ("collar_put_monetize put close event_id=" ++ eventText env.eventId) putPos
  some (calls ++ puts)

/-- The write: one batch, then the marking. `false` after a caught exception, which a
skipped trade raises too, although the batch is committed by then. -/
def writeAll (env : OverlayEnv) (trades : List PaperTrade) : OverlayExec Bool :=
  if trades = [] then pure true
  else if env.faults.recordTrades then pure false
  else do
    let skipped ← updates fun T => ((T.recordTrades trades).1, (T.recordTrades trades).2.2)
    if skipped ≠ [] then pure false
    else do
      markClosedEach .database env.faults.markClosed trades
      pure true

/-- The exit event that is written last. -/
def writeEvent {α : Type} (env : OverlayEnv) (a : α) : OverlayExec α :=
  if env.faults.exitEvent then throw .database else pure a

/-- Resolving the event of a collar that is flat already. -/
def dismissEvent {α : Type} (env : OverlayEnv) (a : α) : OverlayExec α :=
  if env.eventId.isSome then writeEvent env a else pure a

/-- `call_pos`. -/
def callPos (env : OverlayEnv) (T : PaperTrades) : PaperPosition :=
  T.getPosition env.lookup env.strategyName shortCallRole none

/-- `put_pos`. -/
def putPos (env : OverlayEnv) (T : PaperTrades) : PaperPosition :=
  T.getPosition env.lookup env.strategyName longPutRole none

/-- `close_collar_all`: whether the collar ended up flat. -/
def closeCollarAll (env : OverlayEnv) : OverlayExec Bool := do
  let call ← reads (callPos env)
  let put ← reads (putPos env)
  if call.netQty = 0 ∧ put.netQty = 0 then dismissEvent env true
  else do
    let trades ← fromOption .notBuilt (closeAllTrades env call put)
    let written ← writeAll env trades
    if written then writeEvent env true else pure false

/-- Where `monetize_collar_put` returns. -/
inductive MonetizeResult where
  /-- `already_flat`. -/
  | alreadyFlat
  /-- `incomplete_collar`. -/
  | incompleteCollar
  /-- `write_failed`. -/
  | writeFailed
  /-- The end. -/
  | done
  deriving DecidableEq

/-- `monetize_collar_put`. -/
def monetizeCollarPut (env : OverlayEnv) : OverlayExec MonetizeResult := do
  let call ← reads (callPos env)
  let put ← reads (putPos env)
  if call.netQty = 0 ∧ put.netQty = 0 then dismissEvent env .alreadyFlat
  -- closing the call without the put would leave it naked
  else if put.netQty = 0 then pure .incompleteCollar
  else do
    let trades ← fromOption .notBuilt (monetizeTrades env call put)
    let written ← writeAll env trades
    if written then writeEvent env .done else pure .writeFailed

/-! ### The positions that are read -/

/-- `get_position` without a key finds nothing exactly when the role has no position. -/
theorem getPosition_flat_iff {T : PaperTrades} {lookup : Option InstrumentLookup} {s role : String} :
    (T.getPosition lookup s role none).netQty = 0 ↔ ∀ p ∈ T.getPositions lookup s, p.legRole ≠ role := by
  rw [PaperTrades.getPosition]
  cases hpick : PaperTrades.pickPosition (T.getPositions lookup s) role none with
  | none =>
    refine ⟨fun _ p hp hrole => ?_, fun _ => rfl⟩
    have hmem : p ∈ (T.getPositions lookup s).filter fun q => q.legRole = role :=
      List.mem_filter.mpr ⟨hp, by simpa using hrole⟩
    rw [List.argmax_eq_none.mp hpick] at hmem
    exact absurd hmem (by simp)
  | some q =>
    obtain ⟨hq, hrole, -⟩ := mem_of_pickPosition hpick
    constructor
    · intro hzero
      exact absurd hzero (getPositions_open hq).2.1
    · intro hnone
      exact absurd hrole (hnone q hq)

/-- A position that is not flat is one of the store's. -/
theorem getPosition_mem {T : PaperTrades} {lookup : Option InstrumentLookup} {s role : String}
    (h : (T.getPosition lookup s role none).netQty ≠ 0) :
    T.getPosition lookup s role none ∈ T.getPositions lookup s ∧
      (T.getPosition lookup s role none).legRole = role := by
  rw [PaperTrades.getPosition] at h ⊢
  cases hpick : PaperTrades.pickPosition (T.getPositions lookup s) role none with
  | none =>
    rw [hpick] at h
    exact absurd rfl h
  | some q =>
    obtain ⟨hq, hrole, -⟩ := mem_of_pickPosition hpick
    exact ⟨hq, hrole⟩

/-! ### The trades that are built -/

theorem legTrade_spec {env : OverlayEnv} {role notes : String} {action : TradeAction} {pos : PaperPosition}
    {t : PaperTrade} (h : legTrade env role notes action pos = some t) :
    t.strategyName = env.strategyName ∧ t.legInstrument = (role, pos.instrumentKey) := by
  unfold legTrade at h
  simp only [Option.bind_eq_bind, Option.bind_eq_some_iff] at h
  obtain ⟨_, _, _, _, _, _, hvalid⟩ := h
  obtain ⟨hkey, -⟩ := validate_eq_some hvalid
  obtain ⟨hname, hrole, hinst, -, -⟩ := PaperTrade.UniqueKey.mk.inj hkey
  exact ⟨hname, Prod.ext hrole hinst⟩

/-- The trades of a close: of the strategy, of different pairs, each of an open position of
the collar. -/
structure ClosesLegs (env : OverlayEnv) (T : PaperTrades) (ts : List PaperTrade) : Prop where
  /-- Each is of the strategy. -/
  strategy : ∀ t ∈ ts, t.strategyName = env.strategyName
  /-- No two are of one role. -/
  roles : ts.Pairwise fun t u => t.legRole ≠ u.legRole
  /-- Each is of an open position. -/
  opened : ∀ t ∈ ts, ∃ p ∈ T.getPositions env.lookup env.strategyName, p.pair = t.legInstrument

/-- The trade of a position that was read. -/
theorem legTrade_getPosition {env : OverlayEnv} {T : PaperTrades} {role notes : String}
    {action : TradeAction}
    {t : PaperTrade} (hne : (T.getPosition env.lookup env.strategyName role none).netQty ≠ 0)
    (ht : legTrade env role notes action (T.getPosition env.lookup env.strategyName role none) = some t) :
    t.strategyName = env.strategyName ∧ t.legRole = role ∧
      ∃ p ∈ T.getPositions env.lookup env.strategyName, p.pair = t.legInstrument := by
  obtain ⟨hname, hleg⟩ := legTrade_spec ht
  obtain ⟨hmem, hrole⟩ := getPosition_mem hne
  have hpair : (T.getPosition env.lookup env.strategyName role none).pair = t.legInstrument := by
    rw [hleg, PaperPosition.pair, hrole]
  exact ⟨hname, congrArg Prod.fst hleg, _, hmem, hpair⟩

private theorem callTrade_spec {env : OverlayEnv} {T : PaperTrades} {notes : String} {ts : List PaperTrade}
    (h : callTrade env notes (callPos env T) = some ts) :
    ts.Pairwise (fun t u => t.legRole ≠ u.legRole) ∧ ∀ t ∈ ts, t.strategyName = env.strategyName ∧
      t.legRole = shortCallRole ∧ ∃ p ∈ T.getPositions env.lookup env.strategyName,
        p.pair = t.legInstrument := by
  unfold callTrade at h
  split at h
  next hshort =>
    obtain ⟨t, ht, rfl⟩ := Option.map_eq_some_iff.mp h
    refine ⟨List.pairwise_singleton _ _, fun u hu => ?_⟩
    obtain rfl := List.mem_singleton.mp hu
    exact legTrade_getPosition hshort.ne ht
  next =>
    obtain rfl := Option.some.inj h
    exact ⟨List.Pairwise.nil, by simp⟩

private theorem putTrade_spec {env : OverlayEnv} {T : PaperTrades} {notes : String} {ts : List PaperTrade}
    (h : putTrade env notes (putPos env T) = some ts) :
    ts.Pairwise (fun t u => t.legRole ≠ u.legRole) ∧ ∀ t ∈ ts, t.strategyName = env.strategyName ∧
      t.legRole = longPutRole ∧ ∃ p ∈ T.getPositions env.lookup env.strategyName,
        p.pair = t.legInstrument := by
  unfold putTrade at h
  split at h
  next hlong =>
    obtain ⟨t, ht, rfl⟩ := Option.map_eq_some_iff.mp h
    refine ⟨List.pairwise_singleton _ _, fun u hu => ?_⟩
    obtain rfl := List.mem_singleton.mp hu
    exact legTrade_getPosition hlong.ne' ht
  next =>
    obtain rfl := Option.some.inj h
    exact ⟨List.Pairwise.nil, by simp⟩

private theorem closesLegs_append {env : OverlayEnv} {T : PaperTrades} {notes : String}
    {calls puts : List PaperTrade}
    (hcalls : calls = [] ∨ ∃ notes, callTrade env notes (callPos env T) = some calls)
    (hputs : putTrade env notes (putPos env T) = some puts) : ClosesLegs env T (calls ++ puts) := by
  obtain ⟨hpnd, hp⟩ := putTrade_spec hputs
  obtain ⟨hcnd, hc⟩ : calls.Pairwise (fun t u => t.legRole ≠ u.legRole) ∧ ∀ t ∈ calls,
    t.strategyName = env.strategyName ∧
      t.legRole = shortCallRole ∧ ∃ p ∈ T.getPositions env.lookup env.strategyName,
        p.pair = t.legInstrument := by
    rcases hcalls with rfl | ⟨_, hcalls⟩
    · exact ⟨List.Pairwise.nil, by simp⟩
    · exact callTrade_spec hcalls
  refine ⟨fun t ht => ?_, List.pairwise_append.mpr ⟨hcnd, hpnd, fun t ht u hu => ?_⟩, fun t ht => ?_⟩
  · rcases List.mem_append.mp ht with ht | ht
    · exact (hc t ht).1
    · exact (hp t ht).1
  · rw [(hc t ht).2.1, (hp u hu).2.1]
    decide
  · rcases List.mem_append.mp ht with ht | ht
    · exact (hc t ht).2.2
    · exact (hp t ht).2.2

theorem closesLegs_closeAllTrades {env : OverlayEnv} {T : PaperTrades} {ts : List PaperTrade}
    (h : closeAllTrades env (callPos env T) (putPos env T) = some ts) : ClosesLegs env T ts := by
  simp only [closeAllTrades, Option.bind_eq_bind, Option.bind_eq_some_iff, Option.some.injEq] at h
  obtain ⟨calls, hcalls, puts, hputs, rfl⟩ := h
  exact closesLegs_append (Or.inr ⟨_, hcalls⟩) hputs

theorem closesLegs_monetizeTrades {env : OverlayEnv} {T : PaperTrades} {ts : List PaperTrade}
    (h : monetizeTrades env (callPos env T) (putPos env T) = some ts) : ClosesLegs env T ts := by
  simp only [monetizeTrades, Option.bind_eq_bind, Option.bind_eq_some_iff, Option.some.injEq] at h
  obtain ⟨calls, hcalls, puts, hputs, rfl⟩ := h
  unfold cheapCallTrade at hcalls
  split at hcalls
  · exact closesLegs_append (Or.inr ⟨_, hcalls⟩) hputs
  · exact closesLegs_append (Or.inl (Option.some.inj hcalls).symm) hputs

/-- With one trade a role, only the ledger can hold a duplicate. -/
theorem ClosesLegs.allFresh_iff {env : OverlayEnv} {T : PaperTrades} {ts : List PaperTrade}
    (h : ClosesLegs env T ts) :
    AllFresh T.hasKey ts ↔ ∀ t ∈ ts, T.hasKey t.uniqueKey = false := by
  refine ⟨fun hfresh => hfresh.1, fun hfree => ⟨hfree, h.roles.imp fun hne heq => ?_⟩⟩
  exact hne (congrArg PaperTrade.UniqueKey.legRole heq)

/-! ### How the write ends -/

/-- **The five ways the write ends**: nothing to write; `record_trades` raises; a trade was
skipped; a marking raises; all is written and marked. -/
theorem writeAll_cases (env : OverlayEnv) (ts : List PaperTrade) (T : PaperTrades) :
    (ts = [] ∧ writeAll env ts T = .ok true T) ∨
      (ts ≠ [] ∧ env.faults.recordTrades = true ∧ writeAll env ts T = .ok false T) ∨
      (ts ≠ [] ∧ env.faults.recordTrades = false ∧ ¬AllFresh T.hasKey ts ∧
        writeAll env ts T = .ok false (T.recordTrades ts).1) ∨
      (ts ≠ [] ∧ env.faults.recordTrades = false ∧ AllFresh T.hasKey ts ∧
        marksRaise env.faults.markClosed ts ∧
        ∃ T', writeAll env ts T = .error .database T' ∧ T' ≠ T) ∨
      (ts ≠ [] ∧ env.faults.recordTrades = false ∧ AllFresh T.hasKey ts ∧
        ¬marksRaise env.faults.markClosed ts ∧
        writeAll env ts T = .ok true ((T.recordTrades ts).1.markAllClosed ts)) := by
  by_cases hnil : ts = []
  · exact Or.inl ⟨hnil, by rw [writeAll, if_pos hnil]; rfl⟩
  refine Or.inr ?_
  cases hfault : env.faults.recordTrades with
  | true => exact Or.inl ⟨hnil, rfl, by rw [writeAll, if_neg hnil, hfault]; rfl⟩
  | false =>
    refine Or.inr ?_
    have hrun : writeAll env ts T =
        (if (T.recordTrades ts).2.2 ≠ [] then (pure false : OverlayExec Bool)
          else do
            markClosedEach .database env.faults.markClosed ts
            pure true) (T.recordTrades ts).1 := by
      rw [writeAll, if_neg hnil, hfault, if_neg Bool.false_ne_true, bind_run, updates_run]
    by_cases hfresh : AllFresh T.hasKey ts
    · refine Or.inr ?_
      rw [if_neg (not_not.mpr ((PaperTrades.skipped_eq_nil_iff ts T).mpr hfresh)), bind_run] at hrun
      have hfinal := finalState_markClosedEach OverlayError.database ts env.faults.markClosed
        (T.recordTrades ts).1
      rcases markClosedEach_run OverlayError.database ts env.faults.markClosed (T.recordTrades ts).1 with
        ⟨hraise, T', hmark⟩ | ⟨hraise, hmark⟩
      · rw [hmark] at hrun hfinal
        refine Or.inl ⟨hnil, rfl, hfresh, hraise, T', hrun, fun hsame => ?_⟩
        -- the batch has a trade, and its key was free
        obtain ⟨t, ht⟩ := List.exists_mem_of_ne_nil ts hnil
        have hsub : markedBefore env.faults.markClosed ts ⊆ fresh T.hasKey ts := by
          rw [fresh_eq_self_iff.mpr hfresh]
          exact markedBefore_subset _ _
        rw [finalState_error, hsame] at hfinal
        have htaken := (PaperTrades.batch_eq_self_iff hsub).mp hfinal.symm t ht
        exact absurd (htaken.symm.trans (hfresh.1 t ht)) (by decide)
      · rw [hmark] at hrun
        exact Or.inr ⟨hnil, rfl, hfresh, hraise, hrun⟩
    · rw [if_pos fun hskip => hfresh ((PaperTrades.skipped_eq_nil_iff ts T).mp hskip)] at hrun
      exact Or.inl ⟨hnil, rfl, hfresh, hrun⟩

/-! ### All or nothing -/

/-- The legs of a collar. -/
def collarRoles : List String := [shortCallRole, longPutRole]

/-- The roles of the collar hold nothing and have no OPEN or DEFENDED row. -/
structure CollarFlat (env : OverlayEnv) (T : PaperTrades) : Prop where
  /-- Every pair of the roles is flat. -/
  net : ∀ role ∈ collarRoles, ∀ i, T.netQty env.strategyName (role, i) = 0
  /-- Every row of the roles is closed. -/
  rows : ∀ role ∈ collarRoles, ∀ r ∈ T.rows, r.trade.strategyName = env.strategyName →
    r.trade.legRole = role →
    PaperTrades.isLive r.trade = false

/-- A full close that returns `True` leaves the collar flat; one that returns `False` or
raises leaves the ledger as it was. -/
def AllOrNothing (env : OverlayEnv) (T : PaperTrades) : Prop :=
  match closeCollarAll env T with
  | .ok true T' => CollarFlat env T'
  | .ok false T' => T' = T
  | .error _ T' => T' = T

/-- A write of these trades runs to its end. -/
structure Unhindered (env : OverlayEnv) (T : PaperTrades) (ts : List PaperTrade) : Prop where
  /-- No key is taken. -/
  free : ∀ t ∈ ts, T.hasKey t.uniqueKey = false
  /-- No marking raises. -/
  marks : ¬marksRaise env.faults.markClosed ts
  /-- The exit event is written. -/
  event : env.faults.exitEvent = false

/-- The trades take every position of the role to zero. -/
def ClosesRole (env : OverlayEnv) (T : PaperTrades) (ts : List PaperTrade) (role : String) : Prop :=
  ∀ p ∈ T.getPositions env.lookup env.strategyName, p.legRole = role →
    p.netQty + PaperTrades.unitsAt ts p.pair = 0

/-- The OPEN and DEFENDED rows of the role are all of legs that are traded. -/
def MarksRole (env : OverlayEnv) (T : PaperTrades) (ts : List PaperTrade) (role : String) : Prop :=
  ∀ r ∈ T.rows, r.trade.strategyName = env.strategyName → r.trade.legRole = role →
    PaperTrades.isLive r.trade = true →
    ∃ t ∈ ts, PaperTrades.sameLeg t r.trade = true

/-- Nothing of the batch is inserted. -/
def NothingWritten (env : OverlayEnv) (T : PaperTrades) (ts : List PaperTrade) : Prop :=
  env.faults.recordTrades = true ∨ ∀ t ∈ ts, T.hasKey t.uniqueKey = true

/-- When a full close is all or nothing. -/
def ClosesWhole (env : OverlayEnv) (T : PaperTrades) : Prop :=
  if (callPos env T).netQty = 0 ∧ (putPos env T).netQty = 0 then
    (env.eventId.isSome = true ∧ env.faults.exitEvent = true) ∨ ∀ role ∈ collarRoles,
      MarksRole env T [] role
  else
    ∀ ts, closeAllTrades env (callPos env T) (putPos env T) = some ts →
      if ts = [] then env.faults.exitEvent = true
      else NothingWritten env T ts ∨
        (Unhindered env T ts ∧ ∀ role ∈ collarRoles, ClosesRole env T ts role ∧ MarksRole env T ts role)

/-- A monetised put leaves no short call without a put, unless the call is worth 5 or
more; the paths that fail write nothing. -/
def PutMonetized (env : OverlayEnv) (T : PaperTrades) : Prop :=
  match monetizeCollarPut env T with
  | .ok .alreadyFlat T' | .ok .done T' =>
    (∃ i, T'.netQty env.strategyName (shortCallRole, i) < 0) →
      (∀ i, T'.netQty env.strategyName (longPutRole, i) = 0) →
      5 ≤ residual env (callPos env T)
  | .ok .incompleteCollar T' => T' = T
  | .ok .writeFailed T' => T' = T
  | .error _ T' => T' = T

/-- When a put is monetised without leaving the call behind. -/
def MonetizesWhole (env : OverlayEnv) (T : PaperTrades) : Prop :=
  (putPos env T).netQty ≠ 0 →
    ∀ ts, monetizeTrades env (callPos env T) (putPos env T) = some ts → ts ≠ [] →
      NothingWritten env T ts ∨
        (Unhindered env T ts ∧
          ((∃ p ∈ T.getPositions env.lookup env.strategyName, p.legRole = shortCallRole ∧
            p.netQty + PaperTrades.unitsAt ts p.pair < 0) → ClosesRole env T ts longPutRole →
              5 ≤ residual env (callPos env T)))

/-- Neither position is there exactly when no pair of the roles holds anything. -/
theorem flat_iff {env : OverlayEnv} {T : PaperTrades} :
    ((callPos env T).netQty = 0 ∧ (putPos env T).netQty = 0) ↔
      ∀ role ∈ collarRoles, ∀ i, T.netQty env.strategyName (role, i) = 0 := by
  have hrole : ∀ role, (T.getPosition env.lookup env.strategyName role none).netQty = 0 ↔
      ∀ i, T.netQty env.strategyName (role, i) = 0 := fun role => by
    rw [getPosition_flat_iff]
    constructor
    · intro hnone i
      by_contra hne
      obtain ⟨p, hp, hpair⟩ := PaperTrades.exists_position_iff.mpr hne
      exact hnone p hp (congrArg Prod.fst hpair)
    · rintro hflat p hp rfl
      exact PaperTrades.exists_position_iff.mp ⟨p, hp, rfl⟩ (hflat p.instrumentKey)
  simp only [collarRoles, List.forall_mem_cons, List.not_mem_nil, false_implies, implies_true, and_true]
  exact and_congr (hrole shortCallRole) (hrole longPutRole)

/-- How a full close runs. -/
theorem closeCollarAll_run (env : OverlayEnv) (T : PaperTrades) :
    closeCollarAll env T =
      if (callPos env T).netQty = 0 ∧ (putPos env T).netQty = 0 then dismissEvent env true T
      else
        match closeAllTrades env (callPos env T) (putPos env T) with
        | none => .error .notBuilt T
        | some ts =>
          match writeAll env ts T with
          | .ok true T' => writeEvent env true T'
          | .ok false T' => .ok false T'
          | .error e T' => .error e T' := by
  rw [closeCollarAll, bind_run, reads_run]
  simp only [bind_run, reads_run]
  split
  · rfl
  · cases closeAllTrades env (callPos env T) (putPos env T) with
    | none => rfl
    | some ts =>
      simp only [fromOption, pure_run, bind_run]
      cases writeAll env ts T with
      | error e T' => rfl
      | ok b T' => cases b <;> rfl

/-- How a monetisation runs. -/
theorem monetizeCollarPut_run (env : OverlayEnv) (T : PaperTrades) :
    monetizeCollarPut env T =
      if (callPos env T).netQty = 0 ∧ (putPos env T).netQty = 0 then dismissEvent env .alreadyFlat T
      else if (putPos env T).netQty = 0 then .ok .incompleteCollar T
      else
        match monetizeTrades env (callPos env T) (putPos env T) with
        | none => .error .notBuilt T
        | some ts =>
          match writeAll env ts T with
          | .ok true T' => writeEvent env .done T'
          | .ok false T' => .ok .writeFailed T'
          | .error e T' => .error e T' := by
  rw [monetizeCollarPut, bind_run, reads_run]
  simp only [bind_run, reads_run]
  split
  · rfl
  · split
    · rfl
    · cases monetizeTrades env (callPos env T) (putPos env T) with
      | none => rfl
      | some ts =>
        simp only [fromOption, pure_run, bind_run]
        cases writeAll env ts T with
        | error e T' => rfl
        | ok b T' => cases b <;> rfl

/-- A batch that is written whole leaves the collar flat exactly when it takes every
position to zero and every live row is of a leg it trades. -/
theorem collarFlat_batch_iff {env : OverlayEnv} {T : PaperTrades} {ts : List PaperTrade}
    (hlegs : ClosesLegs env T ts)
    (hfresh : AllFresh T.hasKey ts) :
    CollarFlat env ((T.recordTrades ts).1.markAllClosed ts) ↔
      ∀ role ∈ collarRoles, ClosesRole env T ts role ∧ MarksRole env T ts role := by
  constructor
  · intro hflat role hrole
    exact ⟨(PaperTrades.flat_batch_iff hfresh hlegs.strategy hlegs.opened).mp (hflat.net role hrole),
      PaperTrades.live_batch_iff.mp (hflat.rows role hrole)⟩
  · intro hall
    exact ⟨fun role hrole =>
        (PaperTrades.flat_batch_iff hfresh hlegs.strategy hlegs.opened).mpr (hall role hrole).1,
      fun role hrole => PaperTrades.live_batch_iff.mpr (hall role hrole).2⟩

/-- A batch with a duplicate leaves the ledger as it was exactly when nothing of it is
inserted. -/
theorem recordTrades_skipped_eq_iff {env : OverlayEnv} {T : PaperTrades} {ts : List PaperTrade}
    (hlegs : ClosesLegs env T ts) (hwrite : env.faults.recordTrades = false)
    (hfresh : ¬AllFresh T.hasKey ts)
    {P : Prop} : (T.recordTrades ts).1 = T ↔ NothingWritten env T ts ∨ (Unhindered env T ts ∧ P) := by
  rw [PaperTrades.recordTrades_eq_self_iff]
  constructor
  · exact fun htaken => Or.inl (Or.inr htaken)
  · rintro ((hfault | htaken) | ⟨hfree, -⟩)
    · rw [hwrite] at hfault
      exact absurd hfault (by decide)
    · exact htaken
    · exact absurd (hlegs.allFresh_iff.mpr hfree.free) hfresh

/-- A batch whose keys are free is written. -/
theorem not_nothingWritten {env : OverlayEnv} {T : PaperTrades} {ts : List PaperTrade} (hne : ts ≠ [])
    (hwrite : env.faults.recordTrades = false) (hfresh : AllFresh T.hasKey ts) :
      ¬NothingWritten env T ts := by
  rintro (hfault | htaken)
  · rw [hwrite] at hfault
    exact absurd hfault (by decide)
  · obtain ⟨t, ht⟩ := List.exists_mem_of_ne_nil ts hne
    exact absurd ((htaken t ht).symm.trans (hfresh.1 t ht)) (by decide)

/-- A batch that is written whole is not the ledger before it. -/
theorem batch_ne_self {T : PaperTrades} {ts : List PaperTrade} (hne : ts ≠ [])
    (hfresh : AllFresh T.hasKey ts) :
    (T.recordTrades ts).1.markAllClosed ts ≠ T := by
  intro hsame
  have hsub : ts ⊆ fresh T.hasKey ts := by
    rw [fresh_eq_self_iff.mpr hfresh]
    exact List.Subset.refl ts
  obtain ⟨t, ht⟩ := List.exists_mem_of_ne_nil ts hne
  have htaken := (PaperTrades.batch_eq_self_iff hsub).mp hsame t ht
  exact absurd (htaken.symm.trans (hfresh.1 t ht)) (by decide)

/-- **When a full close is all or nothing.** -/
theorem allOrNothing_iff (env : OverlayEnv) (T : PaperTrades) : AllOrNothing env T ↔ ClosesWhole env T := by
  rw [AllOrNothing, ClosesWhole, closeCollarAll_run]
  by_cases hflat : (callPos env T).netQty = 0 ∧ (putPos env T).netQty = 0
  · -- nothing to close: only rows that are still live can break the promise
    rw [if_pos hflat, if_pos hflat]
    have hnet := flat_iff.mp hflat
    have hrows : CollarFlat env T ↔ ∀ role ∈ collarRoles, MarksRole env T [] role := by
      constructor
      · intro h role hrole r hr hs hrl hlive
        exact absurd (hlive.symm.trans (h.rows role hrole r hr hs hrl)) (by decide)
      · refine fun h => ⟨hnet, fun role hrole r hr hs hrl => ?_⟩
        by_contra hlive
        obtain ⟨t, ht, -⟩ := h role hrole r hr hs hrl (by simpa using hlive)
        exact absurd ht (by simp)
    unfold dismissEvent writeEvent
    cases env.eventId.isSome with
    | false => simpa [pure_run] using hrows
    | true =>
      cases env.faults.exitEvent with
      | false => simpa [pure_run] using hrows
      | true => simp [throw_run]
  · rw [if_neg hflat, if_neg hflat]
    have hnot : ¬CollarFlat env T := fun h => hflat (flat_iff.mpr h.net)
    cases hplan : closeAllTrades env (callPos env T) (putPos env T) with
    | none => simp
    | some ts =>
      have hlegs := closesLegs_closeAllTrades hplan
      simp only [Option.some.injEq, forall_eq']
      rcases writeAll_cases env ts T with ⟨rfl, hrun⟩ | ⟨hne, hwrite, hrun⟩ | ⟨hne, hwrite, hfresh, hrun⟩ |
        ⟨hne, hwrite, hfresh, hmarks, T', hrun, hchanged⟩ | ⟨hne, hwrite, hfresh, hmarks, hrun⟩
      · -- no leg to trade, though a position is there
        rw [hrun, if_pos rfl]
        unfold writeEvent
        cases env.faults.exitEvent with
        | false => simpa [pure_run] using hnot
        | true => simp [throw_run]
      · rw [hrun, if_neg hne]
        simp [NothingWritten, hwrite]
      · rw [hrun, if_neg hne]
        exact recordTrades_skipped_eq_iff hlegs hwrite hfresh
      · rw [hrun, if_neg hne]
        refine iff_of_false hchanged ?_
        rintro (hnothing | ⟨hfree, -⟩)
        · exact not_nothingWritten hne hwrite hfresh hnothing
        · exact hfree.marks hmarks
      · rw [hrun, if_neg hne]
        have hnothing := not_nothingWritten hne hwrite hfresh
        unfold writeEvent
        cases hevent : env.faults.exitEvent with
        | true =>
          refine iff_of_false (batch_ne_self hne hfresh) ?_
          rintro (h | ⟨hfree, -⟩)
          · exact hnothing h
          · exact absurd (hevent.symm.trans hfree.event) (by decide)
        | false =>
          have hfree : Unhindered env T ts := ⟨hlegs.allFresh_iff.mp hfresh, hmarks, hevent⟩
          have hwhole := collarFlat_batch_iff hlegs hfresh
          simpa [pure_run, hnothing, hfree] using hwhole

/-- **When a monetised put leaves no short call behind** and a failure writes nothing. -/
theorem putMonetized_iff (env : OverlayEnv) (T : PaperTrades) :
    PutMonetized env T ↔ MonetizesWhole env T := by
  rw [PutMonetized, MonetizesWhole, monetizeCollarPut_run]
  by_cases hput : (putPos env T).netQty = 0
  · refine iff_of_true ?_ fun hne => absurd hput hne
    by_cases hcall : (callPos env T).netQty = 0
    · -- with both flat no call is short
      have hnet := flat_iff.mp ⟨hcall, hput⟩ shortCallRole (by simp [collarRoles])
      have hnone : ¬∃ i, T.netQty env.strategyName (shortCallRole, i) < 0 := by
        rintro ⟨i, hneg⟩
        rw [hnet i] at hneg
        exact absurd hneg (lt_irrefl 0)
      rw [if_pos ⟨hcall, hput⟩]
      unfold dismissEvent writeEvent
      cases env.eventId.isSome with
      | false => exact fun hshort => absurd hshort hnone
      | true =>
        cases env.faults.exitEvent with
        | false => exact fun hshort => absurd hshort hnone
        | true => rfl
    · rw [if_neg fun h => hcall h.1, if_pos hput]
  · rw [if_neg fun h => hput h.2, if_neg hput]
    have hopen : ¬∀ i, T.netQty env.strategyName (longPutRole, i) = 0 := by
      intro hflat
      obtain ⟨hmem, hrole⟩ := getPosition_mem hput
      refine PaperTrades.exists_position_iff.mp ⟨_, hmem, rfl⟩ ?_
      rw [PaperPosition.pair, hrole]
      exact hflat _
    cases hplan : monetizeTrades env (callPos env T) (putPos env T) with
    | none => simp
    | some ts =>
      have hlegs := closesLegs_monetizeTrades hplan
      simp only [Option.some.injEq, forall_eq', ne_eq, hput, not_false_eq_true, forall_const]
      rcases writeAll_cases env ts T with ⟨rfl, hrun⟩ | ⟨hne, hwrite, hrun⟩ | ⟨hne, hwrite, hfresh, hrun⟩ |
        ⟨hne, hwrite, hfresh, hmarks, T', hrun, hchanged⟩ | ⟨hne, hwrite, hfresh, hmarks, hrun⟩
      · rw [hrun]
        refine iff_of_true ?_ fun hne => absurd rfl hne
        unfold writeEvent
        cases env.faults.exitEvent with
        | false => exact fun _ hclosed => absurd hclosed hopen
        | true => rfl
      · rw [hrun]
        simp [NothingWritten, hwrite]
      · rw [hrun]
        simp only [hne, not_false_eq_true, forall_const]
        exact recordTrades_skipped_eq_iff hlegs hwrite hfresh
      · rw [hrun]
        refine iff_of_false hchanged fun h => ?_
        rcases h hne with hnothing | ⟨hfree, -⟩
        · exact not_nothingWritten hne hwrite hfresh hnothing
        · exact hfree.marks hmarks
      · rw [hrun]
        have hnothing := not_nothingWritten hne hwrite hfresh
        unfold writeEvent
        cases hevent : env.faults.exitEvent with
        | true =>
          refine iff_of_false (batch_ne_self hne hfresh) fun h => ?_
          rcases h hne with h | ⟨hfree, -⟩
          · exact hnothing h
          · exact absurd (hevent.symm.trans hfree.event) (by decide)
        | false =>
          have hfree : Unhindered env T ts := ⟨hlegs.allFresh_iff.mp hfresh, hmarks, hevent⟩
          rw [if_neg Bool.false_ne_true]
          simp only [pure_run, hne, not_false_eq_true, forall_const, hnothing, hfree, true_and, false_or]
          rw [PaperTrades.short_batch_iff hfresh hlegs.strategy hlegs.opened,
            PaperTrades.flat_batch_iff hfresh hlegs.strategy hlegs.opened]
          exact Iff.rfl

/-- **Collar closes are all or nothing** exactly under these conditions. -/
theorem collar_closes_whole_iff (env : OverlayEnv) (T : PaperTrades) :
    (AllOrNothing env T ∧ PutMonetized env T) ↔ (ClosesWhole env T ∧ MonetizesWhole env T) :=
  and_congr (allOrNothing_iff env T) (putMonetized_iff env T)

/-! ### A call that was bought back the same day -/

/-- 65 units of a leg of the overlay's collar. -/
private def collarTrade (role key : String) (d : Date) (a : TradeAction) (role_ne : role ≠ "")
    (key_ne : key ≠ "") :
    PaperTrade where
  strategyName := "paper_nifty_overlay"
  legRole := role
  instrumentKey := key
  tradeDate := d
  action := a
  quantity := 65
  price := 90
  paperPrefix := hasPaperPrefix_overlay
  legRole_ne := role_ne
  instrumentKey_ne := key_ne
  quantity_pos := lot_pos
  price_pos := price90_pos

/-- A collar of yesterday whose call was bought back and sold again today. -/
def resoldCallLedger : PaperTrades :=
  (PaperTrades.empty.recordTrades
    [collarTrade "overlay_collar_call" "NSE_FO|NIFTY25000CE" 739790 .sell overlayCollarCall_ne (by decide),
      collarTrade "overlay_collar_put" "NSE_FO|NIFTY24000PE" 739790 .buy overlayCollarPut_ne key24000Put_ne,
      collarTrade "overlay_collar_call" "NSE_FO|NIFTY25000CE" 739791 .buy overlayCollarCall_ne (by decide),
      collarTrade "overlay_collar_call" "NSE_FO|NIFTY25000CE" 739791 .sell overlayCollarCall_ne (by decide)]).1

/-- Today's call, with both legs quoted. -/
def resoldCallEnv : OverlayEnv where
  strategyName := "paper_nifty_overlay"
  market :=
    { underlyingSpot := 24600
      expiry := 739797
      strikes := (Dict.empty.set 25000 { ce := some { ltp := 81, bid := 80, ask := 82, strike := 25000 } }).set 24000
        { pe := some { ltp := 61, bid := 60, ask := 62, strike := 24000 } } }
  today := 739791

/-- The long put that a close reporting failure leaves. -/
private def putAfterFailure : EStateM.Result OverlayError PaperTrades Bool → Option ℤ
  | .ok false T' => some (T'.netQty "paper_nifty_overlay" ("overlay_collar_put", "NSE_FO|NIFTY24000PE"))
  | _ => none

/-- The close reports failure, and has sold the put under an open short call. -/
theorem resoldCall_half_closed : ¬(AllOrNothing resoldCallEnv resoldCallLedger ∧
    PutMonetized resoldCallEnv resoldCallLedger) := by
  rintro ⟨h, -⟩
  have hbefore : resoldCallLedger.netQty "paper_nifty_overlay" ("overlay_collar_put", "NSE_FO|NIFTY24000PE") = 65 := by
    decide +kernel
  have hafter : putAfterFailure (closeCollarAll resoldCallEnv resoldCallLedger) = some 0 := by decide +kernel
  rw [AllOrNothing] at h
  cases hrun : closeCollarAll resoldCallEnv resoldCallLedger with
  | error e T' =>
    rw [hrun] at hafter
    cases hafter
  | ok b T' =>
    cases b with
    | true =>
      rw [hrun] at hafter
      cases hafter
    | false =>
      rw [hrun] at hafter h
      obtain rfl : T' = resoldCallLedger := h
      exact absurd (hbefore.symm.trans (Option.some.inj hafter)) (by decide)

end NiftyShield.Strategy.OverlayCloser
