import NiftyShield.Lib.Run
import NiftyShield.Paper.ChainUtils
import NiftyShield.Strategy.AutoClose
import NiftyShield.Strategy.ExitSignals

/-!
# Exit rules at the end of the day

`compute_and_record_exit_signals` (`scripts/strategies/three_track/paper_3track_snapshot.py`)
evaluates the exit rules of every open position against an option chain, writes what they
find and closes the overlays it may close by itself. It is given the chains of several
expiries, and finds the one of a position, and the days left to it, in two different ways.

## What is proved

* `evaluatedOnOwn_iff`: which keys and maps of chains let a position be evaluated against its
  own expiry;
* `exits_see_own_contract_iff`: when a whole evaluation does, and prices what it closes from
  there too.

## Honest scope

Prices that the code turns into floats and back are kept. The messages about what was found are
left out. An expiry of the BOD file is a date that parses.
-/

namespace NiftyShield.ThreeTrack.EodExits

open NiftyShield.Instruments NiftyShield.Lib NiftyShield.Paper NiftyShield.Strategy
    NiftyShield.Strategy.AutoClose NiftyShield.Strategy.OverlayCloser

/-! ### Expiries -/

/-- The last Tuesday of a month; `none` is the `ValueError` of its last day. -/
def lastTuesday (year month : ℕ) : Option Date :=
  (Date.ofYmd year month (Date.daysInMonth year month)).bind fun last =>
    ((List.range 7).map fun n => last - n).find? fun d => Date.weekday d = 1

/-- `NIFTY(\d{2})([A-Z]{3})(\d{4})`. -/
def datedKeyExpiry (instrumentKey : String) : Option Date :=
  (searchFrom niftyDate instrumentKey.toList).bind fun (day, month, year, _) => dateOfParts day month year

/-- `NIFTY(\d{2})([A-Z]{3})FUT`, year before month. -/
def yearMonthFutureExpiry (instrumentKey : String) : Option Date :=
  (searchFrom (fun s => do
    let s ← stripPrefixCI "NIFTY".toList s
    let (year, s) ← takeDigits 2 s
    let (month, s) ← takeLetters 3 s
    let _ ← stripPrefixCI "FUT".toList s
    some (digitsValue year, month)) instrumentKey.toList).bind fun (year, month) =>
      (monthOfAbbr month).bind (lastTuesday (2000 + year))

/-- `NIFTY([A-Z]{3})(\d{4})FUT`, month before year. -/
def monthYearFutureExpiry (instrumentKey : String) : Option Date :=
  (searchFrom (fun s => do
    let s ← stripPrefixCI "NIFTY".toList s
    let (month, s) ← takeLetters 3 s
    let (year, s) ← takeDigits 4 s
    let _ ← stripPrefixCI "FUT".toList s
    some (month, digitsValue year)) instrumentKey.toList).bind fun (month, year) =>
      (monthOfAbbr month).bind (lastTuesday year)

/-- `_get_expiry_date`: the expiry in the BOD file, else one that the key spells. -/
def getExpiryDate (instrumentKey : String) (instruments : InstrumentLookup) : Option Date :=
  ((instruments.getByKey instrumentKey).bind (·.expiry)).orElse fun _ =>
    (datedKeyExpiry instrumentKey).orElse fun _ =>
      (yearMonthFutureExpiry instrumentKey).orElse fun _ => monthYearFutureExpiry instrumentKey

/-- `_compute_dte`. -/
def computeDte (instrumentKey : String) (today : Date) : Option ℤ :=
  (parseExpiryFromKey instrumentKey).map (today.daysBetween ·)

/-! ### The evaluation of a position -/

/-- What an evaluation works with, apart from the positions and the tables. -/
structure EodEnv where
  /-- `chains`. -/
  chains : Dict Date OptionChain
  /-- `today`, also `market_today()`. -/
  today : Date
  /-- `lookup`. -/
  lookup : Option InstrumentLookup := none
  /-- `save`. -/
  save : Bool := true
  /-- `snapshot_id`. -/
  snapshotId : Option ℤ := none
  /-- There is a `simulator`. -/
  simulator : Bool := true
  /-- `vix`. -/
  vix : Option ℚ := none
  /-- The BOD file that the closer loads. -/
  bod : Option InstrumentLookup := none
  /-- The events that `create_exit_event` fails to write. -/
  createFails : PaperPosition → ExitSignalResult → Bool := fun _ _ => false
  /-- The store operations of a close that fail. -/
  faults : OverlayFaults := {}
  /-- How numbers are printed. -/
  text : RuleText

/-- `_CSP_STRATEGY`. -/
def cspStrategy : String := "paper_csp_nifty_v1"

/-- The rules for a position. -/
inductive Rules where
  /-- A cash-secured put. -/
  | csp
  /-- The short call of a covered call or a collar. -/
  | cc
  /-- A protective put. -/
  | pp
  deriving DecidableEq

/-- The branch of `_dispatch_evaluate`; `none` for a position that no rule is about. -/
def rulesFor (pos : PaperPosition) : Option Rules :=
  if pos.strategyName = cspStrategy ∧ pos.netQty < 0 then some .csp
  else if pos.legRole = "overlay_cc" ∧ pos.netQty < 0 then some .cc
  else if pos.legRole = "overlay_pp" ∧ 0 < pos.netQty then some .pp
  else if pos.legRole = "overlay_collar_call" ∧ pos.netQty < 0 then some .cc
  else none

/-- The side of the chain a rule looks at. -/
def Rules.optionType : Rules → OptionType
  | .csp => .pe
  | .cc => .ce
  | .pp => .pe

/-- A call of the rule engine. -/
inductive EngineCall where
  /-- The five rules of a cash-secured put; the days left are passed twice. -/
  | csp (ltp entryCredit : ℚ) (delta : Option ℚ) (daysHeld dte : ℤ) (resolvedDte : Option ℤ)
  /-- `evaluate_cc`. -/
  | cc (entryPrice currentMark : ℚ) (delta : Option ℚ) (dte : ℤ) (policy : OverlayTenorPolicy)
  /-- `evaluate_pp`. -/
  | pp (entryPrice currentMark : ℚ) (delta : Option ℚ) (dte : ℤ) (policy : OverlayTenorPolicy)

/-- What the rules find. -/
def EngineCall.results (text : RuleText) : EngineCall → List ExitSignalResult
  | .csp ltp entryCredit delta daysHeld dte resolvedDte =>
    sortResults (evaluateProfitTargetCsp text ltp entryCredit ++ evaluateHardStopCsp text ltp entryCredit ++
      evaluateDeltaBreachCsp text delta ++ evaluateTimeStopCsp daysHeld resolvedDte ++ evaluateRollEligibleCsp dte)
  | .cc entryPrice currentMark delta dte policy => evaluateCc text entryPrice currentMark delta dte policy
  | .pp entryPrice currentMark delta dte policy => evaluatePp text entryPrice currentMark delta dte policy

/-- The days to expiry that a call is given. -/
def EngineCall.dtes : EngineCall → List (Option ℤ)
  | .csp _ _ _ _ dte resolvedDte => [some dte, resolvedDte]
  | .cc _ _ _ dte _ => [some dte]
  | .pp _ _ _ dte _ => [some dte]

namespace EodEnv

variable (env : EodEnv)

/-- `pos_expiry`. -/
def posExpiry (pos : PaperPosition) : Option Date :=
  match env.lookup with
  | some lookup => getExpiryDate pos.instrumentKey lookup
  | none => parseExpiryFromKey pos.instrumentKey

/-- `chain`: the one of the expiry, else any. -/
def dispatchChain (pos : PaperPosition) : Option OptionChain :=
  ((env.posExpiry pos).bind env.chains.get?).orElse fun _ => env.chains.values.head?

/-- `_compute_dte(…) or 9999`, which takes zero for a missing value. -/
def dispatchDte (pos : PaperPosition) : ℤ :=
  match computeDte pos.instrumentKey env.today with
  | none => 9999
  | some dte => if dte = 0 then 9999 else dte

/-- `days_held`. -/
def daysHeld (pos : PaperPosition) : ℤ := (pos.entryDate.map (Date.daysBetween · env.today)).getD 0

/-- The call that a rule makes of a leg. -/
def engineCall (pos : PaperPosition) (leg : OptionLeg) : Rules → EngineCall
  | .csp =>
    let dte := env.dispatchDte pos
    .csp leg.ltp pos.avgSellPrice leg.delta (env.daysHeld pos) dte (if dte = 9999 then none else some dte)
  | .cc => .cc pos.avgSellPrice leg.ltp leg.delta (env.dispatchDte pos) (overlayPolicyOf pos.strategyName)
  | .pp => .pp pos.avgCost leg.ltp leg.delta (env.dispatchDte pos) (overlayPolicyOf pos.strategyName)

/-- The chain that `_dispatch_evaluate` takes, and the call it makes. -/
def dispatch (pos : PaperPosition) : Option (OptionChain × EngineCall) := do
  let chain ← env.dispatchChain pos
  let rules ← rulesFor pos
  let leg ← findChainLeg chain pos.instrumentKey rules.optionType env.lookup
  some (chain, env.engineCall pos leg rules)

/-- `_dispatch_evaluate`. -/
def dispatchEvaluate (pos : PaperPosition) : List ExitSignalResult :=
  (env.dispatch pos).elim [] fun evaluation => evaluation.2.results env.text

/-! ### Recording and closing -/

/-- `pos_chain`. -/
def posChain (pos : PaperPosition) : Option OptionChain :=
  match env.posExpiry pos with
  | some expiry => env.chains.get? expiry
  | none => env.chains.values.head?

/-- `act_chain`. -/
def actChain (pos : PaperPosition) : Option OptionChain := (env.posChain pos).orElse fun _ => env.chains.values.head?

end EodEnv

/-- `ExitSignal`. -/
def exitSignals : List String :=
  ["PROFIT_TARGET", "TIME_STOP", "DTE_FORCED", "DTE_REVIEW", "LOSS_STOP", "DELTA_STOP", "DELTA_WARN", "BELOW_FLOOR",
    "CRASH_MONETIZE", "COLLAR_CALL_DECAY", "COLLAR_CALL_WARN", "COLLAR_PUT_CRASH", "COLLAR_CLOSE_ALL",
    "COLLAR_REBALANCE", "R5_REENTRY_ELIGIBLE", "R5_REENTRY_BLOCKED", "BASE_EXPIRY_ALERT", "ROLL_ELIGIBLE",
    "ROLL_BASE_FIRST", "ROLL_DUE_DTE", "ROLL_DUE_DECAY", "OVERLAY_EXPIRED", "PROXY_DELTA_CRITICAL",
    "PROXY_PREMIUM_DECAY", "PROXY_DELTA_WARN", "MANUAL", "MANUAL_OVERRIDE", "NONE"]

/-- `opt_type`. -/
def eventOptionType (pos : PaperPosition) : OptionType :=
  if pos.legRole = "overlay_cc" ∨ pos.legRole = "overlay_collar_call" then .ce
  else if pos.legRole = "overlay_pp" ∨ pos.legRole = "overlay_collar_put" then .pe
  else if pos.netQty < 0 then .pe else .ce

/-- What an evaluation has found, and about which position. -/
abbrev Finding := PaperPosition × ExitSignalResult

/-- The tables, and the `existing` events of today. -/
structure EodState where
  /-- The ledger and the events. -/
  desk : Desk
  /-- `existing`. -/
  existing : List (String × String)

namespace EodEnv

variable (env : EodEnv)

/-- The row of an event. -/
def eventRow : Finding → ExitEventRow := fun (pos, result) =>
  let optLeg := (env.actChain pos).bind fun chain =>
    findChainLeg chain pos.instrumentKey (eventOptionType pos) env.lookup
  { strategyName := pos.strategyName
    legName := pos.legRole
    tradeId := pos.instrumentKey
    eventDate := env.today
    exitSignal := result.exitSignal
    severity := result.severity
    entryPrice := if pos.netQty < 0 then pos.avgSellPrice else pos.avgCost
    snapshotId := env.snapshotId
    ltp := optLeg.map (·.ltp)
    bid := optLeg.map (·.bid)
    ask := optLeg.map (·.ask)
    delta := optLeg.bind (·.delta)
    dte := computeDte pos.instrumentKey env.today
    thresholdValue := result.thresholdValue
    deltaStopWouldFire := result.deltaStopWouldFire
    premiumStopWouldFire := result.premiumStopWouldFire
    actualRuleUsed := result.actualRuleUsed
    notes := result.notes }

/-- The key of an event in `existing`. -/
def eventKey : Finding → String × String := fun (pos, result) => (pos.instrumentKey, result.exitSignal)

local instance lawfulKeys : LawfulBEq (String × String) := inferInstance

/-- The tables with the event written, and its id; `none` if it is skipped or the write fails. -/
def writeEvent (s : EodState) (ev : Finding) : Option (Desk × ℕ) :=
  if ev.2.severity = .info ∨ eventKey ev ∈ s.existing ∨ ev.2.exitSignal ∉ exitSignals ∨
      env.createFails ev.1 ev.2 = true then none
  else
    let (events, id) := s.desk.events.createExitEvent (env.eventRow ev)
    some ({ s.desk with events }, id)

/-- A call of `auto_close_overlay`: its chain, the event, and the tables it is made in. -/
structure CloseCall where
  /-- `chain`. -/
  chain : OptionChain
  /-- `event_id`. -/
  eventId : ℕ
  /-- The tables. -/
  desk : Desk

/-- The call that a finding leads to, if it does. -/
def closeCall (s : EodState) (ev : Finding) : Option CloseCall := do
  let (desk, eventId) ← env.writeEvent s ev
  let chain ← env.actChain ev.1
  if (ev.1.legRole, ev.2.exitSignal) ∈ autoCloseSignals ∧ env.simulator = true ∧
      desk.events.statusOf eventId ≠ some .acted then some { chain, eventId, desk } else none

/-- What a close works with. -/
def closeEnv (chain : OptionChain) : CloseEnv where
  chain := chain
  lookup := env.bod
  vix := env.vix
  today := env.today
  faults := env.faults

/-- One round of the loop over the findings. -/
def record (s : EodState) (ev : Finding) : EodState :=
  match env.writeEvent s ev with
  | none => s
  | some (desk, _) =>
    { desk :=
        match env.closeCall s ev with
        | none => desk
        | some call => (autoCloseOverlay (env.closeEnv call.chain) ev.1 call.eventId call.desk).2
      existing := s.existing ++ [eventKey ev] }

/-- The positions that are evaluated. -/
def evaluated (positions : List PaperPosition) : List PaperPosition :=
  if env.save = true ∧ env.chains.entries ≠ [] then positions.filter fun pos => pos.netQty ≠ 0 else []

/-- The findings about all positions, in order. -/
def findings (positions : List PaperPosition) : List Finding :=
  (env.evaluated positions).flatMap fun pos => (env.dispatchEvaluate pos).map fun result => (pos, result)

/-- The state before the first finding. -/
def initial (desk : Desk) : EodState where
  desk := desk
  existing := (desk.events.getOpenExitEvents.filter fun r => r.eventDate = env.today).map fun r =>
    (r.tradeId, r.exitSignal)

/-- `compute_and_record_exit_signals`. -/
def computeAndRecordExitSignals (positions : List PaperPosition) (desk : Desk) : Desk :=
  (Run.final env.record (env.initial desk) (env.findings positions)).desk

/-! ### The contract of a position -/

/-- The expiry that the lookup knows of a key. -/
def ownExpiry (instrumentKey : String) : Option Date := (env.lookup.bind (·.getByKey instrumentKey)).bind (·.expiry)

/-- The chain of that expiry. -/
def ownChain (instrumentKey : String) : Option OptionChain := (env.ownExpiry instrumentKey).bind env.chains.get?

variable {env} {pos : PaperPosition} {e : Date}

theorem posExpiry_of_own (h : env.ownExpiry pos.instrumentKey = some e) : env.posExpiry pos = some e := by
  unfold ownExpiry at h
  unfold posExpiry
  cases hlookup : env.lookup with
  | none =>
    rw [hlookup] at h
    exact absurd h (by simp)
  | some lookup =>
    rw [hlookup] at h
    simp only [Option.bind_some] at h
    simp only [getExpiryDate, h, Option.orElse_some]

/-- The chain that is closed with is the one that was evaluated against. -/
theorem actChain_eq_dispatchChain (pos : PaperPosition) : env.actChain pos = env.dispatchChain pos := by
  unfold actChain posChain dispatchChain
  cases env.posExpiry pos with
  | none => cases env.chains.values.head? <;> rfl
  | some e => rfl

/-- Against its own chain, if the map has it. -/
theorem dispatchChain_of_own (h : env.ownExpiry pos.instrumentKey = some e) :
    env.dispatchChain pos = (env.chains.get? e).orElse fun _ => env.chains.values.head? := by
  rw [dispatchChain, posExpiry_of_own h, Option.bind_some]

end EodEnv

open EodEnv

/-- Two days are as far apart as two others with the same first exactly if the second are the same. -/
private theorem daysBetween_left_inj {today p e : ℕ} : Date.daysBetween today p = Date.daysBetween today e ↔ p = e := by
  unfold Date.daysBetween
  omega

private theorem daysBetween_eq_zero {today p : ℕ} : Date.daysBetween today p = 0 ↔ p = today := by
  unfold Date.daysBetween
  omega

/-! ### Evaluations -/

/-- The position is evaluated against nothing but the chain of its own expiry, with the days
left to that. -/
def EvaluatedOnOwn (env : EodEnv) (pos : PaperPosition) : Prop :=
  ∀ chain call, env.dispatch pos = some (chain, call) → env.ownChain pos.instrumentKey = some chain ∧
    ∃ e, env.ownExpiry pos.instrumentKey = some e ∧ ∀ dte ∈ call.dtes, dte = some (env.today.daysBetween e)

/-- The key spells an expiry other than today; or it spells none, or today, and the expiry is as
far off as the number that stands for a missing one. -/
def ReadsDte (env : EodEnv) (pos : PaperPosition) (e : Date) : Prop :=
  (parseExpiryFromKey pos.instrumentKey = some e ∧ e ≠ env.today) ∨
    ((parseExpiryFromKey pos.instrumentKey = none ∨ parseExpiryFromKey pos.instrumentKey = some env.today) ∧
      env.today.daysBetween e = 9999)

/-- If the leg is found in the chain that is taken, that is the chain of its expiry, and the
days left can be read off its key. -/
def FoundInOwn (env : EodEnv) (pos : PaperPosition) : Prop :=
  ∀ e rules chain, env.ownExpiry pos.instrumentKey = some e → rulesFor pos = some rules →
    env.dispatchChain pos = some chain →
    (findChainLeg chain pos.instrumentKey rules.optionType env.lookup).isSome = true →
    (env.chains.get? e).isSome = true ∧ ReadsDte env pos e ∧ (rules = .csp → env.today.daysBetween e ≠ 9999)

theorem dispatchDte_eq_iff {env : EodEnv} {pos : PaperPosition} {e : Date} :
    env.dispatchDte pos = env.today.daysBetween e ↔ ReadsDte env pos e := by
  unfold EodEnv.dispatchDte computeDte ReadsDte
  cases hread : parseExpiryFromKey pos.instrumentKey with
  | none =>
    simp only [Option.map_none, reduceCtorEq, false_and, false_or, true_or, true_and]
    exact eq_comm
  | some p =>
    simp only [Option.map_some, Option.some.injEq, reduceCtorEq, false_or, daysBetween_eq_zero]
    by_cases htoday : p = env.today
    · rw [if_pos htoday, htoday]
      constructor
      · exact fun h => Or.inr ⟨rfl, h.symm⟩
      · rintro (⟨h, hne⟩ | ⟨-, h⟩)
        · exact absurd h.symm hne
        · exact h.symm
    · rw [if_neg htoday, daysBetween_left_inj]
      constructor
      · rintro rfl
        exact Or.inl ⟨rfl, htoday⟩
      · rintro (⟨h, -⟩ | ⟨h, -⟩)
        · exact h
        · exact absurd h htoday

/-- The days that a call is given are those to the expiry. -/
theorem dtes_engineCall {env : EodEnv} {pos : PaperPosition} {leg : OptionLeg} {rules : Rules} {e : Date} :
    (∀ dte ∈ (env.engineCall pos leg rules).dtes, dte = some (env.today.daysBetween e)) ↔
      ReadsDte env pos e ∧ (rules = .csp → env.today.daysBetween e ≠ 9999) := by
  rw [← dispatchDte_eq_iff]
  cases rules with
  | csp =>
    simp only [EodEnv.engineCall, EngineCall.dtes, List.forall_mem_cons, List.not_mem_nil, false_imp_iff,
      implies_true, and_true, Option.some.injEq, forall_const]
    refine and_congr_right fun hdte => ?_
    rw [hdte]
    split
    next h => exact iff_of_false (by simp) (not_not.mpr h)
    next h => exact iff_of_true rfl h
  | cc => simp [EodEnv.engineCall, EngineCall.dtes]
  | pp => simp [EodEnv.engineCall, EngineCall.dtes]

/-- **Which positions are evaluated on their own contract.** -/
theorem evaluatedOnOwn_iff {env : EodEnv} {pos : PaperPosition}
    (hknown : (rulesFor pos).isSome = true → ∃ e, env.ownExpiry pos.instrumentKey = some e) :
    EvaluatedOnOwn env pos ↔ FoundInOwn env pos := by
  constructor
  · intro h e rules chain hown hrules hchain hleg
    obtain ⟨leg, hleg⟩ := Option.isSome_iff_exists.mp hleg
    have hdispatch : env.dispatch pos = some (chain, env.engineCall pos leg rules) := by
      simp [EodEnv.dispatch, hchain, hrules, hleg]
    obtain ⟨hownChain, e', hown', hdtes⟩ := h _ _ hdispatch
    obtain rfl : e' = e := Option.some.inj (hown'.symm.trans hown)
    rw [EodEnv.ownChain, hown, Option.bind_some] at hownChain
    exact ⟨by rw [hownChain]; rfl, dtes_engineCall.mp hdtes⟩
  · intro h chain call hdispatch
    simp only [EodEnv.dispatch, Option.bind_eq_bind, Option.bind_eq_some_iff, Option.some.injEq, Prod.mk.injEq]
      at hdispatch
    obtain ⟨chain', hchain, rules, hrules, leg, hleg, rfl, rfl⟩ := hdispatch
    obtain ⟨e, hown⟩ := hknown (by rw [hrules]; rfl)
    obtain ⟨hmap, hdtes⟩ := h e rules chain' hown hrules hchain (by rw [hleg]; rfl)
    obtain ⟨own, hget⟩ := Option.isSome_iff_exists.mp hmap
    rw [EodEnv.dispatchChain_of_own hown, hget, Option.orElse_some, Option.some.injEq] at hchain
    refine ⟨?_, e, hown, dtes_engineCall.mpr hdtes⟩
    rw [EodEnv.ownChain, hown, Option.bind_some, hget, hchain]

/-! ### Closes -/

/-- A close that the finding leads to is priced from the chain of the expiry of each leg that is
closed. -/
def PricesOnOwn (env : EodEnv) (s : EodState) (ev : Finding) : Prop :=
  ∀ call, env.closeCall s ev = some call →
    ∀ t ∈ builtTrades (env.closeEnv call.chain) ev.1 call.eventId call.desk,
      env.ownChain t.instrumentKey = some call.chain

/-- The positions that it looks up by their roles, if it can price them, are of the chain of the
position that the finding is about. -/
def PicksOwnExpiry (env : EodEnv) (s : EodState) (ev : Finding) : Prop :=
  ∀ call, env.closeCall s ev = some call →
    builtTrades (env.closeEnv call.chain) ev.1 call.eventId call.desk ≠ [] →
    ∀ leg ∈ pickedLegs (env.closeEnv call.chain) ev.1 call.eventId call.desk,
      env.ownChain leg.instrumentKey = env.ownChain ev.1.instrumentKey

/-- A finding comes from an evaluation of its position. -/
theorem dispatch_of_mem_findings {env : EodEnv} {positions : List PaperPosition} {ev : Finding}
    (h : ev ∈ env.findings positions) :
    ev.1 ∈ env.evaluated positions ∧ ∃ evaluation, env.dispatch ev.1 = some evaluation := by
  obtain ⟨pos, hpos, hresult⟩ := List.mem_flatMap.mp h
  obtain ⟨result, hmem, rfl⟩ := List.mem_map.mp hresult
  refine ⟨hpos, ?_⟩
  unfold EodEnv.dispatchEvaluate at hmem
  cases hdispatch : env.dispatch pos with
  | none =>
    rw [hdispatch] at hmem
    exact absurd hmem (by simp)
  | some evaluation => exact ⟨evaluation, rfl⟩

/-- A close is priced from the chain that its finding comes from. -/
theorem chain_closeCall {env : EodEnv} {s : EodState} {ev : Finding} {call : EodEnv.CloseCall}
    {evaluation : OptionChain × EngineCall} (hcall : env.closeCall s ev = some call)
    (hdispatch : env.dispatch ev.1 = some evaluation) : call.chain = evaluation.1 := by
  simp only [EodEnv.closeCall, Option.bind_eq_bind, Option.bind_eq_some_iff] at hcall
  obtain ⟨⟨desk, eventId⟩, -, chain, hact, hcall⟩ := hcall
  split at hcall
  next =>
    obtain rfl := Option.some.inj hcall
    simp only [EodEnv.dispatch, Option.bind_eq_bind, Option.bind_eq_some_iff, Option.some.injEq] at hdispatch
    obtain ⟨chain', hchain, -, -, -, -, rfl⟩ := hdispatch
    rw [EodEnv.actChain_eq_dispatchChain, hchain] at hact
    exact (Option.some.inj hact).symm
  next => exact absurd hcall (by simp)

theorem pricesOnOwn_iff {env : EodEnv} {s : EodState} {ev : Finding} {evaluation : OptionChain × EngineCall}
    (hown : EvaluatedOnOwn env ev.1) (hdispatch : env.dispatch ev.1 = some evaluation) :
    PricesOnOwn env s ev ↔ PicksOwnExpiry env s ev := by
  have hchain : env.ownChain ev.1.instrumentKey = some evaluation.1 := (hown evaluation.1 evaluation.2 hdispatch).1
  unfold PricesOnOwn PicksOwnExpiry
  refine forall₂_congr fun call hcall => ?_
  rw [hchain, ← chain_closeCall hcall hdispatch]
  generalize env.closeEnv call.chain = closeEnv
  constructor
  · intro h hbuilt leg hleg
    have hkey : leg.instrumentKey ∈ (builtTrades closeEnv ev.1 call.eventId call.desk).map (·.instrumentKey) := by
      rw [keys_builtTrades hbuilt]
      exact List.mem_map_of_mem hleg
    obtain ⟨t, ht, hkey⟩ := List.mem_map.mp hkey
    exact hkey ▸ h t ht
  · intro h t ht
    have hbuilt := List.ne_nil_of_mem ht
    have hkey : t.instrumentKey ∈ (pickedLegs closeEnv ev.1 call.eventId call.desk).map (·.instrumentKey) := by
      rw [← keys_builtTrades hbuilt]
      exact List.mem_map_of_mem ht
    obtain ⟨leg, hleg, hkey⟩ := List.mem_map.mp hkey
    exact hkey ▸ h hbuilt leg hleg

/-! ### A whole evaluation -/

/-- Every position is evaluated on its own contract, one whose chain is missing is not written
about, and every close is priced from the chain of the leg it closes. -/
structure SeesOwnContract (env : EodEnv) (positions : List PaperPosition) (desk : Desk) : Prop where
  /-- Evaluations. -/
  evaluates : ∀ pos ∈ env.evaluated positions, EvaluatedOnOwn env pos
  /-- Findings, of which the events are made. -/
  finds : ∀ ev ∈ env.findings positions, env.ownChain ev.1.instrumentKey ≠ none
  /-- Closes. -/
  prices : Run.EachStep env.record (PricesOnOwn env) (env.initial desk) (env.findings positions)

/-- **The exit rules see the right contract** exactly under these conditions. -/
theorem exits_see_own_contract_iff {env : EodEnv} {positions : List PaperPosition} {desk : Desk}
    (hknown : ∀ pos ∈ positions, (rulesFor pos).isSome = true → ∃ e, env.ownExpiry pos.instrumentKey = some e) :
    SeesOwnContract env positions desk ↔
      (∀ pos ∈ env.evaluated positions, FoundInOwn env pos) ∧
        Run.EachStep env.record (PicksOwnExpiry env) (env.initial desk) (env.findings positions) := by
  have hsub : ∀ pos ∈ env.evaluated positions, pos ∈ positions := by
    intro pos hpos
    unfold EodEnv.evaluated at hpos
    split at hpos
    next => exact (List.mem_filter.mp hpos).1
    next => exact absurd hpos (by simp)
  have hevaluates : (∀ pos ∈ env.evaluated positions, EvaluatedOnOwn env pos) ↔
      ∀ pos ∈ env.evaluated positions, FoundInOwn env pos :=
    forall₂_congr fun pos hpos => evaluatedOnOwn_iff (hknown pos (hsub pos hpos))
  have hprices : (∀ pos ∈ env.evaluated positions, EvaluatedOnOwn env pos) →
      (Run.EachStep env.record (PricesOnOwn env) (env.initial desk) (env.findings positions) ↔
        Run.EachStep env.record (PicksOwnExpiry env) (env.initial desk) (env.findings positions)) := by
    intro hown
    refine Run.eachStep_congr_of_mem fun ev hev s => ?_
    obtain ⟨hpos, evaluation, hdispatch⟩ := dispatch_of_mem_findings hev
    exact pricesOnOwn_iff (hown ev.1 hpos) hdispatch
  constructor
  · intro h
    exact ⟨hevaluates.mp h.evaluates, (hprices h.evaluates).mp h.prices⟩
  · rintro ⟨hfound, hpicks⟩
    have hown := hevaluates.mpr hfound
    refine ⟨hown, fun ev hev => ?_, (hprices hown).mpr hpicks⟩
    obtain ⟨hpos, evaluation, hdispatch⟩ := dispatch_of_mem_findings hev
    rw [(hown ev.1 hpos evaluation.1 evaluation.2 hdispatch).1]
    exact Option.some_ne_none _

/-! ### A call whose chain is missing -/

/-- A call of the later of two expiries, sold at 100. -/
def laterCall : PaperPosition where
  strategyName := "paper_nifty_overlay"
  legRole := "overlay_cc"
  netQty := -65
  avgCost := 0
  avgSellPrice := 100
  instrumentKey := "NSE_FO|65900"
  entryDate := some 739780

/-- The ledger that holds it. -/
def laterDesk : Desk where
  trades :=
    (PaperTrades.empty.recordTrade
      { strategyName := "paper_nifty_overlay"
        legRole := "overlay_cc"
        instrumentKey := "NSE_FO|65900"
        tradeDate := 739780
        action := .sell
        quantity := 65
        price := 100
        paperPrefix := hasPaperPrefix_overlay
        legRole_ne := overlayCc_ne
        instrumentKey_ne := key65900_ne
        quantity_pos := lot_pos
        price_pos := price100_pos }).1
  events := ExitEvents.empty

/-- The BOD file. -/
def laterLookup : InstrumentLookup where
  instruments :=
    [{ instrumentKey := "NSE_FO|65900"
       instrumentType := some "CE"
       strikePrice := some 25000
       expiry := some 739825 }]

/-- Only the earlier expiry has a chain, with a call of the same strike at 20. -/
def earlierEnv : EodEnv where
  chains := Dict.empty.set 739797
    { underlyingSpot := 24600
      expiry := 739797
      strikes := Dict.empty.set 25000 { ce := some { ltp := 20, bid := 19, ask := 21, strike := 25000 } } }
  today := 739791
  lookup := some laterLookup
  bod := some laterLookup
  text :=
    { decimal := toString
      fixed3 := toString
      float := toString
      fixed2 := toString
      fixed4 := toString
      percent := toString }

theorem laterCall_known : ∀ pos ∈ [laterCall], (rulesFor pos).isSome = true →
    ∃ e, earlierEnv.ownExpiry pos.instrumentKey = some e := by
  intro pos hpos _
  rw [List.mem_singleton.mp hpos]
  exact ⟨739825, by decide +kernel⟩

example : laterDesk.trades.getPositions none "paper_nifty_overlay" = [laterCall] := by decide +kernel

-- it is bought back at the price of the other contract
example : (earlierEnv.computeAndRecordExitSignals [laterCall] laterDesk).trades.getPositions none
    "paper_nifty_overlay" = [] := by decide +kernel

/-- The call is evaluated against the chain of the other expiry. -/
theorem laterCall_wrong_chain :
    (∀ pos ∈ [laterCall], (rulesFor pos).isSome = true → ∃ e, earlierEnv.ownExpiry pos.instrumentKey = some e) ∧
      ¬SeesOwnContract earlierEnv [laterCall] laterDesk := by
  refine ⟨laterCall_known, fun h => ?_⟩
  have hown : earlierEnv.ownChain "NSE_FO|65900" = none := by decide +kernel
  have hfound : (earlierEnv.findings [laterCall]).map (fun ev => (ev.1.instrumentKey, ev.2.exitSignal)) =
      [("NSE_FO|65900", "PROFIT_TARGET")] := by
    decide +kernel
  obtain ⟨ev, hev, hkey⟩ := List.mem_map.mp (hfound ▸ List.mem_singleton_self _)
  have hkey : ev.1.instrumentKey = "NSE_FO|65900" := congrArg Prod.fst hkey
  exact h.finds ev hev (by rw [hkey, hown])

/-- The equivalence there. -/
theorem exits_see_own_contract_iff_laterCall :
    SeesOwnContract earlierEnv [laterCall] laterDesk ↔
      (∀ pos ∈ earlierEnv.evaluated [laterCall], FoundInOwn earlierEnv pos) ∧
        Run.EachStep earlierEnv.record (PicksOwnExpiry earlierEnv) (earlierEnv.initial laterDesk)
          (earlierEnv.findings [laterCall]) :=
  exits_see_own_contract_iff laterCall_known

end NiftyShield.ThreeTrack.EodExits
