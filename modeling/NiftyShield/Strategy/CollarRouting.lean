import NiftyShield.Strategy.CollarSignals
import NiftyShield.Strategy.Monitor
import Mathlib.Data.List.Forall2

/-!
# Routing the signals of a collar

`CollarOverlayV1.check_signals` (`src/strategy/collar_overlay_v1.py`) returns every rule that fires
as an event; `_select_combined_reentry_action` marks one ACTION event for execution and takes the
mark off the others, "demote to informational", but leaves their severity. The router of
`StrategyMonitor` (`src/strategy/monitor.py`) executes an ACTION event with the mark and asks for
approval of one without.

## What is proved

* `reports_checkSignals`: the events with their whole payload are those of `CollarSignals`;
* `one_action_iff`: a tick with `n` ACTION events starts one action and creates `n - 1` approval
  requests, so that it leads to one action exactly when there is one ACTION event.

## Honest scope

`send_approval_request` answers `None` on any failure, and neither `describe_context` nor
`create_approval` fails; sending a WARN may.
-/

namespace NiftyShield.Strategy.CollarOverlay

open NiftyShield.Instruments NiftyShield.Lib NiftyShield.Lib.Raising NiftyShield.Paper
open Monitor (Registered RoutedEvent TickState routeEvent isAutoExecuted)

/-! ### Payloads -/

/-- `payload[key] = value`. -/
def setKey : Payload → String → PyValue → Payload
  | [], key, value => [(key, value)]
  | e :: p, key, value => if e.1 = key then (key, value) :: p else e :: setKey p key value

/-- `{**p, **es}`. -/
def updateKeys (p es : Payload) : Payload := es.foldl (fun p e => setKey p e.1 e.2) p

/-- `{k: v for k, v in p.items() if k != key}`. -/
def dropKey (p : Payload) (key : String) : Payload := p.filter fun e => e.1 ≠ key

theorem lookup_cons (e : String × PyValue) (p : Payload) (key : String) :
    PyValue.lookup (e :: p) key = if e.1 = key then some e.2 else PyValue.lookup p key := by
  rw [PyValue.lookup, List.find?_cons]
  by_cases h : e.1 = key
  · simp [h]
  · simp [h, PyValue.lookup]

theorem lookup_append (p q : Payload) (key : String) :
    PyValue.lookup (p ++ q) key = (PyValue.lookup p key).or (PyValue.lookup q key) := by
  simp only [PyValue.lookup, List.find?_append]
  cases p.find? fun e => e.1 = key <;> rfl

theorem lookup_setKey (p : Payload) (key key' : String) (value : PyValue) :
    PyValue.lookup (setKey p key value) key' = if key = key' then some value else PyValue.lookup p key' := by
  induction p with
  | nil => exact lookup_cons (key, value) [] key'
  | cons e p ih =>
    rw [setKey]
    by_cases he : e.1 = key
    · rw [if_pos he, lookup_cons, lookup_cons, he]
      split <;> rfl
    · rw [if_neg he, lookup_cons, lookup_cons, ih]
      by_cases hkey : e.1 = key'
      · rw [if_pos hkey, if_pos hkey, if_neg fun h => he (hkey.trans h.symm)]
      · rw [if_neg hkey, if_neg hkey]

theorem lookup_dropKey (p : Payload) (key key' : String) :
    PyValue.lookup (dropKey p key) key' = if key = key' then none else PyValue.lookup p key' := by
  induction p with
  | nil => split <;> rfl
  | cons e p ih =>
    rw [lookup_cons]
    by_cases he : e.1 = key
    · rw [dropKey, List.filter_cons_of_neg (by simpa using he), ← dropKey, ih]
      by_cases hkey : key = key'
      · rw [if_pos hkey, if_pos hkey]
      · rw [if_neg hkey, if_neg hkey, if_neg fun h => hkey (he.symm.trans h)]
    · rw [dropKey, List.filter_cons_of_pos (by simpa using he), ← dropKey, lookup_cons, ih]
      by_cases hkey : e.1 = key'
      · rw [if_pos hkey, if_pos hkey, if_neg fun h => he (hkey.trans h.symm)]
      · rw [if_neg hkey, if_neg hkey]

theorem isJsonDict_cons (e : String × PyValue) (p : Payload) :
    PyValue.isJsonDict (e :: p) = (e.2.isJson && PyValue.isJsonDict p) := by rw [PyValue.isJsonDict]

theorem isJsonDict_iff (p : Payload) : PyValue.isJsonDict p = true ↔ ∀ e ∈ p, e.2.isJson = true := by
  induction p with
  | nil => simp [PyValue.isJsonDict]
  | cons e p ih => rw [isJsonDict_cons, Bool.and_eq_true, ih, List.forall_mem_cons]

theorem mem_setKey {p : Payload} {key : String} {value : PyValue} {e : String × PyValue} (h : e ∈ setKey p key value) :
    e = (key, value) ∨ e ∈ p := by
  induction p with
  | nil => exact Or.inl (List.mem_singleton.mp h)
  | cons f p ih =>
    rw [setKey] at h
    split at h
    · exact (List.mem_cons.mp h).imp_right (List.mem_cons_of_mem f)
    · rcases List.mem_cons.mp h with rfl | h
      · exact Or.inr (List.mem_cons_self ..)
      · exact (ih h).imp_right (List.mem_cons_of_mem f)

theorem isJsonDict_setKey {p : Payload} {key : String} {value : PyValue} (hp : PyValue.isJsonDict p = true)
    (hvalue : value.isJson = true) : PyValue.isJsonDict (setKey p key value) = true := by
  rw [isJsonDict_iff] at hp ⊢
  intro e he
  rcases mem_setKey he with rfl | he
  · exact hvalue
  · exact hp e he

theorem isJsonDict_dropKey {p : Payload} {key : String} (hp : PyValue.isJsonDict p = true) :
    PyValue.isJsonDict (dropKey p key) = true := by
  rw [isJsonDict_iff] at hp ⊢
  exact fun e he => hp e (List.mem_of_mem_filter he)

/-! ### Events with their payload -/

/-- The text of an action type. -/
def CollarActionType.text : CollarActionType → String
  | .closeCollar => "CLOSE_COLLAR"
  | .closeAndReenterCollar => "CLOSE_AND_REENTER_COLLAR"

/-- The entries that have an event executed. -/
def autoEntries (action : CollarActionType) (triggeringSignal : String) : Payload :=
  [("auto_execute", .bool true), ("auto_action", .str action.text), ("triggering_signal", .str triggeringSignal),
    ("valid_actions", .list [.str action.text])]

/-- The winner of a tick, with its payload. -/
def promotedSignal (winnerType : String) (e : SignalEvent) : SignalEvent :=
  { e with payload := updateKeys e.payload (autoEntries .closeAndReenterCollar winnerType) }

/-- Another ACTION event of the tick, with its payload. -/
def demotedSignal (e : SignalEvent) : SignalEvent :=
  { e with payload := dropKey (dropKey e.payload "auto_execute") "auto_action" }

/-- The loop of `_select_combined_reentry_action`, on whole events. -/
def promoteSignals (winnerType : String) : Bool → List SignalEvent → List SignalEvent
  | _, [] => []
  | winnerEmitted, e :: events =>
    if e.severity = .action then
      if e.eventType = winnerType ∧ winnerEmitted = false then
        promotedSignal winnerType e :: promoteSignals winnerType true events
      else demotedSignal e :: promoteSignals winnerType winnerEmitted events
    else e :: promoteSignals winnerType winnerEmitted events

/-- `_select_combined_reentry_action`, on whole events. -/
def selectCombinedSignals (events : List SignalEvent) : List SignalEvent :=
  match reentryActionPriority.find? fun t => events.any fun e => e.severity = .action && e.eventType = t with
  | none => events
  | some winnerType => promoteSignals winnerType false events

namespace CollarWatch

variable (w : CollarWatch) (market : OptionChain) (call : PaperPosition) (put : Option PaperPosition)

/-- The entry of a leg in `leg_states`. -/
def legState (pos : PaperPosition) (entryPrice : ℚ) : PyValue :=
  .dict [("instrument_key", .str pos.instrumentKey), ("entry_price", .str (w.text.decimal entryPrice)),
    ("qty", .int pos.netQty)]

/-- `leg_states`. -/
def legStates : PyValue :=
  .dict (("short_call", w.legState call call.avgSellPrice) ::
    (put.map fun p => ("long_put", w.legState p p.avgCost)).toList)

/-- The quote of a leg in the chain, with what it was entered at. -/
def quoteEntries (pos : PaperPosition) (entryKey : String) (entryPrice : ℚ) : Payload :=
  match w.legOf market pos with
  | none => []
  | some leg =>
    [("delta", .str (leg.delta.elim "None" w.text.decimal)), ("mark", .str (w.text.decimal leg.ltp)),
      (entryKey, .str (w.text.decimal entryPrice))]

/-- The audit fields of a result that are set. -/
def auditEntries (result : ExitSignalResult) : Payload :=
  (result.deltaStopWouldFire.map fun b => ("delta_stop_would_fire", PyValue.bool b)).toList ++
    (result.premiumStopWouldFire.map fun b => ("premium_stop_would_fire", PyValue.bool b)).toList ++
    (result.actualRuleUsed.map fun rule => ("actual_rule_used", PyValue.str rule)).toList

/-- The event of a result of the short call. -/
def callSignal (result : ExitSignalResult) : SignalEvent where
  eventType := result.exitSignal
  severity := result.severity
  description := (result.notes.filter (· ≠ "")).getD result.exitSignal
  payload :=
    [("leg_role", .str call.legRole), ("triggering_leg", .str "short_call"), ("leg_states", w.legStates call put),
        ("dte", .int (w.dte call))] ++ w.quoteEntries market call "entry_credit" call.avgSellPrice ++ auditEntries result ++
      if result.severity = .action then autoEntries .closeCollar result.exitSignal else []

/-- The event of a result of the long put `p`. -/
def putSignal (p : PaperPosition) (result : ExitSignalResult) : SignalEvent where
  eventType := result.exitSignal
  severity := result.severity
  description := (result.notes.filter (· ≠ "")).getD result.exitSignal
  payload :=
    [("leg_role", .str p.legRole), ("triggering_leg", .str "long_put"), ("leg_states", w.legStates call put)] ++
      w.quoteEntries market p "entry_debit" p.avgCost ++ autoEntries .closeCollar result.exitSignal

/-- The events before one of them is selected. -/
def legSignals : List SignalEvent :=
  (w.callResults market call).map (w.callSignal market call put) ++
    put.elim [] fun p => (w.putResults market p).map (w.putSignal market call put p)

/-- `check_signals`, with the whole payload of the events. -/
def signalEvents (positions : List PaperPosition) : List SignalEvent :=
  match w.shortCall positions with
  | none => []
  | some call =>
    (selectCombinedSignals (w.legSignals market call (w.longPut positions))).insertionSort fun e f =>
      e.severity.rank ≤ f.severity.rank

end CollarWatch

/-! ### The events of `CollarSignals` -/

/-- The event is that one, and its payload says so. -/
structure Reports (c : CollarEvent) (e : SignalEvent) : Prop where
  /-- The same type. -/
  eventType : e.eventType = c.eventType
  /-- The same severity. -/
  severity : e.severity = c.severity
  /-- The same description. -/
  description : e.description = c.description
  /-- The leg. -/
  legRole : PyValue.lookup e.payload "leg_role" = some (.str c.legRole)
  /-- The mark for execution. -/
  autoExecute : PyValue.lookup e.payload "auto_execute" = if c.autoExecute = true then some (.bool true) else none
  /-- The action. -/
  autoAction : PyValue.lookup e.payload "auto_action" = c.autoAction.map fun k => .str k.text
  /-- No legs are named. -/
  legsToClose : PyValue.lookup e.payload "legs_to_close" = none
  /-- None are opened. -/
  legsToOpen : PyValue.lookup e.payload "legs_to_open" = none
  /-- The payload can be stored. -/
  json : PyValue.isJsonDict e.payload = true

section Reports

variable {w : CollarWatch} {market : OptionChain} {call p : PaperPosition} {put : Option PaperPosition}
  {result : ExitSignalResult} {c : CollarEvent} {e : SignalEvent} {t : String}

/-- What is not about routing is under other keys, and can be stored. -/
theorem lookup_quoteEntries {pos : PaperPosition} {entryKey : String} {entryPrice : ℚ} {key : String}
    (h : key ∉ ["delta", "mark", entryKey]) : PyValue.lookup (w.quoteEntries market pos entryKey entryPrice) key = none := by
  unfold CollarWatch.quoteEntries
  simp only [List.mem_cons, List.not_mem_nil, or_false, not_or] at h
  split
  · rfl
  · rw [lookup_cons, lookup_cons, lookup_cons, if_neg (Ne.symm h.1), if_neg (Ne.symm h.2.1), if_neg (Ne.symm h.2.2)]
    rfl

theorem lookup_optional {α : Type} (o : Option α) (f : α → PyValue) {k key : String} (hk : k ≠ key) :
    PyValue.lookup (o.map fun a => (k, f a)).toList key = none := by
  cases o with
  | none => rfl
  | some a => exact (lookup_cons _ _ _).trans (if_neg hk)

theorem lookup_auditEntries {key : String}
    (h : key ∉ ["delta_stop_would_fire", "premium_stop_would_fire", "actual_rule_used"]) :
    PyValue.lookup (CollarWatch.auditEntries result) key = none := by
  simp only [List.mem_cons, List.not_mem_nil, or_false, not_or] at h
  rw [CollarWatch.auditEntries, lookup_append, lookup_append, lookup_optional _ _ (Ne.symm h.1),
    lookup_optional _ _ (Ne.symm h.2.1), lookup_optional _ _ (Ne.symm h.2.2)]
  rfl

theorem isJson_legStates : (w.legStates call put).isJson = true := by
  cases put <;> simp [CollarWatch.legStates, CollarWatch.legState, PyValue.isJson, PyValue.isJsonDict]

theorem isJson_quoteEntries {pos : PaperPosition} {entryKey : String} {entryPrice : ℚ} :
    ∀ e ∈ w.quoteEntries market pos entryKey entryPrice, e.2.isJson = true := by
  unfold CollarWatch.quoteEntries
  split <;> simp [PyValue.isJson]

theorem isJson_auditEntries : ∀ e ∈ CollarWatch.auditEntries result, e.2.isJson = true := by
  intro e he
  simp only [CollarWatch.auditEntries, List.mem_append, Option.mem_toList, Option.map_eq_some_iff] at he
  rcases he with (⟨b, -, rfl⟩ | ⟨b, -, rfl⟩) | ⟨rule, -, rfl⟩ <;> rfl

theorem isJson_autoEntries {k : CollarActionType} : ∀ e ∈ autoEntries k t, e.2.isJson = true := by
  simp [autoEntries, PyValue.isJson, PyValue.isJsonList]

/-- The keys of a payload that are not about routing. -/
def detailKeys : List String :=
  ["leg_role", "triggering_leg", "leg_states", "dte", "delta", "mark", "entry_credit", "entry_debit",
    "delta_stop_would_fire", "premium_stop_would_fire", "actual_rule_used"]

theorem lookup_callSignal {key : String} (h : key ∉ detailKeys) :
    PyValue.lookup (w.callSignal market call put result).payload key =
      PyValue.lookup (if result.severity = .action then autoEntries .closeCollar result.exitSignal else []) key := by
  have hdetail : ["delta", "mark", "entry_credit"] ⊆ detailKeys := by decide
  have haudited : ["delta_stop_would_fire", "premium_stop_would_fire", "actual_rule_used"] ⊆ detailKeys := by decide
  have hquote : key ∉ ["delta", "mark", "entry_credit"] := fun hmem => h (hdetail hmem)
  have haudit : key ∉ ["delta_stop_would_fire", "premium_stop_would_fire", "actual_rule_used"] := fun hmem =>
    h (haudited hmem)
  have hhead : PyValue.lookup [("leg_role", .str call.legRole), ("triggering_leg", .str "short_call"),
      ("leg_states", w.legStates call put), ("dte", .int (w.dte call))] key = none := by
    simp only [detailKeys, List.mem_cons, not_or] at h
    simp [PyValue.lookup, Ne.symm h.1, Ne.symm h.2.1, Ne.symm h.2.2.1, Ne.symm h.2.2.2.1]
  rw [CollarWatch.callSignal, lookup_append, lookup_append, lookup_append, hhead, lookup_quoteEntries hquote,
    lookup_auditEntries haudit]
  rfl

theorem lookup_putSignal {key : String} (h : key ∉ detailKeys) :
    PyValue.lookup (w.putSignal market call put p result).payload key =
      PyValue.lookup (autoEntries .closeCollar result.exitSignal) key := by
  have hdetail : ["delta", "mark", "entry_debit"] ⊆ detailKeys := by decide
  have hquote : key ∉ ["delta", "mark", "entry_debit"] := fun hmem => h (hdetail hmem)
  have hhead : PyValue.lookup [("leg_role", .str p.legRole), ("triggering_leg", .str "long_put"),
      ("leg_states", w.legStates call put)] key = none := by
    simp only [detailKeys, List.mem_cons, not_or] at h
    simp [PyValue.lookup, Ne.symm h.1, Ne.symm h.2.1, Ne.symm h.2.2.1]
  rw [CollarWatch.putSignal, lookup_append, lookup_append, hhead, lookup_quoteEntries hquote]
  rfl

theorem reports_callSignal : Reports (w.callEvent market call result) (w.callSignal market call put result) where
  eventType := rfl
  severity := rfl
  description := rfl
  legRole := rfl
  autoExecute := by
    rw [lookup_callSignal (by decide), CollarWatch.callEvent]
    by_cases h : result.severity = .action <;> simp [h, autoEntries, PyValue.lookup]
  autoAction := by
    rw [lookup_callSignal (by decide), CollarWatch.callEvent]
    by_cases h : result.severity = .action <;> simp [h, autoEntries, PyValue.lookup]
  legsToClose := by
    rw [lookup_callSignal (by decide)]
    by_cases h : result.severity = .action <;> simp [h, autoEntries, PyValue.lookup]
  legsToOpen := by
    rw [lookup_callSignal (by decide)]
    by_cases h : result.severity = .action <;> simp [h, autoEntries, PyValue.lookup]
  json := by
    rw [isJsonDict_iff]
    intro e he
    simp only [CollarWatch.callSignal, List.mem_append] at he
    rcases he with ((he | he) | he) | he
    · simp only [List.mem_cons, List.not_mem_nil, or_false] at he
      rcases he with rfl | rfl | rfl | rfl
      · rfl
      · rfl
      · exact isJson_legStates
      · rfl
    · exact isJson_quoteEntries e he
    · exact isJson_auditEntries e he
    · split at he
      · exact isJson_autoEntries e he
      · exact absurd he List.not_mem_nil

theorem reports_putSignal : Reports (w.putEvent market p result) (w.putSignal market call put p result) where
  eventType := rfl
  severity := rfl
  description := rfl
  legRole := rfl
  autoExecute := by
    rw [lookup_putSignal (by decide)]
    rfl
  autoAction := by
    rw [lookup_putSignal (by decide)]
    rfl
  legsToClose := by
    rw [lookup_putSignal (by decide)]
    rfl
  legsToOpen := by
    rw [lookup_putSignal (by decide)]
    rfl
  json := by
    rw [isJsonDict_iff]
    intro e he
    simp only [CollarWatch.putSignal, List.mem_append] at he
    rcases he with (he | he) | he
    · simp only [List.mem_cons, List.not_mem_nil, or_false] at he
      rcases he with rfl | rfl | rfl
      · rfl
      · rfl
      · exact isJson_legStates
    · exact isJson_quoteEntries e he
    · exact isJson_autoEntries e he

theorem reports_promoted (h : Reports c e) : Reports (c.promoted t) (promotedSignal t e) where
  eventType := h.eventType
  severity := h.severity
  description := h.description
  legRole := by
    simp only [promotedSignal, updateKeys, autoEntries, List.foldl_cons, List.foldl_nil, lookup_setKey]
    exact h.legRole
  autoExecute := by
    simp only [promotedSignal, updateKeys, autoEntries, List.foldl_cons, List.foldl_nil, lookup_setKey]
    simp [CollarEvent.promoted]
  autoAction := by
    simp only [promotedSignal, updateKeys, autoEntries, List.foldl_cons, List.foldl_nil, lookup_setKey]
    simp [CollarEvent.promoted]
  legsToClose := by
    simp only [promotedSignal, updateKeys, autoEntries, List.foldl_cons, List.foldl_nil, lookup_setKey]
    simpa using h.legsToClose
  legsToOpen := by
    simp only [promotedSignal, updateKeys, autoEntries, List.foldl_cons, List.foldl_nil, lookup_setKey]
    simpa using h.legsToOpen
  json := by
    simp only [promotedSignal, updateKeys, autoEntries, List.foldl_cons, List.foldl_nil]
    exact isJsonDict_setKey (isJsonDict_setKey (isJsonDict_setKey (isJsonDict_setKey h.json rfl) rfl) rfl) rfl

theorem reports_demoted (h : Reports c e) : Reports c.demoted (demotedSignal e) where
  eventType := h.eventType
  severity := h.severity
  description := h.description
  legRole := by
    simp only [demotedSignal, lookup_dropKey]
    exact h.legRole
  autoExecute := by
    simp only [demotedSignal, lookup_dropKey]
    simp [CollarEvent.demoted]
  autoAction := by
    simp only [demotedSignal, lookup_dropKey]
    simp [CollarEvent.demoted]
  legsToClose := by
    simp only [demotedSignal, lookup_dropKey]
    simpa using h.legsToClose
  legsToOpen := by
    simp only [demotedSignal, lookup_dropKey]
    simpa using h.legsToOpen
  json := isJsonDict_dropKey (isJsonDict_dropKey h.json)

variable {cs : List CollarEvent} {es : List SignalEvent} {positions : List PaperPosition}

theorem reports_promoteSignals (h : List.Forall₂ Reports cs es) (emitted : Bool) :
    List.Forall₂ Reports (promote t emitted cs) (promoteSignals t emitted es) := by
  induction h generalizing emitted with
  | nil => exact .nil
  | cons hce _ ih =>
    rw [promote, promoteSignals, hce.severity, hce.eventType]
    split
    · split
      · exact .cons (reports_promoted hce) (ih true)
      · exact .cons (reports_demoted hce) (ih emitted)
    · exact .cons hce (ih emitted)

theorem reports_select (h : List.Forall₂ Reports cs es) :
    List.Forall₂ Reports (selectCombinedReentryAction cs) (selectCombinedSignals es) := by
  have hany : ∀ t, (es.any fun e => e.severity = .action && e.eventType = t) =
      cs.any fun e => e.severity = .action && e.eventType = t := by
    intro t
    induction h with
    | nil => rfl
    | cons hce _ ih => rw [List.any_cons, List.any_cons, ih, hce.severity, hce.eventType]
  simp only [selectCombinedReentryAction, selectCombinedSignals, hany]
  cases reentryActionPriority.find? fun t => cs.any fun e => e.severity = .action && e.eventType = t with
  | none => exact h
  | some t => exact reports_promoteSignals h false

theorem reports_orderedInsert (hce : Reports c e) (h : List.Forall₂ Reports cs es) :
    List.Forall₂ Reports (cs.orderedInsert (fun c d => c.severity.rank ≤ d.severity.rank) c)
      (es.orderedInsert (fun e f => e.severity.rank ≤ f.severity.rank) e) := by
  induction h with
  | nil => exact .cons hce .nil
  | cons hdf hrest ih =>
    rw [List.orderedInsert_cons, List.orderedInsert_cons, hce.severity, hdf.severity]
    split
    · exact .cons hce (.cons hdf hrest)
    · exact .cons hdf ih

theorem reports_sort (h : List.Forall₂ Reports cs es) :
    List.Forall₂ Reports (cs.insertionSort fun c d => c.severity.rank ≤ d.severity.rank)
      (es.insertionSort fun e f => e.severity.rank ≤ f.severity.rank) := by
  induction h with
  | nil => exact .nil
  | cons hce _ ih =>
    rw [List.insertionSort_cons, List.insertionSort_cons]
    exact reports_orderedInsert hce ih

variable (w market positions) in
/-- **The events of a tick**, with their payload, are those of `CollarSignals`. -/
theorem reports_checkSignals : List.Forall₂ Reports (w.checkSignals market positions) (w.signalEvents market positions) := by
  unfold CollarWatch.checkSignals CollarWatch.signalEvents
  cases w.shortCall positions with
  | none => exact .nil
  | some call =>
    refine reports_sort (reports_select (List.rel_append (R := Reports) ?_ ?_))
    · exact List.forall₂_map_left_iff.mpr (List.forall₂_map_right_iff.mpr
        (List.forall₂_same.mpr fun _ _ => reports_callSignal))
    · cases w.longPut positions with
      | none => exact .nil
      | some p =>
        exact List.forall₂_map_left_iff.mpr (List.forall₂_map_right_iff.mpr
          (List.forall₂_same.mpr fun _ _ => reports_putSignal))

end Reports

/-! ### One event is marked -/

/-- An ACTION event. -/
def CollarEvent.isAction (c : CollarEvent) : Bool := c.severity = .action

/-- An ACTION event with the mark for execution. -/
def CollarEvent.isMarked (c : CollarEvent) : Bool := c.isAction && c.autoExecute

section Marked

variable {t : String} {c : CollarEvent} {cs : List CollarEvent}

/-- After the winner nothing is marked. -/
theorem filter_promote_true : ∀ cs : List CollarEvent, (promote t true cs).filter CollarEvent.isMarked = []
  | [] => rfl
  | c :: cs => by
    have ih := filter_promote_true cs
    rw [promote]
    by_cases haction : c.severity = .action
    · rw [if_pos haction, if_neg (by simp), List.filter_cons_of_neg (by simp [CollarEvent.isMarked, CollarEvent.demoted]), ih]
    · rw [if_neg haction, List.filter_cons_of_neg (by simp [CollarEvent.isMarked, CollarEvent.isAction, haction]), ih]

/-- The first event of the winning type is marked, and no other. -/
theorem filter_promote_false : ∀ {cs : List CollarEvent}, c ∈ cs → c.severity = .action → c.eventType = t →
    ∃ d : CollarEvent, d.severity = .action ∧ (promote t false cs).filter CollarEvent.isMarked = [d.promoted t]
  | d :: cs, hc, haction, htype => by
    rw [promote]
    by_cases hwinner : d.severity = .action ∧ d.eventType = t
    · refine ⟨d, hwinner.1, ?_⟩
      have hmarked : (d.promoted t).isMarked = true := by
        simp [CollarEvent.isMarked, CollarEvent.isAction, CollarEvent.promoted, hwinner.1]
      rw [if_pos hwinner.1, if_pos ⟨hwinner.2, rfl⟩, List.filter_cons_of_pos hmarked, filter_promote_true]
    · have hmem : c ∈ cs := (List.mem_cons.mp hc).resolve_left fun heq => hwinner (heq ▸ ⟨haction, htype⟩)
      obtain ⟨e, he, hfilter⟩ := filter_promote_false hmem haction htype
      refine ⟨e, he, ?_⟩
      by_cases hd : d.severity = .action
      · rw [if_pos hd, if_neg fun h => hwinner ⟨hd, h.1⟩,
          List.filter_cons_of_neg (by simp [CollarEvent.isMarked, CollarEvent.demoted]), hfilter]
      · rw [if_neg hd, List.filter_cons_of_neg (by simp [CollarEvent.isMarked, CollarEvent.isAction, hd]), hfilter]

variable {w : CollarWatch} {market : OptionChain} {positions : List PaperPosition}

/-- **Of the ACTION events of a tick one is marked.** -/
theorem marked_checkSignals (h : 0 < (w.checkSignals market positions).countP CollarEvent.isAction) :
    ∃ c, c.autoAction = some .closeAndReenterCollar ∧
      (w.checkSignals market positions).filter CollarEvent.isMarked = [c] := by
  have hsort : ∀ cs : List CollarEvent,
      (cs.insertionSort fun e f => e.severity.rank ≤ f.severity.rank).Perm cs := fun cs => List.perm_insertionSort _ cs
  unfold CollarWatch.checkSignals at h ⊢
  cases hcall : w.shortCall positions with
  | none =>
    rw [hcall] at h
    cases h
  | some call =>
    rw [hcall] at h
    simp only [(hsort _).countP_eq] at h ⊢
    have hperm := (hsort (selectCombinedReentryAction (w.legEvents market call (w.longPut positions)))).filter
      CollarEvent.isMarked
    suffices hone : ∃ c, c.autoAction = some .closeAndReenterCollar ∧
        (selectCombinedReentryAction (w.legEvents market call (w.longPut positions))).filter CollarEvent.isMarked = [c] by
      obtain ⟨c, hc, hfilter⟩ := hone
      rw [hfilter] at hperm
      exact ⟨c, hc, List.perm_singleton.mp hperm⟩
    rw [selectCombinedReentryAction] at h ⊢
    cases hwinner : reentryActionPriority.find? fun t =>
        (w.legEvents market call (w.longPut positions)).any fun e => e.severity = .action && e.eventType = t with
    | none =>
      -- every ACTION is among the priorities
      rw [hwinner] at h
      obtain ⟨c, hc, haction⟩ := List.countP_pos_iff.mp h
      have haction : c.severity = .action := by simpa [CollarEvent.isAction] using haction
      have hnot := List.find?_eq_none.mp hwinner c.eventType (action_mem_priority hc haction)
      exact absurd (List.any_eq_true.mpr ⟨c, hc, by simp [haction]⟩) hnot
    | some t =>
      obtain ⟨c, hc, haction, htype⟩ := (winner_spec hwinner).1
      obtain ⟨d, -, hfilter⟩ := filter_promote_false hc haction htype
      exact ⟨d.promoted t, rfl, hfilter⟩

/-- ACTION events come first. -/
theorem filter_append_of_sorted {cs : List CollarEvent} (h : cs.Pairwise fun c d => c.severity.rank ≤ d.severity.rank) :
    cs = cs.filter CollarEvent.isAction ++ cs.filter fun c => !c.isAction := by
  induction cs with
  | nil => rfl
  | cons c cs ih =>
    obtain ⟨hle, hrest⟩ := List.pairwise_cons.mp h
    by_cases haction : c.severity = .action
    · have hc : c.isAction = true := decide_eq_true haction
      rw [List.filter_cons_of_pos hc, List.filter_cons_of_neg (by simp [hc]), List.cons_append, ← ih hrest]
    · have hc : ¬c.isAction = true := by simpa [CollarEvent.isAction] using haction
      have hnone : cs.filter CollarEvent.isAction = [] := by
        refine List.filter_eq_nil_iff.mpr fun d hd hdaction => ?_
        have hdaction : d.severity = .action := by simpa [CollarEvent.isAction] using hdaction
        have hrank := hle d hd
        rw [hdaction] at hrank
        revert hrank haction
        cases c.severity <;> simp [Severity.rank]
      have hall : cs.filter (fun c => !c.isAction) = cs := by
        refine List.filter_eq_self.mpr fun d hd => ?_
        have hd := List.filter_eq_nil_iff.mp hnone d hd
        simpa using hd
      rw [List.filter_cons_of_neg hc, hnone, List.filter_cons_of_pos (by simpa using hc), hall]
      rfl

end Marked

/-! ### The routing of a tick -/

/-- The strategy, as the monitor sees it. -/
def CollarWatch.registered (w : CollarWatch) : Registered :=
  { strategyName := w.policy.collarStrategyName, autoExecute := true }

/-- What routing meets. -/
structure Outside where
  /-- The message id of an approval request, if it was sent. -/
  msgId : SignalEvent → Option ℤ
  /-- When the approval lapses. -/
  expiresAt : ℕ
  /-- Sending a WARN raises. -/
  sendRaises : SignalEvent → Bool

/-- An event with what its routing meets. -/
def Outside.routed (o : Outside) (e : SignalEvent) : RoutedEvent where
  event := e
  raises := e.severity = .warn && o.sendRaises e
  telegramMsgId := o.msgId e
  expiresAt := o.expiresAt

/-- The routing of the events that `check_signals` returns, by the monitor's loop. -/
def CollarWatch.routeAll (w : CollarWatch) (market : OptionChain) (positions : List PaperPosition) (index : ℕ)
    (o : Outside) : Monitor.Tick Unit :=
  ((w.signalEvents market positions).map o.routed).forM (routeEvent w.registered index market positions)

section Routing

variable {w : CollarWatch} {market : OptionChain} {positions : List PaperPosition} {index : ℕ} {o : Outside}
  {c : CollarEvent} {e : SignalEvent} {cs : List CollarEvent} {es : List SignalEvent}

theorem isAutoExecuted_iff (h : Reports c e) : isAutoExecuted w.registered e = c.autoExecute := by
  rw [isAutoExecuted, h.autoExecute]
  cases c.autoExecute <;> rfl

/-- The action of a marked event. -/
theorem autoAction_of_reports (h : Reports c e) {k : CollarActionType} (hk : c.autoAction = some k) :
    ∃ a, Monitor.autoAction e.payload = some a ∧ a.actionType = k.text := by
  have haction := h.autoAction
  rw [hk, Option.map_some] at haction
  refine ⟨⟨k.text, [{ legRole := c.legRole }], [], "auto-execute", 1, e.payload⟩, ?_, rfl⟩
  simp only [Monitor.autoAction, Monitor.payloadText, Monitor.payloadList, haction, h.legRole, h.legsToClose,
    h.legsToOpen, Option.bind_eq_bind, Option.bind_some]
  rfl

variable (w market positions index o) in
/-- An event with the mark is executed. -/
theorem route_marked (h : Reports c e) (hmarked : c.isMarked = true) {k : CollarActionType}
    (hk : c.autoAction = some k) (s : TickState) :
    ∃ a, a.actionType = k.text ∧ routeEvent w.registered index market positions (o.routed e) s =
      .ok () { s with executed := s.executed ++ [(index, positions, a)] } := by
  obtain ⟨haction, hauto⟩ := Bool.and_eq_true_iff.mp hmarked
  have hseverity : e.severity = .action := h.severity.trans (of_decide_eq_true haction)
  obtain ⟨a, ha, htype⟩ := autoAction_of_reports h hk
  refine ⟨a, htype, ?_⟩
  rw [routeEvent]
  simp only [Outside.routed, hseverity, reduceCtorEq, decide_false, Bool.false_and, Bool.false_eq_true, if_false,
    isAutoExecuted_iff h, hauto, if_true]
  rw [bind_of_ok (fromOption_of_some ha s), updates_run]

variable (w market positions index o) in
/-- One without becomes a question. -/
theorem route_unmarked (h : Reports c e) (haction : c.isAction = true) (hmarked : c.isMarked = false) (s : TickState) :
    ∃ t, routeEvent w.registered index market positions (o.routed e) s = .ok () t ∧ t.executed = s.executed ∧
      ∃ row, t.approvals.rows = s.approvals.rows ++ [row] := by
  have hauto : c.autoExecute = false := by simpa [CollarEvent.isMarked, haction] using hmarked
  have hseverity : e.severity = .action := h.severity.trans (of_decide_eq_true haction)
  have hjson : Payload.jsonDumps e.payload = some e.payload := if_pos h.json
  refine ⟨{ s with approvals := s.approvals.create w.registered.strategyName e.eventType e.payload (o.msgId e) o.expiresAt },
    ?_, rfl, _, rfl⟩
  rw [routeEvent]
  simp only [Outside.routed, hseverity, reduceCtorEq, decide_false, Bool.false_and, Bool.false_eq_true, if_false,
    isAutoExecuted_iff h, hauto]
  rw [bind_of_ok (fromOption_of_some hjson s), updates_run]

variable (w market positions index o) in
/-- **The routing of ACTION events**: the marked ones are executed in order, each other becomes a
question. -/
theorem route_actions (h : List.Forall₂ Reports cs es) (haction : ∀ c ∈ cs, c.isAction = true)
    (hmarked : ∀ c ∈ cs, c.isMarked = true → c.autoAction = some .closeAndReenterCollar) (s : TickState) :
    ∃ (t : TickState) (actions : List ApprovedAction) (asked : List ApprovalRow),
      (es.map o.routed).forM (routeEvent w.registered index market positions) s = .ok () t ∧
      (∀ a ∈ actions, a.actionType = "CLOSE_AND_REENTER_COLLAR") ∧
      actions.length = cs.countP CollarEvent.isMarked ∧
      t.executed = s.executed ++ actions.map (fun a => (index, positions, a)) ∧
      asked.length + actions.length = cs.length ∧ t.approvals.rows = s.approvals.rows ++ asked := by
  induction h generalizing s with
  | nil => exact ⟨s, [], [], rfl, by simp, rfl, by simp, rfl, by simp⟩
  | @cons c e cs es hce hrest ih =>
    have hc := haction c (List.mem_cons_self ..)
    have ih := ih (fun d hd => haction d (List.mem_cons_of_mem c hd)) fun d hd => hmarked d (List.mem_cons_of_mem c hd)
    have hrun : ∀ {t : TickState}, routeEvent w.registered index market positions (o.routed e) s = .ok () t →
        ((e :: es).map o.routed).forM (routeEvent w.registered index market positions) s =
          (es.map o.routed).forM (routeEvent w.registered index market positions) t := fun ht => bind_of_ok ht
    cases hmark : c.isMarked with
    | true =>
      obtain ⟨a, ha, hroute⟩ := route_marked w market positions index o hce hmark (hmarked c (List.mem_cons_self ..) hmark) s
      obtain ⟨t, actions, asked, hall, htype, hcount, hexecuted, hlength, hrows⟩ := ih
        { s with executed := s.executed ++ [(index, positions, a)] }
      refine ⟨t, a :: actions, asked, (hrun hroute).trans hall, ?_, ?_, ?_, ?_, hrows⟩
      · exact List.forall_mem_cons.mpr ⟨ha, htype⟩
      · rw [List.countP_cons_of_pos hmark, List.length_cons, hcount]
      · rw [hexecuted, List.append_assoc]
        rfl
      · rw [List.length_cons, List.length_cons, ← hlength]
        omega
    | false =>
      obtain ⟨t₁, hroute, hexecuted₁, row, hrow⟩ := route_unmarked w market positions index o hce hc hmark s
      obtain ⟨t, actions, asked, hall, htype, hcount, hexecuted, hlength, hrows⟩ := ih t₁
      refine ⟨t, actions, row :: asked, (hrun hroute).trans hall, htype, ?_, ?_, ?_, ?_⟩
      · rw [List.countP_cons_of_neg (by simp [hmark]), hcount]
      · rw [hexecuted, hexecuted₁]
      · rw [List.length_cons, List.length_cons, ← hlength]
        omega
      · rw [hrows, hrow, List.append_assoc]
        rfl

/-- The other events start nothing and ask nothing. -/
def SameActions (s t : TickState) : Prop := t.executed = s.executed ∧ t.approvals = s.approvals

variable (w market positions index o) in
theorem keeps_others (h : List.Forall₂ Reports cs es) (hno : ∀ c ∈ cs, c.isAction = false) :
    Keeps SameActions ((es.map o.routed).forM (routeEvent w.registered index market positions)) := by
  have hseverity : ∀ e ∈ es, e.severity ≠ .action := by
    intro e he haction
    obtain ⟨c, hc, hce⟩ := forall₂_left_of_mem h e he
    have hc := hno c hc
    rw [CollarEvent.isAction, ← hce.severity, haction] at hc
    exact absurd hc (by decide)
  refine keeps_forM (fun s => ⟨rfl, rfl⟩) (fun s t u hst htu => ⟨htu.1.trans hst.1, htu.2.trans hst.2⟩) ?_
  intro r hr
  obtain ⟨e, he, rfl⟩ := List.mem_map.mp hr
  intro s
  have hne := hseverity e he
  rw [routeEvent]
  split
  · exact ⟨rfl, rfl⟩
  · cases hsev : (o.routed e).event.severity with
    | action => exact absurd hsev hne
    | info => exact ⟨rfl, rfl⟩
    | warn =>
      simp only [updates_run]
      split <;> exact ⟨rfl, rfl⟩

/-- The ACTION events of a tick. -/
def CollarWatch.actionCount (w : CollarWatch) (market : OptionChain) (positions : List PaperPosition) : ℕ :=
  (w.signalEvents market positions).countP fun e => e.severity = .action

theorem countP_reports (h : List.Forall₂ Reports cs es) :
    (es.countP fun e => e.severity = .action) = cs.countP CollarEvent.isAction := by
  induction h with
  | nil => rfl
  | cons hce _ ih => rw [List.countP_cons, List.countP_cons, ih, hce.severity]; rfl

/-- The routing of a tick, in its two parts. -/
theorem routeAll_spec (w : CollarWatch) (market : OptionChain) (positions : List PaperPosition) (index : ℕ)
    (o : Outside) (s : TickState) :
    ∃ (actions : List ApprovedAction) (asked : List ApprovalRow),
      (∀ a ∈ actions, a.actionType = "CLOSE_AND_REENTER_COLLAR") ∧
      actions.length = min 1 (w.actionCount market positions) ∧
      asked.length + actions.length = w.actionCount market positions ∧
      (finalState (w.routeAll market positions index o s)).executed =
        s.executed ++ actions.map (fun a => (index, positions, a)) ∧
      (finalState (w.routeAll market positions index o s)).approvals.rows = s.approvals.rows ++ asked := by
  have hreports := reports_checkSignals w market positions
  have hsorted : (w.checkSignals market positions).Pairwise fun c d => c.severity.rank ≤ d.severity.rank := by
    unfold CollarWatch.checkSignals
    cases w.shortCall positions with
    | none => exact List.Pairwise.nil
    | some call => exact List.pairwise_insertionSort _ _
  have hcount : w.actionCount market positions = ((w.checkSignals market positions).filter CollarEvent.isAction).length := by
    rw [CollarWatch.actionCount, countP_reports hreports, List.countP_eq_length_filter]
  -- the ACTION events, then the others
  generalize hactions : (w.checkSignals market positions).filter CollarEvent.isAction = acts at hcount
  have hsplit := filter_append_of_sorted hsorted
  rw [hactions] at hsplit
  have htake := List.forall₂_take acts.length hreports
  have hdrop := List.forall₂_drop acts.length hreports
  rw [hsplit, List.take_left] at htake
  rw [hsplit, List.drop_left] at hdrop
  have hmem : ∀ c ∈ acts, c ∈ w.checkSignals market positions ∧ c.isAction = true := fun c hc =>
    List.mem_filter.mp (hactions ▸ hc)
  have hmarkedCount : acts.countP CollarEvent.isMarked = min 1 (w.actionCount market positions) ∧
      ∀ c ∈ acts, c.isMarked = true → c.autoAction = some .closeAndReenterCollar := by
    rcases Nat.eq_zero_or_pos acts.length with hnone | hsome
    · rw [hcount, hnone, List.eq_nil_of_length_eq_zero hnone]
      exact ⟨rfl, fun c hc => absurd hc List.not_mem_nil⟩
    · have hpos : 0 < (w.checkSignals market positions).countP CollarEvent.isAction := by
        rw [List.countP_eq_length_filter, hactions]
        exact hsome
      obtain ⟨m, hm, hfilter⟩ := marked_checkSignals hpos
      have hmarks : acts.filter CollarEvent.isMarked = [m] := by
        rw [← hactions, List.filter_filter, ← hfilter]
        refine List.filter_congr fun c _ => ?_
        simp only [CollarEvent.isMarked]
        cases c.isAction <;> cases c.autoExecute <;> rfl
      refine ⟨?_, fun c hc hmark => ?_⟩
      · rw [List.countP_eq_length_filter, hmarks, hcount, Nat.min_eq_left hsome]
        rfl
      · have hc : c ∈ acts.filter CollarEvent.isMarked := List.mem_filter.mpr ⟨hc, hmark⟩
        rw [hmarks, List.mem_singleton] at hc
        rw [hc, hm]
  obtain ⟨t, actions, asked, hrun, htype, hlength, hexecuted, hasked, hrows⟩ :=
    route_actions w market positions index o htake
      (fun c hc => (hmem c hc).2) hmarkedCount.2 s
  have hothers := keeps_others w market positions index o hdrop
    (fun c hc => by simpa using (List.mem_filter.mp hc).2) t
  have hall : finalState (w.routeAll market positions index o s) =
      finalState ((((w.signalEvents market positions).drop acts.length).map o.routed).forM
        (routeEvent w.registered index market positions) t) := by
    rw [CollarWatch.routeAll]
    rw [← forM_append_of_ok hrun, ← List.map_append, List.take_append_drop]
  refine ⟨actions, asked, htype, hlength.trans hmarkedCount.1, hasked.trans hcount.symm, ?_, ?_⟩
  · rw [hall, ← hexecuted]
    exact hothers.1
  · rw [hall, ← hrows]
    exact congrArg Approvals.rows hothers.2

end Routing

/-! ### One action for a tick -/

/-- The routing starts one action, which closes the collar, and asks nothing. -/
structure LeadsToOneAction (index : ℕ) (positions : List PaperPosition) (s t : TickState) : Prop where
  /-- One action, that closes or closes and reenters. -/
  started : ∃ a, (a.actionType = "CLOSE_COLLAR" ∨ a.actionType = "CLOSE_AND_REENTER_COLLAR") ∧
    t.executed = s.executed ++ [(index, positions, a)]
  /-- No approval request. -/
  asked : t.approvals.rows = s.approvals.rows

/-- **A tick leads to one action exactly when it has one ACTION event**: of several one is
executed, and each of the others becomes an approval request. -/
theorem one_action_iff (w : CollarWatch) (market : OptionChain) (positions : List PaperPosition) (index : ℕ)
    (o : Outside) (s : TickState) :
    (LeadsToOneAction index positions s (finalState (w.routeAll market positions index o s)) ↔
        w.actionCount market positions = 1) ∧
      (finalState (w.routeAll market positions index o s)).approvals.rows.length =
        s.approvals.rows.length + (w.actionCount market positions - 1) := by
  obtain ⟨actions, asked, htype, hactions, hasked, hexecuted, hrows⟩ := routeAll_spec w market positions index o s
  constructor
  · constructor
    · rintro ⟨⟨a, -, ha⟩, hnone⟩
      have hone : actions.map (fun a => (index, positions, a)) = [(index, positions, a)] :=
        List.append_cancel_left (hexecuted.symm.trans ha)
      have hlength : actions.length = 1 := by simpa using congrArg List.length hone
      have hnil : asked = [] := List.append_right_eq_self.mp (hrows.symm.trans hnone)
      rw [← hasked, hnil, hlength]
      rfl
    · intro hone
      rw [hone] at hactions hasked
      obtain ⟨a, rfl⟩ := List.length_eq_one_iff.mp hactions
      have hnil : asked = [] := List.eq_nil_of_length_eq_zero (by omega)
      rw [hnil, List.append_nil] at hrows
      exact ⟨⟨a, Or.inr (htype a (List.mem_singleton_self a)), hexecuted⟩, hrows⟩
  · rw [hrows, List.length_append]
    omega

/-- The monthly strategy on the day of `crashedChain`. -/
def crashWatch : CollarWatch where
  policy := .monthly
  today := 739796
  text := ⟨⟨fun _ => "", fun _ => ""⟩, fun _ => "", fun _ => "", fun _ => "", fun _ => ""⟩

/-- Requests are sent as message 1. -/
def answered : Outside := ⟨fun _ => some 1, 0, fun _ => false⟩

/-- A call that has made its profit and a put that has crashed, on one tick. -/
theorem crash_asks_too :
    crashWatch.actionCount crashedChain (openedPair.getPositions none "paper_nifty_overlay") = 2 ∧
      ¬LeadsToOneAction 0 (openedPair.getPositions none "paper_nifty_overlay") TickState.initial
        (finalState (crashWatch.routeAll crashedChain (openedPair.getPositions none "paper_nifty_overlay") 0 answered
          TickState.initial)) := by
  refine ⟨by decide +kernel, fun h => ?_⟩
  have hrows : (finalState (crashWatch.routeAll crashedChain (openedPair.getPositions none "paper_nifty_overlay") 0
      answered TickState.initial)).approvals.rows.length = 1 := by decide +kernel
  rw [h.asked] at hrows
  exact absurd hrows (by decide)

end NiftyShield.Strategy.CollarOverlay
