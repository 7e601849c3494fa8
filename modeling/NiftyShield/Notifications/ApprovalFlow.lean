import NiftyShield.Notifications.TelegramGateway
import NiftyShield.Strategy.Monitor

/-!
# From an approval request to an action

An ACTION event that is not auto-executed becomes a row of `pending_approvals` and a message
with a button for each of the payload's `valid_actions`. A press reaches `on_approved` of
the daemon (`scripts/monitor_daemon.py`), which marks the row APPROVED, looks in the
stored payload for a list `actions` with an entry whose `council_rank` is the button's, and
hands the action it rebuilds from the entry to the executor or the overlay closer.

## What is proved

`approvals_executable_iff`: every button leads to its action exactly when the payload has,
besides `valid_actions`, such an entry for each of them (`Decodes`). Without a list
`actions` a press leaves the row APPROVED and nothing dispatched (`stranded_of_no_actions`).

## Honest scope

The database writes succeed, and JSON has no infinite floats. Fetching the chain cannot stop
the action (its failure is caught) and is left out, as is what becomes of the action once it
is handed over. Telegram gives no two messages of a chat one id.
-/

namespace NiftyShield.Notifications

open NiftyShield.Lib.Raising NiftyShield.Paper NiftyShield.Strategy NiftyShield.Strategy.Monitor

/-! ### `on_approved` -/

/-- A leg to open, as its unchecked fields come out of the JSON. -/
structure RawLegSpec where
  /-- `instrument_key`. -/
  instrumentKey : PyValue
  /-- `action`. -/
  action : PyValue
  /-- `quantity`. -/
  quantity : ℤ
  /-- `leg_role`. -/
  legRole : PyValue
  /-- `notes`. -/
  notes : PyValue

/-- An action, as its unchecked fields come out of the JSON. -/
structure RawApprovedAction where
  /-- `action_type`. -/
  actionType : PyValue
  /-- `legs_to_close`. -/
  legsToClose : PyValue
  /-- `legs_to_open`. -/
  legsToOpen : List RawLegSpec
  /-- `rationale`. -/
  rationale : PyValue
  /-- The rank of the button. -/
  councilRank : ℤ

/-- An action handed over. -/
inductive Dispatch where
  /-- `executor.apply`. -/
  | executor (strategyName : String) (action : RawApprovedAction) (approvalId : ℕ)
  /-- `overlay_closer.route`. -/
  | overlayCloser (strategyName : String) (action : RawApprovedAction)

/-- The action of a dispatch. -/
def Dispatch.action : Dispatch → RawApprovedAction
  | executor _ action _ => action
  | overlayCloser _ action => action

/-- The strategy of a dispatch. -/
def Dispatch.strategyName : Dispatch → String
  | executor strategyName _ _ => strategyName
  | overlayCloser strategyName _ => strategyName

/-- `_OVERLAY_ACTION_TYPES`. -/
def overlayActionTypes : List String :=
  ["CLOSE_CC", "MONETIZE_PP", "CLOSE_CALL_ONLY", "MONETIZE_PUT", "CLOSE_ALL_OVERLAY"]

/-- `d.get(key, default)`. -/
def getOr (d : Payload) (key : String) (default : PyValue) : PyValue := (PyValue.lookup d key).getD default

/-- `a.get("council_rank") == rank`. -/
def hasRank (rank : ℤ) (d : Payload) : Bool := ((PyValue.lookup d "council_rank").map (·.eqInt rank)).getD false

/-- The entry of a rank; `none` if there is none, or an earlier item is no dictionary. -/
def findRank (rank : ℤ) : List PyValue → Option Payload
  | [] => none
  | .dict d :: rest => if hasRank rank d then some d else findRank rank rest
  | _ :: _ => none

/-- One entry of `legs_to_open`. -/
def rawLegSpec (leg : PyValue) : Option RawLegSpec := do
  let d ← leg.asDict
  let quantity ← (getOr d "quantity" (.int 0)).toInt
  some
    { instrumentKey := getOr d "instrument_key" (.str "")
      action := getOr d "action" (.str "BUY")
      quantity
      legRole := getOr d "leg_role" (.str "")
      notes := getOr d "notes" (.str "") }

/-- The action of a rank, rebuilt from the stored payload; `none` where the source logs and
returns. -/
def reconstruct (data : Payload) (rank : ℤ) : Option RawApprovedAction := do
  let actionsList ← (getOr data "actions" (.list [])).items
  let actionDict ← findRank rank actionsList
  let legs ← (getOr actionDict "legs_to_open" (.list [])).items
  let legsToOpen ← legs.mapM rawLegSpec
  some
    { actionType := getOr actionDict "action_type" (.str "")
      legsToClose := getOr actionDict "legs_to_close" (.list [])
      legsToOpen
      rationale := getOr actionDict "rationale" (.str "")
      councilRank := rank }

/-- Where an action goes. A list or a dictionary cannot be looked up in a set. -/
def dispatchAction (overlayCloser : Bool) (row : ApprovalRow) (action : RawApprovedAction) : Option Dispatch :=
  match action.actionType with
  | .list _ | .dict _ => none
  | .str s =>
    if s ∈ overlayActionTypes ∧ overlayCloser = true then some (.overlayCloser row.strategyName action)
    else some (.executor row.strategyName action row.id)
  | _ => some (.executor row.strategyName action row.id)

/-- `on_approved`: the table after it, and what was dispatched. -/
def onApproved (overlayCloser : Bool) (A : Approvals) (telegramMsgId rank : ℤ) : Approvals × Option Dispatch :=
  match A.getPendingByMsgId telegramMsgId with
  | none => (A, none)
  | some row =>
    (A.resolve row.id .approved (some rank), (reconstruct row.councilOutput rank).bind (dispatchAction overlayCloser row))

/-! ### When a payload decodes -/

/-- The entry's legs can be read. -/
def LegsReadable (d : Payload) : Prop :=
  ∃ legs, (getOr d "legs_to_open" (.list [])).items = some legs ∧
    ∀ leg ∈ legs, ∃ e, leg = .dict e ∧ ((getOr e "quantity" (.int 0)).toInt).isSome = true

/-- The payload answers a rank with an action: its list `actions` has an entry of the rank,
of that type and with readable legs, behind dictionaries of other ranks. -/
def Answers (payload : Payload) (rank : ℤ) (actionType : String) : Prop :=
  ∃ before entry after, (getOr payload "actions" (.list [])).items = some (before ++ .dict entry :: after) ∧
    (∀ v ∈ before, ∃ d, v = .dict d ∧ hasRank rank d = false) ∧ hasRank rank entry = true ∧
    getOr entry "action_type" (.str "") = .str actionType ∧ LegsReadable entry

/-- **When every button works**: the payload answers each rank with the action of that rank. -/
def Decodes (payload : Payload) (actions : List String) : Prop :=
  ∀ (i : ℕ) (actionType : String), actions[i]? = some actionType → Answers payload (i + 1) actionType

theorem findRank_iff {rank : ℤ} {entry : Payload} : ∀ {l : List PyValue}, findRank rank l = some entry ↔
    ∃ before after, l = before ++ .dict entry :: after ∧
      (∀ v ∈ before, ∃ d, v = .dict d ∧ hasRank rank d = false) ∧
      hasRank rank entry = true
  | [] => by simp [findRank]
  | v :: rest => by
    constructor
    · intro h
      cases v with
      | dict d =>
        rw [findRank] at h
        split at h
        next hrank =>
          obtain rfl := Option.some.inj h
          exact ⟨[], rest, rfl, by simp, hrank⟩
        next hrank =>
          obtain ⟨before, after, rfl, hbefore, hentry⟩ := findRank_iff.mp h
          refine ⟨.dict d :: before, after, rfl, fun w hw => ?_, hentry⟩
          rcases List.mem_cons.mp hw with rfl | hw
          · exact ⟨d, rfl, by simpa using hrank⟩
          · exact hbefore w hw
      | _ => exact absurd h (by simp [findRank])
    · rintro ⟨before, after, hl, hbefore, hentry⟩
      cases before with
      | nil =>
        obtain ⟨rfl, rfl⟩ := List.cons.inj hl
        rw [findRank, if_pos hentry]
      | cons w before =>
        obtain ⟨rfl, rfl⟩ := List.cons.inj hl
        obtain ⟨d, rfl, hrank⟩ := hbefore v List.mem_cons_self
        rw [findRank, if_neg (by simp [hrank])]
        exact findRank_iff.mpr ⟨before, after, rfl, fun u hu =>
          hbefore u (List.mem_cons_of_mem _ hu), hentry⟩

theorem rawLegSpec_isSome_iff {leg : PyValue} :
    (rawLegSpec leg).isSome = true ↔ ∃ e, leg = .dict e ∧
      ((getOr e "quantity" (.int 0)).toInt).isSome = true := by
  cases leg with
  | dict e =>
    cases hqty : (getOr e "quantity" (.int 0)).toInt <;> simp [rawLegSpec, PyValue.asDict, hqty]
  | _ => simp [rawLegSpec, PyValue.asDict]

private theorem mapM_isSome_iff {α β : Type} {f : α → Option β} : ∀ {l : List α},
    (l.mapM f).isSome = true ↔ ∀ a ∈ l, (f a).isSome = true
  | [] => by simp
  | a :: l => by
    rw [List.mapM_cons, List.forall_mem_cons, ← mapM_isSome_iff (l := l)]
    cases f a with
    | none => simp
    | some b =>
      cases l.mapM f <;> simp

/-- An action is rebuilt exactly from an answer. -/
theorem reconstruct_iff {payload : Payload} {rank : ℤ} {actionType : String} :
    (∃ action, reconstruct payload rank = some action ∧ action.actionType = .str actionType) ↔
      Answers payload rank actionType := by
  constructor
  · rintro ⟨action, haction, htype⟩
    simp only [reconstruct, Option.bind_eq_bind, Option.bind_eq_some_iff, Option.some.injEq] at haction
    obtain ⟨l, hl, entry, hentry, legs, hlegs, legsToOpen, hopen, rfl⟩ := haction
    obtain ⟨before, after, rfl, hbefore, hrank⟩ := findRank_iff.mp hentry
    refine ⟨before, entry, after, hl, hbefore, hrank, htype, legs, hlegs, fun leg hleg => ?_⟩
    exact rawLegSpec_isSome_iff.mp (mapM_isSome_iff.mp (by rw [hopen]; rfl) leg hleg)
  · rintro ⟨before, entry, after, hl, hbefore, hrank, htype, legs, hlegs, hread⟩
    have hentry := findRank_iff.mpr ⟨before, after, rfl, hbefore, hrank⟩
    obtain ⟨legsToOpen, hopen⟩ := Option.isSome_iff_exists.mp
      (mapM_isSome_iff.mpr fun leg hleg => rawLegSpec_isSome_iff.mpr (hread leg hleg))
    refine ⟨⟨getOr entry "action_type" (.str ""), getOr entry "legs_to_close" (.list []), legsToOpen,
      getOr entry "rationale" (.str ""), rank⟩, ?_, htype⟩
    simp only [reconstruct, hl, hentry, hlegs, hopen, Option.bind_eq_bind, Option.bind_some]

/-- A rebuilt action whose type is a text is dispatched. -/
theorem dispatchAction_str (overlayCloser : Bool) (row : ApprovalRow) {action : RawApprovedAction}
    {actionType : String}
    (htype : action.actionType = .str actionType) :
    ∃ d, dispatchAction overlayCloser row action = some d ∧ d.action = action ∧
      d.strategyName = row.strategyName := by
  unfold dispatchAction
  rw [htype]
  simp only
  split
  · exact ⟨_, rfl, rfl, rfl⟩
  · exact ⟨_, rfl, rfl, rfl⟩

theorem action_of_dispatchAction {overlayCloser : Bool} {row : ApprovalRow}
    {action : RawApprovedAction} {d : Dispatch}
    (h : dispatchAction overlayCloser row action = some d) : d.action = action := by
  unfold dispatchAction at h
  split at h
  · exact absurd h (by simp)
  · exact absurd h (by simp)
  · split at h
    · exact Option.some.inj h ▸ rfl
    · exact Option.some.inj h ▸ rfl
  · exact Option.some.inj h ▸ rfl

/-! ### From the event to the press -/

/-- The event goes to the approval flow, with a button for each action. -/
structure SentForApproval (strategy : Registered) (r : RoutedEvent) (actions : List String) (msgId : ℤ) : Prop where
  /-- An ACTION event. -/
  severity : r.event.severity = .action
  /-- Not auto-executed. -/
  gated : isAutoExecuted strategy r.event = false
  /-- `valid_actions`. -/
  validActions : PyValue.lookup r.event.payload "valid_actions" = some (.list (actions.map .str))
  /-- There is a button. -/
  actions_ne : actions ≠ []
  /-- The message has been sent. -/
  sent : r.telegramMsgId = some msgId

/-- The row a routed event leaves. -/
def approvalRow (s : TickState) (strategy : Registered) (r : RoutedEvent) : ApprovalRow where
  id := s.approvals.nextId
  strategyName := strategy.strategyName
  eventType := r.event.eventType
  councilOutput := r.event.payload
  status := .pending
  expiresAt := r.expiresAt
  telegramMsgId := r.telegramMsgId

/-- Routing the event leaves a pending row with its payload. -/
theorem routeEvent_row {strategy : Registered} {index : ℕ} {chain : OptionChain}
    {positions : List PaperPosition}
    {r : RoutedEvent} (hsev : r.event.severity = .action) (hgated : isAutoExecuted strategy r.event = false)
    {s s' : TickState} (h : routeEvent strategy index chain positions r s = .ok () s') :
    approvalRow s strategy r ∈ s'.approvals.rows := by
  unfold routeEvent at h
  split at h
  · exact absurd h throw_ne_ok
  rw [hsev] at h
  simp only [hgated, Bool.false_eq_true, if_false] at h
  obtain ⟨council, t, hcouncil, h⟩ := bind_ok_iff.mp h
  obtain ⟨hdumps, rfl⟩ := fromOption_ok_iff.mp hcouncil
  have hcouncil : council = r.event.payload := by
    unfold Payload.jsonDumps at hdumps
    split at hdumps
    · exact (Option.some.inj hdumps).symm
    · exact absurd hdumps (by simp)
  obtain rfl : _ = s' := congrArg Prod.fst (updates_ok_iff.mp h)
  rw [hcouncil]
  exact List.mem_append_right _ (List.mem_singleton_self _)

/-- A press on a rank: the action of that type is handed over for the row's strategy, and
the row is not left APPROVED with nothing dispatched. -/
def Executes (overlayCloser : Bool) (A : Approvals) (row : ApprovalRow) (msgId rank : ℤ) (actionType : String) : Prop :=
  (∃ d, (onApproved overlayCloser A msgId rank).2 = some d ∧ d.action.actionType = .str actionType ∧
      d.strategyName = row.strategyName) ∧
    ¬ ((onApproved overlayCloser A msgId rank).2 = none ∧
        ∃ r ∈ (onApproved overlayCloser A msgId rank).1.rows, r.id = row.id ∧ r.status = .approved)

/-- A press executes the action exactly if the stored payload answers the rank with it. -/
theorem executes_iff {overlayCloser : Bool} {A : Approvals} {row : ApprovalRow} {msgId rank : ℤ}
    {actionType : String}
    (hrow : A.getPendingByMsgId msgId = some row) :
    Executes overlayCloser A row msgId rank actionType ↔ Answers row.councilOutput rank actionType := by
  have hpress : (onApproved overlayCloser A msgId rank).2 =
      (reconstruct row.councilOutput rank).bind (dispatchAction overlayCloser row) := by
    rw [onApproved, hrow]
  rw [Executes, hpress, ← reconstruct_iff]
  constructor
  · rintro ⟨⟨d, hd, htype, -⟩, -⟩
    obtain ⟨action, haction, hdispatch⟩ := Option.bind_eq_some_iff.mp hd
    exact ⟨action, haction, action_of_dispatchAction hdispatch ▸ htype⟩
  · rintro ⟨action, haction, htype⟩
    obtain ⟨d, hd, hact, hname⟩ := dispatchAction_str overlayCloser row htype
    rw [haction, Option.bind_some, hd]
    exact ⟨⟨d, rfl, hact ▸ htype, hname⟩, fun h => absurd h.1 (by simp)⟩

/-- **Approvals are executable end to end exactly when the payload decodes.** The event was
sent with its buttons and routed; the table is any later one in which its row is still
pending, and no other pending row has its message. -/
theorem approvals_executable_iff {strategy : Registered} {index : ℕ} {chain : OptionChain}
    {positions : List PaperPosition} {r : RoutedEvent} {actions : List String} {msgId : ℤ} {s s' : TickState}
    (hsent : SentForApproval strategy r actions msgId)
    (hroute : routeEvent strategy index chain positions r s = .ok () s') {A : Approvals}
    (hlater : Approvals.Later s'.approvals A)
    (hpending : ∃ q ∈ A.rows, q.id = (approvalRow s strategy r).id ∧ q.status = .pending)
    (honly : ∀ q ∈ A.rows, q.telegramMsgId = some msgId → q.status = .pending → q.id = (approvalRow s strategy r).id)
    (overlayCloser : Bool) (chatId : String) :
    (∀ row ∈ buildKeyboard actions, ∀ b ∈ row, ∀ rank,
        handleCallback chatId chatId msgId b.callbackData = .approved msgId rank →
        Executes overlayCloser A (approvalRow s strategy r) msgId rank b.text) ↔
      Decodes r.event.payload actions := by
  have hlast := (Approvals.eq_of_later hlater (routeEvent_row hsent.severity hsent.gated hroute)).2
  have hget : A.getPendingByMsgId msgId = some (approvalRow s strategy r) := by
    obtain ⟨q, hq, hid, hstatus⟩ := hpending
    obtain rfl := hlast q hq hid hstatus
    exact Approvals.getPending_of_mem hq hsent.sent rfl fun p hp hmsg hp' =>
      hlast p hp (honly p hp hmsg hp') hp'
  constructor
  · intro h i actionType hi
    obtain ⟨row, hrow, b, hb, rfl, hpress⟩ : ∃ row ∈ buildKeyboard actions, ∃ b ∈ row, b.text = actionType ∧
        handleCallback chatId chatId msgId b.callbackData = .approved msgId (i + 1) :=
      approve_of_keyboard_iff.mpr ⟨i, hi, rfl⟩
    exact (executes_iff hget).mp (h row hrow b hb _ hpress)
  · intro h row hrow b hb rank hpress
    obtain ⟨i, hi, rfl⟩ := approve_of_keyboard_iff.mp ⟨row, hrow, b, hb, rfl, hpress⟩
    exact (executes_iff hget).mpr (h i b.text hi)

/-- A press on a row whose payload has no list `actions` leaves it APPROVED, and nothing is
dispatched. -/
theorem stranded_of_no_actions {overlayCloser : Bool} {A : Approvals} {row : ApprovalRow} {msgId : ℤ}
    (hrow : A.getPendingByMsgId msgId = some row)
    (hnone : PyValue.lookup row.councilOutput "actions" = none)
    (rank : ℤ) : (onApproved overlayCloser A msgId rank).2 = none ∧
      ∃ r ∈ (onApproved overlayCloser A msgId rank).1.rows, r.id = row.id ∧ r.status = .approved := by
  have hreconstruct : reconstruct row.councilOutput rank = none := by
    simp [reconstruct, getOr, hnone, PyValue.items, findRank]
  rw [onApproved, hrow]
  simp only
  rw [hreconstruct]
  exact ⟨rfl, _, Approvals.mem_resolve (Approvals.mem_of_getPending hrow).1 .approved (some rank), rfl, rfl⟩

/-! ### A collar's delta stop -/

/-- The registered collar overlay. -/
def collar : Registered where
  strategyName := "paper_nifty_overlay"
  autoExecute := true

/-- A delta stop that lost to the DTE review of the same evaluation, and so goes to the
approval flow. -/
def collarDeltaStop : RoutedEvent where
  event :=
    { eventType := "DELTA_STOP"
      severity := .action
      description := "Short call delta 0.62 >= 0.55"
      payload :=
        [("leg_role", .str "overlay_collar_call"), ("triggering_leg", .str "short_call"),
          ("leg_states", .dict [("short_call", .dict [("instrument_key", .str "NSE_FO|65900"),
            ("entry_price", .str "100"), ("qty", .int (-65))])]),
          ("dte", .int 4), ("delta", .str "0.62"), ("mark", .str "120"), ("entry_credit", .str "100"),
          ("delta_stop_would_fire", .bool true), ("premium_stop_would_fire", .bool false),
          ("actual_rule_used", .str "DELTA"), ("triggering_signal", .str "DELTA_STOP"),
          ("valid_actions", .list [.str "CLOSE_COLLAR"])] }
  telegramMsgId := some 17

/-- The event goes to the approval flow with its one button. -/
theorem collarDeltaStop_sent : SentForApproval collar collarDeltaStop ["CLOSE_COLLAR"] 17 where
  severity := rfl
  gated := by decide +kernel
  validActions := rfl
  actions_ne := by simp
  sent := rfl

/-- The state after it is routed on the first tick of a monitor. -/
def afterDeltaStop : TickState :=
  finalState (routeEvent collar 0 Monitor.emptyChain [] collarDeltaStop TickState.initial)

theorem collarDeltaStop_routed :
    routeEvent collar 0 Monitor.emptyChain [] collarDeltaStop TickState.initial = .ok
      () afterDeltaStop := rfl

/-- The button is pressed: the row is APPROVED, and nothing is dispatched. -/
theorem collarDeltaStop_not_executed :
    handleCallback "1" "1" 17 (approveData 1) = .approved 17 1 ∧
      ¬ Executes true afterDeltaStop.approvals (approvalRow TickState.initial collar collarDeltaStop) 17 1
        "CLOSE_COLLAR" := by
  refine ⟨handleCallback_approveData "1" 17 1, fun h => ?_⟩
  obtain ⟨⟨d, hd, -, -⟩, -⟩ := h
  exact absurd hd (by simp [show (onApproved true afterDeltaStop.approvals 17 1).2 = none from rfl])

/-- The equivalence at that event. -/
theorem approvals_executable_iff_collarDeltaStop :
    (∀ row ∈ buildKeyboard ["CLOSE_COLLAR"], ∀ b ∈ row, ∀ rank,
        handleCallback "1" "1" 17 b.callbackData = .approved 17 rank →
        Executes true afterDeltaStop.approvals (approvalRow TickState.initial collar collarDeltaStop) 17 rank b.text) ↔
      Decodes collarDeltaStop.event.payload ["CLOSE_COLLAR"] :=
  approvals_executable_iff collarDeltaStop_sent collarDeltaStop_routed Approvals.Later.refl
    ⟨_, List.mem_singleton_self _, rfl, rfl⟩ (fun q hq _ _ => by
      rw [List.mem_singleton.mp hq]; rfl) true "1"

end NiftyShield.Notifications
