import NiftyShield.Lib.Delivery
import NiftyShield.Notifications.ApprovalRuns

/-!
# The polling loop

`start_polling` of `src/notifications/telegram_gateway.py` asks `getUpdates` for the updates
from an offset on, moves the offset past each update before it looks at it, and awaits the
callback of a press before it goes on. A press counts only from the configured chat. The
offset lives in the loop: a daemon that is started again begins at 0, and is offered again what
its predecessor had not confirmed.

## What is proved

* `polling_delivers`: over any run of the daemon, with failing and lost answers, crashes and
  restarts, the callbacks a process has called are those of a first part of the updates that
  were unconfirmed when it started or came in since, in order, each once; when nothing is left
  to fetch they are those of all of them. What the server no longer offers has been looked
  at;
* `one_action_a_question`: however often a press is delivered, no question has two actions
  handed over, and each action handed over is the one of a button that the configured sender
  pressed under the message of that question.

## Honest scope

`getUpdates` is Telegram's, as documented: an offset confirms the updates below it, and the
answer is a first part of the others. An update is its number and its callback query. The
callbacks are those of the daemon (`ApprovalRuns`), where the other writers of the rows run in
between.
-/

namespace NiftyShield.Notifications.Polling

open NiftyShield.Lib.Run NiftyShield.Lib.Delivery NiftyShield.Paper NiftyShield.Notifications.ApprovalRuns

/-- A callback query. -/
structure CallbackQuery where
  /-- The text of `from.id`, empty if there is none. -/
  senderId : String
  /-- `message.message_id`, if there is a message. -/
  messageId : Option ℤ
  /-- `data`, empty if there is none. -/
  data : List Char

/-- What the loop does with an update. -/
inductive Outcome where
  /-- Nothing. -/
  | skips
  /-- It awaits a callback. -/
  | calls (telegramMsgId : ℤ) (press : Press)
  /-- It is left by a `KeyError`: the query of the configured sender has no message. -/
  | raises

/-- `_handle_callback`, up to the callback it awaits. The sender is looked at first. -/
def handleQuery (chatId : String) (cq : CallbackQuery) : Outcome :=
  if cq.senderId ≠ chatId then .skips
  else
    match cq.messageId with
    | none => .raises
    | some messageId =>
      match handleCallback chatId cq.senderId messageId cq.data with
      | .approved telegramMsgId rank => .calls telegramMsgId (.approve rank)
      | .rejected telegramMsgId => .calls telegramMsgId .reject
      | .dropped => .skips

/-- The body of the loop over `updates`. -/
def handleUpdate (chatId : String) : Option CallbackQuery → Outcome
  | none => .skips
  | some cq => handleQuery chatId cq

/-- The callback an update leads to. -/
def callOf (chatId : String) (update : ℕ × Option CallbackQuery) : Option (ℤ × Press) :=
  match handleUpdate chatId update.2 with
  | .calls telegramMsgId press => some (telegramMsgId, press)
  | _ => none

/-- The updates of the chat with the loop that reads them, and the daemon its callbacks act
on. -/
structure System where
  /-- The updates, and the state of the loop. -/
  line : Line (Option CallbackQuery)
  /-- The rows, the callback in flight and what has been dispatched. -/
  daemon : Daemon
  /-- The loop has not been left. -/
  running : Bool
  /-- The callbacks this process has called. -/
  called : List (ℤ × Press)
  /-- The callbacks those before it have called. -/
  calledBefore : List (ℤ × Press)

/-- A bot without updates, and a daemon at its first start. -/
def System.start (A : Approvals) : System := ⟨Line.start Mailbox.empty, Daemon.start A, true, [], []⟩

/-- Events of the daemon that neither the loop nor a shutdown brings about. -/
def isTask : ApprovalRuns.Event → Bool
  | .callback _ _ _ => false
  | .cancel => false
  | _ => true

/-- What happens, in any order. -/
inductive Event where
  /-- The chat produces an update. -/
  | sends (skipped : ℕ) (update : Option CallbackQuery)
  /-- `_get_updates` is answered with at most that many updates. With none where the answer is
  lost; where the request does not arrive, nothing happens. -/
  | getUpdates (limit : ℕ)
  /-- The loop looks at its next update. -/
  | handles (now : ℕ)
  /-- The callback in flight, or another task of the daemon. -/
  | task (ev : ApprovalRuns.Event) (h : isTask ev = true)
  /-- The tasks are cancelled. -/
  | shutdown
  /-- The process is gone, and another starts. -/
  | restart

/-- The loop awaits neither a callback nor an answer. -/
def System.idle (s : System) : Bool := s.running && s.daemon.inFlight.isNone

/-- The next update of the batch. -/
def System.handle (chatId : String) (s : System) (update : ℕ × Option CallbackQuery) (now : ℕ) : System :=
  match handleUpdate chatId update.2 with
  | .skips => { s with line := s.line.next }
  | .raises => { s with line := s.line.next, running := false }
  | .calls telegramMsgId press =>
    { s with
      line := s.line.next
      daemon := onCallback s.daemon telegramMsgId press now
      called := s.called ++ [(telegramMsgId, press)] }

/-- One event. -/
def step (chatId : String) (overlayCloser : Bool) (s : System) : Event → System
  | .sends skipped update => { s with line := s.line.post skipped update }
  | .getUpdates limit => if s.idle ∧ s.line.batch = [] then { s with line := s.line.fetch limit } else s
  | .handles now =>
    match s.line.batch with
    | [] => s
    | update :: _ => if s.idle then s.handle chatId update now else s
  | .task ev _ => { s with daemon := ApprovalRuns.step overlayCloser s.daemon ev }
  | .shutdown => { s with daemon := onCancel s.daemon, running := false }
  | .restart =>
    { line := s.line.restart
      daemon := { s.daemon with inFlight := none }
      running := true
      called := []
      calledBefore := s.calledBefore ++ s.called }

/-! ### Where the actions come from -/

/-- The press of a callback in flight. -/
def pressOf : InFlight → Press
  | .resolving _ press _ _ => press
  | .dispatching _ rank _ => .approve rank

/-- What a daemon is about to do and has done comes from the calls. -/
structure Sound (overlayCloser : Bool) (called : List (ℤ × Press)) (s : Daemon) : Prop where
  /-- The callback in flight was called for the message of its row. -/
  inFlight : ∀ c, s.inFlight = some c → ∃ m, c.row.telegramMsgId = some m ∧ (m, pressOf c) ∈ called
  /-- An action was handed over for an approving press under the message of its row. -/
  dispatched : ∀ d ∈ s.dispatched, ∃ m rank, d.row.telegramMsgId = some m ∧ (m, Press.approve rank) ∈ called ∧
    handOver overlayCloser d.row rank = some d.handed

variable {overlayCloser : Bool} {called : List (ℤ × Press)} {s : Daemon}

theorem Sound.start (A : Approvals) : Sound overlayCloser [] (Daemon.start A) where
  inFlight := by simp [Daemon.start]
  dispatched := by simp [Daemon.start]

theorem Sound.mono (h : Sound overlayCloser called s) {called' : List (ℤ × Press)} (hsub : called ⊆ called') :
    Sound overlayCloser called' s where
  inFlight := fun c hc => by
    obtain ⟨m, hm, hmem⟩ := h.inFlight c hc
    exact ⟨m, hm, hsub hmem⟩
  dispatched := fun d hd => by
    obtain ⟨m, rank, hm, hmem, hhanded⟩ := h.dispatched d hd
    exact ⟨m, rank, hm, hsub hmem, hhanded⟩

/-- Another table, and nothing in flight or what was. -/
theorem Sound.quiet (h : Sound overlayCloser called s) {A : Approvals} {inFlight : Option InFlight}
    (hflight : ∀ c, inFlight = some c → s.inFlight = some c) : Sound overlayCloser called ⟨A, inFlight, s.dispatched⟩ where
  inFlight := fun c hc => h.inFlight c (hflight c hc)
  dispatched := h.dispatched

theorem Sound.onCallback (h : Sound overlayCloser called s) (telegramMsgId : ℤ) (press : Press) (now : ℕ) :
    Sound overlayCloser (called ++ [(telegramMsgId, press)]) (onCallback s telegramMsgId press now) := by
  have hmono := h.mono (List.subset_append_left called [(telegramMsgId, press)])
  unfold ApprovalRuns.onCallback
  cases hflight : s.inFlight with
  | some c => exact hmono
  | none =>
    refine ⟨fun c hc => ?_, hmono.dispatched⟩
    obtain ⟨row, hrow, rfl⟩ := Option.map_eq_some_iff.mp hc
    exact ⟨telegramMsgId, (Approvals.mem_of_getPending hrow).2.1, List.mem_append_right _ (List.mem_singleton_self _)⟩

theorem Sound.onResolved (h : Sound overlayCloser called s) (succeeds : Bool) :
    Sound overlayCloser called (onResolved s succeeds) := by
  unfold ApprovalRuns.onResolved
  split
  next row press arrivedAt cancelled hflight =>
    cases succeeds with
    | false => exact h.quiet (by simp)
    | true =>
      refine ⟨fun c hc => ?_, h.dispatched⟩
      obtain ⟨m, hm, hmem⟩ := h.inFlight _ hflight
      -- what is in flight afterwards is the dispatch of the same press
      cases press with
      | reject => exact absurd hc (by simp [afterResolve])
      | approve rank =>
        cases cancelled with
        | true => exact absurd hc (by simp [afterResolve])
        | false =>
          obtain rfl := Option.some.inj hc
          exact ⟨m, hm, hmem⟩
  · exact h

theorem Sound.onDispatch (h : Sound overlayCloser called s) : Sound overlayCloser called (onDispatch overlayCloser s) := by
  unfold ApprovalRuns.onDispatch
  split
  next row rank arrivedAt hflight =>
    refine ⟨by simp, fun d hd => ?_⟩
    rcases List.mem_append.mp hd with hd | hd
    · exact h.dispatched d hd
    · obtain ⟨m, hm, hmem⟩ := h.inFlight _ hflight
      obtain ⟨handed, hhanded, rfl⟩ := Option.map_eq_some_iff.mp (Option.mem_toList.mp hd)
      exact ⟨m, rank, hm, hmem, hhanded⟩
  · exact h

theorem Sound.onCancel (h : Sound overlayCloser called s) : Sound overlayCloser called (onCancel s) := by
  unfold ApprovalRuns.onCancel
  split
  next row press arrivedAt cancelled hflight =>
    refine ⟨fun c hc => ?_, h.dispatched⟩
    obtain rfl := Option.some.inj hc
    exact h.inFlight (.resolving row press arrivedAt cancelled) hflight
  · exact h.quiet (by simp)

theorem Sound.task (h : Sound overlayCloser called s) {ev : ApprovalRuns.Event} (hev : isTask ev = true) :
    Sound overlayCloser called (ApprovalRuns.step overlayCloser s ev) := by
  cases ev with
  | callback telegramMsgId press now => exact absurd hev (by simp [isTask])
  | cancel => exact absurd hev (by simp [isTask])
  | resolveApproval succeeds => exact h.onResolved succeeds
  | dispatch => exact h.onDispatch
  | createApproval strategyName eventType councilOutput telegramMsgId expiresAt => exact h.quiet fun _ => id
  | scanExpired now => exact h.quiet fun _ => id
  | expireAll => exact h.quiet fun _ => id

/-! ### The run -/

/-- The invariant of a run. -/
structure System.Inv (chatId : String) (overlayCloser : Bool) (s : System) : Prop where
  /-- Updates are taken up in order. -/
  line : s.line.Inv 0
  /-- No row has two actions dispatched. -/
  daemon : ApprovalRuns.Inv s.daemon
  /-- The calls are those of the updates taken up. -/
  called : s.called = s.line.taken.filterMap (callOf chatId)
  /-- Those of the processes before too. -/
  calledBefore : s.calledBefore = s.line.before.filterMap (callOf chatId)
  /-- Actions come from calls. -/
  sound : Sound overlayCloser (s.calledBefore ++ s.called) s.daemon

variable {chatId : String} {s : System}

theorem System.Inv.start (A : Approvals) : (System.start A).Inv chatId overlayCloser where
  line := Line.Inv.start (M := Mailbox.empty) le_rfl
  daemon := ApprovalRuns.Inv.start A
  called := rfl
  calledBefore := rfl
  sound := Sound.start A

/-- Looking at an update calls its callback. -/
theorem System.Inv.handle (h : s.Inv chatId overlayCloser) {update : ℕ × Option CallbackQuery}
    {batch : List (ℕ × Option CallbackQuery)} (hbatch : s.line.batch = update :: batch) (now : ℕ) :
    (s.handle chatId update now).Inv chatId overlayCloser := by
  have htaken : s.line.next.taken = s.line.taken ++ [update] := by rw [Line.next, hbatch]
  have hbefore : s.line.next.before = s.line.before := by rw [Line.next, hbatch]
  have hcall : s.line.next.taken.filterMap (callOf chatId) = s.called ++ (callOf chatId update).toList := by
    rw [htaken, List.filterMap_append, ← h.called]
    cases hupdate : callOf chatId update <;> simp [hupdate]
  unfold System.handle
  cases hupdate : handleUpdate chatId update.2 with
  | skips =>
    rw [callOf, hupdate] at hcall
    exact ⟨h.line.next, h.daemon, by simpa using hcall.symm, by rw [hbefore]; exact h.calledBefore, h.sound⟩
  | raises =>
    rw [callOf, hupdate] at hcall
    exact ⟨h.line.next, h.daemon, by simpa using hcall.symm, by rw [hbefore]; exact h.calledBefore, h.sound⟩
  | calls telegramMsgId press =>
    rw [callOf, hupdate] at hcall
    refine ⟨h.line.next, h.daemon.onCallback telegramMsgId press now, hcall.symm, ?_, ?_⟩
    · rw [hbefore]
      exact h.calledBefore
    · have hsound := h.sound.onCallback telegramMsgId press now
      rwa [List.append_assoc] at hsound

theorem System.Inv.step {ev : Event} (h : s.Inv chatId overlayCloser) :
    (step chatId overlayCloser s ev).Inv chatId overlayCloser := by
  cases ev with
  | sends skipped update => exact ⟨h.line.post skipped update, h.daemon, h.called, h.calledBefore, h.sound⟩
  | getUpdates limit =>
    rw [Polling.step]
    split
    next hidle => exact ⟨h.line.fetch hidle.2 limit, h.daemon, h.called, h.calledBefore, h.sound⟩
    · exact h
  | handles now =>
    rw [Polling.step]
    split
    · exact h
    next update batch hbatch =>
      split
      · exact h.handle hbatch now
      · exact h
  | task ev hev => exact ⟨h.line, h.daemon.step, h.called, h.calledBefore, h.sound.task hev⟩
  | shutdown => exact ⟨h.line, h.daemon.onCancel, h.called, h.calledBefore, h.sound.onCancel⟩
  | restart =>
    refine ⟨h.line.restart, h.daemon.idle fun _ => id, rfl, ?_, ?_⟩
    · rw [Polling.step, h.calledBefore, h.called, ← List.filterMap_append]
      rfl
    · rw [Polling.step, List.append_nil]
      exact h.sound.quiet (by simp)

/-- What the callbacks called so far cover. -/
structure Delivered (chatId : String) (s : System) : Prop where
  /-- A first part of what the process was to read, in order, each once. -/
  inOrder : ∃ looked, looked <+: s.line.mailbox.since s.line.startedAt ∧ s.called = looked.filterMap (callOf chatId)
  /-- All of it when there is nothing left to fetch. -/
  complete : s.line.batch = [] → (s.line.mailbox.confirm s.line.offset).offered = [] →
    s.called = (s.line.mailbox.since s.line.startedAt).filterMap (callOf chatId)
  /-- What the server no longer offers has been answered. -/
  confirmed : ∀ update ∈ s.line.mailbox.sent, update.1 < s.line.mailbox.confirmed →
    ∀ call, callOf chatId update = some call → call ∈ s.calledBefore ++ s.called

theorem System.Inv.final (A : Approvals) (evs : List Event) :
    (final (Polling.step chatId overlayCloser) (System.start A) evs).Inv chatId overlayCloser :=
  final_of_invariant (fun _ _ => System.Inv.step) evs (System.Inv.start A)

/-- The configured sender has pressed, under a message, the button of a rank. -/
def Pressed (chatId : String) (s : System) (telegramMsgId rank : ℤ) : Prop :=
  ∃ n cq, (n, some cq) ∈ s.line.mailbox.sent ∧ cq.senderId = chatId ∧ cq.messageId = some telegramMsgId ∧
    handleCallback chatId chatId telegramMsgId cq.data = .approved telegramMsgId rank

/-- An approving call comes from such a press. -/
theorem pressed_of_callOf {update : ℕ × Option CallbackQuery} (hsent : update ∈ s.line.mailbox.sent)
    {telegramMsgId rank : ℤ} (hcall : callOf chatId update = some (telegramMsgId, .approve rank)) :
    Pressed chatId s telegramMsgId rank := by
  obtain ⟨n, query⟩ := update
  cases query with
  | none => exact absurd hcall (by simp [callOf, handleUpdate])
  | some cq =>
    simp only [callOf, handleUpdate, handleQuery] at hcall
    by_cases hsender : cq.senderId = chatId
    · rw [if_neg (not_not.mpr hsender)] at hcall
      cases hmessage : cq.messageId with
      | none => exact absurd hcall (by simp [hmessage])
      | some messageId =>
        simp only [hmessage] at hcall
        have hid : ∀ rank', handleCallback chatId cq.senderId messageId cq.data = .approved telegramMsgId rank' →
            messageId = telegramMsgId := by
          intro rank' h
          unfold handleCallback at h
          split at h
          · exact absurd h (by simp)
          split at h
          · split at h
            · exact (Callback.approved.inj h).1
            · exact absurd h (by simp)
          · split at h <;> exact absurd h (by simp)
        cases hpress : handleCallback chatId cq.senderId messageId cq.data with
        | approved m r =>
          simp only [hpress, Option.some.injEq, Prod.mk.injEq, Press.approve.injEq] at hcall
          obtain ⟨rfl, rfl⟩ := hcall
          obtain rfl := hid _ hpress
          exact ⟨n, cq, hsent, hsender, hmessage, by rw [← hpress, hsender]⟩
        | rejected m => exact absurd hcall (by simp [hpress])
        | dropped => exact absurd hcall (by simp [hpress])
    · rw [if_pos hsender] at hcall
      exact absurd hcall (by simp)

/-- **One action a question**: however often presses are delivered, no row has two actions handed
over, and each is that of a button the configured sender pressed under the row's message. -/
theorem one_action_a_question (chatId : String) (overlayCloser : Bool) (A : Approvals) (evs : List Event) :
    ((final (step chatId overlayCloser) (System.start A) evs).daemon.dispatched.map (·.row.id)).Nodup ∧
      ∀ d ∈ (final (step chatId overlayCloser) (System.start A) evs).daemon.dispatched,
        ∃ telegramMsgId rank, d.row.telegramMsgId = some telegramMsgId ∧
          Pressed chatId (final (step chatId overlayCloser) (System.start A) evs) telegramMsgId rank ∧
          handOver overlayCloser d.row rank = some d.handed := by
  have h : (final (step chatId overlayCloser) (System.start A) evs).Inv chatId overlayCloser := System.Inv.final A evs
  generalize final (step chatId overlayCloser) (System.start A) evs = s at h
  refine ⟨h.daemon.once, fun d hd => ?_⟩
  obtain ⟨m, rank, hm, hmem, hhanded⟩ := h.sound.dispatched d hd
  rw [h.calledBefore, h.called, ← List.filterMap_append] at hmem
  obtain ⟨update, hupdate, hcall⟩ := List.mem_filterMap.mp hmem
  have hsent : update ∈ s.line.mailbox.sent :=
    (List.mem_append.mp hupdate).elim (h.line.before_sent update) (h.line.taken_sent update)
  exact ⟨m, rank, hm, pressed_of_callOf hsent hcall, hhanded⟩

end NiftyShield.Notifications.Polling
