import NiftyShield.Notifications.Markdown
import Mathlib.Data.List.Infix

/-!
# Sending notifications

`TelegramNotifier` (`src/notifications/telegram.py`) sends messages and pictures to a chat, and never
raises. Each has a budget for the session, from which a call takes its share before it sends. A
message whose formatting Telegram cannot parse is sent once more as plain text; nothing else is
sent again, as an answer that did not come may be one that was lost.

## What is proved

* `outcomes_budgets`: in any run of calls, the messages that are sent are the first ones that the
  budget allows, whatever pictures there are between them, and the other way around;
* `delivered_once`: no call has its message delivered twice. It is delivered if the call says so, and if
  the call does not, then not unless the answer was lost; it is sent as plain text only after Telegram
  could not parse it;
* `posts_message`: which does not happen to a message put together by `escape_markdown` and `mdcode`.

## Honest scope

Calls that overlap take their shares one after another, and are listed in that order; each asks
Telegram by itself. Telegram rejects what it answers with an error, and what it cannot parse it does
not deliver. The error bodies are ASCII where they are compared.
-/

namespace NiftyShield.Notifications

/-- A request. -/
inductive TelegramPayload where
  /-- `sendMessage` with `parse_mode` `MarkdownV2`. -/
  | markdown (text : List Char)
  /-- `sendMessage` without. -/
  | plain (text : List Char)
  /-- `sendPhoto`. -/
  | photo

/-- What comes of a request. -/
inductive Reply where
  /-- `ok`. -/
  | ok
  /-- An answer that is not `ok`. -/
  | notOk
  /-- An error, with its body. -/
  | rejected (status : ℕ) (body : List Char)
  /-- An exception; Telegram has accepted the request before, or not. -/
  | failed (accepted : Bool)
  deriving DecidableEq

/-- Telegram has delivered it. -/
def Reply.accepted : Reply → Bool
  | .ok => true
  | .failed accepted => accepted
  | _ => false

/-- `_ENTITY_PARSE_ERROR`. -/
def entityParseErrorText : List Char := "can't parse entities".toList

/-- `_ENTITY_PARSE_ERROR in rejection.lower()`. -/
def isEntityParseError (rejection : List Char) : Bool :=
  decide (entityParseErrorText <:+: rejection.map Char.toLower)

/-- `_post`: whether it is sent, and the body of a 400; `none` if it raises. -/
def post : Reply → Option (Bool × List Char)
  | .ok => some (true, [])
  | .notOk => some (false, [])
  | .rejected status body => some (false, if status = 400 then body else [])
  | .failed _ => none

/-- What a call has done. -/
structure Outcome where
  /-- The requests, with what came of them. -/
  posts : List (TelegramPayload × Reply)
  /-- What it returns. -/
  result : Bool

/-- A call that the budget does not allow. -/
def suppressed : Outcome := ⟨[], false⟩

/-- `send`, once it has its share. -/
def sendText (replies : TelegramPayload → Reply) (text : List Char) : Outcome :=
  let first := (TelegramPayload.markdown text, replies (.markdown text))
  match post first.2 with
  | none => ⟨[first], false⟩
  | some (ok, rejection) =>
    if ok || !isEntityParseError rejection then ⟨[first], ok⟩
    else
      let second := (TelegramPayload.plain text, replies (.plain text))
      ⟨[first, second], ((post second.2).map Prod.fst).getD false⟩

/-- `send_photo`, once it has its share. -/
def sendPicture (replies : TelegramPayload → Reply) : Outcome := ⟨[(.photo, replies .photo)], replies .photo = .ok⟩

/-- A call, with what Telegram answers to it. -/
inductive Call where
  /-- `send(text)`. -/
  | send (text : List Char) (replies : TelegramPayload → Reply)
  /-- `send_photo(png)`. -/
  | sendPhoto (replies : TelegramPayload → Reply)

namespace Call

/-- It is of a message. -/
def isSend : Call → Bool
  | .send _ _ => true
  | .sendPhoto _ => false

/-- What it does if the budget allows it. -/
def attempt : Call → Outcome
  | .send text replies => sendText replies text
  | .sendPhoto replies => sendPicture replies

end Call

/-- The notifier. -/
structure TelegramNotifier where
  /-- `_budget`. -/
  budget : ℤ
  /-- `_messages_sent`. -/
  messagesSent : ℕ := 0
  /-- `_photo_budget`. -/
  photoBudget : ℤ
  /-- `_photos_sent`. -/
  photosSent : ℕ := 0

namespace TelegramNotifier

/-- `__init__`. -/
def init (budget : ℤ) (photoBudget : Option ℤ) : TelegramNotifier := { budget, photoBudget := photoBudget.getD budget }

/-- A call, and the notifier after it. -/
def call (n : TelegramNotifier) (c : Call) : TelegramNotifier × Outcome :=
  match c with
  | .send _ _ =>
    if n.budget ≤ n.messagesSent then (n, suppressed)
    else ({ n with messagesSent := n.messagesSent + 1 }, c.attempt)
  | .sendPhoto _ =>
    if n.photoBudget ≤ n.photosSent then (n, suppressed)
    else ({ n with photosSent := n.photosSent + 1 }, c.attempt)

/-- The calls of a run, with what they have done. -/
def outcomes (n : TelegramNotifier) : List Call → List (Call × Outcome)
  | [] => []
  | c :: cs => (c, (n.call c).2) :: (n.call c).1.outcomes cs

/-- The messages that may still be sent. -/
def messagesLeft (n : TelegramNotifier) : ℕ := (n.budget - n.messagesSent).toNat

/-- The pictures that may still be sent. -/
def photosLeft (n : TelegramNotifier) : ℕ := (n.photoBudget - n.photosSent).toNat

end TelegramNotifier

/-- The first calls are attempted, the others suppressed. -/
def budgeted (left : ℕ) (cs : List Call) : List (Call × Outcome) :=
  (cs.take left).map (fun c => (c, c.attempt)) ++ (cs.drop left).map fun c => (c, suppressed)

theorem budgeted_succ (left : ℕ) (c : Call) (cs : List Call) :
    budgeted (left + 1) (c :: cs) = (c, c.attempt) :: budgeted left cs := rfl

theorem budgeted_zero (c : Call) (cs : List Call) : budgeted 0 (c :: cs) = (c, suppressed) :: budgeted 0 cs := rfl

namespace TelegramNotifier

variable {n : TelegramNotifier} {c : Call}

/-- What a call of either kind does, and what it leaves. -/
theorem call_cases (n : TelegramNotifier) (c : Call) :
    (c.isSend = true ∧ (n.call c).1.photosLeft = n.photosLeft ∧
      ((n.messagesLeft = 0 ∧ (n.call c).1.messagesLeft = 0 ∧ (n.call c).2 = suppressed) ∨
        (n.messagesLeft = (n.call c).1.messagesLeft + 1 ∧ (n.call c).2 = c.attempt))) ∨
    (c.isSend = false ∧ (n.call c).1.messagesLeft = n.messagesLeft ∧
      ((n.photosLeft = 0 ∧ (n.call c).1.photosLeft = 0 ∧ (n.call c).2 = suppressed) ∨
        (n.photosLeft = (n.call c).1.photosLeft + 1 ∧ (n.call c).2 = c.attempt))) := by
  cases c with
  | send text replies =>
    refine .inl ⟨rfl, ?_⟩
    rw [call]
    split
    next hspent =>
      have hnone : n.messagesLeft = 0 := Int.toNat_of_nonpos (by omega)
      exact ⟨rfl, .inl ⟨hnone, hnone, rfl⟩⟩
    next hleft =>
      refine ⟨rfl, .inr ⟨?_, rfl⟩⟩
      simp only [messagesLeft]
      omega
  | sendPhoto replies =>
    refine .inr ⟨rfl, ?_⟩
    rw [call]
    split
    next hspent =>
      have hnone : n.photosLeft = 0 := Int.toNat_of_nonpos (by omega)
      exact ⟨rfl, .inl ⟨hnone, hnone, rfl⟩⟩
    next hleft =>
      refine ⟨rfl, .inr ⟨?_, rfl⟩⟩
      simp only [photosLeft]
      omega

/-- **The budgets do not meet**: of the messages those are sent that come first, of the pictures too,
and neither takes from the other. -/
theorem outcomes_budgets (n : TelegramNotifier) (cs : List Call) :
    (n.outcomes cs).filter (fun o => o.1.isSend) = budgeted n.messagesLeft (cs.filter Call.isSend) ∧
      (n.outcomes cs).filter (fun o => !o.1.isSend) = budgeted n.photosLeft (cs.filter fun c => !c.isSend) := by
  induction cs generalizing n with
  | nil => exact ⟨by simp [outcomes, budgeted], by simp [outcomes, budgeted]⟩
  | cons c cs ih =>
    obtain ⟨hsends, hphotos⟩ := ih (n.call c).1
    simp only [outcomes, List.filter_cons]
    rcases call_cases n c with ⟨hsend, hsame, hcall⟩ | ⟨hphoto, hsame, hcall⟩
    · simp only [hsend, if_true, Bool.not_true, Bool.false_eq_true, if_false, hsends, hphotos, hsame, and_true]
      rcases hcall with ⟨hnone, hnone', hout⟩ | ⟨hleft, hout⟩
      · rw [hout, hnone, hnone', budgeted_zero]
      · rw [hout, hleft, budgeted_succ]
    · simp only [hphoto, if_true, Bool.not_false, Bool.false_eq_true, if_false, hsends, hphotos, hsame, true_and]
      rcases hcall with ⟨hnone, hnone', hout⟩ | ⟨hleft, hout⟩
      · rw [hout, hnone, hnone', budgeted_zero]
      · rw [hout, hleft, budgeted_succ]

theorem mem_outcomes {o : Call × Outcome} {cs : List Call} (h : o ∈ n.outcomes cs) :
    o.2 = suppressed ∨ o.2 = o.1.attempt := by
  induction cs generalizing n with
  | nil => exact absurd h (by simp [outcomes])
  | cons c cs ih =>
    rcases List.mem_cons.mp h with rfl | h
    · rcases call_cases n c with ⟨-, -, ⟨-, -, hout⟩ | ⟨-, hout⟩⟩ | ⟨-, -, ⟨-, -, hout⟩ | ⟨-, hout⟩⟩
      · exact .inl hout
      · exact .inr hout
      · exact .inl hout
      · exact .inr hout
    · exact ih h

end TelegramNotifier

/-! ### What Telegram delivers -/

/-- How a call has gone. -/
structure Outcome.Sound (o : Outcome) : Prop where
  /-- Nothing is delivered twice. -/
  once : (o.posts.filter fun p => p.2.accepted).length ≤ 1
  /-- What it says is delivered is. -/
  of_true : o.result = true → (o.posts.filter fun p => p.2.accepted).length = 1
  /-- What it says is not delivered is not, unless the answer was lost. -/
  of_false : o.result = false → ∀ p ∈ o.posts, p.2.accepted = true → p.2 = .failed true
  /-- Plain text is sent only if Telegram could not parse the message. -/
  plain : ∀ text reply, (TelegramPayload.plain text, reply) ∈ o.posts →
    ∃ body, (TelegramPayload.markdown text, Reply.rejected 400 body) ∈ o.posts ∧ isEntityParseError body = true

theorem isEntityParseError_nil : isEntityParseError [] = false := by decide

/-- Only a 400 has a body that is looked at. -/
theorem rejected_of_post {r : Reply} {ok : Bool} {rejection : List Char} (h : post r = some (ok, rejection))
    (hparse : isEntityParseError rejection = true) : r = .rejected 400 rejection := by
  have hne : rejection ≠ [] := by
    rintro rfl
    exact absurd hparse (by rw [isEntityParseError_nil]; exact Bool.false_ne_true)
  cases r with
  | rejected status body =>
    simp only [post, Option.some.injEq, Prod.mk.injEq] at h
    split at h
    next hstatus => rw [hstatus, h.2]
    next => exact absurd h.2.symm hne
  | ok => exact absurd (congrArg Prod.snd (Option.some.inj h)).symm hne
  | notOk => exact absurd (congrArg Prod.snd (Option.some.inj h)).symm hne
  | failed accepted => exact absurd h (by simp [post])

/-- Telegram says so, or the answer is lost. -/
theorem eq_failed_of_accepted {r : Reply} (hne : r ≠ .ok) (h : r.accepted = true) : r = .failed true := by
  cases r with
  | ok => exact absurd rfl hne
  | failed accepted => exact congrArg Reply.failed h
  | notOk => exact absurd h (by simp [Reply.accepted])
  | rejected status body => exact absurd h (by simp [Reply.accepted])

/-- One request that is not sent again. -/
theorem sound_single {payload : TelegramPayload} {r : Reply} (hpayload : ∀ text, payload ≠ .plain text) :
    Outcome.Sound ⟨[(payload, r)], r = .ok⟩ where
  once := List.length_filter_le _ _
  of_true h := by
    obtain rfl : r = .ok := of_decide_eq_true h
    rfl
  of_false h p hp haccepted := by
    obtain rfl := List.mem_singleton.mp hp
    exact eq_failed_of_accepted (of_decide_eq_false h) haccepted
  plain text reply h := absurd (congrArg Prod.fst (List.mem_singleton.mp h)).symm (hpayload text)

/-- A message that could not be parsed, and is sent again. -/
theorem sound_resent {text body : List Char} (hparse : isEntityParseError body = true) (r : Reply) :
    Outcome.Sound ⟨[(.markdown text, .rejected 400 body), (.plain text, r)], r = .ok⟩ where
  once := List.length_filter_le (fun p => p.2.accepted) [(TelegramPayload.plain text, r)]
  of_true h := by
    obtain rfl : r = .ok := of_decide_eq_true h
    rfl
  of_false h p hp haccepted := by
    rcases List.mem_cons.mp hp with rfl | hp
    · exact absurd haccepted (by simp [Reply.accepted])
    · obtain rfl := List.mem_singleton.mp hp
      exact eq_failed_of_accepted (of_decide_eq_false h) haccepted
  plain text' reply h := by
    obtain ⟨rfl, -⟩ : text' = text ∧ reply = r := by simpa using h
    exact ⟨body, List.mem_cons_self, hparse⟩

/-- What is read of an answer says whether it is `ok`. -/
theorem getD_post (r : Reply) : ((post r).map Prod.fst).getD false = decide (r = .ok) := by
  cases r <;> simp [post]

theorem sound_sendText (replies : TelegramPayload → Reply) (text : List Char) : (sendText replies text).Sound := by
  have hfirst := @sound_single (.markdown text) (replies (.markdown text)) (by simp)
  rw [← getD_post] at hfirst
  cases hpost : post (replies (.markdown text)) with
  | none =>
    simp only [sendText, hpost]
    rwa [hpost] at hfirst
  | some found =>
    simp only [sendText, hpost]
    rw [hpost] at hfirst
    split
    · exact hfirst
    next hagain =>
      have hparse : isEntityParseError found.2 = true := (by simpa using hagain : found.1 = false ∧ _).2
      rw [getD_post, rejected_of_post hpost hparse]
      exact sound_resent hparse _

theorem sound_attempt (c : Call) : c.attempt.Sound := by
  cases c with
  | send text replies => exact sound_sendText replies text
  | sendPhoto replies => exact sound_single (by simp)

/-- **No message is delivered twice**, and what a call returns is right, in any run of calls: `true` if it is
delivered, and `false` if it is not, or if the answer was lost. -/
theorem delivered_once (n : TelegramNotifier) (cs : List Call) : ∀ o ∈ n.outcomes cs, o.2.Sound := by
  intro o ho
  rcases TelegramNotifier.mem_outcomes ho with hout | hout
  · rw [hout]
    exact ⟨Nat.zero_le 1, fun h => absurd h (by simp [suppressed]), fun _ _ hp => absurd hp (by simp [suppressed]),
      fun _ _ hp => absurd hp (by simp [suppressed])⟩
  · rw [hout]
    exact sound_attempt o.1

/-- The answers to a message that cannot be parsed. -/
def unparsedReplies : TelegramPayload → Reply
  | .markdown _ => .rejected 400 "Bad Request: can't parse entities".toList
  | _ => .ok

/-- It is delivered as plain text. -/
theorem delivered_once_plain : (sendText unparsedReplies "3 * 4".toList).Sound :=
  delivered_once (.init 1 none) [.send "3 * 4".toList unparsedReplies]
    (.send "3 * 4".toList unparsedReplies, sendText unparsedReplies "3 * 4".toList) (List.mem_cons.mpr (Or.inl rfl))

/-- Telegram, as it answers to messages: one that can be read and does not format anything is not
rejected for its formatting. -/
structure Reader where
  /-- What comes of a request. -/
  replies : TelegramPayload → Reply
  /-- A message without formatting can be parsed. -/
  parses : ∀ {text tokens}, readMessage text = some tokens → tokens.filterMap formatChar = [] →
    ∀ {body}, replies (.markdown text) = .rejected 400 body → isEntityParseError body = false

/-- A message of escaped text and of code is never sent as plain text. -/
theorem posts_message (T : Reader) {parts : List Part} (hparts : parts.flatMap Part.formats = []) :
    (sendText T.replies (message parts)).posts = [(.markdown (message parts), T.replies (.markdown (message parts)))] := by
  obtain ⟨pieces, hwrite, -, hformats⟩ := exists_pieces parts
  have hread := readMessage_pieces pieces
  rw [hwrite] at hread
  cases hpost : post (T.replies (.markdown (message parts))) with
  | none => simp only [sendText, hpost]
  | some found =>
    have hparse : isEntityParseError found.2 = false := by
      by_contra hparse
      rw [Bool.not_eq_false] at hparse
      have hreject := T.parses hread (hformats.trans hparts) (rejected_of_post hpost hparse)
      exact absurd hparse (by rw [hreject]; exact Bool.false_ne_true)
    simp only [sendText, hpost, hparse, Bool.not_false, Bool.or_true, if_true]

end NiftyShield.Notifications
