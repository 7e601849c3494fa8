import NiftyShield.Models.PyValue
import Mathlib.Data.List.TakeWhile

/-!
# Buttons

The keyboard under an approval request, and what the gateway does when one of its buttons is
pressed (`src/notifications/telegram_gateway.py`). A button carries the rank of its action
in a text, which is read back on the press.

## What is proved

`approve_of_keyboard_iff`: the buttons that approve are those of the actions, each with the
rank of its place.
-/

namespace NiftyShield.Notifications

/-- A button: its label, and what a press sends back. -/
structure Button where
  /-- Label. -/
  text : String
  /-- `callback_data`. -/
  callbackData : List Char

/-- `approve:{rank}`. -/
def approveData (rank : ℕ) : List Char := "approve:".toList ++ Nat.toDigits 10 rank

/-- The buttons of the actions, with ranks from `rank` on. -/
def actionRows : ℕ → List String → List (List Button)
  | _, [] => []
  | rank, actionType :: rest => [⟨actionType, approveData rank⟩] :: actionRows (rank + 1) rest

/-- `_build_keyboard`. -/
def buildKeyboard (actions : List String) : List (List Button) :=
  actionRows 1 actions ++ [[⟨"❌ Reject All", "reject".toList⟩]]

/-- What a press leads to. -/
inductive Callback where
  /-- `on_approved(message_id, rank)`. -/
  | approved (messageId rank : ℤ)
  /-- `on_rejected(message_id)`. -/
  | rejected (messageId : ℤ)
  /-- Nothing. -/
  | dropped
  deriving DecidableEq

/-- The text after the first colon, up to the next. -/
def afterColon (data : List Char) : List Char := (data.dropWhile (· ≠ ':')).tail.takeWhile (· ≠ ':')

/-- `_handle_callback`. -/
def handleCallback (chatId senderId : String) (messageId : ℤ) (data : List Char) : Callback :=
  if senderId ≠ chatId then .dropped
  else if "approve:".toList.isPrefixOf data then
    match intOfText (afterColon data) with
    | some rank => .approved messageId rank
    | none => .dropped
  else if data = "reject".toList then .rejected messageId
  else .dropped

/-- The rank is read back. -/
theorem handleCallback_approveData (chatId : String) (messageId : ℤ) (rank : ℕ) :
    handleCallback chatId chatId messageId (approveData rank) = .approved messageId rank := by
  have hprefix : "approve:".toList.isPrefixOf (approveData rank) = true :=
    List.isPrefixOf_iff_prefix.mpr (List.prefix_append _ _)
  have hafter : afterColon (approveData rank) = Nat.toDigits 10 rank := by
    have hcolon : ∀ c ∈ Nat.toDigits 10 rank, c ≠ ':' := fun c hc h =>
      absurd (Nat.isDigit_of_mem_toDigits (by decide) (by decide) hc) (by rw [h]; decide)
    show (Nat.toDigits 10 rank).takeWhile (· ≠ ':') = _
    exact List.takeWhile_eq_self_iff.mpr fun c hc => by simpa using hcolon c hc
  rw [handleCallback, if_neg (not_not.mpr rfl), if_pos hprefix, hafter, intOfText_toDigits]

/-- The last button rejects. -/
theorem handleCallback_reject (chatId : String) (messageId : ℤ) :
    handleCallback chatId chatId messageId "reject".toList = .rejected messageId := by
  unfold handleCallback
  rw [if_neg (not_not.mpr rfl)]
  rfl

theorem mem_actionRows {b : Button} : ∀ {actions : List String} {rank : ℕ},
    (∃ row ∈ actionRows rank actions, b ∈ row) ↔
      ∃ i, actions[i]? = some b.text ∧ b.callbackData = approveData (rank + i)
  | [], rank => by simp [actionRows]
  | actionType :: rest, rank => by
    rw [actionRows]
    simp only [List.mem_cons, exists_eq_or_imp, List.not_mem_nil, or_false, mem_actionRows]
    constructor
    · rintro (rfl | ⟨i, hi, hdata⟩)
      · exact ⟨0, rfl, rfl⟩
      · exact ⟨i + 1, hi, by rw [hdata]; congr 1; omega⟩
    · rintro ⟨i, hi, hdata⟩
      cases i with
      | zero =>
        obtain rfl := Option.some.inj hi
        exact Or.inl (by rw [← show approveData (rank + 0) = approveData rank from rfl, ← hdata])
      | succ i => exact Or.inr ⟨i, hi, by rw [hdata]; congr 1; omega⟩

/-- **The approving buttons.** A press approves a rank exactly if the button is that of the
action of that rank. -/
theorem approve_of_keyboard_iff {actions : List String} {chatId : String} {messageId rank : ℤ}
    {actionType : String} :
    (∃ row ∈ buildKeyboard actions, ∃ b ∈ row, b.text = actionType ∧
        handleCallback chatId chatId messageId b.callbackData = .approved messageId rank) ↔
      ∃ i : ℕ, actions[i]? = some actionType ∧ rank = i + 1 := by
  constructor
  · rintro ⟨row, hrow, b, hb, rfl, hpress⟩
    rcases List.mem_append.mp hrow with hrow | hrow
    · obtain ⟨i, hi, hdata⟩ := mem_actionRows.mp ⟨row, hrow, hb⟩
      rw [hdata, handleCallback_approveData] at hpress
      injection hpress with _ hrank
      exact ⟨i, hi, by omega⟩
    · rw [List.mem_singleton.mp hrow, List.mem_singleton] at hb
      rw [hb, handleCallback_reject] at hpress
      exact absurd hpress (by simp)
  · rintro ⟨i, hi, rfl⟩
    obtain ⟨row, hrow, hb⟩ := (mem_actionRows (b := ⟨actionType, approveData (1 + i)⟩)).mpr ⟨i, hi, rfl⟩
    refine ⟨row, List.mem_append_left _ hrow, _, hb, rfl, ?_⟩
    rw [handleCallback_approveData, Nat.cast_add, Nat.cast_one, add_comm]

end NiftyShield.Notifications
