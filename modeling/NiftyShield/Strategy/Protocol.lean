import NiftyShield.Models.PyValue

/-!
# Signals and actions

What strategies emit and executors apply (`src/strategy/protocol.py`).
-/

namespace NiftyShield.Strategy

/-- One leg to open. The action is a text here: it is only checked when the leg is
executed. -/
structure LegSpec where
  /-- Instrument to trade. -/
  instrumentKey : String
  /-- `"BUY"` or `"SELL"`. -/
  action : String
  /-- Units to trade. -/
  quantity : ℤ
  /-- e.g. `short_put`. -/
  legRole : String
  /-- Optional annotation. -/
  notes : String := ""
  /-- Execution price captured when the leg was selected. -/
  price : Option ℚ := none
  deriving DecidableEq

/-- One position to close. Without an instrument key the leg role alone decides. -/
structure LegClose where
  /-- e.g. `short_put`. -/
  legRole : String
  /-- The position's instrument, if several may share the role. -/
  instrumentKey : Option String := none
  deriving DecidableEq

/-- Severity of a signal. -/
inductive Severity where
  /-- Logged only. -/
  | info
  /-- Sent as a message. -/
  | warn
  /-- Executed or sent for approval. -/
  | action
  deriving DecidableEq

/-- Something a strategy detected. -/
structure SignalEvent where
  /-- e.g. `PROFIT_TARGET`. -/
  eventType : String
  /-- How it is routed. -/
  severity : Severity
  /-- Text for the user. -/
  description : String
  /-- Everything else. -/
  payload : Payload

/-- An action approved by the user, or auto-executed. -/
structure ApprovedAction where
  /-- e.g. `CLOSE_FULL`. -/
  actionType : String
  /-- Positions to close. -/
  legsToClose : List LegClose
  /-- Legs to open. -/
  legsToOpen : List LegSpec
  /-- Free text. -/
  rationale : String
  /-- 1 is the top pick. -/
  councilRank : ℕ
  /-- The payload of the signal, for strategies that need it. -/
  metadata : Payload := []

end NiftyShield.Strategy
