import Mathlib.Algebra.Order.Field.Basic

/-!
# Doubling back-off

A resource that fails is left alone for a while. Then it is tried again, and after each try
that does not succeed it is left alone for twice as long as before, up to a cap; one success
ends the outage. Here the outage that a resource is in is read off the turns it has been
given so far (`Outage.after`), and `Respects` says what back-off asks of the next turn: no
try before it is due, and no refusal once it is.
-/

namespace NiftyShield.Lib.Backoff

variable {K : Type*}

/-- How a try ends. -/
inductive Ending (K : Type*) where
  /-- It succeeds. -/
  | succeeded
  /-- It fails, at a time. -/
  | failed (time : K)
  /-- It is given up, and nothing is said about the resource. -/
  | abandoned
  deriving DecidableEq

/-- What the turn of a resource comes to. -/
inductive Turn (K : Type*) where
  /-- It is passed over. -/
  | refused (time : K)
  /-- It is tried; `probe` is the time at which a try in an outage was granted. -/
  | tried (probe : Option K) (ending : Ending K)
  deriving DecidableEq

/-- An outage. -/
structure Outage (K : Type*) where
  /-- When the resource was last tried; the failure that began the outage before that. -/
  latest : K
  /-- The tries since then. -/
  tries : ℕ
  deriving DecidableEq

/-- The outage after a turn. -/
def Outage.after : Option (Outage K) → Turn K → Option (Outage K)
  | o, .refused _ => o
  | _, .tried _ .succeeded => none
  | none, .tried _ (.failed time) => some ⟨time, 0⟩
  | none, .tried _ .abandoned => none
  | some o, .tried none _ => some o
  | some o, .tried (some time) _ => some ⟨time, o.tries + 1⟩

/-- A failed try begins an outage, or is one more try of it. -/
theorem Outage.after_failed (o : Option (Outage K)) (probe : Option K) (time : K) :
    after o (.tried probe (.failed time)) = some ((after o (.tried probe .abandoned)).getD ⟨time, 0⟩) := by
  cases o with
  | none => rfl
  | some o => cases probe <;> rfl

variable [Field K] [LinearOrder K]

/-- How long a resource is left alone after `n` tries in an outage. -/
def gap (base cap : K) : ℕ → K
  | 0 => base
  | n + 1 => min (base * 2 ^ (n + 1)) cap

/-- When the next try is due. -/
def Outage.due (base cap : K) (o : Outage K) : K := o.latest + gap base cap o.tries

/-- What back-off asks of a turn: without an outage a try, in an outage one that is granted
when it is due, and a refusal before that. -/
def Respects (base cap : K) : Option (Outage K) → Turn K → Prop
  | none, .refused _ => False
  | none, .tried probe _ => probe = none
  | some o, .refused time => time < o.due base cap
  | some o, .tried probe _ => ∃ time, probe = some time ∧ o.due base cap ≤ time

end NiftyShield.Lib.Backoff
