import NiftyShield.Paper.Positions
import Mathlib.Data.List.Dedup

/-!
# Weighted realized profit

The body shared by `_compute_realized_pnl_by_leg` (`src/paper/tracker.py`) and
`_segment_realized_pnl` (`src/paper/cycle_pnl.py`): for each leg role, in sorted order,
the closed quantity at the difference of the average sale and purchase prices. It is the
`realized` of the role's book (`weightedRealized_eq`), so over all roles it is cash plus
carry (`realizedByRole_eq`).
-/

namespace NiftyShield.Paper

open NiftyShield.Lib

/-- The units traded in one direction. -/
def sumQty (a : TradeAction) (legs : List PaperTrade) : ℕ := ((legs.filter (·.action = a)).map (·.quantity)).sum

/-- The money that moved in one direction. -/
def sumValue (a : TradeAction) (legs : List PaperTrade) : ℚ :=
  ((legs.filter (·.action = a)).map fun t => t.price * (t.quantity : ℚ)).sum

/-- Realized profit of one leg role's trades, `none` if no quantity is closed. -/
def weightedRealized (legs : List PaperTrade) : Option ℚ :=
  let totalBuyQty := sumQty .buy legs
  let totalSellQty := sumQty .sell legs
  let closedQty := min totalBuyQty totalSellQty
  if closedQty = 0 then none
  else
    let buyAvg := if 0 < totalBuyQty then sumValue .buy legs / totalBuyQty else 0
    let sellAvg := if 0 < totalSellQty then sumValue .sell legs / totalSellQty else 0
    some ((sellAvg - buyAvg) * closedQty)

/-- `sorted({t.leg_role for t in trades})`. -/
def sortedRoles (trades : List PaperTrade) : List String := (trades.map (·.legRole)).dedup.insertionSort (· ≤ ·)

/-- The trades of one leg role. -/
def roleTrades (trades : List PaperTrade) (role : String) : List PaperTrade :=
  Grouping.group PaperTrade.legRole trades role

/-- The realized profit of each leg role that has a closed quantity. -/
def realizedByRole (trades : List PaperTrade) : List (String × ℚ) :=
  (sortedRoles trades).filterMap fun role => (weightedRealized (roleTrades trades role)).map fun r => (role, r)

/-! ### The totals are those of the book -/

theorem buyQty_bookOf (ts : List PaperTrade) : (bookOf ts).buyQty = sumQty .buy ts := by
  induction ts with
  | nil => rfl
  | cons t ts ih =>
    rw [bookOf_cons, Book.buyQty_add, ih]
    cases h : t.action <;> simp [sumQty, PaperTrade.book, h, Book.buy, Book.sell]

theorem sellQty_bookOf (ts : List PaperTrade) : (bookOf ts).sellQty = sumQty .sell ts := by
  induction ts with
  | nil => rfl
  | cons t ts ih =>
    rw [bookOf_cons, Book.sellQty_add, ih]
    cases h : t.action <;> simp [sumQty, PaperTrade.book, h, Book.buy, Book.sell]

theorem buyValue_bookOf (ts : List PaperTrade) : (bookOf ts).buyValue = sumValue .buy ts := by
  induction ts with
  | nil => rfl
  | cons t ts ih =>
    rw [bookOf_cons, Book.buyValue_add, ih]
    cases h : t.action <;> simp [sumValue, PaperTrade.book, h, Book.buy, Book.sell]

theorem sellValue_bookOf (ts : List PaperTrade) : (bookOf ts).sellValue = sumValue .sell ts := by
  induction ts with
  | nil => rfl
  | cons t ts ih =>
    rw [bookOf_cons, Book.sellValue_add, ih]
    cases h : t.action <;> simp [sumValue, PaperTrade.book, h, Book.buy, Book.sell]

/-- Money received for sales less money paid for purchases. -/
def cashFlow (trades : List PaperTrade) : ℚ := sumValue .sell trades - sumValue .buy trades

theorem cash_eq_cashFlow (trades : List PaperTrade) : (bookOf trades).cash = cashFlow trades := by
  rw [Book.cash, sellValue_bookOf, buyValue_bookOf, cashFlow]

/-- **One role**: the weighted realized profit is that of the role's book. -/
theorem weightedRealized_eq (legs : List PaperTrade) :
    (weightedRealized legs).getD 0 = (bookOf legs).realized := by
  unfold weightedRealized Book.realized Book.sellAvg Book.buyAvg Book.closedQty
  rw [buyQty_bookOf, sellQty_bookOf, buyValue_bookOf, sellValue_bookOf]
  by_cases h : min (sumQty .buy legs) (sumQty .sell legs) = 0
  · rw [if_pos h, h]
    simp
  · rw [if_neg h]
    rfl

theorem nodup_sortedRoles (trades : List PaperTrade) : (sortedRoles trades).Nodup :=
  (List.perm_insertionSort _ _).nodup_iff.mpr (List.nodup_dedup _)

theorem mem_sortedRoles {trades : List PaperTrade} {role : String} :
    role ∈ sortedRoles trades ↔ ∃ t ∈ trades, t.legRole = role := by
  simp [sortedRoles, (List.perm_insertionSort _ _).mem_iff]

private theorem sum_filterMap_snd (f : String → Option ℚ) :
    ∀ roles : List String, ((roles.filterMap fun r => (f r).map fun v => (r, v)).map Prod.snd).sum =
      (roles.map fun r => (f r).getD 0).sum
  | [] => rfl
  | r :: rs => by
    rw [List.map_cons, List.sum_cons, ← sum_filterMap_snd f rs]
    cases h : f r <;> simp [h]

/-- What the positions of each role cost at the average price of the role's whole history:
net quantity times the average over all trades of the side that is ahead. -/
def wholeHistoryCost (trades : List PaperTrade) : ℚ :=
  ((sortedRoles trades).map fun role => (bookOf (roleTrades trades role)).carry).sum

/-- **All roles**: the realized profits add up to cash plus the whole-history cost of what
is open. -/
theorem realizedByRole_eq (trades : List PaperTrade) :
    ((realizedByRole trades).map Prod.snd).sum = cashFlow trades + wholeHistoryCost trades := by
  have hcash : ((sortedRoles trades).map fun role => (bookOf (roleTrades trades role)).cash).sum =
      (bookOf trades).cash := by
    simp only [cash_bookOf]
    exact Grouping.sum_groups _ _ (nodup_sortedRoles trades) fun t ht => mem_sortedRoles.mpr ⟨t, ht, rfl⟩
  rw [realizedByRole, sum_filterMap_snd, ← cash_eq_cashFlow, ← hcash, wholeHistoryCost, ← List.sum_map_add]
  congr 1
  exact List.map_congr_left fun role _ => by rw [weightedRealized_eq, Book.realized_eq]

end NiftyShield.Paper
