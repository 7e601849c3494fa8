import Mathlib.Data.List.Induction
import Mathlib.Data.Rat.Floor

/-!
# Corporate actions

A split or a bonus turns `old_shares` into `new_shares`, at prices lower by the same ratio.
The pick stays as it was stored, and is restated on the price basis of a day when it is read
(`src/mvp/models.py`, `src/mvp/adjustment.py`).

## What is proved

An action compounds the multiplier of exactly the levels set before its ex-date and read on
or after it (`cumulativeMultiplier_append`); a pick whose restated quantity is whole has it
as its quantity (`adjustedPick_totalQty`).

## Honest scope

Prices and quantities are exact rationals, dates are day numbers. Of a pick there are the
fields that the functions here and the category figures read.
-/

namespace NiftyShield.Mvp

/-! ### Picks and actions -/

/-- `PickStatus`. -/
inductive PickStatus where
  /-- Not entered. -/
  | pending
  /-- Entered. -/
  | opened
  /-- Closed at its target. -/
  | targetHit
  /-- Closed at its stop. -/
  | slHit
  /-- Closed by hand. -/
  | manualClose
  deriving DecidableEq

/-- A recommended stock. -/
structure Pick where
  /-- Primary key. -/
  pickId : String
  /-- Its category. -/
  categoryId : Option String
  /-- Symbol. -/
  symbol : String
  /-- The key live prices come under. -/
  instrumentKey : Option String
  /-- The price it was entered at. -/
  entryPrice : Option ℚ
  /-- The price it was recommended at. -/
  recoPrice : Option ℚ
  /-- The day it was recommended. -/
  pickDate : ℕ
  /-- Target. -/
  targetPrice : Option ℚ
  /-- Stop. -/
  stopLoss : Option ℚ
  /-- Status. -/
  status : PickStatus
  /-- Rupees spent. -/
  deployedCapital : ℚ
  /-- Shares held, on the basis of their fills. -/
  totalQty : ℚ
  /-- Average cost, on the same basis. -/
  avgCost : Option ℚ
  /-- Rupees made, once closed. -/
  realizedPnl : ℚ

/-- Kind of action. -/
inductive CorporateActionType where
  /-- More shares of a smaller face value. -/
  | split
  /-- Free shares. -/
  | bonus
  /-- Fewer shares. -/
  | consolidation
  deriving DecidableEq

/-- A share-count event. -/
structure CorporateAction where
  /-- Symbol. -/
  symbol : String
  /-- The first day on the new price basis. -/
  exDate : ℕ
  /-- Kind. -/
  actionType : CorporateActionType
  /-- Shares held after. -/
  newShares : ℕ
  /-- Shares held before. -/
  oldShares : ℕ
  /-- Shares are left. -/
  newShares_pos : 0 < newShares
  /-- There were shares. -/
  oldShares_pos : 0 < oldShares

/-- New shares for an old one. -/
def CorporateAction.ratio (a : CorporateAction) : ℚ := a.newShares / a.oldShares

theorem CorporateAction.ratio_pos (a : CorporateAction) : 0 < a.ratio :=
  div_pos (Nat.cast_pos.mpr a.newShares_pos) (Nat.cast_pos.mpr a.oldShares_pos)

theorem CorporateAction.ratio_ne (a : CorporateAction) : a.ratio ≠ 0 := a.ratio_pos.ne'

/-! ### Restating levels and positions -/

/-- `cumulative_multiplier`. -/
def cumulativeMultiplier (actions : List CorporateAction) (fromDate asOf : ℕ) : ℚ :=
  actions.foldl (fun m a => if fromDate < a.exDate ∧ a.exDate ≤ asOf then m * a.ratio else m) 1

/-- `adjust_level`. -/
def adjustLevel (level : Option ℚ) (actions : List CorporateAction) (levelDate asOf : ℕ) : Option ℚ :=
  level.map (· / cumulativeMultiplier actions levelDate asOf)

/-- An executed fill, on its own price basis. -/
structure Fill where
  /-- Price. -/
  price : ℚ
  /-- Shares. -/
  qty : ℚ
  /-- Day. -/
  filledOn : ℕ

/-- A position on one price basis. -/
structure AdjustedPosition where
  /-- Shares. -/
  totalQty : ℚ
  /-- Average cost. -/
  avgCost : Option ℚ

/-- The shares of the fills, each restated from its own day. -/
def restatedQty (fills : List Fill) (actions : List CorporateAction) (asOf : ℕ) : ℚ :=
  (fills.map fun f => f.qty * cumulativeMultiplier actions f.filledOn asOf).sum

/-- `adjust_position`. -/
def adjustPosition (fills : List Fill) (actions : List CorporateAction) (asOf : ℕ) : AdjustedPosition :=
  let qty := restatedQty fills actions asOf
  let cost := (fills.map fun f => f.price * f.qty).sum
  ⟨qty, if qty = 0 then none else some (cost / qty)⟩

/-- `adjusted_pick`. -/
def adjustedPick (pick : Pick) (actions : List CorporateAction) (asOf : ℕ) (fills : List Fill) : Pick :=
  if actions.isEmpty then pick
  else
    let levels :=
      { pick with
        recoPrice := adjustLevel pick.recoPrice actions pick.pickDate asOf
        targetPrice := adjustLevel pick.targetPrice actions pick.pickDate asOf
        stopLoss := adjustLevel pick.stopLoss actions pick.pickDate asOf }
    match (fills.map (·.filledOn)).min? with
    | none => levels
    | some first =>
      let pos := adjustPosition fills actions asOf
      { levels with
        totalQty := (⌊pos.totalQty⌋ : ℚ)
        avgCost := pos.avgCost
        entryPrice := adjustLevel pick.entryPrice actions first asOf }

@[simp] theorem cumulativeMultiplier_nil (fromDate asOf : ℕ) :
    cumulativeMultiplier [] fromDate asOf = 1 := rfl

/-- A further action. -/
theorem cumulativeMultiplier_append (actions : List CorporateAction) (a : CorporateAction)
    (fromDate asOf : ℕ) :
    cumulativeMultiplier (actions ++ [a]) fromDate asOf =
      cumulativeMultiplier actions fromDate asOf * if fromDate < a.exDate ∧ a.exDate ≤ asOf
        then a.ratio else 1 := by
  rw [cumulativeMultiplier, List.foldl_append, ← cumulativeMultiplier, List.foldl_cons, List.foldl_nil]
  split
  · rfl
  · rw [mul_one]

theorem cumulativeMultiplier_pos (actions : List CorporateAction) (fromDate asOf : ℕ) :
    0 < cumulativeMultiplier actions fromDate asOf := by
  induction actions using List.reverseRecOn with
  | nil => exact one_pos
  | append_singleton actions a ih =>
    rw [cumulativeMultiplier_append]
    split
    · exact mul_pos ih a.ratio_pos
    · rwa [mul_one]

/-- From two days with no ex-date between them the multiplier is the same. -/
theorem cumulativeMultiplier_congr {actions : List CorporateAction} {fromDate fromDate' asOf : ℕ}
    (h : ∀ a ∈ actions, fromDate < a.exDate ∧ a.exDate ≤ asOf ↔ fromDate' < a.exDate ∧ a.exDate ≤ asOf) :
    cumulativeMultiplier actions fromDate asOf = cumulativeMultiplier actions fromDate' asOf := by
  induction actions using List.reverseRecOn with
  | nil => rfl
  | append_singleton actions a ih =>
    rw [cumulativeMultiplier_append, cumulativeMultiplier_append, ih fun b hb => h b (List.mem_append_left _ hb)]
    congr 1
    exact if_congr (h a (List.mem_append_right _ (List.mem_singleton_self a))) rfl rfl

@[simp] theorem restatedQty_nil (actions : List CorporateAction) (asOf : ℕ) :
    restatedQty [] actions asOf = 0 := rfl

/-- Without actions the shares are those filled. -/
theorem restatedQty_no_actions (fills : List Fill) (asOf : ℕ) :
    restatedQty fills [] asOf = (fills.map (·.qty)).sum := by
  simp [restatedQty]

/-- The pick's quantity is that of its fills. -/
def Booked (pick : Pick) (fills : List Fill) : Prop := pick.totalQty = (fills.map (·.qty)).sum

/-- A whole number of shares. -/
def IsWhole (q : ℚ) : Prop := ((⌊q⌋ : ℤ) : ℚ) = q

/-- **The quantity read**: of a pick that has its fills' quantity, the restated one if that
is whole. Only fractional entitlements are lost. -/
theorem adjustedPick_totalQty {pick : Pick} {actions : List CorporateAction} {asOf : ℕ} {fills : List Fill}
    (hbooked : Booked pick fills) (hwhole : IsWhole (restatedQty fills actions asOf)) :
    (adjustedPick pick actions asOf fills).totalQty = restatedQty fills actions asOf := by
  unfold adjustedPick
  cases actions with
  | nil =>
    rw [restatedQty_no_actions]
    exact hbooked
  | cons a actions =>
    simp only [List.isEmpty_cons, Bool.false_eq_true, if_false]
    split
    next hmin =>
      obtain rfl : fills = [] := by simpa using hmin
      exact hbooked
    next first hmin => exact hwhole

end NiftyShield.Mvp
