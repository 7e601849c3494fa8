import NiftyShield.Portfolio.Tracker

/-!
# What the trade overlay holds of an instrument

`apply_trade_positions` (`src/portfolio/tracker.py`) keeps the positions by instrument key, so
that of several leg roles that trade an instrument the last one is left, and hands that one
to every leg with the key. Positions of an instrument that no leg has are appended one by one.

## What is proved

`quantities_kept_iff`: the legs hold of each traded instrument what its positions hold
exactly when, for each instrument of a leg, the last position times the number of legs is
the sum of the positions. A leg's quantity is read as it is stored, or turned by the
direction that the leg was defined with.
-/

namespace NiftyShield.Portfolio

open NiftyShield.Lib

/-- How the quantity of a leg is read. -/
inductive QuantityReading where
  /-- As it is stored: negative when short. -/
  | stored
  /-- Turned by the direction, as `Leg.pnl` reads it. -/
  | byDirection
  deriving DecidableEq

/-- The sign a direction gives. -/
def QuantityReading.sign : QuantityReading → Direction → ℤ
  | .byDirection, .sell => -1
  | _, _ => 1

/-- The signed quantity of a leg. -/
def Leg.signedQuantity (reading : QuantityReading) (leg : Leg) : ℤ := reading.sign leg.direction * leg.quantity

/-- What some legs hold of an instrument. -/
def quantityOn (reading : QuantityReading) (legs : List Leg) (key : String) : ℤ :=
  ((Grouping.group Leg.instrumentKey legs key).map (Leg.signedQuantity reading)).sum

/-- What the positions hold of an instrument, over all leg roles. -/
def heldOn (ps : List Position) (key : String) : ℤ :=
  ((Grouping.group Position.instrumentKey ps key).map Position.quantity).sum

/-- How often the legs of an instrument count a quantity. -/
def legSigns (reading : QuantityReading) (legs : List Leg) (key : String) : ℤ :=
  ((Grouping.group Leg.instrumentKey legs key).map fun leg => reading.sign leg.direction).sum

/-- Of each instrument with a position, the overlaid legs hold what its positions hold. -/
def KeepsQuantities (reading : QuantityReading) (strategy : Strategy) (positions : Dict String Position)
    (today : Date) : Prop :=
  ∀ key ∈ positions.values.map (·.instrumentKey),
    quantityOn reading (applyTradePositions strategy positions today).legs key = heldOn positions.values key

/-- The last position of a leg's instrument, counted once for each leg, is all there is. -/
def LastIsAll (reading : QuantityReading) (strategy : Strategy) (positions : Dict String Position) : Prop :=
  ∀ key ∈ positions.values.map (·.instrumentKey), key ∈ strategy.legs.map (·.instrumentKey) →
    legSigns reading strategy.legs key * ((usedPosition positions.values key).map (·.quantity)).getD 0 =
      heldOn positions.values key

variable {reading : QuantityReading} {key : String}

theorem quantityOn_append (l m : List Leg) :
    quantityOn reading (l ++ m) key = quantityOn reading l key + quantityOn reading m key := by
  simp [quantityOn, Grouping.group_append]

theorem quantityOn_cons (leg : Leg) (legs : List Leg) : quantityOn reading (leg :: legs) key =
    (if leg.instrumentKey = key then leg.signedQuantity reading else 0) + quantityOn reading legs key := by
  unfold quantityOn
  rw [Grouping.group_cons]
  split
  · rw [List.map_cons, List.sum_cons]
  · rw [zero_add]

theorem legSigns_cons (leg : Leg) (legs : List Leg) : legSigns reading (leg :: legs) key =
    (if leg.instrumentKey = key then reading.sign leg.direction else 0) + legSigns reading legs key := by
  unfold legSigns
  rw [Grouping.group_cons]
  split
  · rw [List.map_cons, List.sum_cons]
  · rw [zero_add]

theorem heldOn_cons (pos : Position) (ps : List Position) : heldOn (pos :: ps) key =
    (if pos.instrumentKey = key then pos.quantity else 0) + heldOn ps key := by
  unfold heldOn
  rw [Grouping.group_cons]
  split
  · rw [List.map_cons, List.sum_cons]
  · rw [zero_add]

/-- Each leg of a traded instrument holds the last of its positions. -/
theorem quantityOn_matched {ps : List Position} {last : Position} (hlast : usedPosition ps key = some last)
    (legs : List Leg) :
    quantityOn reading (legs.filterMap (overlayLeg (Dict.index Position.instrumentKey ps))) key =
      legSigns reading legs key * last.quantity := by
  induction legs with
  | nil => simp [quantityOn, legSigns]
  | cons leg legs ih =>
    have hget : (Dict.index Position.instrumentKey ps).get? leg.instrumentKey = usedPosition ps leg.instrumentKey :=
      Dict.get?_index _ _ _
    rw [legSigns_cons, add_mul, ← ih, List.filterMap_cons, overlayLeg, hget]
    by_cases hkey : leg.instrumentKey = key
    · subst hkey
      rw [hlast, if_pos rfl]
      by_cases hflat : last.quantity = 0
      · simp [hflat]
      · simp only [if_neg hflat]
        rw [quantityOn_cons, if_pos rfl, Leg.signedQuantity]
    · rw [if_neg hkey, zero_mul, zero_add]
      cases usedPosition ps leg.instrumentKey with
      | none =>
        simp only
        rw [quantityOn_cons, if_neg hkey, zero_add]
      | some pos =>
        by_cases hflat : pos.quantity = 0
        · simp only [if_pos hflat]
        · simp only [if_neg hflat]
          rw [quantityOn_cons, if_neg hkey, zero_add]

/-- The appended legs hold every position of an instrument that no leg has. -/
theorem quantityOn_appended (entryDate : Date) (matchedKeys : List String) (es : List (String × Position)) :
    quantityOn reading (es.filterMap fun (legRole, pos) =>
        if pos.instrumentKey ∈ matchedKeys then none
        else if pos.quantity = 0 then none
        else some (appendedLeg entryDate legRole pos)) key =
      if key ∈ matchedKeys then 0 else heldOn (es.map Prod.snd) key := by
  induction es with
  | nil => simp [quantityOn, heldOn]
  | cons e es ih =>
    obtain ⟨legRole, pos⟩ := e
    rw [List.filterMap_cons, List.map_cons, heldOn_cons]
    by_cases hmatched : pos.instrumentKey ∈ matchedKeys
    · simp only [if_pos hmatched, ih]
      by_cases hkey : pos.instrumentKey = key
      · rw [hkey] at hmatched
        rw [if_pos hmatched, if_pos hmatched]
      · rw [if_neg hkey, zero_add]
    · by_cases hflat : pos.quantity = 0
      · simp only [if_neg hmatched, if_pos hflat]
        rw [hflat, ite_self, zero_add]
        exact ih
      · simp only [if_neg hmatched, if_neg hflat]
        rw [quantityOn_cons, ih]
        have hqty : (appendedLeg entryDate legRole pos).signedQuantity reading = pos.quantity := by
          cases reading <;> simp [Leg.signedQuantity, QuantityReading.sign, appendedLeg]
        by_cases hkey : pos.instrumentKey = key
        · subst hkey
          have hhead : (appendedLeg entryDate legRole pos).instrumentKey = pos.instrumentKey := rfl
          rw [hhead, hqty, if_neg hmatched, if_neg hmatched]
        · have hhead : (appendedLeg entryDate legRole pos).instrumentKey ≠ key := hkey
          rw [if_neg hhead, if_neg hkey, zero_add, zero_add]

/-- What the overlaid legs hold of an instrument with positions. -/
theorem quantityOn_overlaid (strategy : Strategy) {positions : Dict String Position} (today : Date) {last : Position}
    (hlast : usedPosition positions.values key = some last) :
    quantityOn reading (applyTradePositions strategy positions today).legs key =
      if key ∈ strategy.legs.map (·.instrumentKey) then legSigns reading strategy.legs key * last.quantity
      else heldOn positions.values key := by
  have hmatched : key ∈ (strategy.legs.map (·.instrumentKey)).filter (fun k =>
      ((Dict.index Position.instrumentKey positions.values).get? k).isSome) ↔
      key ∈ strategy.legs.map (·.instrumentKey) := by
    have hsome : ((Dict.index Position.instrumentKey positions.values).get? key).isSome = true := by
      rw [Dict.get?_index]
      exact Option.isSome_iff_exists.mpr ⟨last, hlast⟩
    rw [List.mem_filter, and_iff_left hsome]
  rw [applyTradePositions, quantityOn_append, quantityOn_matched hlast, quantityOn_appended]
  by_cases hleg : key ∈ strategy.legs.map (·.instrumentKey)
  · rw [if_pos (hmatched.mpr hleg), if_pos hleg, add_zero]
  · have hnone : legSigns reading strategy.legs key = 0 := by
      rw [legSigns, Grouping.group_eq_nil_of_not_mem, List.map_nil, List.sum_nil]
      exact fun h => hleg (by simpa [Grouping.mem_keys] using h)
    rw [if_neg fun h => hleg (hmatched.mp h), if_neg hleg, hnone, zero_mul, zero_add]
    rfl

/-- **What the overlay keeps.** -/
theorem quantities_kept_iff (reading : QuantityReading) (strategy : Strategy) (positions : Dict String Position)
    (today : Date) :
    KeepsQuantities reading strategy positions today ↔ LastIsAll reading strategy positions := by
  refine forall₂_congr fun key hkey => ?_
  obtain ⟨last, hlast⟩ := Option.isSome_iff_exists.mp (usedPosition_isSome_iff.mpr hkey)
  rw [quantityOn_overlaid strategy today hlast, hlast]
  by_cases hleg : key ∈ strategy.legs.map (·.instrumentKey)
  · simp [hleg]
  · simp [hleg]

/-- A role's holding of the ETF. -/
def etfPosition (legRole : String) (quantity : ℤ) : Position where
  strategyName := "finideas_ilts"
  legRole := legRole
  instrumentKey := "NSE_EQ|INF754K01LE1"
  quantity := quantity
  averagePrice := 1300
  realizedPnl := 0
  averagePrice_nonneg := by norm_num

/-- Two roles hold it. -/
def etfPositions : Dict String Position :=
  (Dict.empty.set "EBBETF0431" (etfPosition "EBBETF0431" 465)).set "EBBETF0431_ADD" (etfPosition "EBBETF0431_ADD" 50)

/-- One leg is defined on it. -/
def etfStrategy : Strategy where
  name := "finideas_ilts"
  legs := [{ instrumentKey := "NSE_EQ|INF754K01LE1"
             displayName := "EBBETF0431"
             assetType := .equity
             direction := .buy
             quantity := 438
             entryPrice := 1388
             entryDate := 739266
             productType := .cnc }]

/-- The overlay has the 50 units of the role that comes last, the two roles hold 515. -/
theorem two_roles_of_one_instrument :
    ¬ KeepsQuantities .stored etfStrategy etfPositions 739700 ∧
      ¬ KeepsQuantities .byDirection etfStrategy etfPositions 739700 := by
  constructor <;> intro h <;> exact absurd (h "NSE_EQ|INF754K01LE1" (by decide)) (by decide)

end NiftyShield.Portfolio
