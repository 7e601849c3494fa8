import NiftyShield.Lib.Rounding
import NiftyShield.Lib.Run
import NiftyShield.Mvp.Adjustment

/-!
# Updating a pick

`MVPStore.update_pick` (`src/mvp/store.py`) writes the given fields. The price that a pick gets
while it is PENDING opens it, and the lump-sum fill is computed from it; a price that it gets
later is written, and the fill stays. `_update` (`scripts/mvp.py`) is its command line.

## What is proved

`open_pick_money`: after any updates from the command line, an OPEN pick has the money of its fill
price, the first price that it got (`FilledAt`), and the last price as its entry price: so the
two agree with each other exactly when the last price is the first.

## Honest scope

`Decimal` is exact rational. The identifier and the category of a command are resolved already.
-/

namespace NiftyShield.Mvp

open NiftyShield.Lib

/-! ### The rows -/

/-- A row of `mvp_recommendations`: a pick and the other columns that an update reads or writes. -/
structure PickRow extends Pick where
  /-- Who recommended it. -/
  analyst : Option String := none
  /-- Notes. -/
  notes : Option String := none
  /-- Rupees set aside. -/
  capitalAllotted : ℚ := 100000
  /-- Rupees left over. -/
  idleCash : ℚ := 0
  /-- Time of the last change. -/
  updatedAt : String

/-- The fields `update_pick` accepts, each given or not. -/
structure PickFields where
  /-- `category_id`. -/
  categoryId : Option String := none
  /-- `symbol`. -/
  symbol : Option String := none
  /-- `instrument_key`. -/
  instrumentKey : Option String := none
  /-- `analyst`. -/
  analyst : Option String := none
  /-- `entry_price`. -/
  entryPrice : Option ℚ := none
  /-- `reco_price`. -/
  recoPrice : Option ℚ := none
  /-- `target_price`. -/
  targetPrice : Option ℚ := none
  /-- `stop_loss`. -/
  stopLoss : Option ℚ := none
  /-- `notes`. -/
  notes : Option String := none
  /-- `status`. -/
  status : Option PickStatus := none
  deriving DecidableEq

/-- `COST_BPS`. -/
def costBps : ℚ := 25

/-- The row with the given fields. -/
def PickRow.setFields (p : PickRow) (fields : PickFields) : PickRow :=
  { p with
    categoryId := fields.categoryId.or p.categoryId
    symbol := fields.symbol.getD p.symbol
    instrumentKey := fields.instrumentKey.or p.instrumentKey
    analyst := fields.analyst.or p.analyst
    entryPrice := fields.entryPrice.or p.entryPrice
    recoPrice := fields.recoPrice.or p.recoPrice
    targetPrice := fields.targetPrice.or p.targetPrice
    stopLoss := fields.stopLoss.or p.stopLoss
    notes := fields.notes.or p.notes
    status := fields.status.getD p.status }

/-- The lump-sum fill. -/
def PickRow.fill (p : PickRow) (entryPrice : ℚ) : PickRow :=
  let totalQty : ℚ := truncate (p.capitalAllotted / entryPrice)
  let deployedCapital := entryPrice * totalQty
  { p with
    status := .opened
    totalQty
    deployedCapital
    idleCash := p.capitalAllotted - deployedCapital
    avgCost := some (entryPrice * (1 + costBps / 10000)) }

/-- The row after `update_pick`, which raises when it would divide by a price of zero. -/
def PickRow.update (p : PickRow) (fields : PickFields) (now : String) : Option PickRow :=
  let written := { p.setFields fields with updatedAt := now }
  match fields.entryPrice with
  | some entryPrice =>
    if p.status = .pending then if entryPrice = 0 then none else some (written.fill entryPrice)
    else some written
  | none => some written

/-- The table. -/
structure PickTable where
  /-- The rows. -/
  rows : List PickRow
  /-- `pick_id` is the primary key. -/
  nodup : (rows.map (·.pickId)).Nodup

theorem pickId_update {p q : PickRow} {fields : PickFields} {now : String} (h : p.update fields now = some q) :
    q.pickId = p.pickId := by
  unfold PickRow.update at h
  split at h
  next entryPrice _ =>
    split at h
    · split at h
      · exact absurd h (by simp)
      · obtain rfl := Option.some.inj h
        rfl
    · obtain rfl := Option.some.inj h
      rfl
  next =>
    obtain rfl := Option.some.inj h
    rfl

namespace PickTable

variable (T : PickTable)

/-- `get_pick`. -/
def getPick (pickId : String) : Option PickRow := T.rows.find? fun p => p.pickId = pickId

/-- `update_pick`: an unknown pick is left alone, and a failed update is rolled back. -/
def updatePick (pickId : String) (fields : PickFields) (now : String) : PickTable where
  rows := T.rows.map fun p => if p.pickId = pickId then (p.update fields now).getD p else p
  nodup := by
    rw [List.map_map, List.map_congr_left (g := fun p => p.pickId)]
    · exact T.nodup
    · intro p _
      rw [Function.comp_apply]
      split
      · cases h : p.update fields now with
        | none => rfl
        | some q => exact pickId_update h
      · rfl

end PickTable

/-- The arguments of `mvp update`, with the identifier and the category resolved. -/
structure UpdateArgs where
  /-- The pick. -/
  pickId : String
  /-- `--provider` and `--category`. -/
  categoryId : Option String := none
  /-- `--price`. -/
  price : Option ℚ := none
  /-- `--reco-price`. -/
  recoPrice : Option ℚ := none
  /-- `--target`. -/
  target : Option ℚ := none
  /-- `--sl`. -/
  sl : Option ℚ := none
  /-- `--notes`. -/
  notes : Option String := none

/-- The fields that `_update` collects. -/
def UpdateArgs.fields (args : UpdateArgs) : PickFields where
  categoryId := args.categoryId
  entryPrice := args.price
  recoPrice := args.recoPrice
  targetPrice := args.target
  stopLoss := args.sl
  notes := args.notes

/-- `_update` at a time: without fields there is nothing to update. -/
def PickTable.cliUpdate (T : PickTable) (u : UpdateArgs × String) : PickTable :=
  if u.1.fields = {} then T else T.updatePick u.1.pickId u.1.fields u.2

/-! ### One update -/

/-- The money of an OPEN pick that was filled at a price. -/
structure FilledAt (price : ℚ) (p : PickRow) : Prop where
  /-- It is open. -/
  opened : p.status = .opened
  /-- The shares cost the capital deployed. -/
  deployed : p.totalQty * price = p.deployedCapital
  /-- The rest is idle. -/
  allotted : p.deployedCapital + p.idleCash = p.capitalAllotted
  /-- The rest is not negative. -/
  idle_nonneg : 0 ≤ p.capitalAllotted → 0 ≤ p.idleCash
  /-- It does not buy another share. -/
  idle_lt : p.idleCash < price
  /-- The price with the cost. -/
  avgCost : p.avgCost = some (price * (1 + costBps / 10000))

/-- An open pick's money adds up with its entry price. -/
def AddsUp (p : PickRow) : Prop := ∃ price, p.entryPrice = some price ∧ FilledAt price p

/-- The average cost tells the fill price. -/
theorem FilledAt.unique {x y : ℚ} {p : PickRow} (hx : FilledAt x p) (hy : FilledAt y p) : x = y := by
  have hcost : x * (1 + costBps / 10000) = y * (1 + costBps / 10000) :=
    Option.some.inj (hx.avgCost.symm.trans hy.avgCost)
  refine mul_right_cancel₀ ?_ hcost
  norm_num [costBps]

theorem addsUp_iff {price : ℚ} {p : PickRow} (h : FilledAt price p) : AddsUp p ↔ p.entryPrice = some price := by
  constructor
  · rintro ⟨x, hx, hfilled⟩
    rw [hx, hfilled.unique h]
  · intro hprice
    exact ⟨price, hprice, h⟩

/-- The fill. -/
theorem filledAt_fill (p : PickRow) {price : ℚ} (hpos : 0 < price) : FilledAt price (p.fill price) where
  opened := rfl
  deployed := mul_comm _ _
  allotted := add_sub_cancel _ _
  idle_nonneg hcapital := by
    show 0 ≤ p.capitalAllotted - price * (truncate (p.capitalAllotted / price) : ℚ)
    have hfloor : truncate (p.capitalAllotted / price) = ⌊p.capitalAllotted / price⌋ :=
      if_pos (div_nonneg hcapital hpos.le)
    have hle := mul_le_mul_of_nonneg_left (Int.floor_le (p.capitalAllotted / price)) hpos.le
    rw [mul_div_cancel₀ _ hpos.ne'] at hle
    rw [hfloor]
    linarith
  idle_lt := by
    show p.capitalAllotted - price * (truncate (p.capitalAllotted / price) : ℚ) < price
    have hlt : p.capitalAllotted / price < truncate (p.capitalAllotted / price) + 1 := by
      unfold truncate
      split
      · exact Int.lt_floor_add_one _
      · exact lt_of_le_of_lt (Int.le_ceil _) (lt_add_one _)
    have hmul := mul_lt_mul_of_pos_left hlt hpos
    rw [mul_div_cancel₀ _ hpos.ne'] at hmul
    linarith
  avgCost := rfl

/-- The row after a command line update of it. -/
def PickRow.cliUpdated (p : PickRow) (u : UpdateArgs × String) : PickRow :=
  if u.1.fields = {} then p else (p.update u.1.fields u.2).getD p

section Step

variable {p : PickRow} {u : UpdateArgs × String}

theorem price_of_no_fields (h : u.1.fields = {}) : u.1.price = none := congrArg PickFields.entryPrice h

/-- Writing the fields of a command leaves the money. -/
theorem FilledAt.written {price : ℚ} (h : FilledAt price p) :
    FilledAt price { p.setFields u.1.fields with updatedAt := u.2 } :=
  ⟨h.opened, h.deployed, h.allotted, h.idle_nonneg, h.idle_lt, h.avgCost⟩

/-- A pick that is filled stays so, and its entry price follows. -/
theorem cliUpdated_filledAt {price : ℚ} (h : FilledAt price p) :
    FilledAt price (p.cliUpdated u) ∧ (p.cliUpdated u).entryPrice = u.1.price.or p.entryPrice := by
  rw [PickRow.cliUpdated]
  split
  next hnone =>
    rw [price_of_no_fields hnone]
    exact ⟨h, rfl⟩
  next =>
    have hupdate : p.update u.1.fields u.2 = some { p.setFields u.1.fields with updatedAt := u.2 } := by
      unfold PickRow.update
      rw [h.opened]
      cases u.1.fields.entryPrice <;> rfl
    rw [hupdate]
    exact ⟨h.written, rfl⟩

/-- The first price fills a pending pick. -/
theorem cliUpdated_pending (h : p.status = .pending) :
    (u.1.price = none → (p.cliUpdated u).status = .pending) ∧
      ∀ price, u.1.price = some price → 0 < price →
        FilledAt price (p.cliUpdated u) ∧ (p.cliUpdated u).entryPrice = some price := by
  constructor
  · intro hnone
    rw [PickRow.cliUpdated]
    split
    next => exact h
    next =>
      have hfield : u.1.fields.entryPrice = none := hnone
      rw [PickRow.update, hfield]
      exact h
  · intro price hprice hpos
    have hfields : u.1.fields ≠ {} := fun hnone => by
      rw [price_of_no_fields hnone] at hprice
      exact absurd hprice (by simp)
    have hfield : u.1.fields.entryPrice = some price := hprice
    have hupdate : p.update u.1.fields u.2 =
        some (PickRow.fill { p.setFields u.1.fields with updatedAt := u.2 } price) := by
      rw [PickRow.update, hfield]
      simp only [if_pos h, if_neg hpos.ne']
    rw [PickRow.cliUpdated, if_neg hfields, hupdate]
    refine ⟨filledAt_fill _ hpos, ?_⟩
    show u.1.fields.entryPrice.or p.entryPrice = some price
    rw [hfield, Option.some_or]

/-- Any other pick keeps its status. -/
theorem cliUpdated_status (hpending : p.status ≠ .pending) : (p.cliUpdated u).status = p.status := by
  rw [PickRow.cliUpdated]
  split
  next => rfl
  next =>
    rw [PickRow.update]
    cases u.1.fields.entryPrice with
    | none => rfl
    | some price => simp only [if_neg hpending]; rfl

end Step

/-! ### Runs of updates -/

/-- The prices that commands set for a pick, in order. -/
def pricesSet (pickId : String) (us : List (UpdateArgs × String)) : List ℚ :=
  us.filterMap fun u => if u.1.pickId = pickId then u.1.price else none

theorem pricesSet_cons (pickId : String) (u : UpdateArgs × String) (us : List (UpdateArgs × String)) :
    pricesSet pickId (u :: us) = (if u.1.pickId = pickId then u.1.price.toList else []) ++ pricesSet pickId us := by
  unfold pricesSet
  rw [List.filterMap_cons]
  by_cases hown : u.1.pickId = pickId
  · simp only [if_pos hown]
    cases u.1.price <;> rfl
  · simp only [if_neg hown, List.nil_append]

/-- What a command does to a pick. -/
theorem getPick_cliUpdate {T : PickTable} {pickId : String} {p : PickRow} (hp : T.getPick pickId = some p)
    (u : UpdateArgs × String) :
    (T.cliUpdate u).getPick pickId = some (if u.1.pickId = pickId then p.cliUpdated u else p) := by
  have hid : p.pickId = pickId := by simpa using List.find?_some hp
  rw [PickTable.cliUpdate, PickRow.cliUpdated]
  by_cases hnone : u.1.fields = {}
  · rw [if_pos hnone, if_pos hnone, ite_self, hp]
  · have hsame : ∀ q : PickRow,
        (if q.pickId = u.1.pickId then (q.update u.1.fields u.2).getD q else q).pickId = q.pickId := by
      intro q
      split
      · cases h : q.update u.1.fields u.2 with
        | none => rfl
        | some r => exact pickId_update h
      · rfl
    rw [if_neg hnone, if_neg hnone, PickTable.getPick, PickTable.updatePick, List.find?_map]
    simp only [Function.comp_def, hsame]
    rw [← PickTable.getPick, hp, Option.map_some, hid]
    simp only [eq_comm]

/-- A filled pick, over any commands. -/
theorem run_filledAt {pickId : String} {price : ℚ} : ∀ (us : List (UpdateArgs × String)) {T : PickTable} {p : PickRow},
    T.getPick pickId = some p → FilledAt price p → ∃ q, (Run.final PickTable.cliUpdate T us).getPick pickId = some q ∧
      FilledAt price q ∧ q.entryPrice = (pricesSet pickId us).getLast?.or p.entryPrice
  | [], _, p, hp, hfilled => ⟨p, hp, hfilled, rfl⟩
  | u :: us, T, p, hp, hfilled => by
    have hnext := getPick_cliUpdate hp u
    rw [Run.final_cons, pricesSet_cons]
    split at hnext
    next hown =>
      obtain ⟨hfilled', hprice⟩ := cliUpdated_filledAt (u := u) hfilled
      obtain ⟨q, hq, hfilledq, hlast⟩ := run_filledAt us hnext hfilled'
      refine ⟨q, hq, hfilledq, ?_⟩
      rw [hlast, hprice, if_pos hown, List.getLast?_append, Option.or_assoc]
      congr 2
      cases u.1.price <;> rfl
    next hother =>
      obtain ⟨q, hq, hfilledq, hlast⟩ := run_filledAt us hnext hfilled
      refine ⟨q, hq, hfilledq, ?_⟩
      rw [hlast, if_neg hother, List.nil_append]

/-- A pending pick is filled at the first price it gets. -/
theorem run_pending {pickId : String} : ∀ (us : List (UpdateArgs × String)) {T : PickTable} {p : PickRow},
    T.getPick pickId = some p → p.status = .pending → (∀ price ∈ pricesSet pickId us, 0 < price) →
      ∃ q, (Run.final PickTable.cliUpdate T us).getPick pickId = some q ∧
        (pricesSet pickId us = [] → q.status = .pending) ∧
        ∀ price, (pricesSet pickId us).head? = some price →
          FilledAt price q ∧ q.entryPrice = (pricesSet pickId us).getLast?
  | [], _, p, hp, hpending, _ => ⟨p, hp, fun _ => hpending, fun price h => absurd h (by simp [pricesSet])⟩
  | u :: us, T, p, hp, hpending, hpos => by
    have hnext := getPick_cliUpdate hp u
    obtain ⟨hstays, hfills⟩ := cliUpdated_pending (u := u) hpending
    rw [Run.final_cons]
    rw [pricesSet_cons] at hpos ⊢
    split at hnext
    next hown =>
      rw [if_pos hown] at hpos ⊢
      cases hprice : u.1.price with
      | none =>
        simp only [hprice, Option.toList_none, List.nil_append] at hpos ⊢
        exact run_pending us hnext (hstays hprice) hpos
      | some price =>
        simp only [hprice, Option.toList_some, List.cons_append, List.nil_append] at hpos ⊢
        obtain ⟨hfilled, hentry⟩ := hfills price hprice (hpos price List.mem_cons_self)
        obtain ⟨q, hq, hfilledq, hlast⟩ := run_filledAt us hnext hfilled
        refine ⟨q, hq, fun h => absurd h (by simp), fun first hfirst => ?_⟩
        obtain rfl := Option.some.inj hfirst
        refine ⟨hfilledq, ?_⟩
        rw [hlast, hentry, List.getLast?_cons]
        cases (pricesSet pickId us).getLast? <;> rfl
    next hother =>
      rw [if_neg hother, List.nil_append] at hpos ⊢
      exact run_pending us hnext hpending hpos

/-- A pick that is neither pending nor open does not open. -/
theorem run_status {pickId : String} : ∀ (us : List (UpdateArgs × String)) {T : PickTable} {p : PickRow},
    T.getPick pickId = some p → p.status ≠ .pending → ∃ q,
      (Run.final PickTable.cliUpdate T us).getPick pickId = some q ∧ q.status = p.status
  | [], _, p, hp, _ => ⟨p, hp, rfl⟩
  | u :: us, T, p, hp, hpending => by
    have hnext := getPick_cliUpdate hp u
    rw [Run.final_cons]
    split at hnext
    next =>
      have hstatus := cliUpdated_status (u := u) hpending
      obtain ⟨q, hq, hsame⟩ := run_status us hnext (by rwa [hstatus])
      exact ⟨q, hq, hsame.trans hstatus⟩
    next => exact run_status us hnext hpending

/-- The price that the money of an open pick goes by: the one that it was filled at or, of a pick that
was pending, the first that was set. -/
def FillPrice (p : PickRow) (pickId : String) (us : List (UpdateArgs × String)) (price : ℚ) : Prop :=
  (p.status = .opened ∧ FilledAt price p) ∨ (p.status = .pending ∧ (pricesSet pickId us).head? = some price)

/-- **An open pick's money** is that of its fill price, and its entry price is the last that was
set. -/
theorem open_pick_money {T : PickTable} {us : List (UpdateArgs × String)} {pickId : String} {p q : PickRow}
    (hp : T.getPick pickId = some p) (hpos : ∀ price ∈ pricesSet pickId us, 0 < price)
    (hq : (Run.final PickTable.cliUpdate T us).getPick pickId = some q) (hopen : q.status = .opened) :
    (p.status = .opened ∨ p.status = .pending ∧ ∃ price, FillPrice p pickId us price) ∧
      ∀ price, FillPrice p pickId us price → FilledAt price q ∧
        q.entryPrice = (pricesSet pickId us).getLast?.or p.entryPrice ∧
        (AddsUp q ↔ q.entryPrice = some price) := by
  by_cases hpending : p.status = .pending
  · obtain ⟨q', hq', hnone, hsome⟩ := run_pending us hp hpending hpos
    obtain rfl := Option.some.inj (hq.symm.trans hq')
    cases hfirst : (pricesSet pickId us).head? with
    | none =>
      have hstays := hnone (List.head?_eq_none_iff.mp hfirst)
      exact absurd (hopen.symm.trans hstays) (by decide)
    | some first =>
      refine ⟨.inr ⟨hpending, first, .inr ⟨hpending, hfirst⟩⟩, ?_⟩
      rintro price (⟨hopened, -⟩ | ⟨-, hprice⟩)
      · exact absurd (hopened.symm.trans hpending) (by decide)
      · obtain ⟨hfilled, hentry⟩ := hsome price hprice
        refine ⟨hfilled, ?_, addsUp_iff hfilled⟩
        have hset : (pricesSet pickId us).getLast?.isSome = true := by
          rw [List.getLast?_isSome]
          rintro hnil
          rw [hnil] at hprice
          exact absurd hprice (by simp)
        obtain ⟨last, hlast⟩ := Option.isSome_iff_exists.mp hset
        rw [hentry, hlast, Option.some_or]
  · have hopened : p.status = .opened := by
      obtain ⟨q', hq', hsame⟩ := run_status us hp hpending
      obtain rfl := Option.some.inj (hq.symm.trans hq')
      exact hsame.symm.trans hopen
    refine ⟨.inl hopened, ?_⟩
    rintro price (⟨-, hfilled⟩ | ⟨hpending', -⟩)
    · obtain ⟨q', hq', hfilledq, hentry⟩ := run_filledAt us hp hfilled
      obtain rfl := Option.some.inj (hq.symm.trans hq')
      exact ⟨hfilledq, hentry, addsUp_iff hfilledq⟩
    · exact absurd hpending' hpending

/-! ### A price corrected -/

/-- A pending pick, with the 100000 that the command line gives it. -/
def tcsPick : PickRow where
  pickId := "pick-1"
  categoryId := none
  symbol := "TCS"
  instrumentKey := some "NSE_EQ|INE467B01029"
  entryPrice := none
  recoPrice := some 3450
  pickDate := 739700
  targetPrice := none
  stopLoss := none
  status := .pending
  deployedCapital := 0
  totalQty := 0
  avgCost := none
  realizedPnl := 0
  updatedAt := "2026-03-02T09:00:00Z"

/-- Its table. -/
def tcsTable : PickTable := ⟨[tcsPick], by decide⟩

/-- It is entered at 3500, then the price is set to 3600. -/
def priceCorrected : List (UpdateArgs × String) :=
  [({ pickId := "pick-1", price := some 3500 }, "2026-03-02T10:00:00Z"),
    ({ pickId := "pick-1", price := some 3600 }, "2026-03-02T11:00:00Z")]

/-- What it comes to: 28 shares for 98000, with an entry price of 3600. -/
theorem priceCorrected_row : ∃ q, (Run.final PickTable.cliUpdate tcsTable priceCorrected).getPick "pick-1" = some q ∧
    q.status = .opened ∧ q.entryPrice = some 3600 ∧ q.totalQty = 28 ∧ q.deployedCapital = 98000 := by
  obtain ⟨q, hq⟩ := Option.isSome_iff_exists.mp
    (show ((Run.final PickTable.cliUpdate tcsTable priceCorrected).getPick "pick-1").isSome = true by decide +kernel)
  have hrow : ((Run.final PickTable.cliUpdate tcsTable priceCorrected).getPick "pick-1").map
      (fun q => (q.status, q.entryPrice, q.totalQty, q.deployedCapital)) = some (.opened, some 3600, 28, 98000) := by
    decide +kernel
  rw [hq] at hrow
  exact ⟨q, hq, by simpa using hrow⟩

theorem priceCorrected_pos : ∀ price ∈ pricesSet "pick-1" priceCorrected, 0 < price := by decide +kernel

/-- 28 shares at 3600 are not 98000. -/
theorem corrected_price_does_not_add_up :
    ¬ ∀ T us pickId p q, PickTable.getPick T pickId = some p → (∀ price ∈ pricesSet pickId us, 0 < price) →
      p.status = .pending → (Run.final PickTable.cliUpdate T us).getPick pickId = some q → q.status = .opened →
      AddsUp q := by
  intro h
  obtain ⟨q, hq, hopen, hentry, hqty, hdeployed⟩ := priceCorrected_row
  obtain ⟨price, hprice, hfilled⟩ := h tcsTable priceCorrected "pick-1" tcsPick q rfl priceCorrected_pos rfl hq hopen
  obtain rfl : 3600 = price := Option.some.inj (hentry.symm.trans hprice)
  have hcost := hfilled.deployed
  rw [hqty, hdeployed] at hcost
  norm_num at hcost

/-- Its money is that of 3500. -/
theorem open_pick_money_tcs : ∃ q, (Run.final PickTable.cliUpdate tcsTable priceCorrected).getPick "pick-1" = some q ∧
    FilledAt 3500 q ∧ q.entryPrice = some 3600 := by
  obtain ⟨q, hq, hopen, hentry, -, -⟩ := priceCorrected_row
  have hfill : FillPrice tcsPick "pick-1" priceCorrected 3500 := .inr ⟨rfl, by decide +kernel⟩
  exact ⟨q, hq, ((open_pick_money (p := tcsPick) rfl priceCorrected_pos hq hopen).2 3500 hfill).1, hentry⟩

end NiftyShield.Mvp
