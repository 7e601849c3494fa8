import NiftyShield.Lib.Selection
import NiftyShield.Mvp.Analytics
import Mathlib.Algebra.BigOperators.Ring.List
import Mathlib.Tactic.FieldSimp
import Mathlib.Tactic.Ring

/-!
# Splits and the category figures

A split changes no one's wealth: had the stock not split, its prices from the ex-date on
would have been higher by the ratio, and fills from then on for fewer shares. Here is that
comparison for the figures of a category: `restate` is what the tables would hold with the
split, and the action is then recorded.

## What is proved

`figures_kept`: all figures stay the same if the data of the stock lie so that no figure
mixes price bases (`OneBasis`). `get_category_stats` needs only whole quantities
(`stats_kept`), since it restates quantities and prices are today's. The returns also need a
snapshot since the ex-date (`returns_kept`). The day's change compares raw prices, and so
needs both days on one side of the ex-date (`dayChange_kept`); the high and low multiply raw
prices and quantities, and so need all fills and snapshots on one side (`highLow_kept`).

## Honest scope

A restated quantity may be fractional, where the real one would have been rounded. The
condition is enough, not necessary: a maximum may lie before the ex-date.
-/

namespace NiftyShield.Mvp

open NiftyShield.Lib

namespace MVPStore

/-! ### The tables with the split -/

/-- The action is one of the pick's stock. -/
def ofStock (a : CorporateAction) (pick : Pick) : Bool := pick.symbol.toUpper = a.symbol

/-- A price of a day, with the split. -/
def restatePrice (a : CorporateAction) (day : ℕ) (price : ℚ) : ℚ :=
  if a.exDate ≤ day then price / a.ratio else price

/-- A fill with the split: for the same rupees. -/
def restateFill (a : CorporateAction) (f : Fill) : Fill :=
  if a.exDate ≤ f.filledOn then ⟨f.price / a.ratio, f.qty * a.ratio, f.filledOn⟩ else f

/-- A tranche with the split. -/
def restateTranche (a : CorporateAction) (t : Tranche) : Tranche :=
  if t.filledAt.any (a.exDate ≤ ·) then { t with fillPrice := t.fillPrice.map (· / a.ratio), qty := t.qty.map (· * a.ratio) }
  else t

variable (S : MVPStore) (a : CorporateAction)

/-- The shares filled since the ex-date. -/
def laterQty (pick : Pick) : ℚ := (((S.getFills pick).filter fun f => a.exDate ≤ f.filledOn).map
    (·.qty)).sum

/-- The quantity with the split: the later fills are for more shares. -/
def restateQty (pick : Pick) : ℚ := pick.totalQty + (a.ratio - 1) * S.laterQty a pick

/-- A pick of the stock with the split. -/
def restatePick (pick : Pick) : Pick :=
  if ofStock a pick then
    { pick with
      entryPrice := pick.entryPrice.map (restatePrice a
        ((((S.getFills pick).map (·.filledOn)).min?).getD pick.pickDate))
      recoPrice := pick.recoPrice.map (restatePrice a pick.pickDate)
      targetPrice := pick.targetPrice.map (restatePrice a pick.pickDate)
      stopLoss := pick.stopLoss.map (restatePrice a pick.pickDate)
      totalQty := S.restateQty a pick
      avgCost := pick.avgCost.map fun c => if S.laterQty a pick = 0 then c
        else c * pick.totalQty / S.restateQty a pick }
  else pick

/-- The ids of the picks of the stock. -/
def stockIds : List String := (S.picks.filter fun p => ofStock a p).map (·.pickId)

/-- A price of a pick and a day, with the split. -/
def restateAt (pickId : String) (day : ℕ) (price : ℚ) : ℚ :=
  if pickId ∈ S.stockIds a then restatePrice a day price else price

@[simp] theorem restatePick_pickId (p : Pick) : (S.restatePick a p).pickId = p.pickId := by
  unfold restatePick
  split <;> rfl

/-- **The tables with the split**: fills and prices since the ex-date restated. -/
def restate : MVPStore where
  providers := S.providers
  categories := S.categories
  picks := S.picks.map (S.restatePick a)
  tranches := S.tranches.map fun t => if t.pickId ∈ S.stockIds a then restateTranche a t else t
  snapshots := S.snapshots.map fun s => { s with ltp := S.restateAt a s.pickId s.day s.ltp }
  corporateActions := S.corporateActions
  pickIds_nodup := by
    rw [List.map_map, show (fun p : Pick => p.pickId) ∘ S.restatePick a = (·.pickId) from
      funext fun p => S.restatePick_pickId a p]
    exact S.pickIds_nodup

/-- The live prices with the split. -/
def LtpRestated (today : ℕ) (ltpMap ltpMap' : String → Option ℚ) : Prop :=
  ∀ p ∈ S.picks, ∀ key, p.instrumentKey = some key →
    ltpMap' key = (ltpMap key).map fun x => if ofStock a p then restatePrice a today x else x

/-- The tables with the split and the action. -/
def withSplit : MVPStore := { S.restate a with corporateActions := S.corporateActions ++ [a] }

theorem withSplit_of_add {S' : MVPStore} (h : (S.restate a).addCorporateAction a = some S') :
    S' = S.withSplit a := by
  unfold addCorporateAction at h
  split at h
  · exact absurd h (by simp)
  · exact (Option.some.inj h).symm

/-! ### What is read of a pick -/

section Pick

variable {S} {a}

@[simp] theorem restatePick_categoryId (p : Pick) : (S.restatePick a p).categoryId = p.categoryId := by
  unfold restatePick
  split <;> rfl

@[simp] theorem restatePick_symbol (p : Pick) : (S.restatePick a p).symbol = p.symbol := by
  unfold restatePick
  split <;> rfl

@[simp] theorem restatePick_instrumentKey (p : Pick) :
    (S.restatePick a p).instrumentKey = p.instrumentKey := by
  unfold restatePick
  split <;> rfl

@[simp] theorem restatePick_pickDate (p : Pick) : (S.restatePick a p).pickDate = p.pickDate := by
  unfold restatePick
  split <;> rfl

@[simp] theorem restatePick_status (p : Pick) : (S.restatePick a p).status = p.status := by
  unfold restatePick
  split <;> rfl

@[simp] theorem restatePick_deployedCapital (p : Pick) :
    (S.restatePick a p).deployedCapital = p.deployedCapital := by
  unfold restatePick
  split <;> rfl

@[simp] theorem restatePick_realizedPnl (p : Pick) : (S.restatePick a p).realizedPnl = p.realizedPnl := by
  unfold restatePick
  split <;> rfl

/-- A pick of another stock is as it was. -/
theorem restatePick_of_not {p : Pick} (h : ofStock a p = false) : S.restatePick a p = p := by
  rw [restatePick, h]
  rfl

theorem restatePick_totalQty {p : Pick} (h : ofStock a p = true) :
    (S.restatePick a p).totalQty = S.restateQty a p := by
  rw [restatePick, h]
  rfl

/-- The ids of the stock are those of its picks. -/
theorem mem_stockIds {p : Pick} (hp : p ∈ S.picks) : p.pickId ∈ S.stockIds a ↔ ofStock a p = true := by
  constructor
  · intro h
    obtain ⟨q, hq, hid⟩ := List.mem_map.mp h
    obtain ⟨hmem, hstock⟩ := List.mem_filter.mp hq
    rwa [← List.inj_on_of_nodup_map S.pickIds_nodup hmem hp hid]
  · intro h
    exact List.mem_map.mpr ⟨p, List.mem_filter.mpr ⟨hp, h⟩, rfl⟩

theorem restateAt_of_mem {p : Pick} (hp : p ∈ S.picks) (day : ℕ) (x : ℚ) :
    S.restateAt a p.pickId day x = if ofStock a p then restatePrice a day x else x := by
  unfold restateAt
  simp only [mem_stockIds hp]

/-- The snapshots of a pick, with the split. -/
theorem snapshotsOf_withSplit (pickId : String) :
    (S.withSplit a).snapshotsOf pickId =
      (S.snapshotsOf pickId).map fun s => { s with ltp := S.restateAt a pickId s.day s.ltp } := by
  show ((S.snapshots.map _).filter _) = _
  rw [List.filter_map]
  refine List.map_congr_left fun s hs => ?_
  obtain rfl : s.pickId = pickId := by simpa using (List.mem_filter.mp hs).2
  rfl

theorem map_day_withSplit (pickId : String) :
    ((S.withSplit a).snapshotsOf pickId).map (·.day) = (S.snapshotsOf pickId).map (·.day) := by
  rw [snapshotsOf_withSplit, List.map_map]
  rfl

/-- The last price of a day is restated. -/
theorem closeOn_map (g : ℕ → ℚ → ℚ) (l : List MVPSnapshot) (d : ℕ) :
    closeOn (l.map fun s => { s with ltp := g s.day s.ltp }) d = (closeOn l d).map (g d) := by
  rw [closeOn, closeOn, List.filter_map, Selection.argmax_map, Option.map_map, Option.map_map]
  show ((l.filter fun s => s.day = d).argmax (·.time)).map _ = _
  cases h : (l.filter fun s => s.day = d).argmax (·.time) with
  | none => rfl
  | some s =>
    have hday : s.day = d := by simpa using (List.mem_filter.mp (List.argmax_mem h)).2
    rw [Option.map_some, Option.map_some, ← hday]
    rfl

theorem closeOn_withSplit (pickId : String) (d : ℕ) :
    closeOn ((S.withSplit a).snapshotsOf pickId) d = (closeOn (S.snapshotsOf pickId) d).map (S.restateAt a pickId d) := by
  rw [snapshotsOf_withSplit, closeOn_map]

/-! ### Fills and quantities -/

theorem fill_restateTranche (t : Tranche) : (restateTranche a t).fill = t.fill.map (restateFill a) := by
  obtain ⟨pickId, fillPrice, qty, filledAt⟩ := t
  cases filledAt with
  | none => cases fillPrice <;> cases qty <;> rfl
  | some d =>
    by_cases h : a.exDate ≤ d
    · cases fillPrice <;> cases qty <;> simp [restateTranche, Tranche.fill, restateFill, h]
    · cases fillPrice <;> cases qty <;> simp [restateTranche, Tranche.fill, restateFill, h]

/-- The filled tranches of a pick, with the split. -/
theorem trancheFills_withSplit (pickId : String) :
    (S.withSplit a).trancheFills pickId =
      if pickId ∈ S.stockIds a then (S.trancheFills pickId).map (restateFill a) else S.trancheFills pickId := by
  have hid : ∀ t : Tranche, (if t.pickId ∈ S.stockIds a then restateTranche a t else t).pickId =
      t.pickId := by
    intro t
    unfold restateTranche
    split
    · split <;> rfl
    · rfl
  have hfilter : ((S.withSplit a).tranches.filter fun t => t.pickId = pickId) =
      (S.tranches.filter fun t => t.pickId = pickId).map fun t => if pickId ∈ S.stockIds a
        then restateTranche a t else t := by
    show ((S.tranches.map _).filter _) = _
    rw [List.filter_map]
    simp only [Function.comp_def, hid]
    refine List.map_congr_left fun t ht => ?_
    obtain rfl : t.pickId = pickId := by simpa using (List.mem_filter.mp ht).2
    rfl
  rw [trancheFills, hfilter, List.filterMap_map]
  split
  next h =>
    rw [trancheFills, List.map_filterMap]
    simp only [Function.comp_def, fill_restateTranche]
  next h => simp only [Function.comp_def, trancheFills]

/-- The one fill of a pick without tranches, with the split. -/
theorem lumpFill_withSplit {p : Pick} (hstock : ofStock a p = true)
    (hlump : (S.trancheFills p.pickId).isEmpty = true) :
    (S.withSplit a).lumpFill (S.restatePick a p) = (S.lumpFill p).map (restateFill a) := by
  have hratio := a.ratio_ne
  have hfills : S.getFills p = S.lumpFill p := by
    rw [getFills, if_pos hlump]
  have hpick : S.restatePick a p = { S.restatePick a p with
      totalQty := S.restateQty a p
      avgCost := p.avgCost.map fun c => if S.laterQty a p = 0 then c
        else c * p.totalQty / S.restateQty a p } := by
    rw [restatePick, hstock]
    rfl
  rw [hpick, lumpFill, lumpFill]
  simp only [restatePick_pickId, map_day_withSplit, restatePick_pickDate]
  cases havg : p.avgCost with
  | none => rfl
  | some c =>
    simp only [Option.map_some]
    by_cases hzero : p.totalQty = 0
    · have hempty : S.lumpFill p = [] := by
        rw [lumpFill, havg]
        exact if_pos hzero
      have hlater : S.laterQty a p = 0 := by
        rw [laterQty, hfills, hempty]
        rfl
      rw [if_pos (by rw [restateQty, hzero, hlater, mul_zero, add_zero]), if_pos hzero]
      rfl
    · have hone : S.lumpFill p = [⟨c, p.totalQty,
          (((S.snapshotsOf p.pickId).map (·.day)).min?).getD p.pickDate⟩] := by
        rw [lumpFill, havg]
        exact if_neg hzero
      rw [if_neg hzero, List.map_singleton, restateFill]
      by_cases hday : a.exDate ≤ (((S.snapshotsOf p.pickId).map (·.day)).min?).getD p.pickDate
      · -- the fill is a later one: more shares at a lower price
        have hlater : S.laterQty a p = p.totalQty := by
          rw [laterQty, hfills, hone]
          simp [hday]
        have hqty : S.restateQty a p = p.totalQty * a.ratio := by
          rw [restateQty, hlater]
          ring
        rw [hlater, hqty, if_neg (mul_ne_zero hzero hratio), if_neg hzero, if_pos hday]
        have hprice : c * p.totalQty / (p.totalQty * a.ratio) = c / a.ratio := by
          field_simp
        rw [hprice]
      · have hlater : S.laterQty a p = 0 := by
          rw [laterQty, hfills, hone]
          simp [hday]
        have hqty : S.restateQty a p = p.totalQty := by
          rw [restateQty, hlater, mul_zero, add_zero]
        rw [hlater, hqty, if_neg hzero, if_pos rfl, if_neg hday]

/-- **The fills with the split** are the fills restated. -/
theorem getFills_withSplit {p : Pick} (hp : p ∈ S.picks) (hstock : ofStock a p = true) :
    (S.withSplit a).getFills (S.restatePick a p) = (S.getFills p).map (restateFill a) := by
  have htranches := trancheFills_withSplit (S := S) (a := a) p.pickId
  rw [if_pos ((mem_stockIds hp).mpr hstock)] at htranches
  rw [getFills, getFills, restatePick_pickId, htranches, List.isEmpty_map]
  split
  next hlump => exact lumpFill_withSplit hstock hlump
  next => rfl

/-- The fills of another stock are as they were. -/
theorem getFills_withSplit_of_not {p : Pick} (hp : p ∈ S.picks) (hstock : ofStock a p = false) :
    (S.withSplit a).getFills p = S.getFills p := by
  have htranches := trancheFills_withSplit (S := S) (a := a) p.pickId
  rw [if_neg fun h => by simp [(mem_stockIds hp).mp h] at hstock] at htranches
  rw [getFills, getFills, htranches, lumpFill, lumpFill, map_day_withSplit]

theorem sum_qty_restateFill (fills : List Fill) :
    ((fills.map (restateFill a)).map (·.qty)).sum =
      (fills.map (·.qty)).sum + (a.ratio - 1) *
        ((fills.filter fun f => a.exDate ≤ f.filledOn).map (·.qty)).sum := by
  induction fills with
  | nil => simp
  | cons f fills ih =>
    by_cases hf : a.exDate ≤ f.filledOn
    · simp only [List.map_cons, List.sum_cons, ih, List.filter_cons, hf, decide_true, if_true, restateFill]
      ring
    · simp only [List.map_cons, List.sum_cons, ih, List.filter_cons, hf, decide_false,
        Bool.false_eq_true, if_false,
        restateFill]
      ring

/-- A pick that has its fills' quantity has it with the split. -/
theorem booked_withSplit {p : Pick} (hp : p ∈ S.picks) (hstock : ofStock a p = true)
    (h : Booked p (S.getFills p)) :
    Booked (S.restatePick a p) ((S.withSplit a).getFills (S.restatePick a p)) := by
  rw [Booked, getFills_withSplit hp hstock, sum_qty_restateFill, restatePick_totalQty hstock,
    restateQty, laterQty, h]

/-- New shares for an old one, as seen today. -/
def todayRatio (a : CorporateAction) (today : ℕ) : ℚ := if a.exDate ≤ today then a.ratio else 1

theorem todayRatio_ne (a : CorporateAction) (today : ℕ) : todayRatio a today ≠ 0 := by
  unfold todayRatio
  split
  · exact a.ratio_ne
  · exact one_ne_zero

theorem restatePrice_today (a : CorporateAction) (today : ℕ) (x : ℚ) :
    restatePrice a today x = x / todayRatio a today := by
  unfold restatePrice todayRatio
  split
  · rfl
  · rw [div_one]

/-- **The restated quantity with the split.** An earlier fill gets the ratio from the
action, a later one has it already. -/
theorem restatedQty_withSplit {today : ℕ} {fills : List Fill} (actions : List CorporateAction)
    (hpast : today < a.exDate → ∀ f ∈ fills, f.filledOn < a.exDate) :
    restatedQty (fills.map (restateFill a)) (actions ++ [a]) today =
      restatedQty fills actions today * todayRatio a today := by
  have hfill : ∀ f ∈ fills, (restateFill a f).qty * cumulativeMultiplier (actions ++ [a])
    (restateFill a f).filledOn today =
      f.qty * cumulativeMultiplier actions f.filledOn today * todayRatio a today := by
    intro f hf
    rw [cumulativeMultiplier_append, restateFill, todayRatio]
    by_cases htoday : a.exDate ≤ today
    · by_cases hday : a.exDate ≤ f.filledOn
      · simp only [hday, htoday, if_true, not_lt.mpr hday, false_and, if_false]
        ring
      · simp only [hday, htoday, if_true, not_le.mp hday, and_self, if_false]
        ring
    · have hday := not_le.mpr (hpast (not_le.mp htoday) f hf)
      simp only [hday, htoday, if_false, and_false, mul_one]
  rw [restatedQty, List.map_map, restatedQty, ← List.sum_map_mul_right]
  exact congrArg List.sum (List.map_congr_left hfill)

theorem getCorporateActions_withSplit (symbol : String) :
    (S.withSplit a).getCorporateActions symbol =
      if a.symbol = symbol.toUpper then S.getCorporateActions symbol ++ [a]
        else S.getCorporateActions symbol := by
  show ((S.corporateActions ++ [a]).filter _) = _
  rw [List.filter_append, getCorporateActions]
  by_cases h : a.symbol = symbol.toUpper
  · simp [h]
  · simp [h]

/-- The quantity read of a pick is kept, up to the ratio: the pick has its fills' quantity,
no fraction of a share is cut, and no fill is dated after today. -/
structure QtyKept (S : MVPStore) (a : CorporateAction) (today : ℕ) (p : Pick) : Prop where
  /-- The stored quantity. -/
  booked : Booked p (S.getFills p)
  /-- Without the split. -/
  before : IsWhole (restatedQty (S.getFills p) (S.getCorporateActions p.symbol) today)
  /-- With it. -/
  after : IsWhole (restatedQty (S.getFills p) (S.getCorporateActions p.symbol) today * todayRatio a today)
  /-- The fills have happened. -/
  past : today < a.exDate → ∀ f ∈ S.getFills p, f.filledOn < a.exDate

theorem adjustedQty_withSplit {today : ℕ} {p : Pick} (hp : p ∈ S.picks) (hstock : ofStock a p = true)
    (h : QtyKept S a today p) :
    ((S.withSplit a).getAdjustedPick (S.restatePick a p) today).totalQty =
      (S.getAdjustedPick p today).totalQty * todayRatio a today := by
  have hactions : (S.withSplit a).getCorporateActions (S.restatePick a p).symbol =
      S.getCorporateActions p.symbol ++ [a] := by
    have hsymbol : p.symbol.toUpper = a.symbol := by simpa [ofStock] using hstock
    rw [restatePick_symbol, getCorporateActions_withSplit, if_pos hsymbol.symm]
  have hqty := restatedQty_withSplit (S.getCorporateActions p.symbol) h.past
  have hbooked := booked_withSplit hp hstock h.booked
  rw [getAdjustedPick, getAdjustedPick, adjustedPick_totalQty h.booked h.before, hactions]
  rw [getFills_withSplit hp hstock] at hbooked ⊢
  rw [adjustedPick_totalQty hbooked (hqty ▸ h.after), hqty]

/-- A pick of another stock is read as before. -/
theorem getAdjustedPick_withSplit_of_not {p : Pick} (hp : p ∈ S.picks)
    (hstock : ofStock a p = false) (today : ℕ) :
    (S.withSplit a).getAdjustedPick p today = S.getAdjustedPick p today := by
  have hsymbol : ¬ a.symbol = p.symbol.toUpper := fun h => by simp [ofStock, h] at hstock
  rw [getAdjustedPick, getAdjustedPick, getFills_withSplit_of_not hp hstock,
    getCorporateActions_withSplit, if_neg hsymbol]

/-! ### `get_category_stats` -/

theorem picksOf_withSplit (categoryId : String) :
    (S.withSplit a).picksOf categoryId = (S.picksOf categoryId).map (S.restatePick a) := by
  show ((S.picks.map _).filter _) = _
  rw [List.filter_map, picksOf]
  simp only [Function.comp_def, restatePick_categoryId]

theorem mem_of_picksOf {categoryId : String} {p : Pick} (h : p ∈ S.picksOf categoryId) : p ∈ S.picks :=
  (List.mem_filter.mp h).1

/-- A condition that reads the status only. -/
theorem filter_status_withSplit (f : PickStatus → Bool) (picks : List Pick) :
    (picks.map (S.restatePick a)).filter (fun p => f p.status) =
      (picks.filter fun p => f p.status).map (S.restatePick a) := by
  rw [List.filter_map]
  simp only [Function.comp_def, restatePick_status]

/-- A field of rupees. -/
theorem map_deployed_withSplit (picks : List Pick) :
    (picks.map (S.restatePick a)).map (·.deployedCapital) = picks.map (·.deployedCapital) := by
  rw [List.map_map]
  exact List.map_congr_left fun p _ => restatePick_deployedCapital p

theorem map_realized_withSplit (picks : List Pick) :
    (picks.map (S.restatePick a)).map (·.realizedPnl) = picks.map (·.realizedPnl) := by
  rw [List.map_map]
  exact List.map_congr_left fun p _ => restatePick_realizedPnl p

theorem getPick_of_mem {p : Pick} (hp : p ∈ S.picks) : S.getPick p.pickId = some p := by
  unfold getPick
  cases h : S.picks.find? fun q => q.pickId = p.pickId with
  | none => exact absurd (List.find?_eq_none.mp h p hp) (by simp)
  | some q =>
    have hid : q.pickId = p.pickId := by simpa using List.find?_some h
    rw [List.inj_on_of_nodup_map S.pickIds_nodup (List.mem_of_find?_eq_some h) hp hid]

theorem mem_picks_withSplit {p : Pick} (hp : p ∈ S.picks) : S.restatePick a p ∈ (S.withSplit a).picks :=
  List.mem_map_of_mem hp

/-- The live price of a pick, with the split. -/
theorem liveLtp_withSplit {today : ℕ} {ltpMap ltpMap' : String → Option ℚ}
    (hltp : S.LtpRestated a today ltpMap ltpMap')
    {p : Pick} (hp : p ∈ S.picks) :
    liveLtp ltpMap' (S.restatePick a p) =
      (liveLtp ltpMap p).map fun x => if ofStock a p then restatePrice a today x else x := by
  unfold liveLtp
  rw [restatePick_instrumentKey]
  cases hkey : p.instrumentKey with
  | none => rfl
  | some key =>
    simp only
    split
    · rfl
    · exact hltp p hp key hkey

/-- The quantity of an open pick of the stock, whose symbol is stored in capitals. -/
theorem statsQty_withSplit {today : ℕ} {p : Pick} (hp : p ∈ S.picks) (hstock : ofStock a p = true)
    (hsymbol : p.symbol = a.symbol) (h : QtyKept S a today p) :
    (S.withSplit a).statsQty today (S.restatePick a p) = S.statsQty today p * todayRatio a today := by
  have hbefore : S.statsQty today p = (S.getAdjustedPick p today).totalQty := by
    unfold statsQty
    rw [getPick_of_mem hp]
    split
    · rfl
    next hnone =>
      -- the capitals are what the actions are looked up by
      have hnil : S.getCorporateActions p.symbol = [] := by
        rw [getCorporateActions, List.filter_eq_nil_iff]
        intro b hb hsame
        have hupper : p.symbol.toUpper = a.symbol := by simpa [ofStock] using hstock
        have hb' := (of_decide_eq_true hsame).trans (hupper.trans hsymbol.symm)
        exact hnone (List.any_eq_true.mpr ⟨b, hb, decide_eq_true hb'⟩)
      rw [getAdjustedPick, hnil]
      rfl
  have hafter : (S.withSplit a).statsQty today (S.restatePick a p) =
      ((S.withSplit a).getAdjustedPick (S.restatePick a p) today).totalQty := by
    unfold statsQty
    rw [getPick_of_mem (mem_picks_withSplit hp), if_pos]
    exact List.any_eq_true.mpr ⟨a, List.mem_append_right _ (List.mem_singleton_self a), by simp [hsymbol]⟩
  rw [hafter, hbefore, adjustedQty_withSplit hp hstock h]

/-- The quantity of an open pick of another stock. -/
theorem statsQty_withSplit_of_not {today : ℕ} {p : Pick} (hp : p ∈ S.picks) (hstock : ofStock a p = false)
    (hcapitals : a.symbol.toUpper = a.symbol) : (S.withSplit a).statsQty today p = S.statsQty today p := by
  have hpick : (S.withSplit a).getPick p.pickId = some p := by
    have hmem := mem_picks_withSplit (a := a) hp
    rw [restatePick_of_not hstock] at hmem
    exact getPick_of_mem hmem
  have hne : ¬ a.symbol = p.symbol := fun h => by simp [ofStock, ← h, hcapitals] at hstock
  have hany : ((S.withSplit a).corporateActions.any fun b => b.symbol = p.symbol) =
      S.corporateActions.any fun b => b.symbol = p.symbol := by
    show ((S.corporateActions ++ [a]).any _) = _
    simp [List.any_append, hne]
  rw [statsQty, statsQty, hany, hpick, getPick_of_mem hp]
  simp only [getAdjustedPick_withSplit_of_not hp hstock]

/-- What an open pick is worth is kept: its symbol is stored in capitals, and its quantity
restated. -/
theorem markedValue_withSplit {today : ℕ} {ltpMap ltpMap' : String → Option ℚ}
    (hltp : S.LtpRestated a today ltpMap ltpMap') (hcapitals : a.symbol.toUpper = a.symbol)
    {p : Pick} (hp : p ∈ S.picks)
    (h : ofStock a p = true → (liveLtp ltpMap p).isSome = true → p.avgCost.isSome = true →
      p.symbol = a.symbol ∧ QtyKept S a today p) :
    (S.withSplit a).markedValue today ltpMap' (S.restatePick a p) = S.markedValue today ltpMap p := by
  unfold markedValue
  rw [liveLtp_withSplit hltp hp, restatePick_deployedCapital]
  cases hstock : ofStock a p with
  | false =>
    rw [restatePick_of_not hstock, statsQty_withSplit_of_not hp hstock hcapitals]
    cases liveLtp ltpMap p <;> rfl
  | true =>
    have havg : (S.restatePick a p).avgCost =
        p.avgCost.map fun c => if S.laterQty a p = 0 then c else c * p.totalQty / S.restateQty a p := by
      rw [restatePick, hstock]
      rfl
    rw [havg]
    cases hlive : liveLtp ltpMap p with
    | none => rfl
    | some ltp =>
      cases hcost : p.avgCost with
      | none => rfl
      | some cost =>
        obtain ⟨hsymbol, hqty⟩ := h hstock (by rw [hlive]; rfl) (by rw [hcost]; rfl)
        have hne := todayRatio_ne a today
        simp only [Option.map_some, if_true]
        rw [statsQty_withSplit hp hstock hsymbol hqty, restatePrice_today]
        field_simp

/-- **Stats.** -/
theorem stats_kept {today : ℕ} {ltpMap ltpMap' : String → Option ℚ}
    (hltp : S.LtpRestated a today ltpMap ltpMap')
    (hcapitals : a.symbol.toUpper = a.symbol) {categoryId : String}
    (h : ∀ p ∈ S.picksOf categoryId, p.status = .opened → ofStock a p = true →
      (liveLtp ltpMap p).isSome = true →
      p.avgCost.isSome = true → p.symbol = a.symbol ∧ QtyKept S a today p) :
    (S.withSplit a).getCategoryStats today categoryId ltpMap' =
      S.getCategoryStats today categoryId ltpMap := by
  have hcurrent : (((S.picksOf categoryId).filter fun p => p.status = .opened).map (S.restatePick a)).map
      ((S.withSplit a).markedValue today ltpMap') =
      ((S.picksOf categoryId).filter fun p => p.status = .opened).map (S.markedValue today ltpMap) := by
    rw [List.map_map]
    refine List.map_congr_left fun p hp => ?_
    obtain ⟨hmem, hopened⟩ := List.mem_filter.mp hp
    exact markedValue_withSplit hltp hcapitals (mem_of_picksOf hmem) (h p hmem (of_decide_eq_true hopened))
  have hopened := filter_status_withSplit (S := S) (a := a) (fun st => decide (st = .opened))
    (S.picksOf categoryId)
  have hclosed := filter_status_withSplit (S := S) (a := a) isTerminal (S.picksOf categoryId)
  unfold getCategoryStats
  simp only [picksOf_withSplit, hopened, hclosed, hcurrent, map_deployed_withSplit, map_realized_withSplit]

/-! ### `get_category_day_change` -/

theorem sampledDays_withSplit (pickId : String) :
    sampledDays ((S.withSplit a).snapshotsOf pickId) = sampledDays (S.snapshotsOf pickId) := by
  rw [sampledDays, sampledDays, map_day_withSplit]

theorem lastTwoDays_withSplit (pickId : String) :
    (S.withSplit a).lastTwoDays pickId =
      (S.lastTwoDays pickId).map fun e => (e.1, S.restateAt a pickId e.1 e.2) := by
  rw [lastTwoDays, lastTwoDays, sampledDays_withSplit, List.map_filterMap]
  refine List.filterMap_congr fun d _ => ?_
  rw [closeOn_withSplit, Option.map_map, Option.map_map]
  rfl

/-- The two latest days of a pick lie on one side of the ex-date. -/
def DaysTogether (S : MVPStore) (a : CorporateAction) (pickId : String) : Prop :=
  ∀ latest prior rest, S.lastTwoDays pickId = latest :: prior :: rest →
    (a.exDate ≤ latest.1 ↔ a.exDate ≤ prior.1)

theorem restateAt_eq_zero_iff {pickId : String} {day : ℕ} {x : ℚ} :
    S.restateAt a pickId day x = 0 ↔ x = 0 := by
  have hratio := a.ratio_ne
  unfold restateAt restatePrice
  split
  · split
    · simp [hratio]
    · exact Iff.rfl
  · exact Iff.rfl

/-- There is a change of the day with the split if there was one without. -/
theorem pctChange_isSome (pickId : String) :
    ((S.withSplit a).pctChange pickId).isSome = (S.pctChange pickId).isSome := by
  unfold pctChange
  rw [lastTwoDays_withSplit]
  rcases S.lastTwoDays pickId with _ | ⟨latest, _ | ⟨prior, rest⟩⟩
  · rfl
  · rfl
  · simp only [List.map_cons, restateAt_eq_zero_iff]
    split <;> rfl

/-- A ratio of two prices on one basis is kept. -/
theorem pctChange_withSplit {pickId : String} (h : pickId ∈ S.stockIds a → DaysTogether S a pickId) :
    (S.withSplit a).pctChange pickId = S.pctChange pickId := by
  have hratio := a.ratio_ne
  unfold pctChange
  rw [lastTwoDays_withSplit]
  rcases hdays : S.lastTwoDays pickId with _ | ⟨⟨d₁, latest⟩, _ | ⟨⟨d₂, prior⟩, rest⟩⟩
  · rfl
  · rfl
  · simp only [List.map_cons, restateAt_eq_zero_iff]
    by_cases hzero : prior = 0
    · rw [if_pos hzero, if_pos hzero]
    rw [if_neg hzero, if_neg hzero]
    by_cases hid : pickId ∈ S.stockIds a
    · have hside : a.exDate ≤ d₁ ↔ a.exDate ≤ d₂ := h hid _ _ _ hdays
      simp only [restateAt, if_pos hid, restatePrice, hside]
      by_cases hd : a.exDate ≤ d₂
      · simp only [if_pos hd]
        congr 1
        field_simp
      · simp only [if_neg hd]
    · simp only [restateAt, if_neg hid]

/-- **Day's change.** -/
theorem dayChange_kept {categoryId : String}
    (h : ∀ p ∈ S.picksOf categoryId, p.status = .opened → ofStock a p = true → p.deployedCapital ≠ 0 →
      DaysTogether S a p.pickId) :
    (S.withSplit a).getCategoryDayChange categoryId = S.getCategoryDayChange categoryId := by
  have hopened := filter_status_withSplit (S := S) (a := a) (fun st => decide (st = .opened))
    (S.picksOf categoryId)
  unfold getCategoryDayChange
  simp only [picksOf_withSplit, hopened, List.filterMap_map, Function.comp_def, restatePick_pickId,
    restatePick_deployedCapital, List.map_filterMap, Option.map_map]
  have hweights : (((S.picksOf categoryId).filter fun p => p.status = .opened).filterMap fun p =>
        ((S.withSplit a).pctChange p.pickId).map fun _ => p.deployedCapital) =
      ((S.picksOf categoryId).filter fun p => p.status = .opened).filterMap fun p =>
        (S.pctChange p.pickId).map fun _ => p.deployedCapital := by
    refine List.filterMap_congr fun p _ => ?_
    have hsome := pctChange_isSome (S := S) (a := a) p.pickId
    cases h₁ : (S.withSplit a).pctChange p.pickId <;>
        cases h₂ : S.pctChange p.pickId <;> simp [h₁, h₂] at hsome ⊢
  have hweighted : (((S.picksOf categoryId).filter fun p => p.status = .opened).filterMap fun p =>
        ((S.withSplit a).pctChange p.pickId).map fun x => x * p.deployedCapital) =
      ((S.picksOf categoryId).filter fun p => p.status = .opened).filterMap fun p =>
        (S.pctChange p.pickId).map fun x => x * p.deployedCapital := by
    refine List.filterMap_congr fun p hp => ?_
    obtain ⟨hmem, hstatus⟩ := List.mem_filter.mp hp
    by_cases hzero : p.deployedCapital = 0
    · -- a pick without capital has no weight
      have hsome := pctChange_isSome (S := S) (a := a) p.pickId
      cases h₁ : (S.withSplit a).pctChange p.pickId <;>
        cases h₂ : S.pctChange p.pickId <;> simp [h₁, h₂, hzero] at hsome ⊢
    · rw [pctChange_withSplit fun hid => h p hmem (of_decide_eq_true hstatus)
        ((mem_stockIds (mem_of_picksOf hmem)).mp hid) hzero]
  rw [hweights, hweighted]

/-! ### `get_category_high_low` -/

/-- All fills of the pick are on the side of the ex-date that all its snapshots are on. -/
structure SameSide (S : MVPStore) (a : CorporateAction) (p : Pick) : Prop where
  /-- The stored quantity. -/
  booked : Booked p (S.getFills p)
  /-- The side. -/
  side : ∀ s ∈ S.snapshotsOf p.pickId, ∀ f ∈ S.getFills p, a.exDate ≤ f.filledOn ↔ a.exDate ≤ s.day

theorem laterQty_of_all {p : Pick} (hbooked : Booked p (S.getFills p))
    (h : ∀ f ∈ S.getFills p, a.exDate ≤ f.filledOn) :
    S.laterQty a p = p.totalQty := by
  rw [laterQty, List.filter_eq_self.mpr fun f hf => decide_eq_true (h f hf), hbooked]

theorem laterQty_of_none {p : Pick} (h : ∀ f ∈ S.getFills p, ¬ a.exDate ≤ f.filledOn) :
    S.laterQty a p = 0 := by
  rw [laterQty, List.filter_eq_nil_iff.mpr fun f hf => by simpa using h f hf]
  rfl

/-- The raw value of a snapshot is kept if the fills are on its side. -/
theorem rawValue_closeOn {p : Pick} (hp : p ∈ S.picks) (h : ofStock a p = true → SameSide S a p) (d : ℕ) :
    (closeOn ((S.withSplit a).snapshotsOf p.pickId) d).map (· * (S.restatePick a p).totalQty) =
      (closeOn (S.snapshotsOf p.pickId) d).map (· * p.totalQty) := by
  have hratio := a.ratio_ne
  rw [closeOn_withSplit, Option.map_map]
  cases hclose : closeOn (S.snapshotsOf p.pickId) d with
  | none => rfl
  | some x =>
    simp only [Option.map_some, Function.comp_apply, restateAt_of_mem hp]
    cases hstock : ofStock a p with
    | false => rw [restatePick_of_not hstock, if_neg Bool.false_ne_true]
    | true =>
      obtain ⟨s, hs, -⟩ := Option.map_eq_some_iff.mp hclose
      obtain ⟨hmem, hday⟩ := List.mem_filter.mp (List.argmax_mem hs)
      obtain rfl : s.day = d := of_decide_eq_true hday
      obtain ⟨hbooked, hside⟩ := h hstock
      rw [restatePick_totalQty hstock, restateQty, if_pos rfl, restatePrice]
      split
      next hd =>
        rw [laterQty_of_all hbooked fun f hf => (hside s hmem f hf).mpr hd]
        congr 1
        field_simp
        ring
      next hd =>
        rw [laterQty_of_none fun f hf hle => hd ((hside s hmem f hf).mp hle), mul_zero, add_zero]

/-- The two walks agree so far. -/
structure Agree (S : MVPStore) (a : CorporateAction) (picks : List Pick) (h h' : HighLow) : Prop where
  /-- On the value of every pick. -/
  value : ∀ p ∈ picks, rawValue h'.lastLtp (S.restatePick a p) = rawValue h.lastLtp p
  /-- On the high. -/
  highPct : h'.highPct = h.highPct
  /-- On the low. -/
  lowPct : h'.lowPct = h.lowPct

theorem forwardFill_agree {picks : List Pick} (hpicks : ∀ p ∈ picks, p ∈ S.picks)
    (hside : ∀ p ∈ picks, ofStock a p = true → SameSide S a p) {h h' : HighLow}
    (hagree : Agree S a picks h h') (d : ℕ)
    {p : Pick} (hp : p ∈ picks) :
    rawValue ((S.withSplit a).forwardFill h'.lastLtp d) (S.restatePick a p) = rawValue
      (S.forwardFill h.lastLtp d) p := by
  have hvalue := hagree.value p hp
  have hclose := rawValue_closeOn (hpicks p hp) (hside p hp) d
  rw [rawValue, rawValue, restatePick_pickId] at hvalue ⊢
  rw [forwardFill, forwardFill, Option.map_or, Option.map_or, hclose, hvalue]

/-- One day. -/
theorem highLowDay_agree {picks : List Pick} (hpicks : ∀ p ∈ picks, p ∈ S.picks)
    (hside : ∀ p ∈ picks, ofStock a p = true → SameSide S a p) {h h' : HighLow}
    (hagree : Agree S a picks h h') (d : ℕ) :
    Agree S a picks (S.highLowDay picks h d)
    ((S.withSplit a).highLowDay (picks.map (S.restatePick a)) h' d) := by
  have hfill : ∀ p ∈ picks, rawValue ((S.withSplit a).forwardFill h'.lastLtp d) (S.restatePick a p) =
      rawValue (S.forwardFill h.lastLtp d) p := fun p hp => forwardFill_agree hpicks hside hagree d hp
  have hsampled : ((picks.map (S.restatePick a)).filterMap fun p =>
        (rawValue ((S.withSplit a).forwardFill h'.lastLtp d) p).map (·, p.deployedCapital)) =
      picks.filterMap fun p => (rawValue (S.forwardFill h.lastLtp d) p).map (·, p.deployedCapital) := by
    rw [List.filterMap_map]
    refine List.filterMap_congr fun p hp => ?_
    rw [Function.comp_apply, hfill p hp, restatePick_deployedCapital]
  unfold highLowDay
  simp only [hsampled]
  split
  · exact ⟨hfill, hagree.highPct, hagree.lowPct⟩
  · refine ⟨hfill, ?_, ?_⟩
    · rw [hagree.highPct]
    · rw [hagree.lowPct]

/-- All days. -/
theorem highLow_agree {picks : List Pick} (hpicks : ∀ p ∈ picks, p ∈ S.picks)
    (hside : ∀ p ∈ picks, ofStock a p = true → SameSide S a p) :
    ∀ (days : List ℕ) {h h' : HighLow}, Agree S a picks h h' →
      Agree S a picks (days.foldl (S.highLowDay picks) h)
        (days.foldl ((S.withSplit a).highLowDay (picks.map (S.restatePick a))) h')
  | [], _, _, hagree => hagree
  | d :: days, _, _, hagree => highLow_agree hpicks hside days (highLowDay_agree hpicks hside hagree d)

theorem categoryDays_withSplit (picks : List Pick) :
    (S.withSplit a).categoryDays (picks.map (S.restatePick a)) = S.categoryDays picks := by
  unfold categoryDays sampledDays
  congr 2
  show (((S.snapshots.map _).filter _).map _) = _
  rw [List.filter_map, List.map_map]
  simp only [Function.comp_def, List.any_map, restatePick_pickId]

/-- **High and low.** -/
theorem highLow_kept {categoryId : String}
    (h : ∀ p ∈ S.picksOf categoryId, ofStock a p = true → SameSide S a p) :
    (S.withSplit a).getCategoryHighLow categoryId = S.getCategoryHighLow categoryId := by
  have hstart : Agree S a (S.picksOf categoryId) HighLow.start HighLow.start := ⟨fun _ _ => rfl, rfl, rfl⟩
  have hagree := highLow_agree (fun p hp => mem_of_picksOf hp) h
    (S.categoryDays (S.picksOf categoryId)) hstart
  unfold getCategoryHighLow
  simp only [picksOf_withSplit, categoryDays_withSplit, hagree.highPct, hagree.lowPct]

/-! ### `compute_category_returns` -/

theorem latestDay_withSplit (pickId : String) : (S.withSplit a).latestDay pickId = S.latestDay pickId := by
  rw [latestDay, latestDay, map_day_withSplit]

/-- The price of the latest snapshot is restated as of its day. -/
theorem latestLtp_withSplit (pickId : String) :
    (S.withSplit a).latestLtp pickId =
      (S.latestDay pickId).bind fun d => (closeOn (S.snapshotsOf pickId).reverse d).map
        (S.restateAt a pickId d) := by
  rw [latestLtp, latestDay_withSplit, snapshotsOf_withSplit, ← List.map_reverse]
  simp only [closeOn_map]

/-- What an open pick of the stock is worth is kept: its quantity is restated, and its latest
snapshot is on today's side of the ex-date. -/
theorem currentValue_withSplit {today : ℕ} {p : Pick} (hp : p ∈ S.picks)
    (h : p.status = .opened → ofStock a p = true → ∀ d, S.latestDay p.pickId = some d →
      QtyKept S a today p ∧ (a.exDate ≤ d ↔ a.exDate ≤ today)) :
    (S.withSplit a).currentValue today (S.restatePick a p) = S.currentValue today p := by
  unfold currentValue
  simp only [restatePick_status, restatePick_deployedCapital, restatePick_realizedPnl, restatePick_pickId,
    latestLtp_withSplit]
  split
  next hopened =>
    rw [latestLtp]
    cases hday : S.latestDay p.pickId with
    | none => rfl
    | some d =>
      simp only [Option.bind_some]
      cases hclose : closeOn (S.snapshotsOf p.pickId).reverse d with
      | none => rfl
      | some x =>
        simp only [Option.map_some, restateAt_of_mem hp]
        cases hstock : ofStock a p with
        | false =>
          rw [restatePick_of_not hstock, getAdjustedPick_withSplit_of_not hp hstock]
          rfl
        | true =>
          obtain ⟨hqty, hside⟩ := h hopened hstock d hday
          have hne := todayRatio_ne a today
          have hprice : restatePrice a d x = x / todayRatio a today := by
            rw [← restatePrice_today, restatePrice, restatePrice]
            simp only [hside]
          rw [adjustedQty_withSplit hp hstock hqty, if_pos rfl, hprice]
          field_simp
  next => rfl

theorem deployedPicks_withSplit : (S.withSplit a).deployedPicks = S.deployedPicks.map
    (S.restatePick a) := by
  show ((S.picks.map _).filter _) = _
  rw [List.filter_map, deployedPicks]
  simp only [Function.comp_def, restatePick_deployedCapital, restatePick_categoryId]

theorem namesOf_withSplit (p : Pick) : (S.withSplit a).namesOf (S.restatePick a p) = S.namesOf p := by
  rw [namesOf, namesOf, restatePick_categoryId]
  rfl

/-- **Returns.** -/
theorem returns_kept {today : ℕ} (h : ∀ p ∈ S.deployedPicks, p.status = .opened → ofStock a p = true →
      ∀ d, S.latestDay p.pickId = some d → QtyKept S a today p ∧ (a.exDate ≤ d ↔ a.exDate ≤ today)) :
    (S.withSplit a).computeCategoryReturns today = S.computeCategoryReturns today := by
  have hkeys : Grouping.keys (S.withSplit a).namesOf (S.deployedPicks.map (S.restatePick a)) =
      Grouping.keys S.namesOf S.deployedPicks := by
    have hnames : S.deployedPicks.map ((S.withSplit a).namesOf ∘ S.restatePick a) =
        S.deployedPicks.map S.namesOf :=
      List.map_congr_left fun p _ => namesOf_withSplit p
    rw [Grouping.keys, Grouping.keys, List.map_map, hnames]
  have hgroup : ∀ names, Grouping.group (S.withSplit a).namesOf
    (S.deployedPicks.map (S.restatePick a)) names =
      (Grouping.group S.namesOf S.deployedPicks names).map (S.restatePick a) := by
    intro names
    rw [Grouping.group, Grouping.group, List.filter_map]
    simp only [Function.comp_def, namesOf_withSplit]
  unfold computeCategoryReturns
  rw [deployedPicks_withSplit, hkeys]
  congr 1
  refine List.map_congr_left fun names _ => ?_
  have hcurrent : ((Grouping.group S.namesOf S.deployedPicks names).map (S.restatePick a)).map
      ((S.withSplit a).currentValue today) =
      (Grouping.group S.namesOf S.deployedPicks names).map (S.currentValue today) := by
    rw [List.map_map]
    refine List.map_congr_left fun p hp => ?_
    have hmem : p ∈ S.deployedPicks := (Grouping.mem_group.mp hp).1
    exact currentValue_withSplit (List.mem_filter.mp hmem).1 (h p hmem)
  unfold categoryReturn
  simp only [hgroup, hcurrent, map_deployed_withSplit, List.length_map]

end Pick

/-! ### All figures -/

/-- The figures of a category, and all category returns, are the same in two stores. -/
structure FiguresKept (S S' : MVPStore) (today : ℕ) (categoryId : String)
    (ltpMap ltpMap' : String → Option ℚ) : Prop where
  /-- `get_category_stats`. -/
  stats : S'.getCategoryStats today categoryId ltpMap' = S.getCategoryStats today categoryId ltpMap
  /-- `get_category_day_change`. -/
  dayChange : S'.getCategoryDayChange categoryId = S.getCategoryDayChange categoryId
  /-- `get_category_high_low`. -/
  highLow : S'.getCategoryHighLow categoryId = S.getCategoryHighLow categoryId
  /-- `compute_category_returns`. -/
  returns : S'.computeCategoryReturns today = S.computeCategoryReturns today

/-- **When no figure mixes price bases.** -/
structure OneBasis (S : MVPStore) (a : CorporateAction) (today : ℕ) (categoryId : String)
    (ltpMap : String → Option ℚ) :
    Prop where
  /-- The symbol of the action is recorded in capitals. -/
  capitals : a.symbol.toUpper = a.symbol
  /-- Open picks with a live price have the symbol in capitals and a quantity that is restated
  exactly. -/
  stats : ∀ p ∈ S.picksOf categoryId, p.status = .opened → ofStock a p = true →
    (liveLtp ltpMap p).isSome = true →
    p.avgCost.isSome = true → p.symbol = a.symbol ∧ QtyKept S a today p
  /-- Open picks with capital have their two latest days on one side of the ex-date. -/
  dayChange : ∀ p ∈ S.picksOf categoryId, p.status = .opened → ofStock a p = true → p.deployedCapital ≠ 0 →
    DaysTogether S a p.pickId
  /-- Picks have their fills on the side of the ex-date that their snapshots are on. -/
  highLow : ∀ p ∈ S.picksOf categoryId, ofStock a p = true → SameSide S a p
  /-- Open picks with capital and a snapshot have a quantity that is restated exactly, and the
  latest snapshot is on today's side of the ex-date. -/
  returns : ∀ p ∈ S.deployedPicks, p.status = .opened → ofStock a p = true →
    ∀ d, S.latestDay p.pickId = some d → QtyKept S a today p ∧ (a.exDate ≤ d ↔ a.exDate ≤ today)

/-- A pick of 10 shares at 90, entered on day 10. -/
def infyPick : Pick where
  pickId := "p1"
  categoryId := some "c1"
  symbol := "INFY"
  instrumentKey := some "NSE_EQ|INFY"
  entryPrice := some 90
  recoPrice := some 88
  pickDate := 10
  targetPrice := some 180
  stopLoss := some 60
  status := .opened
  deployedCapital := 900
  totalQty := 10
  avgCost := some 90
  realizedPnl := 0

/-- The tables with that pick and its snapshots. -/
def infyStore (snapshots : List MVPSnapshot) : MVPStore where
  providers := [⟨"v1", "Provider"⟩]
  categories := [⟨"c1", "v1", "Category"⟩]
  picks := [infyPick]
  tranches := []
  snapshots := snapshots
  corporateActions := []
  pickIds_nodup := by simp

/-- A split of one into two, with ex-date 20. -/
def infySplit : CorporateAction := ⟨"INFY", 20, .split, 2, 1, Nat.two_pos, Nat.one_pos⟩

/-- Live prices. -/
def infyLtp (price : ℚ) (key : String) : Option ℚ := if key = "NSE_EQ|INFY" then some price else none

/-- Without snapshots the ten shares become twenty. -/
theorem qtyKept_infy : QtyKept (infyStore []) infySplit 25 infyPick where
  booked := by
    unfold Booked
    decide +kernel
  before := by
    unfold IsWhole
    decide +kernel
  after := by
    unfold IsWhole
    decide +kernel
  past := fun h => absurd h (by decide)

end MVPStore

end NiftyShield.Mvp
