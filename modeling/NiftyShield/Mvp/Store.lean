import NiftyShield.Mvp.Adjustment
import Mathlib.Data.List.MinMax
import Mathlib.Data.List.Sort

/-!
# Category figures

The tables of `MVPStore` (`src/mvp/store.py`) and the figures it reports of a category: win
rate and return (`get_category_stats`), the day's change (`get_category_day_change`), and the
best and worst return so far (`get_category_high_low`). The first reads the restated picks;
the other two read the raw quantities and snapshots.

## Honest scope

Snapshots are stamped in UTC, as a day and a time of the day. Of two snapshots of one instant
the database may take either; here it is the first. The order of rows without an `ORDER BY`
is that of their insertion, and an `ORDER BY` is left out where the rows are only added or
multiplied. Symbols are ASCII.
-/

namespace NiftyShield.Mvp

/-! ### Tables -/

/-- A row of `mvp_tranches`. -/
structure Tranche where
  /-- The pick. -/
  pickId : String
  /-- Price, once filled. -/
  fillPrice : Option ℚ
  /-- Shares, once filled. -/
  qty : Option ℚ
  /-- The day it was filled. -/
  filledAt : Option ℕ

/-- The fill of a tranche that has been filled. -/
def Tranche.fill (t : Tranche) : Option Fill := do
  let price ← t.fillPrice
  let qty ← t.qty
  let filledOn ← t.filledAt
  some ⟨price, qty, filledOn⟩

/-- A row of `mvp_snapshots`. -/
structure MVPSnapshot where
  /-- The pick. -/
  pickId : String
  /-- Price. -/
  ltp : ℚ
  /-- The day it was captured. -/
  day : ℕ
  /-- The time of the day. -/
  time : ℕ

/-- A row of `mvp_providers`. -/
structure Provider where
  /-- Primary key. -/
  providerId : String
  /-- Name. -/
  displayName : String

/-- A row of `mvp_categories`. -/
structure Category where
  /-- Primary key. -/
  categoryId : String
  /-- Whose it is. -/
  providerId : String
  /-- Name. -/
  displayName : String

/-- The tables. -/
structure MVPStore where
  /-- `mvp_providers`. -/
  providers : List Provider
  /-- `mvp_categories`. -/
  categories : List Category
  /-- `mvp_recommendations`. -/
  picks : List Pick
  /-- `mvp_tranches`. -/
  tranches : List Tranche
  /-- `mvp_snapshots`. -/
  snapshots : List MVPSnapshot
  /-- `mvp_corporate_actions`. -/
  corporateActions : List CorporateAction
  /-- The primary key of the picks. -/
  pickIds_nodup : (picks.map (·.pickId)).Nodup

namespace MVPStore

variable (S : MVPStore)

/-- `add_corporate_action`: refused if the symbol has one of that kind and day. -/
def addCorporateAction (a : CorporateAction) : Option MVPStore :=
  if S.corporateActions.any fun b => b.symbol = a.symbol ∧ b.exDate = a.exDate ∧
    b.actionType = a.actionType then none
  else some { S with corporateActions := S.corporateActions ++ [a] }

/-- `get_corporate_actions` of a symbol. -/
def getCorporateActions (symbol : String) : List CorporateAction :=
  S.corporateActions.filter fun a => a.symbol = symbol.toUpper

/-- `get_pick`. -/
def getPick (pickId : String) : Option Pick := S.picks.find? fun p => p.pickId = pickId

/-- The snapshots of a pick. -/
def snapshotsOf (pickId : String) : List MVPSnapshot := S.snapshots.filter fun s => s.pickId = pickId

/-- The filled tranches of a pick. -/
def trancheFills (pickId : String) : List Fill :=
  (S.tranches.filter fun t => t.pickId = pickId).filterMap Tranche.fill

/-- The one fill of a pick without tranches, on the day of its first snapshot. -/
def lumpFill (pick : Pick) : List Fill :=
  match pick.avgCost with
  | none => []
  | some avgCost =>
    if pick.totalQty = 0 then []
    else [⟨avgCost, pick.totalQty, (((S.snapshotsOf pick.pickId).map (·.day)).min?).getD pick.pickDate⟩]

/-- `get_fills`. -/
def getFills (pick : Pick) : List Fill :=
  if (S.trancheFills pick.pickId).isEmpty then S.lumpFill pick else S.trancheFills pick.pickId

/-- `get_adjusted_pick`. -/
def getAdjustedPick (pick : Pick) (asOf : ℕ) : Pick :=
  adjustedPick pick (S.getCorporateActions pick.symbol) asOf (S.getFills pick)

/-- The picks of a category. -/
def picksOf (categoryId : String) : List Pick := S.picks.filter fun p => p.categoryId = some categoryId

/-! ### `get_category_stats` -/

/-- `CategoryStats`. -/
structure CategoryStats where
  /-- Closed picks. -/
  closedCount : ℕ
  /-- Closed at a profit. -/
  wins : ℕ
  /-- Closed without. -/
  losses : ℕ
  /-- Share of wins. -/
  winRate : Option ℚ
  /-- Average win. -/
  avgWin : ℚ
  /-- Average loss. -/
  avgLoss : ℚ
  /-- Rupees made. -/
  inceptionPnl : ℚ
  /-- Rupees in the open picks. -/
  invested : ℚ
  /-- What they are worth. -/
  current : ℚ
  /-- Return since the first pick, in percent. -/
  inceptionPct : Option ℚ

/-- A closing status. -/
def isTerminal (status : PickStatus) : Bool := status = .targetHit ∨ status = .slHit ∨ status = .manualClose

/-- The live price of a pick. -/
def liveLtp (ltpMap : String → Option ℚ) (pick : Pick) : Option ℚ :=
  match pick.instrumentKey with
  | none => none
  | some key => if key = "" then none else ltpMap key

/-- The quantity of an open pick: restated if its symbol, as stored, has an action. -/
def statsQty (today : ℕ) (pick : Pick) : ℚ :=
  if S.corporateActions.any fun a => a.symbol = pick.symbol then
    match S.getPick pick.pickId with
    | some stored => (S.getAdjustedPick stored today).totalQty
    | none => pick.totalQty
  else pick.totalQty

/-- What an open pick is worth; without a live price, what was spent. -/
def markedValue (today : ℕ) (ltpMap : String → Option ℚ) (pick : Pick) : ℚ :=
  match liveLtp ltpMap pick, pick.avgCost with
  | some ltp, some _ => ltp * S.statsQty today pick
  | _, _ => pick.deployedCapital

/-- `get_category_stats`. -/
def getCategoryStats (today : ℕ) (categoryId : String) (ltpMap : String → Option ℚ) : CategoryStats :=
  let pnls := ((S.picksOf categoryId).filter fun p => isTerminal p.status).map (·.realizedPnl)
  let winsPnls := pnls.filter (0 < ·)
  let lossesPnls := pnls.filter (· ≤ 0)
  let opened := (S.picksOf categoryId).filter fun p => p.status = .opened
  let totalDeployed := ((S.picksOf categoryId).map (·.deployedCapital)).sum
  let invested := (opened.map (·.deployedCapital)).sum
  let current := (opened.map (S.markedValue today ltpMap)).sum
  { closedCount := pnls.length
    wins := winsPnls.length
    losses := lossesPnls.length
    winRate := if pnls.length = 0 then none else some (winsPnls.length / pnls.length)
    avgWin := if winsPnls.length = 0 then 0 else winsPnls.sum / winsPnls.length
    avgLoss := if lossesPnls.length = 0 then 0 else lossesPnls.sum / lossesPnls.length
    inceptionPnl := pnls.sum
    invested
    current
    inceptionPct := if totalDeployed = 0 then none
      else some ((pnls.sum + (current - invested)) / totalDeployed * 100) }

/-! ### `get_category_day_change` -/

/-- The days of some snapshots, in order. -/
def sampledDays (snapshots : List MVPSnapshot) : List ℕ :=
  (snapshots.map (·.day)).dedup.insertionSort (· ≤ ·)

/-- The last price of a day. -/
def closeOn (snapshots : List MVPSnapshot) (day : ℕ) : Option ℚ :=
  ((snapshots.filter fun s => s.day = day).argmax (·.time)).map (·.ltp)

/-- The last price of the two latest days of a pick, with the days. -/
def lastTwoDays (pickId : String) : List (ℕ × ℚ) :=
  ((sampledDays (S.snapshotsOf pickId)).reverse.take 2).filterMap fun d =>
    (closeOn (S.snapshotsOf pickId) d).map (d, ·)

/-- From the day before to the latest, in percent. -/
def pctChange (pickId : String) : Option ℚ :=
  match S.lastTwoDays pickId with
  | (_, latest) :: (_, prior) :: _ => if prior = 0 then none else some ((latest - prior) / prior * 100)
  | _ => none

/-- `get_category_day_change`: weighted by the rupees spent. -/
def getCategoryDayChange (categoryId : String) : Option ℚ :=
  let opened := (S.picksOf categoryId).filter fun p => p.status = .opened
  let changes := opened.filterMap fun p => (S.pctChange p.pickId).map (·, p.deployedCapital)
  let totalWeight := (changes.map Prod.snd).sum
  if totalWeight = 0 then none else some ((changes.map fun c => c.1 * c.2).sum / totalWeight)

/-! ### `get_category_high_low` -/

/-- The state of the walk over the days. -/
structure HighLow where
  /-- The last price of each pick. -/
  lastLtp : String → Option ℚ
  /-- Best return so far. -/
  highPct : Option ℚ
  /-- Worst return so far. -/
  lowPct : Option ℚ

/-- The start of the walk. -/
def HighLow.start : HighLow := ⟨fun _ => none, none, none⟩

/-- The last prices after a day. -/
def forwardFill (last : String → Option ℚ) (day : ℕ) (pickId : String) : Option ℚ :=
  (closeOn (S.snapshotsOf pickId) day).or (last pickId)

/-- The value of the raw quantity of a pick at its last price. -/
def rawValue (last : String → Option ℚ) (pick : Pick) : Option ℚ :=
  (last pick.pickId).map (· * pick.totalQty)

/-- One day of the walk. -/
def highLowDay (picks : List Pick) (h : HighLow) (day : ℕ) : HighLow :=
  let last := S.forwardFill h.lastLtp day
  let sampled := picks.filterMap fun p => (rawValue last p).map (·, p.deployedCapital)
  let invested := (sampled.map Prod.snd).sum
  let current := (sampled.map Prod.fst).sum
  if invested = 0 then { h with lastLtp := last }
  else
    let pct := (current - invested) / invested * 100
    { lastLtp := last
      highPct := some (h.highPct.elim pct fun high => max high pct)
      lowPct := some (h.lowPct.elim pct fun low => min low pct) }

/-- The days on which a pick of the list was sampled, in order. -/
def categoryDays (picks : List Pick) : List ℕ :=
  sampledDays (S.snapshots.filter fun s => picks.any fun p => p.pickId = s.pickId)

/-- `get_category_high_low`. -/
def getCategoryHighLow (categoryId : String) : Option (ℚ × ℚ) :=
  let picks := S.picksOf categoryId
  let h := (S.categoryDays picks).foldl (S.highLowDay picks) HighLow.start
  match h.highPct, h.lowPct with
  | some high, some low => some (high, low)
  | _, _ => none

end MVPStore

end NiftyShield.Mvp
