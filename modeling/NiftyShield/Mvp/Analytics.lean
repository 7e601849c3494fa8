import NiftyShield.Lib.Grouping
import NiftyShield.Mvp.Store

/-!
# Category returns

`compute_category_returns` (`src/mvp/analytics.py`): realized and unrealized return of every
category. An open pick is worth its restated quantity at the price of its latest snapshot,
whatever the day of that.
-/

namespace NiftyShield.Mvp

open NiftyShield.Lib

namespace MVPStore

variable (S : MVPStore)

/-- `CategoryReturn`. -/
structure CategoryReturn where
  /-- Provider. -/
  provider : String
  /-- Category. -/
  category : String
  /-- Picks with capital. -/
  nPicks : ℕ
  /-- Rupees spent. -/
  deployed : ℚ
  /-- What they are worth. -/
  currentValue : ℚ
  /-- Return in percent. -/
  totalReturnPct : Option ℚ

/-- The day of the latest snapshots of a pick. -/
def latestDay (pickId : String) : Option ℕ := ((S.snapshotsOf pickId).map (·.day)).max?

/-- `_latest_ltp_by_pick`: of two snapshots of one instant the later row. -/
def latestLtp (pickId : String) : Option ℚ :=
  (S.latestDay pickId).bind fun d => closeOn (S.snapshotsOf pickId).reverse d

/-- The names of a category and its provider. -/
def categoryMap (categoryId : String) : String × String :=
  match (S.providers.flatMap fun pr => (S.categories.filter fun c =>
    c.providerId = pr.providerId).map (pr, ·)).find?
      fun e => e.2.categoryId = categoryId with
  | some (provider, category) => (provider.displayName, category.displayName)
  | none => ("-", "-")

/-- The picks with capital and a category. -/
def deployedPicks : List Pick := S.picks.filter fun p => p.deployedCapital ≠ 0 ∧ p.categoryId ≠ none

/-- What a pick is worth; an open one without a snapshot, what was spent. -/
def currentValue (today : ℕ) (pick : Pick) : ℚ :=
  if pick.status = .opened then
    match S.latestLtp pick.pickId with
    | some ltp => ltp * (S.getAdjustedPick pick today).totalQty
    | none => pick.deployedCapital
  else pick.deployedCapital + pick.realizedPnl

/-- The figures of one group. -/
def categoryReturn (today : ℕ) (names : String × String) (picks : List Pick) : CategoryReturn :=
  let deployed := (picks.map (·.deployedCapital)).sum
  let current := (picks.map (S.currentValue today)).sum
  { provider := names.1
    category := names.2
    nPicks := picks.length
    deployed
    currentValue := current
    totalReturnPct := if deployed = 0 then none else some ((current - deployed) / deployed * 100) }

/-- By return, the best first; without one last. -/
def returnsBefore (r s : CategoryReturn) : Bool :=
  match r.totalReturnPct, s.totalReturnPct with
  | some x, some y => y ≤ x
  | some _, none => true
  | none, some _ => false
  | none, none => true

/-- The group of a pick. -/
def namesOf (pick : Pick) : String × String := S.categoryMap (pick.categoryId.getD "")

/-- `compute_category_returns`. -/
def computeCategoryReturns (today : ℕ) : List CategoryReturn :=
  ((Grouping.keys S.namesOf S.deployedPicks).map fun names =>
    S.categoryReturn today names (Grouping.group S.namesOf S.deployedPicks names)).mergeSort returnsBefore

end MVPStore

end NiftyShield.Mvp
