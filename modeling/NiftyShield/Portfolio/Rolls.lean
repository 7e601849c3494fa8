import NiftyShield.Lib.Selection
import NiftyShield.Portfolio.Store
import Mathlib.Data.List.Pairwise
import Mathlib.Data.String.Basic

/-!
# Rolls and the readers of the live ledger

The live ledger (`src/portfolio/store.py`) has two readers of positions: `get_position` adds up
the trades of one leg by date, `get_all_positions_for_strategy` those of every leg by row id. A
leg is rolled by `record_roll`, which writes two trades in one transaction, each of them with
`ON CONFLICT DO NOTHING`.

## What is proved

* `readers_agree_iff`: the quantities and prices of the two readers are the same, since a sum
  does not depend on the order. The instruments are the same if and only if the trade recorded
  last and the trade dated last name one instrument, so that a back-dated trade of another
  instrument tells the readers apart.
* `recordRoll_all_or_nothing_iff`: the unique key of a trade leaves out instrument, quantity and
  price, and a trade whose key is taken is skipped. So a roll is all or nothing if and only if
  it raises, or both its trades are skipped, or the ledger has nothing else under their keys.
-/

namespace NiftyShield.Portfolio

open NiftyShield.Lib

/-- The columns of a trade that a reader of positions reads. -/
def Trade.figures (t : Trade) : (String × String × Date × TradeAction) × String × ℕ × ℚ :=
  (t.uniqueKey, t.instrumentKey, t.quantity, t.price)

theorem Trade.uniqueKey_of_figures {t u : Trade} (h : t.figures = u.figures) : t.uniqueKey = u.uniqueKey :=
  congrArg Prod.fst h

theorem bookOf_perm {ts us : List Trade} (h : ts.Perm us) : bookOf ts = bookOf us := (h.map Trade.book).sum_eq

namespace LiveTrades

/-! ### Two readers -/

/-- The trades of a leg role, in the order they were recorded. -/
def tradesOf (T : LiveTrades) (strategyName legRole : String) : List Trade :=
  T.rows.filter fun t => t.strategyName = strategyName && t.legRole = legRole

/-- `get_trades`: `ORDER BY trade_date, id`. -/
def getTrades (T : LiveTrades) (strategyName : String) (legRole : Option String) : List Trade :=
  (T.rows.filter fun t => t.strategyName = strategyName && legRole.all fun role => t.legRole = role).insertionSort
    fun t u => t.tradeDate ≤ u.tradeDate

/-- `get_position`. The instrument of a leg without trades is `None` in the source and `""` here,
which no trade has. -/
def getPosition (T : LiveTrades) (strategyName legRole : String) : Position :=
  let trades := T.getTrades strategyName (some legRole)
  if trades = [] then
    { strategyName
      legRole
      instrumentKey := ""
      quantity := 0
      averagePrice := 0
      realizedPnl := 0
      averagePrice_nonneg := le_rfl }
  else legPosition strategyName legRole trades

/-- The trade dated last: of those of one day, the one recorded last. -/
def DatedLast (ts : List Trade) (t : Trade) : Prop :=
  ∃ before after, ts = before ++ t :: after ∧ (∀ u ∈ before, u.tradeDate ≤ t.tradeDate) ∧
    ∀ u ∈ after, u.tradeDate < t.tradeDate

variable (T : LiveTrades) (strategyName legRole : String)

/-- The rows that the query over all legs groups under a role are its trades, in id order. -/
theorem legRows_eq : T.legRows strategyName legRole = T.tradesOf strategyName legRole := by
  have hsorted : (T.tradesOf strategyName legRole).Pairwise fun t u => t.legRole ≤ u.legRole := by
    refine List.pairwise_of_forall_mem_list fun t ht u hu => le_of_eq ?_
    simp only [tradesOf, List.mem_filter, Bool.and_eq_true, decide_eq_true_eq] at ht hu
    rw [ht.2.2, hu.2.2]
  have hfilter : (T.rows.filter fun t => t.strategyName = strategyName).filter (fun t => t.legRole = legRole) =
      T.tradesOf strategyName legRole := by
    rw [List.filter_filter, tradesOf]
    exact List.filter_congr fun t _ => Bool.and_comm _ _
  have : IsTrans Trade fun t u => t.legRole ≤ u.legRole := ⟨fun _ _ _ => le_trans⟩
  have : Std.Total fun t u : Trade => t.legRole ≤ u.legRole := ⟨fun _ _ => le_total _ _⟩
  rw [legRows, Grouping.group, strategyRows, Selection.filter_insertionSort, hfilter, hsorted.insertionSort_eq]

theorem getTrades_eq : T.getTrades strategyName (some legRole) =
    (T.tradesOf strategyName legRole).insertionSort fun t u => t.tradeDate ≤ u.tradeDate := rfl

theorem getTrades_perm : (T.getTrades strategyName (some legRole)).Perm (T.tradesOf strategyName legRole) :=
  List.perm_insertionSort _ _

variable {T strategyName legRole}

/-- A role with trades has a position. -/
theorem get?_getAllPositions (h : T.tradesOf strategyName legRole ≠ []) :
    (T.getAllPositionsForStrategy strategyName).get? legRole =
      some (legPosition strategyName legRole (T.tradesOf strategyName legRole)) := by
  rw [← Dict.mem_entries_iff, ← legRows_eq]
  refine List.mem_map.mpr ⟨legRole, ?_, rfl⟩
  by_contra hrole
  rw [← legRows_eq] at h
  exact h (Grouping.group_eq_nil_of_not_mem hrole)

theorem getTrades_ne_nil (h : T.tradesOf strategyName legRole ≠ []) :
    T.getTrades strategyName (some legRole) ≠ [] := fun hnil => by
  have hperm := T.getTrades_perm strategyName legRole
  rw [hnil] at hperm
  exact h (List.nil_perm.mp hperm)

theorem getPosition_eq (h : T.tradesOf strategyName legRole ≠ []) : T.getPosition strategyName legRole =
    legPosition strategyName legRole (T.getTrades strategyName (some legRole)) :=
  if_neg (getTrades_ne_nil h)

/-- Two lists of the same trades give positions that differ in the instrument only. -/
theorem legPosition_eq_iff {ts us : List Trade} (h : ts.Perm us) :
    legPosition strategyName legRole ts = legPosition strategyName legRole us ↔
      (ts.getLast?.map (·.instrumentKey)).getD "" = (us.getLast?.map (·.instrumentKey)).getD "" := by
  have hbook := bookOf_perm h
  constructor
  · intro heq
    exact congrArg Position.instrumentKey heq
  · intro hkey
    simp only [legPosition, legTotals_eq, weightedAvgAndRealized_eq, hbook, hkey]

variable (T strategyName legRole)

/-- **The readers agree on a leg** if and only if the trade recorded last and the trade dated
last are of one instrument. -/
theorem readers_agree_iff :
    (T.tradesOf strategyName legRole ≠ [] →
      (T.getAllPositionsForStrategy strategyName).get? legRole = some (T.getPosition strategyName legRole)) ↔
    ∀ t u, (T.tradesOf strategyName legRole).getLast? = some t → DatedLast (T.tradesOf strategyName legRole) u →
      t.instrumentKey = u.instrumentKey := by
  by_cases hne : T.tradesOf strategyName legRole = []
  · simp [hne]
  have ht := List.getLast?_eq_some_getLast hne
  have hu := List.getLast?_eq_some_getLast (getTrades_ne_nil hne)
  generalize (T.tradesOf strategyName legRole).getLast hne = t at ht
  generalize (T.getTrades strategyName (some legRole)).getLast (getTrades_ne_nil hne) = u at hu
  have hlast : ∀ v, DatedLast (T.tradesOf strategyName legRole) v ↔ u = v := fun v => by
    rw [DatedLast, ← Selection.getLast?_insertionSort_iff, ← getTrades_eq, hu, Option.some.injEq]
  rw [get?_getAllPositions hne, getPosition_eq hne, Option.some.injEq, legPosition_eq_iff (T.getTrades_perm _ _).symm,
    ht, hu, imp_iff_right hne]
  constructor
  · rintro hkey v w hv hw
    obtain rfl := Option.some.inj hv
    obtain rfl := (hlast w).mp hw
    exact hkey
  · intro hkey
    exact hkey t u rfl ((hlast u).mpr rfl)

/-! ### A back-dated trade -/

/-- A call is sold. -/
def oldCallSold : Trade where
  strategyName := "finideas_ilts"
  legRole := "NIFTY_CALL"
  instrumentKey := "NSE_FO|58700"
  tradeDate := 739266
  action := .sell
  quantity := 65
  price := 100
  strategyName_ne := finideas_ne
  legRole_ne := by decide
  instrumentKey_ne := by decide
  quantity_pos := lot_pos
  price_pos := by norm_num

/-- The next call is sold. -/
def newCallSold : Trade :=
  { oldCallSold with instrumentKey := "NSE_FO|58800", tradeDate := 739296, instrumentKey_ne := by decide }

/-- The first call was bought back the day before. -/
def oldCallBought : Trade := { oldCallSold with tradeDate := 739295, action := .buy }

/-- The purchase is recorded late. -/
def backDatedLedger : LiveTrades :=
  ((empty.recordTrade oldCallSold).recordTrade newCallSold).recordTrade oldCallBought

/-- The call that is open is the new one by date and the old one by row id. -/
theorem readers_disagree :
    ¬ ∀ (T : LiveTrades) (strategyName legRole : String), T.tradesOf strategyName legRole ≠ [] →
      (T.getAllPositionsForStrategy strategyName).get? legRole = some (T.getPosition strategyName legRole) :=
  fun h => absurd (h backDatedLedger "finideas_ilts" "NIFTY_CALL" (by decide +kernel)) (by decide +kernel)

/-! ### Rolls -/

/-- An INSERT of a transaction; `none` is an exception. -/
def insertTrade (raises : Bool) (T : LiveTrades) (t : Trade) : Option LiveTrades :=
  if raises then none else some (T.recordTrade t)

/-- `record_roll`, by which of the two INSERTs raise: `_connect` rolls back if one does. -/
def recordRoll (T : LiveTrades) (raises : Bool × Bool) (closeTrade openTrade : Trade) : LiveTrades :=
  ((insertTrade raises.1 T closeTrade).bind fun U => insertTrade raises.2 U openTrade).getD T

/-- A row counts for a trade in `get_all_positions_for_strategy`: it is one of the rows added up
for the leg, with the trade's direction and date, instrument, quantity and price. -/
structure CountsFor (T : LiveTrades) (r t : Trade) : Prop where
  /-- The row is read. -/
  mem : r ∈ T.legRows t.strategyName t.legRole
  /-- It has the figures of the trade. -/
  figures : r.figures = t.figures

/-- After the roll both trades are in the ledger or it is unchanged, and once the roll has
returned, repeating it changes nothing. -/
def AllOrNothing (T : LiveTrades) (raises : Bool × Bool) (closeTrade openTrade : Trade) : Prop :=
  let U := T.recordRoll raises closeTrade openTrade
  ((∃ r q, U.CountsFor r closeTrade ∧ U.CountsFor q openTrade ∧ r ≠ q) ∨ U = T) ∧
    (raises = (false, false) → ∀ again, U.recordRoll again closeTrade openTrade = U)

/-- The key of a trade is taken. -/
def Taken (T : LiveTrades) (t : Trade) : Prop := ∃ r ∈ T.rows, r.uniqueKey = t.uniqueKey

/-- The ledger has nothing else under the key of a trade. -/
def Admits (T : LiveTrades) (t : Trade) : Prop := ∀ r ∈ T.rows, r.uniqueKey = t.uniqueKey → r.figures = t.figures

section Rolls

variable {T : LiveTrades} {t u r : Trade}

theorem eq_of_uniqueKey (hr : r ∈ T.rows) (ht : t ∈ T.rows) (h : r.uniqueKey = t.uniqueKey) : r = t := by
  have : Std.Symm fun t u : Trade => t.uniqueKey ≠ u.uniqueKey := ⟨fun _ _ => Ne.symm⟩
  by_contra hne
  exact T.keys_unique.forall hr ht hne h

theorem recordTrade_of_taken (h : T.Taken t) : T.recordTrade t = T := by
  obtain ⟨r, hr, hkey⟩ := h
  exact dif_neg fun hfree => hfree r hr hkey

theorem rows_recordTrade_of_free (h : ¬ T.Taken t) : (T.recordTrade t).rows = T.rows ++ [t] := by
  have hfree : ∀ u ∈ T.rows, u.uniqueKey ≠ t.uniqueKey := fun u hu hkey => h ⟨u, hu, hkey⟩
  rw [recordTrade, dif_pos hfree]

theorem mem_recordTrade : r ∈ (T.recordTrade t).rows ↔ r ∈ T.rows ∨ ¬ T.Taken t ∧ r = t := by
  by_cases h : T.Taken t
  · rw [recordTrade_of_taken h]
    simp [h]
  · rw [rows_recordTrade_of_free h, List.mem_append, List.mem_singleton]
    simp [h]

theorem taken_recordTrade : (T.recordTrade t).Taken u ↔ T.Taken u ∨ t.uniqueKey = u.uniqueKey := by
  constructor
  · rintro ⟨r, hr, hkey⟩
    rcases mem_recordTrade.mp hr with hr | ⟨-, rfl⟩
    · exact Or.inl ⟨r, hr, hkey⟩
    · exact Or.inr hkey
  · rintro (⟨r, hr, hkey⟩ | hkey)
    · exact ⟨r, mem_recordTrade.mpr (Or.inl hr), hkey⟩
    · by_cases h : T.Taken t
      · obtain ⟨r, hr, htaken⟩ := h
        exact ⟨r, mem_recordTrade.mpr (Or.inl hr), htaken.trans hkey⟩
      · exact ⟨t, mem_recordTrade.mpr (Or.inr ⟨h, rfl⟩), hkey⟩

/-- After an INSERT the ledger has a row with the trade's figures if it had no other row under
its key. -/
theorem exists_figures_recordTrade : (∃ r ∈ (T.recordTrade t).rows, r.figures = t.figures) ↔ T.Admits t := by
  constructor
  · rintro ⟨r, hr, hfig⟩ v hv hkey
    rcases mem_recordTrade.mp hr with hr | ⟨hfree, -⟩
    · rw [eq_of_uniqueKey hv hr (hkey.trans (Trade.uniqueKey_of_figures hfig).symm), hfig]
    · exact absurd ⟨v, hv, hkey⟩ hfree
  · intro hadmits
    by_cases h : T.Taken t
    · obtain ⟨r, hr, hkey⟩ := h
      exact ⟨r, mem_recordTrade.mpr (Or.inl hr), hadmits r hr hkey⟩
    · exact ⟨t, mem_recordTrade.mpr (Or.inr ⟨h, rfl⟩), rfl⟩

/-- An INSERT under another key does not matter to a trade. -/
theorem admits_recordTrade (h : u.uniqueKey ≠ t.uniqueKey) : (T.recordTrade u).Admits t ↔ T.Admits t := by
  refine forall_congr' fun r => ?_
  rw [mem_recordTrade]
  constructor
  · exact fun hadmits hr => hadmits (Or.inl hr)
  · rintro hadmits (hr | ⟨-, rfl⟩) hkey
    · exact hadmits hr hkey
    · exact absurd hkey h

theorem exists_figures_recordTrade_of_ne (h : u.uniqueKey ≠ t.uniqueKey) :
    (∃ r ∈ (T.recordTrade u).rows, r.figures = t.figures) ↔ ∃ r ∈ T.rows, r.figures = t.figures := by
  constructor
  · rintro ⟨r, hr, hfig⟩
    rcases mem_recordTrade.mp hr with hr | ⟨-, rfl⟩
    · exact ⟨r, hr, hfig⟩
    · exact absurd (Trade.uniqueKey_of_figures hfig) h
  · rintro ⟨r, hr, hfig⟩
    exact ⟨r, mem_recordTrade.mpr (Or.inl hr), hfig⟩

/-- The reader of all legs reads every row of the ledger under its leg. -/
theorem countsFor_iff : T.CountsFor r t ↔ r ∈ T.rows ∧ r.figures = t.figures := by
  constructor
  · rintro ⟨hmem, hfig⟩
    rw [legRows_eq] at hmem
    exact ⟨List.mem_of_mem_filter hmem, hfig⟩
  · rintro ⟨hmem, hfig⟩
    refine ⟨?_, hfig⟩
    obtain ⟨hstrategy, hrole, -⟩ := Prod.mk.inj (Trade.uniqueKey_of_figures hfig) |>.imp_right Prod.mk.inj
    rw [legRows_eq, tradesOf, List.mem_filter]
    simp [hmem, hstrategy, hrole]

variable {closeTrade openTrade : Trade} {raises : Bool × Bool}

theorem recordRoll_of_raises (h : raises ≠ (false, false)) : T.recordRoll raises closeTrade openTrade = T := by
  obtain ⟨a, b⟩ := raises
  cases a with
  | true => rfl
  | false =>
    cases b with
    | true => rfl
    | false => exact absurd rfl h

theorem recordRoll_returned :
    T.recordRoll (false, false) closeTrade openTrade = (T.recordTrade closeTrade).recordTrade openTrade := rfl

/-- Both keys are taken once the roll has returned, and it changes nothing any more. -/
theorem recordRoll_eq_self_iff :
    T.recordRoll (false, false) closeTrade openTrade = T ↔ T.Taken closeTrade ∧ T.Taken openTrade := by
  rw [recordRoll_returned]
  constructor
  · intro h
    have hopen : ((T.recordTrade closeTrade).recordTrade openTrade).Taken openTrade :=
      taken_recordTrade.mpr (Or.inr rfl)
    have hclose : ((T.recordTrade closeTrade).recordTrade openTrade).Taken closeTrade :=
      taken_recordTrade.mpr (Or.inl (taken_recordTrade.mpr (Or.inr rfl)))
    rw [h] at hopen hclose
    exact ⟨hclose, hopen⟩
  · rintro ⟨hclose, hopen⟩
    rw [recordTrade_of_taken hclose, recordTrade_of_taken hopen]

theorem recordRoll_again (again : Bool × Bool) :
    (T.recordRoll (false, false) closeTrade openTrade).recordRoll again closeTrade openTrade =
      T.recordRoll (false, false) closeTrade openTrade := by
  by_cases hagain : again = (false, false)
  · rw [hagain, recordRoll_eq_self_iff, recordRoll_returned, taken_recordTrade, taken_recordTrade, taken_recordTrade]
    exact ⟨Or.inl (Or.inr rfl), Or.inr rfl⟩
  · exact recordRoll_of_raises hagain

/-- Both trades are counted if they have different keys and the ledger admits both. -/
theorem bothCounted_iff :
    (∃ r q, (T.recordRoll (false, false) closeTrade openTrade).CountsFor r closeTrade ∧
      (T.recordRoll (false, false) closeTrade openTrade).CountsFor q openTrade ∧ r ≠ q) ↔
    closeTrade.uniqueKey ≠ openTrade.uniqueKey ∧ T.Admits closeTrade ∧ T.Admits openTrade := by
  simp only [countsFor_iff, recordRoll_returned]
  constructor
  · rintro ⟨r, q, ⟨hr, hrfig⟩, ⟨hq, hqfig⟩, hne⟩
    have hkeys : closeTrade.uniqueKey ≠ openTrade.uniqueKey := fun hkey => hne (eq_of_uniqueKey hr hq (by
      rw [Trade.uniqueKey_of_figures hrfig, Trade.uniqueKey_of_figures hqfig, hkey]))
    refine ⟨hkeys, ?_, (admits_recordTrade hkeys).mp (exists_figures_recordTrade.mp ⟨q, hq, hqfig⟩)⟩
    exact exists_figures_recordTrade.mp ((exists_figures_recordTrade_of_ne hkeys.symm).mp ⟨r, hr, hrfig⟩)
  · rintro ⟨hkeys, hclose, hopen⟩
    obtain ⟨r, hr, hrfig⟩ :=
      (exists_figures_recordTrade_of_ne hkeys.symm).mpr (exists_figures_recordTrade.mpr hclose)
    obtain ⟨q, hq, hqfig⟩ := exists_figures_recordTrade.mpr ((admits_recordTrade hkeys).mpr hopen)
    refine ⟨r, q, ⟨hr, hrfig⟩, ⟨hq, hqfig⟩, fun heq => hkeys ?_⟩
    rw [← Trade.uniqueKey_of_figures hrfig, ← Trade.uniqueKey_of_figures hqfig, heq]

end Rolls

/-- **Rolls are all or nothing** if and only if the transaction raises, or the keys of both
trades are taken, or they are two keys and the ledger has nothing else under either. -/
theorem recordRoll_all_or_nothing_iff (T : LiveTrades) (raises : Bool × Bool) (closeTrade openTrade : Trade) :
    T.AllOrNothing raises closeTrade openTrade ↔
      raises ≠ (false, false) ∨ (T.Taken closeTrade ∧ T.Taken openTrade) ∨
        (closeTrade.uniqueKey ≠ openTrade.uniqueKey ∧ T.Admits closeTrade ∧ T.Admits openTrade) := by
  by_cases hraises : raises = (false, false)
  · subst hraises
    rw [AllOrNothing, bothCounted_iff, recordRoll_eq_self_iff, or_comm, and_iff_left fun _ again => recordRoll_again again]
    simp
  · rw [AllOrNothing, recordRoll_of_raises hraises]
    simp [hraises]

/-- A call that was sold is to be rolled on the day of its sale: the sale of the new call is
skipped, since the key of the old one is taken. -/
theorem recordRoll_half :
    ¬ ∀ (T : LiveTrades) (raises : Bool × Bool) (closeTrade openTrade : Trade),
      T.AllOrNothing raises closeTrade openTrade := by
  intro h
  have hroll := (h (empty.recordTrade oldCallSold) (false, false) { oldCallSold with action := .buy }
    { oldCallSold with instrumentKey := "NSE_FO|58800", instrumentKey_ne := by decide }).1
  rcases hroll with hcounted | hsame
  · obtain ⟨-, -, hadmits⟩ := bothCounted_iff.mp hcounted
    exact absurd (hadmits oldCallSold (by decide +kernel) rfl) (by decide)
  · obtain ⟨r, hr, hkey⟩ := (recordRoll_eq_self_iff.mp hsame).1
    obtain rfl : r = oldCallSold := by simpa [empty, recordTrade] using hr
    exact absurd hkey (by decide)

end LiveTrades

end NiftyShield.Portfolio
