import NiftyShield.Portfolio.Store
import Mathlib.Algebra.BigOperators.Ring.List

/-!
# The trade overlay of the live portfolio

`apply_trade_positions` (`src/portfolio/tracker.py`) replaces the quantity and entry price
of a strategy's legs by those of the trades ledger. A leg's own P&L formula then turns the
sign by the direction the leg was defined with, although the ledger's quantity is signed
already; an average price is that of the purchases as soon as there is one; and of two
roles that trade a leg's instrument only the last is looked at.

## What is proved

`tradedPnl_eq` says what the overlaid legs report, position by position, and
`overlay_is_cash_iff` that the total is cash plus market value exactly when the errors of
the leg roles (`overlayError`) cancel; `overlayError_eq_zero` names the legs without error.
-/

namespace NiftyShield.Portfolio

open NiftyShield.Lib

/-! ### The overlay -/

/-- A leg with the ledger's position; `none` if that is fully closed. -/
def overlayLeg (byInstrumentKey : Dict String Position) (leg : Leg) : Option Leg :=
  match byInstrumentKey.get? leg.instrumentKey with
  | some pos =>
    if pos.quantity = 0 then none else some { leg with quantity := pos.quantity, entryPrice := pos.averagePrice }
  | none => some leg

/-- The leg appended for a position the strategy has no leg for. -/
def appendedLeg (entryDate : Date) (legRole : String) (pos : Position) : Leg where
  instrumentKey := pos.instrumentKey
  displayName := legRole
  assetType := .equity
  direction := .buy
  quantity := pos.quantity
  lotSize := 1
  entryPrice := pos.averagePrice
  entryDate := entryDate
  productType := .cnc

/-- `apply_trade_positions`. -/
def applyTradePositions (strategy : Strategy) (positions : Dict String Position) (today : Date) : Strategy :=
  let byInstrumentKey := Dict.index Position.instrumentKey positions.values
  let matchedKeys := (strategy.legs.map (·.instrumentKey)).filter fun k => (byInstrumentKey.get? k).isSome
  let entryDate := (strategy.legs.head?.map (·.entryDate)).getD today
  let appended := positions.entries.filterMap fun (legRole, pos) =>
    if pos.instrumentKey ∈ matchedKeys then none
    else if pos.quantity = 0 then none
    else some (appendedLeg entryDate legRole pos)
  { strategy with
    legs := strategy.legs.filterMap (overlayLeg byInstrumentKey) ++ appended
    realizedPnl := (positions.values.map (·.realizedPnl)).sum }

/-- The P&L of the legs whose instrument the ledger has traded. -/
def tradedPnl (positions : Dict String Position) (ltp : String → ℚ) (legs : List Leg) : ℚ :=
  ((legs.filter fun leg => leg.instrumentKey ∈ positions.values.map (·.instrumentKey)).map
    fun leg => leg.pnl (ltp leg.instrumentKey)).sum

/-! ### What the overlaid legs report -/

/-- The strategy's leg on an instrument. -/
def legOn (legs : List Leg) (key : String) : Option Leg := legs.find? fun leg => leg.instrumentKey = key

/-- The position the overlay uses for an instrument: the last one. -/
def usedPosition (ps : List Position) (key : String) : Option Position :=
  (Grouping.group Position.instrumentKey ps key).getLast?

/-- The P&L a leg reports with the quantity and price of a position. -/
def overlaidPnl (leg : Leg) (pos : Position) (price : ℚ) : ℚ :=
  Leg.pnl { leg with quantity := pos.quantity, entryPrice := pos.averagePrice } price

/-- The P&L reported for a position. -/
def reportedPnl (legs : List Leg) (ps : List Position) (ltp : String → ℚ) (pos : Position) : ℚ :=
  match legOn legs pos.instrumentKey with
  | none => (ltp pos.instrumentKey - pos.averagePrice) * pos.quantity
  | some leg =>
    if usedPosition ps pos.instrumentKey = some pos then overlaidPnl leg pos (ltp pos.instrumentKey) else 0

theorem overlaidPnl_of_flat (leg : Leg) {pos : Position} (price : ℚ) (h : pos.quantity = 0) :
    overlaidPnl leg pos price = 0 := by
  unfold overlaidPnl Leg.pnl
  cases leg.direction <;> simp [h]

theorem usedPosition_isSome_iff {ps : List Position} {key : String} :
    (usedPosition ps key).isSome = true ↔ key ∈ ps.map (·.instrumentKey) := by
  rw [usedPosition, List.getLast?_isSome, ne_eq, List.eq_nil_iff_forall_not_mem, not_forall]
  simp [Grouping.mem_group, eq_comm]

theorem tradedPnl_append (positions : Dict String Position) (ltp : String → ℚ) (l m : List Leg) :
    tradedPnl positions ltp (l ++ m) = tradedPnl positions ltp l + tradedPnl positions ltp m := by
  simp [tradedPnl]

/-- The matched legs report the used positions. -/
theorem matched_pnl (positions : Dict String Position) (ltp : String → ℚ) : ∀ legs : List Leg,
    tradedPnl positions ltp (legs.filterMap
      (overlayLeg (Dict.index Position.instrumentKey positions.values))) =
      (legs.map fun leg => ((usedPosition positions.values leg.instrumentKey).map fun pos =>
        overlaidPnl leg pos (ltp leg.instrumentKey)).getD 0).sum
  | [] => rfl
  | leg :: legs => by
    have ih := matched_pnl positions ltp legs
    have hget : (Dict.index Position.instrumentKey positions.values).get? leg.instrumentKey =
        usedPosition positions.values leg.instrumentKey := Dict.get?_index _ _ _
    rw [List.map_cons, List.sum_cons, ← ih, List.filterMap_cons, overlayLeg, hget]
    cases hused : usedPosition positions.values leg.instrumentKey with
    | none =>
      have hout : leg.instrumentKey ∉ positions.values.map (·.instrumentKey) := by
        rw [← usedPosition_isSome_iff, hused]
        simp
      simp only [tradedPnl, Option.map_none, Option.getD_none, zero_add]
      rw [List.filter_cons_of_neg (by simpa using hout)]
    | some pos =>
      have hin : leg.instrumentKey ∈ positions.values.map (·.instrumentKey) := by
        rw [← usedPosition_isSome_iff, hused]
        rfl
      by_cases hflat : pos.quantity = 0
      · simp [hflat, overlaidPnl_of_flat]
      · simp only [if_neg hflat, tradedPnl, Option.map_some, Option.getD_some]
        rw [List.filter_cons_of_pos (by simpa using hin), List.map_cons, List.sum_cons]
        rfl

/-- The appended legs report the positions without a leg. -/
theorem appended_pnl (positions : Dict String Position) (ltp : String → ℚ) (entryDate : Date)
    (matchedKeys : List String) :
    ∀ es : List (String × Position), (∀ e ∈ es, e ∈ positions.entries) →
      tradedPnl positions ltp (es.filterMap fun (legRole, pos) =>
          if pos.instrumentKey ∈ matchedKeys then none
          else if pos.quantity = 0 then none
          else some (appendedLeg entryDate legRole pos)) =
        ((es.map Prod.snd).map fun pos => if pos.instrumentKey ∈ matchedKeys then 0
          else (ltp pos.instrumentKey - pos.averagePrice) * pos.quantity).sum
  | [], _ => rfl
  | (legRole, pos) :: es, h => by
    have ih := appended_pnl positions ltp entryDate matchedKeys es fun e he =>
      h e (List.mem_cons_of_mem _ he)
    rw [List.map_cons, List.map_cons, List.sum_cons, ← ih, List.filterMap_cons]
    by_cases hmatched : pos.instrumentKey ∈ matchedKeys
    · simp [hmatched]
    by_cases hflat : pos.quantity = 0
    · simp [hmatched, hflat]
    · have hin : pos.instrumentKey ∈ positions.values.map (·.instrumentKey) :=
        List.mem_map_of_mem (List.mem_map.mpr ⟨_, h _ List.mem_cons_self, rfl⟩)
      simp only [if_neg hmatched, if_neg hflat, tradedPnl]
      rw [List.filter_cons_of_pos (by simpa [appendedLeg] using hin), List.map_cons, List.sum_cons]
      rfl

private theorem sum_filter_eq {α : Type} (p : α → Bool) (f : α → ℚ) :
    ∀ l : List α, ((l.filter p).map f).sum = (l.map fun a => if p a then f a else 0).sum
  | [] => rfl
  | a :: l => by
    rw [List.map_cons, List.sum_cons, ← sum_filter_eq p f l, List.filter_cons]
    cases p a <;> simp

private theorem sum_last_of_nodup {α : Type} [DecidableEq α] {l : List α} (hl : l.Nodup) (f : α → ℚ) :
    (l.map fun a => if l.getLast? = some a then f a else 0).sum = (l.getLast?.map f).getD 0 := by
  rcases List.eq_nil_or_concat l with rfl | ⟨init, a, rfl⟩
  · rfl
  · rw [List.concat_eq_append] at hl ⊢
    have hzero : (init.map fun b => if (init ++ [a]).getLast? = some b then f b else 0).sum = 0 := by
      refine List.sum_eq_zero fun x hx => ?_
      obtain ⟨b, hb, rfl⟩ := List.mem_map.mp hx
      have hne : a ≠ b := by
        intro hab
        exact (List.nodup_append.mp hl).2.2 b hb a (List.mem_singleton_self a) hab.symm
      simp [hne]
    rw [List.map_append, List.sum_append, hzero]
    simp

theorem legOn_eq_some {legs : List Leg} (hlegs : (legs.map (·.instrumentKey)).Nodup) {leg : Leg}
    (h : leg ∈ legs) :
    legOn legs leg.instrumentKey = some leg := by
  cases hfind : legOn legs leg.instrumentKey with
  | none => exact absurd (List.find?_eq_none.mp hfind leg h) (by simp)
  | some leg' =>
    have hkey : leg'.instrumentKey = leg.instrumentKey := by simpa using List.find?_some hfind
    rw [List.inj_on_of_nodup_map hlegs (List.mem_of_find?_eq_some hfind) h hkey]

theorem legOn_eq_none_iff {legs : List Leg} {key : String} :
    legOn legs key = none ↔ key ∉ legs.map (·.instrumentKey) := by
  rw [legOn, List.find?_eq_none]
  simp

/-- The positions of one leg's instrument report what the last of them does. -/
theorem sum_reportedPnl_group {legs : List Leg} {ps : List Position}
    (hlegs : (legs.map (·.instrumentKey)).Nodup)
    (hps : ps.Nodup) (ltp : String → ℚ) {leg : Leg} (h : leg ∈ legs) :
    ((Grouping.group Position.instrumentKey ps leg.instrumentKey).map (reportedPnl legs ps ltp)).sum =
      ((usedPosition ps leg.instrumentKey).map fun pos =>
        overlaidPnl leg pos (ltp leg.instrumentKey)).getD 0 := by
  have hgroup : (Grouping.group Position.instrumentKey ps leg.instrumentKey).Nodup := hps.filter _
  rw [usedPosition, ← sum_last_of_nodup hgroup]
  congr 1
  refine List.map_congr_left fun pos hpos => ?_
  have hkey := (Grouping.mem_group.mp hpos).2
  simp only [reportedPnl, hkey, legOn_eq_some hlegs h, usedPosition]

/-- **What the overlaid legs report**, position by position. -/
theorem tradedPnl_eq {strategy : Strategy} (hlegs : (strategy.legs.map (·.instrumentKey)).Nodup)
    {positions : Dict String Position} (hps : positions.values.Nodup) (today : Date) (ltp : String → ℚ) :
    tradedPnl positions ltp (applyTradePositions strategy positions today).legs =
      (positions.values.map (reportedPnl strategy.legs positions.values ltp)).sum := by
  let onLeg : String → Bool := fun k => k ∈ strategy.legs.map (·.instrumentKey)
  have hsplit : tradedPnl positions ltp (applyTradePositions strategy positions today).legs =
      (strategy.legs.map fun leg => ((usedPosition positions.values leg.instrumentKey).map fun pos =>
        overlaidPnl leg pos (ltp leg.instrumentKey)).getD 0).sum +
      (positions.values.map fun pos => if onLeg pos.instrumentKey then 0
        else (ltp pos.instrumentKey - pos.averagePrice) * pos.quantity).sum := by
    rw [applyTradePositions, tradedPnl_append, matched_pnl, appended_pnl _ _ _ _ _ fun _ he => he]
    congr 2
    refine List.map_congr_left fun pos hpos => ?_
    have hused : ((Dict.index Position.instrumentKey positions.values).get?
        pos.instrumentKey).isSome = true := by
      rw [Dict.get?_index]
      exact usedPosition_isSome_iff.mpr (List.mem_map_of_mem hpos)
    have hiff : pos.instrumentKey ∈ (strategy.legs.map (·.instrumentKey)).filter
        (fun k => ((Dict.index Position.instrumentKey positions.values).get? k).isSome) ↔
        onLeg pos.instrumentKey = true := by
      rw [List.mem_filter, and_iff_left hused, decide_eq_true_iff]
    simp only [hiff]
  have hmatched : (strategy.legs.map fun leg =>
    ((usedPosition positions.values leg.instrumentKey).map fun pos =>
        overlaidPnl leg pos (ltp leg.instrumentKey)).getD 0).sum =
      (positions.values.map fun pos => if onLeg pos.instrumentKey then
        reportedPnl strategy.legs positions.values ltp pos else 0).sum := by
    have hgroup : (strategy.legs.map fun leg =>
      ((usedPosition positions.values leg.instrumentKey).map fun pos =>
          overlaidPnl leg pos (ltp leg.instrumentKey)).getD 0) =
        (strategy.legs.map (·.instrumentKey)).map fun k =>
          ((Grouping.group Position.instrumentKey (positions.values.filter fun pos =>
            onLeg pos.instrumentKey) k).map
            (reportedPnl strategy.legs positions.values ltp)).sum := by
      rw [List.map_map]
      refine List.map_congr_left fun leg hleg => ?_
      have hon : onLeg leg.instrumentKey = true := decide_eq_true (List.mem_map_of_mem hleg)
      rw [Function.comp_apply, Grouping.group_filter hon, sum_reportedPnl_group hlegs hps ltp hleg]
    rw [hgroup, Grouping.sum_groups _ _ hlegs fun pos hpos => of_decide_eq_true (List.mem_filter.mp hpos).2,
      sum_filter_eq]
  rw [hsplit, hmatched, ← List.sum_map_add]
  congr 1
  refine List.map_congr_left fun pos _ => ?_
  by_cases h : onLeg pos.instrumentKey
  · simp [h]
  · have hnone : legOn strategy.legs pos.instrumentKey = none :=
      legOn_eq_none_iff.mpr (by simpa [onLeg] using h)
    simp [h, reportedPnl, hnone]

/-! ### Cash, market value and the errors of the overlay -/

/-- The money that moved in one direction. -/
def sumValue (a : TradeAction) (ts : List Trade) : ℚ :=
  ((ts.filter (·.action = a)).map fun t => t.price * (t.quantity : ℚ)).sum

/-- Money received for sales less money paid for purchases. -/
def cashFlow (ts : List Trade) : ℚ := sumValue .sell ts - sumValue .buy ts

/-- The net quantities at last prices. -/
def marketValue (ltp : String → ℚ) (ts : List Trade) : ℚ :=
  (ts.map fun t => (t.signedQty : ℚ) * ltp t.instrumentKey).sum

/-- Each leg role trades one instrument. -/
def OneInstrument (ts : List Trade) : Prop :=
  ∀ t ∈ ts, ∀ u ∈ ts, t.legRole = u.legRole → t.instrumentKey = u.instrumentKey

instance (ts : List Trade) : Decidable (OneInstrument ts) := List.decidableBAll _ ts

theorem cash_bookOf : ∀ ts : List Trade, (bookOf ts).cash = (ts.map fun t => t.book.cash).sum
  | [] => Book.cash_zero
  | t :: ts => by rw [bookOf_cons, Book.cash_add, cash_bookOf ts, List.map_cons, List.sum_cons]

theorem net_bookOf : ∀ ts : List Trade, ((bookOf ts).net : ℚ) = (ts.map fun t => (t.signedQty : ℚ)).sum
  | [] => by simp
  | t :: ts => by
    rw [bookOf_cons, Book.net_add, Trade.net_book, Int.cast_add, net_bookOf ts, List.map_cons,
      List.sum_cons]

theorem cash_eq_cashFlow : ∀ ts : List Trade, (bookOf ts).cash = cashFlow ts
  | [] => by simp [cashFlow, sumValue]
  | t :: ts => by
    have ih := cash_eq_cashFlow ts
    unfold cashFlow sumValue at ih ⊢
    rw [bookOf_cons, Book.cash_add, ih]
    cases h : t.action <;> simp [Trade.book, h] <;> ring

namespace LiveTrades

/-- The book of a leg role. -/
def legBook (T : LiveTrades) (strategyName leg : String) : Book ℚ := bookOf (T.legRows strategyName leg)

/-- The instrument of a leg role. -/
def legInstrument (T : LiveTrades) (strategyName leg : String) : String :=
  ((T.legRows strategyName leg).getLast?.map (·.instrumentKey)).getD ""

/-- The last of the leg roles that trade an instrument. -/
def lastRoleOn (T : LiveTrades) (strategyName key : String) : Option String :=
  (Grouping.group (T.legInstrument strategyName) (T.legRoles strategyName) key).getLast?

end LiveTrades

/-- **What the overlay gets wrong about a leg role**: nothing for a long one, unless the
leg was defined as sold; the difference of the averages for a short one that has been
bought; twice the profit, about, for a leg defined as sold; and all of the profit when a
later role trades the same leg's instrument. -/
def overlayError (T : LiveTrades) (strategy : Strategy) (ltp : String → ℚ) (role : String) : ℚ :=
  let b := T.legBook strategy.name role
  let key := T.legInstrument strategy.name role
  match legOn strategy.legs key with
  | none => b.net * (b.openAvg - reportedAvg b)
  | some leg =>
    if T.lastRoleOn strategy.name key ≠ some role then -(b.net * (ltp key - b.openAvg))
    else
      match leg.direction with
      | .buy => b.net * (b.openAvg - reportedAvg b)
      | .sell => b.net * (b.openAvg + reportedAvg b - 2 * ltp key)

/-- The total is cash plus market value. -/
def OverlayIsCash (T : LiveTrades) (strategy : Strategy) (today : Date) (ltp : String → ℚ) : Prop :=
  let positions := T.getAllPositionsForStrategy strategy.name
  let overlaid := applyTradePositions strategy positions today
  tradedPnl positions ltp overlaid.legs + overlaid.realizedPnl =
    cashFlow (T.strategyRows strategy.name) + marketValue ltp (T.strategyRows strategy.name)

section Overlay

variable (T : LiveTrades) (strategy : Strategy)

/-- The position of a leg role in the store's result. -/
private def rolePosition (name leg : String) : Position := legPosition name leg (T.legRows name leg)

private theorem values_eq (name : String) :
    (T.getAllPositionsForStrategy name).values = (T.legRoles name).map (rolePosition T name) := by
  rw [Dict.values, LiveTrades.getAllPositionsForStrategy, List.map_map]
  rfl

private theorem rolePosition_inj (name : String) {leg leg' : String}
    (h : rolePosition T name leg = rolePosition T name leg') : leg = leg' :=
  congrArg Position.legRole h

private theorem nodup_values (name : String) : (T.getAllPositionsForStrategy name).values.Nodup := by
  rw [values_eq]
  exact (T.nodup_legRoles name).map fun _ _ => rolePosition_inj T name

private theorem usedPosition_eq (name key : String) :
    usedPosition (T.getAllPositionsForStrategy name).values key = (T.lastRoleOn name key).map
      (rolePosition T name) := by
  rw [usedPosition, values_eq, Grouping.group, List.filter_map, List.getLast?_map]
  rfl

private theorem usedPosition_iff (name key leg : String) :
    usedPosition (T.getAllPositionsForStrategy name).values key = some (rolePosition T name leg) ↔
      T.lastRoleOn name key = some leg := by
  rw [usedPosition_eq, Option.map_eq_some_iff]
  constructor
  · rintro ⟨leg', hlast, heq⟩
    rwa [← rolePosition_inj T name heq]
  · intro hlast
    exact ⟨leg, hlast, rfl⟩

/-- A role's reported P&L is what it should be plus its error. -/
private theorem reportedPnl_rolePosition (ltp : String → ℚ) (role : String) :
    reportedPnl strategy.legs (T.getAllPositionsForStrategy strategy.name).values ltp
        (rolePosition T strategy.name role) =
      (T.legBook strategy.name role).net *
          (ltp (T.legInstrument strategy.name role) - (T.legBook strategy.name role).openAvg) +
        overlayError T strategy ltp role := by
  obtain ⟨hqty, havg, -⟩ := legPosition_spec strategy.name role (T.legRows strategy.name role)
  have hkey : (rolePosition T strategy.name role).instrumentKey = T.legInstrument strategy.name role := rfl
  unfold reportedPnl overlayError
  rw [hkey]
  simp only [usedPosition_iff]
  cases legOn strategy.legs (T.legInstrument strategy.name role) with
  | none =>
    simp only [rolePosition, hqty, havg, LiveTrades.legBook]
    ring
  | some leg =>
    by_cases hlast : T.lastRoleOn strategy.name (T.legInstrument strategy.name role) = some role
    · simp only [hlast, if_true, not_true_eq_false, if_false, ne_eq]
      unfold overlaidPnl Leg.pnl
      cases leg.direction <;> simp only [rolePosition, hqty, havg, LiveTrades.legBook] <;> ring
    · simp only [hlast, if_false, not_false_eq_true, if_true, ne_eq]
      ring

/-- The market value, role by role. -/
private theorem marketValue_eq (name : String) (ltp : String → ℚ)
    (hone : OneInstrument (T.strategyRows name)) :
    marketValue ltp (T.strategyRows name) =
      ((T.legRoles name).map fun role =>
        ((T.legBook name role).net : ℚ) * ltp (T.legInstrument name role)).sum := by
  rw [marketValue, ← Grouping.sum_keys Trade.legRole]
  congr 1
  refine List.map_congr_left fun role _ => ?_
  have hrows : ∀ t ∈ T.legRows name role, t.instrumentKey = T.legInstrument name role := by
    intro t ht
    obtain ⟨u, hlast⟩ : ∃ u, (T.legRows name role).getLast? = some u :=
      ⟨_, List.getLast?_eq_some_getLast (List.ne_nil_of_mem ht)⟩
    have hu : u ∈ T.legRows name role := List.mem_of_getLast? hlast
    rw [LiveTrades.legInstrument, hlast]
    obtain ⟨ht, hrole⟩ := LiveTrades.mem_legRows.mp ht
    obtain ⟨hu, hrole'⟩ := LiveTrades.mem_legRows.mp hu
    exact hone t ht u hu (hrole.trans hrole'.symm)
  rw [LiveTrades.legBook, net_bookOf, ← List.sum_map_mul_right]
  congr 1
  exact List.map_congr_left fun t ht => by rw [hrows t ht]

/-- **The overlay conserves cash exactly when its errors cancel.** -/
theorem overlay_is_cash_iff (today : Date) (ltp : String → ℚ) (hlegs : (strategy.legs.map (·.instrumentKey)).Nodup)
    (hone : OneInstrument (T.strategyRows strategy.name)) :
    OverlayIsCash T strategy today ltp ↔
      ((T.legRoles strategy.name).map (overlayError T strategy ltp)).sum = 0 := by
  have hcash : ((T.legRoles strategy.name).map fun role => (T.legBook strategy.name role).cash).sum =
      cashFlow (T.strategyRows strategy.name) := by
    simp only [LiveTrades.legBook, cash_bookOf]
    rw [← cash_eq_cashFlow, cash_bookOf]
    exact Grouping.sum_keys Trade.legRole _ _
  have hrealized : (applyTradePositions strategy
    (T.getAllPositionsForStrategy strategy.name) today).realizedPnl =
      ((T.legRoles strategy.name).map fun role => (T.legBook strategy.name role).realized).sum := by
    show ((T.getAllPositionsForStrategy strategy.name).values.map (·.realizedPnl)).sum = _
    rw [values_eq, List.map_map]
    congr 1
    exact List.map_congr_left fun role _ => (legPosition_spec _ _ _).2.2
  have htotal : tradedPnl (T.getAllPositionsForStrategy strategy.name) ltp
        (applyTradePositions strategy (T.getAllPositionsForStrategy strategy.name) today).legs +
      (applyTradePositions strategy (T.getAllPositionsForStrategy strategy.name) today).realizedPnl =
      cashFlow (T.strategyRows strategy.name) + marketValue ltp (T.strategyRows strategy.name) +
        ((T.legRoles strategy.name).map (overlayError T strategy ltp)).sum := by
    rw [tradedPnl_eq hlegs (nodup_values T _), hrealized, values_eq, List.map_map, ← hcash,
      marketValue_eq T _ _ hone,
      ← List.sum_map_add, ← List.sum_map_add, ← List.sum_map_add, ← values_eq]
    congr 1
    refine List.map_congr_left fun role _ => ?_
    rw [Function.comp_apply, reportedPnl_rolePosition, Book.realized_eq, Book.carry]
    ring
  simp only [OverlayIsCash]
  rw [htotal]
  constructor
  · intro h
    linarith
  · intro h
    rw [h, add_zero]

end Overlay

/-- **Legs without error**: a role that is long, or short and never bought, whose
instrument is no leg's, or that of a leg defined as bought and no later role's. -/
theorem overlayError_eq_zero {T : LiveTrades} {strategy : Strategy} (ltp : String → ℚ) {role : String}
    (hshort : 0 < (T.legBook strategy.name role).net ∨ (T.legBook strategy.name role).buyQty = 0)
    (hleg : ∀ leg, legOn strategy.legs (T.legInstrument strategy.name role) = some leg →
      leg.direction = .buy ∧ T.lastRoleOn strategy.name (T.legInstrument strategy.name role) = some role) :
    overlayError T strategy ltp role = 0 := by
  have havg : (T.legBook strategy.name role).openAvg = reportedAvg (T.legBook strategy.name role) := by
    unfold Book.openAvg reportedAvg
    rcases hshort with hlong | hnone
    · have hbought : 0 < (T.legBook strategy.name role).buyQty := by
        unfold Book.net at hlong
        omega
      rw [if_pos hlong, if_pos hbought]
    · have hnet : ¬ 0 < (T.legBook strategy.name role).net := by
        unfold Book.net
        omega
      rw [if_neg hnet, if_neg (by omega)]
  unfold overlayError
  cases h : legOn strategy.legs (T.legInstrument strategy.name role) with
  | none => simp [h, havg]
  | some leg =>
    obtain ⟨hdir, hlast⟩ := hleg leg h
    simp [h, hdir, hlast, havg]

/-! ### A short put -/

/-- A put leg, defined as sold. -/
def soldPutLeg : Leg where
  instrumentKey := "NSE_FO|58689"
  displayName := "NIFTY JUN 23000 PE"
  assetType := .pe
  direction := .sell
  quantity := 65
  lotSize := 65
  entryPrice := 840
  entryDate := 739266
  expiry := some 739797
  strike := some 23000
  productType := .nrml

/-- A strategy with that leg. -/
def soldPutStrategy : Strategy where
  name := "finideas_ilts"
  legs := [soldPutLeg]

/-- The ledger with the sale of 65 puts at 840. -/
def soldPutLedger : LiveTrades :=
  LiveTrades.empty.recordTrade
    { strategyName := "finideas_ilts"
      legRole := "NIFTY_JUN_PE"
      instrumentKey := "NSE_FO|58689"
      tradeDate := 739266
      action := .sell
      quantity := 65
      price := 840
      strategyName_ne := finideas_ne
      legRole_ne := by decide
      instrumentKey_ne := by decide
      quantity_pos := lot_pos
      price_pos := by norm_num }

/-- At a price of 800 the sale has made 2600 and the overlay reports a loss of 2600. -/
theorem soldPut_not_cash :
    (soldPutStrategy.legs.map (·.instrumentKey)).Nodup ∧
      OneInstrument (soldPutLedger.strategyRows soldPutStrategy.name) ∧
      ¬ OverlayIsCash soldPutLedger soldPutStrategy 739700 fun _ => 800 := by
  refine ⟨by decide, by decide +kernel, fun h => ?_⟩
  have hreported : tradedPnl (soldPutLedger.getAllPositionsForStrategy soldPutStrategy.name) (fun _ => 800)
      (applyTradePositions soldPutStrategy
        (soldPutLedger.getAllPositionsForStrategy soldPutStrategy.name) 739700).legs +
      (applyTradePositions soldPutStrategy (soldPutLedger.getAllPositionsForStrategy soldPutStrategy.name)
        739700).realizedPnl = -2600 := by
    decide +kernel
  have hdue : cashFlow (soldPutLedger.strategyRows soldPutStrategy.name) +
      marketValue (fun _ => 800) (soldPutLedger.strategyRows soldPutStrategy.name) = 2600 := by
    decide +kernel
  exact absurd (hreported.symm.trans (h.trans hdue)) (by norm_num)

/-- The equivalence at that ledger. -/
theorem overlay_is_cash_iff_soldPut :
    OverlayIsCash soldPutLedger soldPutStrategy 739700 (fun _ => 800) ↔
      ((soldPutLedger.legRoles soldPutStrategy.name).map
        (overlayError soldPutLedger soldPutStrategy fun _ => 800)).sum = 0 :=
  overlay_is_cash_iff soldPutLedger soldPutStrategy 739700 (fun _ => 800) (by decide) (by decide +kernel)

end NiftyShield.Portfolio
