import NiftyShield.Lib.Raising
import NiftyShield.Paper.Journal
import NiftyShield.Strategy.PriceUtils
import NiftyShield.Strategy.Protocol

/-!
# The paper executor

`PaperExecutor.apply` (`src/strategy/executor.py`) closes the legs an approved action
names and opens the legs it asks for, writing one trade each through
`PaperStore.record_trade`. The ledger keeps one row per (strategy, leg, instrument, date,
direction), so a second trade of a leg in the same direction on the same day is dropped,
and `apply` does not look.

## What is proved

* `closeLegs_spec`: the closing phase closes exactly the positions of `closePlan`, a
  function of the positions before the call and of the keys already taken;
* `openLegs_spec`: the opening phase writes the legs it was given and nothing else;
* `apply_no_lost_leg_iff`: when the call returns, every leg to close that is not reopened
  is flat and every leg to open has a new trade, exactly when no closing key is taken and
  every opening key is free and written first with the leg's own quantity.

## Honest scope

The audit rows `apply` writes per leg (`paper_action_audit`) are best-effort, are read by
nothing here and are left out. `market_today()` is a parameter.
-/

namespace NiftyShield.Strategy

open NiftyShield.Instruments NiftyShield.Lib NiftyShield.Lib.Raising NiftyShield.Paper

/-! ### Fills -/

/-- Slippage in rupees for a level of India VIX. -/
def slippageForVix : Option ℚ → ℚ
  | none => 3 / 2
  | some vix => if vix ≤ 20 then 1 else if vix ≤ 25 then 3 / 2 else if vix ≤ 30 then 3 else 4

/-- Result of a synthetic fill. -/
structure FillResult where
  /-- Instrument traded. -/
  instrumentKey : String
  /-- `"BUY"` or `"SELL"`. -/
  action : String
  /-- Units transacted. -/
  quantity : ℤ
  /-- Execution price. -/
  fillPrice : ℚ
  /-- Slippage applied. -/
  slippage : ℚ
  deriving DecidableEq

/-- `simulate_fill`: mid plus or minus slippage, at least one paisa. -/
def simulateFill (instrumentKey action : String) (quantity : ℤ) (midPrice : ℚ) (vix : Option ℚ) : FillResult :=
  let slippage := slippageForVix vix
  let fillPrice := if action = "BUY" then midPrice + slippage else midPrice - slippage
  { instrumentKey, action, quantity, fillPrice := max fillPrice (1 / 100), slippage }

theorem fillPrice_pos (instrumentKey action : String) (quantity : ℤ) (midPrice : ℚ) (vix : Option ℚ) :
    0 < (simulateFill instrumentKey action quantity midPrice vix).fillPrice :=
  lt_max_of_lt_right (by norm_num)

/-! ### The call -/

/-- What `apply` can raise. -/
inductive ExecError where
  /-- `resolve_mid_price: leg absent from chain for …`. -/
  | legAbsent (instrumentKey : String)
  /-- `No valid price for leg: bid=… ask=… ltp=…`. -/
  | noValidPrice (bid ask ltp : ℚ)
  /-- `TradeAction(…)` on any other text. -/
  | badAction (text : String)
  /-- pydantic's `ValidationError`. -/
  | invalidTrade
  deriving DecidableEq

/-- The arguments and collaborators of a call, apart from the ledger. -/
structure ExecContext where
  /-- Strategy acted for. -/
  strategyName : String
  /-- Option chain the prices come from. -/
  market : OptionChain
  /-- The executor's BOD file. -/
  instrumentLookup : Option InstrumentLookup := none
  /-- The store's BOD file, for option types. -/
  storeLookup : Option InstrumentLookup := none
  /-- `market_today()`. -/
  today : Date
  /-- Row id of the approval. -/
  approvalId : ℕ := 0
  /-- India VIX. -/
  vix : Option ℚ := none

/-- A program over the ledger. -/
abbrev Exec := EStateM ExecError PaperTrades

/-- `_resolve_mid_price`. -/
def resolveMidPrice (ctx : ExecContext) (instrumentKey : String) : Exec ℚ :=
  match findOptionLeg instrumentKey ctx.market ctx.instrumentLookup with
  | none => throw (.legAbsent instrumentKey)
  | some leg => fromOption (.noValidPrice leg.bid leg.ask leg.ltp) (resolvePrice leg)

/-- The direction that closes a position. -/
def closeAction (p : PaperPosition) : TradeAction := if 0 < p.netQty then .sell else .buy

/-- One leg of the closing phase. -/
def closeLeg (ctx : ExecContext) (leg : LegClose) : Exec Unit := do
  let position ← reads fun T => T.getPosition ctx.storeLookup ctx.strategyName leg.legRole leg.instrumentKey
  if position.netQty = 0 then pure ()
  else do
    let midPrice ← resolveMidPrice ctx position.instrumentKey
    let fill := simulateFill position.instrumentKey (closeAction position).value |position.netQty| midPrice ctx.vix
    let trade ← fromOption .invalidTrade
      (PaperTrade.validate ctx.strategyName leg.legRole position.instrumentKey ctx.today (closeAction position)
        fill.quantity fill.fillPrice ("executor_close approval_id=" ++ toString ctx.approvalId) none .open)
    let inserted ← updates fun T => T.recordTrade trade
    if inserted then updates fun T => (T.markTradeClosed ctx.strategyName leg.legRole position.instrumentKey, ())
    else pure ()

/-- The closing phase. -/
def closeLegs (ctx : ExecContext) : List LegClose → Exec Unit
  | [] => pure ()
  | leg :: legs => do
    closeLeg ctx leg
    closeLegs ctx legs

/-- One leg of the opening phase. -/
def openLeg (ctx : ExecContext) (spec : LegSpec) : Exec Unit := do
  let action ← fromOption (.badAction spec.action) (TradeAction.ofValue spec.action)
  let midPrice ← resolveMidPrice ctx spec.instrumentKey
  let fill := simulateFill spec.instrumentKey spec.action spec.quantity midPrice ctx.vix
  let notes := if spec.notes = "" then "executor_open approval_id=" ++ toString ctx.approvalId else spec.notes
  let trade ← fromOption .invalidTrade
    (PaperTrade.validate ctx.strategyName spec.legRole spec.instrumentKey ctx.today action fill.quantity fill.fillPrice
      notes none .open)
  let _ ← updates fun T => T.recordTrade trade

/-- The opening phase. -/
def openLegs (ctx : ExecContext) : List LegSpec → Exec Unit
  | [] => pure ()
  | spec :: specs => do
    openLeg ctx spec
    openLegs ctx specs

/-- `PaperExecutor.apply`: the positions after closing and opening. -/
def apply (ctx : ExecContext) (action : ApprovedAction) : Exec (List PaperPosition) := do
  closeLegs ctx action.legsToClose
  openLegs ctx action.legsToOpen
  reads fun T => T.getPositions ctx.storeLookup ctx.strategyName

/-! ### What one leg does -/

/-- The unique key of the trade that closes a position. -/
def closeKey (ctx : ExecContext) (p : PaperPosition) : PaperTrade.UniqueKey :=
  ⟨ctx.strategyName, p.legRole, p.instrumentKey, ctx.today, closeAction p⟩

/-- The unique key of the trade that opens a leg. -/
def openKey (ctx : ExecContext) (spec : LegSpec) (a : TradeAction) : PaperTrade.UniqueKey :=
  ⟨ctx.strategyName, spec.legRole, spec.instrumentKey, ctx.today, a⟩

/-- The positions `apply` works on. -/
def positions (ctx : ExecContext) (T : PaperTrades) : List PaperPosition :=
  T.getPositions ctx.storeLookup ctx.strategyName

/-- Resolving a price writes nothing. -/
theorem resolveMidPrice_ok {ctx : ExecContext} {key : String} {m : ℚ} {T T' : PaperTrades}
    (h : resolveMidPrice ctx key T = .ok m T') : T = T' := by
  unfold resolveMidPrice at h
  cases hleg : findOptionLeg key ctx.market ctx.instrumentLookup with
  | none =>
    rw [hleg] at h
    exact (throw_ne_ok h).elim
  | some leg =>
    rw [hleg] at h
    exact (fromOption_ok_iff.mp h).2

/-- **One closing leg**: nothing for a flat leg; a taken key changes nothing; else the
position's closing trade is recorded and its rows are marked closed. -/
theorem closeLeg_cases {ctx : ExecContext} {leg : LegClose} {T T' : PaperTrades}
    (h : closeLeg ctx leg T = .ok () T') :
    (PaperTrades.pickPosition (positions ctx T) leg.legRole leg.instrumentKey = none ∧ T' = T) ∨
      ∃ p, PaperTrades.pickPosition (positions ctx T) leg.legRole leg.instrumentKey = some p ∧
        ((T.hasKey (closeKey ctx p) = true ∧ T' = T) ∨
          ∃ t : PaperTrade, T.hasKey t.uniqueKey = false ∧ t.uniqueKey = closeKey ctx p ∧
            t.quantity = p.netQty.natAbs ∧
            T' = (T.recordTrade t).1.markTradeClosed ctx.strategyName leg.legRole p.instrumentKey) := by
  simp only [closeLeg, bind_ok_iff, reads_ok_iff] at h
  obtain ⟨position, _, ⟨hpos, rfl⟩, h⟩ := h
  rw [PaperTrades.getPosition] at hpos
  cases hpick : PaperTrades.pickPosition (positions ctx T) leg.legRole leg.instrumentKey with
  | none =>
    left
    rw [positions] at hpick
    rw [hpick, Option.getD_none] at hpos
    subst hpos
    have hflat : (PaperTrades.flatDefault ctx.strategyName leg.legRole).netQty = 0 := rfl
    rw [if_pos hflat, pure_ok_iff] at h
    exact ⟨rfl, h.2.symm⟩
  | some p =>
    right
    refine ⟨p, rfl, ?_⟩
    obtain ⟨hmem, hrole, -⟩ := mem_of_pickPosition hpick
    have hopen := (getPositions_open hmem).2.1
    rw [positions] at hpick
    rw [hpick, Option.getD_some] at hpos
    subst hpos
    rw [if_neg hopen] at h
    simp only [bind_ok_iff, fromOption_ok_iff, updates_ok_iff] at h
    obtain ⟨mid, T₁, hmid, t, _, ⟨ht, rfl⟩, inserted, T₂, hrec, h⟩ := h
    obtain rfl := resolveMidPrice_ok hmid
    obtain ⟨hkey, hqty⟩ := validate_eq_some ht
    have hkey' : t.uniqueKey = closeKey ctx p := by rw [hkey, closeKey, hrole]
    cases hdup : T.hasKey t.uniqueKey with
    | true =>
      rw [PaperTrades.recordTrade_duplicate hdup] at hrec
      obtain ⟨rfl, rfl⟩ := Prod.mk.inj hrec
      rw [if_neg Bool.false_ne_true, pure_ok_iff] at h
      exact Or.inl ⟨hkey' ▸ hdup, h.2.symm⟩
    | false =>
      obtain ⟨hins, -⟩ := PaperTrades.recordTrade_fresh hdup
      obtain ⟨h1, h2⟩ := Prod.ext_iff.mp hrec
      simp only at h1 h2
      rw [hins] at h2
      subst h1 h2
      rw [if_pos rfl, updates_ok_iff] at h
      refine Or.inr ⟨t, hdup, hkey', ?_, (Prod.mk.inj h).1.symm⟩
      have hnat : (t.quantity : ℤ) = p.netQty.natAbs := by rw [Int.natCast_natAbs]; exact hqty
      exact_mod_cast hnat

/-- **One opening leg** records a trade with the leg's key and quantity. -/
theorem openLeg_ok {ctx : ExecContext} {spec : LegSpec} {T T' : PaperTrades}
    (h : openLeg ctx spec T = .ok () T') :
    ∃ (a : TradeAction) (t : PaperTrade), TradeAction.ofValue spec.action = some a ∧
      t.uniqueKey = openKey ctx spec a ∧
      (t.quantity : ℤ) = spec.quantity ∧ T' = (T.recordTrade t).1 := by
  simp only [openLeg, bind_ok_iff, fromOption_ok_iff, updates_ok_iff] at h
  obtain ⟨a, _, ⟨ha, rfl⟩, mid, T₁, hmid, t, _, ⟨ht, rfl⟩, inserted, T₂, hrec, h⟩ := h
  obtain rfl := resolveMidPrice_ok hmid
  obtain ⟨hkey, hqty⟩ := validate_eq_some ht
  rw [pure_ok_iff] at h
  exact ⟨a, t, ha, hkey, hqty, by rw [← h.2, hrec]⟩

/-! ### The closing phase -/

/-- The positions the closing phase closes, from the positions before the call and the
keys already taken: each leg picks its position among those still open, and closes it
unless the closing key is taken. -/
def closePlan (ctx : ExecContext) (taken : PaperTrade.UniqueKey → Bool) :
    List PaperPosition → List LegClose → List PaperPosition
  | _, [] => []
  | ps, leg :: legs =>
    match PaperTrades.pickPosition ps leg.legRole leg.instrumentKey with
    | none => closePlan ctx taken ps legs
    | some p =>
      if taken (closeKey ctx p) then closePlan ctx taken ps legs
      else p :: closePlan ctx taken (ps.filter fun q => q.pair ≠ p.pair) legs

/-- What closing a position writes. -/
def closeWrite (ctx : ExecContext) (p : PaperPosition) : PaperTrade.UniqueKey × ℕ := (closeKey ctx p, p.netQty.natAbs)

theorem closePlan_subset (ctx : ExecContext) (taken : PaperTrade.UniqueKey → Bool) (legs : List LegClose) :
    ∀ {ps : List PaperPosition} {p}, p ∈ closePlan ctx taken ps legs → p ∈ ps ∧
      taken (closeKey ctx p) = false := by
  induction legs with
  | nil => exact fun h => absurd h (by simp [closePlan])
  | cons leg legs ih =>
    intro ps p h
    rw [closePlan] at h
    cases hpick : PaperTrades.pickPosition ps leg.legRole leg.instrumentKey with
    | none =>
      rw [hpick] at h
      exact ih h
    | some q =>
      rw [hpick] at h
      simp only at h
      split at h
      next => exact ih h
      next hfree =>
        rcases List.mem_cons.mp h with rfl | h
        · exact ⟨(mem_of_pickPosition hpick).1, by simpa using hfree⟩
        · exact ⟨(List.mem_filter.mp (ih h).1).1, (ih h).2⟩

/-- Keys that no remaining position closes with do not matter to the plan. -/
theorem closePlan_congr (ctx : ExecContext) {taken taken' : PaperTrade.UniqueKey → Bool}
    (legs : List LegClose) :
    ∀ {ps : List PaperPosition}, (∀ p ∈ ps, taken (closeKey ctx p) = taken' (closeKey ctx p)) →
      closePlan ctx taken ps legs = closePlan ctx taken' ps legs := by
  induction legs with
  | nil => exact fun _ => rfl
  | cons leg legs ih =>
    intro ps h
    rw [closePlan, closePlan]
    cases hpick : PaperTrades.pickPosition ps leg.legRole leg.instrumentKey with
    | none => exact ih h
    | some q =>
      simp only [h q (mem_of_pickPosition hpick).1, ih h, ih fun p hp => h p (List.mem_filter.mp hp).1]

/-- Leaving out other pairs keeps the pick. -/
theorem pickPosition_filter {ps : List PaperPosition} {role : String} {key : Option String}
    {p : PaperPosition}
    {keep : PaperPosition → Bool} (h : PaperTrades.pickPosition ps role key = some p) (hp : keep p = true) :
    PaperTrades.pickPosition (ps.filter keep) role key = some p := by
  unfold PaperTrades.pickPosition at h ⊢
  have hcomm : (ps.filter keep).filter (fun q => q.legRole = role) =
      (ps.filter fun q => q.legRole = role).filter keep := by
    rw [List.filter_filter, List.filter_filter]
    exact List.filter_congr fun q _ => Bool.and_comm ..
  rw [hcomm]
  cases key with
  | none => exact Selection.argmax_filter _ hp h
  | some k =>
    simp only at h ⊢
    rw [List.find?_filter]
    obtain ⟨hk, before, after, hsplit, hbefore⟩ := List.find?_eq_some_iff_append.mp h
    refine List.find?_eq_some_iff_append.mpr ⟨by simp [hp, hk], before, after, hsplit, fun q hq => ?_⟩
    have := hbefore q hq
    simp_all

/-- A leg whose closing key is free has its position closed. -/
theorem mem_closePlan {ctx : ExecContext} {taken : PaperTrade.UniqueKey → Bool} (legs : List LegClose) :
    ∀ {ps : List PaperPosition}, (∀ p ∈ ps, ∀ q ∈ ps, p.pair = q.pair → p = q) →
      ∀ leg ∈ legs, ∀ {p}, PaperTrades.pickPosition ps leg.legRole leg.instrumentKey = some p →
        taken (closeKey ctx p) = false → p ∈ closePlan ctx taken ps legs := by
  induction legs with
  | nil => exact fun _ leg hleg => absurd hleg (by simp)
  | cons leg' legs ih =>
    intro ps hinj leg hleg p hpick hfree
    rw [closePlan]
    rcases List.mem_cons.mp hleg with rfl | hleg
    · simp [hpick, hfree]
    · cases hpick' : PaperTrades.pickPosition ps leg'.legRole leg'.instrumentKey with
      | none => exact ih hinj leg hleg hpick hfree
      | some q =>
        simp only
        cases hq : taken (closeKey ctx q) with
        | true => exact ih hinj leg hleg hpick hfree
        | false =>
          rw [if_neg Bool.false_ne_true]
          by_cases hpq : p = q
          · exact hpq ▸ List.mem_cons_self
          · -- `q` is another pair, so `p` is still picked when `q` is out
            have hne : p.pair ≠ q.pair := fun h =>
              hpq (hinj p (mem_of_pickPosition hpick).1 q (mem_of_pickPosition hpick').1 h)
            refine List.mem_cons_of_mem _
              (ih ?_ leg hleg (pickPosition_filter hpick (by simpa using hne)) hfree)
            exact fun a ha b hb => hinj a (List.mem_filter.mp ha).1 b (List.mem_filter.mp hb).1

theorem inPair_of_uniqueKey {t : PaperTrade} {s role key : String} {d : Date} {a : TradeAction}
    (h : t.uniqueKey = ⟨s, role, key, d, a⟩) (k : String × String) :
    PaperTrades.inPair s k t = decide (k = (role, key)) := by
  obtain ⟨hs, hr, hk, -, -⟩ := PaperTrade.UniqueKey.mk.inj h
  simp [PaperTrades.inPair, PaperTrade.legInstrument, hs, hr, hk, eq_comm]

/-- Recording the closing trade of an open pair leaves it flat. -/
theorem netQty_close {ctx : ExecContext} {T : PaperTrades} {p : PaperPosition} (hp : p ∈ positions ctx T)
    {t : PaperTrade} (hfree : T.hasKey t.uniqueKey = false) (hkey : t.uniqueKey = closeKey ctx p)
    (hqty : t.quantity = p.netQty.natAbs) (k : String × String) :
    (T.recordTrade t).1.netQty ctx.strategyName k = if k = p.pair then 0
      else T.netQty ctx.strategyName k := by
  rw [PaperTrades.netQty_recordTrade hfree, inPair_of_uniqueKey hkey]
  by_cases hk : k = (p.legRole, p.instrumentKey)
  · have hnet := PaperTrades.netQty_of_mem hp
    have haction : t.action = closeAction p := congrArg PaperTrade.UniqueKey.action hkey
    have hsigned : t.signedQty = -p.netQty := by
      unfold PaperTrade.signedQty
      rw [haction, hqty, closeAction]
      by_cases hlong : 0 < p.netQty
      · rw [if_pos hlong]
        simp only
        omega
      · rw [if_neg hlong]
        simp only
        omega
    have hpair : k = p.pair := hk
    rw [if_pos (decide_eq_true hk), if_pos hpair, hpair, ← hnet, hsigned]
    omega
  · have hpair : k ≠ p.pair := hk
    rw [if_neg (by simpa using hk), if_neg hpair, add_zero]

section Closed

variable {ctx : ExecContext} {T : PaperTrades} {p : PaperPosition} {t : PaperTrade}

theorem legInstrument_of_closeKey (hkey : t.uniqueKey = closeKey ctx p) : t.legInstrument = p.pair :=
  Prod.ext (congrArg PaperTrade.UniqueKey.legRole hkey) (congrArg PaperTrade.UniqueKey.instrumentKey hkey)

/-- Closing a position leaves the other positions. -/
theorem positions_close (hp : p ∈ positions ctx T) (hfree : T.hasKey t.uniqueKey = false)
    (hkey : t.uniqueKey = closeKey ctx p) (hqty : t.quantity = p.netQty.natAbs) (role : String) :
    positions ctx ((T.recordTrade t).1.markTradeClosed ctx.strategyName role p.instrumentKey) =
      (positions ctx T).filter fun q => q.pair ≠ p.pair := by
  have hpair := legInstrument_of_closeKey hkey
  rw [positions, PaperTrades.markTradeClosed, PaperTrades.getPositions_updateState,
    PaperTrades.getPositions_close _ _ (by rw [hpair, netQty_close hp hfree hkey hqty, if_pos rfl]), hpair]
  rfl

/-- And takes none of the keys that they close with. -/
theorem hasKey_close {q : PaperPosition} (hkey : t.uniqueKey = closeKey ctx p) (hne : q.pair ≠ p.pair)
    (role : String) :
    ((T.recordTrade t).1.markTradeClosed ctx.strategyName role p.instrumentKey).hasKey (closeKey ctx q) =
      T.hasKey (closeKey ctx q) := by
  have hkeys : t.uniqueKey ≠ closeKey ctx q := fun hq => hne (by
    rw [← legInstrument_of_closeKey hkey]
    exact (legInstrument_of_closeKey hq).symm)
  rw [PaperTrades.markTradeClosed, PaperTrades.hasKey_updateState, PaperTrades.hasKey_recordTrade_of_ne _ hkeys]

end Closed

/-- **The closing phase** closes exactly the positions of the plan: their trades are what
it writes, their pairs are flat afterwards and no other pair has moved. -/
theorem closeLegs_spec {ctx : ExecContext} (legs : List LegClose) :
    ∀ {T T' : PaperTrades}, closeLegs ctx legs T = .ok () T' →
      Wrote T ((closePlan ctx T.hasKey (positions ctx T) legs).map (closeWrite ctx)) T' ∧
        ∀ k, T'.netQty ctx.strategyName k =
          if k ∈ (closePlan ctx T.hasKey (positions ctx T) legs).map PaperPosition.pair then 0
          else T.netQty ctx.strategyName k := by
  induction legs with
  | nil =>
    intro T T' h
    obtain ⟨-, rfl⟩ := pure_ok_iff.mp h
    exact ⟨Wrote.nil, fun k => by simp [closePlan]⟩
  | cons leg legs ih =>
    intro T T' h
    obtain ⟨⟨⟩, T₁, h₁, h₂⟩ := bind_ok_iff.mp h
    rw [closePlan]
    rcases closeLeg_cases h₁ with ⟨hpick, rfl⟩ | ⟨p, hpick, ⟨hdup, rfl⟩ | ⟨t, hfree, hkey, hqty, rfl⟩⟩
    · rw [hpick]
      exact ih h₂
    · simp only [hpick, hdup, if_true]
      exact ih h₂
    · have hp := (mem_of_pickPosition hpick).1
      have hnet := netQty_close hp hfree hkey hqty
      have hpos := positions_close hp hfree hkey hqty leg.legRole
      have hkeys := fun q hq => hasKey_close (T := T) (q := q) hkey hq leg.legRole
      set T₂ := (T.recordTrade t).1.markTradeClosed ctx.strategyName leg.legRole p.instrumentKey with hT₂
      have hnet₂ : ∀ k, T₂.netQty ctx.strategyName k = if k = p.pair then 0
          else T.netQty ctx.strategyName k := fun k => by
        rw [hT₂, PaperTrades.markTradeClosed, PaperTrades.netQty_updateState, hnet]
      have hplan : closePlan ctx T₂.hasKey (positions ctx T₂) legs =
          closePlan ctx T.hasKey ((positions ctx T).filter fun q => q.pair ≠ p.pair) legs := by
        rw [hpos]
        exact closePlan_congr ctx legs fun q hq => hkeys q (by simpa using (List.mem_filter.mp hq).2)
      obtain ⟨hwrote, hrest⟩ := ih h₂
      rw [hplan] at hwrote hrest
      have hfree' : T.hasKey (closeKey ctx p) = false := hkey ▸ hfree
      simp only [hpick, hfree', Bool.false_eq_true, if_false, List.map_cons]
      refine ⟨?_, fun k => ?_⟩
      · have hfirst : Wrote T [closeWrite ctx p] T₂ := by
          have := (Wrote.nil.record (T := T) t).state
            (PaperTrades.isActive ctx.strategyName leg.legRole p.instrumentKey)
            .closed
          rwa [List.nil_append, hkey, hqty] at this
        exact hfirst.trans hwrote
      · rw [hrest, hnet₂]
        by_cases hk : k = p.pair
        · simp [hk]
        · simp [hk, -List.mem_map]

/-! ### The opening phase -/

/-- What opening a leg writes. -/
def openWrite (ctx : ExecContext) (spec : LegSpec) : Option (PaperTrade.UniqueKey × ℕ) :=
  (TradeAction.ofValue spec.action).map fun a => (openKey ctx spec a, spec.quantity.toNat)

/-- **The opening phase** writes the legs it was given, all of them valid, and moves no
other pair. -/
theorem openLegs_spec {ctx : ExecContext} (specs : List LegSpec) :
    ∀ {T T' : PaperTrades}, openLegs ctx specs T = .ok () T' →
      Wrote T (specs.filterMap (openWrite ctx)) T' ∧
        (∀ spec ∈ specs, ∃ a, TradeAction.ofValue spec.action = some a ∧ 0 ≤ spec.quantity) ∧
        ∀ k, (∀ spec ∈ specs, (spec.legRole, spec.instrumentKey) ≠ k) →
          T'.netQty ctx.strategyName k = T.netQty ctx.strategyName k := by
  induction specs with
  | nil =>
    intro T T' h
    obtain ⟨-, rfl⟩ := pure_ok_iff.mp h
    exact ⟨Wrote.nil, by simp, fun _ _ => rfl⟩
  | cons spec specs ih =>
    intro T T' h
    obtain ⟨⟨⟩, T₁, h₁, h₂⟩ := bind_ok_iff.mp h
    obtain ⟨a, t, ha, hkey, hqty, rfl⟩ := openLeg_ok h₁
    obtain ⟨hwrote, hvalid, hframe⟩ := ih h₂
    refine ⟨?_, ?_, fun k hk => ?_⟩
    · have hq : spec.quantity.toNat = t.quantity := by omega
      have hwrite : openWrite ctx spec = some (t.uniqueKey, t.quantity) := by
        rw [openWrite, ha, Option.map_some, hkey, hq]
      rw [List.filterMap_cons, hwrite]
      exact (Wrote.nil.record t).trans hwrote
    · rintro s (_ | ⟨_, hs⟩)
      · exact ⟨a, ha, by omega⟩
      · exact hvalid s hs
    · rw [hframe k fun s hs => hk s (List.mem_cons_of_mem _ hs)]
      cases hdup : T.hasKey t.uniqueKey with
      | true => rw [PaperTrades.recordTrade_duplicate hdup]
      | false =>
        have hne : ¬ k = (spec.legRole, spec.instrumentKey) := fun h => hk spec List.mem_cons_self h.symm
        rw [PaperTrades.netQty_recordTrade hdup, inPair_of_uniqueKey hkey,
          if_neg (by simpa using hne), add_zero]

/-! ### No lost leg -/

/-- The pair a leg to close names: its role and instrument key, or without a key the
position `get_position` picks before the call. -/
def targetPair (ps : List PaperPosition) (leg : LegClose) : Option (String × String) :=
  match leg.instrumentKey with
  | some key => some (leg.legRole, key)
  | none => (PaperTrades.pickPosition ps leg.legRole none).map PaperPosition.pair

/-- The action opens this pair. -/
def Reopens (action : ApprovedAction) (k : String × String) : Prop :=
  ∃ spec ∈ action.legsToOpen, (spec.legRole, spec.instrumentKey) = k

/-- Every leg to close that the action does not reopen is flat. -/
def AllClosed (ctx : ExecContext) (action : ApprovedAction) (T T' : PaperTrades) : Prop :=
  ∀ leg ∈ action.legsToClose, ∀ k, targetPair (positions ctx T) leg = some k → ¬ Reopens action k →
    T'.netQty ctx.strategyName k = 0

/-- Every leg to open has a trade of its leg, instrument, action and quantity that was not
in the ledger before. -/
def AllOpened (ctx : ExecContext) (action : ApprovedAction) (T T' : PaperTrades) : Prop :=
  ∀ spec ∈ action.legsToOpen, ∃ r ∈ T'.rows, (∀ r₀ ∈ T.rows, r₀.id ≠ r.id) ∧
    r.trade.strategyName = ctx.strategyName ∧ r.trade.legRole = spec.legRole ∧
    r.trade.instrumentKey = spec.instrumentKey ∧ r.trade.action.value = spec.action ∧
    (r.trade.quantity : ℤ) = spec.quantity

/-- No open leg to close, unless reopened, was already traded today in its closing
direction. -/
def ClosingKeysFree (ctx : ExecContext) (action : ApprovedAction) (T : PaperTrades) : Prop :=
  ∀ leg ∈ action.legsToClose, ∀ p,
    PaperTrades.pickPosition (positions ctx T) leg.legRole leg.instrumentKey = some p → ¬ Reopens action p.pair →
      T.hasKey (closeKey ctx p) = false

/-- The writes the call attempts: the closing trades of the plan, then the legs to open. -/
def plannedWrites (ctx : ExecContext) (action : ApprovedAction) (T : PaperTrades) :
    List (PaperTrade.UniqueKey × ℕ) :=
  (closePlan ctx T.hasKey (positions ctx T) action.legsToClose).map (closeWrite ctx) ++
    action.legsToOpen.filterMap (openWrite ctx)

/-- No leg to open was already traded today in its direction, and the first write of the
call under its key has its quantity. -/
def OpeningKeysFree (ctx : ExecContext) (action : ApprovedAction) (T : PaperTrades) : Prop :=
  ∀ spec ∈ action.legsToOpen, ∀ a, TradeAction.ofValue spec.action = some a →
    T.hasKey (openKey ctx spec a) = false ∧
      firstQty (plannedWrites ctx action T) (openKey ctx spec a) = some spec.quantity.toNat

theorem ofValue_eq_some {text : String} {a : TradeAction} (h : TradeAction.ofValue text = some a) :
    a.value = text := by
  unfold TradeAction.ofValue at h
  split at h
  next ht =>
    obtain rfl := Option.some.inj h
    exact ht.symm
  next =>
    split at h
    next ht =>
      obtain rfl := Option.some.inj h
      exact ht.symm
    next => exact absurd h (by simp)

/-- What a call that returns did. -/
theorem apply_ok {ctx : ExecContext} {action : ApprovedAction} {T T' : PaperTrades}
    {ps : List PaperPosition}
    (h : apply ctx action T = .ok ps T') :
    ∃ T₁, closeLegs ctx action.legsToClose T = .ok () T₁ ∧ openLegs ctx action.legsToOpen T₁ = .ok
      () T' := by
  obtain ⟨⟨⟩, T₁, h₁, h⟩ := bind_ok_iff.mp h
  obtain ⟨⟨⟩, T₂, h₂, h⟩ := bind_ok_iff.mp h
  obtain ⟨-, rfl⟩ := reads_ok_iff.mp h
  exact ⟨T₁, h₁, h₂⟩

/-- The legs to close are flat exactly when their closing keys are free. -/
theorem allClosed_iff {ctx : ExecContext} {action : ApprovedAction} {T T' : PaperTrades}
    {ps : List PaperPosition}
    (h : apply ctx action T = .ok ps T') : AllClosed ctx action T T' ↔ ClosingKeysFree ctx action T := by
  obtain ⟨T₁, h₁, h₂⟩ := apply_ok h
  obtain ⟨-, hclosed⟩ := closeLegs_spec _ h₁
  obtain ⟨-, -, hframe⟩ := openLegs_spec _ h₂
  have hinj : ∀ p ∈ positions ctx T, ∀ q ∈ positions ctx T, p.pair = q.pair → p = q := fun p hp q hq =>
    PaperTrades.pair_injOn hp hq
  -- the opening phase does not touch a pair that is not reopened
  have hfinal : ∀ k, ¬ Reopens action k →
      T'.netQty ctx.strategyName k = T₁.netQty ctx.strategyName k := fun k hk =>
    hframe k fun spec hs hpair => hk ⟨spec, hs, hpair⟩
  constructor
  · intro hall leg hleg p hpick hre
    obtain ⟨hp, hrole, hkey⟩ := mem_of_pickPosition hpick
    have htarget : targetPair (positions ctx T) leg = some p.pair := by
      unfold targetPair
      cases hk : leg.instrumentKey with
      | some k => rw [PaperPosition.pair, hrole, hkey k hk]
      | none =>
        rw [hk] at hpick
        rw [hpick, Option.map_some]
    have hzero := hall leg hleg p.pair htarget hre
    rw [hfinal _ hre, hclosed] at hzero
    by_contra hdup
    have hout : p.pair ∉ (closePlan ctx T.hasKey (positions ctx T) action.legsToClose).map
        PaperPosition.pair := by
      intro hmem
      obtain ⟨q, hq, hqp⟩ := List.mem_map.mp hmem
      obtain ⟨hq', hfree⟩ := closePlan_subset ctx _ _ hq
      obtain rfl := hinj q hq' p hp hqp
      exact hdup hfree
    rw [if_neg hout, ← PaperTrades.netQty_of_mem hp] at hzero
    exact (getPositions_open hp).2.1 hzero
  · intro hfree leg hleg k htarget hre
    rw [hfinal k hre, hclosed]
    split
    next => rfl
    next hout =>
      by_contra hopen
      obtain ⟨p, hp, hpk⟩ : ∃ p ∈ positions ctx T, p.pair = k := PaperTrades.exists_position_iff.mpr hopen
      -- the open pair is the one the leg picks, so the plan closes it
      have hpick : PaperTrades.pickPosition (positions ctx T) leg.legRole leg.instrumentKey = some p := by
        unfold targetPair at htarget
        cases hk : leg.instrumentKey with
        | some key =>
          rw [hk] at htarget
          have hpk' : p.pair = (leg.legRole, key) := hpk.trans (Option.some.inj htarget).symm
          obtain ⟨hr, hi⟩ := Prod.mk.inj hpk'
          cases hfind : PaperTrades.pickPosition (positions ctx T) leg.legRole (some key) with
          | some q =>
            obtain ⟨hq, hqr, hqi⟩ := mem_of_pickPosition hfind
            rw [hinj q hq p hp (Prod.ext (hqr.trans hr.symm) ((hqi key rfl).trans hi.symm))]
          | none =>
            have hnone := List.find?_eq_none.mp hfind p (List.mem_filter.mpr ⟨hp, decide_eq_true hr⟩)
            exact absurd (decide_eq_true hi) hnone
        | none =>
          rw [hk] at htarget
          obtain ⟨q, hq, hqk⟩ := Option.map_eq_some_iff.mp htarget
          rw [hq, hinj q (mem_of_pickPosition hq).1 p hp (hqk.trans hpk.symm)]
      have hmem := mem_closePlan _ hinj leg hleg hpick (hfree leg hleg p hpick (hpk ▸ hre))
      exact hout (List.mem_map.mpr ⟨p, hmem, hpk⟩)

/-- The legs to open have new trades exactly when their keys are free and written first
with their quantity. -/
theorem allOpened_iff {ctx : ExecContext} {action : ApprovedAction} {T T' : PaperTrades}
    {ps : List PaperPosition}
    (h : apply ctx action T = .ok ps T') : AllOpened ctx action T T' ↔ OpeningKeysFree ctx action T := by
  obtain ⟨T₁, h₁, h₂⟩ := apply_ok h
  obtain ⟨hw₁, -⟩ := closeLegs_spec _ h₁
  obtain ⟨hw₂, hvalid, -⟩ := openLegs_spec _ h₂
  have hwrote : Wrote T (plannedWrites ctx action T) T' := hw₁.trans hw₂
  have hdate : ∀ w ∈ plannedWrites ctx action T, w.1.tradeDate = ctx.today := by
    intro w hw
    rcases List.mem_append.mp hw with hw | hw
    · obtain ⟨p, -, rfl⟩ := List.mem_map.mp hw
      rfl
    · obtain ⟨spec, -, hspec⟩ := List.mem_filterMap.mp hw
      obtain ⟨a, -, rfl⟩ := Option.map_eq_some_iff.mp hspec
      rfl
  constructor
  · intro hall spec hs a ha
    obtain ⟨r, hr, hnew, hname, hrole, hkey, haction, hqty⟩ := hall spec hs
    have hra : r.trade.action = a := by
      rw [← haction, TradeAction.ofValue_value] at ha
      exact Option.some.inj ha
    have hrd : r.trade.tradeDate = ctx.today := hdate _ (hwrote.mem_of_new hr hnew)
    refine (hwrote.newRow_iff _ _).mp ⟨r, hr, ?_, by omega, hnew⟩
    rw [PaperTrade.uniqueKey, openKey, hname, hrole, hkey, hrd, hra]
  · intro hfree spec hs
    obtain ⟨a, ha, hpos⟩ := hvalid spec hs
    obtain ⟨r, hr, hkey, hqty, hnew⟩ := (hwrote.newRow_iff _ _).mpr (hfree spec hs a ha)
    obtain ⟨hname, hrole, hinst, -, haction⟩ := PaperTrade.UniqueKey.mk.inj hkey
    exact ⟨r, hr, hnew, hname, hrole, hinst, haction ▸ ofValue_eq_some ha, by omega⟩

/-- **No lost leg**: when the call returns, every leg to close that is not reopened is
flat and every leg to open has a new trade, exactly when the keys it needs are free. -/
theorem apply_no_lost_leg_iff {ctx : ExecContext} {action : ApprovedAction} {T T' : PaperTrades}
    {ps : List PaperPosition} (h : apply ctx action T = .ok ps T') :
    (AllClosed ctx action T T' ∧ AllOpened ctx action T T') ↔
      (ClosingKeysFree ctx action T ∧ OpeningKeysFree ctx action T) :=
  and_congr (allClosed_iff h) (allOpened_iff h)

/-! ### A close that is dropped -/

/-- 65 units of the short put of `paper_csp_nifty_v1`, at 120. -/
private def shortPutTrade (d : Date) (a : TradeAction) : PaperTrade where
  strategyName := "paper_csp_nifty_v1"
  legRole := "short_put"
  instrumentKey := "NSE_FO|NIFTY23000PE"
  tradeDate := d
  action := a
  quantity := 65
  price := 120
  paperPrefix := hasPaperPrefix_csp
  legRole_ne := shortPut_ne
  instrumentKey_ne := key23000Put_ne
  quantity_pos := lot_pos
  price_pos := price120_pos

/-- Sold yesterday, bought back and sold again today. -/
def soldAgainLedger : PaperTrades :=
  (((PaperTrades.empty.recordTrade (shortPutTrade 739790 .sell)).1.recordTrade (shortPutTrade 739791 .buy)).1.recordTrade
    (shortPutTrade 739791 .sell)).1

/-- Today's call, with the put quoted at 100 to 102. -/
def soldAgainContext : ExecContext where
  strategyName := "paper_csp_nifty_v1"
  market :=
    { underlyingSpot := 24000
      expiry := 739797
      strikes := Dict.empty.set 23000 { pe := some { ltp := 101, bid := 100, ask := 102, strike := 23000 } } }
  today := 739791

/-- Close the short put. -/
def closeShortPut : ApprovedAction where
  actionType := "CLOSE_FULL"
  legsToClose := [{ legRole := "short_put", instrumentKey := some "NSE_FO|NIFTY23000PE" }]
  legsToOpen := []
  rationale := "hard stop"
  councilRank := 1

/-- The call returns and the short put, already bought once today, is still open. -/
theorem soldAgain_not_closed :
    ∃ ps T', apply soldAgainContext closeShortPut soldAgainLedger = .ok ps T' ∧
      ¬ (AllClosed soldAgainContext closeShortPut soldAgainLedger T' ∧
        AllOpened soldAgainContext closeShortPut soldAgainLedger T') := by
  have hrun : returnsWith (fun _ T' => decide
    (T'.netQty "paper_csp_nifty_v1" ("short_put", "NSE_FO|NIFTY23000PE") = -65))
      (apply soldAgainContext closeShortPut soldAgainLedger) = true := by
    decide +kernel
  obtain ⟨ps, T', h, hnet⟩ := returnsWith_iff.mp hrun
  refine ⟨ps, T', h, fun ⟨hclosed, _⟩ => ?_⟩
  have hflat := hclosed _ List.mem_cons_self ("short_put", "NSE_FO|NIFTY23000PE") rfl
    (fun ⟨_, hspec, _⟩ => absurd hspec (by simp [closeShortPut]))
  exact absurd ((of_decide_eq_true hnet).symm.trans hflat) (by decide)

/-- The equivalence at that call. -/
theorem apply_no_lost_leg_iff_soldAgain :
    ∃ ps T', apply soldAgainContext closeShortPut soldAgainLedger = .ok ps T' ∧
      ((AllClosed soldAgainContext closeShortPut soldAgainLedger T' ∧
          AllOpened soldAgainContext closeShortPut soldAgainLedger T') ↔
        (ClosingKeysFree soldAgainContext closeShortPut soldAgainLedger ∧
          OpeningKeysFree soldAgainContext closeShortPut soldAgainLedger)) := by
  have hrun : returnsWith (fun _ _ => true) (apply soldAgainContext closeShortPut soldAgainLedger) =
      true := by decide +kernel
  obtain ⟨ps, T', h, -⟩ := returnsWith_iff.mp hrun
  exact ⟨ps, T', h, apply_no_lost_leg_iff h⟩

end NiftyShield.Strategy
