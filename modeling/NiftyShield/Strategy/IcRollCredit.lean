import NiftyShield.Strategy.IcCycles
import NiftyShield.Strategy.IcRollOrder

/-!
# The credit a roll is measured against

Guard 5 of `_execute_partial_roll` (`src/strategy/ic_nifty_v2.py`) caps the debit of a roll
at a fraction of `_original_ic_credit`, "total IC credit at entry". That credit is held in
the strategy object: `set_original_credit` puts it there, `reset_roll_state` and a start of
the daemon set it to zero, and the guard passes where it is zero. Entries are recorded by a
script that has no strategy object, so nothing relates it to the ledger.

The `PositionUpdate` of a roll carries a `total_credit_pts`, "positive = net credit", which
is computed as what the roll costs.

## What is proved

* `held_of_no_caller`: without a call of `set_original_credit` the credit held is zero;
* `roll_credit_of_run`: in every run in which each tick with a breached short finds a
  positive credit held, with a cap no higher than that of the credit of the condor in the
  ledger, every roll is capped by the latter; and of every roll in every run the reported
  credit is the right one exactly when the chain quotes the vertical that is closed and the
  one that is picked at one price;
* `roll_beyond_credit`: a roll of a condor entered for 75 points costs 100 and reports them
  as a credit.
-/

namespace NiftyShield.Strategy.IronCondor

open NiftyShield.Instruments NiftyShield.Lib NiftyShield.Lib.Raising NiftyShield.Lib.Run NiftyShield.Paper

/-! ### The position update of a roll -/

/-- `PositionUpdate`. -/
structure PositionUpdate where
  /-- `legs`. -/
  legs : List LegSpec
  /-- `total_credit_pts`. -/
  totalCreditPts : ℚ
  deriving DecidableEq

/-- The update of a roll; `total_credit_pts` is `roll_net`. -/
def RollParts.update (r : RollParts) (side : Side) : PositionUpdate where
  legs := r.legs side
  totalCreditPts := (r.oldShortLeg.ltp - r.oldLongLeg.ltp) - (r.newShort.ltp - r.newLong.ltp)

/-- The prices of the legs of an action. -/
def priceOf (action : String) (legs : List LegSpec) : ℚ :=
  ((legs.filter fun leg => leg.action = action).map fun leg => leg.price.getD 0).sum

/-- What legs cost: BUY prices less SELL prices. -/
def netDebit (legs : List LegSpec) : ℚ := priceOf "BUY" legs - priceOf "SELL" legs

/-- An event is the signal of a roll with this update. -/
def RollUpdate (ic : IronCondorV2) (env : SignalEnv) (st : V2State) (positions : List PaperPosition) (e : IcSignal)
    (u : PositionUpdate) : Prop :=
  ∃ c side, ∃ r : RollParts, ic.upperLadder env st positions = .undecided c ∧
    ic.evaluateAdjustment env st c = some (.rollWing side u.legs) ∧ r.Checked ic env st c side ∧ u = r.update side ∧
    e = (RollResult.rollWing side u.legs).toSignal

/-- The four legs of a roll, where a call comes to one. -/
def IronCondorV2.rollLegs (ic : IronCondorV2) (env : SignalEnv) (st : V2State) (positions : List PaperPosition) :
    Option (List LegSpec) :=
  match ic.upperLadder env st positions with
  | .answered _ => none
  | .undecided c =>
    match ic.evaluateAdjustment env st c with
    | some (.rollWing _ legs) => some legs
    | _ => none

/-- What the chain quotes for the vertical of the breached side, and for the one that the
delta bands (or the search between short and wing) pick in its place. -/
def IronCondorV2.quotedVerticals (ic : IronCondorV2) (env : SignalEnv) (st : V2State)
    (positions : List PaperPosition) : Option (ℚ × ℚ) := do
  let ps := icPositions ic.condor positions
  let side ← env.breachedSide ps ic.config.rollTriggerDelta
  let oldShort ← firstOf ps side.shortRole
  let oldLong ← firstOf ps side.longRole
  let oldLongStrike ← env.positionStrike oldLong
  let oldShortLeg ← env.findLeg oldShort.instrumentKey
  let oldLongLeg ← env.findLeg oldLong.instrumentKey
  let newShort ← ic.shortPick env side
  let newLong ← (ic.selectLongWing env side).orElse fun _ =>
    ic.searchNarrowerWing env st ps side oldLongStrike newShort.strike
  some (oldShortLeg.ltp - oldLongLeg.ltp, newShort.ltp - newLong.ltp)

/-- They are quoted at one price. -/
def EvenVerticals (ic : IronCondorV2) (env : SignalEnv) (st : V2State) (positions : List PaperPosition) : Prop :=
  ∀ old new, ic.quotedVerticals env st positions = some (old, new) → old = new

section Updates

variable {ic : IronCondorV2} {env : SignalEnv} {st st' : V2State} {positions : List PaperPosition}
  {events : List IcSignal} {e : IcSignal} {u : PositionUpdate}

/-- Each `ROLL_WING` has an update. -/
theorem rollUpdate_exists (h : ic.checkSignals env positions st = .ok events st') (he : e ∈ events)
    (htype : e.eventType = "ROLL_WING") : ∃ u, RollUpdate ic env st positions e u := by
  obtain ⟨c, side, r, hladder, hresult, hr, rfl⟩ := checkSignals_roll h he htype
  exact ⟨r.update side, c, side, r, hladder, hresult, hr, rfl, rfl⟩

theorem priceOf_legs (r : RollParts) (side : Side) :
    priceOf "BUY" (r.legs side) = r.oldShortLeg.ltp + r.newLong.ltp ∧
      priceOf "SELL" (r.legs side) = r.oldLongLeg.ltp + r.newShort.ltp := by
  constructor <;> simp [priceOf, RollParts.legs]

/-- The legs of a roll cost its debit. -/
theorem netDebit_legs (r : RollParts) (side : Side) : netDebit (r.legs side) = r.debit := by
  obtain ⟨hbuy, hsell⟩ := priceOf_legs r side
  rw [netDebit, hbuy, hsell, RollParts.debit]
  ring

/-- **The reported credit** is what the roll costs. -/
theorem RollUpdate.reported (h : RollUpdate ic env st positions e u) : u.totalCreditPts = netDebit u.legs := by
  obtain ⟨c, side, r, -, -, -, rfl, -⟩ := h
  exact (netDebit_legs r side).symm

/-- The update has the legs of the call. -/
theorem RollUpdate.legs_eq (h : RollUpdate ic env st positions e u) :
    ic.rollLegs env st positions = some u.legs := by
  obtain ⟨c, side, r, hladder, hresult, -⟩ := h
  simp only [IronCondorV2.rollLegs, hladder, hresult]

/-- **Guard 5**: with a positive credit held the roll is capped by it. -/
theorem RollUpdate.capped (h : RollUpdate ic env st positions e u) (hheld : 0 < ic.originalIcCredit) :
    netDebit u.legs ≤ ic.config.rollDebitCapFraction * ic.originalIcCredit := by
  obtain ⟨c, side, r, -, -, hr, rfl, -⟩ := h
  rw [RollParts.update, netDebit_legs]
  exact hr.debit.resolve_left (not_le.mpr hheld)

/-- The verticals that are quoted are those of the roll. -/
theorem RollUpdate.quotedVerticals (h : RollUpdate ic env st positions e u) :
    ∃ old new, ic.quotedVerticals env st positions = some (old, new) ∧ netDebit u.legs = old - new := by
  obtain ⟨c, side, r, hladder, hresult, hr, rfl, -⟩ := h
  have hpositions := upperLadder_undecided hladder
  have hbreached := evaluateAdjustment_breached hresult
  have hshort := hr.oldShort
  have hlong := hr.oldLong
  have hwing := hr.newLong
  rw [hpositions] at hbreached hshort hlong hwing
  refine ⟨r.oldShortLeg.ltp - r.oldLongLeg.ltp, r.newShort.ltp - r.newLong.ltp, ?_, netDebit_legs r side⟩
  simp only [IronCondorV2.quotedVerticals, Option.bind_eq_bind, hbreached, hshort, hlong, hr.strikes.2, hr.quoted.1,
    hr.quoted.2, hr.newShort, hwing, Option.bind_some]

/-- **The reported credit** is SELL less BUY prices exactly when the two verticals are quoted at
one price. -/
theorem RollUpdate.reported_iff (h : RollUpdate ic env st positions e u) :
    u.totalCreditPts = priceOf "SELL" u.legs - priceOf "BUY" u.legs ↔ EvenVerticals ic env st positions := by
  obtain ⟨old, new, hquoted, hdebit⟩ := h.quotedVerticals
  have hsigned : priceOf "SELL" u.legs - priceOf "BUY" u.legs = -(old - new) := by
    rw [← hdebit, netDebit]
    ring
  rw [h.reported, hdebit, hsigned, EvenVerticals, hquoted]
  constructor
  · intro heven old' new' heq
    obtain ⟨rfl, rfl⟩ := Prod.mk.inj (Option.some.inj heq)
    linarith
  · intro heven
    rw [heven old new rfl]
    ring

end Updates

/-! ### The credit in the ledger and the credit held -/

/-- The world of `NiftyShield.Strategy.IcCycles`, with both credits. -/
structure CreditWorld where
  /-- The store, the counters, and the history of the current cycle. -/
  world : World := .start
  /-- `_original_ic_credit`. -/
  held : ℚ := 0
  /-- Roles of which the current condor has had a trade. -/
  opened : List String := []
  /-- What the first trade of each of them brought. -/
  openCredit : ℚ := 0

/-- What happens. -/
inductive CreditEvent where
  /-- A trade, an entry credit in the store, a tick or a restart. -/
  | ic (ev : Event)
  /-- A caller of `set_original_credit`. -/
  | setOriginalCredit (creditPts : ℚ)
  /-- A caller of `reset_roll_state`. -/
  | resetRollState

/-- The strategy object, with the credit it holds. -/
def CreditWorld.strategy (ic : IronCondorV2) (w : CreditWorld) : IronCondorV2 :=
  { ic with originalIcCredit := w.held }

/-- What a trade brings a unit. -/
def signedPrice (t : PaperTrade) : ℚ :=
  match t.action with
  | .sell => t.price
  | .buy => -t.price

/-- The roles that are open when a trade comes: none, if it begins a condor. -/
def CreditWorld.openedBefore (ic : IronCondorV2) (w : CreditWorld) (t : PaperTrade) : List String :=
  if w.world.Begins ic t then [] else w.opened

/-- The credit that is open when a trade comes. -/
def CreditWorld.creditBefore (ic : IronCondorV2) (w : CreditWorld) (t : PaperTrade) : ℚ :=
  if w.world.Begins ic t then 0 else w.openCredit

/-- A trade that is inserted is the first of its role in the current condor. -/
def CreditWorld.Opens (ic : IronCondorV2) (w : CreditWorld) (t : PaperTrade) : Prop :=
  t.strategyName = ic.strategyName ∧ w.world.st.store.trades.hasKey t.uniqueKey = false ∧
    t.legRole ∉ w.openedBefore ic t

instance (ic : IronCondorV2) (w : CreditWorld) (t : PaperTrade) : Decidable (w.Opens ic t) :=
  inferInstanceAs (Decidable (_ ∧ _ ∧ _))

/-- One event. -/
def CreditWorld.step (ic : IronCondorV2) (w : CreditWorld) : CreditEvent → CreditWorld
  | .ic ev =>
    let w' := { w with world := w.world.step (w.strategy ic) ev }
    match ev with
    | .record t =>
      if w.Opens ic t then
        { w' with opened := t.legRole :: w.openedBefore ic t, openCredit := w.creditBefore ic t + signedPrice t }
      else { w' with opened := w.openedBefore ic t, openCredit := w.creditBefore ic t }
    | .restart => { w' with held := 0 }
    | _ => w'
  | .setOriginalCredit creditPts => { w with held := creditPts }
  | .resetRollState =>
    { w with world := { w.world with st := { w.world.st with rollsExecuted := fun _ => 0 } }, held := 0 }

/-- A tick finds a short at or over `roll_trigger_delta`. -/
def CreditWorld.Challenged (ic : IronCondorV2) (w : CreditWorld) (env : SignalEnv)
    (load : PaperTrades → List PaperPosition) : Bool :=
  (env.breachedSide (icPositions ic.condor (load w.world.st.store.trades)) ic.config.rollTriggerDelta).isSome

/-- Each roll of a tick costs at most the fraction of the credit the condor was opened for. -/
def Capped (ic : IronCondorV2) (w : CreditWorld) : CreditEvent → Prop
  | .ic (.tick env _ load) =>
    ∀ events st, (w.strategy ic).checkSignals env (load w.world.st.store.trades) w.world.st = .ok events st →
      ∀ e ∈ events, e.eventType = "ROLL_WING" →
        ∀ u, RollUpdate (w.strategy ic) env w.world.st (load w.world.st.store.trades) e u →
          netDebit u.legs ≤ ic.config.rollDebitCapFraction * w.openCredit
  | _ => True

/-- A tick with a breached short finds a positive credit held, with a cap no higher than that
of the credit the condor was opened for. -/
def HeldWithin (ic : IronCondorV2) (w : CreditWorld) : CreditEvent → Prop
  | .ic (.tick env _ load) =>
    w.Challenged ic env load = true →
      0 < w.held ∧ ic.config.rollDebitCapFraction * w.held ≤ ic.config.rollDebitCapFraction * w.openCredit
  | _ => True

/-- The credit reported of a roll is SELL less BUY prices exactly when the vertical that is
closed and the one that is picked are quoted at one price. -/
def ReportedIffEven (ic : IronCondorV2) (w : CreditWorld) : CreditEvent → Prop
  | .ic (.tick env _ load) =>
    ∀ events st, (w.strategy ic).checkSignals env (load w.world.st.store.trades) w.world.st = .ok events st →
      ∀ e ∈ events, e.eventType = "ROLL_WING" →
        ∀ u, RollUpdate (w.strategy ic) env w.world.st (load w.world.st.store.trades) e u →
          (u.totalCreditPts = priceOf "SELL" u.legs - priceOf "BUY" u.legs ↔
            EvenVerticals (w.strategy ic) env w.world.st (load w.world.st.store.trades))
  | _ => True

instance (ic : IronCondorV2) (w : CreditWorld) : ∀ ev, Decidable (HeldWithin ic w ev)
  | .ic (.tick env _ load) =>
    inferInstanceAs (Decidable (w.Challenged ic env load = true →
      0 < w.held ∧ ic.config.rollDebitCapFraction * w.held ≤ ic.config.rollDebitCapFraction * w.openCredit))
  | .ic (.record _) => isTrue trivial
  | .ic (.entryCredit _) => isTrue trivial
  | .ic .restart => isTrue trivial
  | .setOriginalCredit _ => isTrue trivial
  | .resetRollState => isTrue trivial

/-! ### One event, and runs -/

variable {ic : IronCondorV2} {w : CreditWorld} {ev : CreditEvent}

/-- A roll finds a breached short. -/
theorem RollUpdate.challenged {env : SignalEnv} {load : PaperTrades → List PaperPosition} {e : IcSignal}
    {u : PositionUpdate}
    (h : RollUpdate (w.strategy ic) env w.world.st (load w.world.st.store.trades) e u) :
    w.Challenged ic env load = true := by
  obtain ⟨c, side, r, hladder, hresult, -⟩ := h
  have hbreached := evaluateAdjustment_breached hresult
  rw [upperLadder_undecided hladder] at hbreached
  exact Option.isSome_iff_exists.mpr ⟨side, hbreached⟩

/-- **One tick** within the held credit is capped by the credit of the condor. -/
theorem HeldWithin.capped (h : HeldWithin ic w ev) : Capped ic w ev := by
  unfold Capped
  split
  next env _ load =>
    intro events st _ e _ _ u hu
    obtain ⟨hpos, hcap⟩ := h hu.challenged
    exact (hu.capped hpos).trans hcap
  next => trivial

theorem reportedIffEven (ic : IronCondorV2) (w : CreditWorld) (ev : CreditEvent) : ReportedIffEven ic w ev := by
  unfold ReportedIffEven
  split
  next env _ load =>
    intro events st _ e _ _ u hu
    exact hu.reported_iff
  next => trivial

/-- Without a call of `set_original_credit` the credit held stays zero, and guard 5 passes. -/
theorem held_of_no_caller {evs : List CreditEvent} (h : ∀ creditPts, .setOriginalCredit creditPts ∉ evs)
    (hheld : w.held = 0) : (final (CreditWorld.step ic) w evs).held = 0 := by
  induction evs generalizing w with
  | nil => exact hheld
  | cons ev evs ih =>
    refine ih (fun creditPts hmem => h creditPts (List.mem_cons_of_mem _ hmem)) ?_
    cases ev with
    | ic ev =>
      cases ev with
      | record t =>
        simp only [CreditWorld.step]
        split
        next => exact hheld
        next => exact hheld
      | entryCredit credit => exact hheld
      | tick env exec load => exact hheld
      | restart => rfl
    | setOriginalCredit creditPts => exact absurd List.mem_cons_self (h creditPts)
    | resetRollState => rfl

/-- **The cap and the reported credit in every run.** -/
theorem roll_credit_of_run (ic : IronCondorV2) (evs : List CreditEvent) :
    (EachStep (CreditWorld.step ic) (HeldWithin ic) {} evs → EachStep (CreditWorld.step ic) (Capped ic) {} evs) ∧
      EachStep (CreditWorld.step ic) (ReportedIffEven ic) {} evs := by
  constructor
  · exact eachStep_mono fun _ _ h => h.capped
  · exact eachStep_of_forall (reportedIffEven ic)

/-! ### A condor whose call is challenged -/

/-- One lot of a leg of the monthly condor. -/
private def legAt (role key : String) (a : TradeAction) (price : ℚ) (role_ne : role ≠ "") (key_ne : key ≠ "")
    (price_pos : 0 < price) : CreditEvent :=
  .ic (.record
    { strategyName := "paper_ic_nifty_v2_monthly"
      legRole := role
      instrumentKey := key
      tradeDate := 739776
      action := a
      quantity := 65
      price := price
      paperPrefix := hasPaperPrefix_icMonthly
      legRole_ne := role_ne
      instrumentKey_ne := key_ne
      quantity_pos := lot_pos
      price_pos := price_pos })

/-- It is sold for 75 points. -/
def soldFor75 : List CreditEvent :=
  [legAt "long_put_hedge" "NSE_FO|71" .buy 20 longPutHedge_ne (by decide) price20_pos,
    legAt "short_put" "NSE_FO|72" .sell 60 shortPut_ne (by decide) (by norm_num),
    legAt "short_call" "NSE_FO|73" .sell 50 shortCall_ne (by decide) (by norm_num),
    legAt "long_call_hedge" "NSE_FO|76" .buy 15 longCallHedge_ne (by decide) (by norm_num)]

/-- It is sold for 250 points, and the strategy is told. -/
def soldFor250 : List CreditEvent :=
  [legAt "long_put_hedge" "NSE_FO|71" .buy 20 longPutHedge_ne (by decide) price20_pos,
    legAt "short_put" "NSE_FO|72" .sell 140 shortPut_ne (by decide) (by norm_num),
    legAt "short_call" "NSE_FO|73" .sell 150 shortCall_ne (by decide) (by norm_num),
    legAt "long_call_hedge" "NSE_FO|76" .buy 20 longCallHedge_ne (by decide) price20_pos,
    .setOriginalCredit 250]

/-- The positions a tick loads. -/
private def loadMonthly (T : PaperTrades) : List PaperPosition := T.getPositions none "paper_ic_nifty_v2_monthly"

/-- A tick after the rise. -/
private def risenTick : CreditEvent :=
  .ic (.tick risenEnv { getLtp := fun _ => none, bodLookup := some juneOptions, today := 739783 } loadMonthly)

/-- Told of its credit, the condor sold for 250 points is rolled within the cap. -/
theorem roll_credit_of_run_told :
    EachStep (CreditWorld.step {}) (Capped {}) {} (soldFor250 ++ [risenTick]) :=
  (roll_credit_of_run {} (soldFor250 ++ [risenTick])).1 (by decide +kernel)

/-- The roll of the condor sold for 75 points costs 100, and reports them as received. -/
theorem roll_beyond_credit :
    ∃ events st e u,
      IronCondorV2.checkSignals {} risenEnv
          (loadMonthly (final (CreditWorld.step {}) {} soldFor75).world.st.store.trades)
          (final (CreditWorld.step {}) {} soldFor75).world.st = .ok events st ∧
        e ∈ events ∧ e.eventType = "ROLL_WING" ∧
        RollUpdate {} risenEnv (final (CreditWorld.step {}) {} soldFor75).world.st
          (loadMonthly (final (CreditWorld.step {}) {} soldFor75).world.st.store.trades) e u ∧
        (IronCondorV2.config {}).rollDebitCapFraction * (final (CreditWorld.step {}) {} soldFor75).openCredit <
          netDebit u.legs ∧
        u.totalCreditPts = 100 ∧ priceOf "SELL" u.legs - priceOf "BUY" u.legs = -100 := by
  have hends : returnsWith (fun events _ => decide (∃ e ∈ events, e.eventType = "ROLL_WING"))
      (IronCondorV2.checkSignals {} risenEnv
        (loadMonthly (final (CreditWorld.step {}) {} soldFor75).world.st.store.trades)
        (final (CreditWorld.step {}) {} soldFor75).world.st) = true := by
    decide +kernel
  obtain ⟨events, st, hcheck, hroll⟩ := returnsWith_iff.mp hends
  obtain ⟨e, he, htype⟩ := of_decide_eq_true hroll
  obtain ⟨u, hu⟩ := rollUpdate_exists hcheck he htype
  have hlegs : (IronCondorV2.rollLegs {} risenEnv (final (CreditWorld.step {}) {} soldFor75).world.st
      (loadMonthly (final (CreditWorld.step {}) {} soldFor75).world.st.store.trades)).map netDebit = some 100 := by
    decide +kernel
  rw [hu.legs_eq] at hlegs
  have hdebit : netDebit u.legs = 100 := Option.some.inj hlegs
  refine ⟨events, st, e, u, hcheck, he, htype, hu, ?_, ?_, ?_⟩
  · rw [hdebit]
    decide +kernel
  · rw [hu.reported, hdebit]
  · rw [netDebit] at hdebit
    linarith

end NiftyShield.Strategy.IronCondor
