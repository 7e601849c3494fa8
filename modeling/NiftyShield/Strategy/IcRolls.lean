import NiftyShield.Strategy.IcNiftyV2

/-!
# What a roll of the Iron Condor V2 is built from

A `ROLL_WING` of `IronCondorV2.check_signals` comes from one call of `_execute_partial_roll`
(`src/strategy/ic_nifty_v2.py`) that passes its guards (`checkSignals_roll`). What they say
is read off once (`executePartialRoll_parts`): the two positions the roll closes, the two
legs of the chain it opens instead, and what was checked of them.
-/

namespace NiftyShield.Strategy.IronCondor

open NiftyShield.Lib NiftyShield.Lib.Raising NiftyShield.Paper

/-! ### The parts of a roll -/

/-- What a roll closes and opens. -/
structure RollParts where
  /-- The short that is closed. -/
  oldShort : PaperPosition
  /-- The wing that is closed. -/
  oldLong : PaperPosition
  /-- Strike of that short. -/
  oldShortStrike : ℚ
  /-- Strike of that wing. -/
  oldLongStrike : ℚ
  /-- That short in the chain. -/
  oldShortLeg : OptionLeg
  /-- That wing in the chain. -/
  oldLongLeg : OptionLeg
  /-- The short that is opened. -/
  newShort : OptionLeg
  /-- The wing that is opened. -/
  newLong : OptionLeg
  /-- Key of the new short. -/
  newShortKey : String
  /-- Key of the new wing. -/
  newLongKey : String

/-- `legs` of the `PositionUpdate`. -/
def RollParts.legs (r : RollParts) (side : Side) : List LegSpec :=
  [{ instrumentKey := r.oldShort.instrumentKey, action := "BUY", quantity := 1, legRole := side.shortRole,
     notes := "roll_close_short", price := some r.oldShortLeg.ltp },
   { instrumentKey := r.oldLong.instrumentKey, action := "SELL", quantity := 1, legRole := side.longRole,
     notes := "roll_close_long", price := some r.oldLongLeg.ltp },
   { instrumentKey := r.newShortKey, action := "SELL", quantity := 1, legRole := side.shortRole,
     notes := "roll_open_short", price := some r.newShort.ltp },
   { instrumentKey := r.newLongKey, action := "BUY", quantity := 1, legRole := side.longRole,
     notes := "roll_open_long", price := some r.newLong.ltp }]

/-- `roll_debit`: what the four legs cost. -/
def RollParts.debit (r : RollParts) : ℚ :=
  (r.oldShortLeg.ltp - r.oldLongLeg.ltp) - (r.newShort.ltp - r.newLong.ltp)

/-- The replacement short of a side, by delta. -/
def IronCondorV2.shortPick (ic : IronCondorV2) (env : SignalEnv) (side : Side) : Option OptionLeg :=
  findStrikeByDelta env.market side.optionType
    (ic.config.shortDeltaTarget side - ic.config.deltaRange, ic.config.shortDeltaTarget side + ic.config.deltaRange)
    (ic.config.shortDeltaTarget side)

/-- What the guards of a roll check of its parts. -/
structure RollParts.Checked (r : RollParts) (ic : IronCondorV2) (env : SignalEnv) (st : V2State) (c : LadderContext)
    (side : Side) : Prop where
  /-- The short is the first position of its role. -/
  oldShort : firstOf c.positions side.shortRole = some r.oldShort
  /-- The wing is the first position of its role. -/
  oldLong : firstOf c.positions side.longRole = some r.oldLong
  /-- Their strikes are known. -/
  strikes : env.positionStrike r.oldShort = some r.oldShortStrike ∧ env.positionStrike r.oldLong = some r.oldLongStrike
  /-- Guard 2. -/
  newShort : ic.shortPick env side = some r.newShort
  /-- Guard 3. -/
  newLong : ((ic.selectLongWing env side).orElse fun _ =>
    ic.searchNarrowerWing env st c.positions side r.oldLongStrike r.newShort.strike) = some r.newLong
  /-- Guard 4. -/
  width : |r.newShort.strike - r.newLong.strike| ≤ |r.oldShortStrike - r.oldLongStrike|
  /-- The old legs are quoted. -/
  quoted : env.findLeg r.oldShort.instrumentKey = some r.oldShortLeg ∧
    env.findLeg r.oldLong.instrumentKey = some r.oldLongLeg
  /-- Guard 5. -/
  debit : ic.originalIcCredit ≤ 0 ∨ r.debit ≤ ic.config.rollDebitCapFraction * ic.originalIcCredit
  /-- Guard 7. -/
  notInverted : notInverted side r.newShort.strike
    ((firstOf c.positions side.opposite.shortRole).bind env.positionStrike) = true
  /-- The new keys are those of the new strikes. -/
  keys : env.resolveInstrumentKey r.newShort.strike side.typeText c.expiry = some r.newShortKey ∧
    env.resolveInstrumentKey r.newLong.strike side.typeText c.expiry = some r.newLongKey

variable {ic : IronCondorV2} {env : SignalEnv} {st st' : V2State} {positions : List PaperPosition}
  {events : List IcSignal} {c : LadderContext} {side : Side} {legs : List LegSpec}

/-- **A roll** is made of parts that passed its guards. -/
theorem executePartialRoll_parts (h : ic.executePartialRoll env st c side = .ok legs) :
    ∃ r : RollParts, r.Checked ic env st c side ∧ legs = r.legs side := by
  unfold IronCondorV2.executePartialRoll at h
  simp only [required_bind_ok, ensure_bind_ok] at h
  obtain ⟨oldShort, hos, oldLong, hol, oldShortStrike, hoss, oldLongStrike, hols, -, -, newShort, hns, newLong, hnl,
    hwidth, oldShortLeg, hosl, oldLongLeg, holl, hdebit, hinv, newShortKey, hnsk, newLongKey, hnlk, hlegs⟩ := h
  refine ⟨⟨oldShort, oldLong, oldShortStrike, oldLongStrike, oldShortLeg, oldLongLeg, newShort, newLong, newShortKey,
    newLongKey⟩, ⟨hos, hol, ⟨hoss, hols⟩, hns, hnl, of_decide_eq_true hwidth, ⟨hosl, holl⟩, ?_, hinv, ⟨hnsk, hnlk⟩⟩,
    (Except.ok.inj hlegs).symm⟩
  exact (Bool.or_eq_true _ _ ▸ hdebit).imp of_decide_eq_true of_decide_eq_true

/-- The legs a roll opens. -/
theorem RollParts.legsToOpen (r : RollParts) (side : Side) :
    (RollResult.rollWing side (r.legs side)).toSignal.legsToOpen = (r.legs side).drop 2 := by
  simp [RollResult.toSignal, RollParts.legs]

/-! ### Where rolls come from -/

/-- The ladder below works on the open legs of the strategy. -/
theorem upperLadder_undecided (h : ic.upperLadder env st positions = .undecided c) :
    c.positions = icPositions ic.condor positions := by
  unfold IronCondorV2.upperLadder at h
  simp only at h
  split at h
  next => exact absurd h (by simp)
  next =>
    split at h
    next => exact absurd h (by simp)
    next =>
      split at h
      next => exact absurd h (by simp)
      next =>
        split at h
        next => rw [← Ladder.undecided.inj h]
        next =>
          split at h
          next =>
            split at h
            next => exact absurd h (by simp)
            next => rw [← Ladder.undecided.inj h]
          next => rw [← Ladder.undecided.inj h]

/-- The profit-lock zones do not roll a side, and answer nothing without changing anything. -/
theorem lockSignals_ok (h : ic.lockSignals env c st = .ok events st') :
    (events = [] → st' = st) ∧ ∀ e ∈ events, e.eventType ≠ "ROLL_WING" := by
  rw [IronCondorV2.lockSignals] at h
  cases hcaptured : c.capturedFraction with
  | none =>
    rw [hcaptured] at h
    obtain ⟨rfl, rfl⟩ := pure_ok_iff.mp h
    exact ⟨fun _ => rfl, List.forall_mem_nil _⟩
  | some captured =>
    rw [hcaptured] at h
    simp only at h
    split at h
    next =>
      obtain ⟨hreply, htypes⟩ := checkProfitLock_ok h
      refine ⟨?_, htypes⟩
      rintro rfl
      cases hreply
      rfl
    next =>
      obtain ⟨rfl, rfl⟩ := pure_ok_iff.mp h
      exact ⟨fun _ => rfl, List.forall_mem_nil _⟩

/-- A roll is made for a breached short. -/
theorem evaluateAdjustment_breached (h : ic.evaluateAdjustment env st c = some (.rollWing side legs)) :
    env.breachedSide c.positions ic.config.rollTriggerDelta = some side := by
  unfold IronCondorV2.evaluateAdjustment at h
  split at h
  next => exact absurd h (by simp)
  next =>
    split at h
    next s hbreached =>
      split at h
      next => exact absurd h (by simp)
      next =>
        split at h
        next =>
          obtain ⟨rfl, -⟩ := RollResult.rollWing.inj (Option.some.inj h)
          exact hbreached
        next => exact absurd h (by simp)
    next =>
      obtain ⟨s, -, hwarn⟩ := Option.map_eq_some_iff.mp h
      exact absurd hwarn (by simp)

/-- A roll among the soft delta signals is a partial roll. -/
theorem softDelta_roll (h : ic.softDelta env c st = .ok events st') {e : IcSignal} (he : e ∈ events)
    (htype : e.eventType = "ROLL_WING") :
    ∃ side, ∃ r : RollParts, ic.evaluateAdjustment env st c = some (.rollWing side (r.legs side)) ∧
      r.Checked ic env st c side ∧ e = (RollResult.rollWing side (r.legs side)).toSignal := by
  obtain ⟨result, _, hread, h⟩ := bind_ok_iff.mp h
  obtain ⟨hresult, rfl⟩ := reads_ok_iff.mp hread
  cases result with
  | none =>
    obtain ⟨rfl, -⟩ := pure_ok_iff.mp h
    exact absurd he List.not_mem_nil
  | some r =>
    simp only [updates_ok_iff, Prod.mk.injEq] at h
    obtain ⟨-, rfl⟩ := h
    obtain rfl := List.mem_singleton.mp he
    cases r with
    | rollWing side legs =>
      obtain ⟨parts, hparts, rfl⟩ := executePartialRoll_parts (evaluateAdjustment_rollWing hresult)
      exact ⟨side, parts, hresult, hparts, rfl⟩
    | deltaWarn side => exact absurd htype (by simp [RollResult.toSignal])
    | deltaStop side blockReason => exact absurd htype (by simp [RollResult.toSignal, closeFullSignal])
    | forcedClose side blockReason => exact absurd htype (by simp [RollResult.toSignal, closeFullSignal])

/-- **A `ROLL_WING`** is the signal of a partial roll of the open legs. -/
theorem checkSignals_roll (h : ic.checkSignals env positions st = .ok events st') {e : IcSignal} (he : e ∈ events)
    (htype : e.eventType = "ROLL_WING") :
    ∃ c side, ∃ r : RollParts, ic.upperLadder env st positions = .undecided c ∧
      ic.evaluateAdjustment env st c = some (.rollWing side (r.legs side)) ∧ r.Checked ic env st c side ∧
      e = (RollResult.rollWing side (r.legs side)).toSignal := by
  obtain ⟨ladder, _, hread, h⟩ := bind_ok_iff.mp h
  obtain ⟨hladder, rfl⟩ := reads_ok_iff.mp hread
  cases ladder with
  | answered es =>
    obtain ⟨rfl, -⟩ := pure_ok_iff.mp h
    exact absurd htype ((upperLadder_answered hladder).2 e he)
  | undecided c =>
    obtain ⟨locked, st₁, hlock, hrest⟩ := bind_ok_iff.mp h
    obtain ⟨hsame, htypes⟩ := lockSignals_ok hlock
    by_cases hempty : locked = []
    · rw [if_pos hempty, hsame hempty] at hrest
      obtain ⟨side, r, hroll, hr, heq⟩ := softDelta_roll hrest he htype
      exact ⟨c, side, r, hladder, hroll, hr, heq⟩
    · rw [if_neg hempty] at hrest
      obtain ⟨rfl, -⟩ := pure_ok_iff.mp hrest
      exact absurd htype (htypes e he)

end NiftyShield.Strategy.IronCondor
