import NiftyShield.Strategy.ProfitLockEngine

/-!
# What a Zone 2 lock guarantees

The Zone 2 restructure of `ProfitLockEngine.evaluate` (`src/strategy/profit_lock_engine.py`)
rolls both long wings inwards so that a floor of the entry credit is kept:
`max(W_put, W_call) + D_cum + D_lock + K <= floor_budget * C0`. The new wings are the legs of
a delta, wherever they lie: `_select_inward_wing` is given the short strike and does not read
it. The width of the formula is cut to whole points by `int`.

## What is proved

* `lock_guarantees_iff`: a lock keeps what it promises exactly when the legs of the delta
  band lie between the shorts and the old wings, and the fraction of a point cut off fits in
  the budget that is left;
* `inward_of_deltas`: in a chain whose deltas fall with the distance from the money, the
  first holds when the band separates the delta of each short from that of its wing;
* `budget_of_whole_strikes`: the second holds on whole strikes.
-/

namespace NiftyShield.Strategy.IronCondor

open NiftyShield.Lib

/-! ### Widths and figures -/

/-- The width of a side with a wing at a strike; not positive where the wing is not beyond
the short. -/
def ProfitLockInputs.widthAt (i : ProfitLockInputs) : Side → ℚ → ℚ
  | .put, strike => i.shortPutStrike - strike
  | .call, strike => strike - i.shortCallStrike

/-- `max_width` of two new wings. -/
def ProfitLockInputs.maxWidth (i : ProfitLockInputs) (newPut newCall : OptionLeg) : ℚ :=
  max (i.widthAt .put newPut.strike) (i.widthAt .call newCall.strike)

/-- `guaranteed_floor_fraction` of a decision to lock. -/
def ProfitLockConfig.guaranteedFloorFraction (config : ProfitLockConfig) (i : ProfitLockInputs)
    (newPut newCall : OptionLeg) (dLock : ℚ) : ℚ :=
  let worstPnl := i.entryCreditPts - i.state.cumulativeLockDebitPts - dLock - config.costBufferPts -
    i.maxWidth newPut newCall
  worstPnl / i.entryCreditPts

/-- What is left of the floor budget at a width and a debit. -/
def ProfitLockConfig.spare (config : ProfitLockConfig) (i : ProfitLockInputs) (width dLock : ℚ) : ℚ :=
  config.floorBudgetZone2 * i.entryCreditPts -
    (width + i.state.cumulativeLockDebitPts + dLock + config.costBufferPts)

/-- The leg `find_strike_by_delta` gives for the new wing of a side. -/
def ProfitLockConfig.deltaWing (config : ProfitLockConfig) (chain : OptionChain) (side : Side) : Option OptionLeg :=
  findStrikeByDelta chain side.optionType (config.zone2LongWingDeltaLo, config.zone2LongWingDeltaHi)
    config.zone2LongWingDeltaTarget

/-- The new wing of a side lies strictly between the short and the old wing. -/
def ProfitLockInputs.Narrows (i : ProfitLockInputs) (side : Side) (new old : OptionLeg) : Prop :=
  0 < i.widthAt side new.strike ∧ i.widthAt side new.strike < i.widthAt side old.strike

/-- What a lock with these wings promises. -/
structure LockGuarantees (config : ProfitLockConfig) (i : ProfitLockInputs) (newPut newCall : OptionLeg)
    (dLock : ℚ) : Prop where
  /-- The put wing narrows. -/
  put : ∀ old, i.oldLong .put = some old → i.Narrows .put newPut old
  /-- The call wing narrows. -/
  call : ∀ old, i.oldLong .call = some old → i.Narrows .call newCall old
  /-- The floor formula holds. -/
  budget : i.maxWidth newPut newCall + i.state.cumulativeLockDebitPts + dLock + config.costBufferPts ≤
    config.floorBudgetZone2 * i.entryCreditPts
  /-- The floor is the rest of the credit. -/
  floor : 1 - config.floorBudgetZone2 ≤ config.guaranteedFloorFraction i newPut newCall dLock

/-- The legs of the delta band lie inwards of the old wings. -/
def LegsInward (config : ProfitLockConfig) (i : ProfitLockInputs) : Prop :=
  ∀ side new old, config.deltaWing i.chain side = some new → i.oldLong side = some old → i.Narrows side new old

/-- The four legs of a restructure, as the inputs give them. -/
structure LockLegs (config : ProfitLockConfig) (i : ProfitLockInputs) (oldPut oldCall newPut newCall : OptionLeg) :
    Prop where
  /-- The old put wing. -/
  oldPut : i.oldLong .put = some oldPut
  /-- The old call wing. -/
  oldCall : i.oldLong .call = some oldCall
  /-- The put of the band. -/
  newPut : config.deltaWing i.chain .put = some newPut
  /-- The call of the band. -/
  newCall : config.deltaWing i.chain .call = some newCall

/-- What `int` cuts off the larger width fits in the budget left by the whole points. -/
def FractionFits (config : ProfitLockConfig) (i : ProfitLockInputs) : Prop :=
  ∀ oldPut oldCall newPut newCall, LockLegs config i oldPut oldCall newPut newCall →
    i.maxWidth newPut newCall - truncate (i.maxWidth newPut newCall) ≤
      config.spare i (truncate (i.maxWidth newPut newCall))
        ((newPut.ask + newCall.ask) - (oldPut.bid + oldCall.bid))

/-! ### When there is a lock -/

variable {config : ProfitLockConfig} {i : ProfitLockInputs} {newPut newCall : OptionLeg} {dLock : ℚ}

theorem deltaWing_of_selected {chain : OptionChain} {side : Side} {leg : OptionLeg}
    (h : config.selectInwardWing chain side = some leg) : config.deltaWing chain side = some leg :=
  (Option.filter_eq_some_iff.mp h).1

/-- The last checks let a lock through only within the budget for whole points. -/
theorem restructure_lock {oldPut oldCall put call : OptionLeg}
    (h : config.restructure i oldPut oldCall put call = .zone2Lock newPut newCall dLock) :
    (newPut = put ∧ newCall = call) ∧ dLock = (put.ask + call.ask) - (oldPut.bid + oldCall.bid) ∧
      0 ≤ config.spare i (truncate (i.maxWidth put call)) dLock := by
  unfold ProfitLockConfig.restructure at h
  simp only at h
  split at h
  next => exact absurd h (by simp)
  next =>
    split at h
    next => exact absurd h (by simp)
    next =>
      split at h
      next => exact absurd h (by simp)
      next =>
        split at h
        next => exact absurd h (by simp)
        next =>
          split at h
          next => exact absurd h (by simp)
          next hformula =>
            split at h
            next => exact absurd h (by simp)
            next =>
              obtain ⟨rfl, rfl, rfl⟩ := ProfitLockDecision.zone2Lock.inj h
              refine ⟨⟨rfl, rfl⟩, rfl, ?_⟩
              have hpass := of_decide_eq_true (eq_true_of_ne_false hformula)
              exact sub_nonneg.mpr hpass

/-- **A lock** is on the legs of the delta band, and within the budget for whole points. -/
theorem evaluate_lock (h : config.evaluate i = .zone2Lock newPut newCall dLock) :
    ∃ oldPut oldCall, LockLegs config i oldPut oldCall newPut newCall ∧
      dLock = (newPut.ask + newCall.ask) - (oldPut.bid + oldCall.bid) ∧
      0 ≤ config.spare i (truncate (i.maxWidth newPut newCall)) dLock := by
  unfold ProfitLockConfig.evaluate at h
  simp only at h
  split at h
  next => exact absurd h (by simp)
  next =>
    split at h
    next => split at h <;> exact absurd h (by simp)
    next =>
      split at h
      next => exact absurd h (by simp)
      next =>
        split at h
        next => exact absurd h (by simp)
        next =>
          split at h
          next => exact absurd h (by simp)
          next =>
            split at h
            next put call hput hcall =>
              split at h
              next oldPut oldCall hold hold' =>
                obtain ⟨⟨rfl, rfl⟩, hdebit, hspare⟩ := restructure_lock h
                exact ⟨oldPut, oldCall, ⟨hold, hold', deltaWing_of_selected hput, deltaWing_of_selected hcall⟩,
                  hdebit, hspare⟩
              next => exact absurd h (by simp)
            next => exact absurd h (by simp)

/-! ### The floor -/

/-- The floor is the rest of the credit exactly when the floor formula holds. -/
theorem floor_iff_budget (hcredit : 0 < i.entryCreditPts) :
    1 - config.floorBudgetZone2 ≤ config.guaranteedFloorFraction i newPut newCall dLock ↔
      0 ≤ config.spare i (i.maxWidth newPut newCall) dLock := by
  rw [ProfitLockConfig.guaranteedFloorFraction, le_div_iff₀ hcredit, ProfitLockConfig.spare]
  constructor
  · intro h
    linarith
  · intro h
    linarith

/-- The budget at the width is the budget at the whole points, less what is cut off. -/
theorem spare_sub (width cut : ℚ) : config.spare i width dLock = config.spare i cut dLock - (width - cut) := by
  rw [ProfitLockConfig.spare, ProfitLockConfig.spare]
  ring

/-- **A lock keeps its promise** exactly when the legs of the delta band lie inwards and the
fraction cut off fits. -/
theorem lock_guarantees_iff (hcredit : 0 < i.entryCreditPts)
    (h : config.evaluate i = .zone2Lock newPut newCall dLock) :
    LockGuarantees config i newPut newCall dLock ↔ LegsInward config i ∧ FractionFits config i := by
  obtain ⟨oldPut, oldCall, hlegs, hdebit, -⟩ := evaluate_lock h
  have hfits : FractionFits config i ↔ 0 ≤ config.spare i (i.maxWidth newPut newCall) dLock := by
    rw [spare_sub _ (truncate (i.maxWidth newPut newCall) : ℚ), sub_nonneg]
    constructor
    · intro hall
      rw [hdebit]
      exact hall oldPut oldCall newPut newCall hlegs
    · rintro hle oldPut' oldCall' newPut' newCall' ⟨hput, hcall, hput', hcall'⟩
      obtain rfl := Option.some.inj (hput.symm.trans hlegs.oldPut)
      obtain rfl := Option.some.inj (hcall.symm.trans hlegs.oldCall)
      obtain rfl := Option.some.inj (hput'.symm.trans hlegs.newPut)
      obtain rfl := Option.some.inj (hcall'.symm.trans hlegs.newCall)
      rw [← hdebit]
      exact hle
  constructor
  · rintro ⟨hput, hcall, hbudget, -⟩
    refine ⟨fun side new old hnew hold => ?_, hfits.mpr (sub_nonneg.mpr hbudget)⟩
    cases side with
    | put =>
      obtain rfl := Option.some.inj (hnew.symm.trans hlegs.newPut)
      exact hput old hold
    | call =>
      obtain rfl := Option.some.inj (hnew.symm.trans hlegs.newCall)
      exact hcall old hold
  · rintro ⟨hinward, hfraction⟩
    have hspare := hfits.mp hfraction
    exact ⟨fun old hold => hinward .put newPut old hlegs.newPut hold,
      fun old hold => hinward .call newCall old hlegs.newCall hold, sub_nonneg.mp hspare,
      (floor_iff_budget hcredit).mpr hspare⟩

/-! ### Where the condition holds -/

theorem truncate_intCast (n : ℤ) : truncate n = n := by
  rw [truncate, Rat.num_intCast, Rat.den_intCast]
  exact Int.tdiv_one n

/-- The strikes of a side are whole numbers of points. -/
def WholeStrikes (chain : OptionChain) (side : Side) : Prop :=
  ∀ strikeData ∈ chain.strikes.values, ∀ leg, strikeData.side side.optionType = some leg → ∃ n : ℤ, leg.strike = n

/-- **On whole strikes** nothing is cut off, so a lock keeps its budget and its floor. -/
theorem budget_of_whole_strikes (hput : WholeStrikes i.chain .put) (hcall : WholeStrikes i.chain .call)
    (hshortPut : ∃ n : ℤ, i.shortPutStrike = n) (hshortCall : ∃ n : ℤ, i.shortCallStrike = n)
    (h : config.evaluate i = .zone2Lock newPut newCall dLock) : FractionFits config i := by
  obtain ⟨oldPut, oldCall, hlegs, hdebit, hspare⟩ := evaluate_lock h
  have hwhole : ∃ n : ℤ, i.maxWidth newPut newCall = n := by
    obtain ⟨strikeData, hdata, hside⟩ := (findStrikeByDelta_spec hlegs.newPut).1
    obtain ⟨a, ha⟩ := hput strikeData hdata newPut hside
    obtain ⟨strikeData, hdata, hside⟩ := (findStrikeByDelta_spec hlegs.newCall).1
    obtain ⟨b, hb⟩ := hcall strikeData hdata newCall hside
    obtain ⟨p, hp⟩ := hshortPut
    obtain ⟨c, hc⟩ := hshortCall
    refine ⟨max (p - a) (b - c), ?_⟩
    rw [ProfitLockInputs.maxWidth, ProfitLockInputs.widthAt, ProfitLockInputs.widthAt, ha, hb, hp, hc]
    push_cast
    rfl
  obtain ⟨n, hn⟩ := hwhole
  rw [hn, truncate_intCast] at hspare
  rintro oldPut' oldCall' newPut' newCall' ⟨hold, hold', hnew, hnew'⟩
  obtain rfl := Option.some.inj (hold.symm.trans hlegs.oldPut)
  obtain rfl := Option.some.inj (hold'.symm.trans hlegs.oldCall)
  obtain rfl := Option.some.inj (hnew.symm.trans hlegs.newPut)
  obtain rfl := Option.some.inj (hnew'.symm.trans hlegs.newCall)
  rw [← hdebit, hn, truncate_intCast, sub_self]
  exact hspare

/-- The chain quotes a leg of a side with a delta. -/
def QuotesDelta (chain : OptionChain) (side : Side) (leg : OptionLeg) (delta : ℚ) : Prop :=
  (∃ strikeData ∈ chain.strikes.values, strikeData.side side.optionType = some leg) ∧ leg.delta = some delta

/-- The deltas of a side fall with the distance from the money. -/
def DeltasFall (i : ProfitLockInputs) (side : Side) : Prop :=
  ∀ a b da db, QuotesDelta i.chain side a da → QuotesDelta i.chain side b db →
    i.widthAt side a.strike ≤ i.widthAt side b.strike → |db| ≤ |da|

/-- **A band between the deltas of the short and of the old wing** gives a wing between
them. -/
theorem inward_of_deltas {side : Side} {short old new : OptionLeg} {dShort dOld : ℚ} (hfall : DeltasFall i side)
    (hshort : QuotesDelta i.chain side short dShort) (hat : i.widthAt side short.strike = 0)
    (hold : QuotesDelta i.chain side old dOld) (hhigh : config.zone2LongWingDeltaHi < |dShort|)
    (hlow : |dOld| < config.zone2LongWingDeltaLo) (hnew : config.deltaWing i.chain side = some new) :
    i.Narrows side new old := by
  obtain ⟨hquoted, d, hd, hlo, hhi⟩ := findStrikeByDelta_spec hnew
  have hwing : QuotesDelta i.chain side new d := ⟨hquoted, hd⟩
  constructor
  · by_contra hle
    have hge := hfall new short d dShort hwing hshort (by rw [hat]; exact not_lt.mp hle)
    exact absurd (hge.trans hhi) (not_le.mpr hhigh)
  · by_contra hle
    have hge := hfall old new dOld d hold hwing (not_lt.mp hle)
    exact absurd (hlo.trans hge) (not_le.mpr hlow)

/-! ### A rise to 25050 -/

/-- A strike of which only the put is quoted. -/
private def quotedPut (strike bid ask delta : ℚ) : OptionChainStrike where
  pe := some { ltp := (bid + ask) / 2, bid, ask, delta := some delta, strike }

/-- A strike of which only the call is quoted. -/
private def quotedCall (strike bid ask delta : ℚ) : OptionChainStrike where
  ce := some { ltp := (bid + ask) / 2, bid, ask, delta := some delta, strike }

/-- The options of delta 0.19 are at 24400 and 25400. -/
def risenChain : OptionChain where
  underlyingSpot := 25050
  expiry := 739797
  strikes := (((Dict.empty.set 23800 (quotedPut 23800 9 11 (-5 / 100))).set 24400
    (quotedPut 24400 39 40 (-19 / 100))).set 25400 (quotedCall 25400 39 40 (19 / 100))).set 25800
    (quotedCall 25800 11 13 (8 / 100))

/-- A condor with wings at 23800 and 25800, half of whose credit of 240 is captured. -/
def risenInputs (shortPut : ℚ) : ProfitLockInputs where
  capturedFraction := 1 / 2
  entryCreditPts := 240
  dte := 15
  expiryType := .monthly
  vixIvr := (some 14, some (3 / 10))
  state := { activePutWidthPts := 500, activeCallWidthPts := 500 }
  chain := risenChain
  shortPutStrike := shortPut
  shortCallStrike := 25300
  oldLongPut := (risenChain.strikes.get? 23800).bind (·.pe)
  oldLongCall := (risenChain.strikes.get? 25800).bind (·.ce)

/-- The wings of a lock and its debit. -/
private def lockOf : ProfitLockDecision → Option (OptionLeg × OptionLeg × ℚ)
  | .zone2Lock newPut newCall dLock => some (newPut, newCall, dLock)
  | _ => none

private theorem eq_lock {d : ProfitLockDecision} (h : lockOf d = some (newPut, newCall, dLock)) :
    d = .zone2Lock newPut newCall dLock := by
  cases d with
  | zone2Lock p c q =>
    simp only [lockOf, Option.some.injEq, Prod.mk.injEq] at h
    obtain ⟨rfl, rfl, rfl⟩ := h
    rfl
  | _ => exact absurd h (by simp [lockOf])

private def newPutWing : OptionLeg := { ltp := 79 / 2, bid := 39, ask := 40, delta := some (-19 / 100), strike := 24400 }

private def newCallWing : OptionLeg := { ltp := 79 / 2, bid := 39, ask := 40, delta := some (19 / 100), strike := 25400 }

/-- The old wings, by side. -/
private def oldWing : Side → OptionLeg
  | .put => { ltp := 10, bid := 9, ask := 11, delta := some (-5 / 100), strike := 23800 }
  | .call => { ltp := 12, bid := 11, ask := 13, delta := some (8 / 100), strike := 25800 }

/-- The new wings, by side. -/
private def newWing : Side → OptionLeg
  | .put => newPutWing
  | .call => newCallWing

private theorem risen_legs (side : Side) :
    (risenInputs 24500).oldLong side = some (oldWing side) ∧
      ({} : ProfitLockConfig).deltaWing risenChain side = some (newWing side) := by
  revert side
  decide +kernel

/-- With the short put at 24500 the lock keeps its promise. -/
theorem lock_guarantees_iff_risen : LockGuarantees {} (risenInputs 24500) newPutWing newCallWing 60 := by
  have hlegs := risen_legs
  refine (lock_guarantees_iff (by norm_num [risenInputs]) (eq_lock (by decide +kernel))).mpr
    ⟨fun side new old hnew hold => ?_, ?_⟩
  · obtain rfl := Option.some.inj (hnew.symm.trans (hlegs side).2)
    obtain rfl := Option.some.inj (hold.symm.trans (hlegs side).1)
    unfold ProfitLockInputs.Narrows
    revert side
    decide +kernel
  · rintro oldPut oldCall newPut newCall ⟨hold, hold', hnew, hnew'⟩
    obtain rfl := Option.some.inj (hold.symm.trans (hlegs .put).1)
    obtain rfl := Option.some.inj (hold'.symm.trans (hlegs .call).1)
    obtain rfl := Option.some.inj (hnew.symm.trans (hlegs .put).2)
    obtain rfl := Option.some.inj (hnew'.symm.trans (hlegs .call).2)
    decide +kernel

/-- With the short put at 24300 the new put is bought above it. -/
theorem lock_inverts_put_side :
    ({} : ProfitLockConfig).evaluate (risenInputs 24300) = .zone2Lock newPutWing newCallWing 60 ∧
      (risenInputs 24300).shortPutStrike < newPutWing.strike ∧
      ¬LockGuarantees {} (risenInputs 24300) newPutWing newCallWing 60 := by
  refine ⟨eq_lock (by decide +kernel), by decide +kernel, fun h => ?_⟩
  have hput := (h.put _ rfl).1
  revert hput
  decide +kernel

end NiftyShield.Strategy.IronCondor
