import NiftyShield.Strategy.IcNiftyV1
import NiftyShield.Strategy.IcRolls

/-!
# The strikes of a condor across a roll

A condor has its strikes in the order long put, short put, short call, long call. A
`ROLL_WING` of V2 replaces both legs of a side (`src/strategy/ic_nifty_v2.py`), one of V1 the
short alone (`src/strategy/ic_nifty_v1.py`). The replacements are looked up by delta; where
that fails, strictly between the short and the wing.

V2 checks its new short against the other short, and the width; it takes the absolute width
and does not check on which side of the new short the new wing lies. V1 checks that its new
short is farther out of the money and not that it stays inside the hedge that is kept.

## What is proved

* `roll_keeps_order_iff`: a roll of V1 keeps the order and the width exactly when the leg of
  its delta band does not reach the hedge, a roll of V2 exactly when the wing of its band lies
  beyond the short of its band. After the search between short and wing they are always kept.
-/

namespace NiftyShield.Strategy.IronCondor

open NiftyShield.Instruments NiftyShield.Lib NiftyShield.Lib.Raising NiftyShield.Paper

/-! ### Strikes -/

/-- The strikes of a condor. -/
structure CondorStrikes where
  /-- Of the shorts. -/
  short : Side → ℚ
  /-- Of the wings. -/
  long : Side → ℚ

/-- The order of a condor. -/
def CondorStrikes.Ordered (k : CondorStrikes) : Prop :=
  k.long .put < k.short .put ∧ k.short .put < k.short .call ∧ k.short .call < k.long .call

/-- The width of a side. -/
def CondorStrikes.width (k : CondorStrikes) (side : Side) : ℚ := |k.short side - k.long side|

/-- The strikes with those of a side replaced. -/
def CondorStrikes.replace (k : CondorStrikes) (side : Side) (short long : ℚ) : CondorStrikes where
  short s := if s = side then short else k.short s
  long s := if s = side then long else k.long s

/-- A roll of a side keeps the order, and the side is no wider. -/
def KeepsOrder (k k' : CondorStrikes) (side : Side) : Prop := k'.Ordered ∧ k'.width side ≤ k.width side

/-- The positions are a condor with these strikes. -/
structure FourLegs (env : SignalEnv) (ps : List PaperPosition) (k : CondorStrikes) : Prop where
  /-- Each side has a short. -/
  short : ∀ side : Side, ∃ p ∈ ps, p.legRole = side.shortRole
  /-- And a wing. -/
  long : ∀ side : Side, ∃ p ∈ ps, p.legRole = side.longRole
  /-- The strikes of the shorts. -/
  shortStrike : ∀ side : Side, ∀ p ∈ ps, p.legRole = side.shortRole → env.positionStrike p = some (k.short side)
  /-- The strikes of the wings. -/
  longStrike : ∀ side : Side, ∀ p ∈ ps, p.legRole = side.longRole → env.positionStrike p = some (k.long side)

/-- A leg to open is an instrument of this strike. -/
def OpensAt (env : SignalEnv) (leg : LegSpec) (strike : ℚ) : Prop :=
  ∃ lookup inst, env.bod = some lookup ∧ inst ∈ lookup.instruments ∧ inst.instrumentKey = leg.instrumentKey ∧
    inst.strikePrice = some strike

/-- The legs to open take the strikes of a side to those of `k'`; a wing that is not opened
stays. -/
structure Rolled (env : SignalEnv) (k k' : CondorStrikes) (side : Side) (legs : List LegSpec) : Prop where
  /-- A new short is opened. -/
  short : ∃ leg ∈ legs, leg.legRole = side.shortRole ∧ OpensAt env leg (k'.short side)
  /-- A new wing is opened, or the old one is kept. -/
  long : (∃ leg ∈ legs, leg.legRole = side.longRole ∧ OpensAt env leg (k'.long side)) ∨
    ((∀ leg ∈ legs, leg.legRole ≠ side.longRole) ∧ k'.long side = k.long side)
  /-- The other side stays. -/
  other : k'.short side.opposite = k.short side.opposite ∧ k'.long side.opposite = k.long side.opposite

/-- The wing of V2's delta band lies beyond the short of its delta band. -/
def WingBeyondShort (ic : IronCondorV2) (env : SignalEnv) (side : Side) : Prop :=
  ∀ short wing, ic.shortPick env side = some short → ic.selectLongWing env side = some wing →
    side.fartherOtm short.strike wing.strike = true

/-- The leg of V1's delta band, if the BOD file has it, does not reach the hedge. -/
def ShortInsideHedge (ic : IronCondorV1) (env : SignalEnv) (k : CondorStrikes) (side : Side) : Prop :=
  ∀ candidate, ic.rollPick env side = some candidate →
    (env.resolveInstrumentKey candidate.strike side.typeText env.market.expiry).isSome = true →
      side.fartherOtm candidate.strike (k.long side) = true

/-! ### Order and width of a replaced side -/

variable {k : CondorStrikes} {side : Side} {short long : ℚ}

@[simp] theorem opposite_ne (side : Side) : side.opposite ≠ side := by
  cases side with
  | put => exact (by decide : Side.call ≠ Side.put)
  | call => exact (by decide : Side.put ≠ Side.call)

theorem replace_self : (k.replace side short long).short side = short ∧ (k.replace side short long).long side = long :=
  ⟨if_pos rfl, if_pos rfl⟩

theorem replace_opposite : (k.replace side short long).short side.opposite = k.short side.opposite ∧
    (k.replace side short long).long side.opposite = k.long side.opposite :=
  ⟨if_neg (opposite_ne side), if_neg (opposite_ne side)⟩

/-- With a short that stays on its side of the other, the order is that of the replaced
side. -/
theorem replace_ordered_iff (hk : k.Ordered) (hinner : notInverted side short (some (k.short side.opposite)) = true) :
    (k.replace side short long).Ordered ↔ side.fartherOtm short long = true := by
  obtain ⟨hput, -, hcall⟩ := hk
  cases side with
  | put =>
    have hinner' : short < k.short .call := of_decide_eq_true hinner
    constructor
    · exact fun h => decide_eq_true h.1
    · exact fun h => ⟨of_decide_eq_true h, hinner', hcall⟩
  | call =>
    have hinner' : k.short .put < short := of_decide_eq_true hinner
    constructor
    · exact fun h => decide_eq_true h.2.2
    · exact fun h => ⟨hput, hinner', of_decide_eq_true h⟩

/-- A short that moves out of the money stays on its side of the other. -/
theorem notInverted_of_farther (hk : k.Ordered) (h : side.fartherOtm (k.short side) short = true) :
    notInverted side short (some (k.short side.opposite)) = true := by
  cases side with
  | put => exact decide_eq_true ((of_decide_eq_true h : short < k.short .put).trans hk.2.1)
  | call => exact decide_eq_true (hk.2.1.trans (of_decide_eq_true h : k.short .call < short))

/-- A short between the old one and the wing narrows the side. -/
theorem width_of_between (hout : side.fartherOtm (k.short side) short = true)
    (hin : side.fartherOtm short (k.long side) = true) : |short - k.long side| ≤ k.width side := by
  cases side with
  | put =>
    have hlow : k.long .put < short := of_decide_eq_true hin
    have hhigh : short < k.short .put := of_decide_eq_true hout
    rw [CondorStrikes.width, abs_of_pos (sub_pos.mpr hlow), abs_of_pos (sub_pos.mpr (hlow.trans hhigh))]
    exact sub_le_sub_right hhigh.le _
  | call =>
    have hlow : k.short .call < short := of_decide_eq_true hout
    have hhigh : short < k.long .call := of_decide_eq_true hin
    rw [CondorStrikes.width, abs_of_neg (sub_neg.mpr hhigh), abs_of_neg (sub_neg.mpr (hlow.trans hhigh))]
    linarith

/-- Not being farther out leaves a strike short of the wing. -/
theorem inside_of_not_farther (hk : k.Ordered) (h : side.fartherOtm (k.short side) short = false) :
    side.fartherOtm short (k.long side) = true := by
  cases side with
  | put => exact decide_eq_true (hk.1.trans_le (not_lt.mp (of_decide_eq_false h)))
  | call => exact decide_eq_true ((not_lt.mp (of_decide_eq_false h)).trans_lt hk.2.2)

/-! ### Legs, keys and strikes -/

variable {env : SignalEnv}

/-- A key that is resolved for a strike is an instrument of that strike. -/
theorem opensAt_of_resolved {strike : ℚ} {optionType : String} {expiry : Date} {leg : LegSpec}
    (h : env.resolveInstrumentKey strike optionType expiry = some leg.instrumentKey) : OpensAt env leg strike := by
  obtain ⟨inst, hinst, hkey⟩ := Option.map_eq_some_iff.mp h
  obtain ⟨lookup, hbod, hhead⟩ := Option.bind_eq_some_iff.mp hinst
  have hmem := List.mem_of_mem_take (List.mem_of_mem_head? hhead)
  obtain ⟨hrow, hpass⟩ := List.mem_filter.mp hmem
  simp only [Bool.and_eq_true, Bool.or_eq_true, decide_eq_true_eq, Option.isNone_some, Bool.false_eq_true, false_or]
    at hpass
  exact ⟨lookup, inst, hbod, hrow, hkey, hpass.1.2⟩

/-- The leg of a position in the chain carries the strike of the position. -/
theorem strike_of_findLeg (hkeyed : KeyedByStrike env.market) {p : PaperPosition} {leg : OptionLeg}
    (h : env.findLeg p.instrumentKey = some leg) : env.positionStrike p = some leg.strike := by
  unfold SignalEnv.findLeg at h
  unfold SignalEnv.positionStrike
  split at h
  next keyed hkey =>
    obtain ⟨⟨strike, optionType⟩, hread, h⟩ := Option.bind_eq_some_iff.mp h
    obtain ⟨strikeData, hdata, hleg⟩ := Option.bind_eq_some_iff.mp h
    rw [hread, hkeyed _ strikeData optionType leg hdata hleg]
  next hkey =>
    rw [hkey]
    obtain ⟨inst, hinst, h⟩ := Option.bind_eq_some_iff.mp h
    obtain ⟨strike, hstrike, h⟩ := Option.bind_eq_some_iff.mp h
    have hquoted : ∃ strikeData optionType, env.market.strikes.get? strike = some strikeData ∧
        strikeData.side optionType = some leg := by
      split at h
      next =>
        obtain ⟨optionType, -, h⟩ := Option.bind_eq_some_iff.mp h
        obtain ⟨strikeData, hdata, hleg⟩ := Option.bind_eq_some_iff.mp h
        exact ⟨strikeData, optionType, hdata, hleg⟩
      next =>
        obtain ⟨optionType, -, h⟩ := Option.bind_eq_some_iff.mp h
        obtain ⟨strikeData, hdata, hleg⟩ := Option.bind_eq_some_iff.mp h
        exact ⟨strikeData, optionType, hdata, hleg⟩
      next => exact absurd h (by simp)
    obtain ⟨strikeData, optionType, hdata, hleg⟩ := hquoted
    rw [hinst, hkeyed strike strikeData optionType leg hdata hleg]
    exact hstrike

/-- The replacement search looks strictly between the short and the wing. -/
theorem between_of_search (hkeyed : KeyedByStrike env.market)
    {wing otherSideWidthPts dCumPts dLockPts kPts entryCreditPts floorBudget minPremium : ℚ} {leg : OptionLeg}
    (h : searchNarrowWingReplacement env.market side.optionType short wing otherSideWidthPts dCumPts dLockPts kPts
      entryCreditPts floorBudget minPremium = some leg) :
    side.fartherOtm short leg.strike = true ∧ side.fartherOtm leg.strike wing = true := by
  have hbetween := searchNarrowWingReplacement_between hkeyed h
  cases side with
  | put =>
    rw [if_neg (by decide)] at hbetween
    exact ⟨decide_eq_true hbetween.2, decide_eq_true hbetween.1⟩
  | call =>
    rw [if_pos (show Side.call.optionType = OptionType.ce from rfl)] at hbetween
    exact ⟨decide_eq_true hbetween.1, decide_eq_true hbetween.2⟩

/-! ### The rolls of the two versions -/

variable {ps : List PaperPosition}

theorem mem_of_firstOf {role : String} {p : PaperPosition} (h : firstOf ps role = some p) :
    p ∈ ps ∧ p.legRole = role := by
  refine ⟨List.mem_of_find?_eq_some h, ?_⟩
  simpa using List.find?_some h

/-- The strike of the first position of a role. -/
theorem FourLegs.first_strike (h : FourLegs env ps k) (side : Side) :
    (firstOf ps side.shortRole).bind env.positionStrike = some (k.short side) := by
  obtain ⟨p, hp, hrole⟩ := h.short side
  have hsome : (firstOf ps side.shortRole).isSome = true := by
    rw [firstOf, List.find?_isSome]
    exact ⟨p, hp, by simpa using hrole⟩
  obtain ⟨q, hq⟩ := Option.isSome_iff_exists.mp hsome
  obtain ⟨hmem, hrole⟩ := mem_of_firstOf hq
  rw [hq]
  exact h.shortStrike side q hmem hrole

/-- **A roll of V2** keeps the order exactly when the wing of its band lies beyond the
short. -/
theorem rollV2_keeps_order_iff {ic : IronCondorV2} {st : V2State} {c : LadderContext} {r : RollParts}
    (hkeyed : KeyedByStrike env.market) (hk : k.Ordered) (hfour : FourLegs env c.positions k)
    (hr : r.Checked ic env st c side) :
    Rolled env k (k.replace side r.newShort.strike r.newLong.strike) side
        (RollResult.rollWing side (r.legs side)).toSignal.legsToOpen ∧
      (KeepsOrder k (k.replace side r.newShort.strike r.newLong.strike) side ↔ WingBeyondShort ic env side) := by
  obtain ⟨hshort, hshortRole⟩ := mem_of_firstOf hr.oldShort
  obtain ⟨hlong, hlongRole⟩ := mem_of_firstOf hr.oldLong
  have holdShort := Option.some.inj (hr.strikes.1.symm.trans (hfour.shortStrike side _ hshort hshortRole))
  have holdLong := Option.some.inj (hr.strikes.2.symm.trans (hfour.longStrike side _ hlong hlongRole))
  have hinner := hr.notInverted
  rw [hfour.first_strike side.opposite] at hinner
  have hwidth : (k.replace side r.newShort.strike r.newLong.strike).width side ≤ k.width side := by
    rw [CondorStrikes.width, replace_self.1, replace_self.2, CondorStrikes.width, ← holdShort, ← holdLong]
    exact hr.width
  constructor
  · refine ⟨?_, Or.inl ?_, replace_opposite⟩
    · rw [replace_self.1, r.legsToOpen]
      exact ⟨_, List.mem_cons_self, rfl, opensAt_of_resolved hr.keys.1⟩
    · rw [replace_self.2, r.legsToOpen]
      exact ⟨_, List.mem_cons_of_mem _ List.mem_cons_self, rfl, opensAt_of_resolved hr.keys.2⟩
  · rw [KeepsOrder, and_iff_left hwidth, replace_ordered_iff hk hinner]
    have hnew := hr.newLong
    cases hpick : ic.selectLongWing env side with
    | some wing =>
      rw [hpick] at hnew
      obtain rfl : wing = r.newLong := Option.some.inj hnew
      constructor
      · intro hbeyond short wing' hshort' hwing'
        obtain rfl := Option.some.inj (hshort'.symm.trans hr.newShort)
        obtain rfl := Option.some.inj (hwing'.symm.trans hpick)
        exact hbeyond
      · exact fun h => h r.newShort r.newLong hr.newShort hpick
    | none =>
      -- the wing is one the search found
      rw [hpick] at hnew
      have hbetween := between_of_search hkeyed hnew
      refine iff_of_true hbetween.1 fun short wing _ hwing => ?_
      rw [hpick] at hwing
      exact absurd hwing (by simp)

theorem shortRole_ofShortRole {legRole : String} (h : legRole ∈ ["short_call", "short_put"]) :
    (Side.ofShortRole legRole).shortRole = legRole := by
  rcases List.mem_cons.mp h with rfl | h
  · rfl
  · obtain rfl := List.mem_singleton.mp h
    rfl

/-- The leg of a replacement is an instrument of the candidate's strike. -/
theorem rollTarget_opens {candidate : OptionLeg} {notes : String} {target : LegSpec}
    (h : env.rollTarget side candidate notes = some target) :
    target.legRole = side.shortRole ∧ OpensAt env target candidate.strike := by
  obtain ⟨key, hkey, rfl⟩ := Option.map_eq_some_iff.mp h
  exact ⟨rfl, opensAt_of_resolved hkey⟩

/-- A target in the place of the short, with the wing kept. -/
theorem rolled_of_target {target : LegSpec} {strike : ℚ} (hrole : target.legRole = side.shortRole)
    (hopens : OpensAt env target strike) : Rolled env k (k.replace side strike (k.long side)) side [target] := by
  refine ⟨⟨target, List.mem_singleton_self _, hrole, ?_⟩, Or.inr ⟨?_, replace_self.2⟩, replace_opposite⟩
  · rw [replace_self.1]
    exact hopens
  · intro leg hleg
    obtain rfl := List.mem_singleton.mp hleg
    rw [hrole]
    exact (side.longRole_ne_shortRole side).symm

/-- A new short farther out than the old one keeps the order exactly when it does not reach
the hedge. -/
theorem replace_short_iff {strike : ℚ} (hk : k.Ordered) (hout : side.fartherOtm (k.short side) strike = true) :
    KeepsOrder k (k.replace side strike (k.long side)) side ↔ side.fartherOtm strike (k.long side) = true := by
  rw [KeepsOrder, replace_ordered_iff hk (notInverted_of_farther hk hout)]
  refine and_iff_left_of_imp fun hin => ?_
  rw [CondorStrikes.width, replace_self.1, replace_self.2]
  exact width_of_between hout hin

/-- **A roll of V1** keeps the order exactly when the leg of its band does not reach the
hedge. -/
theorem rollV1_keeps_order_iff {ic : IronCondorV1} {S : IcStore} {optLeg : OptionLeg} {target : LegSpec}
    (hkeyed : KeyedByStrike env.market) (hk : k.Ordered) (hfour : FourLegs env ps k)
    (hstrike : optLeg.strike = k.short side) (h : ic.rollTargetOf env S ps side optLeg = some target) :
    ∃ k', Rolled env k k' side [target] ∧ (KeepsOrder k k' side ↔ ShortInsideHedge ic env k side) := by
  unfold IronCondorV1.rollTargetOf at h
  cases hselect : ic.selectWingRollTarget env side optLeg.strike with
  | some selected =>
    rw [hselect] at h
    obtain rfl : selected = target := Option.some.inj h
    obtain ⟨candidate, hpick, hcandidate⟩ := Option.bind_eq_some_iff.mp hselect
    split at hcandidate
    next hout =>
      obtain ⟨hrole, hopens⟩ := rollTarget_opens hcandidate
      rw [hstrike] at hout
      refine ⟨_, rolled_of_target hrole hopens, ?_⟩
      rw [replace_short_iff hk hout]
      constructor
      · intro hin candidate' hpick' _
        obtain rfl := Option.some.inj (hpick'.symm.trans hpick)
        exact hin
      · intro hinside
        obtain ⟨key, hkey, -⟩ := Option.map_eq_some_iff.mp hcandidate
        exact hinside candidate hpick (Option.isSome_iff_exists.mpr ⟨key, hkey⟩)
    next => exact absurd hcandidate (by simp)
  | none =>
    rw [hselect] at h
    obtain ⟨longLeg, hlong, hsearch⟩ := Option.bind_eq_some_iff.mp h
    obtain ⟨p, hp, hleg⟩ := Option.bind_eq_some_iff.mp hlong
    obtain ⟨hmem, hrole⟩ := mem_of_positionForRole hp
    have hlongStrike : longLeg.strike = k.long side :=
      Option.some.inj ((strike_of_findLeg hkeyed hleg).symm.trans (hfour.longStrike side p hmem hrole))
    obtain ⟨candidate, hfound, hcandidate⟩ := Option.bind_eq_some_iff.mp hsearch
    obtain ⟨hrole', hopens⟩ := rollTarget_opens hcandidate
    obtain ⟨hout, hin⟩ := between_of_search hkeyed hfound
    rw [hstrike] at hout
    rw [hlongStrike] at hin
    refine ⟨_, rolled_of_target hrole' hopens, ?_⟩
    rw [replace_short_iff hk hout]
    -- the leg of the band was refused because it is not farther out
    refine iff_of_true hin fun pick hpick hkey => ?_
    obtain ⟨key, hkey⟩ := Option.isSome_iff_exists.mp hkey
    rw [IronCondorV1.selectWingRollTarget, hpick, Option.bind_some, hstrike, SignalEnv.rollTarget, hkey] at hselect
    split at hselect
    next => exact absurd hselect (by simp)
    next hnot => exact inside_of_not_farther hk (eq_false_of_ne_true hnot)

/-- **The order of a condor across a roll**: V1 keeps it exactly when the leg of its delta
band does not reach the hedge, V2 exactly when the wing of its band lies beyond the short of
its band. -/
theorem roll_keeps_order_iff (hkeyed : KeyedByStrike env.market) (hk : k.Ordered) :
    (∀ (ic : IronCondorV1) (S : IcStore) (positions : List PaperPosition),
        FourLegs env (icPositions ic.condor positions) k →
        ∀ e ∈ ic.checkSignals env S positions, e.eventType = "ROLL_WING" →
          ∃ side k', e.legRole = some side.shortRole ∧ Rolled env k k' side e.legsToOpen ∧
            (KeepsOrder k k' side ↔ ShortInsideHedge ic env k side)) ∧
      ∀ (ic : IronCondorV2) (st st' : V2State) (positions : List PaperPosition) (events : List IcSignal),
        FourLegs env (icPositions ic.condor positions) k → ic.checkSignals env positions st = .ok events st' →
        ∀ e ∈ events, e.eventType = "ROLL_WING" →
          ∃ side k', e.side = some side ∧ Rolled env k k' side e.legsToOpen ∧
            (KeepsOrder k k' side ↔ WingBeyondShort ic env side) := by
  constructor
  · intro ic S positions hfour e he htype
    obtain ⟨e', he', htype', hrole, hopen⟩ := mem_checkSignalsV1 he
    obtain ⟨pos, hpos, hshort, optLeg, target, hleg, htarget, rfl⟩ := allSignals_roll he' (htype' ▸ htype)
    have hside := shortRole_ofShortRole hshort
    have hstrike : optLeg.strike = k.short (Side.ofShortRole pos.legRole) :=
      Option.some.inj ((strike_of_findLeg hkeyed hleg).symm.trans (hfour.shortStrike _ pos hpos hside.symm))
    obtain ⟨k', hrolled, hiff⟩ := rollV1_keeps_order_iff hkeyed hk hfour hstrike htarget
    refine ⟨Side.ofShortRole pos.legRole, k', ?_, ?_, hiff⟩
    · rw [hrole, hside]
      rfl
    · rw [hopen]
      exact hrolled
  · intro ic st st' positions events hfour hcheck e he htype
    obtain ⟨c, side, r, hladder, -, hr, rfl⟩ := checkSignals_roll hcheck he htype
    rw [← upperLadder_undecided hladder] at hfour
    exact ⟨side, _, rfl, rollV2_keeps_order_iff hkeyed hk hfour hr⟩

/-! ### A breached short call -/

/-- A Nifty option of the June expiry. -/
def juneRow (key typeText : String) (strike : ℚ) : Instrument where
  instrumentKey := key
  instrumentType := some typeText
  underlyingSymbol := "NIFTY"
  strikePrice := some strike
  expiry := some 739797

/-- The options of the condors. -/
def juneOptions : InstrumentLookup where
  instruments :=
    [juneRow "NSE_FO|71" "PE" 24000, juneRow "NSE_FO|72" "PE" 24200, juneRow "NSE_FO|73" "CE" 25200,
      juneRow "NSE_FO|74" "CE" 25400, juneRow "NSE_FO|75" "CE" 25500, juneRow "NSE_FO|76" "CE" 25600]

/-- A strike of which only the call is quoted. -/
def callStrike (strike ltp delta : ℚ) : OptionChainStrike where
  ce := some { ltp := ltp, bid := ltp - 1, ask := ltp, delta := some delta, strike := strike }

/-- The calls after a rise. -/
def risenCalls : OptionChain where
  underlyingSpot := 25000
  expiry := 739797
  strikes := (((Dict.empty.set 25200 (callStrike 25200 180 (36 / 100))).set 25400
    (callStrike 25400 110 (22 / 100))).set 25500 (callStrike 25500 60 (10 / 100))).set 25600
    (callStrike 25600 30 (5 / 100))

/-- What a call reads on 16 June. -/
def risenEnv : SignalEnv where
  market := risenCalls
  bod := some juneOptions
  cachedBod := some juneOptions
  today := 739783

private theorem risen_keyed : KeyedByStrike risenEnv.market := by
  intro strike strikeData optionType leg hdata hleg
  have hentries : ∀ entry ∈ risenCalls.strikes.entries, ∀ t ∈ [OptionType.ce, OptionType.pe], ∀ leg ∈ entry.2.side t,
      leg.strike = entry.1 := by decide +kernel
  have hside : optionType ∈ [OptionType.ce, OptionType.pe] := by
    cases optionType with
    | ce => decide
    | pe => decide
    | _ => exact absurd hleg (by simp [OptionChainStrike.side])
  exact hentries (strike, strikeData) (Dict.mem_entries_iff.mpr hdata) optionType hside leg hleg

/-- A condor with the call wing of a key. -/
private def condorOf (strategyName callWing : String) : List PaperPosition :=
  [⟨strategyName, "long_put_hedge", 65, 20, 0, "NSE_FO|71", none, none⟩,
    ⟨strategyName, "short_put", -65, 0, 60, "NSE_FO|72", none, none⟩,
    ⟨strategyName, "short_call", -65, 0, 70, "NSE_FO|73", none, none⟩,
    ⟨strategyName, "long_call_hedge", 65, 30, 0, callWing, none, none⟩]

/-- Its strikes. -/
private def strikesOf (callWing : ℚ) : CondorStrikes where
  short
    | .put => 24200
    | .call => 25200
  long
    | .put => 24000
    | .call => callWing

/-- The weekly condor of V1. -/
private def weeklyV1 : IronCondorV1 where
  config := weeklyConfig

def noCredit : IcStore where
  trades := .empty

/-- At those calls with the wing at 25600 both rolls keep the order. -/
theorem roll_keeps_order_iff_risen :
    (∃ e ∈ weeklyV1.checkSignals risenEnv noCredit (condorOf "paper_ic_nifty_v1_weekly" "NSE_FO|76"),
        ∃ side k', Rolled risenEnv (strikesOf 25600) k' side e.legsToOpen ∧ KeepsOrder (strikesOf 25600) k' side) ∧
      ∃ events st', IronCondorV2.checkSignals {} risenEnv (condorOf "paper_ic_nifty_v2_monthly" "NSE_FO|76")
          { store := noCredit } = .ok events st' ∧
        ∃ e ∈ events, ∃ side k', Rolled risenEnv (strikesOf 25600) k' side e.legsToOpen ∧
          KeepsOrder (strikesOf 25600) k' side := by
  have hordered : (strikesOf 25600).Ordered := by
    unfold CondorStrikes.Ordered
    decide +kernel
  have hfour : ∀ ps ∈ [icPositions weeklyV1.condor (condorOf "paper_ic_nifty_v1_weekly" "NSE_FO|76"),
      icPositions (IronCondorV2.condor {}) (condorOf "paper_ic_nifty_v2_monthly" "NSE_FO|76")],
      FourLegs risenEnv ps (strikesOf 25600) := by
    intro ps hps
    refine ⟨?_, ?_, ?_, ?_⟩ <;> revert ps <;> decide +kernel
  obtain ⟨hv1, hv2⟩ := @roll_keeps_order_iff (strikesOf 25600) risenEnv risen_keyed hordered
  constructor
  · obtain ⟨e, he, htype⟩ : ∃ e ∈ weeklyV1.checkSignals risenEnv noCredit
        (condorOf "paper_ic_nifty_v1_weekly" "NSE_FO|76"), e.eventType = "ROLL_WING" := by
      decide +kernel
    obtain ⟨side, k', -, hrolled, hiff⟩ := hv1 weeklyV1 noCredit _ (hfour _ List.mem_cons_self) e he htype
    have hinside : ∀ side : Side, ∀ candidate ∈ weeklyV1.rollPick risenEnv side,
        side.fartherOtm candidate.strike ((strikesOf 25600).long side) = true := by
      decide +kernel
    exact ⟨e, he, side, k', hrolled, hiff.mpr fun candidate hpick _ => hinside side candidate hpick⟩
  · have hends : returnsWith (fun events _ => decide (∃ e ∈ events, e.eventType = "ROLL_WING"))
        (IronCondorV2.checkSignals {} risenEnv (condorOf "paper_ic_nifty_v2_monthly" "NSE_FO|76")
          { store := noCredit }) = true := by
      decide +kernel
    obtain ⟨events, st', hcheck, hroll⟩ := returnsWith_iff.mp hends
    obtain ⟨e, he, htype⟩ := of_decide_eq_true hroll
    obtain ⟨side, k', -, hrolled, hiff⟩ := hv2 {} _ st' _ events (hfour _ (by simp)) hcheck e he htype
    have hbeyond : ∀ side : Side, ∀ short ∈ IronCondorV2.shortPick {} risenEnv side,
        ∀ wing ∈ IronCondorV2.selectLongWing {} risenEnv side, side.fartherOtm short.strike wing.strike = true := by
      decide +kernel
    exact ⟨events, st', hcheck, e, he, side, k', hrolled, hiff.mpr fun short wing hshort hwing =>
      hbeyond side short hshort wing hwing⟩

/-- With the wing at 25400 V1 sells the call of 25500, beyond its hedge. -/
theorem rolled_short_crosses_hedge :
    KeyedByStrike risenEnv.market ∧ (strikesOf 25400).Ordered ∧
      FourLegs risenEnv (icPositions weeklyV1.condor (condorOf "paper_ic_nifty_v1_weekly" "NSE_FO|74"))
        (strikesOf 25400) ∧
      ∃ e ∈ weeklyV1.checkSignals risenEnv noCredit (condorOf "paper_ic_nifty_v1_weekly" "NSE_FO|74"),
        e.eventType = "ROLL_WING" ∧ e.legRole = some "short_call" ∧
          ∀ k', Rolled risenEnv (strikesOf 25400) k' .call e.legsToOpen → ¬k'.Ordered := by
  refine ⟨risen_keyed, ?_, ?_, ?_⟩
  · unfold CondorStrikes.Ordered
    decide +kernel
  · refine ⟨?_, ?_, ?_, ?_⟩ <;> decide +kernel
  · obtain ⟨e, he, htype, hrole, hopen⟩ : ∃ e ∈ weeklyV1.checkSignals risenEnv noCredit
        (condorOf "paper_ic_nifty_v1_weekly" "NSE_FO|74"), e.eventType = "ROLL_WING" ∧ e.legRole = some "short_call" ∧
          e.legsToOpen.map (fun leg => (leg.instrumentKey, leg.legRole)) = [("NSE_FO|75", "short_call")] := by
      decide +kernel
    refine ⟨e, he, htype, hrole, fun k' hrolled hordered => ?_⟩
    have hlegs : ∀ leg ∈ e.legsToOpen, (leg.instrumentKey, leg.legRole) = ("NSE_FO|75", "short_call") := fun leg hleg =>
      List.mem_singleton.mp (hopen ▸ List.mem_map_of_mem hleg)
    -- the key is that of the call of 25500
    have hshort : k'.short .call = 25500 := by
      obtain ⟨leg, hleg, -, lookup, inst, hbod, hinst, hkey, hstrike⟩ := hrolled.short
      obtain rfl : juneOptions = lookup := Option.some.inj hbod
      rw [(Prod.mk.inj (hlegs leg hleg)).1] at hkey
      have hrow : ∀ inst ∈ juneOptions.instruments, inst.instrumentKey = "NSE_FO|75" →
          inst.strikePrice = some 25500 := by
        decide +kernel
      exact Option.some.inj (hstrike.symm.trans (hrow inst hinst hkey))
    have hlong : k'.long .call = 25400 := by
      rcases hrolled.long with ⟨leg, hleg, hrole', -⟩ | ⟨-, hkept⟩
      · rw [(Prod.mk.inj (hlegs leg hleg)).2] at hrole'
        exact absurd hrole' (by decide)
      · exact hkept
    have hlast := hordered.2.2
    rw [hshort, hlong] at hlast
    exact absurd hlast (by norm_num)

end NiftyShield.Strategy.IronCondor
