import NiftyShield.Models.Options
import NiftyShield.Paper.TrackSnapshot
import Mathlib.Algebra.BigOperators.Ring.Finset

/-!
# Overlay coverage of a track

`compute_overlay_coverage` (`src/portfolio/overlay_coverage.py`) weighs the open overlay
positions by their delta (`resolve_leg_delta`, `src/paper/track_snapshot.py`). It reads one
position of each overlay role: `get_position` without an instrument gives the one that was
entered last, so that during a roll the other contract of the role is not counted.

## What is proved

`coverage_counts_all_iff`: for given deltas, every open leg is counted exactly when those
left out (`uncounted`) weigh nothing together; for all deltas, exactly when the quantities
left out cancel in each instrument. A role with one open contract leaves nothing out
(`uncounted_of_one_each`).

## Honest scope

The chain of an expiry is what its first request gives, `none` if that raises: it is kept for
the rest of the call.
-/

namespace NiftyShield.Portfolio

open NiftyShield.Lib NiftyShield.Paper NiftyShield.Instruments

/-! ### The delta of a leg -/

/-- `NIFTYBEES_BETA_TO_NIFTY`. -/
def niftybeesBetaToNifty : ℚ := 92 / 100

/-- `leg_role.startswith("overlay_")`. -/
def isOverlayRole (role : String) : Bool := "overlay_".toList.isPrefixOf role.toList

/-- The Greeks of an instrument from the chain of its expiry. -/
def chainGreeks (lookup : InstrumentLookup) (chainOf : Date → Option OptionChain) (instrumentKey : String) :
    Option TrackGreeks := do
  let inst ← lookup.getByKey instrumentKey
  let parsedExpiry ← inst.expiry
  let strike := inst.strikePrice.getD 0
  guard (0 < strike)
  let chain ← chainOf parsedExpiry
  let strikeData ← chain.strikes.get? strike
  let legData ← if inst.instrumentType = some "CE" then strikeData.ce else strikeData.pe
  return { netDelta := legData.delta.getD 0, netTheta := legData.theta.getD 0, netVega := legData.vega.getD 0 }

/-- `resolve_leg_delta`: zero where the chain has nothing. -/
def resolveLegDelta (lookup : InstrumentLookup) (chainOf : Date → Option OptionChain) (pos : PaperPosition) :
    TrackGreeks :=
  if pos.legRole = "base_etf" then { netDelta := niftybeesBetaToNifty }
  else if pos.legRole = "base_futures" then { netDelta := 1 }
  else if pos.legRole ≠ "base_ditm_call" && !isOverlayRole pos.legRole then {}
  else (chainGreeks lookup chainOf pos.instrumentKey).getD {}

/-- The delta of an instrument. -/
def deltaOf (lookup : InstrumentLookup) (chainOf : Date → Option OptionChain) (instrumentKey : String) : ℚ :=
  ((chainGreeks lookup chainOf instrumentKey).getD {}).netDelta

/-! ### The coverage -/

/-- `OverlayCoverage`. -/
structure OverlayCoverage where
  /-- `track_name`. -/
  trackName : String
  /-- `track_effective_units`. -/
  trackEffectiveUnits : ℚ
  /-- `overlay_effective_units`. -/
  overlayEffectiveUnits : ℚ
  /-- `coverage_pct`, undefined for a track without exposure. -/
  coveragePct : Option ℚ
  /-- `as_of`. -/
  asOf : Date
  deriving DecidableEq

/-- `_BASE_LEG_ROLE_BY_TRACK`. -/
def baseLegRoleByTrack : String → Option String
  | "paper_nifty_spot" => some "base_etf"
  | "paper_nifty_futures" => some "base_futures"
  | "paper_nifty_proxy" => some "base_ditm_call"
  | _ => none

/-- The open positions `compute_overlay_coverage` reads: of each overlay role, the one
entered last. -/
def openOverlayPositions (T : PaperTrades) (storeLookup : Option InstrumentLookup) (overlayNamespace : String) :
    List PaperPosition :=
  (((sortedRoles (T.getTrades overlayNamespace)).filter isOverlayRole).map fun role =>
    T.getPosition storeLookup overlayNamespace role none).filter fun p => p.netQty ≠ 0

/-- The exposure of a position. -/
def effectiveUnits (lookup : InstrumentLookup) (chainOf : Date → Option OptionChain) (pos : PaperPosition) : ℚ :=
  (resolveLegDelta lookup chainOf pos).netDelta * pos.netQty

/-- `compute_overlay_coverage`; `none` is the `KeyError` of an unknown track. -/
def computeOverlayCoverage (T : PaperTrades) (storeLookup : Option InstrumentLookup) (lookup : InstrumentLookup)
    (chainOf : Date → Option OptionChain) (trackNamespace : String) (snapshotDate : Date)
    (overlayNamespace : String) : Option OverlayCoverage := do
  let baseRole ← baseLegRoleByTrack trackNamespace
  let basePos := T.getPosition storeLookup trackNamespace baseRole none
  let trackEffectiveUnits := if basePos.netQty ≠ 0 then effectiveUnits lookup chainOf basePos else 0
  let overlayEffectiveUnits :=
    ((openOverlayPositions T storeLookup overlayNamespace).map (effectiveUnits lookup chainOf)).sum
  return {
    trackName := trackNamespace
    trackEffectiveUnits
    overlayEffectiveUnits
    coveragePct := if trackEffectiveUnits ≠ 0 then some (overlayEffectiveUnits / trackEffectiveUnits * 100) else none
    asOf := snapshotDate }

/-! ### What is left out -/

section Coverage

variable (T : PaperTrades) (storeLookup : Option InstrumentLookup) (overlayNamespace : String)

/-- The open overlay positions of the ledger. -/
def overlayPositions : List PaperPosition :=
  (T.getPositions storeLookup overlayNamespace).filter fun p => isOverlayRole p.legRole

/-- Those that are not the last entered of their role. -/
def uncounted : List PaperPosition :=
  (overlayPositions T storeLookup overlayNamespace).filter fun p => !isPicked T storeLookup overlayNamespace p

/-- The net quantity of an instrument over the positions left out. -/
def uncountedNet (key : String) : ℤ :=
  ((Grouping.group PaperPosition.instrumentKey (uncounted T storeLookup overlayNamespace) key).map
    PaperPosition.netQty).sum

/-- Whatever the track, the effective units are delta times net quantity over all open overlay
positions. -/
def CountsEveryLeg (lookup : InstrumentLookup) (chainOf : Date → Option OptionChain) : Prop :=
  ∀ track, (baseLegRoleByTrack track).isSome = true → ∀ day, ∃ c,
    computeOverlayCoverage T storeLookup lookup chainOf track day overlayNamespace = some c ∧
      c.overlayEffectiveUnits = ((overlayPositions T storeLookup overlayNamespace).map fun p =>
        deltaOf lookup chainOf p.instrumentKey * p.netQty).sum

variable {T storeLookup overlayNamespace}
variable {lookup : InstrumentLookup} {chainOf : Date → Option OptionChain}

/-- The delta of an overlay leg is its instrument's. -/
theorem resolveLegDelta_overlay {p : PaperPosition} (h : isOverlayRole p.legRole = true) :
    (resolveLegDelta lookup chainOf p).netDelta = deltaOf lookup chainOf p.instrumentKey := by
  have hne : ∀ role : String, isOverlayRole role = false → p.legRole ≠ role := by
    rintro role hrole rfl
    rw [h] at hrole
    exact absurd hrole (by decide)
  rw [resolveLegDelta, if_neg (hne _ (by decide)), if_neg (hne _ (by decide)), h, Bool.not_true, Bool.and_false,
    if_neg Bool.false_ne_true]
  rfl

variable (T storeLookup overlayNamespace) in
/-- All the exposure is what is counted and what is left out. -/
theorem sum_overlayPositions (f : PaperPosition → ℚ) :
    ((overlayPositions T storeLookup overlayNamespace).map f).sum =
      ((openOverlayPositions T storeLookup overlayNamespace).map f).sum +
        ((uncounted T storeLookup overlayNamespace).map f).sum := by
  have hcounted : (openOverlayPositions T storeLookup overlayNamespace).Perm
      ((overlayPositions T storeLookup overlayNamespace).filter (isPicked T storeLookup overlayNamespace)) := by
    refine (pickedPositions_perm isOverlayRole).trans (List.Perm.of_eq ?_)
    rw [overlayPositions, List.filter_filter]
    exact List.filter_congr fun p _ => Bool.and_comm _ _
  rw [(hcounted.map f).sum_eq, ← List.sum_append, ← List.map_append]
  exact ((List.filter_append_perm _ _).map f).sum_eq.symm

/-- Given the deltas, every leg is counted when those left out weigh nothing. -/
theorem countsEveryLeg_iff :
    CountsEveryLeg T storeLookup overlayNamespace lookup chainOf ↔
      ((uncounted T storeLookup overlayNamespace).map fun p =>
        deltaOf lookup chainOf p.instrumentKey * p.netQty).sum = 0 := by
  have hoverlay : ((openOverlayPositions T storeLookup overlayNamespace).map (effectiveUnits lookup chainOf)).sum =
      ((openOverlayPositions T storeLookup overlayNamespace).map fun p =>
        deltaOf lookup chainOf p.instrumentKey * p.netQty).sum := by
    congr 1
    refine List.map_congr_left fun p hp => ?_
    have hrole := (List.mem_filter.mp ((pickedPositions_perm isOverlayRole).mem_iff.mp hp)).2
    rw [effectiveUnits, resolveLegDelta_overlay (Bool.and_eq_true _ _ ▸ hrole).1]
  have hsum := sum_overlayPositions T storeLookup overlayNamespace fun p => deltaOf lookup chainOf p.instrumentKey * p.netQty
  constructor
  · intro h
    obtain ⟨c, hc, hunits⟩ := h "paper_nifty_spot" rfl 0
    obtain rfl := Option.some.inj hc
    have hunits' := hoverlay.symm.trans (hunits.trans hsum)
    linarith
  · intro h track htrack day
    obtain ⟨baseRole, hrole⟩ := Option.isSome_iff_exists.mp htrack
    refine ⟨_, by rw [computeOverlayCoverage, hrole]; rfl, ?_⟩
    rw [hsum, h, add_zero]
    exact hoverlay

/-- The exposure left out, instrument by instrument. -/
theorem sum_uncounted (delta : String → ℚ) :
    ((uncounted T storeLookup overlayNamespace).map fun p => delta p.instrumentKey * p.netQty).sum =
      ((Grouping.keys PaperPosition.instrumentKey (uncounted T storeLookup overlayNamespace)).map fun key =>
        delta key * uncountedNet T storeLookup overlayNamespace key).sum := by
  rw [← Grouping.sum_keys PaperPosition.instrumentKey]
  congr 1
  refine List.map_congr_left fun key _ => ?_
  rw [uncountedNet, Int.cast_list_sum, List.map_map, ← List.sum_map_mul_left]
  congr 1
  refine List.map_congr_left fun p hp => ?_
  rw [(Grouping.mem_group.mp hp).2]
  rfl

/-- One contract for each role leaves nothing out. -/
theorem uncounted_of_one_each
    (h : ((overlayPositions T storeLookup overlayNamespace).map PaperPosition.legRole).Nodup) :
    uncounted T storeLookup overlayNamespace = [] := by
  refine List.filter_eq_nil_iff.mpr fun p hp => ?_
  obtain ⟨hmem, hrole⟩ := List.mem_filter.mp hp
  obtain ⟨q, hpick⟩ := pickPosition_isSome hmem
  obtain ⟨hq, hqrole, -⟩ := mem_of_pickPosition hpick
  have hq' : q ∈ overlayPositions T storeLookup overlayNamespace :=
    List.mem_filter.mpr ⟨hq, by rw [hqrole]; exact hrole⟩
  obtain rfl : q = p := List.inj_on_of_nodup_map h hq' hp hqrole
  simp [isPicked, hpick]

/-- The only instrument of a file: a call that expires on day 0. -/
def onlyCall (key : String) : InstrumentLookup :=
  ⟨[{ instrumentKey := key, instrumentType := some "CE", strikePrice := some 1, expiry := some 0 }]⟩

/-- Its chain, with a delta of 1. -/
def unitChain (expiry : Date) : Option OptionChain :=
  some
    { underlyingSpot := 1
      expiry
      strikes := Dict.empty.set 1 { ce := some { ltp := 1, bid := 1, ask := 1, delta := some 1, strike := 1 } } }

/-- An assignment of deltas that singles out one instrument. -/
theorem deltaOf_onlyCall (key other : String) :
    deltaOf (onlyCall key) unitChain other = if other = key then 1 else 0 := by
  unfold deltaOf chainGreeks InstrumentLookup.getByKey onlyCall
  by_cases h : other = key
  · subst h
    simp only [if_true, decide_true, List.find?_cons_of_pos]
    rfl
  · have hne : ¬ key = other := fun hk => h hk.symm
    simp only [hne, decide_false, Bool.false_eq_true, not_false_eq_true, List.find?_cons_of_neg, List.find?_nil, if_neg h]
    rfl

/-- **Coverage counts every open leg** when what it leaves out cancels. -/
theorem coverage_counts_all_iff (T : PaperTrades) (storeLookup : Option InstrumentLookup) (overlayNamespace : String) :
    (∀ lookup chainOf, CountsEveryLeg T storeLookup overlayNamespace lookup chainOf ↔
      ((uncounted T storeLookup overlayNamespace).map fun p =>
        deltaOf lookup chainOf p.instrumentKey * p.netQty).sum = 0) ∧
    ((∀ lookup chainOf, CountsEveryLeg T storeLookup overlayNamespace lookup chainOf) ↔
      ∀ key, uncountedNet T storeLookup overlayNamespace key = 0) := by
  refine ⟨fun lookup chainOf => countsEveryLeg_iff, fun h key => ?_, fun h lookup chainOf => ?_⟩
  · have hzero := countsEveryLeg_iff.mp (h (onlyCall key) unitChain)
    have hnet : ((uncountedNet T storeLookup overlayNamespace key : ℤ) : ℚ) = 0 := by
      rw [uncountedNet, Grouping.sum_group_eq, Int.cast_list_sum, List.map_map, ← hzero]
      congr 1
      refine List.map_congr_left fun p _ => ?_
      rw [deltaOf_onlyCall, Function.comp_apply]
      split
      · rw [one_mul]
      · rw [zero_mul, Int.cast_zero]
    exact_mod_cast hnet
  · refine countsEveryLeg_iff.mpr ?_
    rw [sum_uncounted]
    refine List.sum_eq_zero fun x hx => ?_
    obtain ⟨key, -, rfl⟩ := List.mem_map.mp hx
    rw [h key, Int.cast_zero, mul_zero]

end Coverage

/-! ### A roll overlap -/

/-- A sale of one lot of a call, on the covered-call role. -/
def soldCall (instrumentKey : String) (tradeDate : Date) (h : instrumentKey ≠ "") : PaperTrade where
  strategyName := "paper_nifty_overlay"
  legRole := "overlay_cc"
  instrumentKey := instrumentKey
  tradeDate := tradeDate
  action := .sell
  quantity := 65
  price := 120
  paperPrefix := hasPaperPrefix_overlay
  legRole_ne := overlayCc_ne
  instrumentKey_ne := h
  quantity_pos := lot_pos
  price_pos := price120_pos

/-- The next month's call is sold before the old one is bought back. -/
def rollOverlap : PaperTrades :=
  ((PaperTrades.empty.recordTrade (soldCall "NSE_FO|43210" 739690 (by decide))).1.recordTrade
    (soldCall "NSE_FO|54321" 739715 (by decide))).1

/-- The old call is not counted. -/
theorem rollOverlap_not_counted :
    ¬ CountsEveryLeg rollOverlap none "paper_nifty_overlay" (onlyCall "NSE_FO|43210") unitChain := by
  rw [countsEveryLeg_iff]
  decide +kernel

end NiftyShield.Portfolio
