import NiftyShield.Lib.Selection
import NiftyShield.Models.Options
import Mathlib.Algebra.Field.Rat
import Mathlib.Algebra.Order.Field.Basic
import Mathlib.Algebra.Order.Group.Unbundled.Abs
import Mathlib.Algebra.Order.Ring.Rat

/-!
# Choosing strikes for a roll

`find_strike_by_delta`, `evaluate_floor_formula` and `search_narrow_wing_replacement`
(`src/strategy/roll_utils.py`). The search for a narrower wing answers with the widest wing that
can replace the old one, and with none only where no strike can (`searchNarrowWingReplacement_iff`).
-/

namespace NiftyShield.Strategy

open NiftyShield.Lib

/-- The absolute delta of a leg that can be chosen. -/
def candidateDelta (lo hi : ℚ) (leg : OptionLeg) : Option ℚ :=
  if leg.ltp ≤ 0 then none
  else (leg.delta.map fun d => |d|).filter fun d => lo ≤ d ∧ d ≤ hi

/-- The order of `_sort_key`: nearer to the target, or as near with greater open interest. -/
def ranksBefore (targetDelta : ℚ) (a b : OptionLeg × ℚ) : Bool :=
  |a.2 - targetDelta| < |b.2 - targetDelta| ||
    (|a.2 - targetDelta| = |b.2 - targetDelta| && b.1.oi < a.1.oi)

/-- `find_strike_by_delta`: among the legs in the band the first that none ranks before. -/
def findStrikeByDelta (chain : OptionChain) (optionType : OptionType) (deltaRange : ℚ × ℚ)
    (targetDelta : ℚ) :
    Option OptionLeg :=
  let candidates := chain.strikes.values.filterMap fun strikeData => do
    let leg ← strikeData.side optionType
    let absDelta ← candidateDelta deltaRange.1 deltaRange.2 leg
    some (leg, absDelta)
  match candidates with
  | [] => none
  | c :: cs => some (cs.foldl (fun best c => if ranksBefore targetDelta c best then c else best) c).1

/-- A leg that was chosen is quoted, on its side of a strike, with a delta in the band. -/
theorem findStrikeByDelta_spec {chain : OptionChain} {optionType : OptionType} {lo hi targetDelta : ℚ} {leg : OptionLeg}
    (h : findStrikeByDelta chain optionType (lo, hi) targetDelta = some leg) :
    (∃ strikeData ∈ chain.strikes.values, strikeData.side optionType = some leg) ∧
      ∃ d, leg.delta = some d ∧ lo ≤ |d| ∧ |d| ≤ hi := by
  have hmem : ∀ (cs : List (OptionLeg × ℚ)) (c : OptionLeg × ℚ),
      cs.foldl (fun best c => if ranksBefore targetDelta c best then c else best) c ∈ c :: cs := by
    intro cs
    induction cs with
    | nil => exact fun c => List.mem_singleton_self c
    | cons b cs ih =>
      intro c
      rw [List.foldl_cons]
      split
      · exact List.mem_cons_of_mem _ (ih b)
      · rcases List.mem_cons.mp (ih c) with heq | hin
        · rw [heq]
          exact List.mem_cons_self
        · exact List.mem_cons_of_mem _ (List.mem_cons_of_mem _ hin)
  unfold findStrikeByDelta at h
  simp only at h
  split at h
  next => exact absurd h (by simp)
  next c cs hcandidates =>
    obtain rfl := Option.some.inj h
    have hin := hmem cs c
    rw [← hcandidates] at hin
    obtain ⟨strikeData, hdata, hcandidate⟩ := List.mem_filterMap.mp hin
    obtain ⟨leg, hleg, hcandidate⟩ := Option.bind_eq_some_iff.mp hcandidate
    obtain ⟨absDelta, habs, hpair⟩ := Option.bind_eq_some_iff.mp hcandidate
    rw [← Option.some.inj hpair]
    refine ⟨⟨strikeData, hdata, hleg⟩, ?_⟩
    unfold candidateDelta at habs
    split at habs
    next => exact absurd habs (by simp)
    next =>
      obtain ⟨hmap, hband⟩ := Option.filter_eq_some_iff.mp habs
      obtain ⟨d, hd, rfl⟩ := Option.map_eq_some_iff.mp hmap
      exact ⟨d, hd, of_decide_eq_true hband⟩

/-- `evaluate_floor_formula`. -/
def evaluateFloorFormula (newWidthPts dCumPts dLockPts kPts entryCreditPts floorBudget : ℚ) : Bool :=
  newWidthPts + dCumPts + dLockPts + kPts ≤ floorBudget * entryCreditPts

/-- The mid of a leg quoted on both sides, if it reaches the premium floor and the spread
is at most the given part of it. -/
def liquidMid (minPremium liquiditySpreadPct : ℚ) (leg : OptionLeg) : Bool :=
  let mid := (leg.bid + leg.ask) / 2
  0 < leg.bid && 0 < leg.ask && minPremium ≤ mid && (leg.ask - leg.bid) / mid ≤ liquiditySpreadPct

/-- The strikes strictly between the wing and the short, from the wing inwards. -/
def orderedStrikes (chain : OptionChain) (optionType : OptionType)
    (shortStrike currentWingStrike : ℚ) : List ℚ :=
  if optionType = .ce then
    (chain.strikes.keys.filter fun k => shortStrike < k ∧ k < currentWingStrike).insertionSort fun a
      b => b ≤ a
  else (chain.strikes.keys.filter fun k => currentWingStrike < k ∧
    k < shortStrike).insertionSort fun a b => a ≤ b

/-- `search_narrow_wing_replacement`. -/
def searchNarrowWingReplacement (chain : OptionChain) (optionType : OptionType)
    (shortStrike currentWingStrike otherSideWidthPts dCumPts dLockPts kPts entryCreditPts
      floorBudget minPremium : ℚ) (liquiditySpreadPct : ℚ := 5 / 100) :
    Option OptionLeg :=
  (orderedStrikes chain optionType shortStrike currentWingStrike).findSome? fun strike => do
    let strikeData ← chain.strikes.get? strike
    let leg ← strikeData.side optionType
    if liquidMid minPremium liquiditySpreadPct leg ∧
        evaluateFloorFormula (max |strike - shortStrike| otherSideWidthPts) dCumPts dLockPts kPts
          entryCreditPts
          floorBudget then some leg
    else none

/-- Each leg of the chain carries the strike it is filed under, as both chain parsers give
it. -/
def KeyedByStrike (chain : OptionChain) : Prop :=
  ∀ strike strikeData optionType leg, chain.strikes.get? strike = some strikeData →
    strikeData.side optionType = some leg → leg.strike = strike

/-- A replacement lies strictly between the short and the wing. -/
theorem searchNarrowWingReplacement_between {chain : OptionChain} {optionType : OptionType}
    {shortStrike currentWingStrike otherSideWidthPts dCumPts dLockPts kPts entryCreditPts floorBudget minPremium : ℚ}
    {leg : OptionLeg} (hkeyed : KeyedByStrike chain)
    (h : searchNarrowWingReplacement chain optionType shortStrike currentWingStrike otherSideWidthPts dCumPts
      dLockPts kPts entryCreditPts floorBudget minPremium = some leg) :
    if optionType = .ce then shortStrike < leg.strike ∧ leg.strike < currentWingStrike
    else currentWingStrike < leg.strike ∧ leg.strike < shortStrike := by
  obtain ⟨strike, hstrike, hfound⟩ := List.exists_of_findSome?_eq_some h
  obtain ⟨strikeData, hdata, hfound⟩ := Option.bind_eq_some_iff.mp hfound
  obtain ⟨leg', hleg, hfound⟩ := Option.bind_eq_some_iff.mp hfound
  split at hfound
  next =>
    obtain rfl := Option.some.inj hfound
    rw [hkeyed strike strikeData optionType leg' hdata hleg]
    unfold orderedStrikes at hstrike
    split at hstrike
    next hce =>
      have hmem := (List.mem_insertionSort _).mp hstrike
      rw [if_pos hce]
      exact of_decide_eq_true (List.mem_filter.mp hmem).2
    next hce =>
      have hmem := (List.mem_insertionSort _).mp hstrike
      rw [if_neg hce]
      exact of_decide_eq_true (List.mem_filter.mp hmem).2
  next => exact absurd hfound (by simp)

/-! ### The widest replacement -/

section Widest

variable (chain : OptionChain) (optionType : OptionType) (shortStrike currentWingStrike otherSideWidthPts dCumPts
  dLockPts kPts entryCreditPts floorBudget minPremium liquiditySpreadPct : ℚ)

/-- The strike lies strictly between the short and the wing: above the short for a call, below it
for a put. -/
def InsideWing (strike : ℚ) : Prop :=
  if optionType = .ce then shortStrike < strike ∧ strike < currentWingStrike
  else currentWingStrike < strike ∧ strike < shortStrike

/-- The leg at the strike can replace the wing. -/
structure Replaces (strike : ℚ) (leg : OptionLeg) : Prop where
  inside : InsideWing optionType shortStrike currentWingStrike strike
  filed : ∃ strikeData, chain.strikes.get? strike = some strikeData ∧ strikeData.side optionType = some leg
  bid_pos : 0 < leg.bid
  ask_pos : 0 < leg.ask
  premium : minPremium ≤ (leg.bid + leg.ask) / 2
  liquid : leg.ask - leg.bid ≤ liquiditySpreadPct * ((leg.bid + leg.ask) / 2)
  floor : max |strike - shortStrike| otherSideWidthPts + dCumPts + dLockPts + kPts ≤ floorBudget * entryCreditPts

variable {chain optionType shortStrike currentWingStrike otherSideWidthPts dCumPts dLockPts kPts entryCreditPts
  floorBudget minPremium liquiditySpreadPct}

theorem mem_orderedStrikes {strike : ℚ} : strike ∈ orderedStrikes chain optionType shortStrike currentWingStrike ↔
    strike ∈ chain.strikes.keys ∧ InsideWing optionType shortStrike currentWingStrike strike := by
  unfold orderedStrikes InsideWing
  split <;> rw [List.mem_insertionSort, List.mem_filter, decide_eq_true_iff]

/-- The width of a strike inside the wing: its distance from the short, on the side of the wing. -/
theorem InsideWing.width {strike : ℚ} (h : InsideWing optionType shortStrike currentWingStrike strike) :
    |strike - shortStrike| = if optionType = .ce then strike - shortStrike else shortStrike - strike := by
  unfold InsideWing at h
  split at h
  next hce => rw [if_pos hce, abs_of_pos (sub_pos.mpr h.1)]
  next hce => rw [if_neg hce, abs_of_neg (sub_neg.mpr h.2), neg_sub]

/-- Strictly narrower than the old wing, and not at the short. -/
theorem InsideWing.narrower {strike : ℚ} (h : InsideWing optionType shortStrike currentWingStrike strike) :
    |strike - shortStrike| < |currentWingStrike - shortStrike| ∧ strike ≠ shortStrike := by
  rw [h.width]
  unfold InsideWing at h
  split at h
  next hce =>
    rw [if_pos hce, abs_of_pos (sub_pos.mpr (h.1.trans h.2))]
    exact ⟨sub_lt_sub_right h.2 _, h.1.ne'⟩
  next hce =>
    rw [if_neg hce, abs_of_neg (sub_neg.mpr (h.1.trans h.2)), neg_sub]
    exact ⟨sub_lt_sub_left h.1 _, h.2.ne⟩

/-- The strikes come widest first, for calls and for puts. -/
theorem orderedStrikes_pairwise : (orderedStrikes chain optionType shortStrike currentWingStrike).Pairwise
    fun a b => |b - shortStrike| ≤ |a - shortStrike| := by
  have hsorted : (orderedStrikes chain optionType shortStrike currentWingStrike).Pairwise fun a b =>
      if optionType = .ce then b ≤ a else a ≤ b := by
    unfold orderedStrikes
    split
    · exact List.pairwise_insertionSort _ _
    · exact List.pairwise_insertionSort _ _
  refine hsorted.imp_of_mem fun {a b} ha hb hab => ?_
  rw [(mem_orderedStrikes.mp ha).2.width, (mem_orderedStrikes.mp hb).2.width]
  split at hab
  next hce =>
    rw [if_pos hce, if_pos hce]
    exact sub_le_sub_right hab _
  next hce =>
    rw [if_neg hce, if_neg hce]
    exact sub_le_sub_left hab _

/-- Two strikes inside the wing of one width are one strike. -/
theorem InsideWing.eq_of_width {a b : ℚ} (ha : InsideWing optionType shortStrike currentWingStrike a)
    (hb : InsideWing optionType shortStrike currentWingStrike b) (h : |a - shortStrike| = |b - shortStrike|) :
    a = b := by
  rw [ha.width, hb.width] at h
  split at h
  · exact sub_left_inj.mp h
  · exact sub_right_inj.mp h

/-- The checks on the quote, with the spread compared to the mid without a division. -/
theorem liquidMid_iff {leg : OptionLeg} : liquidMid minPremium liquiditySpreadPct leg = true ↔
    0 < leg.bid ∧ 0 < leg.ask ∧ minPremium ≤ (leg.bid + leg.ask) / 2 ∧
      leg.ask - leg.bid ≤ liquiditySpreadPct * ((leg.bid + leg.ask) / 2) := by
  simp only [liquidMid, Bool.and_eq_true, decide_eq_true_iff, and_assoc]
  refine and_congr_right fun hbid => and_congr_right fun hask => and_congr_right fun _ => ?_
  exact div_le_iff₀ (half_pos (add_pos hbid hask))

/-- What the search finds at a strike. -/
theorem replaces_iff {strike : ℚ} {leg : OptionLeg} :
    Replaces chain optionType shortStrike currentWingStrike otherSideWidthPts dCumPts dLockPts kPts entryCreditPts
        floorBudget minPremium liquiditySpreadPct strike leg ↔
      strike ∈ orderedStrikes chain optionType shortStrike currentWingStrike ∧
        (do
          let strikeData ← chain.strikes.get? strike
          let leg ← strikeData.side optionType
          if liquidMid minPremium liquiditySpreadPct leg ∧
              evaluateFloorFormula (max |strike - shortStrike| otherSideWidthPts) dCumPts dLockPts kPts entryCreditPts
                floorBudget then some leg
          else none) = some leg := by
  rw [mem_orderedStrikes]
  simp only [Option.bind_eq_bind, Option.bind_eq_some_iff, Option.ite_none_right_eq_some, Option.some.injEq,
    liquidMid_iff, evaluateFloorFormula, decide_eq_true_iff]
  constructor
  · rintro ⟨hinside, ⟨strikeData, hdata, hleg⟩, hbid, hask, hpremium, hliquid, hfloor⟩
    exact ⟨⟨List.mem_map_of_mem (Dict.mem_entries_iff.mpr hdata), hinside⟩, strikeData, hdata, leg, hleg,
      ⟨⟨hbid, hask, hpremium, hliquid⟩, hfloor⟩, rfl⟩
  · rintro ⟨⟨-, hinside⟩, strikeData, hdata, leg, hleg, ⟨⟨hbid, hask, hpremium, hliquid⟩, hfloor⟩, rfl⟩
    exact ⟨hinside, ⟨strikeData, hdata, hleg⟩, hbid, hask, hpremium, hliquid, hfloor⟩

/-- **The search is complete and takes the widest wing.** -/
theorem searchNarrowWingReplacement_iff :
    (searchNarrowWingReplacement chain optionType shortStrike currentWingStrike otherSideWidthPts dCumPts dLockPts kPts
        entryCreditPts floorBudget minPremium liquiditySpreadPct = none ↔
      ∀ strike leg, ¬ Replaces chain optionType shortStrike currentWingStrike otherSideWidthPts dCumPts dLockPts kPts
        entryCreditPts floorBudget minPremium liquiditySpreadPct strike leg) ∧
    ∀ leg, searchNarrowWingReplacement chain optionType shortStrike currentWingStrike otherSideWidthPts dCumPts dLockPts
        kPts entryCreditPts floorBudget minPremium liquiditySpreadPct = some leg ↔
      ∃ strike, Replaces chain optionType shortStrike currentWingStrike otherSideWidthPts dCumPts dLockPts kPts
          entryCreditPts floorBudget minPremium liquiditySpreadPct strike leg ∧
        |strike - shortStrike| < |currentWingStrike - shortStrike| ∧ strike ≠ shortStrike ∧
        ∀ strike' leg', Replaces chain optionType shortStrike currentWingStrike otherSideWidthPts dCumPts dLockPts kPts
          entryCreditPts floorBudget minPremium liquiditySpreadPct strike' leg' →
            |strike' - shortStrike| ≤ |strike - shortStrike| := by
  constructor
  · rw [searchNarrowWingReplacement, List.findSome?_eq_none_iff]
    constructor
    · intro h strike leg hreplaces
      obtain ⟨hmem, hfound⟩ := replaces_iff.mp hreplaces
      exact absurd ((h strike hmem).symm.trans hfound) (by simp)
    · intro h strike hmem
      refine Option.eq_none_iff_forall_ne_some.mpr fun leg hfound => ?_
      exact h strike leg (replaces_iff.mpr ⟨hmem, hfound⟩)
  · intro leg
    rw [searchNarrowWingReplacement, Selection.findSome?_eq_some_iff_greatest orderedStrikes_pairwise fun a ha b hb =>
      (mem_orderedStrikes.mp ha).2.eq_of_width (mem_orderedStrikes.mp hb).2]
    constructor
    · rintro ⟨strike, hmem, hfound, hwidest⟩
      have hreplaces := replaces_iff.mpr ⟨hmem, hfound⟩
      refine ⟨strike, hreplaces, hreplaces.inside.narrower.1, hreplaces.inside.narrower.2, fun strike' leg' h' => ?_⟩
      obtain ⟨hmem', hfound'⟩ := replaces_iff.mp h'
      exact hwidest strike' hmem' (Option.isSome_iff_exists.mpr ⟨leg', hfound'⟩)
    · rintro ⟨strike, hreplaces, -, -, hwidest⟩
      obtain ⟨hmem, hfound⟩ := replaces_iff.mp hreplaces
      refine ⟨strike, hmem, hfound, fun strike' hmem' hsome => ?_⟩
      obtain ⟨leg', hfound'⟩ := Option.isSome_iff_exists.mp hsome
      exact hwidest strike' leg' (replaces_iff.mpr ⟨hmem', hfound'⟩)

end Widest

end NiftyShield.Strategy
