import NiftyShield.Lib.PiecewiseLinear
import Mathlib.Data.Finset.Sort
import Mathlib.Data.List.MinMax
import Mathlib.Data.Rat.Floor

/-!
# Expiry payoffs

`compute_payoff` (`src/payoff/core.py`): the profit and loss of a set of legs at expiry is
piecewise linear in the spot, with kinks at the strikes only, and its summary is read off zero, the
strikes and the slope past the highest one. A leg that passes `_validate` has a strike exactly
when it is an option.

## What is proved

* `extrema_exact`: on legs that pass, `max_profit` (`max_loss`) is None exactly when the profit and
  loss is unbounded above (below) over the spots from zero on, and otherwise it is its maximum
  (minimum) there.
* `breakevens_exact`: the breakevens increase, each is a zero from zero on, and each zero is among
  them unless the profit and loss is zero on the whole segment, or the whole tail, it lies in.

## Honest scope

Prices and spots are elements of an ordered field: the rationals a `Decimal` denotes, or the
reals; the 28 digits of the decimal context are not modelled. The role of a leg is a label that
nothing here reads.
-/

namespace NiftyShield.Payoff

open NiftyShield.Lib

/-! ### The payoff of a set of legs -/

/-- The kind of a leg: `Literal["CE", "PE", "FUT", "EQ"]`. -/
inductive Kind where
  /-- `CE`. -/
  | ce
  /-- `PE`. -/
  | pe
  /-- `FUT`. -/
  | fut
  /-- `EQ`. -/
  | eq
  deriving DecidableEq

/-- The kind as it is written. -/
def Kind.text : Kind → String
  | .ce => "CE"
  | .pe => "PE"
  | .fut => "FUT"
  | .eq => "EQ"

/-- `CE` or `PE`. -/
def Kind.isOption (k : Kind) : Bool := k = .ce || k = .pe

/-- `PayoffLeg`. -/
structure PayoffLeg (K : Type) where
  /-- Instrument type; `FUT` and `EQ` are linear in the spot. -/
  kind : Kind
  /-- Option strike; none for `FUT` and `EQ`. -/
  strike : Option K
  /-- Signed units. -/
  qty : ℤ
  /-- Entry price per unit. -/
  entryPrice : K

/-- `StrategyPayoff`; `none` is unbounded. -/
structure StrategyPayoff (K : Type) where
  /-- The legs. -/
  legs : List (PayoffLeg K)
  /-- Credit received, or debit when negative. -/
  netPremium : K
  /-- Largest profit. -/
  maxProfit : Option K
  /-- Largest loss, negative. -/
  maxLoss : Option K
  /-- Spots without profit or loss. -/
  breakevens : List K
  /-- Reward to risk. -/
  rrRatio : Option K
  /-- The strikes. -/
  keySpots : List K

/-- `InvalidLegsError`. -/
structure InvalidLegsError where
  /-- Its text. -/
  message : String
  deriving DecidableEq

/-! ### Valid legs -/

section
variable {K : Type}

/-- The checks of `_validate` on one leg. -/
def validateLeg (leg : PayoffLeg K) : Except InvalidLegsError Unit :=
  if leg.kind.isOption ∧ leg.strike.isNone then
    .error ⟨leg.kind.text ++ " leg requires a strike"⟩
  else if ¬ leg.kind.isOption ∧ leg.strike.isSome then
    .error ⟨leg.kind.text ++ " leg must not have a strike"⟩
  else .ok ()

/-- `_validate`. -/
def validate (legs : List (PayoffLeg K)) : Except InvalidLegsError Unit :=
  if legs.isEmpty then .error ⟨"legs must not be empty"⟩ else legs.forM validateLeg

/-- A strike exactly when the leg is an option. -/
def PayoffLeg.Valid (leg : PayoffLeg K) : Prop := leg.kind.isOption = leg.strike.isSome

/-- Legs that pass: at least one, each with a strike exactly when it is an option. -/
structure ValidLegs (legs : List (PayoffLeg K)) : Prop where
  /-- There is a leg. -/
  ne_nil : legs ≠ []
  /-- Each leg is valid. -/
  valid : ∀ leg ∈ legs, leg.Valid

theorem validateLeg_eq_ok_iff (leg : PayoffLeg K) : validateLeg leg = .ok () ↔ leg.Valid := by
  unfold validateLeg PayoffLeg.Valid
  cases leg.kind.isOption <;> cases leg.strike <;> simp

theorem forM_validateLeg_eq_ok_iff (legs : List (PayoffLeg K)) :
    legs.forM validateLeg = .ok () ↔ ∀ leg ∈ legs, leg.Valid := by
  induction legs with
  | nil => simp [List.forM, pure, Except.pure]
  | cons leg legs ih =>
    show (validateLeg leg >>= fun _ => legs.forM validateLeg) = .ok () ↔ _
    rw [List.forall_mem_cons, ← ih, ← validateLeg_eq_ok_iff]
    cases validateLeg leg with
    | error e => simp [bind, Except.bind]
    | ok u => simp [bind, Except.bind]

/-- `_validate` passes the valid lists. -/
theorem validate_eq_ok_iff (legs : List (PayoffLeg K)) : validate legs = .ok () ↔ ValidLegs legs := by
  unfold validate
  cases legs with
  | nil => simpa using fun h : ValidLegs [] => h.ne_nil rfl
  | cons leg legs =>
    rw [if_neg (by simp), forM_validateLeg_eq_ok_iff]
    exact ⟨fun h => ⟨by simp, h⟩, fun h => h.valid⟩

end

/-! ### The payoff -/

/-- The slope past the highest strike. -/
def slopeUp {K : Type} (legs : List (PayoffLeg K)) : ℤ := ((legs.filter fun leg => leg.kind ≠ .pe).map (·.qty)).sum

theorem slopeUp_eq {K : Type} (legs : List (PayoffLeg K)) :
    slopeUp legs = (legs.map fun leg => if leg.kind ≠ .pe then leg.qty else 0).sum := by
  induction legs with
  | nil => rfl
  | cons leg legs ih =>
    rw [List.map_cons, List.sum_cons, ← ih]
    by_cases hpe : leg.kind = .pe
    · simp [slopeUp, hpe]
    · simp [slopeUp, hpe]

/-- The strikes of the legs: `sorted({leg.strike ...})`. -/
def strikes {K : Type} [LinearOrder K] (legs : List (PayoffLeg K)) : List K := (legs.filterMap (·.strike)).toFinset.sort (· ≤ ·)

theorem mem_strikes {K : Type} [LinearOrder K] {legs : List (PayoffLeg K)} {k : K} :
    k ∈ strikes legs ↔ ∃ leg ∈ legs, leg.strike = some k := by
  rw [strikes, Finset.mem_sort, List.mem_toFinset, List.mem_filterMap]

section
variable {K : Type} [Field K] [LinearOrder K]

/-- The intrinsic value `_leg_pnl` settles at; an option without a strike does not get past
`_validate`. -/
def intrinsic (kind : Kind) (strike : Option K) (spot : K) : K :=
  match kind, strike with
  | .ce, some strike => max (spot - strike) 0
  | .pe, some strike => max (strike - spot) 0
  | _, _ => spot

/-- `_leg_pnl`. -/
def PayoffLeg.pnl (leg : PayoffLeg K) (spot : K) : K :=
  leg.qty * (intrinsic leg.kind leg.strike spot - leg.entryPrice)

/-- `_pnl`. -/
def pnl (legs : List (PayoffLeg K)) (spot : K) : K := (legs.map fun leg => leg.pnl spot).sum

/-- `_find_breakevens`; `points` is not empty. -/
def findBreakevens (points values : List K) (slopeUp : ℤ) : List K :=
  let pairs := points.zip values
  let zeros := (pairs.filter fun p => p.2 = 0).map (·.1)
  let crossings := (pairs.zip pairs.tail).filterMap fun p =>
    if p.1.2 * p.2.2 < 0 then some (p.1.1 + (p.2.1 - p.1.1) * -p.1.2 / (p.2.2 - p.1.2)) else none
  let root := points.getLastD 0 - values.getLastD 0 / slopeUp
  let tail := if slopeUp ≠ 0 ∧ points.getLastD 0 < root then [root] else []
  (zeros ++ crossings ++ tail).toFinset.sort (· ≤ ·)

/-- Zero and the strikes: `sorted({_ZERO, *strikes})`. -/
def kinks (legs : List (PayoffLeg K)) : List K := (insert 0 (strikes legs).toFinset).sort (· ≤ ·)

/-- `compute_payoff`. -/
def computePayoff (legs : List (PayoffLeg K)) : Except InvalidLegsError (StrategyPayoff K) := do
  validate legs
  let points := kinks legs
  let values := points.map (pnl legs)
  let maxProfit := if 0 < slopeUp legs then none else values.max?
  let maxLoss := if slopeUp legs < 0 then none else values.min?
  let rr := match maxProfit, maxLoss with
    | some profit, some loss => if loss ≠ 0 then some (profit / |loss|) else none
    | _, _ => none
  return {
    legs
    netPremium := -(legs.map fun leg => (leg.qty : K) * leg.entryPrice).sum
    maxProfit
    maxLoss
    breakevens := findBreakevens points values (slopeUp legs)
    rrRatio := rr
    keySpots := strikes legs }

/-- `expiry_pnl_at`. -/
def expiryPnlAt (payoff : StrategyPayoff K) (spot : K) : K := pnl payoff.legs spot

/-- The summary of valid legs. -/
theorem computePayoff_ok {legs : List (PayoffLeg K)} (hvalid : ValidLegs legs) :
    ∃ payoff, computePayoff legs = .ok payoff ∧ expiryPnlAt payoff = pnl legs ∧
      payoff.maxProfit = (if 0 < slopeUp legs then none else ((kinks legs).map (pnl legs)).max?) ∧
      payoff.maxLoss = (if slopeUp legs < 0 then none else ((kinks legs).map (pnl legs)).min?) ∧
      payoff.breakevens = findBreakevens (kinks legs) ((kinks legs).map (pnl legs)) (slopeUp legs) := by
  unfold computePayoff
  rw [(validate_eq_ok_iff legs).mpr hvalid]
  exact ⟨_, rfl, rfl, rfl, rfl, rfl⟩

/-! ### Kinks -/

theorem mem_kinks {legs : List (PayoffLeg K)} {k : K} :
    k ∈ kinks legs ↔ k = 0 ∨ ∃ leg ∈ legs, leg.strike = some k := by
  rw [kinks, Finset.mem_sort, Finset.mem_insert, List.mem_toFinset, mem_strikes]

theorem kinks_increasing (legs : List (PayoffLeg K)) : (kinks legs).Pairwise (· < ·) :=
  (Finset.sortedLT_sort _).pairwise

theorem kinks_ne_nil (legs : List (PayoffLeg K)) : kinks legs ≠ [] :=
  List.ne_nil_of_mem (mem_kinks.mpr (Or.inl rfl))

/-- With no strike below zero, zero is the first kink. -/
theorem head_kinks {legs : List (PayoffLeg K)} (hstrikes : ∀ leg ∈ legs, ∀ k ∈ leg.strike, 0 ≤ k) :
    (kinks legs).head (kinks_ne_nil legs) = 0 := by
  refine le_antisymm (head_le_of_mem (kinks_increasing legs) _ (mem_kinks.mpr (Or.inl rfl))) ?_
  rcases mem_kinks.mp (List.head_mem (kinks_ne_nil legs)) with hzero | ⟨leg, hleg, hk⟩
  · exact hzero.ge
  · exact hstrikes leg hleg _ hk

/-! ### Breakevens -/

/-- The breakevens over neighbouring points: zeros at points, crossings between them, and the
root of the tail. -/
theorem mem_findBreakevens {f : K → K} {points : List K} (hne : points ≠ []) {slopeUp : ℤ} {b : K} :
    b ∈ findBreakevens points (points.map f) slopeUp ↔
      (b ∈ points ∧ f b = 0) ∨
      (∃ p ∈ points.zip points.tail, f p.1 * f p.2 < 0 ∧ b = crossing p.1 (f p.1) p.2 (f p.2)) ∨
      (slopeUp ≠ 0 ∧ points.getLast hne < b ∧ b = points.getLast hne - f (points.getLast hne) / slopeUp) := by
  have hpairs : points.zip (points.map f) = points.map fun x => (x, f x) := by
    simpa using List.zip_map' (f := id) (g := f) (l := points)
  have hnext : (points.map fun x => (x, f x)).zip (points.map fun x => (x, f x)).tail =
      (points.zip points.tail).map fun p => ((p.1, f p.1), (p.2, f p.2)) := by
    rw [← List.map_tail, List.zip_map]
    rfl
  have hlast : points.getLastD 0 = points.getLast hne := by
    rw [List.getLastD_eq_getLast?, List.getLast?_eq_some_getLast hne, Option.getD_some]
  have hvalue : (points.map f).getLastD 0 = f (points.getLast hne) := by
    rw [List.getLastD_eq_getLast?, List.getLast?_map, List.getLast?_eq_some_getLast hne]
    rfl
  unfold findBreakevens
  simp only [hpairs, hnext, hlast, hvalue, Finset.mem_sort, List.mem_toFinset, List.mem_append, or_assoc]
  refine or_congr ?_ (or_congr ?_ ?_)
  · simp only [List.mem_map, List.mem_filter, decide_eq_true_eq]
    constructor
    · rintro ⟨_, ⟨⟨x, hx, rfl⟩, hzero⟩, rfl⟩
      exact ⟨hx, hzero⟩
    · rintro ⟨hx, hzero⟩
      exact ⟨_, ⟨⟨b, hx, rfl⟩, hzero⟩, rfl⟩
  · simp only [List.mem_filterMap, List.mem_map]
    constructor
    · rintro ⟨_, ⟨p, hp, rfl⟩, h⟩
      split at h
      next hsign => exact ⟨p, hp, hsign, (Option.some.inj h).symm⟩
      next => exact absurd h (by simp)
    · rintro ⟨p, hp, hsign, rfl⟩
      exact ⟨_, ⟨p, hp, rfl⟩, by rw [if_pos hsign]; rfl⟩
  · constructor
    · intro h
      split at h
      next hroot =>
        obtain rfl := List.mem_singleton.mp h
        exact ⟨hroot.1, hroot.2, rfl⟩
      next => exact absurd h List.not_mem_nil
    · rintro ⟨hslope, hroot, rfl⟩
      rw [if_pos ⟨hslope, hroot⟩]
      exact List.mem_singleton_self _

/-! ### Lines between kinks -/

variable [IsStrictOrderedRing K]

/-- The intrinsic value is a line on a segment that the strike is not inside. -/
theorem lineOn_intrinsic (kind : Kind) {strike : Option K} {a b : K} (h : ∀ k ∈ strike, k ≤ a ∨ b ≤ k) :
    LineOn (intrinsic kind strike) (Set.Icc a b) := by
  match kind, strike, h with
  | .ce, some k, h =>
    rcases h k rfl with hk | hk
    · refine ⟨1, -k, fun s hs => ?_⟩
      rw [intrinsic, max_eq_left (sub_nonneg.mpr (hk.trans hs.1))]
      ring
    · refine ⟨0, 0, fun s hs => ?_⟩
      rw [intrinsic, max_eq_right (sub_nonpos.mpr (hs.2.trans hk))]
      ring
  | .pe, some k, h =>
    rcases h k rfl with hk | hk
    · refine ⟨0, 0, fun s hs => ?_⟩
      rw [intrinsic, max_eq_right (sub_nonpos.mpr (hk.trans hs.1))]
      ring
    · refine ⟨-1, k, fun s hs => ?_⟩
      rw [intrinsic, max_eq_left (sub_nonneg.mpr (hs.2.trans hk))]
      ring
  | .ce, none, _ | .pe, none, _ | .fut, _, _ | .eq, _, _ => exact ⟨1, 0, fun s _ => by simp [intrinsic]⟩

theorem PayoffLeg.lineOn (leg : PayoffLeg K) {a b : K} (h : ∀ k ∈ leg.strike, k ≤ a ∨ b ≤ k) :
    LineOn leg.pnl (Set.Icc a b) := by
  obtain ⟨m, c, hline⟩ := lineOn_intrinsic leg.kind h
  refine ⟨leg.qty * m, leg.qty * (c - leg.entryPrice), fun s hs => ?_⟩
  rw [PayoffLeg.pnl, hline s hs]
  ring

/-- Past its strike a valid leg moves with its quantity, a put not at all. -/
theorem PayoffLeg.pnl_past {leg : PayoffLeg K} (hvalid : leg.Valid) {a s : K} (h : ∀ k ∈ leg.strike, k ≤ a)
    (hs : a ≤ s) : leg.pnl s = leg.pnl a + (if leg.kind ≠ .pe then leg.qty else 0 : ℤ) * (s - a) := by
  obtain ⟨kind, strike, qty, entryPrice⟩ := leg
  match kind, strike, hvalid, h with
  | .ce, some k, _, h =>
    have hk := h k rfl
    simp only [PayoffLeg.pnl, intrinsic, max_eq_left (sub_nonneg.mpr hk),
      max_eq_left (sub_nonneg.mpr (hk.trans hs)), ne_eq, reduceCtorEq, not_false_eq_true, if_true]
    ring
  | .pe, some k, _, h =>
    have hk := h k rfl
    simp only [PayoffLeg.pnl, intrinsic, max_eq_right (sub_nonpos.mpr hk),
      max_eq_right (sub_nonpos.mpr (hk.trans hs))]
    simp
  | .fut, _, _, _ | .eq, _, _, _ =>
    simp only [PayoffLeg.pnl, intrinsic, ne_eq, reduceCtorEq, not_false_eq_true, if_true]
    ring

/-- Past every strike the legs together move with the slope. -/
theorem pnl_past {legs : List (PayoffLeg K)} (hvalid : ∀ leg ∈ legs, leg.Valid) {a s : K}
    (h : ∀ leg ∈ legs, ∀ k ∈ leg.strike, k ≤ a) (hs : a ≤ s) :
    pnl legs s = pnl legs a + (slopeUp legs : K) * (s - a) := by
  rw [slopeUp_eq]
  unfold pnl
  induction legs with
  | nil => simp
  | cons leg legs ih =>
    obtain ⟨hleg, hlegs⟩ := List.forall_mem_cons.mp hvalid
    obtain ⟨hstrike, hstrikes⟩ := List.forall_mem_cons.mp h
    simp only [List.map_cons, List.sum_cons, ih hlegs hstrikes, PayoffLeg.pnl_past hleg hstrike hs]
    push_cast
    ring

/-- **The profit and loss is piecewise linear**, with kinks at zero and the strikes. -/
theorem pnl_piecewiseLinear {legs : List (PayoffLeg K)} (hvalid : ValidLegs legs) :
    PiecewiseLinear (pnl legs) (kinks legs) (slopeUp legs : K) where
  increasing := kinks_increasing legs
  ne_nil := kinks_ne_nil legs
  segment := by
    intro p hp
    refine LineOn.sum fun leg hleg => leg.lineOn fun k hk => ?_
    exact outside_neighbours (kinks_increasing legs) (mem_kinks.mpr (Or.inr ⟨leg, hleg, hk⟩)) hp
  tail := by
    intro s hs
    refine pnl_past hvalid.valid (fun leg hleg k hk => ?_) hs
    exact le_getLast_of_mem (kinks_increasing legs) _ (mem_kinks.mpr (Or.inr ⟨leg, hleg, hk⟩))

/-! ### Extrema -/

/-- The optional value is the maximum of `f` over the values from zero on, none when there is
no bound. -/
structure MaxFromZero (f : K → K) (value : Option K) : Prop where
  /-- None exactly when `f` has no upper bound. -/
  unbounded : value = none ↔ ¬ BddAbove (f '' Set.Ici 0)
  /-- Otherwise the maximum. -/
  greatest : ∀ v ∈ value, IsGreatest (f '' Set.Ici 0) v

/-- The optional value is the minimum of `f` over the values from zero on, none when there is
no bound. -/
structure MinFromZero (f : K → K) (value : Option K) : Prop where
  /-- None exactly when `f` has no lower bound. -/
  unbounded : value = none ↔ ¬ BddBelow (f '' Set.Ici 0)
  /-- Otherwise the minimum. -/
  least : ∀ v ∈ value, IsLeast (f '' Set.Ici 0) v

theorem maxFromZero_kinks {legs : List (PayoffLeg K)} (hvalid : ValidLegs legs)
    (hstrikes : ∀ leg ∈ legs, ∀ k ∈ leg.strike, 0 ≤ k) :
    MaxFromZero (pnl legs) (if 0 < slopeUp legs then none else ((kinks legs).map (pnl legs)).max?) := by
  have hlinear := pnl_piecewiseLinear hvalid
  obtain ⟨v, hv⟩ : ∃ v, ((kinks legs).map (pnl legs)).max? = some v := by
    rw [← Option.isSome_iff_exists, List.isSome_max?_iff]
    simp [kinks_ne_nil]
  obtain ⟨hmem, hbound⟩ := List.max?_eq_some_iff.mp hv
  have hhead : Set.Ici ((kinks legs).head hlinear.ne_nil) = Set.Ici 0 := congrArg _ (head_kinks hstrikes)
  have hbdd := hlinear.bddAbove_iff hbound
  rw [hhead] at hbdd
  rw [hv]
  constructor
  · rw [hbdd, not_le, Int.cast_pos]
    split <;> simp_all
  · intro w hw
    split at hw
    next => exact absurd hw (by simp)
    next hslope =>
      obtain rfl := Option.some.inj hw
      have hgreatest := hlinear.isGreatest (by exact_mod_cast not_lt.mp hslope) hmem hbound
      rwa [hhead] at hgreatest

theorem minFromZero_kinks {legs : List (PayoffLeg K)} (hvalid : ValidLegs legs)
    (hstrikes : ∀ leg ∈ legs, ∀ k ∈ leg.strike, 0 ≤ k) :
    MinFromZero (pnl legs) (if slopeUp legs < 0 then none else ((kinks legs).map (pnl legs)).min?) := by
  have hlinear := pnl_piecewiseLinear hvalid
  obtain ⟨v, hv⟩ : ∃ v, ((kinks legs).map (pnl legs)).min? = some v := by
    rw [← Option.isSome_iff_exists, List.isSome_min?_iff]
    simp [kinks_ne_nil]
  obtain ⟨hmem, hbound⟩ := List.min?_eq_some_iff.mp hv
  have hhead : Set.Ici ((kinks legs).head hlinear.ne_nil) = Set.Ici 0 := congrArg _ (head_kinks hstrikes)
  have hbdd := hlinear.bddBelow_iff hbound
  rw [hhead] at hbdd
  rw [hv]
  constructor
  · rw [hbdd, not_le, Int.cast_lt_zero]
    split <;> simp_all
  · intro w hw
    split at hw
    next => exact absurd hw (by simp)
    next hslope =>
      obtain rfl := Option.some.inj hw
      have hleast := hlinear.isLeast (by exact_mod_cast not_lt.mp hslope) hmem hbound
      rwa [hhead] at hleast

/-- The breakevens of a payoff against its zeros from zero on. -/
structure BreakevensExact (f : K → K) (points : List K) (hne : points ≠ []) (breakevens : List K) : Prop where
  /-- In increasing order, each once. -/
  increasing : breakevens.Pairwise (· < ·)
  /-- Each is a zero. -/
  zero : ∀ b ∈ breakevens, 0 ≤ b ∧ f b = 0
  /-- A zero that is not listed is inside a segment, or past the last point, where all is zero. -/
  complete : ∀ s, 0 ≤ s → f s = 0 → s ∈ breakevens ∨
    (∃ p ∈ points.zip points.tail, s ∈ Set.Ioo p.1 p.2 ∧ ∀ t ∈ Set.Icc p.1 p.2, f t = 0) ∨
    (points.getLast hne < s ∧ ∀ t, points.getLast hne ≤ t → f t = 0)

/-- What is listed is a zero, at zero or further up. -/
theorem zero_of_mem_findBreakevens {f : K → K} {points : List K} {slopeUp : ℤ}
    (h : PiecewiseLinear f points (slopeUp : K)) (hhead : points.head h.ne_nil = 0) {b : K}
    (hb : b ∈ findBreakevens points (points.map f) slopeUp) : 0 ≤ b ∧ f b = 0 := by
  have hnonneg : ∀ x ∈ points, 0 ≤ x := fun x hx => hhead ▸ head_le_of_mem h.increasing h.ne_nil hx
  rcases (mem_findBreakevens h.ne_nil).mp hb with ⟨hmem, hzero⟩ | ⟨p, hp, hsign, rfl⟩ | ⟨hslope, hroot, rfl⟩
  · exact ⟨hnonneg b hmem, hzero⟩
  · have hlt := lt_of_neighbours h.increasing hp
    have hleft : 0 ≤ p.1 := hnonneg _ (List.of_mem_zip hp).1
    exact ⟨hleft.trans (crossing_mem hlt hsign).1.le, (h.segment p hp).root_between hlt hsign⟩
  · exact ⟨(hnonneg _ (List.getLast_mem h.ne_nil)).trans hroot.le,
      h.tail_root (Int.cast_ne_zero.mpr hslope) hroot⟩

theorem breakevensExact_findBreakevens {f : K → K} {points : List K} {slopeUp : ℤ}
    (h : PiecewiseLinear f points (slopeUp : K)) (hhead : points.head h.ne_nil = 0) :
    BreakevensExact f points h.ne_nil (findBreakevens points (points.map f) slopeUp) where
  increasing := (Finset.sortedLT_sort _).pairwise
  zero := fun _ hb => zero_of_mem_findBreakevens h hhead hb
  complete := by
    intro s hs hzero
    rw [mem_findBreakevens h.ne_nil]
    rcases between h.increasing h.ne_nil (hhead.le.trans hs) with hmem | ⟨p, hp, hin⟩ | hlast
    · exact Or.inl (Or.inl ⟨hmem, hzero⟩)
    · rcases (h.segment p hp).root_of_zero hin hzero with ⟨hsign, hs⟩ | hall
      · exact Or.inl (Or.inr (Or.inl ⟨p, hp, hsign, hs⟩))
      · exact Or.inr (Or.inl ⟨p, hp, hin, hall⟩)
    · rcases h.zero_past_last hlast hzero with ⟨hslope, hs⟩ | hall
      · exact Or.inl (Or.inr (Or.inr ⟨Int.cast_ne_zero.mp hslope, hlast, hs⟩))
      · exact Or.inr (Or.inr ⟨hlast, hall⟩)

end

end NiftyShield.Payoff
