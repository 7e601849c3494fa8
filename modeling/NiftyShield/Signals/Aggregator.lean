import NiftyShield.Models.Common
import Mathlib.Algebra.BigOperators.Group.List.Basic
import Mathlib.Algebra.Ring.Rat
import Mathlib.Data.List.Dedup
import Mathlib.Data.Rat.Defs

/-!
# The signal aggregator

`SignalAggregator.aggregate` (`src/signals/aggregator.py`) and the models it reads
(`src/signals/models.py`). A response is dropped from the vote if its strike is not within one
step of the ATM or its confidence is not within 1 to 5; a direction with enough votes is the
consensus, BULLISH looked at first.

## What is proved

* `aggregate_sameVerdict`: the verdict of a day depends on the responses only through those
  that count (`counts`: valid and not NEUTRAL), and not on their order.

## Honest scope

The aggregator reads the date and the ATM strike of a snapshot; its other fields, and the
texts, premiums and costs of a response, are left out. A mean confidence is a rational.
-/

namespace NiftyShield.Signals

/-! ### Models -/

/-- `Direction`. -/
inductive Direction where
  /-- `BULLISH`. -/
  | bullish
  /-- `BEARISH`. -/
  | bearish
  /-- `NEUTRAL`. -/
  | neutral
  deriving DecidableEq

/-- `TradeAction`. -/
inductive TradeAction where
  /-- `BUY_CALL`. -/
  | buyCall
  /-- `BUY_PUT`. -/
  | buyPut
  /-- `NO_TRADE`. -/
  | noTrade
  deriving DecidableEq

/-- What the aggregator reads of `OptionChainSummary`. -/
structure OptionChainSummary where
  /-- Strike nearest the spot. -/
  atmStrike : ℤ
  deriving DecidableEq

/-- What the aggregator reads of `MarketSnapshot`. -/
structure MarketSnapshot where
  /-- Session. -/
  tradeDate : Date
  /-- Option chain. -/
  optionChain : OptionChainSummary
  deriving DecidableEq

/-- The vote of a `SignalResponse`. -/
structure SignalResponse where
  /-- Session. -/
  tradeDate : Date
  /-- Model that answered. -/
  provider : String
  /-- Its call. -/
  direction : Direction
  /-- 1 to 5, when the model keeps to it. -/
  confidence : ℤ
  /-- Strike it recommends. -/
  recommendedStrike : ℤ
  deriving DecidableEq

/-- `DailySignal`. -/
structure DailySignal where
  /-- Session. -/
  tradeDate : Date
  /-- Responses aggregated. -/
  responses : List SignalResponse
  /-- Direction agreed on. -/
  consensusDirection : Direction
  /-- Mean confidence of the agreeing models. -/
  consensusConfidence : ℚ
  /-- What to trade. -/
  tradeAction : TradeAction
  /-- None without a trade. -/
  recommendedStrike : Option ℤ
  /-- Premium captured at the signal. -/
  entryPremium : Option ℚ := none
  /-- Models with the consensus. -/
  agreeingModels : List String
  /-- The other models. -/
  dissentingModels : List String
  deriving DecidableEq

/-- `is_actionable`. -/
def DailySignal.isActionable (s : DailySignal) : Bool := s.tradeAction ≠ .noTrade

/-! ### Aggregation -/

/-- `NIFTY_STRIKE_STEP`. -/
def niftyStrikeStep : ℤ := 50

/-- `_is_valid`. -/
def isValid (atm : ℤ) (r : SignalResponse) : Bool :=
  decide (r.recommendedStrike ∈ [atm - niftyStrikeStep, atm, atm + niftyStrikeStep]) &&
    decide (1 ≤ r.confidence ∧ r.confidence ≤ 5)

/-- `_direction_votes`, of one direction. -/
def directionVotes (valid : List SignalResponse) (direction : Direction) : List SignalResponse :=
  valid.filter fun r => r.direction = direction

/-- `_modal_strike`: ATM on a tie. -/
def modalStrike (agreeing : List SignalResponse) (atm : ℤ) : ℤ :=
  let strikes := agreeing.map (·.recommendedStrike)
  let top := (strikes.map strikes.count).foldr max 0
  let modal := strikes.dedup.filter fun strike => strikes.count strike = top
  if atm ∈ modal ∨ 1 < modal.length then atm else modal.headD atm

/-- `SignalAggregator`; `build_aggregator` lets neither setting below 1. -/
structure SignalAggregator where
  /-- `min_confidence`. -/
  minConfidence : ℕ := 3
  /-- `consensus_required`. -/
  consensusRequired : ℕ := 2
  /-- A consensus has a vote. -/
  consensusRequired_pos : 0 < consensusRequired

namespace SignalAggregator

/-- `_consensus_signal`. -/
def consensusSignal (a : SignalAggregator) (snapshot : MarketSnapshot) (responses : List SignalResponse)
    (direction : Direction) (agreeing : List SignalResponse) (atm : ℤ) : DailySignal :=
  let confidence := (agreeing.map fun r => (r.confidence : ℚ)).sum / agreeing.length
  let agreeingProviders := agreeing.map (·.provider)
  let dissenting := (responses.map (·.provider)).filter fun p => p ∉ agreeingProviders
  if confidence < a.minConfidence then
    { tradeDate := snapshot.tradeDate
      responses
      consensusDirection := direction
      consensusConfidence := confidence
      tradeAction := .noTrade
      recommendedStrike := none
      agreeingModels := agreeingProviders
      dissentingModels := dissenting }
  else
    { tradeDate := snapshot.tradeDate
      responses
      consensusDirection := direction
      consensusConfidence := confidence
      tradeAction := if direction = .bullish then .buyCall else .buyPut
      recommendedStrike := some (modalStrike agreeing atm)
      agreeingModels := agreeingProviders
      dissentingModels := dissenting }

/-- `aggregate`. -/
def aggregate (a : SignalAggregator) (snapshot : MarketSnapshot) (responses : List SignalResponse) : DailySignal :=
  let atm := snapshot.optionChain.atmStrike
  let valid := responses.filter (isValid atm)
  match [Direction.bullish, .bearish].find? fun d => a.consensusRequired ≤ (directionVotes valid d).length with
  | some direction => a.consensusSignal snapshot responses direction (directionVotes valid direction) atm
  | none =>
    { tradeDate := snapshot.tradeDate
      responses
      consensusDirection := .neutral
      consensusConfidence := 0
      tradeAction := .noTrade
      recommendedStrike := none
      agreeingModels := []
      dissentingModels := responses.map (·.provider) }

end SignalAggregator

/-! ### Votes that count -/

/-- The response is valid and not NEUTRAL. -/
def counts (atm : ℤ) (r : SignalResponse) : Bool := isValid atm r && r.direction ≠ .neutral

/-- Direction, confidence, action and strike are the same, and the agreeing models are, in
some order. -/
structure DailySignal.SameVerdict (s s' : DailySignal) : Prop where
  /-- The direction. -/
  direction : s.consensusDirection = s'.consensusDirection
  /-- The confidence. -/
  confidence : s.consensusConfidence = s'.consensusConfidence
  /-- The action. -/
  action : s.tradeAction = s'.tradeAction
  /-- The strike. -/
  strike : s.recommendedStrike = s'.recommendedStrike
  /-- The agreeing models. -/
  agreeing : s.agreeingModels.Perm s'.agreeingModels

theorem DailySignal.SameVerdict.trans {s t u : DailySignal} (h : s.SameVerdict t) (h' : t.SameVerdict u) :
    s.SameVerdict u :=
  ⟨h.direction.trans h'.direction, h.confidence.trans h'.confidence, h.action.trans h'.action,
    h.strike.trans h'.strike, h.agreeing.trans h'.agreeing⟩

/-- The votes for a direction are among those that count. -/
theorem directionVotes_eq {atm : ℤ} {d : Direction} (hd : d ≠ .neutral) (rs : List SignalResponse) :
    directionVotes (rs.filter (isValid atm)) d = directionVotes (rs.filter (counts atm)) d := by
  rw [directionVotes, directionVotes, List.filter_filter, List.filter_filter]
  refine List.filter_congr fun r _ => ?_
  by_cases h : r.direction = d
  · have hne : r.direction ≠ .neutral := h ▸ hd
    simp [counts, h, hd]
  · simp [h]

theorem directionVotes_perm {atm : ℤ} {rs rs' : List SignalResponse}
    (h : (rs.filter (counts atm)).Perm (rs'.filter (counts atm))) {d : Direction} (hd : d ≠ .neutral) :
    (directionVotes (rs.filter (isValid atm)) d).Perm (directionVotes (rs'.filter (isValid atm)) d) := by
  rw [directionVotes_eq hd, directionVotes_eq hd]
  exact h.filter _

/-- The modal strike does not depend on the order of the votes. -/
theorem modalStrike_perm {rs rs' : List SignalResponse} (h : rs.Perm rs') (atm : ℤ) :
    modalStrike rs atm = modalStrike rs' atm := by
  have hstrikes := h.map (·.recommendedStrike)
  have hcount : ∀ strike, (rs.map (·.recommendedStrike)).count strike =
      (rs'.map (·.recommendedStrike)).count strike := fun strike => hstrikes.count_eq strike
  have htop : ((rs.map (·.recommendedStrike)).map fun strike =>
      (rs'.map (·.recommendedStrike)).count strike).foldr max 0 =
        ((rs'.map (·.recommendedStrike)).map fun strike =>
          (rs'.map (·.recommendedStrike)).count strike).foldr max 0 :=
    (hstrikes.map _).foldr_eq 0
  unfold modalStrike
  simp only [hcount, htop]
  generalize hmodal : (rs.map (·.recommendedStrike)).dedup.filter _ = modal
  generalize hmodal' : (rs'.map (·.recommendedStrike)).dedup.filter _ = modal'
  have hperm : modal.Perm modal' := by
    rw [← hmodal, ← hmodal']
    exact hstrikes.dedup.filter _
  by_cases hatm : atm ∈ modal ∨ 1 < modal.length
  · rw [if_pos hatm, if_pos (by rwa [← hperm.mem_iff, ← hperm.length_eq])]
  · rw [if_neg hatm, if_neg (by rwa [← hperm.mem_iff, ← hperm.length_eq])]
    -- one modal strike at most: there is no order
    match modal, hperm, hatm with
    | [], hperm, _ => rw [List.nil_perm.mp hperm]
    | [strike], hperm, _ => rw [List.singleton_perm.mp hperm]
    | _ :: _ :: _, _, hatm => exact absurd (Or.inr (by simp)) hatm

theorem SignalAggregator.consensusSignal_sameVerdict (a : SignalAggregator) {snapshot snapshot' : MarketSnapshot}
    {rs rs' agreeing agreeing' : List SignalResponse} {d : Direction} {atm : ℤ} (h : agreeing.Perm agreeing') :
    (a.consensusSignal snapshot rs d agreeing atm).SameVerdict (a.consensusSignal snapshot' rs' d agreeing' atm) := by
  have hconfidence : (agreeing.map fun r => (r.confidence : ℚ)).sum / agreeing.length =
      (agreeing'.map fun r => (r.confidence : ℚ)).sum / agreeing'.length := by
    rw [(h.map _).sum_eq, h.length_eq]
  unfold consensusSignal
  simp only [hconfidence]
  split
  next => exact ⟨rfl, rfl, rfl, rfl, h.map _⟩
  next => exact ⟨rfl, rfl, rfl, congrArg some (modalStrike_perm h _), h.map _⟩

theorem SignalAggregator.tradeDate_aggregate (a : SignalAggregator) (snapshot : MarketSnapshot)
    (rs : List SignalResponse) : (a.aggregate snapshot rs).tradeDate = snapshot.tradeDate := by
  unfold aggregate consensusSignal
  simp only
  split
  next => split <;> rfl
  next => rfl

/-- **The verdict depends on the votes that count** at the ATM strike, in any order. -/
theorem SignalAggregator.aggregate_sameVerdict (a : SignalAggregator) {snapshot snapshot' : MarketSnapshot}
    (hatm : snapshot.optionChain.atmStrike = snapshot'.optionChain.atmStrike) {rs rs' : List SignalResponse}
    (h : (rs.filter (counts snapshot.optionChain.atmStrike)).Perm
      (rs'.filter (counts snapshot.optionChain.atmStrike))) :
    (a.aggregate snapshot rs).SameVerdict (a.aggregate snapshot' rs') := by
  unfold SignalAggregator.aggregate
  simp only [← hatm]
  have hvotes : ∀ d ∈ [Direction.bullish, .bearish],
      (directionVotes (rs.filter (isValid snapshot.optionChain.atmStrike)) d).Perm
        (directionVotes (rs'.filter (isValid snapshot.optionChain.atmStrike)) d) := by
    intro d hd
    refine directionVotes_perm h ?_
    rintro rfl
    exact absurd hd (by decide)
  have hfind : [Direction.bullish, .bearish].find? (fun d => a.consensusRequired ≤
      (directionVotes (rs.filter (isValid snapshot.optionChain.atmStrike)) d).length) =
      [Direction.bullish, .bearish].find? fun d => a.consensusRequired ≤
        (directionVotes (rs'.filter (isValid snapshot.optionChain.atmStrike)) d).length := by
    simp only [List.find?_cons, List.find?_nil, (hvotes .bullish (by simp)).length_eq, (hvotes .bearish (by simp)).length_eq]
  rw [hfind]
  split
  next d hd => exact a.consensusSignal_sameVerdict (hvotes d (List.mem_of_find?_eq_some hd))
  next => exact ⟨rfl, rfl, rfl, rfl, List.Perm.refl _⟩

end NiftyShield.Signals
