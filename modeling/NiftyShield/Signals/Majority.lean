import NiftyShield.Signals.Aggregator

/-!
# Symmetry and majority of the consensus

The aggregator looks at BULLISH before BEARISH (`aggregate` in `src/signals/aggregator.py`). As
long as at most one of the two directions has the votes required, the order does not show: the
verdict is the same for the responses in any order, mirrored responses get the mirrored verdict,
and the direction called has more votes than the other. When both directions have the votes
required (1 of 3 and 2 of 3 at a threshold of one, or four voters at the default of two), the
verdict is BULLISH whatever the counts.

## What is proved

* `consensus_fair_iff`: the verdict on a list of responses is symmetric and follows the
  majority exactly when the two directions do not both have the votes required.
-/

namespace NiftyShield.Signals

/-! ### Mirrored votes -/

/-- BULLISH for BEARISH. -/
def Direction.mirror : Direction → Direction
  | .bullish => .bearish
  | .bearish => .bullish
  | .neutral => .neutral

/-- BUY_CALL for BUY_PUT. -/
def TradeAction.mirror : TradeAction → TradeAction
  | .buyCall => .buyPut
  | .buyPut => .buyCall
  | .noTrade => .noTrade

/-- The same response with the opposite call. -/
def SignalResponse.mirror (r : SignalResponse) : SignalResponse := { r with direction := r.direction.mirror }

/-- What a day is traded on. -/
structure Verdict where
  /-- Direction agreed on. -/
  direction : Direction
  /-- Mean confidence of the agreeing models. -/
  confidence : ℚ
  /-- What to trade. -/
  action : TradeAction
  /-- None without a trade. -/
  strike : Option ℤ
  deriving DecidableEq

/-- The mirrored verdict. -/
def Verdict.mirror (v : Verdict) : Verdict :=
  { v with direction := v.direction.mirror, action := v.action.mirror }

/-- The verdict of a signal. -/
def DailySignal.verdict (s : DailySignal) : Verdict :=
  ⟨s.consensusDirection, s.consensusConfidence, s.tradeAction, s.recommendedStrike⟩

theorem DailySignal.SameVerdict.verdict_eq {s s' : DailySignal} (h : s.SameVerdict s') : s.verdict = s'.verdict := by
  simp only [DailySignal.verdict, h.direction, h.confidence, h.action, h.strike]

@[simp] theorem Direction.mirror_mirror (d : Direction) : d.mirror.mirror = d := by
  cases d <;> rfl

/-- Mirroring does not touch what makes a response valid. -/
theorem isValid_mirror (atm : ℤ) (r : SignalResponse) : isValid atm r.mirror = isValid atm r := rfl

/-- The valid votes for a direction. -/
def votesFor (snapshot : MarketSnapshot) (responses : List SignalResponse) (d : Direction) : List SignalResponse :=
  directionVotes (responses.filter (isValid snapshot.optionChain.atmStrike)) d

theorem votesFor_mirror (snapshot : MarketSnapshot) (responses : List SignalResponse) (d : Direction) :
    votesFor snapshot (responses.map SignalResponse.mirror) d =
      (votesFor snapshot responses d.mirror).map SignalResponse.mirror := by
  simp only [votesFor, directionVotes, List.filter_filter, List.filter_map]
  refine congrArg _ (List.filter_congr fun r _ => ?_)
  have hdirection : r.mirror.direction = d ↔ r.direction = d.mirror := by
    show r.direction.mirror = d ↔ r.direction = d.mirror
    constructor
    · rintro rfl
      rw [Direction.mirror_mirror]
    · intro h
      rw [h, Direction.mirror_mirror]
  simp only [Function.comp, isValid_mirror, hdirection]

/-! ### The direction called -/

namespace SignalAggregator

variable (a : SignalAggregator) (snapshot : MarketSnapshot) (responses : List SignalResponse)

/-- The direction has the votes required. -/
def Reaches (d : Direction) : Prop := a.consensusRequired ≤ (votesFor snapshot responses d).length

instance (d : Direction) : Decidable (a.Reaches snapshot responses d) := by
  unfold Reaches; infer_instance

theorem consensusDirection_consensusSignal (d : Direction) (agreeing : List SignalResponse) (atm : ℤ) :
    (a.consensusSignal snapshot responses d agreeing atm).consensusDirection = d := by
  unfold consensusSignal
  simp only
  split <;> rfl

/-- BULLISH is looked at first. -/
theorem aggregate_bullish (h : a.Reaches snapshot responses .bullish) :
    a.aggregate snapshot responses = a.consensusSignal snapshot responses .bullish
      (votesFor snapshot responses .bullish) snapshot.optionChain.atmStrike := by
  unfold Reaches votesFor at h
  unfold aggregate
  simp [h, votesFor]

theorem aggregate_bearish (hbull : ¬ a.Reaches snapshot responses .bullish)
    (h : a.Reaches snapshot responses .bearish) :
    a.aggregate snapshot responses = a.consensusSignal snapshot responses .bearish
      (votesFor snapshot responses .bearish) snapshot.optionChain.atmStrike := by
  unfold Reaches votesFor at h hbull
  unfold aggregate
  simp [h, hbull, votesFor]

/-- Without a consensus there is no trade. -/
theorem aggregate_none (hbull : ¬ a.Reaches snapshot responses .bullish)
    (hbear : ¬ a.Reaches snapshot responses .bearish) :
    (a.aggregate snapshot responses).verdict = ⟨.neutral, 0, .noTrade, none⟩ := by
  unfold Reaches votesFor at hbull hbear
  unfold aggregate
  simp [hbull, hbear, DailySignal.verdict]

/-! ### Mirrored responses -/

theorem reaches_mirror (d : Direction) :
    a.Reaches snapshot (responses.map SignalResponse.mirror) d ↔ a.Reaches snapshot responses d.mirror := by
  rw [Reaches, Reaches, votesFor_mirror, List.length_map]

/-- The agreeing models mirrored: same mean and same strikes. -/
theorem consensusSignal_mirror {d : Direction} (hd : d ≠ .neutral) (agreeing : List SignalResponse) (atm : ℤ) :
    (a.consensusSignal snapshot (responses.map SignalResponse.mirror) d.mirror
      (agreeing.map SignalResponse.mirror) atm).verdict =
        (a.consensusSignal snapshot responses d agreeing atm).verdict.mirror := by
  have hconfidence : (agreeing.map SignalResponse.mirror).map (fun r => (r.confidence : ℚ)) =
      agreeing.map fun r => (r.confidence : ℚ) := by
    rw [List.map_map]
    rfl
  have hstrike : modalStrike (agreeing.map SignalResponse.mirror) atm = modalStrike agreeing atm := by
    have hstrikes : (agreeing.map SignalResponse.mirror).map (·.recommendedStrike) =
        agreeing.map (·.recommendedStrike) := by
      rw [List.map_map]
      rfl
    simp only [modalStrike, hstrikes]
  unfold consensusSignal
  simp only [hconfidence, hstrike, List.length_map]
  split
  next => rfl
  next =>
    cases d
    case bullish => rfl
    case bearish => rfl
    case neutral => exact absurd rfl hd

end SignalAggregator

/-! ### Fair verdicts -/

/-- What a consensus of equals promises on a list of responses. -/
structure Fair (a : SignalAggregator) (snapshot : MarketSnapshot) (responses : List SignalResponse) : Prop where
  /-- The order of the responses does not matter. -/
  perm : ∀ responses', responses'.Perm responses →
    (a.aggregate snapshot responses').verdict = (a.aggregate snapshot responses).verdict
  /-- Mirrored votes get the mirrored verdict. -/
  mirror : (a.aggregate snapshot (responses.map SignalResponse.mirror)).verdict =
    (a.aggregate snapshot responses).verdict.mirror
  /-- The direction called has more votes than the other. -/
  majority : (a.aggregate snapshot responses).consensusDirection ≠ .neutral →
    (votesFor snapshot responses (a.aggregate snapshot responses).consensusDirection.mirror).length <
      (votesFor snapshot responses (a.aggregate snapshot responses).consensusDirection).length

section
variable {a : SignalAggregator} {snapshot : MarketSnapshot} {responses : List SignalResponse}

/-- One call against two puts, one vote required: the call is bought. -/
theorem outvoted_bullish : ¬ Fair { consensusRequired := 1, consensusRequired_pos := Nat.one_pos } ⟨739866, ⟨24500⟩⟩
    [⟨739866, "grok", .bullish, 4, 24500⟩, ⟨739866, "gpt4o", .bearish, 4, 24500⟩,
      ⟨739866, "gemini", .bearish, 4, 24500⟩] := by
  intro h
  have hmajority := h.majority
  rw [SignalAggregator.aggregate_bullish _ _ _ (by decide),
    SignalAggregator.consensusDirection_consensusSignal] at hmajority
  exact absurd (hmajority (by decide)) (by decide)

/-- With both directions at the threshold the mirrored verdict is BULLISH again. -/
theorem not_fair_of_both (hbull : a.Reaches snapshot responses .bullish)
    (hbear : a.Reaches snapshot responses .bearish) : ¬ Fair a snapshot responses := by
  intro h
  have hmirror := congrArg Verdict.direction h.mirror
  rw [a.aggregate_bullish _ _ hbull, a.aggregate_bullish _ _ ((a.reaches_mirror _ _ _).mpr hbear)] at hmirror
  simp only [DailySignal.verdict, Verdict.mirror, SignalAggregator.consensusDirection_consensusSignal] at hmirror
  exact absurd hmirror (by decide)

theorem mirror_of_not_both (h : ¬ (a.Reaches snapshot responses .bullish ∧ a.Reaches snapshot responses .bearish)) :
    (a.aggregate snapshot (responses.map SignalResponse.mirror)).verdict =
      (a.aggregate snapshot responses).verdict.mirror := by
  by_cases hbull : a.Reaches snapshot responses .bullish
  · have hbear : ¬ a.Reaches snapshot responses .bearish := fun hbear => h ⟨hbull, hbear⟩
    rw [a.aggregate_bullish _ _ hbull, a.aggregate_bearish _ _ (by rwa [a.reaches_mirror])
      (by rwa [a.reaches_mirror]), votesFor_mirror]
    exact a.consensusSignal_mirror _ _ (d := .bullish) (by decide) _ _
  by_cases hbear : a.Reaches snapshot responses .bearish
  · rw [a.aggregate_bearish _ _ hbull hbear, a.aggregate_bullish _ _ (by rwa [a.reaches_mirror]), votesFor_mirror]
    exact a.consensusSignal_mirror _ _ (d := .bearish) (by decide) _ _
  · rw [a.aggregate_none _ _ hbull hbear, a.aggregate_none _ _ (by rwa [a.reaches_mirror])
      (by rwa [a.reaches_mirror])]
    rfl

/-- The other direction stays below the threshold the called one has reached. -/
theorem majority_of_not_both (h : ¬ (a.Reaches snapshot responses .bullish ∧ a.Reaches snapshot responses .bearish))
    (hcalled : (a.aggregate snapshot responses).consensusDirection ≠ .neutral) :
    (votesFor snapshot responses (a.aggregate snapshot responses).consensusDirection.mirror).length <
      (votesFor snapshot responses (a.aggregate snapshot responses).consensusDirection).length := by
  by_cases hbull : a.Reaches snapshot responses .bullish
  · have hbear : ¬ a.Reaches snapshot responses .bearish := fun hbear => h ⟨hbull, hbear⟩
    rw [a.aggregate_bullish _ _ hbull, a.consensusDirection_consensusSignal]
    simp only [SignalAggregator.Reaches] at hbull hbear
    exact (not_le.mp hbear).trans_le hbull
  by_cases hbear : a.Reaches snapshot responses .bearish
  · rw [a.aggregate_bearish _ _ hbull hbear, a.consensusDirection_consensusSignal]
    simp only [SignalAggregator.Reaches] at hbull hbear
    exact (not_le.mp hbull).trans_le hbear
  · have hnone := congrArg Verdict.direction (a.aggregate_none _ _ hbull hbear)
    exact absurd hnone hcalled

/-- **The verdict is fair exactly when the directions do not both have the votes required.** -/
theorem consensus_fair_iff (a : SignalAggregator) (snapshot : MarketSnapshot) (responses : List SignalResponse) :
    Fair a snapshot responses ↔
      ¬ (a.Reaches snapshot responses .bullish ∧ a.Reaches snapshot responses .bearish) := by
  constructor
  · rintro hfair ⟨hbull, hbear⟩
    exact not_fair_of_both hbull hbear hfair
  · intro h
    refine ⟨fun responses' hperm => ?_, mirror_of_not_both h, majority_of_not_both h⟩
    exact (a.aggregate_sameVerdict rfl (hperm.filter _)).verdict_eq

end

end NiftyShield.Signals
