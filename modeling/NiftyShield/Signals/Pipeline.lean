import NiftyShield.Lib.Dict
import NiftyShield.Lib.Run
import NiftyShield.Signals.Aggregator
import Mathlib.Data.List.Sort

/-!
# The morning signal pipeline

`run_morning_signal_pipeline` (`src/signals/pipeline.py`), the providers of
`src/signals/factory.py` and the tables of `SignalStore` (`src/signals/store.py`). A run
replaces the snapshot of the day, adds the responses of models that had none, and replaces the
signal of the day; the signal is aggregated from the responses of the run.

## What is proved

* `collect_eq`: the rows a run leaves are those of the responses it took before it was
  stopped, recorded in turn;
* `matches_step` and `signal_matches_run`: the signal of the day matches the stored snapshot
  and responses throughout runs that repeat the stored votes;
* `failed_rerun_differs`: a run in which a model fails leaves the votes of both runs and the
  signal of one.

## Honest scope

What the models answer, whether the snapshot can be assembled and which writes raise are
inputs of a run. The settings of the aggregator are those of the process.
-/

namespace NiftyShield.Signals

open NiftyShield.Lib

/-! ### Providers -/

/-- The classes of `src/signals/providers`. -/
inductive Provider where
  /-- `GrokSignalProvider`. -/
  | grok
  /-- `GPT4oSignalProvider`. -/
  | gpt4o
  /-- `GeminiSignalProvider`. -/
  | gemini
  /-- `MockSignalProvider`. -/
  | mock
  deriving DecidableEq

/-- `provider_name`. -/
def Provider.providerName : Provider → String
  | .grok => "grok"
  | .gpt4o => "gpt4o"
  | .gemini => "gemini"
  | .mock => "mock"

theorem Provider.providerName_injective : Function.Injective Provider.providerName := by
  intro p q h
  cases p <;> cases q <;> first | rfl | exact absurd h (by decide)

/-- `_KNOWN_PROVIDERS`, in their canonical order. -/
def knownProviders : List Provider := [.grok, .gpt4o, .gemini]

/-- What `build_providers` reads of the environment. -/
structure ProviderEnv where
  /-- `UPSTOX_ENV` is `test`. -/
  upstoxTest : Bool := false
  /-- The names in `SIGNAL_PROVIDERS`. -/
  requested : List String
  /-- `OPENROUTER_API_KEY` is set. -/
  openrouterKey : Bool := true

/-- `build_providers`. -/
def buildProviders (env : ProviderEnv) : List Provider :=
  if env.upstoxTest then [.mock]
  else
    let providers := knownProviders.filter fun p => decide (p.providerName ∈ env.requested) && env.openrouterKey
    if providers.isEmpty then [.mock] else providers

/-- No provider is asked twice. -/
theorem nodup_buildProviders (env : ProviderEnv) : (buildProviders env).Nodup := by
  unfold buildProviders
  split
  next => exact List.nodup_singleton _
  next =>
    simp only
    split
    next => exact List.nodup_singleton _
    next => exact List.Nodup.filter _ (by decide)

/-! ### The store -/

/-- `UNIQUE (trade_date, provider)`. -/
def SignalResponse.key (r : SignalResponse) : Date × String := (r.tradeDate, r.provider)

/-- The tables. -/
structure SignalStore where
  /-- `signal_inputs`. -/
  inputs : Dict Date MarketSnapshot
  /-- `signal_responses`, in id order. -/
  responses : List SignalResponse
  /-- `daily_signals`. -/
  signals : Dict Date DailySignal
  /-- The UNIQUE constraint. -/
  unique : responses.Pairwise fun r r' => r.key ≠ r'.key

namespace SignalStore

/-- Empty tables. -/
def empty : SignalStore := ⟨Dict.empty, [], Dict.empty, List.Pairwise.nil⟩

/-- `record_snapshot`: `INSERT OR REPLACE`. -/
def recordSnapshot (s : SignalStore) (snapshot : MarketSnapshot) : SignalStore :=
  { s with inputs := s.inputs.set snapshot.tradeDate snapshot }

/-- `record_response`: `INSERT OR IGNORE`. -/
def recordResponse (s : SignalStore) (r : SignalResponse) : SignalStore :=
  if h : ∀ r' ∈ s.responses, r'.key ≠ r.key then
    { s with
      responses := s.responses ++ [r]
      unique := List.pairwise_append.mpr ⟨s.unique, List.pairwise_singleton _ _, fun r' hr' q hq => by
        rw [List.mem_singleton.mp hq]
        exact h r' hr'⟩ }
  else s

/-- `record_signal`: `INSERT OR REPLACE`. -/
def recordSignal (s : SignalStore) (signal : DailySignal) : SignalStore :=
  { s with signals := s.signals.set signal.tradeDate signal }

/-- `get_snapshot`. -/
def getSnapshot (s : SignalStore) (tradeDate : Date) : Option MarketSnapshot := s.inputs.get? tradeDate

/-- `get_responses`: `ORDER BY provider`. -/
def getResponses (s : SignalStore) (tradeDate : Date) : List SignalResponse :=
  (s.responses.filter fun r => r.tradeDate = tradeDate).insertionSort fun r r' => r.provider ≤ r'.provider

/-- `get_signal`: the row, with the stored responses of the day. -/
def getSignal (s : SignalStore) (tradeDate : Date) : Option DailySignal :=
  (s.signals.get? tradeDate).map fun signal => { signal with responses := s.getResponses tradeDate }

end SignalStore

/-! ### A run -/

/-- What `get_signal` of a provider gives under `gather(return_exceptions=True)`. -/
inductive Answer where
  /-- A parsed response. -/
  | vote (direction : Direction) (confidence strike : ℤ)
  /-- An `Exception`. -/
  | error
  /-- A `CancelledError`, which is no `Exception`. -/
  | cancelled

/-- One run of the script. -/
structure MorningRun where
  /-- Its environment. -/
  env : ProviderEnv
  /-- The option chain of the snapshot; `none` if `assemble_market_snapshot` raises. -/
  optionChain : Option OptionChainSummary
  /-- The answers of the providers. -/
  answers : Provider → Answer
  /-- LTP of the resolved option, to the paisa, if it is resolved and quoted. -/
  entryPremium : Option ℚ := none
  /-- `record_snapshot` raises. -/
  recordSnapshotFault : Bool := false
  /-- `record_response` raises. -/
  recordResponseFault : Provider → Bool := fun _ => false
  /-- `record_signal` raises. -/
  recordSignalFault : Bool := false

namespace MorningRun

/-- The loop over the responses: the store, and the valid responses unless the loop raises. -/
def collect (run : MorningRun) (tradeDate : Date) :
    List Provider → SignalStore → SignalStore × Option (List SignalResponse)
  | [], s => (s, some [])
  | p :: ps, s =>
    match run.answers p with
    | .error => run.collect tradeDate ps s
    | .cancelled => (s, none)
    | .vote direction confidence strike =>
      let r : SignalResponse := ⟨tradeDate, p.providerName, direction, confidence, strike⟩
      if run.recordResponseFault p then (s, none)
      else
        let rest := run.collect tradeDate ps (s.recordResponse r)
        (rest.1, rest.2.map (r :: ·))

end MorningRun

/-- The signal with the premium of its option, if it is for a trade. -/
def DailySignal.capturePremium (signal : DailySignal) (entryPremium : Option ℚ) : DailySignal :=
  if signal.isActionable then { signal with entryPremium } else signal

/-- `run_morning_signal_pipeline`, what it leaves in the store. -/
def runMorningSignalPipeline (aggregator : SignalAggregator) (tradeDate : Date) (s : SignalStore)
    (run : MorningRun) : SignalStore :=
  match run.optionChain with
  | none => s
  | some optionChain =>
    if run.recordSnapshotFault then s
    else
      let snapshot : MarketSnapshot := ⟨tradeDate, optionChain⟩
      match run.collect tradeDate (buildProviders run.env) (s.recordSnapshot snapshot) with
      | (s, none) => s
      | (s, some valid) =>
        let signal := (aggregator.aggregate snapshot valid).capturePremium run.entryPremium
        if run.recordSignalFault then s else s.recordSignal signal

/-! ### What a run records -/

namespace SignalStore

/-- Responses recorded in turn. -/
def recordAll (s : SignalStore) (rs : List SignalResponse) : SignalStore := rs.foldl recordResponse s

theorem recordResponse_other (s : SignalStore) (r : SignalResponse) :
    (s.recordResponse r).inputs = s.inputs ∧ (s.recordResponse r).signals = s.signals := by
  unfold recordResponse
  split <;> exact ⟨rfl, rfl⟩

theorem recordAll_other (s : SignalStore) (rs : List SignalResponse) :
    (s.recordAll rs).inputs = s.inputs ∧ (s.recordAll rs).signals = s.signals := by
  induction rs generalizing s with
  | nil => exact ⟨rfl, rfl⟩
  | cons r rs ih =>
    obtain ⟨hinputs, hsignals⟩ := s.recordResponse_other r
    obtain ⟨hinputs', hsignals'⟩ := ih (s.recordResponse r)
    exact ⟨hinputs'.trans hinputs, hsignals'.trans hsignals⟩

theorem mem_recordResponse {s : SignalStore} {q r : SignalResponse} :
    r ∈ (s.recordResponse q).responses ↔ r ∈ s.responses ∨ r = q ∧ ∀ r' ∈ s.responses, r'.key ≠ q.key := by
  unfold recordResponse
  split
  next h =>
    rw [List.mem_append, List.mem_singleton]
    exact or_congr Iff.rfl ⟨fun hr => ⟨hr, h⟩, fun hr => hr.1⟩
  next h => exact ⟨Or.inl, fun hr => hr.resolve_right fun ⟨_, hfree⟩ => h hfree⟩

/-- Of responses of different models, those with a free key are added. -/
theorem mem_recordAll {r : SignalResponse} : ∀ {rs : List SignalResponse} {s : SignalStore},
    (rs.map SignalResponse.key).Nodup →
      (r ∈ (s.recordAll rs).responses ↔ r ∈ s.responses ∨ r ∈ rs ∧ ∀ r' ∈ s.responses, r'.key ≠ r.key)
  | [], s, _ => by simp [recordAll]
  | q :: rs, s, hnodup => by
    rw [List.map_cons, List.nodup_cons] at hnodup
    have ih := mem_recordAll (r := r) (s := s.recordResponse q) hnodup.2
    rw [recordAll, List.foldl_cons, ← recordAll, ih, mem_recordResponse, List.mem_cons]
    -- a later response meets the same free keys, for none of them has the key of this one
    have hlater : r ∈ rs → ((∀ r' ∈ (s.recordResponse q).responses, r'.key ≠ r.key) ↔
        ∀ r' ∈ s.responses, r'.key ≠ r.key) := by
      intro hr
      have hne : q.key ≠ r.key := fun h => hnodup.1 (h ▸ List.mem_map_of_mem hr)
      constructor
      · exact fun h r' hr' => h r' (mem_recordResponse.mpr (Or.inl hr'))
      · intro h r' hr'
        rcases mem_recordResponse.mp hr' with hr' | ⟨rfl, -⟩
        · exact h r' hr'
        · exact hne
    constructor
    · rintro ((hr | ⟨rfl, hfree⟩) | ⟨hr, hfree⟩)
      · exact Or.inl hr
      · exact Or.inr ⟨Or.inl rfl, hfree⟩
      · exact Or.inr ⟨Or.inr hr, (hlater hr).mp hfree⟩
    · rintro (hr | ⟨rfl | hr, hfree⟩)
      · exact Or.inl (Or.inl hr)
      · exact Or.inl (Or.inr ⟨rfl, hfree⟩)
      · exact Or.inr ⟨hr, (hlater hr).mpr hfree⟩

theorem mem_getResponses {s : SignalStore} {tradeDate : Date} {r : SignalResponse} :
    r ∈ s.getResponses tradeDate ↔ r ∈ s.responses ∧ r.tradeDate = tradeDate := by
  rw [getResponses, List.mem_insertionSort, List.mem_filter, decide_eq_true_eq]

theorem nodup_getResponses (s : SignalStore) (tradeDate : Date) : (s.getResponses tradeDate).Nodup := by
  rw [getResponses, (List.perm_insertionSort _ _).nodup_iff]
  refine List.Nodup.filter _ (s.unique.imp fun {r r'} hkey heq => ?_)
  exact hkey (congrArg SignalResponse.key heq)

end SignalStore

namespace MorningRun

/-- The responses a run takes before it is stopped, and whether it takes all. -/
def taken (run : MorningRun) (tradeDate : Date) : List Provider → List SignalResponse × Bool
  | [] => ([], true)
  | p :: ps =>
    match run.answers p with
    | .error => run.taken tradeDate ps
    | .cancelled => ([], false)
    | .vote direction confidence strike =>
      if run.recordResponseFault p then ([], false)
      else
        let rest := run.taken tradeDate ps
        (⟨tradeDate, p.providerName, direction, confidence, strike⟩ :: rest.1, rest.2)

/-- **The loop records the responses it takes.** -/
theorem collect_eq (run : MorningRun) (tradeDate : Date) : ∀ (ps : List Provider) (s : SignalStore),
    run.collect tradeDate ps s = (s.recordAll (run.taken tradeDate ps).1,
      if (run.taken tradeDate ps).2 then some (run.taken tradeDate ps).1 else none)
  | [], s => rfl
  | p :: ps, s => by
    unfold collect taken
    cases run.answers p with
    | error => exact run.collect_eq tradeDate ps s
    | cancelled => rfl
    | vote direction confidence strike =>
      simp only
      split
      next => rfl
      next =>
        rw [run.collect_eq tradeDate ps]
        simp only [SignalStore.recordAll, List.foldl_cons]
        split <;> rfl

/-- The responses taken are of the day, each of the model that gave it. -/
theorem providers_taken (run : MorningRun) (tradeDate : Date) : ∀ ps : List Provider,
    ((run.taken tradeDate ps).1.map SignalResponse.key).Sublist
      (ps.map fun p => (tradeDate, p.providerName))
  | [] => List.Sublist.slnil
  | p :: ps => by
    have ih := run.providers_taken tradeDate ps
    unfold taken
    cases run.answers p with
    | error => exact ih.cons _
    | cancelled => exact List.nil_sublist _
    | vote direction confidence strike =>
      simp only
      split
      next => exact List.nil_sublist _
      next => exact ih.cons_cons _

/-- The responses of the run. -/
def votes (run : MorningRun) (tradeDate : Date) : List SignalResponse :=
  (run.taken tradeDate (buildProviders run.env)).1

theorem nodup_votes (run : MorningRun) (tradeDate : Date) :
    ((run.votes tradeDate).map SignalResponse.key).Nodup := by
  refine (run.providers_taken tradeDate _).nodup (List.Nodup.map ?_ (nodup_buildProviders run.env))
  exact fun p q h => Provider.providerName_injective (congrArg Prod.snd h)

theorem tradeDate_votes {run : MorningRun} {tradeDate : Date} {r : SignalResponse}
    (hr : r ∈ run.votes tradeDate) : r.tradeDate = tradeDate := by
  have hkey := (run.providers_taken tradeDate _).subset (List.mem_map_of_mem hr)
  obtain ⟨p, -, hp⟩ := List.mem_map.mp hkey
  exact (congrArg Prod.fst hp).symm

/-- The run gets to its signal. -/
def Finishes (run : MorningRun) (tradeDate : Date) : Prop :=
  (run.taken tradeDate (buildProviders run.env)).2 = true ∧ run.recordSignalFault = false

instance decidableFinishes (run : MorningRun) (tradeDate : Date) : Decidable (run.Finishes tradeDate) :=
  inferInstanceAs (Decidable (_ ∧ _))

end MorningRun

/-- The stored responses after a run. -/
theorem mem_getResponses_recordAll {s : SignalStore} {run : MorningRun} {tradeDate : Date} {r : SignalResponse} :
    r ∈ (s.recordAll (run.votes tradeDate)).getResponses tradeDate ↔
      r ∈ s.getResponses tradeDate ∨
        r ∈ run.votes tradeDate ∧ ∀ r' ∈ s.getResponses tradeDate, r'.provider ≠ r.provider := by
  rw [SignalStore.mem_getResponses, SignalStore.mem_recordAll (run.nodup_votes tradeDate), or_and_right,
    ← SignalStore.mem_getResponses]
  refine or_congr Iff.rfl ⟨?_, ?_⟩
  · rintro ⟨⟨hr, hfree⟩, hdate⟩
    refine ⟨hr, fun r' hr' hprovider => ?_⟩
    obtain ⟨hmem, hdate'⟩ := SignalStore.mem_getResponses.mp hr'
    exact hfree r' hmem (Prod.ext (hdate'.trans hdate.symm) hprovider)
  · rintro ⟨hr, hfree⟩
    have hdate := MorningRun.tradeDate_votes hr
    refine ⟨⟨hr, fun r' hr' hkey => ?_⟩, hdate⟩
    exact hfree r' (SignalStore.mem_getResponses.mpr ⟨hr', (congrArg Prod.fst hkey).trans hdate⟩)
      (congrArg Prod.snd hkey)

/-! ### The signal and the stored votes -/

/-- The signal stored for the day, if there is one, is the one `aggregate` makes of the stored
snapshot and the stored responses. -/
def Matches (aggregator : SignalAggregator) (tradeDate : Date) (s : SignalStore) : Prop :=
  ∀ signal, s.getSignal tradeDate = some signal → ∃ snapshot, s.getSnapshot tradeDate = some snapshot ∧
    signal.SameVerdict (aggregator.aggregate snapshot (s.getResponses tradeDate))

/-- What a run must repeat. A run that finishes: of each model with a stored vote, if its
stored vote or its new answer counts at the new ATM, it gives the stored vote again. A run
that is stopped after its snapshot, once there is a signal: the ATM is the stored one, and a
model whose vote it adds has one already unless the vote does not count. -/
def Repeats (tradeDate : Date) (s : SignalStore) (run : MorningRun) : Prop :=
  ∀ optionChain ∈ run.optionChain, run.recordSnapshotFault = false →
    (run.Finishes tradeDate → ∀ r ∈ s.getResponses tradeDate,
      (counts optionChain.atmStrike r = true → r ∈ run.votes tradeDate) ∧
        ∀ r' ∈ run.votes tradeDate, r'.provider = r.provider → counts optionChain.atmStrike r' = true → r' = r) ∧
    (¬run.Finishes tradeDate → s.getSignal tradeDate ≠ none →
      (∀ snapshot ∈ s.getSnapshot tradeDate, snapshot.optionChain.atmStrike = optionChain.atmStrike) ∧
        ∀ r' ∈ run.votes tradeDate, counts optionChain.atmStrike r' = true →
          ∃ r ∈ s.getResponses tradeDate, r.provider = r'.provider)

instance decidableRepeats (tradeDate : Date) (s : SignalStore) (run : MorningRun) :
    Decidable (Repeats tradeDate s run) :=
  inferInstanceAs (Decidable (∀ optionChain ∈ run.optionChain, run.recordSnapshotFault = false →
    (run.Finishes tradeDate → ∀ r ∈ s.getResponses tradeDate,
      (counts optionChain.atmStrike r = true → r ∈ run.votes tradeDate) ∧
        ∀ r' ∈ run.votes tradeDate, r'.provider = r.provider → counts optionChain.atmStrike r' = true → r' = r) ∧
    (¬run.Finishes tradeDate → s.getSignal tradeDate ≠ none →
      (∀ snapshot ∈ s.getSnapshot tradeDate, snapshot.optionChain.atmStrike = optionChain.atmStrike) ∧
        ∀ r' ∈ run.votes tradeDate, counts optionChain.atmStrike r' = true →
          ∃ r ∈ s.getResponses tradeDate, r.provider = r'.provider)))

/-- The votes that count, after a run that repeats those stored, are those of the run. -/
theorem counted_of_repeats {s : SignalStore} {run : MorningRun} {tradeDate : Date} {atm : ℤ}
    (h : ∀ r ∈ s.getResponses tradeDate, (counts atm r = true → r ∈ run.votes tradeDate) ∧
      ∀ r' ∈ run.votes tradeDate, r'.provider = r.provider → counts atm r' = true → r' = r) :
    ((run.votes tradeDate).filter (counts atm)).Perm
      (((s.recordAll (run.votes tradeDate)).getResponses tradeDate).filter (counts atm)) := by
  have hnodup : (run.votes tradeDate).Nodup := (run.nodup_votes tradeDate).of_map
  refine (List.perm_ext_iff_of_nodup (hnodup.filter _)
    ((SignalStore.nodup_getResponses _ _).filter _)).mpr fun r => ?_
  rw [List.mem_filter, List.mem_filter, mem_getResponses_recordAll]
  refine and_congr_left fun hcounts => ⟨fun hr => ?_, ?_⟩
  · by_cases hold : ∃ r' ∈ s.getResponses tradeDate, r'.provider = r.provider
    · obtain ⟨r', hr', hprovider⟩ := hold
      rw [(h r' hr').2 r hr hprovider.symm hcounts]
      exact Or.inl hr'
    · exact Or.inr ⟨hr, fun r' hr' hprovider => hold ⟨r', hr', hprovider⟩⟩
  · rintro (hr | ⟨hr, -⟩)
    · exact (h r hr).1 hcounts
    · exact hr

/-- The votes that count are those stored, after a run that adds none. -/
theorem counted_of_stopped {s : SignalStore} {run : MorningRun} {tradeDate : Date} {atm : ℤ}
    (h : ∀ r' ∈ run.votes tradeDate, counts atm r' = true →
      ∃ r ∈ s.getResponses tradeDate, r.provider = r'.provider) :
    ((s.getResponses tradeDate).filter (counts atm)).Perm
      (((s.recordAll (run.votes tradeDate)).getResponses tradeDate).filter (counts atm)) := by
  refine (List.perm_ext_iff_of_nodup ((SignalStore.nodup_getResponses _ _).filter _)
    ((SignalStore.nodup_getResponses _ _).filter _)).mpr fun r => ?_
  rw [List.mem_filter, List.mem_filter, mem_getResponses_recordAll]
  refine and_congr_left fun hcounts => ⟨Or.inl, ?_⟩
  rintro (hr | ⟨hr, hfree⟩)
  · exact hr
  · obtain ⟨r', hr', hprovider⟩ := h r hr hcounts
    exact absurd hprovider (hfree r' hr')

theorem DailySignal.capturePremium_same (signal : DailySignal) (entryPremium : Option ℚ) :
    (signal.capturePremium entryPremium).tradeDate = signal.tradeDate ∧
      (signal.capturePremium entryPremium).SameVerdict signal := by
  unfold capturePremium
  split <;> exact ⟨rfl, rfl, rfl, rfl, rfl, List.Perm.refl _⟩

theorem DailySignal.SameVerdict.withResponses {signal signal' : DailySignal} (h : signal.SameVerdict signal')
    (rs : List SignalResponse) : { signal with responses := rs }.SameVerdict signal' :=
  ⟨h.direction, h.confidence, h.action, h.strike, h.agreeing⟩

/-- The tables after a run whose snapshot is recorded. -/
theorem run_eq (aggregator : SignalAggregator) (tradeDate : Date) (s : SignalStore) {run : MorningRun}
    {optionChain : OptionChainSummary} (hchain : run.optionChain = some optionChain)
    (hrecord : run.recordSnapshotFault = false) :
    runMorningSignalPipeline aggregator tradeDate s run =
      if run.Finishes tradeDate then
        ((s.recordSnapshot ⟨tradeDate, optionChain⟩).recordAll (run.votes tradeDate)).recordSignal
          ((aggregator.aggregate ⟨tradeDate, optionChain⟩ (run.votes tradeDate)).capturePremium run.entryPremium)
      else (s.recordSnapshot ⟨tradeDate, optionChain⟩).recordAll (run.votes tradeDate) := by
  unfold runMorningSignalPipeline
  rw [hchain]
  simp only [hrecord, Bool.false_eq_true, if_false, run.collect_eq]
  cases hdone : (run.taken tradeDate (buildProviders run.env)).2 with
  | false =>
    rw [if_neg fun h : run.Finishes tradeDate => absurd (hdone.symm.trans h.1) (by decide)]
    rfl
  | true =>
    cases hsignal : run.recordSignalFault with
    | true =>
      rw [if_neg fun h : run.Finishes tradeDate => absurd (hsignal.symm.trans h.2) (by decide)]
      rfl
    | false =>
      rw [if_pos (show run.Finishes tradeDate from ⟨hdone, hsignal⟩)]
      rfl

/-- **A run that repeats the stored votes leaves a signal that matches.** -/
theorem matches_step (aggregator : SignalAggregator) {tradeDate : Date} {s : SignalStore} {run : MorningRun}
    (hs : Matches aggregator tradeDate s) (hrepeats : Repeats tradeDate s run) :
    Matches aggregator tradeDate (runMorningSignalPipeline aggregator tradeDate s run) := by
  cases hchain : run.optionChain with
  | none =>
    rw [runMorningSignalPipeline, hchain]
    exact hs
  | some optionChain =>
    cases hrecord : run.recordSnapshotFault with
    | true =>
      rw [runMorningSignalPipeline, hchain]
      simp only [hrecord, if_true]
      exact hs
    | false =>
      obtain ⟨hfinished, hstopped⟩ := hrepeats optionChain hchain hrecord
      have hsnapshot : ∀ s' : SignalStore, s'.inputs = (s.recordSnapshot ⟨tradeDate, optionChain⟩).inputs →
          s'.getSnapshot tradeDate = some ⟨tradeDate, optionChain⟩ := fun s' h => by
        rw [SignalStore.getSnapshot, h, SignalStore.recordSnapshot, Dict.get?_set, if_pos rfl]
      obtain ⟨hinputs, hsignals⟩ := (s.recordSnapshot ⟨tradeDate, optionChain⟩).recordAll_other
        (run.votes tradeDate)
      rw [run_eq aggregator tradeDate s hchain hrecord]
      by_cases hfinishes : run.Finishes tradeDate
      · rw [if_pos hfinishes]
        intro signal hsignal
        refine ⟨_, hsnapshot _ hinputs, ?_⟩
        obtain ⟨hdate, hcapture⟩ := (aggregator.aggregate ⟨tradeDate, optionChain⟩
          (run.votes tradeDate)).capturePremium_same run.entryPremium
        rw [SignalStore.getSignal, SignalStore.recordSignal, Dict.get?_set, hdate,
          aggregator.tradeDate_aggregate, if_pos rfl, Option.map_some] at hsignal
        obtain rfl := Option.some.inj hsignal
        have hcounted := counted_of_repeats (s := s.recordSnapshot ⟨tradeDate, optionChain⟩) (hfinished hfinishes)
        have hsame : (aggregator.aggregate ⟨tradeDate, optionChain⟩ (run.votes tradeDate)).SameVerdict
          (aggregator.aggregate ⟨tradeDate, optionChain⟩ _) := aggregator.aggregate_sameVerdict rfl hcounted
        exact (hcapture.withResponses _).trans hsame
      · rw [if_neg hfinishes]
        intro signal hsignal
        refine ⟨_, hsnapshot _ hinputs, ?_⟩
        -- the signal is the one there was, of the stored snapshot
        obtain ⟨row, hrow, rfl⟩ := Option.map_eq_some_iff.mp hsignal
        rw [hsignals] at hrow
        have hold : s.getSignal tradeDate = some { row with responses := s.getResponses tradeDate } := by
          rw [SignalStore.getSignal, show s.signals.get? tradeDate = some row from hrow]
          rfl
        obtain ⟨snapshot, hstored, hverdict⟩ := hs _ hold
        obtain ⟨hatm, hadds⟩ := hstopped hfinishes (by rw [hold]; exact Option.some_ne_none _)
        have hcounted := counted_of_stopped (s := s.recordSnapshot ⟨tradeDate, optionChain⟩) hadds
        rw [← hatm snapshot hstored] at hcounted
        have hsame : (aggregator.aggregate snapshot (s.getResponses tradeDate)).SameVerdict
          (aggregator.aggregate ⟨tradeDate, optionChain⟩ _) :=
            aggregator.aggregate_sameVerdict (hatm snapshot hstored) hcounted
        exact (hverdict.withResponses _).trans hsame

/-- **The signal matches the stored votes** throughout the runs of a day that begins without
a signal, if each run repeats the votes stored before it. -/
theorem signal_matches_run (aggregator : SignalAggregator) (tradeDate : Date) {s : SignalStore}
    (hs : s.getSignal tradeDate = none) (runs : List MorningRun)
    (hrepeats : Run.EachStep (runMorningSignalPipeline aggregator tradeDate) (Repeats tradeDate) s runs) :
    Run.Along (runMorningSignalPipeline aggregator tradeDate) (Matches aggregator tradeDate) s runs :=
  Run.along_of_invariant (fun _ _ h hrun => matches_step aggregator h hrun) (fun _ h => h)
    (fun signal hsignal => absurd (hs.symm.trans hsignal) (by simp)) hrepeats

/-! ### A model that fails on the second run -/

/-- Grok and GPT-4o are asked. -/
def twoModels : ProviderEnv where
  requested := ["grok", "gpt4o"]

/-- The answers of a run at ATM 24600: grok and gpt4o. -/
def runAt24600 (grok gpt4o : Answer) : MorningRun where
  env := twoModels
  optionChain := some ⟨24600⟩
  answers := fun p => if p = .grok then grok else gpt4o

/-- Both models are BULLISH; on the second run GPT-4o fails. -/
def failsOnRerun : List MorningRun :=
  [runAt24600 (.vote .bullish 4 24600) (.vote .bullish 4 24600), runAt24600 (.vote .bullish 4 24600) .error]

/-- The aggregator with its defaults. -/
def defaultAggregator : SignalAggregator where
  consensusRequired_pos := Nat.two_pos

/-- The second run stores NO_TRADE, from one vote; both votes are stored and make a consensus. -/
theorem failed_rerun_differs :
    ¬Run.Along (runMorningSignalPipeline defaultAggregator 739791) (Matches defaultAggregator 739791)
      SignalStore.empty failsOnRerun := by
  intro h
  have hlast := Run.along_iff_final.mp h failsOnRerun List.prefix_rfl
  generalize hfinal : Run.final (runMorningSignalPipeline defaultAggregator 739791) SignalStore.empty
    failsOnRerun = s at hlast
  have haction : (s.getSignal 739791).map (·.tradeAction) = some .noTrade := by
    rw [← hfinal]
    decide +kernel
  have hstored : ((s.getSnapshot 739791).map fun snapshot =>
      (defaultAggregator.aggregate snapshot (s.getResponses 739791)).tradeAction) = some .buyCall := by
    rw [← hfinal]
    decide +kernel
  obtain ⟨signal, hsignal, hnoTrade⟩ := Option.map_eq_some_iff.mp haction
  obtain ⟨snapshot, hsnapshot, hverdict⟩ := hlast signal hsignal
  rw [hsnapshot, Option.map_some, ← hverdict.action, hnoTrade] at hstored
  exact absurd hstored (by decide)

/-- The theorem for a run that is repeated after a model failed on the first. -/
theorem signal_matches_late_vote :
    Run.Along (runMorningSignalPipeline defaultAggregator 739791) (Matches defaultAggregator 739791)
      SignalStore.empty [runAt24600 (.vote .bullish 4 24600) .error,
        runAt24600 (.vote .bullish 4 24600) (.vote .bullish 5 24650)] :=
  signal_matches_run defaultAggregator 739791 rfl _ (by decide +kernel)

end NiftyShield.Signals
