import NiftyShield.Client.SourceHealth
import NiftyShield.Lib.Run

/-!
# Routing a call over ordered sources

`CapabilityRouter.call` (`src/client/capability_router.py`) asks the sources of a capability in
order and returns the first usable result. A source that is unhealthy is passed over until its
probe is due; a transport failure is retried once; a rate limit ends the call.

## What is proved

* `callFrom_outcome_iff`, `callFrom_limited`, `callFrom_visits`: what one call returns, whom it asks and how
  often, and what a rate limit leaves of the health;
* `call_keeps_promises`: this for every call, and that the turns every source gets in any
  sequence of calls respect the back-off of the tracker.

## Honest scope

A source is its id; what it answers when it is asked, first and again, and what the clock shows
is the script of a call. An error that is neither a broker error of the taxonomy nor a rate
limit is `raises`.
-/

namespace NiftyShield.Client

open NiftyShield.Lib NiftyShield.Lib.Backoff NiftyShield.Lib.Run

/-! ### The code -/

/-- What a fetch comes to. -/
inductive Answer (R : Type) where
  /-- A result. -/
  | result (r : R)
  /-- `RateLimitError`. -/
  | rateLimited
  /-- `AuthenticationError`. -/
  | authentication
  /-- `NotSubscribedError`. -/
  | notSubscribed
  /-- `DataFetchError`. -/
  | dataFetch (text : String)
  /-- Any other exception. -/
  | raises (name : String)
  deriving DecidableEq

/-- How a call ends. -/
inductive Outcome (R : Type) where
  /-- With a result. -/
  | returned (r : R)
  /-- With the `RateLimitError` of a source. -/
  | rateLimited
  /-- With another exception of a source. -/
  | raised (name : String)
  /-- With a `DataFetchError`. -/
  | noUsable (text : String)
  deriving DecidableEq

/-- `CapabilityRouter`. -/
structure CapabilityRouter (ι R : Type) where
  /-- `capability`. -/
  capability : String
  /-- `sources`, in order. -/
  sources : List ι
  /-- `source_id.value`. -/
  value : ι → String
  /-- `is_usable`. -/
  isUsable : R → Bool
  /-- `rate_limit_backoff_s`. -/
  backoffS : ℚ := 4

/-- What happens around a call, by the position of the source. -/
structure Script (R : Type) where
  /-- The answers of the source when it is asked, and asked again. -/
  answers : ℕ → Answer R × Answer R
  /-- What the clock shows to `allow`. -/
  allowAt : ℕ → ℚ
  /-- What the clock shows to `mark_unhealthy`. -/
  markAt : ℕ → ℚ

/-- `_fetch_with_retry`: the answer, and how often the source is asked. -/
def fetchWithRetry {R : Type} : Answer R × Answer R → Answer R × ℕ
  | (.dataFetch _, second) => (second, 2)
  | (first, _) => (first, 1)

/-- What a call does with one source. -/
structure Visit (ι : Type) where
  /-- The position of the source. -/
  index : ℕ
  /-- The source. -/
  source : ι
  /-- How often it is asked. -/
  asks : ℕ
  /-- An alert is sent. -/
  alerted : Bool := false
  /-- The pause before a rate limit is raised again. -/
  slept : Option ℚ := none
  /-- What its turn comes to. -/
  turn : Turn ℚ

/-- How the loop of a call goes on after a source. -/
inductive Reply (R : Type) where
  /-- The call ends. -/
  | stop (o : Outcome R)
  /-- The next source is tried, with a reason against this one. -/
  | next (reason : String)

/-- What a call leaves. -/
structure CallRun (ι R : Type) where
  /-- How it ended. -/
  outcome : Outcome R
  /-- The tracker. -/
  health : SourceHealth ι
  /-- What it did with the sources. -/
  visits : List (Visit ι)

namespace CapabilityRouter

variable {ι R : Type} [DecidableEq ι] (router : CapabilityRouter ι R) (script : Script R)

/-- The health key of a source. -/
def key (source : ι) : ι × String := (source, router.capability)

/-- `_try`, of the source at a position, which has been allowed. -/
def tryOne (i : ℕ) (source : ι) (probe : Option ℚ) (h : SourceHealth ι) : SourceHealth ι × Visit ι × Reply R :=
  let fetched := fetchWithRetry (script.answers i)
  let mark (reason text : String) (alert : Bool) : SourceHealth ι × Visit ι × Reply R :=
    let marked := h.markUnhealthy (router.key source) (script.markAt i) reason alert
    (marked.1, { index := i, source, asks := fetched.2, alerted := marked.2
                 turn := .tried probe (.failed (script.markAt i)) },
      .next (router.value source ++ ": " ++ text))
  match fetched.1 with
  | .rateLimited =>
    (h, { index := i, source, asks := fetched.2, slept := some router.backoffS, turn := .tried probe .abandoned },
      .stop .rateLimited)
  | .authentication => mark "AuthenticationError" "AuthenticationError" true
  | .notSubscribed => mark "NotSubscribedError" "NotSubscribedError" true
  | .dataFetch text => mark ("transport: " ++ text) text false
  | .raises name =>
    (h, { index := i, source, asks := fetched.2, turn := .tried probe .abandoned }, .stop (.raised name))
  | .result r =>
    (h.recordSuccess (router.key source), { index := i, source, asks := fetched.2, turn := .tried probe .succeeded },
      if router.isUsable r then .stop (.returned r) else .next (router.value source ++ ": unusable"))

/-- The turn of the source at a position. -/
def visit (i : ℕ) (source : ι) (h : SourceHealth ι) : SourceHealth ι × Visit ι × Reply R :=
  let now := script.allowAt i
  let allowed := h.allow (router.key source) now
  if allowed.2 then router.tryOne script i source (h.probeTime (router.key source) now) allowed.1
  else (allowed.1, { index := i, source, asks := 0, turn := .refused now }, .next (router.value source ++ ": unhealthy"))

/-- The loop of `call`, from a position on. -/
def callFrom : ℕ → List ι → SourceHealth ι → List String → CallRun ι R
  | _, [], h, reasons =>
    { outcome := .noUsable ("No usable " ++ router.capability ++ " from any source: " ++ "; ".intercalate reasons)
      health := h
      visits := [] }
  | i, source :: rest, h, reasons =>
    match router.visit script i source h with
    | (h', v, .stop o) => ⟨o, h', [v]⟩
    | (h', v, .next reason) =>
      let run := callFrom (i + 1) rest h' (reasons ++ [reason])
      { run with visits := v :: run.visits }

/-- `call`. -/
def call (h : SourceHealth ι) : CallRun ι R := router.callFrom script 0 router.sources h []

/-! ### What one call does -/

/-- The answer of the source at a position, where it is asked. -/
def answerAt (j : ℕ) : Answer R := (fetchWithRetry (script.answers j)).1

/-- How an answer ends the call, if it does. -/
def stopOf : Answer R → Option (Outcome R)
  | .result r => if router.isUsable r then some (.returned r) else none
  | .rateLimited => some .rateLimited
  | .raises name => some (.raised name)
  | _ => none

/-- The tracker when the turn of the `j`-th source comes. -/
def healthAt : ℕ → List ι → SourceHealth ι → ℕ → SourceHealth ι
  | _, [], h, _ => h
  | _, _ :: _, h, 0 => h
  | i, source :: rest, h, j + 1 => healthAt (i + 1) rest (router.visit script i source h).1 j

/-- The `j`-th source may be called when its turn comes. -/
def Allowed (i : ℕ) (rest : List ι) (h : SourceHealth ι) (j : ℕ) : Prop :=
  ∃ source, rest[j]? = some source ∧
    ((router.healthAt script i rest h j).allow (router.key source) (script.allowAt (i + j))).2 = true

/-- The `j`-th source is the first that is allowed and whose answer ends the call. -/
structure Ends (i : ℕ) (rest : List ι) (h : SourceHealth ι) (j : ℕ) (o : Outcome R) : Prop where
  /-- It is allowed. -/
  allowed : router.Allowed script i rest h j
  /-- Its answer ends the call. -/
  answer : router.stopOf (answerAt script (i + j)) = some o
  /-- No answer before it does. -/
  first : ∀ k < j, router.Allowed script i rest h k → router.stopOf (answerAt script (i + k)) = none

variable {router script} {i : ℕ} {source : ι} {rest : List ι} {h : SourceHealth ι} {reasons : List String} {j : ℕ}
  {o : Outcome R}

theorem visit_refused (hallow : (h.allow (router.key source) (script.allowAt i)).2 = false) :
    ∃ reason, router.visit script i source h =
      ((h.allow (router.key source) (script.allowAt i)).1,
        { index := i, source, asks := 0, turn := .refused (script.allowAt i) }, .next reason) := by
  simp [visit, hallow]

theorem visit_allowed (hallow : (h.allow (router.key source) (script.allowAt i)).2 = true) :
    router.visit script i source h = router.tryOne script i source (h.probeTime (router.key source) (script.allowAt i))
      (h.allow (router.key source) (script.allowAt i)).1 := by
  simp [visit, hallow]

/-- A source that is tried ends the call exactly when its answer does. -/
theorem tryOne_stop_iff {probe : Option ℚ} :
    (router.tryOne script i source probe h).2.2 = .stop o ↔ router.stopOf (answerAt script i) = some o := by
  unfold tryOne answerAt
  obtain ⟨answer, asks⟩ := fetchWithRetry (script.answers i)
  cases answer with
  | result r => by_cases hr : router.isUsable r <;> simp [stopOf, hr]
  | rateLimited => simp [stopOf]
  | authentication => simp [stopOf]
  | notSubscribed => simp [stopOf]
  | dataFetch text => simp [stopOf]
  | raises name => simp [stopOf]

theorem visit_stop_iff : (router.visit script i source h).2.2 = .stop o ↔
    (h.allow (router.key source) (script.allowAt i)).2 = true ∧ router.stopOf (answerAt script i) = some o := by
  cases hallow : (h.allow (router.key source) (script.allowAt i)).2 with
  | false =>
    obtain ⟨reason, hvisit⟩ := visit_refused hallow
    simp [hvisit]
  | true => simp [visit_allowed hallow, tryOne_stop_iff]

theorem allowed_zero_iff : router.Allowed script i (source :: rest) h 0 ↔
    (h.allow (router.key source) (script.allowAt i)).2 = true := by
  simp [Allowed, healthAt]

theorem allowed_succ_iff : router.Allowed script i (source :: rest) h (j + 1) ↔
    router.Allowed script (i + 1) rest (router.visit script i source h).1 j := by
  simp only [Allowed, healthAt, List.getElem?_cons_succ, show i + (j + 1) = i + 1 + j by omega]

/-- The first source ends the call, or one of the others does. -/
theorem ends_zero_iff : router.Ends script i (source :: rest) h 0 o ↔
    (router.visit script i source h).2.2 = .stop o := by
  rw [visit_stop_iff]
  constructor
  · intro hends
    exact ⟨allowed_zero_iff.mp hends.allowed, hends.answer⟩
  · rintro ⟨hallow, hstop⟩
    exact ⟨allowed_zero_iff.mpr hallow, hstop, fun k hk => absurd hk (Nat.not_lt_zero k)⟩

theorem ends_succ_iff : router.Ends script i (source :: rest) h (j + 1) o ↔
    (∀ o', (router.visit script i source h).2.2 ≠ .stop o') ∧
      router.Ends script (i + 1) rest (router.visit script i source h).1 j o := by
  have hshift : ∀ k, i + (k + 1) = i + 1 + k := fun k => by omega
  constructor
  · intro hends
    refine ⟨fun o' hstop => ?_, allowed_succ_iff.mp hends.allowed, hshift j ▸ hends.answer, fun k hk hallow => ?_⟩
    · obtain ⟨hallow, hanswer⟩ := visit_stop_iff.mp hstop
      have hnone := hends.first 0 (Nat.succ_pos j) (allowed_zero_iff.mpr hallow)
      rw [Nat.add_zero, hanswer] at hnone
      exact absurd hnone (by simp)
    · exact hshift k ▸ hends.first (k + 1) (Nat.succ_lt_succ hk) (allowed_succ_iff.mpr hallow)
  · rintro ⟨hgoes, hends⟩
    refine ⟨allowed_succ_iff.mpr hends.allowed, (hshift j).symm ▸ hends.answer, fun k hk hallow => ?_⟩
    cases k with
    | zero =>
      rw [Nat.add_zero, Option.eq_none_iff_forall_not_mem]
      intro o' ho'
      exact hgoes o' (visit_stop_iff.mpr ⟨allowed_zero_iff.mp hallow, ho'⟩)
    | succ k =>
      rw [hshift]
      exact hends.first k (Nat.lt_of_succ_lt_succ hk) (allowed_succ_iff.mp hallow)

/-- **How a call ends** is decided by the first source that is allowed and whose answer ends
it. -/
theorem callFrom_outcome_iff (ho : ∀ text, o ≠ .noUsable text) :
    (router.callFrom script i rest h reasons).outcome = o ↔ ∃ j, router.Ends script i rest h j o := by
  induction rest generalizing i h reasons with
  | nil =>
    refine iff_of_false (fun heq => ho _ heq.symm) ?_
    rintro ⟨j, ⟨source, hsource, -⟩, -⟩
    exact absurd hsource (by simp)
  | cons source rest ih =>
    rw [← Nat.or_exists_add_one, ends_zero_iff]
    simp only [ends_succ_iff]
    rcases hvisit : router.visit script i source h with ⟨h', v, reply⟩
    cases reply with
    | stop o' =>
      simp only [callFrom, hvisit, Reply.stop.injEq]
      constructor
      · exact Or.inl
      · rintro (rfl | ⟨j, hgoes, -⟩)
        · rfl
        · exact absurd rfl (hgoes o')
    | next reason =>
      simp only [callFrom, hvisit, ih, reduceCtorEq, false_or, ne_eq, not_false_eq_true, implies_true, true_and]

omit [DecidableEq ι] in
theorem stopOf_eq_rateLimited {a : Answer R} (h : router.stopOf a = some .rateLimited) : a = .rateLimited := by
  cases a with
  | rateLimited => rfl
  | result r => by_cases hr : router.isUsable r <;> simp [stopOf, hr] at h
  | authentication => exact absurd h (by simp [stopOf])
  | notSubscribed => exact absurd h (by simp [stopOf])
  | dataFetch text => exact absurd h (by simp [stopOf])
  | raises name => exact absurd h (by simp [stopOf])

theorem fetchWithRetry_asks (answers : Answer R × Answer R) : (fetchWithRetry answers).2 ≤ 2 := by
  obtain ⟨first, second⟩ := answers
  cases first <;> simp [fetchWithRetry]

variable (router script i source h) in
/-- What is recorded of a turn. -/
theorem visit_record : (router.visit script i source h).2.1.index = i ∧
    (router.visit script i source h).2.1.source = source ∧ (router.visit script i source h).2.1.asks ≤ 2 := by
  cases hallow : (h.allow (router.key source) (script.allowAt i)).2 with
  | false =>
    obtain ⟨reason, hvisit⟩ := visit_refused hallow
    simp [hvisit]
  | true =>
    rw [visit_allowed hallow]
    unfold tryOne
    have hasks := fetchWithRetry_asks (script.answers i)
    generalize fetchWithRetry (script.answers i) = fetched at hasks ⊢
    obtain ⟨answer, asks⟩ := fetched
    cases answer <;> exact ⟨rfl, rfl, hasks⟩

variable (router script i rest h reasons) in
/-- The turns of a call: one at most for each position, in order, with two requests at most. -/
theorem callFrom_visits : ((router.callFrom script i rest h reasons).visits.Pairwise fun u v => u.index < v.index) ∧
    ∀ v ∈ (router.callFrom script i rest h reasons).visits,
      i ≤ v.index ∧ rest[v.index - i]? = some v.source ∧ v.asks ≤ 2 := by
  induction rest generalizing i h reasons with
  | nil => exact ⟨List.Pairwise.nil, List.forall_mem_nil _⟩
  | cons source rest ih =>
    obtain ⟨hindex, hsource, hasks⟩ := router.visit_record script i source h
    rcases hvisit : router.visit script i source h with ⟨h', v, reply⟩
    rw [hvisit] at hindex hsource hasks
    simp only at hindex hsource hasks
    have hhead : i ≤ v.index ∧ (source :: rest)[v.index - i]? = some v.source ∧ v.asks ≤ 2 := by
      refine ⟨hindex.ge, ?_, hasks⟩
      rw [hindex, hsource, Nat.sub_self, List.getElem?_cons_zero]
    cases reply with
    | stop o =>
      simp only [callFrom, hvisit]
      exact ⟨List.pairwise_singleton _ _, List.forall_mem_singleton.mpr hhead⟩
    | next reason =>
      simp only [callFrom, hvisit]
      obtain ⟨hsorted, hrest⟩ := @ih (i + 1) h' (reasons ++ [reason])
      refine ⟨List.pairwise_cons.mpr ⟨fun u hu => ?_, hsorted⟩, List.forall_mem_cons.mpr ⟨hhead, fun u hu => ?_⟩⟩
      · have hlow := (hrest u hu).1
        omega
      · obtain ⟨hlow, hat, htwice⟩ := hrest u hu
        refine ⟨by omega, ?_, htwice⟩
        rwa [show u.index - i = u.index - (i + 1) + 1 by omega, List.getElem?_cons_succ]

variable (reasons) in
/-- **A rate limit** stops the call, and marks nothing. -/
theorem callFrom_limited (hends : router.Ends script i rest h j .rateLimited) :
    (∀ v ∈ (router.callFrom script i rest h reasons).visits, v.index ≤ i + j) ∧
      ∀ key, (router.callFrom script i rest h reasons).health.isUnhealthy key =
        (router.healthAt script i rest h j).isUnhealthy key := by
  induction rest generalizing i h reasons j with
  | nil =>
    obtain ⟨source, hsource, -⟩ := hends.allowed
    exact absurd hsource (by simp)
  | cons source rest ih =>
    cases j with
    | zero =>
      obtain ⟨hallow, hanswer⟩ := visit_stop_iff.mp (ends_zero_iff.mp hends)
      have hvisit := visit_allowed hallow
      simp only [tryOne, show (fetchWithRetry (script.answers i)).1 = .rateLimited from
        stopOf_eq_rateLimited hanswer] at hvisit
      simp only [callFrom, hvisit, List.mem_singleton, forall_eq, Nat.add_zero, le_refl, true_and]
      exact fun key => SourceHealth.isUnhealthy_allow _ key
    | succ j =>
      obtain ⟨hgoes, hrest⟩ := ends_succ_iff.mp hends
      rcases hvisit : router.visit script i source h with ⟨h', v, reply⟩
      have hindex := (router.visit_record script i source h).1
      rw [hvisit] at hgoes hrest hindex
      cases reply with
      | stop o => exact absurd rfl (hgoes o)
      | next reason =>
        obtain ⟨hbelow, hsame⟩ := @ih (i + 1) h' (reasons ++ [reason]) j hrest
        simp only [callFrom, hvisit, healthAt]
        refine ⟨List.forall_mem_cons.mpr ⟨?_, fun u hu => ?_⟩, hsame⟩
        · simp only at hindex
          omega
        · have hu := hbelow u hu
          omega

/-! ### The turns of a source over many calls -/

theorem onlyAt_tryOne {probe : Option ℚ} :
    h.OnlyAt (router.key source) (router.tryOne script i source probe h).1 := by
  unfold tryOne
  obtain ⟨answer, asks⟩ := fetchWithRetry (script.answers i)
  cases answer with
  | result r => exact SourceHealth.onlyAt_recordSuccess
  | rateLimited => exact .refl
  | raises name => exact .refl
  | authentication => exact SourceHealth.onlyAt_markUnhealthy _ _ true
  | notSubscribed => exact SourceHealth.onlyAt_markUnhealthy _ _ true
  | dataFetch text => exact SourceHealth.onlyAt_markUnhealthy _ _ false

variable (router script i source h) in
/-- A turn changes the entry of its source only. -/
theorem onlyAt_visit : h.OnlyAt (router.key source) (router.visit script i source h).1 := by
  have hallow := SourceHealth.onlyAt_allow h (router.key source) (script.allowAt i)
  cases hallowed : (h.allow (router.key source) (script.allowAt i)).2 with
  | false =>
    obtain ⟨reason, hvisit⟩ := visit_refused hallowed
    rwa [hvisit]
  | true =>
    rw [visit_allowed hallowed]
    exact hallow.trans onlyAt_tryOne

variable (script i) in
/-- The entry of a source that is tried goes with its outage. -/
theorem tracks_tryOne {probe : Option ℚ} {before : Option (Outage ℚ)}
    (ht : h.Tracks (router.key source) (Outage.after before (.tried probe .abandoned))) :
    ∃ ending, (router.tryOne script i source probe h).2.1.turn = .tried probe ending ∧
      (router.tryOne script i source probe h).1.Tracks (router.key source)
        (Outage.after before (.tried probe ending)) := by
  unfold tryOne
  obtain ⟨answer, asks⟩ := fetchWithRetry (script.answers i)
  have hfailed := fun reason alert => ht.markUnhealthy (script.markAt i) reason alert
  rw [← Outage.after_failed] at hfailed
  cases answer with
  | result r =>
    refine ⟨_, rfl, ?_⟩
    cases before <;> exact SourceHealth.tracks_recordSuccess
  | rateLimited => exact ⟨_, rfl, ht⟩
  | raises name => exact ⟨_, rfl, ht⟩
  | authentication => exact ⟨_, rfl, hfailed _ true⟩
  | notSubscribed => exact ⟨_, rfl, hfailed _ true⟩
  | dataFetch text => exact ⟨_, rfl, hfailed _ false⟩

variable (script i) in
/-- **One turn** respects the back-off, and the entry goes with the outage. -/
theorem visit_turn {before : Option (Outage ℚ)} (ht : h.Tracks (router.key source) before) :
    Respects h.base h.cap before (router.visit script i source h).2.1.turn ∧
      (router.visit script i source h).1.Tracks (router.key source)
        (Outage.after before (router.visit script i source h).2.1.turn) := by
  rcases ht.allow (script.allowAt i) with ⟨hallow, hsame, hrespects⟩ | ⟨hallow, hrespects, htracks⟩
  · obtain ⟨reason, hvisit⟩ := visit_refused hallow
    rw [hvisit, hsame]
    exact ⟨hrespects, ht⟩
  · obtain ⟨ending, hturn, htracks'⟩ := tracks_tryOne script i htracks
    rw [visit_allowed hallow, hturn]
    exact ⟨hrespects ending, htracks'⟩

/-- The turns that a pair got, of those a call gave. -/
def turnsOf (key : ι × String) (visits : List (Visit ι)) : List (Turn ℚ) :=
  (visits.filter fun v => router.key v.source = key).map (·.turn)

@[simp] theorem turnsOf_nil (key : ι × String) : router.turnsOf key [] = [] := rfl

theorem turnsOf_cons (key : ι × String) (v : Visit ι) (visits : List (Visit ι)) :
    router.turnsOf key (v :: visits) =
      if router.key v.source = key then v.turn :: router.turnsOf key visits else router.turnsOf key visits := by
  unfold turnsOf
  rw [List.filter_cons]
  simp only [decide_eq_true_eq]
  split <;> rfl

variable (router script i source) in
/-- A turn, as one of a pair. -/
theorem visit_turns {key : ι × String} {before : Option (Outage ℚ)} (ht : h.Tracks key before) :
    EachStep Outage.after (Respects h.base h.cap) before
        (router.turnsOf key [(router.visit script i source h).2.1]) ∧
      (router.visit script i source h).1.Tracks key
        (final Outage.after before (router.turnsOf key [(router.visit script i source h).2.1])) := by
  rw [turnsOf_cons, (router.visit_record script i source h).2.1]
  by_cases hkey : router.key source = key
  · subst hkey
    obtain ⟨hrespects, htracks⟩ := visit_turn script i ht
    rw [if_pos rfl]
    exact ⟨⟨hrespects, trivial⟩, htracks⟩
  · rw [if_neg hkey]
    exact ⟨trivial, ((onlyAt_visit router script i source h).tracks (Ne.symm hkey)).mpr ht⟩

variable (router script i rest reasons) in
/-- **The turns of a pair in one call.** -/
theorem callFrom_turns {key : ι × String} {before : Option (Outage ℚ)} (ht : h.Tracks key before) :
    (router.callFrom script i rest h reasons).health.base = h.base ∧
      (router.callFrom script i rest h reasons).health.cap = h.cap ∧
      EachStep Outage.after (Respects h.base h.cap) before
        (router.turnsOf key (router.callFrom script i rest h reasons).visits) ∧
      (router.callFrom script i rest h reasons).health.Tracks key
        (final Outage.after before (router.turnsOf key (router.callFrom script i rest h reasons).visits)) := by
  induction rest generalizing i h reasons before with
  | nil => exact ⟨rfl, rfl, trivial, ht⟩
  | cons source rest ih =>
    obtain ⟨hrespects, htracks⟩ := visit_turns router script i source ht
    have hat := onlyAt_visit router script i source h
    rcases hvisit : router.visit script i source h with ⟨h', v, reply⟩
    rw [hvisit] at hat hrespects htracks
    cases reply with
    | stop o =>
      simp only [callFrom, hvisit]
      exact ⟨hat.base, hat.cap, hrespects, htracks⟩
    | next reason =>
      obtain ⟨hbase', hcap', hrespects', htracks'⟩ := @ih (i + 1) h' (reasons ++ [reason]) _ htracks
      have happend : ∀ visits, router.turnsOf key (v :: visits) = router.turnsOf key [v] ++ router.turnsOf key visits := by
        intro visits
        rw [turnsOf_cons, turnsOf_cons]
        split <;> rfl
      simp only [callFrom, hvisit]
      rw [happend, final_append]
      rw [hat.base, hat.cap] at hrespects'
      exact ⟨hbase'.trans hat.base, hcap'.trans hat.cap, eachStep_append.mpr ⟨hrespects, hrespects'⟩, htracks'⟩

/-! ### Every call, and any sequence of them -/

/-- What a call promises. -/
structure KeepsPromises (router : CapabilityRouter ι R) (script : Script R) (h : SourceHealth ι) : Prop where
  /-- It returns the result of the first source in order that is allowed and answers usably,
  unless a source before it ends the call. -/
  served : ∀ r, (router.call script h).outcome = .returned r ↔
    ∃ j, router.Ends script 0 router.sources h j (.returned r)
  /-- Each source gets one turn at most, in order. -/
  once : (router.call script h).visits.Pairwise fun u v => u.index < v.index
  /-- In which it is asked twice at most. -/
  twice : ∀ v ∈ (router.call script h).visits, router.sources[v.index]? = some v.source ∧ v.asks ≤ 2
  /-- A rate limit that a source answers with is raised. -/
  limited : (router.call script h).outcome = .rateLimited ↔
    ∃ j, router.Ends script 0 router.sources h j .rateLimited
  /-- After it no source is asked, and none is marked. -/
  unmarked : ∀ j, router.Ends script 0 router.sources h j .rateLimited →
    (∀ v ∈ (router.call script h).visits, v.index ≤ j) ∧
      ∀ key, (router.call script h).health.isUnhealthy key =
        (router.healthAt script 0 router.sources h j).isUnhealthy key

variable (router script h) in
theorem keepsPromises : KeepsPromises router script h := by
  obtain ⟨honce, hvisits⟩ := callFrom_visits router script 0 router.sources h []
  refine ⟨fun r => callFrom_outcome_iff (by simp), honce, fun v hv => ?_, callFrom_outcome_iff (by simp),
    fun j hends => ?_⟩
  · exact (hvisits v hv).2
  · obtain ⟨hbelow, hsame⟩ := callFrom_limited [] hends
    exact ⟨fun v hv => (hbelow v hv).trans (Nat.zero_add j).le, hsame⟩

end CapabilityRouter

/-- A call of one of the routers that share a tracker. -/
structure RoutedCall (ι R : Type) where
  /-- The router. -/
  router : CapabilityRouter ι R
  /-- What happens around the call. -/
  script : Script R

variable {ι R : Type} [DecidableEq ι]

/-- The turns a pair gets in one call after the other. -/
def turnsAlong (key : ι × String) : SourceHealth ι → List (RoutedCall ι R) → List (Turn ℚ)
  | _, [] => []
  | h, c :: calls =>
    let run := c.router.call c.script h
    c.router.turnsOf key run.visits ++ turnsAlong key run.health calls

theorem turnsAlong_respects {key : ι × String} {calls : List (RoutedCall ι R)} :
    ∀ {h : SourceHealth ι} {before : Option (Outage ℚ)}, h.Tracks key before →
      EachStep Outage.after (Respects h.base h.cap) before (turnsAlong key h calls) := by
  induction calls with
  | nil => exact fun _ => trivial
  | cons c calls ih =>
    intro h before ht
    obtain ⟨hbase, hcap, hrespects, htracks⟩ := CapabilityRouter.callFrom_turns c.router c.script 0 c.router.sources
      [] ht
    have hrest := ih htracks
    rw [hbase, hcap] at hrest
    exact eachStep_append.mpr ⟨hrespects, hrest⟩

end NiftyShield.Client
