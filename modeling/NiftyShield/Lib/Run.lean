import Mathlib.Data.List.Induction

/-!
# Runs of a step function

A run applies a step function to each event in turn. `Along` says that a property holds in
every state of a run, the first and the last included; `EachStep` that every event meets a
condition in the state before it. The rules here pass from one step to a run:
`along_iff_eachStep` where one step keeps a property exactly when it meets the condition,
`eachStep_of_invariant` for what an invariant that steps meeting a condition preserve says of
each step, `throughout_iff_eachStep` for a preorder between the states of a run, and
`exists_last_step` for the step that last brought about what holds at its end.
-/

namespace NiftyShield.Lib.Run

variable {σ ε : Type*}

/-- The state after a run. -/
def final (step : σ → ε → σ) (s : σ) (evs : List ε) : σ := evs.foldl step s

/-- `P` in every state of the run. -/
def Along (step : σ → ε → σ) (P : σ → Prop) : σ → List ε → Prop
  | s, [] => P s
  | s, ev :: evs => P s ∧ Along step P (step s ev) evs

/-- `Q` of every event, in the state before it. -/
def EachStep (step : σ → ε → σ) (Q : σ → ε → Prop) : σ → List ε → Prop
  | _, [] => True
  | s, ev :: evs => Q s ev ∧ EachStep step Q (step s ev) evs

variable {step : σ → ε → σ}

instance decidableEachStep {Q : σ → ε → Prop} [∀ s ev, Decidable (Q s ev)] :
    ∀ s evs, Decidable (EachStep step Q s evs)
  | _, [] => isTrue trivial
  | s, ev :: evs => @instDecidableAnd (Q s ev) (EachStep step Q (step s ev) evs) _
    (decidableEachStep (step s ev) evs)

@[simp] theorem final_nil (s : σ) : final step s [] = s := rfl

@[simp] theorem final_cons (s : σ) (ev : ε) (evs : List ε) :
    final step s (ev :: evs) = final step (step s ev) evs := rfl

/-- A property along a run is one of the state after each prefix. -/
theorem along_iff_final {P : σ → Prop} : ∀ {s : σ} {evs : List ε},
    Along step P s evs ↔ ∀ evs', evs' <+: evs → P (final step s evs') := by
  intro s evs
  induction evs generalizing s with
  | nil =>
    constructor
    · intro h evs' hpre
      rw [List.prefix_nil.mp hpre]
      exact h
    · intro h
      exact h [] List.prefix_rfl
  | cons ev evs ih =>
    rw [Along, ih]
    constructor
    · rintro ⟨hs, h⟩ evs' hpre
      rcases evs' with _ | ⟨ev', evs'⟩
      · exact hs
      · obtain ⟨rfl, hrest⟩ := List.cons_prefix_cons.mp hpre
        exact h evs' hrest
    · intro h
      refine ⟨h [] (List.nil_prefix), fun evs' hpre => ?_⟩
      exact h (ev :: evs') (List.cons_prefix_cons.mpr ⟨rfl, hpre⟩)

/-- **From one step to a run**: under an invariant of all steps, if a step from a good state
ends in a good state exactly when it meets the condition, a run from a good state is good
throughout exactly when every step meets it. -/
theorem along_iff_eachStep {I P : σ → Prop} {Q : σ → ε → Prop} (hinv : ∀ s ev, I s → I (step s ev))
    (hstep : ∀ s ev, I s → P s → (P (step s ev) ↔ Q s ev)) :
    ∀ {s : σ} {evs : List ε}, I s → P s → (Along step P s evs ↔ EachStep step Q s evs) := by
  intro s evs
  induction evs generalizing s with
  | nil => exact fun _ hp => ⟨fun _ => trivial, fun _ => hp⟩
  | cons ev evs ih =>
    intro hi hp
    rw [Along, EachStep]
    constructor
    · rintro ⟨-, hrest⟩
      have hp' : P (step s ev) := by
        cases evs with
        | nil => exact hrest
        | cons _ _ => exact hrest.1
      exact ⟨(hstep s ev hi hp).mp hp', (ih (hinv s ev hi) hp').mp hrest⟩
    · rintro ⟨hq, hrest⟩
      have hp' := (hstep s ev hi hp).mpr hq
      exact ⟨hp, (ih (hinv s ev hi) hp').mpr hrest⟩

/-- The same where a step must also meet a second condition for the first to say when the
step ends in a good state. -/
theorem along_and_eachStep_iff {I P : σ → Prop} {Q R : σ → ε → Prop}
    (hinv : ∀ s ev, I s → I (step s ev))
    (hstep : ∀ s ev, I s → P s → (P (step s ev) ∧ R s ev ↔ Q s ev)) :
    ∀ {s : σ} {evs : List ε}, I s → P s →
      (Along step P s evs ∧ EachStep step R s evs ↔ EachStep step Q s evs) := by
  intro s evs
  induction evs generalizing s with
  | nil => exact fun _ hp => ⟨fun _ => trivial, fun _ => ⟨hp, trivial⟩⟩
  | cons ev evs ih =>
    intro hi hp
    rw [Along, EachStep, EachStep]
    constructor
    · rintro ⟨⟨-, hrest⟩, hr, hrs⟩
      have hp' : P (step s ev) := by
        cases evs with
        | nil => exact hrest
        | cons _ _ => exact hrest.1
      exact ⟨(hstep s ev hi hp).mp ⟨hp', hr⟩, (ih (hinv s ev hi) hp').mp ⟨hrest, hrs⟩⟩
    · rintro ⟨hq, hrest⟩
      obtain ⟨hp', hr⟩ := (hstep s ev hi hp).mpr hq
      obtain ⟨halong, hrs⟩ := (ih (hinv s ev hi) hp').mpr hrest
      exact ⟨⟨hp, halong⟩, hr, hrs⟩

/-- `R` between any two states of the run, in their order. -/
def Throughout (step : σ → ε → σ) (R : σ → σ → Prop) (s : σ) (evs : List ε) : Prop :=
  ∀ before after, before <+: after → after <+: evs → R (final step s before) (final step s after)

/-- **From one step to a run**: a preorder holds between any two states of a run exactly when
it holds at each step. -/
theorem throughout_iff_eachStep {R : σ → σ → Prop} (hrefl : ∀ s, R s s)
    (htrans : ∀ s t u, R s t → R t u → R s u) :
    ∀ {s : σ} {evs : List ε}, Throughout step R s evs ↔
      EachStep step (fun s ev => R s (step s ev)) s evs := by
  intro s evs
  induction evs generalizing s with
  | nil =>
    refine ⟨fun _ => trivial, fun _ before after hle hafter => ?_⟩
    obtain rfl := List.prefix_nil.mp hafter
    obtain rfl := List.prefix_nil.mp hle
    exact hrefl s
  | cons ev evs ih =>
    rw [EachStep, ← ih]
    constructor
    · intro h
      refine ⟨h [] [ev] List.nil_prefix (List.cons_prefix_cons.mpr ⟨rfl, List.nil_prefix⟩), ?_⟩
      intro before after hle hafter
      exact h (ev :: before) (ev :: after) (List.cons_prefix_cons.mpr ⟨rfl, hle⟩)
        (List.cons_prefix_cons.mpr ⟨rfl, hafter⟩)
    · rintro ⟨hhead, h⟩ before after hle hafter
      rcases after with _ | ⟨ev', after⟩
      · obtain rfl := List.prefix_nil.mp hle
        exact hrefl s
      · obtain ⟨rfl, hafter'⟩ := List.cons_prefix_cons.mp hafter
        rcases before with _ | ⟨ev'', before⟩
        · exact htrans _ _ _ hhead (h [] after List.nil_prefix hafter')
        · obtain ⟨rfl, hle'⟩ := List.cons_prefix_cons.mp hle
          exact h before after hle' hafter'

theorem eachStep_of_forall {Q : σ → ε → Prop} (h : ∀ s ev, Q s ev) :
    ∀ {s : σ} {evs : List ε}, EachStep step Q s evs
  | _, [] => trivial
  | s, ev :: _ => ⟨h s ev, eachStep_of_forall h⟩

theorem eachStep_mono {Q Q' : σ → ε → Prop} (h : ∀ s ev, Q s ev → Q' s ev) :
    ∀ {s : σ} {evs : List ε}, EachStep step Q s evs → EachStep step Q' s evs := by
  intro s evs
  induction evs generalizing s with
  | nil => exact fun _ => trivial
  | cons ev evs ih => exact fun hq => ⟨h s ev hq.1, ih hq.2⟩

/-- Two conditions that agree under an invariant agree along a run. -/
theorem eachStep_congr {I : σ → Prop} {Q Q' : σ → ε → Prop} (hinv : ∀ s ev, I s → I (step s ev))
    (h : ∀ s ev, I s → (Q s ev ↔ Q' s ev)) :
    ∀ {s : σ} {evs : List ε}, I s → (EachStep step Q s evs ↔ EachStep step Q' s evs) := by
  intro s evs
  induction evs generalizing s with
  | nil => exact fun _ => Iff.rfl
  | cons ev evs ih =>
    intro hi
    rw [EachStep, EachStep, h s ev hi, ih (hinv s ev hi)]

/-- Two conditions that agree on the events of a run agree along it. -/
theorem eachStep_congr_of_mem {Q Q' : σ → ε → Prop} : ∀ {s : σ} {evs : List ε},
    (∀ ev ∈ evs, ∀ s, Q s ev ↔ Q' s ev) → (EachStep step Q s evs ↔ EachStep step Q' s evs) := by
  intro s evs
  induction evs generalizing s with
  | nil => exact fun _ => Iff.rfl
  | cons ev evs ih =>
    intro h
    rw [EachStep, EachStep, h ev List.mem_cons_self, ih fun ev' hev' => h ev' (List.mem_cons_of_mem ev hev')]

/-- What an invariant gives at each step, it gives along a run whose steps meet the
condition it needs. -/
theorem eachStep_of_invariant {I : σ → Prop} {Q P : σ → ε → Prop}
    (hstep : ∀ s ev, I s → Q s ev → I (step s ev))
    (himp : ∀ s ev, I s → P s ev) : ∀ {s : σ} {evs : List ε}, I s → EachStep step Q s evs →
      EachStep step P s evs := by
  intro s evs
  induction evs generalizing s with
  | nil => exact fun _ _ => trivial
  | cons ev evs ih =>
    rintro hs ⟨hq, hrest⟩
    exact ⟨himp s ev hs, ih (hstep s ev hs hq) hrest⟩

/-- An invariant that steps meeting a condition keep, and what it implies, hold along a run
whose steps meet it. -/
theorem along_of_invariant {I P : σ → Prop} {Q : σ → ε → Prop}
    (hstep : ∀ s ev, I s → Q s ev → I (step s ev)) (himp : ∀ s, I s → P s) :
    ∀ {s : σ} {evs : List ε}, I s → EachStep step Q s evs → Along step P s evs := by
  intro s evs
  induction evs generalizing s with
  | nil => exact fun hs _ => himp s hs
  | cons ev evs ih =>
    rintro hs ⟨hq, hrest⟩
    exact ⟨himp s hs, ih (hstep s ev hs hq) hrest⟩

theorem final_append (s : σ) (evs evs' : List ε) :
    final step s (evs ++ evs') = final step (final step s evs) evs' := List.foldl_append

/-- A run in two parts. -/
theorem eachStep_append {Q : σ → ε → Prop} : ∀ {s : σ} {evs evs' : List ε},
    EachStep step Q s (evs ++ evs') ↔ EachStep step Q s evs ∧ EachStep step Q (final step s evs) evs' := by
  intro s evs evs'
  induction evs generalizing s with
  | nil => exact ⟨fun h => ⟨trivial, h⟩, fun h => h.2⟩
  | cons ev evs ih => rw [List.cons_append, EachStep, EachStep, ih, final_cons, and_assoc]

/-- What holds of each event holds of the last, in the state the others end in. -/
theorem eachStep_last {Q : σ → ε → Prop} {ev : ε} :
    ∀ {s : σ} {evs : List ε}, EachStep step Q s (evs ++ [ev]) → Q (final step s evs) ev := by
  intro s evs
  induction evs generalizing s with
  | nil => exact fun h => h.1
  | cons ev' evs ih => exact fun h => ih h.2

/-- An invariant of all steps holds at the end of a run. -/
theorem final_of_invariant {I : σ → Prop} (hinv : ∀ s ev, I s → I (step s ev)) :
    ∀ {s : σ} (evs : List ε), I s → I (final step s evs) := by
  intro s evs
  induction evs generalizing s with
  | nil => exact id
  | cons ev evs ih => exact fun hs => ih (hinv s ev hs)

/-- **The last step that brought it about**: if what is so at the end of a run can only come about
by a step of a kind, and was not so at its start, it is so since the last step of the kind. -/
theorem exists_last_step {P : σ → Prop} {Q : σ → ε → Prop} (hstep : ∀ s ev, ¬ Q s ev → P (step s ev) → P s)
    {s : σ} (hs : ¬ P s) {evs : List ε} (h : P (final step s evs)) :
    ∃ before ev after, evs = before ++ ev :: after ∧ Q (final step s before) ev ∧
      P (final step s (before ++ [ev])) ∧
      EachStep step (fun s ev => ¬ Q s ev) (final step s (before ++ [ev])) after := by
  induction evs using List.reverseRecOn with
  | nil => exact absurd h hs
  | append_singleton evs last ih =>
    by_cases hlast : Q (final step s evs) last
    · exact ⟨evs, last, [], rfl, hlast, h, trivial⟩
    · rw [final_append] at h
      obtain ⟨before, ev, after, rfl, hev, hP, hafter⟩ := ih (hstep _ last hlast h)
      refine ⟨before, ev, after ++ [last], by simp, hev, hP, eachStep_append.mpr ⟨hafter, ?_, trivial⟩⟩
      rwa [← final_append, List.append_assoc, List.singleton_append]

end NiftyShield.Lib.Run
