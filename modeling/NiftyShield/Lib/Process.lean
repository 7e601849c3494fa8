import NiftyShield.Lib.Run

/-!
# Processes over a shared store

A `Process` is a program that asks for transactions of a store, one after the other, and goes
on with what each call showed it. With the store to itself it has its runs (`Process.Runs`), in
which some calls may fail, and `Process.Offers` bounds what it asks for. A `Pool` is a store
with any number of processes, and a schedule says whose call is served next and whether it is
made to fail. A call that fails or raises leaves the store as it was.

## What is proved

* `Process.Runs.of_bind` and `Process.Runs.bind`: the runs of one program after another;
* `Process.Offers.runAlone`: what every transaction of a kind does to the store, a program
  that asks for no others does;
* `Pool.safe_step`: rely and guarantee. If every process guarantees its calls as long as the
  others only change the store as relied on, no step of a schedule breaks this;
* `Pool.along_iff_eachStep`: a property of the store that a guaranteed transaction keeps exactly
  when it meets a condition holds all along a schedule exactly when every transaction that
  commits meets it.
-/

namespace NiftyShield.Lib

open Run

variable {σ τ α β : Type}

/-- A program over a store `σ` with transactions `τ`. -/
inductive Process (σ τ α : Type) where
  /-- It ends with a result. -/
  | ret (a : α)
  /-- It calls a transaction; `next` gets the store that the call found, `none` where it
  raised. -/
  | call (t : τ) (next : Option σ → Process σ τ α)

namespace Process

/-- One program after another. -/
def bind : Process σ τ α → (α → Process σ τ β) → Process σ τ β
  | ret a, f => f a
  | call t next, f => call t fun seen => (next seen).bind f

instance : Monad (Process σ τ) where
  pure := ret
  bind := bind

@[simp] theorem pure_eq (a : α) : (pure a : Process σ τ α) = ret a := rfl

@[simp] theorem ret_bind (a : α) (f : α → Process σ τ β) : (ret a : Process σ τ α) >>= f = f a := rfl

@[simp] theorem call_bind (t : τ) (next : Option σ → Process σ τ α) (f : α → Process σ τ β) :
    call t next >>= f = call t fun seen => next seen >>= f := rfl

theorem bind_assoc {γ : Type} (f : α → Process σ τ β) (g : β → Process σ τ γ) : ∀ p : Process σ τ α,
    p >>= f >>= g = p >>= fun a => f a >>= g
  | ret _ => rfl
  | call t next => by
    simp only [call_bind]
    exact congrArg (call t) (funext fun seen => bind_assoc f g (next seen))

variable (exec : σ → τ → Option σ)

/-- The program with the store to itself. -/
def runAlone : Process σ τ α → σ → σ × α
  | ret a, s => (s, a)
  | call t next, s =>
    match exec s t with
    | none => (next none).runAlone s
    | some s' => (next (some s)).runAlone s'

theorem runAlone_bind (f : α → Process σ τ β) : ∀ (p : Process σ τ α) (s : σ),
    (p >>= f).runAlone exec s = (f (p.runAlone exec s).2).runAlone exec (p.runAlone exec s).1
  | ret a, s => rfl
  | call t next, s => by
    rw [call_bind, runAlone, runAlone]
    cases exec s t with
    | none => exact runAlone_bind f (next none) s
    | some s' => exact runAlone_bind f (next (some s)) s'

/-- A run of the program with the store to itself in which the calls that may fail do so or
not, and no other fails. -/
inductive Runs (MayFail : τ → Prop) : Process σ τ α → σ → σ → α → Prop
  | ret (a : α) (s : σ) : Runs MayFail (ret a) s s a
  | commits {t : τ} {next : Option σ → Process σ τ α} {s s' s'' : σ} {a : α} :
    exec s t = some s' → Runs MayFail (next (some s)) s' s'' a → Runs MayFail (call t next) s s'' a
  | fails {t : τ} {next : Option σ → Process σ τ α} {s s' : σ} {a : α} :
    MayFail t → Runs MayFail (next none) s s' a → Runs MayFail (call t next) s s' a

variable {exec} in
/-- A run of one program after another is a run of the one and then a run of the other. -/
theorem Runs.of_bind {MayFail : τ → Prop} {f : α → Process σ τ β} : ∀ {p : Process σ τ α} {s s'' : σ} {b : β},
    (p >>= f).Runs exec MayFail s s'' b → ∃ s' a, p.Runs exec MayFail s s' a ∧ (f a).Runs exec MayFail s' s'' b
  | .ret a, s, s'', b, h => ⟨s, a, .ret a s, h⟩
  | .call t next, s, s'', b, h => by
    rw [call_bind] at h
    cases h with
    | commits hexec hrest =>
      obtain ⟨s', a, hp, hf⟩ := Runs.of_bind hrest
      exact ⟨s', a, .commits hexec hp, hf⟩
    | fails hmay hrest =>
      obtain ⟨s', a, hp, hf⟩ := Runs.of_bind hrest
      exact ⟨s', a, .fails hmay hp, hf⟩

variable {exec} in
theorem Runs.bind {MayFail : τ → Prop} {f : α → Process σ τ β} {p : Process σ τ α} {s s' s'' : σ} {a : α} {b : β}
    (hp : p.Runs exec MayFail s s' a) (hf : (f a).Runs exec MayFail s' s'' b) : (p >>= f).Runs exec MayFail s s'' b := by
  induction hp with
  | ret a s => exact hf
  | commits hexec _ ih => exact .commits hexec (ih hf)
  | fails hmay _ ih => exact .fails hmay (ih hf)

/-- Whatever its calls show it, the program asks only for transactions of a kind. -/
def Offers (G : τ → Prop) : Process σ τ α → Prop
  | ret _ => True
  | call t next => G t ∧ ∀ seen, Offers G (next seen)

theorem Offers.mono {G G' : τ → Prop} (hG : ∀ t, G t → G' t) : ∀ {p : Process σ τ α}, p.Offers G → p.Offers G'
  | .ret _, _ => trivial
  | .call t _, hp => ⟨hG t hp.1, fun seen => (hp.2 seen).mono hG⟩

theorem Offers.bind {G : τ → Prop} {f : α → Process σ τ β} : ∀ {p : Process σ τ α}, p.Offers G → (∀ a, (f a).Offers G) →
    (p >>= f).Offers G
  | .ret a, _, hf => hf a
  | .call _ _, hp, hf => ⟨hp.1, fun seen => (hp.2 seen).bind hf⟩

variable {exec} in
/-- What every transaction of a kind does to the store, a program that asks for no others does. -/
theorem Offers.runAlone {G : τ → Prop} {R : σ → σ → Prop} (hrefl : ∀ s, R s s) (htrans : ∀ s u v, R s u → R u v → R s v)
    (hexec : ∀ s t s', G t → exec s t = some s' → R s s') :
    ∀ {p : Process σ τ α} (s : σ), p.Offers G → R s (p.runAlone exec s).1
  | .ret _, s, _ => hrefl s
  | .call t next, s, hp => by
    rw [Process.runAlone]
    cases hcall : exec s t with
    | none => exact (hp.2 none).runAlone hrefl htrans hexec s
    | some s' => exact htrans s s' _ (hexec s t s' hp.1 hcall) ((hp.2 (some s)).runAlone hrefl htrans hexec s')

/-! ### Rely and guarantee -/

variable (Rely : σ → σ → Prop) (Guar : σ → τ → Prop)

/-- Whatever the others do between its calls, as relied on, every call is guaranteed. -/
def Safe : σ → Process σ τ α → Prop
  | _, ret _ => True
  | s, call t next => ∀ u, Rely s u → Guar u t ∧ Safe u (next none) ∧ ∀ u', exec u t = some u' → Safe u' (next (some u))

variable {exec Rely Guar}

theorem Safe.mono (htrans : ∀ s u v, Rely s u → Rely u v → Rely s v) {s u : σ} (hu : Rely s u) {p : Process σ τ α}
    (h : p.Safe exec Rely Guar s) : p.Safe exec Rely Guar u := by
  cases p with
  | ret a => trivial
  | call t next => exact fun v hv => h v (htrans s u v hu hv)

theorem Safe.bind (hrefl : ∀ s, Rely s s) (htrans : ∀ s u v, Rely s u → Rely u v → Rely s v)
    (hguar : ∀ s t s', Guar s t → exec s t = some s' → Rely s s') {f : α → Process σ τ β} :
    ∀ {p : Process σ τ α} {s : σ}, p.Safe exec Rely Guar s → (∀ a u, Rely s u → (f a).Safe exec Rely Guar u) →
      (p >>= f).Safe exec Rely Guar s
  | ret a, s, _, hf => hf a s (hrefl s)
  | call t next, s, hp, hf => by
    intro u hu
    obtain ⟨hg, hnone, hsome⟩ := hp u hu
    refine ⟨hg, Safe.bind hrefl htrans hguar hnone fun a v hv => hf a v (htrans s u v hu hv), fun u' hu' => ?_⟩
    exact Safe.bind hrefl htrans hguar (hsome u' hu') fun a v hv =>
      hf a v (htrans s u v hu (htrans u u' v (hguar u t u' hg hu') hv))

end Process

/-- A store and the processes that share it. -/
structure Pool (σ τ α : Type) where
  /-- The store. -/
  store : σ
  /-- What is left of each process. -/
  procs : ℕ → Process σ τ α

namespace Pool

open Process

variable (exec : σ → τ → Option σ)

/-- The next call of a process and what follows it. -/
def pending (P : Pool σ τ α) (i : ℕ) : Option (τ × (Option σ → Process σ τ α)) :=
  match P.procs i with
  | ret _ => none
  | call t next => some (t, next)

/-- The store after the next call of a process, if it commits. -/
def commits (P : Pool σ τ α) (turn : ℕ × Bool) (t : τ) : Option σ := if turn.2 then none else exec P.store t

/-- The next call of a process is served; with `true` it is made to fail. -/
def step (P : Pool σ τ α) (turn : ℕ × Bool) : Pool σ τ α :=
  match P.pending turn.1 with
  | none => P
  | some (t, next) =>
    match P.commits exec turn t with
    | none => { P with procs := Function.update P.procs turn.1 (next none) }
    | some store => { store, procs := Function.update P.procs turn.1 (next (some P.store)) }

/-- A turn at which a transaction commits meets the condition. -/
def Meets (Q : σ → τ → Prop) (P : Pool σ τ α) (turn : ℕ × Bool) : Prop :=
  ∀ call ∈ P.pending turn.1, ∀ s', P.commits exec turn call.1 = some s' → Q P.store call.1

variable {exec} {Rely : σ → σ → Prop} {Guar : σ → τ → Prop}

theorem exec_of_commits {P : Pool σ τ α} {turn : ℕ × Bool} {t : τ} {s' : σ} (h : P.commits exec turn t = some s') :
    exec P.store t = some s' := by
  unfold commits at h
  split at h
  · exact absurd h (by simp)
  · exact h

/-- Every process is safe. -/
def Safe (exec : σ → τ → Option σ) (Rely : σ → σ → Prop) (Guar : σ → τ → Prop) (P : Pool σ τ α) : Prop :=
  ∀ i, (P.procs i).Safe exec Rely Guar P.store

theorem Safe.guar (hrefl : ∀ s, Rely s s) {P : Pool σ τ α} (h : P.Safe exec Rely Guar) {i : ℕ} {t : τ}
    {next : Option σ → Process σ τ α} (hp : P.pending i = some (t, next)) :
    Guar P.store t ∧ (next none).Safe exec Rely Guar P.store ∧
      ∀ s', exec P.store t = some s' → (next (some P.store)).Safe exec Rely Guar s' := by
  unfold pending at hp
  split at hp
  · exact absurd hp (by simp)
  next t' next' hcall =>
    obtain ⟨rfl, rfl⟩ := Prod.mk.injEq .. ▸ Option.some.inj hp
    have hi := h i
    rw [hcall] at hi
    exact hi P.store (hrefl _)

/-- **Rely and guarantee**: no turn makes a process unsafe. -/
theorem safe_step (hrefl : ∀ s, Rely s s) (htrans : ∀ s u v, Rely s u → Rely u v → Rely s v)
    (hguar : ∀ s t s', Guar s t → exec s t = some s' → Rely s s') {P : Pool σ τ α} (h : P.Safe exec Rely Guar)
    (turn : ℕ × Bool) : (P.step exec turn).Safe exec Rely Guar := by
  unfold step
  split
  · exact h
  next t next hp =>
    obtain ⟨hg, hnone, hsome⟩ := h.guar hrefl hp
    split
    next =>
      intro i
      by_cases hi : i = turn.1
      · simpa [hi] using hnone
      · simpa [hi] using h i
    next s' hcommit =>
      have hs' := exec_of_commits hcommit
      intro i
      by_cases hi : i = turn.1
      · simpa [hi] using hsome s' hs'
      · simpa [hi] using (h i).mono htrans (hguar _ _ _ hg hs')

/-- **From one transaction to a schedule**: if a guaranteed transaction keeps a property of the
store exactly when it meets the condition, the property holds along a schedule exactly when
every committed transaction meets it. -/
theorem along_iff_eachStep (hrefl : ∀ s, Rely s s) (htrans : ∀ s u v, Rely s u → Rely u v → Rely s v)
    (hguar : ∀ s t s', Guar s t → exec s t = some s' → Rely s s') {Q : σ → Prop} {C : σ → τ → Prop}
    (htxn : ∀ s t s', Q s → Guar s t → exec s t = some s' → (Q s' ↔ C s t)) {P : Pool σ τ α}
    (h : P.Safe exec Rely Guar) (hQ : Q P.store) (turns : List (ℕ × Bool)) :
    Along (step exec) (fun P => Q P.store) P turns ↔ EachStep (step exec) (Meets exec C) P turns := by
  refine Run.along_iff_eachStep (I := Safe exec Rely Guar)
    (fun P turn hP => safe_step hrefl htrans hguar hP turn) ?_ h hQ
  intro P turn hsafe hQ
  unfold step Meets
  cases hp : P.pending turn.1 with
  | none => simp [hQ]
  | some call =>
    cases hcommit : P.commits exec turn call.1 with
    | none => simp [hcommit, hQ]
    | some s' =>
      have hiff := htxn P.store call.1 s' hQ (hsafe.guar hrefl hp).1 (exec_of_commits hcommit)
      simp [hcommit, hiff]

end Pool

end NiftyShield.Lib
