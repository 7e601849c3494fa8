import Mathlib.Data.List.Forall2

/-!
# Programs that write and may raise

`EStateM ε σ α` is a program over a state `σ` that returns a value or raises an error and
keeps, either way, what it has written: a database whose transactions have each been
committed. The lemmas here take such a program apart at a bind, one per way it can end,
so that no proof unfolds the monad.

Three notions speak of every run at once: `Keeps R` (however the run ends, the state it
leaves stands in the relation `R` to the one it found), `RaisesIff b` (it raises exactly
when `b`) and `Performs log stops plan` (it appends the steps of a plan to a log, in order,
up to the first that stops it). All pass through binds and loops. `returnsWith` and
`raisesWith` test how a run on fixed inputs ends.
-/

namespace NiftyShield.Lib.Raising

variable {ε σ α β : Type}

/-- A bind returns exactly when both parts do. -/
theorem bind_ok_iff {x : EStateM ε σ α} {f : α → EStateM ε σ β} {s s' : σ} {b : β} :
    (x >>= f) s = .ok b s' ↔ ∃ a t, x s = .ok a t ∧ f a t = .ok b s' := by
  show EStateM.bind x f s = .ok b s' ↔ _
  unfold EStateM.bind
  cases x s with
  | ok a t =>
    simp only [EStateM.Result.ok.injEq]
    exact ⟨fun h => ⟨a, t, ⟨rfl, rfl⟩, h⟩, by rintro ⟨_, _, ⟨rfl, rfl⟩, h⟩; exact h⟩
  | error e t => simp

/-- A bind raises when its first part does, or its second after it. -/
theorem bind_error_iff {x : EStateM ε σ α} {f : α → EStateM ε σ β} {s s' : σ} {e : ε} :
    (x >>= f) s = .error e s' ↔ x s = .error e s' ∨ ∃ a t, x s = .ok a t ∧ f a t = .error e s' := by
  show EStateM.bind x f s = .error e s' ↔ _
  unfold EStateM.bind
  cases x s with
  | ok a t =>
    simp only [EStateM.Result.ok.injEq, reduceCtorEq, false_or]
    exact ⟨fun h => ⟨a, t, ⟨rfl, rfl⟩, h⟩, by rintro ⟨_, _, ⟨rfl, rfl⟩, h⟩; exact h⟩
  | error e t => simp

/-- The program that only looks at the state. -/
def reads (g : σ → α) : EStateM ε σ α := fun s => .ok (g s) s

/-- The program that updates the state and returns a value of the update. -/
def updates (g : σ → σ × α) : EStateM ε σ α := fun s => .ok (g s).2 (g s).1

/-- A value that may be missing; raises if it is. -/
def fromOption (e : ε) : Option α → EStateM ε σ α
  | some a => pure a
  | none => throw e

@[simp] theorem pure_ok_iff {a b : α} {s s' : σ} : (pure a : EStateM ε σ α) s = .ok b s' ↔ a = b ∧
    s = s' := by
  show EStateM.Result.ok a s = .ok b s' ↔ _
  simp

theorem throw_ne_ok {e : ε} {a : α} {s s' : σ} : (throw e : EStateM ε σ α) s ≠ .ok a s' := by
  show EStateM.Result.error e s ≠ .ok a s'
  simp

@[simp] theorem reads_ok_iff {g : σ → α} {b : α} {s s' : σ} :
    (reads g : EStateM ε σ α) s = .ok b s' ↔ g s = b ∧ s = s' := by
  simp [reads]

@[simp] theorem updates_ok_iff {g : σ → σ × α} {b : α} {s s' : σ} :
    (updates g : EStateM ε σ α) s = .ok b s' ↔ g s = (s', b) := by
  rw [updates, EStateM.Result.ok.injEq, Prod.ext_iff, and_comm]

@[simp] theorem fromOption_ok_iff {e : ε} {o : Option α} {b : α} {s s' : σ} :
    (fromOption e o : EStateM ε σ α) s = .ok b s' ↔ o = some b ∧ s = s' := by
  cases o with
  | none =>
    show EStateM.Result.error e s = .ok b s' ↔ _
    simp
  | some a =>
    show EStateM.Result.ok a s = .ok b s' ↔ _
    simp

theorem pure_ne_error {e : ε} {a : α} {s s' : σ} : (pure a : EStateM ε σ α) s ≠ .error e s' := by
  show EStateM.Result.ok a s ≠ .error e s'
  simp

@[simp] theorem throw_error_iff {e e' : ε} {s s' : σ} :
    (throw e : EStateM ε σ α) s = .error e' s' ↔ e = e' ∧ s = s' := by
  show EStateM.Result.error e s = .error e' s' ↔ _
  simp

theorem reads_ne_error {g : σ → α} {e : ε} {s s' : σ} : (reads g : EStateM ε σ α) s ≠ .error e s' := by
  simp [reads]

theorem updates_ne_error {g : σ → σ × α} {e : ε} {s s' : σ} :
    (updates g : EStateM ε σ α) s ≠ .error e s' := by
  simp [updates]

@[simp] theorem fromOption_error_iff {e e' : ε} {o : Option α} {s s' : σ} :
    (fromOption e o : EStateM ε σ α) s = .error e' s' ↔ o = none ∧ e = e' ∧ s = s' := by
  cases o with
  | none =>
    show EStateM.Result.error e s = .error e' s' ↔ _
    simp
  | some a =>
    show EStateM.Result.ok a s = .error e' s' ↔ _
    simp

/-- A traversal gives a list exactly when every item gives its value. -/
theorem mapM_eq_some_iff {f : α → Option β} : ∀ {l : List α} {m : List β},
    l.mapM f = some m ↔ List.Forall₂ (fun a b => f a = some b) l m
  | [], m => by
    rw [List.mapM_nil, List.forall₂_nil_left_iff]
    exact ⟨fun h => (Option.some.inj h).symm, fun h => congrArg some h.symm⟩
  | a :: l, m => by
    rw [List.mapM_cons, List.forall₂_cons_left_iff]
    cases ha : f a with
    | none => simp
    | some b =>
      cases hl : l.mapM f with
      | none =>
        constructor
        · intro h
          exact absurd h (by simp)
        · rintro ⟨c, m', -, hm, -⟩
          rw [← mapM_eq_some_iff, hl] at hm
          exact absurd hm (by simp)
      | some m' =>
        constructor
        · intro h
          exact ⟨b, m', rfl, mapM_eq_some_iff.mp hl, (Option.some.inj h).symm⟩
        · rintro ⟨c, m'', hb, hm, rfl⟩
          rw [← mapM_eq_some_iff, hl] at hm
          obtain rfl := Option.some.inj hb
          obtain rfl := Option.some.inj hm
          rfl

theorem mapM_eq_none_iff {f : α → Option β} {l : List α} : l.mapM f = none ↔ ∃ a ∈ l, f a = none := by
  induction l with
  | nil => simp
  | cons a l ih =>
    rw [List.mapM_cons, List.exists_mem_cons_iff, ← ih]
    cases f a with
    | none => simp
    | some b => cases l.mapM f <;> simp

/-! ### Results without a state -/

theorem except_bind_ok_iff {x : Except ε α} {f : α → Except ε β} {b : β} :
    (x >>= f) = .ok b ↔ ∃ a, x = .ok a ∧ f a = .ok b := by
  cases x with
  | error e => simp [bind, Except.bind]
  | ok a => simp [bind, Except.bind]

/-- A traversal returns a list exactly when every item returns its value. -/
theorem except_mapM_ok_iff {f : α → Except ε β} : ∀ {l : List α} {m : List β},
    l.mapM f = .ok m ↔ List.Forall₂ (fun a b => f a = .ok b) l m
  | [], m => by
    rw [List.mapM_nil, List.forall₂_nil_left_iff]
    exact ⟨fun h => (Except.ok.inj h).symm, fun h => congrArg Except.ok h.symm⟩
  | a :: l, m => by
    rw [List.mapM_cons, List.forall₂_cons_left_iff, except_bind_ok_iff]
    constructor
    · rintro ⟨b, hb, h⟩
      obtain ⟨m', hm', h⟩ := except_bind_ok_iff.mp h
      exact ⟨b, m', hb, except_mapM_ok_iff.mp hm', (Except.ok.inj h).symm⟩
    · rintro ⟨b, m', hb, hm', rfl⟩
      exact ⟨b, hb, except_bind_ok_iff.mpr ⟨m', except_mapM_ok_iff.mpr hm', rfl⟩⟩

/-- A traversal raises what one of its items raises. -/
theorem except_mapM_error {f : α → Except ε β} {e : ε} : ∀ {l : List α}, l.mapM f = .error e → ∃ a ∈ l, f a = .error e
  | [], h => by
    rw [List.mapM_nil] at h
    exact absurd h (by simp [pure, Except.pure])
  | a :: l, h => by
    rw [List.mapM_cons] at h
    cases ha : f a with
    | error e' =>
      rw [ha] at h
      obtain rfl := Except.error.inj h
      exact ⟨a, List.mem_cons_self, ha⟩
    | ok b =>
      rw [ha] at h
      cases hl : l.mapM f with
      | error e' =>
        rw [hl] at h
        obtain rfl := Except.error.inj h
        obtain ⟨c, hc, hfc⟩ := except_mapM_error hl
        exact ⟨c, List.mem_cons_of_mem _ hc, hfc⟩
      | ok m =>
        rw [hl] at h
        exact absurd h (by simp [bind, Except.bind, pure, Except.pure])

/-- The result is a value that passes a test. -/
def okWith (p : α → Bool) : Except ε α → Bool
  | .ok a => p a
  | .error _ => false

theorem okWith_iff {p : α → Bool} {x : Except ε α} : okWith p x = true ↔ ∃ a, x = .ok a ∧ p a = true := by
  cases x with
  | error e => simp [okWith]
  | ok a => simp [okWith]

/-- The results of a list. -/
def results (l : List (Except ε α)) : List α := l.filterMap Except.toOption

/-- The errors of a list. -/
def errors (l : List (Except ε α)) : List ε :=
  l.filterMap fun
    | .ok _ => none
    | .error e => some e

@[simp] theorem results_nil : results ([] : List (Except ε α)) = [] := rfl

@[simp] theorem errors_nil : errors ([] : List (Except ε α)) = [] := rfl

@[simp] theorem results_cons_ok (a : α) (l : List (Except ε α)) : results (.ok a :: l) = a :: results l := rfl

@[simp] theorem results_cons_error (e : ε) (l : List (Except ε α)) : results (.error e :: l) = results l := rfl

@[simp] theorem errors_cons_ok (a : α) (l : List (Except ε α)) : errors (.ok a :: l) = errors l := rfl

@[simp] theorem errors_cons_error (e : ε) (l : List (Except ε α)) : errors (.error e :: l) = e :: errors l := rfl

theorem mem_results {l : List (Except ε α)} {a : α} : a ∈ results l ↔ .ok a ∈ l := by
  unfold results
  rw [List.mem_filterMap]
  constructor
  · rintro ⟨x, hx, ha⟩
    cases x with
    | ok b =>
      obtain rfl := Option.some.inj ha
      exact hx
    | error e => exact absurd ha (by simp [Except.toOption])
  · exact fun h => ⟨.ok a, h, rfl⟩

/-- The results and the errors are all there is. -/
theorem map_results_append_map_errors (f : Except ε α → β) (l : List (Except ε α)) :
    (((results l).map fun a => f (.ok a)) ++ (errors l).map fun e => f (.error e)).Perm (l.map f) := by
  induction l with
  | nil => exact List.Perm.refl _
  | cons x l ih =>
    cases x with
    | ok a => exact ih.cons _
    | error e => exact List.perm_middle.trans (ih.cons _)

/-! ### Lists side by side -/

section Pairs

variable {R : α → β → Prop} {l : List α} {m : List β}

theorem exists_forall₂ (h : ∀ a ∈ l, ∃ b, R a b) : ∃ m, List.Forall₂ R l m := by
  induction l with
  | nil => exact ⟨[], List.Forall₂.nil⟩
  | cons a l ih =>
    obtain ⟨b, hb⟩ := h a List.mem_cons_self
    obtain ⟨m, hm⟩ := ih fun c hc => h c (List.mem_cons_of_mem a hc)
    exact ⟨b :: m, List.Forall₂.cons hb hm⟩

theorem forall₂_left_of_mem (h : List.Forall₂ R l m) : ∀ b ∈ m, ∃ a ∈ l, R a b := by
  induction h with
  | nil => exact fun b hb => absurd hb (by simp)
  | cons hab _ ih =>
    intro b hb
    rcases List.mem_cons.mp hb with rfl | hb
    · exact ⟨_, List.mem_cons_self, hab⟩
    · obtain ⟨a, ha, hrel⟩ := ih b hb
      exact ⟨a, List.mem_cons_of_mem _ ha, hrel⟩

theorem forall₂_right_of_mem (h : List.Forall₂ R l m) : ∀ a ∈ l, ∃ b ∈ m, R a b :=
  forall₂_left_of_mem h.flip

theorem map_eq_of_forall₂ {γ : Type} {f : α → γ} {g : β → γ} (hfg : ∀ a b, R a b → f a = g b)
    (h : List.Forall₂ R l m) : l.map f = m.map g := by
  induction h with
  | nil => rfl
  | cons hab _ ih => rw [List.map_cons, List.map_cons, hfg _ _ hab, ih]

/-- A loop whose turns only update the state, each by its partner in the other list. -/
theorem forM_forall₂ {f : α → EStateM ε σ Unit} {g : σ → β → σ}
    (h : List.Forall₂ (fun a b => ∀ s, f a s = .ok () (g s b)) l m) :
    ∀ s, l.forM f s = .ok () (m.foldl g s) := by
  induction h with
  | nil => exact fun _ => rfl
  | @cons a b l m hab _ ih =>
    intro s
    have hbind : (a :: l).forM f s = (f a >>= fun _ => l.forM f) s := rfl
    have hrun : (f a >>= fun _ => l.forM f) s = l.forM f (g s b) := by
      show EStateM.bind (f a) (fun _ => l.forM f) s = _
      unfold EStateM.bind
      rw [hab s]
    rw [hbind, hrun, ih, List.foldl_cons]

end Pairs

/-! ### Every run -/

/-- The state a run leaves, however it ends. -/
def finalState : EStateM.Result ε σ α → σ
  | .ok _ s => s
  | .error _ s => s

@[simp] theorem finalState_ok (a : α) (s : σ) : finalState (.ok a s : EStateM.Result ε σ α) = s := rfl

@[simp] theorem finalState_error (e : ε) (s : σ) : finalState (.error e s : EStateM.Result ε σ α) = s := rfl

theorem pure_run (a : α) (s : σ) : (pure a : EStateM ε σ α) s = .ok a s := rfl

theorem throw_run (e : ε) (s : σ) : (throw e : EStateM ε σ α) s = .error e s := rfl

theorem updates_run (g : σ → σ × α) (s : σ) : (updates g : EStateM ε σ α) s = .ok (g s).2 (g s).1 := rfl

theorem reads_run (g : σ → α) (s : σ) : (reads g : EStateM ε σ α) s = .ok (g s) s := rfl

/-- A bind, by the way its first part ends. -/
theorem bind_run (x : EStateM ε σ α) (f : α → EStateM ε σ β) (s : σ) :
    (x >>= f) s = match x s with
      | .ok a t => f a t
      | .error e t => .error e t := rfl

theorem bind_of_ok {x : EStateM ε σ α} {f : α → EStateM ε σ β} {s t : σ} {a : α} (h : x s = .ok a t) :
    (x >>= f) s = f a t := by rw [bind_run, h]

theorem bind_of_error {x : EStateM ε σ α} {f : α → EStateM ε σ β} {s t : σ} {e : ε} (h : x s = .error e t) :
    (x >>= f) s = .error e t := by rw [bind_run, h]

/-- A loop over a list in two parts, the first of which returns. -/
theorem forM_append_of_ok {f : β → EStateM ε σ Unit} {m : List β} {t : σ} :
    ∀ {l : List β} {s : σ}, l.forM f s = .ok () t → (l ++ m).forM f s = m.forM f t
  | [], s, h => by
    obtain rfl : s = t := (pure_ok_iff.mp h).2
    rfl
  | b :: l, s, h => by
    obtain ⟨a, u, hb, hl⟩ := bind_ok_iff.mp (show (f b >>= fun _ => l.forM f) s = .ok () t from h)
    exact (bind_of_ok hb).trans (forM_append_of_ok hl)

theorem fromOption_of_some {e : ε} {o : Option α} {a : α} (h : o = some a) (s : σ) :
    (fromOption e o : EStateM ε σ α) s = .ok a s := by rw [h]; rfl

theorem fromOption_of_none {e : ε} {o : Option α} (h : o = none) (s : σ) :
    (fromOption e o : EStateM ε σ α) s = .error e s := by rw [h]; rfl

/-- Every run of the program leaves a state in relation to the one it found. -/
def Keeps (R : σ → σ → Prop) (x : EStateM ε σ α) : Prop := ∀ s, R s (finalState (x s))

section Keeps

variable {R : σ → σ → Prop}

theorem keeps_pure (hrefl : ∀ s, R s s) (a : α) : Keeps R (pure a : EStateM ε σ α) := fun s => hrefl s

theorem keeps_reads (hrefl : ∀ s, R s s) (g : σ → α) : Keeps R (reads g : EStateM ε σ α) := fun s => hrefl s

theorem keeps_fromOption (hrefl : ∀ s, R s s) (e : ε) (o : Option α) : Keeps R (fromOption e o : EStateM ε σ α) := by
  intro s
  cases o with
  | none => exact hrefl s
  | some a => exact hrefl s

/-- After a value that was there, what follows knows it. -/
theorem keeps_fromOption_bind (hrefl : ∀ s, R s s) {e : ε} {o : Option α} {f : α → EStateM ε σ β}
    (hf : ∀ a, o = some a → Keeps R (f a)) : Keeps R (fromOption e o >>= f) := by
  intro s
  cases ho : o with
  | none => exact hrefl s
  | some a => exact hf a ho s

theorem keeps_updates {g : σ → σ × α} (h : ∀ s, R s (g s).1) : Keeps R (updates g : EStateM ε σ α) := h

theorem keeps_bind (htrans : ∀ s t u, R s t → R t u → R s u) {x : EStateM ε σ α} {f : α → EStateM ε σ β}
    (hx : Keeps R x) (hf : ∀ a, Keeps R (f a)) : Keeps R (x >>= f) := by
  intro s
  have h := hx s
  rw [bind_run]
  cases hrun : x s with
  | ok a t =>
    rw [hrun] at h
    exact htrans _ _ _ h (hf a t)
  | error e t =>
    rw [hrun] at h
    exact h

theorem keeps_forM (hrefl : ∀ s, R s s) (htrans : ∀ s t u, R s t → R t u → R s u)
    {f : β → EStateM ε σ Unit} :
    ∀ {l : List β}, (∀ b ∈ l, Keeps R (f b)) → Keeps R (l.forM f)
  | [], _ => keeps_pure hrefl ()
  | b :: l, h => by
    show Keeps R (f b >>= fun _ => l.forM f)
    exact keeps_bind htrans (h b List.mem_cons_self) fun _ =>
      keeps_forM hrefl htrans fun c hc => h c (List.mem_cons_of_mem b hc)

end Keeps

theorem Keeps.of_ok {R : σ → σ → Prop} {x : EStateM ε σ α} (hx : Keeps R x) {s t : σ} {a : α}
    (h : x s = .ok a t) :
    R s t := by
  have hs := hx s
  rwa [h] at hs

/-- What one turn of a returning loop establishes and no turn undoes holds at its end. -/
theorem forM_establishes {P : σ → Prop} {f : β → EStateM ε σ Unit} {b : β}
    (hest : ∀ s t, f b s = .ok () t → P t) : ∀ {l : List β}, b ∈ l →
      (∀ c ∈ l, ∀ s t, f c s = .ok () t → P s → P t) → ∀ {s t : σ}, l.forM f s = .ok () t → P t
  | [], hb, _, _, _, _ => absurd hb (by simp)
  | c :: l, hb, hkeep, s, t, h => by
    have hkeep' : ∀ d ∈ l, ∀ s t, f d s = .ok () t → P s → P t := fun d hd =>
      hkeep d (List.mem_cons_of_mem c hd)
    have hbind : (f c >>= fun _ => l.forM f) s = .ok () t := h
    obtain ⟨⟨⟩, u, hc, hl⟩ := bind_ok_iff.mp hbind
    rcases List.mem_cons.mp hb with rfl | hb
    · have hall : ∀ {m : List β}, (∀ d ∈ m, ∀ s t, f d s = .ok () t → P s → P t) → ∀ {s t : σ},
          m.forM f s = .ok () t → P s → P t := by
        intro m
        induction m with
        | nil =>
          intro _ s t hm hs
          obtain ⟨-, rfl⟩ := pure_ok_iff.mp (show (pure () : EStateM ε σ Unit) s = .ok () t from hm)
          exact hs
        | cons d m ih =>
          intro hm s t hrun hs
          have hbind : (f d >>= fun _ => m.forM f) s = .ok () t := hrun
          obtain ⟨⟨⟩, v, hd, hrest⟩ := bind_ok_iff.mp hbind
          exact ih (fun e he => hm e (List.mem_cons_of_mem d he)) hrest (hm d List.mem_cons_self s v hd hs)
      exact hall hkeep' hl (hest s u hc)
    · exact forM_establishes hest hb hkeep' hl

/-- The program raises, from whatever state, exactly when `b` holds. -/
def RaisesIff (b : Bool) (x : EStateM ε σ α) : Prop := ∀ s, (∃ a t, x s = .ok a t) ↔ b = false

theorem raisesIff_pure (a : α) : RaisesIff false (pure a : EStateM ε σ α) := fun s => by simp [pure_run]

theorem raisesIff_bind {b c : Bool} {x : EStateM ε σ α} {f : α → EStateM ε σ β} (hx : RaisesIff b x)
    (hf : ∀ a, RaisesIff c (f a)) : RaisesIff (b || c) (x >>= f) := by
  intro s
  have hx' := hx s
  rw [bind_run, Bool.or_eq_false_iff]
  cases hrun : x s with
  | ok a t =>
    rw [hrun] at hx'
    rw [hf a t, ← hx']
    simp
  | error e t =>
    rw [hrun] at hx'
    rw [← hx']
    simp

theorem raisesIff_forM {b : β → Bool} {f : β → EStateM ε σ Unit} :
    ∀ {l : List β}, (∀ c ∈ l, RaisesIff (b c) (f c)) → RaisesIff (l.any b) (l.forM f)
  | [], _ => raisesIff_pure ()
  | c :: l, h => by
    rw [List.any_cons]
    exact raisesIff_bind (h c List.mem_cons_self) fun _ => raisesIff_forM fun d hd =>
      h d (List.mem_cons_of_mem c hd)

/-- The items up to the first that passes, it included. -/
def takeThrough (p : β → Bool) : List β → List β
  | [] => []
  | b :: l => if p b then [b] else b :: takeThrough p l

theorem takeThrough_of_none {p : β → Bool} : ∀ {l : List β}, l.any p = false → takeThrough p l = l
  | [], _ => rfl
  | b :: l, h => by
    rw [List.any_cons, Bool.or_eq_false_iff] at h
    rw [takeThrough, h.1, takeThrough_of_none h.2]
    rfl

theorem takeThrough_append (p : β → Bool) : ∀ l m : List β,
    takeThrough p (l ++ m) = if l.any p then takeThrough p l else l ++ takeThrough p m
  | [], m => by simp
  | b :: l, m => by
    rw [List.cons_append, takeThrough, takeThrough, takeThrough_append p l m, List.any_cons]
    cases p b with
    | true => simp
    | false =>
      cases l.any p <;> simp

theorem takeThrough_sublist (p : β → Bool) : ∀ l : List β, (takeThrough p l).Sublist l
  | [] => List.Sublist.slnil
  | b :: l => by
    rw [takeThrough]
    split
    · exact (List.nil_sublist l).cons_cons b
    · exact (takeThrough_sublist p l).cons_cons b

/-- The items after the first that passes are left out. -/
theorem takeThrough_eq_of_any {p : β → Bool} : ∀ {l : List β}, l.any p = true →
    ∃ pre b post, l = pre ++ b :: post ∧ p b = true ∧ takeThrough p l = pre ++ [b]
  | [], h => absurd h (by simp)
  | b :: l, h => by
    cases hb : p b with
    | true => exact ⟨[], b, l, rfl, hb, by simp [takeThrough, hb]⟩
    | false =>
      rw [List.any_cons, hb, Bool.false_or] at h
      obtain ⟨pre, c, post, rfl, hc, htake⟩ := takeThrough_eq_of_any h
      exact ⟨b :: pre, c, post, rfl, hc, by simp [takeThrough, hb, htake]⟩

/-- The program appends the steps of a plan to a log, in order, and raises right after the
first that stops it. -/
def Performs (log : σ → List β) (stops : β → Bool) (plan : List β) (x : EStateM ε σ α) : Prop :=
  (∀ s, log (finalState (x s)) = log s ++ takeThrough stops plan) ∧ RaisesIff (plan.any stops) x

section Performs

variable {log : σ → List β} {stops : β → Bool}

theorem performs_pure (a : α) : Performs log stops [] (pure a : EStateM ε σ α) :=
  ⟨fun s => by simp [takeThrough, pure_run], raisesIff_pure a⟩

theorem performs_bind {plan plan' : List β} {x : EStateM ε σ α} {γ : Type} {f : α → EStateM ε σ γ}
    (hx : Performs log stops plan x) (hf : ∀ a, Performs log stops plan' (f a)) :
    Performs log stops (plan ++ plan') (x >>= f) := by
  refine ⟨fun s => ?_, ?_⟩
  · have hlog := hx.1 s
    have hok := hx.2 s
    rw [bind_run, takeThrough_append]
    cases hrun : x s with
    | ok a t =>
      rw [hrun] at hlog hok
      have hany : plan.any stops = false := hok.mp ⟨a, t, rfl⟩
      have hlog' := (hf a).1 t
      rw [takeThrough_of_none hany] at hlog
      simp only [finalState_ok] at hlog
      rw [hany, if_neg Bool.false_ne_true, ← List.append_assoc, ← hlog]
      exact hlog'
    | error e t =>
      rw [hrun] at hlog hok
      have hany : plan.any stops = true := by
        cases hany : plan.any stops with
        | true => rfl
        | false =>
          obtain ⟨a, u, h⟩ := hok.mpr hany
          exact absurd h (by simp)
      simpa [hany] using hlog
  · rw [List.any_append]
    exact raisesIff_bind hx.2 fun a => (hf a).2

theorem performs_forM {γ : Type} {f : γ → EStateM ε σ Unit} {plan : γ → List β} :
    ∀ {l : List γ}, (∀ c ∈ l, Performs log stops (plan c) (f c)) →
      Performs log stops (l.flatMap plan) (l.forM f)
  | [], _ => performs_pure ()
  | c :: l, h => by
    rw [List.flatMap_cons]
    exact performs_bind (h c List.mem_cons_self) fun _ => performs_forM fun d hd =>
      h d (List.mem_cons_of_mem c hd)

/-- A program that leaves the log alone and returns. -/
theorem performs_of_ok {x : EStateM ε σ α} (h : ∀ s, ∃ a t, x s = .ok a t ∧ log t = log s) :
    Performs log stops [] x := by
  refine ⟨fun s => ?_, fun s => ?_⟩
  · obtain ⟨a, t, hrun, hlog⟩ := h s
    simp [hrun, takeThrough, hlog]
  · obtain ⟨a, t, hrun, -⟩ := h s
    simp [hrun]

end Performs

/-! ### Runs that can be evaluated -/

/-- The run returns, with a value and a state that pass the test. -/
def returnsWith (p : α → σ → Bool) : EStateM.Result ε σ α → Bool
  | .ok a s => p a s
  | .error _ _ => false

/-- The run raises, with an error and a state that pass the test. -/
def raisesWith (p : ε → σ → Bool) : EStateM.Result ε σ α → Bool
  | .ok _ _ => false
  | .error e s => p e s

theorem returnsWith_iff {p : α → σ → Bool} {r : EStateM.Result ε σ α} :
    returnsWith p r = true ↔ ∃ a s, r = .ok a s ∧ p a s = true := by
  cases r <;> simp [returnsWith]

theorem raisesWith_iff {p : ε → σ → Bool} {r : EStateM.Result ε σ α} :
    raisesWith p r = true ↔ ∃ e s, r = .error e s ∧ p e s = true := by
  cases r <;> simp [raisesWith]

end NiftyShield.Lib.Raising
