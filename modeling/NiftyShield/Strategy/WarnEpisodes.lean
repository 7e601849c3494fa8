import NiftyShield.Strategy.MonitorCoverage

/-!
# WARN messages over a run of ticks

A WARN is sent when its row of `warn_signal_state` is not active, and the row is made
inactive at the end of a strategy's turn if the WARN was not among the events of that turn.
A turn without the expiry's chain, or whose `check_signals` raised, counts as one on which
the condition was off; and of two strategies with one name each clears the other's rows.

## What is proved

`Sound` asks of a tick that it clears a row only if the WARN has recovered on it.
`step_of_sound`: a WARN is then sent at most once, not while its row is active, and the row
stays active until it has recovered. By induction over the ticks, `warned_once_of_sound`:
in a run of sound ticks, between two sends of one WARN there is a tick on which its expiry
was evaluated and the WARN not emitted.
-/

namespace NiftyShield.Strategy.Monitor

open NiftyShield.Instruments NiftyShield.Lib NiftyShield.Lib.Raising NiftyShield.Paper

/-! ### Runs -/

/-- The tables, with empty logs for the next tick. -/
def TickState.fresh (s : TickState) : TickState := { s with calls := [], sent := [], executed := [] }

/-- The state after a tick. -/
def afterTick (cfg : Config) (env : TickEnv) (n : ℕ) (s : TickState) : TickState :=
  finalState (tick cfg env n s.fresh)

/-- A run: what each tick met, and the state it left. -/
def run (cfg : Config) : ℕ → TickState → List TickEnv → List (TickEnv × TickState)
  | _, _, [] => []
  | n, s, env :: envs => (env, afterTick cfg env n s) :: run cfg (n + 1) (afterTick cfg env n s) envs

/-- The call's events; none if it raised. -/
def TickEnv.eventsOf (env : TickEnv) (c : Call) : List RoutedEvent :=
  match env.checkSignals c.index c.chain c.positions with
  | .raised => []
  | .events es => es

/-- The call returned. -/
def TickEnv.returned (env : TickEnv) (c : Call) : Bool :=
  match env.checkSignals c.index c.chain c.positions with
  | .raised => false
  | .events _ => true

/-- The WARN keys a call emits. -/
def TickEnv.warnsOf (env : TickEnv) (c : Call) : List WarnKey :=
  ((env.eventsOf c).filter fun r => r.event.severity = .warn).map fun r =>
    warnKey c.strategy.strategyName c.chain r.event

/-- The call evaluated the key's strategy and expiry, and returned. -/
def TickEnv.evaluates (env : TickEnv) (c : Call) (k : WarnKey) : Bool :=
  c.strategy.strategyName = k.strategyName && c.chain.expiry = k.expiry && env.returned c

/-- `check_signals` was evaluated for the key's expiry without error, and the WARN was not
emitted. -/
def Recovered (env : TickEnv) (calls : List Call) (k : WarnKey) : Prop :=
  (∃ c ∈ calls, env.evaluates c k = true) ∧ ∀ c ∈ calls, k ∉ env.warnsOf c

/-- **Once per episode**: no tick sends a WARN twice, and between two ticks that send it
there is one on which it had recovered. -/
def WarnedOnce (ticks : List (TickEnv × TickState)) : Prop :=
  (∀ (i : ℕ) (o : TickEnv × TickState), ticks[i]? = some o → ∀ k, o.2.sent.count k ≤ 1) ∧
    ∀ (i j : ℕ) (o o' : TickEnv × TickState) (k : WarnKey), i < j → ticks[i]? = some o → ticks[j]? = some o' → k ∈ o.2.sent → k ∈ o'.2.sent →
      ∃ m, ∃ o'' : TickEnv × TickState, i < m ∧ m < j ∧ ticks[m]? = some o'' ∧ Recovered o''.1 o''.2.calls k

/-! ### Ticks that clear only what has recovered -/

/-- The WARN keys planned for a strategy. -/
def plannedWarns (cfg : Config) (env : TickEnv) (chains : List (Date × OptionChain)) (r : Registered × ℕ) :
    List WarnKey :=
  (plannedCalls cfg env chains r).flatMap env.warnsOf

instance (env : TickEnv) (calls : List Call) (k : WarnKey) : Decidable (Recovered env calls k) :=
  inferInstanceAs (Decidable (_ ∧ _))

/-- Every strategy that ends its turn emits again each WARN of its name that was emitted
before it, and each active row of its name is of a WARN it emits or of one that recovered. -/
def ClearsRecovered (cfg : Config) (env : TickEnv) (chains : List (Date × OptionChain)) (s : TickState)
    (made : List Call) : List WarnKey → List (Registered × ℕ) → Prop
  | _, [] => True
  | earlier, r :: rest =>
    (plannedCalls cfg env chains r).any env.stops = true ∨
      (∀ k ∈ earlier, k.strategyName = r.1.strategyName → k ∈ plannedWarns cfg env chains r) ∧
        (∀ e ∈ s.warn.entries, e.2 = true → e.1.strategyName = r.1.strategyName →
          e.1 ∈ plannedWarns cfg env chains r ∨ Recovered env made e.1) ∧
        ClearsRecovered cfg env chains s made (earlier ++ plannedWarns cfg env chains r) rest

instance instDecidableClearsRecovered (cfg : Config) (env : TickEnv) (chains : List (Date × OptionChain))
    (s : TickState) (made : List Call) : ∀ earlier l, Decidable (ClearsRecovered cfg env chains s made earlier l)
  | _, [] => inferInstanceAs (Decidable True)
  | earlier, r :: rest =>
    have := instDecidableClearsRecovered cfg env chains s made (earlier ++ plannedWarns cfg env chains r) rest
    inferInstanceAs (Decidable (_ ∨ _ ∧ _ ∧ _))

/-- **A sound tick** clears a WARN row only if the WARN has recovered on it. -/
def Sound (cfg : Config) (env : TickEnv) (n : ℕ) (s : TickState) : Prop :=
  env.tradingDay = true → env.marketSession = true →
    ∀ chains ∈ env.fetchChains cfg (duePositions cfg env n), chains ≠ [] →
      ClearsRecovered cfg env chains s (takeThrough env.stops (plan cfg env n)) [] (cfg.dueStrategies n)

instance (cfg : Config) (env : TickEnv) (n : ℕ) (s : TickState) : Decidable (Sound cfg env n s) :=
  inferInstanceAs (Decidable (_ → _ → ∀ chains ∈ env.fetchChains cfg (duePositions cfg env n), _ → _))

/-- Every tick of the run is sound. -/
def RunSound (cfg : Config) : ℕ → TickState → List TickEnv → Prop
  | _, _, [] => True
  | n, s, env :: envs => Sound cfg env n s ∧ RunSound cfg (n + 1) (afterTick cfg env n s) envs

instance instDecidableRunSound (cfg : Config) : ∀ n s envs, Decidable (RunSound cfg n s envs)
  | _, _, [] => inferInstanceAs (Decidable True)
  | n, s, env :: envs =>
    have := instDecidableRunSound cfg (n + 1) (afterTick cfg env n s) envs
    inferInstanceAs (Decidable (_ ∧ _))

/-! ### One key in one turn -/

theorem isWarnActive_iff {s : TickState} {k : WarnKey} :
    s.isWarnActive k = true ↔ (k, true) ∈ s.warn.entries := by
  rw [Dict.mem_entries_iff, TickState.isWarnActive]
  cases s.warn.get? k with
  | none => simp
  | some b => simp

/-- Reconciling a strategy clears its rows that did not fire. -/
theorem isWarnActive_reconcile (s : TickState) (name : String) (k : WarnKey) :
    (s.reconcileWarnState name).isWarnActive k =
      (s.isWarnActive k && !(decide (k.strategyName = name) && decide (k ∉ s.warnFired))) := by
  have hmem : k ∈ (s.warn.entries.filter fun e =>
    e.1.strategyName = name && e.2 && e.1 ∉ s.warnFired).map Prod.fst ↔
      s.isWarnActive k = true ∧ k.strategyName = name ∧ k ∉ s.warnFired := by
    rw [isWarnActive_iff, List.mem_map]
    constructor
    · rintro ⟨⟨k', b⟩, he, rfl⟩
      rw [List.mem_filter] at he
      simp only [Bool.and_eq_true, decide_eq_true_eq] at he
      obtain ⟨hentry, ⟨hname, hb⟩, hfired⟩ := he
      exact ⟨hb ▸ hentry, hname, hfired⟩
    · rintro ⟨hentry, hname, hfired⟩
      exact ⟨(k, true), List.mem_filter.mpr ⟨hentry, by simp [hname, hfired]⟩, rfl⟩
  rw [TickState.reconcileWarnState, TickState.isWarnActive]
  simp only
  rw [Dict.get?_foldl_set_const]
  by_cases hk : s.isWarnActive k = true ∧ k.strategyName = name ∧ k ∉ s.warnFired
  · rw [if_pos (hmem.mpr hk)]
    simp [hk.1, hk.2.1, hk.2.2]
  · rw [if_neg (hmem.not.mpr hk)]
    show s.isWarnActive k = _
    cases hactive : s.isWarnActive k with
    | false => rfl
    | true =>
      have hnot : ¬ (k.strategyName = name ∧ k ∉ s.warnFired) := fun h => hk ⟨hactive, h⟩
      simp only [Bool.true_and, Bool.true_eq, Bool.not_eq_true', Bool.and_eq_false_iff,
        decide_eq_false_iff_not]
      exact not_and_or.mp hnot

/-- What a part of a turn does to a key: it never clears the row, it sends only if the row
was not active, once, and then the row is active and the key has fired. -/
structure Loop (k : WarnKey) (s t : TickState) : Prop where
  /-- An active row stays so, and nothing is sent. -/
  active : s.isWarnActive k = true → t.isWarnActive k = true ∧ t.sent.count k = s.sent.count k
  /-- An inactive row stays so, or the WARN is sent. -/
  inactive : s.isWarnActive k = false → (t.isWarnActive k = false ∧ t.sent.count k = s.sent.count k) ∨
    (t.isWarnActive k = true ∧ t.sent.count k = s.sent.count k + 1 ∧ k ∈ t.warnFired)
  /-- What has fired has fired. -/
  fired : k ∈ s.warnFired → k ∈ t.warnFired

theorem Loop.refl (k : WarnKey) (s : TickState) : Loop k s s :=
  ⟨fun h => ⟨h, rfl⟩, fun h => Or.inl ⟨h, rfl⟩, id⟩

theorem Loop.trans {k : WarnKey} {s t u : TickState} (h : Loop k s t) (h' : Loop k t u) : Loop k s u where
  active hs := by
    obtain ⟨ht, hcount⟩ := h.active hs
    obtain ⟨hu, hcount'⟩ := h'.active ht
    exact ⟨hu, hcount'.trans hcount⟩
  inactive hs := by
    rcases h.inactive hs with ⟨ht, hcount⟩ | ⟨ht, hcount, hfired⟩
    · rw [← hcount]
      exact h'.inactive ht
    · obtain ⟨hu, hcount'⟩ := h'.active ht
      exact Or.inr ⟨hu, hcount'.trans hcount, h'.fired hfired⟩
  fired hs := h'.fired (h.fired hs)

/-- A change that touches neither the key's row nor the sends. -/
theorem Loop.of_same {k : WarnKey} {s t : TickState} (hwarn : t.isWarnActive k = s.isWarnActive k)
    (hsent : t.sent.count k = s.sent.count k) (hfired : k ∈ s.warnFired → k ∈ t.warnFired) : Loop k s t :=
  ⟨fun h => ⟨hwarn.trans h, hsent⟩, fun h => Or.inl ⟨hwarn.trans h, hsent⟩, hfired⟩

/-- Routing an event, for one key. -/
theorem routeEvent_loop (k : WarnKey) (strategy : Registered) (index : ℕ) (chain : OptionChain)
    (positions : List PaperPosition) (r : RoutedEvent) :
    Keeps (Loop k) (routeEvent strategy index chain positions r) := by
  intro s
  unfold routeEvent
  split
  · exact Loop.refl k s
  cases r.event.severity with
  | info => exact Loop.refl k s
  | warn =>
    simp only [updates_run, finalState_ok]
    split
    next hactive => exact Loop.of_same rfl rfl fun h => List.mem_cons_of_mem _ h
    next hactive =>
      by_cases hk : k = warnKey strategy.strategyName chain r.event
      · rw [← hk] at hactive ⊢
        have hoff : s.isWarnActive k = false := by simpa [TickState.isWarnActive] using hactive
        refine ⟨fun h => absurd (hoff.symm.trans h) (by simp), fun _ =>
          Or.inr ⟨?_, ?_, List.mem_cons_self⟩, ?_⟩
        · simp [TickState.isWarnActive, Dict.get?_set]
        · simp
        · exact fun h => List.mem_cons_of_mem _ h
      · refine Loop.of_same ?_ ?_ fun h => List.mem_cons_of_mem _ h
        · simp [TickState.isWarnActive, Dict.get?_set, hk]
        · simp [List.count_append, Ne.symm hk]
  | action =>
    simp only
    split
    · cases autoAction r.event.payload with
      | none => exact Loop.refl k s
      | some action => exact Loop.of_same rfl rfl id
    · cases Payload.jsonDumps r.event.payload with
      | none => exact Loop.refl k s
      | some council => exact Loop.of_same rfl rfl id

/-- A WARN that has been routed has fired. -/
theorem routeEvent_fires {strategy : Registered} {index : ℕ} {chain : OptionChain}
    {positions : List PaperPosition}
    {r : RoutedEvent} {s t : TickState} (hwarn : r.event.severity = .warn)
    (h : routeEvent strategy index chain positions r s = .ok () t) :
    warnKey strategy.strategyName chain r.event ∈ t.warnFired := by
  unfold routeEvent at h
  split at h
  · exact absurd h throw_ne_ok
  rw [hwarn] at h
  simp only [updates_run, EStateM.Result.ok.injEq, true_and] at h
  rw [← h]
  split <;> exact List.mem_cons_self

theorem processGroup_loop (k : WarnKey) (env : TickEnv) (chains : List (Date × OptionChain))
    (strategy : Registered)
    (index : ℕ) (g : Date × List PaperPosition) :
      Keeps (Loop k) (processGroup env chains strategy index g) := by
  unfold processGroup
  cases chainOf chains g.1 with
  | none => exact keeps_pure (Loop.refl k) ()
  | some chain =>
    refine keeps_bind (R := Loop k) (fun _ _ _ => Loop.trans) (fun s => Loop.of_same rfl rfl id) fun _ => ?_
    cases env.checkSignals index chain g.2 with
    | raised => exact keeps_pure (Loop.refl k) ()
    | events es =>
      exact keeps_forM (Loop.refl k) (fun _ _ _ => Loop.trans) fun r _ =>
        routeEvent_loop k strategy index chain g.2 r

/-- What a group emits has fired once it is processed. -/
theorem processGroup_fires {env : TickEnv} {chains : List (Date × OptionChain)}
    {strategy : Registered} {index : ℕ}
    {g : Date × List PaperPosition} {chain : OptionChain} (hchain : chainOf chains g.1 = some chain)
    {k : WarnKey}
    (hk : k ∈ env.warnsOf ⟨strategy, index, chain, g.2⟩) {s t : TickState}
    (h : processGroup env chains strategy index g s = .ok () t) : k ∈ t.warnFired := by
  obtain ⟨r, hr, rfl⟩ := List.mem_map.mp hk
  obtain ⟨hr, hwarn⟩ := List.mem_filter.mp hr
  unfold processGroup at h
  rw [hchain] at h
  obtain ⟨_, u, -, h⟩ := bind_ok_iff.mp h
  unfold TickEnv.eventsOf at hr
  simp only at hr
  cases henv : env.checkSignals index chain g.2 with
  | raised =>
    rw [henv] at hr
    exact absurd hr (by simp)
  | events es =>
    rw [henv] at hr h
    refine forM_establishes (P := fun s => warnKey strategy.strategyName chain r.event ∈ s.warnFired)
      (fun s t hrun => routeEvent_fires (by simpa using hwarn) hrun) hr (fun c _ s t hrun hfired => ?_) h
    exact ((routeEvent_loop _ strategy index chain g.2 c).of_ok hrun).fired hfired

private theorem groups_loop (k : WarnKey) (cfg : Config) (env : TickEnv)
    (chains : List (Date × OptionChain))
    (r : Registered × ℕ) :
    Keeps (Loop k) ((expiryGroups cfg chains (env.positionsOf r.1.strategyName)).forM
      (processGroup env chains r.1 r.2)) :=
  keeps_forM (Loop.refl k) (fun _ _ _ => Loop.trans) fun g _ => processGroup_loop k env chains r.1 r.2 g

theorem processStrategy_run (cfg : Config) (env : TickEnv) (chains : List (Date × OptionChain))
    (r : Registered × ℕ)
    (s : TickState) :
    processStrategy cfg env chains r s =
      match (expiryGroups cfg chains (env.positionsOf r.1.strategyName)).forM
        (processGroup env chains r.1 r.2)
        { s with warnFired := [] } with
      | .ok _ t => .ok () (t.reconcileWarnState r.1.strategyName)
      | .error e t => .error e t := by
  rw [processStrategy, bind_run, updates_run]
  show ((expiryGroups cfg chains (env.positionsOf r.1.strategyName)).forM
    (processGroup env chains r.1 r.2) >>=
    fun _ => updates fun st => (st.reconcileWarnState r.1.strategyName, ())) { s with warnFired := [] } = _
  rw [bind_run]
  cases (expiryGroups cfg chains (env.positionsOf r.1.strategyName)).forM (processGroup env chains r.1 r.2)
    { s with warnFired := [] } with
  | ok a t => rfl
  | error e t => rfl

/-- A turn that is ended by an exception has only looped; one that returns has looped,
fired what its calls emitted, and reconciled. -/
theorem processStrategy_cases (k : WarnKey) (cfg : Config) (env : TickEnv)
    (chains : List (Date × OptionChain))
    (r : Registered × ℕ) (s : TickState) :
    (∃ t, processStrategy cfg env chains r s = .error () t ∧ Loop k { s with warnFired := [] } t) ∨
      ∃ t, processStrategy cfg env chains r s = .ok () (t.reconcileWarnState r.1.strategyName) ∧
        Loop k { s with warnFired := [] } t ∧ ∀ c ∈ plannedCalls cfg env chains r,
          k ∈ env.warnsOf c → k ∈ t.warnFired := by
  have hloop := groups_loop k cfg env chains r { s with warnFired := [] }
  cases hrun : (expiryGroups cfg chains (env.positionsOf r.1.strategyName)).forM
    (processGroup env chains r.1 r.2)
      { s with warnFired := [] } with
  | error e t =>
    rw [hrun] at hloop
    exact Or.inl ⟨t, by rw [processStrategy_run, hrun], hloop⟩
  | ok a t =>
    rw [hrun] at hloop
    refine Or.inr ⟨t, by rw [processStrategy_run, hrun], hloop, fun c hc hk => ?_⟩
    obtain ⟨g, hg, hcall⟩ := List.mem_filterMap.mp hc
    obtain ⟨chain, hchain, rfl⟩ := Option.map_eq_some_iff.mp hcall
    refine forM_establishes (P := fun s => k ∈ s.warnFired) (fun s t h => processGroup_fires hchain hk h) hg
      (fun g' _ s t h hfired => ?_) hrun
    exact ((processGroup_loop k env chains r.1 r.2 g').of_ok h).fired hfired

/-! ### Sends come from calls -/

/-- The calls made in between are logged, and one of them emitted the WARN if it was sent. -/
def SendsEmitted (env : TickEnv) (k : WarnKey) (s t : TickState) : Prop :=
  ∃ made, t.calls = s.calls ++ made ∧ (t.sent.count k = s.sent.count k ∨ ∃ c ∈ made, k ∈ env.warnsOf c)

theorem SendsEmitted.of_same {env : TickEnv} {k : WarnKey} {s t : TickState} (hcalls : t.calls = s.calls)
    (hsent : t.sent = s.sent) : SendsEmitted env k s t :=
  ⟨[], by rw [hcalls, List.append_nil], Or.inl (by rw [hsent])⟩

theorem SendsEmitted.trans {env : TickEnv} {k : WarnKey} {s t u : TickState} (h : SendsEmitted env k s t)
    (h' : SendsEmitted env k t u) : SendsEmitted env k s u := by
  obtain ⟨made, hcalls, hsent⟩ := h
  obtain ⟨made', hcalls', hsent'⟩ := h'
  refine ⟨made ++ made', by rw [hcalls', hcalls, List.append_assoc], ?_⟩
  rcases hsent with hsame | ⟨c, hc, hk⟩
  · rcases hsent' with hsame' | ⟨c, hc, hk⟩
    · exact Or.inl (hsame'.trans hsame)
    · exact Or.inr ⟨c, List.mem_append_right made hc, hk⟩
  · exact Or.inr ⟨c, List.mem_append_left made' hc, hk⟩

/-- An event of another key sends nothing for this one. -/
theorem routeEvent_sent {k : WarnKey} {strategy : Registered} {chain : OptionChain} {r : RoutedEvent}
    (hother : r.event.severity = .warn → warnKey strategy.strategyName chain r.event ≠ k) (index : ℕ)
    (positions : List PaperPosition) :
    Keeps (fun s t : TickState => t.sent.count k = s.sent.count k)
    (routeEvent strategy index chain positions r) := by
  intro s
  unfold routeEvent
  split
  · rfl
  cases hsev : r.event.severity with
  | info => rfl
  | warn =>
    simp only [updates_run, finalState_ok]
    split
    · rfl
    · simp [List.count_append, hother hsev]
  | action =>
    simp only
    split
    · cases autoAction r.event.payload <;> rfl
    · cases Payload.jsonDumps r.event.payload <;> rfl

theorem processGroup_emitted (k : WarnKey) (env : TickEnv) (chains : List (Date × OptionChain))
    (strategy : Registered)
    (index : ℕ) (g : Date × List PaperPosition) :
    Keeps (SendsEmitted env k) (processGroup env chains strategy index g) := by
  intro s
  unfold processGroup
  cases chainOf chains g.1 with
  | none => exact SendsEmitted.of_same rfl rfl
  | some chain =>
    simp only
    rw [bind_run, updates_run]
    refine ⟨[⟨strategy, index, chain, g.2⟩], ?_⟩
    cases henv : env.checkSignals index chain g.2 with
    | raised => exact ⟨rfl, Or.inl rfl⟩
    | events es =>
      have hcalls : Keeps (fun s t : TickState => t.calls = s.calls)
          (es.forM (routeEvent strategy index chain g.2)) :=
        keeps_forM (R := fun s t : TickState => t.calls = s.calls) (fun _ => rfl) (fun _ _ _ h h' =>
          h'.trans h)
          fun r _ => routeEvent_keeps_calls strategy index chain g.2 r
      refine ⟨hcalls _, or_iff_not_imp_right.mpr fun hnot => ?_⟩
      have hnone : k ∉ env.warnsOf ⟨strategy, index, chain, g.2⟩ := fun hk =>
        hnot ⟨_, List.mem_singleton_self _, hk⟩
      have hsent : Keeps (fun s t : TickState => t.sent.count k = s.sent.count k)
          (es.forM (routeEvent strategy index chain g.2)) := by
        refine keeps_forM (R := fun s t : TickState => t.sent.count k = s.sent.count k) (fun _ => rfl)
          (fun _ _ _ h h' => h'.trans h) fun r hr => routeEvent_sent (fun hwarn heq => hnone ?_) index g.2
        refine List.mem_map.mpr ⟨r, List.mem_filter.mpr ⟨?_, by simpa using hwarn⟩, heq⟩
        simpa [TickEnv.eventsOf, henv] using hr
      exact hsent _

theorem processStrategy_emitted (k : WarnKey) (cfg : Config) (env : TickEnv)
    (chains : List (Date × OptionChain))
    (r : Registered × ℕ) : Keeps (SendsEmitted env k) (processStrategy cfg env chains r) := by
  refine keeps_bind (R := SendsEmitted env k) (fun _ _ _ => SendsEmitted.trans)
    (fun s => SendsEmitted.of_same rfl rfl) fun _ => ?_
  refine keeps_bind (R := SendsEmitted env k) (fun _ _ _ => SendsEmitted.trans) ?_ fun _ =>
    fun s => SendsEmitted.of_same rfl rfl
  exact keeps_forM (fun s => SendsEmitted.of_same rfl rfl) (fun _ _ _ => SendsEmitted.trans) fun g _ =>
    processGroup_emitted k env chains r.1 r.2 g

/-- A tick leaves the state as it is, or runs the loop over the due strategies. -/
theorem tick_cases (cfg : Config) (env : TickEnv) (n : ℕ) (s : TickState) :
    finalState (tick cfg env n s) = s ∨
      env.tradingDay = true ∧ env.marketSession = true ∧
        ∃ chains ∈ env.fetchChains cfg (duePositions cfg env n), chains ≠ [] ∧
          tick cfg env n s = (cfg.dueStrategies n).forM (processStrategy cfg env chains) s := by
  unfold tick
  cases env.tradingDay with
  | false => exact Or.inl rfl
  | true =>
    cases env.marketSession with
    | false => exact Or.inl rfl
    | true =>
      cases hchains : env.fetchChains cfg (duePositions cfg env n) with
      | none => exact Or.inl rfl
      | some chains =>
        cases chains with
        | nil => exact Or.inl rfl
        | cons c cs => exact Or.inr ⟨rfl, rfl, c :: cs, rfl, List.cons_ne_nil c cs, rfl⟩

/-- A tick that sends a WARN has made a call that emitted it. -/
theorem tick_emitted (k : WarnKey) (cfg : Config) (env : TickEnv) (n : ℕ) :
    Keeps (SendsEmitted env k) (tick cfg env n) := by
  intro s
  rcases tick_cases cfg env n s with hsame | ⟨-, -, chains, -, -, hrun⟩
  · rw [hsame]
    exact SendsEmitted.of_same rfl rfl
  · rw [hrun]
    exact keeps_forM (fun s => SendsEmitted.of_same rfl rfl) (fun _ _ _ => SendsEmitted.trans)
      (fun r _ => processStrategy_emitted k cfg env chains r) s

/-! ### One key over a tick -/

/-- The row is never cleared: the WARN is sent once if the row was not active, and then the
row is active. -/
structure Kept (k : WarnKey) (s t : TickState) : Prop where
  /-- An active row stays so, and nothing is sent. -/
  active : s.isWarnActive k = true → t.isWarnActive k = true ∧ t.sent.count k = s.sent.count k
  /-- An inactive row stays so, or the WARN is sent. -/
  inactive : s.isWarnActive k = false → (t.isWarnActive k = false ∧ t.sent.count k = s.sent.count k) ∨
    (t.isWarnActive k = true ∧ t.sent.count k = s.sent.count k + 1)

theorem Kept.refl (k : WarnKey) (s : TickState) : Kept k s s :=
  ⟨fun h => ⟨h, rfl⟩, fun h => Or.inl ⟨h, rfl⟩⟩

theorem Kept.trans {k : WarnKey} {s t u : TickState} (h : Kept k s t) (h' : Kept k t u) : Kept k s u where
  active hs := by
    obtain ⟨ht, hcount⟩ := h.active hs
    obtain ⟨hu, hcount'⟩ := h'.active ht
    exact ⟨hu, hcount'.trans hcount⟩
  inactive hs := by
    rcases h.inactive hs with ⟨ht, hcount⟩ | ⟨ht, hcount⟩
    · rw [← hcount]
      exact h'.inactive ht
    · obtain ⟨hu, hcount'⟩ := h'.active ht
      exact Or.inr ⟨hu, hcount'.trans hcount⟩

theorem Kept.of_reset {k : WarnKey} {s t : TickState} (h : Kept k { s with warnFired := [] } t) :
    Kept k s t :=
  ⟨h.active, h.inactive⟩

theorem Loop.kept {k : WarnKey} {s t : TickState} (h : Loop k s t) : Kept k s t :=
  ⟨h.active, fun hs => (h.inactive hs).imp id fun ⟨ht, hcount, _⟩ => ⟨ht, hcount⟩⟩

/-- The reconciliation after a turn keeps a row that was not active or whose key fired. -/
theorem Loop.kept_reconcile {k : WarnKey} {s t : TickState} (h : Loop k s t) {name : String}
    (hclear : s.isWarnActive k = true → k.strategyName = name → k ∈ t.warnFired) :
    Kept k s (t.reconcileWarnState name) := by
  have hrow := isWarnActive_reconcile t name k
  have hsent : (t.reconcileWarnState name).sent = t.sent := rfl
  constructor
  · intro hs
    obtain ⟨ht, hcount⟩ := h.active hs
    refine ⟨?_, by rw [hsent, hcount]⟩
    rw [hrow, ht]
    by_cases hname : k.strategyName = name
    · simp [hclear hs hname]
    · simp [hname]
  · intro hs
    rcases h.inactive hs with ⟨ht, hcount⟩ | ⟨ht, hcount, hfired⟩
    · exact Or.inl ⟨by rw [hrow, ht, Bool.false_and], by rw [hsent, hcount]⟩
    · exact Or.inr ⟨by simp [hrow, ht, hfired], by rw [hsent, hcount]⟩

theorem mem_plannedWarns {cfg : Config} {env : TickEnv} {chains : List (Date × OptionChain)}
    {r : Registered × ℕ}
    {k : WarnKey} : k ∈ plannedWarns cfg env chains r ↔ ∃ c ∈ plannedCalls cfg env chains r,
      k ∈ env.warnsOf c :=
  List.mem_flatMap

/-- What a strategy's turn sends is among its planned WARNs. -/
theorem mem_plannedWarns_of_sent {k : WarnKey} {cfg : Config} {env : TickEnv}
    {chains : List (Date × OptionChain)}
    {r : Registered × ℕ} {s : TickState}
    (h : (finalState (processStrategy cfg env chains r s)).sent.count k ≠ s.sent.count k) :
    k ∈ plannedWarns cfg env chains r := by
  obtain ⟨made, hcalls, hsent⟩ := processStrategy_emitted k cfg env chains r s
  obtain ⟨c, hc, hk⟩ := hsent.resolve_left h
  have hmade : made = takeThrough env.stops (plannedCalls cfg env chains r) :=
    List.append_cancel_left (hcalls.symm.trans ((processStrategy_performs cfg env chains r).1 s))
  rw [hmade] at hc
  exact mem_plannedWarns.mpr ⟨c, (takeThrough_sublist _ _).subset hc, hk⟩

/-- The loop over the due strategies keeps the row of a WARN that has not recovered. The
invariant: an active row was so before the tick, or its WARN has been emitted since. -/
theorem strategies_kept {k : WarnKey} {cfg : Config} {env : TickEnv} {chains : List (Date × OptionChain)}
    {s₀ : TickState} {made : List Call} (hnot : ¬ Recovered env made k) :
    ∀ {l : List (Registered × ℕ)} {earlier : List WarnKey} {s : TickState},
      ClearsRecovered cfg env chains s₀ made earlier l →
      (s.isWarnActive k = true → k ∈ earlier ∨ s₀.isWarnActive k = true) →
      Kept k s (finalState (l.forM (processStrategy cfg env chains) s))
  | [], _, s, _, _ => Kept.refl k s
  | r :: rest, earlier, s, hclears, hinv => by
    show Kept k s (finalState ((processStrategy cfg env chains r >>= fun _ =>
      rest.forM (processStrategy cfg env chains)) s))
    rw [bind_run]
    rcases processStrategy_cases k cfg env chains r s with ⟨t, hrun, hloop⟩ | ⟨t, hrun, hloop, hfired⟩
    · rw [hrun]
      exact hloop.kept.of_reset
    · have hok : (plannedCalls cfg env chains r).any env.stops = false :=
        ((processStrategy_performs cfg env chains r).2 s).mp ⟨(), _, hrun⟩
      obtain ⟨hearlier, hrows, hrest⟩ := hclears.resolve_left (by simp [hok])
      have hfires : k ∈ plannedWarns cfg env chains r → k ∈ t.warnFired := fun hk =>
        have ⟨c, hc, hkc⟩ := mem_plannedWarns.mp hk
        hfired c hc hkc
      have hkept : Kept k s (t.reconcileWarnState r.1.strategyName) := by
        refine (hloop.kept_reconcile fun hs hname => hfires ?_).of_reset
        rcases hinv hs with hk | hk
        · exact hearlier k hk hname
        · exact (hrows (k, true) (isWarnActive_iff.mp hk) rfl hname).resolve_right hnot
      have hsent : (finalState (processStrategy cfg env chains r s)).sent.count k ≠ s.sent.count k →
          k ∈ plannedWarns cfg env chains r := mem_plannedWarns_of_sent
      rw [hrun] at hsent ⊢
      refine hkept.trans (strategies_kept hnot hrest fun hactive => ?_)
      -- active after the turn: before it too, or the turn sent the WARN
      cases hs : s.isWarnActive k with
      | true => exact (hinv hs).imp_left (List.mem_append_left _)
      | false =>
        rcases hkept.inactive hs with ⟨hoff, -⟩ | ⟨-, hcount⟩
        · exact absurd (hoff.symm.trans hactive) (by simp)
        · exact Or.inl (List.mem_append_right _ (hsent (by simp only [finalState_ok]; omega)))

/-- What a sound tick does to a key. -/
structure Step (env : TickEnv) (k : WarnKey) (s t : TickState) : Prop where
  /-- The WARN is sent at most once. -/
  count_le : t.sent.count k ≤ 1
  /-- It is not sent if its row was active. -/
  silent : s.isWarnActive k = true → t.sent.count k = 0
  /-- If it was sent its row is active, or it has recovered. -/
  active : t.sent.count k ≠ 0 → t.isWarnActive k = true
  /-- Its row is cleared only if it has recovered. -/
  recovered : s.isWarnActive k = true → t.isWarnActive k = false → Recovered env t.calls k

/-- **One sound tick.** -/
theorem step_of_sound {cfg : Config} {env : TickEnv} {n : ℕ} {s : TickState} (h : Sound cfg env n s)
    (k : WarnKey) :
    Step env k s (afterTick cfg env n s) := by
  have hcalls : (afterTick cfg env n s).calls = takeThrough env.stops (plan cfg env n) :=
    calls_tick cfg env n s.fresh
  by_cases hrec : Recovered env (afterTick cfg env n s).calls k
  · -- no call emitted it, so it was not sent
    have hcount : (afterTick cfg env n s).sent.count k = 0 := by
      obtain ⟨made, hmade, hsent⟩ := tick_emitted k cfg env n s.fresh
      refine hsent.resolve_right fun ⟨c, hc, hk⟩ => hrec.2 c ?_ hk
      exact hmade.symm ▸ hc
    exact ⟨by omega, fun _ => hcount, fun hne => absurd hcount hne, fun _ _ => hrec⟩
  · have hkept : Kept k s.fresh (afterTick cfg env n s) := by
      rw [hcalls] at hrec
      rcases tick_cases cfg env n s.fresh with hsame | ⟨hday, hsession, chains, hchains, hne, hrun⟩
      · rw [afterTick, hsame]
        exact Kept.refl k s.fresh
      · rw [afterTick, hrun]
        exact strategies_kept hrec (h hday hsession chains hchains hne) Or.inr
    cases hs : s.isWarnActive k with
    | true =>
      obtain ⟨ht, hcount⟩ := hkept.active hs
      have hzero : (afterTick cfg env n s).sent.count k = 0 := hcount
      exact ⟨by omega, fun _ => hzero, fun hne => absurd hzero hne, fun _ hoff =>
        absurd (ht.symm.trans hoff) (by simp)⟩
    | false =>
      rcases hkept.inactive hs with ⟨-, hcount⟩ | ⟨ht, hcount⟩
      · have hzero : (afterTick cfg env n s).sent.count k = 0 := hcount
        exact ⟨by omega, fun _ => hzero, fun hne => absurd hzero hne, fun hon =>
          absurd (hs.symm.trans hon) (by simp)⟩
      · have hone : (afterTick cfg env n s).sent.count k = 1 := hcount
        exact ⟨by omega, fun hon => absurd (hs.symm.trans hon) (by simp), fun _ => ht,
          fun hon => absurd (hs.symm.trans hon) (by simp)⟩

/-! ### Runs of sound ticks -/

/-- In a run of sound ticks from a state with an active row, the WARN is sent only after a
tick on which it had recovered. -/
theorem recovered_before_send {cfg : Config} {k : WarnKey} :
    ∀ {envs : List TickEnv} {n : ℕ} {s : TickState}, RunSound cfg n s envs → s.isWarnActive k = true →
      ∀ {j : ℕ} {o : TickEnv × TickState}, (run cfg n s envs)[j]? = some o → k ∈ o.2.sent →
        ∃ m, ∃ o' : TickEnv × TickState, m < j ∧ (run cfg n s envs)[m]? = some o' ∧
          Recovered o'.1 o'.2.calls k
  | [], _, _, _, _, _, _, hj, _ => absurd hj (by simp [run])
  | env :: envs, n, s, hsound, hactive, j, o, hj, hsent => by
    have hstep := step_of_sound hsound.1 k
    cases j with
    | zero =>
      simp only [run, List.getElem?_cons_zero, Option.some.injEq] at hj
      rw [← hj] at hsent
      exact absurd (List.count_pos_iff.mpr hsent) (by rw [hstep.silent hactive]; omega)
    | succ j =>
      cases hafter : (afterTick cfg env n s).isWarnActive k with
      | false => exact ⟨0, _, by omega, rfl, hstep.recovered hactive hafter⟩
      | true =>
        obtain ⟨m, o', hm, ho', hrec⟩ := recovered_before_send hsound.2 hafter hj hsent
        exact ⟨m + 1, o', by omega, ho', hrec⟩

theorem count_sent_le {cfg : Config} {k : WarnKey} :
    ∀ {envs : List TickEnv} {n : ℕ} {s : TickState}, RunSound cfg n s envs →
      ∀ {i : ℕ} {o : TickEnv × TickState}, (run cfg n s envs)[i]? = some o → o.2.sent.count k ≤ 1
  | [], _, _, _, _, _, hi => absurd hi (by simp [run])
  | env :: envs, n, s, hsound, i, o, hi => by
    cases i with
    | zero =>
      simp only [run, List.getElem?_cons_zero, Option.some.injEq] at hi
      rw [← hi]
      exact (step_of_sound hsound.1 k).count_le
    | succ i => exact count_sent_le hsound.2 hi

theorem recovered_between {cfg : Config} {k : WarnKey} :
    ∀ {envs : List TickEnv} {n : ℕ} {s : TickState}, RunSound cfg n s envs →
      ∀ {i j : ℕ} {o o' : TickEnv × TickState}, i < j → (run cfg n s envs)[i]? = some o →
        (run cfg n s envs)[j]? = some o' → k ∈ o.2.sent → k ∈ o'.2.sent →
          ∃ m, ∃ o'' : TickEnv × TickState, i < m ∧ m < j ∧ (run cfg n s envs)[m]? = some o'' ∧
            Recovered o''.1 o''.2.calls k
  | [], _, _, _, _, _, _, _, _, hi, _, _, _ => absurd hi (by simp [run])
  | env :: envs, n, s, hsound, i, j, o, o', hlt, hi, hj, hsent, hsent' => by
    obtain ⟨j, rfl⟩ := Nat.exists_eq_succ_of_ne_zero (by omega : j ≠ 0)
    cases i with
    | zero =>
      simp only [run, List.getElem?_cons_zero, Option.some.injEq] at hi
      rw [← hi] at hsent
      have hactive := (step_of_sound hsound.1 k).active (Nat.ne_of_gt (List.count_pos_iff.mpr hsent))
      obtain ⟨m, o'', hm, ho'', hrec⟩ := recovered_before_send hsound.2 hactive hj hsent'
      exact ⟨m + 1, o'', by omega, by omega, ho'', hrec⟩
    | succ i =>
      obtain ⟨m, o'', him, hmj, ho'', hrec⟩ := recovered_between hsound.2 (by omega) hi hj hsent hsent'
      exact ⟨m + 1, o'', by omega, by omega, ho'', hrec⟩

/-- **In a run of sound ticks a WARN is sent once per episode.** -/
theorem warned_once_of_sound {cfg : Config} {n : ℕ} {s : TickState} {envs : List TickEnv}
    (h : RunSound cfg n s envs) : WarnedOnce (run cfg n s envs) :=
  ⟨fun _ _ hi _ => count_sent_le h hi, fun _ _ _ _ _ hlt hi hj hsent hsent' =>
    recovered_between h hlt hi hj hsent hsent'⟩

/-! ### An outage in between -/

/-- Two puts of different expiries. -/
def twoExpiries : PaperTrades :=
  ((PaperTrades.empty.recordTrade (soldLeg "short_put" "NSE_FO|NIFTY30JUN2026PE" shortPut_ne keyJunePut_ne)).1.recordTrade
    (soldLeg "short_put_far" "NSE_FO|NIFTY28JUL2026PE" (by decide) (by decide))).1

/-- The chain of the July put, and of the June put if it is `there`. -/
def juneOr (there : Bool) (exp : Date) : ChainAnswer :=
  if there || Date.ofYmd 2026 7 28 = some exp then .chain ⟨24000, exp, Dict.empty⟩ else .dataFetchError

/-- A WARN about the June put. -/
def juneWarn : RoutedEvent where
  event :=
    { eventType := "DELTA_WARN", severity := .warn, description := "", payload := [("leg_role", .str "short_put")] }

/-- A tick with both puts, with or without the June chain, on which the WARN holds or not. -/
def juneTick (there holds : Bool) : TickEnv where
  ledger := twoExpiries
  fetchChain := juneOr there
  marketToday := 739791
  checkSignals := fun _ chain _ =>
    .events (if holds && Date.ofYmd 2026 6 30 = some chain.expiry then [juneWarn] else [])

/-- The WARN is sent again after a tick without the June chain. -/
theorem outage_not_warned_once :
    ¬ WarnedOnce (run oneStrategy 0 TickState.initial [juneTick true true, juneTick false true, juneTick true true]) := by
  intro h
  obtain ⟨m, o, hlt, hgt, ho, ⟨c, hc, heval⟩, -⟩ :=
    h.2 0 2 _ _ ⟨"paper_csp_nifty_v1", "DELTA_WARN", "short_put", 739797⟩
    (by omega) rfl rfl (by decide +kernel) (by decide +kernel)
  obtain rfl : m = 1 := by omega
  obtain rfl := Option.some.inj ho
  revert c
  decide +kernel

/-- With the chain there, and the condition off on it, both sends are right. -/
theorem warned_once_of_sound_recovery :
    WarnedOnce (run oneStrategy 0 TickState.initial [juneTick true true, juneTick true false, juneTick true true]) :=
  warned_once_of_sound (by decide +kernel)

end NiftyShield.Strategy.Monitor
