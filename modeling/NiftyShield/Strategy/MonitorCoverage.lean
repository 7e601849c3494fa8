import NiftyShield.Paper.Writes
import NiftyShield.Strategy.Monitor

/-!
# Which positions a tick evaluates

A tick plans its calls of `check_signals` before it makes any: the groups of every due
strategy for which a chain was fetched (`plan`). It makes them in order up to the first
whose routing raises (`calls_tick`).

A position is in a planned call of its strategy exactly once if all positions of the
strategy resolve to an expiry, or none does. When some do and some do not, the source's
comment has the others "trigger the fallback path", but the fallback is only taken when no
group is left.

## What is proved

`all_monitored_iff`: on a market-hours tick on which the chain of every resolvable expiry
is available, each open position of each due strategy is evaluated exactly once if and
only if no strategy mixes the two kinds, the fallback has a chain, and no routing exception
leaves a call with positions unmade.
-/

namespace NiftyShield.Strategy.Monitor

open NiftyShield.Instruments NiftyShield.Lib NiftyShield.Lib.Raising NiftyShield.Paper

/-! ### The plan of a tick -/

/-- The calls planned for a strategy. -/
def plannedCalls (cfg : Config) (env : TickEnv) (chains : List (Date × OptionChain)) (s : Registered × ℕ) : List Call :=
  (expiryGroups cfg chains (env.positionsOf s.1.strategyName)).filterMap fun g =>
    (chainOf chains g.1).map fun chain => ⟨s.1, s.2, chain, g.2⟩

/-- The calls planned for a tick. -/
def plan (cfg : Config) (env : TickEnv) (n : ℕ) : List Call :=
  if env.tradingDay = true ∧ env.marketSession = true then
    match env.fetchChains cfg (duePositions cfg env n) with
    | none | some [] => []
    | some chains => (cfg.dueStrategies n).flatMap (plannedCalls cfg env chains)
  else []

/-- Routing the events of the call ends the tick. -/
def TickEnv.stops (env : TickEnv) (c : Call) : Bool :=
  match env.checkSignals c.index c.chain c.positions with
  | .raised => false
  | .events es => es.any (RoutedEvent.endsTick c.strategy)

/-- Routing one event makes no call. -/
theorem routeEvent_keeps_calls (strategy : Registered) (index : ℕ) (chain : OptionChain)
    (positions : List PaperPosition) (r : RoutedEvent) :
    Keeps (fun s t => t.calls = s.calls) (routeEvent strategy index chain positions r) := by
  intro s
  unfold routeEvent
  split
  · rfl
  cases r.event.severity with
  | info => rfl
  | warn =>
    simp only [updates_run]
    split <;> rfl
  | action =>
    simp only
    split
    · cases autoAction r.event.payload <;> rfl
    · cases Payload.jsonDumps r.event.payload <;> rfl

/-- Routing one event raises exactly when it ends the tick. -/
theorem routeEvent_raisesIff (strategy : Registered) (index : ℕ) (chain : OptionChain)
    (positions : List PaperPosition) (r : RoutedEvent) :
    RaisesIff (r.endsTick strategy) (routeEvent strategy index chain positions r) := by
  intro s
  unfold routeEvent RoutedEvent.endsTick
  cases hraises : r.raises with
  | true => simp [throw_run]
  | false =>
    simp only [Bool.false_eq_true, if_false, Bool.false_or]
    cases r.event.severity with
    | info => simp [pure_run]
    | warn => simp [updates_run]
    | action =>
      simp only
      split
      · cases autoAction r.event.payload with
        | none => simp [fromOption, bind_run, throw_run]
        | some action => simp [fromOption, bind_run, pure_run, updates_run]
      · cases Payload.jsonDumps r.event.payload with
        | none => simp [fromOption, bind_run, throw_run]
        | some council => simp [fromOption, bind_run, pure_run, updates_run]

/-- A group is one planned call, if its chain is there. -/
theorem processGroup_performs (env : TickEnv) (chains : List (Date × OptionChain))
    (strategy : Registered) (index : ℕ)
    (g : Date × List PaperPosition) :
    Performs TickState.calls env.stops
      ((chainOf chains g.1).map fun chain => (⟨strategy, index, chain, g.2⟩ : Call)).toList
      (processGroup env chains strategy index g) := by
  unfold processGroup
  cases chainOf chains g.1 with
  | none => exact performs_pure ()
  | some chain =>
    simp only [Option.map_some, Option.toList_some]
    refine ⟨fun s => ?_, ?_⟩
    · rw [bind_run, updates_run]
      simp only [takeThrough, ite_self]
      cases henv : env.checkSignals index chain g.2 with
      | raised => rfl
      | events es =>
        have hkeeps : Keeps (fun s t : TickState => t.calls = s.calls)
            (es.forM (routeEvent strategy index chain g.2)) :=
          keeps_forM (R := fun s t : TickState => t.calls = s.calls) (fun _ => rfl)
            (fun _ _ _ h h' => h'.trans h)
            fun r _ => routeEvent_keeps_calls strategy index chain g.2 r
        exact hkeeps _
    · have hstops : [(⟨strategy, index, chain, g.2⟩ : Call)].any env.stops =
          (false || env.stops ⟨strategy, index, chain, g.2⟩) := by simp
      rw [hstops]
      refine raisesIff_bind (fun s => by simp [updates_run]) fun _ => ?_
      unfold TickEnv.stops
      simp only
      cases env.checkSignals index chain g.2 with
      | raised => exact raisesIff_pure ()
      | events es => exact raisesIff_forM fun r _ => routeEvent_raisesIff strategy index chain g.2 r

/-- A due strategy makes its planned calls. -/
theorem processStrategy_performs (cfg : Config) (env : TickEnv) (chains : List (Date × OptionChain))
    (s : Registered × ℕ) :
    Performs TickState.calls env.stops (plannedCalls cfg env chains s)
    (processStrategy cfg env chains s) := by
  have hbody : Performs TickState.calls env.stops
      ([] ++ ((expiryGroups cfg chains (env.positionsOf s.1.strategyName)).flatMap fun g =>
        ((chainOf chains g.1).map fun chain => (⟨s.1, s.2, chain, g.2⟩ : Call)).toList) ++ [])
      (processStrategy cfg env chains s) := by
    rw [List.append_assoc]
    refine performs_bind (performs_of_ok fun st => ⟨_, _, rfl, rfl⟩) fun _ => ?_
    refine performs_bind (performs_forM fun g _ => processGroup_performs env chains s.1 s.2 g) fun _ => ?_
    exact performs_of_ok fun st => ⟨_, _, rfl, rfl⟩
  rw [List.nil_append, List.append_nil] at hbody
  rwa [plannedCalls, List.filterMap_eq_flatMap_toList]

/-- **A tick makes its planned calls in order**, up to the first whose routing raises. -/
theorem calls_tick (cfg : Config) (env : TickEnv) (n : ℕ) (s : TickState) :
    (finalState (tick cfg env n s)).calls = s.calls ++ takeThrough env.stops (plan cfg env n) := by
  unfold tick plan
  cases htrading : env.tradingDay with
  | false => simp [pure_run, takeThrough]
  | true =>
    cases hsession : env.marketSession with
    | false => simp [pure_run, takeThrough]
    | true =>
      simp only [Bool.true_eq_false, if_false, and_self, if_true]
      cases env.fetchChains cfg (duePositions cfg env n) with
      | none => simp [throw_run, takeThrough]
      | some chains =>
        cases chains with
        | nil => simp [pure_run, takeThrough]
        | cons c cs =>
          exact (performs_forM fun st _ => processStrategy_performs cfg env (c :: cs) st).1 s

/-! ### The positions of a strategy -/

/-- The position's expiry resolves. -/
def Config.resolves (cfg : Config) (p : PaperPosition) : Prop := (cfg.positionExpiry p).isSome = true

theorem open_of_mem_positionsOf {env : TickEnv} {name : String} {p : PaperPosition}
    (h : p ∈ env.positionsOf name) :
    p.netQty ≠ 0 := (getPositions_open h).2.1

theorem mem_datedPositions {cfg : Config} {positions : List PaperPosition} {exp : Date}
    {p : PaperPosition} :
    (exp, p) ∈ cfg.datedPositions positions ↔ p ∈ positions ∧ p.netQty ≠ 0 ∧
      cfg.positionExpiry p = some exp := by
  unfold Config.datedPositions
  rw [List.mem_filterMap]
  constructor
  · rintro ⟨q, hq, hsome⟩
    split at hsome
    · exact absurd hsome (by simp)
    next hopen =>
      obtain ⟨e, he, heq⟩ := Option.map_eq_some_iff.mp hsome
      obtain ⟨rfl, rfl⟩ := Prod.mk.inj heq
      exact ⟨hq, hopen, he⟩
  · rintro ⟨hp, hopen, hexp⟩
    exact ⟨p, hp, by rw [if_neg hopen, hexp]; rfl⟩

/-- A position is in the group of its expiry and no other. -/
theorem mem_group_datedPositions {cfg : Config} {positions : List PaperPosition} {exp : Date}
    {p : PaperPosition} :
    p ∈ (Grouping.group Prod.fst (cfg.datedPositions positions) exp).map Prod.snd ↔
      p ∈ positions ∧ p.netQty ≠ 0 ∧ cfg.positionExpiry p = some exp := by
  rw [← mem_datedPositions, List.mem_map]
  constructor
  · rintro ⟨⟨e, q⟩, he, rfl⟩
    obtain ⟨hmem, rfl⟩ := Grouping.mem_group.mp he
    exact hmem
  · intro h
    exact ⟨(exp, p), Grouping.mem_group.mpr ⟨h, rfl⟩, rfl⟩

theorem groups_eq_nil_iff {cfg : Config} {env : TickEnv} {name : String} :
    cfg.groupPositionsByExpiry (env.positionsOf name) = [] ↔ ∀ p ∈ env.positionsOf name,
      ¬ cfg.resolves p := by
  rw [Config.groupPositionsByExpiry, List.map_eq_nil_iff, List.eq_nil_iff_forall_not_mem]
  simp only [Grouping.mem_keys]
  constructor
  · intro h p hp hres
    obtain ⟨exp, hexp⟩ := Option.isSome_iff_exists.mp hres
    exact h exp ⟨(exp, p), mem_datedPositions.mpr ⟨hp, open_of_mem_positionsOf hp, hexp⟩, rfl⟩
  · rintro h exp ⟨⟨e, p⟩, hmem, -⟩
    obtain ⟨hp, -, hexp⟩ := mem_datedPositions.mp hmem
    exact h p hp (by rw [Config.resolves, hexp]; rfl)

/-- The positions of a planned call are the strategy's. -/
theorem mem_plannedCalls {cfg : Config} {env : TickEnv} {chains : List (Date × OptionChain)}
    {s : Registered × ℕ}
    {c : Call} (h : c ∈ plannedCalls cfg env chains s) :
    c.strategy = s.1 ∧ c.index = s.2 ∧ ∀ p ∈ c.positions, p ∈ env.positionsOf s.1.strategyName := by
  obtain ⟨g, hg, hcall⟩ := List.mem_filterMap.mp h
  obtain ⟨chain, -, rfl⟩ := Option.map_eq_some_iff.mp hcall
  refine ⟨rfl, rfl, fun p hp => ?_⟩
  unfold expiryGroups at hg
  split at hg
  · simp only [Option.mem_toList, Option.map_eq_some_iff] at hg
    obtain ⟨c, -, rfl⟩ := hg
    exact hp
  · obtain ⟨exp, -, rfl⟩ := List.mem_map.mp hg
    exact (mem_group_datedPositions.mp hp).1

/-! ### Counting calls -/

/-- The call evaluates a position for the strategy at a place of the registry. -/
def isCallFor (index : ℕ) (p : PaperPosition) (c : Call) : Bool := c.index = index && p ∈ c.positions

private theorem countP_flatMap_of_unique {α β : Type} {q : β → Bool} {f : α → List β} {a : α} :
    ∀ {l : List α}, l.Nodup → a ∈ l → (∀ b ∈ l, b ≠ a → (f b).countP q = 0) →
      (l.flatMap f).countP q = (f a).countP q
  | [], _, ha, _ => absurd ha (by simp)
  | b :: l, hnodup, ha, hother => by
    obtain ⟨hb, hl⟩ := List.nodup_cons.mp hnodup
    rw [List.flatMap_cons, List.countP_append]
    by_cases hba : b = a
    · have hzero : (l.flatMap f).countP q = 0 := by
        rw [List.countP_flatMap, List.sum_eq_zero]
        intro n hn
        obtain ⟨c, hc, rfl⟩ := List.mem_map.mp hn
        exact hother c (List.mem_cons_of_mem b hc) fun hca => hb (hba ▸ hca ▸ hc)
      rw [hzero, hba, Nat.add_zero]
    · have hal : a ∈ l := (List.mem_cons.mp ha).resolve_left (Ne.symm hba)
      rw [hother b List.mem_cons_self hba, Nat.zero_add,
        countP_flatMap_of_unique hl hal fun c hc => hother c (List.mem_cons_of_mem b hc)]

/-- If all positions resolve and their chains are there, each is in the one call of its
expiry. -/
theorem count_of_all_resolve {cfg : Config} {env : TickEnv} {chains : List (Date × OptionChain)}
    {s : Registered × ℕ}
    (hchains : ∀ p ∈ env.positionsOf s.1.strategyName, ∀ exp, cfg.positionExpiry p = some exp →
      (chainOf chains exp).isSome = true)
    {p : PaperPosition} (hp : p ∈ env.positionsOf s.1.strategyName) (hres : cfg.resolves p) :
    (plannedCalls cfg env chains s).countP (isCallFor s.2 p) = 1 := by
  obtain ⟨exp, hexp⟩ := Option.isSome_iff_exists.mp hres
  have hgroups : expiryGroups cfg chains (env.positionsOf s.1.strategyName) =
      cfg.groupPositionsByExpiry (env.positionsOf s.1.strategyName) := by
    unfold expiryGroups
    split
    next hnil => exact absurd hres (groups_eq_nil_iff.mp hnil p hp)
    next => rfl
  have hkey : exp ∈ Grouping.keys Prod.fst (cfg.datedPositions (env.positionsOf s.1.strategyName)) :=
    Grouping.mem_keys.mpr ⟨(exp, p), mem_datedPositions.mpr ⟨hp, open_of_mem_positionsOf hp, hexp⟩, rfl⟩
  rw [plannedCalls, hgroups, Config.groupPositionsByExpiry, List.filterMap_map,
    List.filterMap_eq_flatMap_toList,
    countP_flatMap_of_unique (Grouping.nodup_keys _ _) hkey]
  · obtain ⟨chain, hchain⟩ := Option.isSome_iff_exists.mp (hchains p hp exp hexp)
    have hin := mem_group_datedPositions.mpr ⟨hp, open_of_mem_positionsOf hp, hexp⟩
    simp [hchain, isCallFor, -List.mem_map, hin]
  · intro e he hne
    rw [List.countP_eq_zero]
    intro c hc
    obtain ⟨chain, -, rfl⟩ := Option.map_eq_some_iff.mp (Option.mem_toList.mp hc)
    have hout : p ∉ (Grouping.group Prod.fst (cfg.datedPositions (env.positionsOf s.1.strategyName))
        e).map Prod.snd :=
      fun hin => hne (Option.some.inj ((mem_group_datedPositions.mp hin).2.2.symm.trans hexp))
    simp [isCallFor, -List.mem_map, hout]

/-- If no position resolves, all are in the one call on the first chain. -/
theorem count_of_none_resolves {cfg : Config} {env : TickEnv} {c : Date × OptionChain}
    {cs : List (Date × OptionChain)}
    {s : Registered × ℕ} (hnone : ∀ p ∈ env.positionsOf s.1.strategyName, ¬ cfg.resolves p)
    {p : PaperPosition} (hp : p ∈ env.positionsOf s.1.strategyName) :
    (plannedCalls cfg env (c :: cs) s).countP (isCallFor s.2 p) = 1 := by
  have hgroups : expiryGroups cfg (c :: cs) (env.positionsOf s.1.strategyName) =
      [(c.1, env.positionsOf s.1.strategyName)] := by
    unfold expiryGroups
    rw [groups_eq_nil_iff.mpr hnone]
    rfl
  have hchain : chainOf (c :: cs) c.1 = some c.2 := by simp [chainOf]
  simp [plannedCalls, hgroups, hchain, isCallFor, hp]

/-- If some position resolves, one that does not is in no call. -/
theorem count_of_mixed {cfg : Config} {env : TickEnv} {chains : List (Date × OptionChain)}
    {s : Registered × ℕ}
    {p q : PaperPosition} (hq : q ∈ env.positionsOf s.1.strategyName) (hqres : cfg.resolves q)
    (hpres : ¬ cfg.resolves p) : (plannedCalls cfg env chains s).countP (isCallFor s.2 p) = 0 := by
  rw [List.countP_eq_zero]
  intro c hc
  obtain ⟨g, hg, hcall⟩ := List.mem_filterMap.mp hc
  obtain ⟨chain, -, rfl⟩ := Option.map_eq_some_iff.mp hcall
  have hout : p ∉ g.2 := by
    unfold expiryGroups at hg
    split at hg
    next hnil => exact absurd hqres (groups_eq_nil_iff.mp hnil q hq)
    next =>
      obtain ⟨exp, -, rfl⟩ := List.mem_map.mp hg
      intro hin
      exact hpres (by rw [Config.resolves, (mem_group_datedPositions.mp hin).2.2]; rfl)
  simp [isCallFor, hout]

/-! ### The due strategies -/

theorem nodup_dueStrategies (cfg : Config) (n : ℕ) : (cfg.dueStrategies n).Nodup :=
  (List.Nodup.of_map Prod.snd (by rw [List.zipIdx_map_snd]; exact List.nodup_range')).filter _

/-- A place of the registry has one strategy. -/
theorem dueStrategies_inj {cfg : Config} {n : ℕ} {s t : Registered × ℕ} (hs : s ∈ cfg.dueStrategies n)
    (ht : t ∈ cfg.dueStrategies n) (h : s.2 = t.2) : s = t := by
  have hs' := List.mem_zipIdx_iff_getElem?.mp (List.mem_of_mem_filter hs)
  have ht' := List.mem_zipIdx_iff_getElem?.mp (List.mem_of_mem_filter ht)
  rw [h] at hs'
  exact Prod.ext (Option.some.inj (hs'.symm.trans ht')) h

/-- The calls planned for a due strategy are those of its place. -/
theorem count_flatMap_plannedCalls {cfg : Config} {env : TickEnv}
    {chains : List (Date × OptionChain)} {n : ℕ}
    {s : Registered × ℕ} (hs : s ∈ cfg.dueStrategies n) (p : PaperPosition) :
    ((cfg.dueStrategies n).flatMap (plannedCalls cfg env chains)).countP (isCallFor s.2 p) =
      (plannedCalls cfg env chains s).countP (isCallFor s.2 p) := by
  refine countP_flatMap_of_unique (nodup_dueStrategies cfg n) hs fun t ht hne => ?_
  rw [List.countP_eq_zero]
  intro c hc
  have hindex := (mem_plannedCalls hc).2.1
  have hother : t.2 ≠ s.2 := fun h => hne (dueStrategies_inj ht hs h)
  simp [isCallFor, hindex, hother]

/-! ### The chains of a tick -/

/-- The chain of every resolvable expiry of the due positions is available. -/
def ChainsAvailable (cfg : Config) (env : TickEnv) (n : ℕ) : Prop :=
  ∀ p ∈ duePositions cfg env n, ∀ exp, cfg.positionExpiry p = some exp → ∃ c, env.fetchChain exp = .chain c

theorem fetchEach_eq {env : TickEnv} : ∀ {exps : List Date},
    (∀ exp ∈ exps, ∃ c, env.fetchChain exp = .chain c) →
    ∃ chains, env.fetchEach exps = some chains ∧ chains.map Prod.fst = exps
  | [], _ => ⟨[], rfl, rfl⟩
  | exp :: exps, h => by
    obtain ⟨c, hc⟩ := h exp List.mem_cons_self
    obtain ⟨chains, hchains, hkeys⟩ := fetchEach_eq fun e he => h e (List.mem_cons_of_mem exp he)
    exact ⟨(exp, c) :: chains, by simp [TickEnv.fetchEach, hc, hchains], by simp [hkeys]⟩

theorem chainOf_isSome_iff {chains : List (Date × OptionChain)} {exp : Date} :
    (chainOf chains exp).isSome = true ↔ exp ∈ chains.map Prod.fst := by
  simp [chainOf]

theorem mem_wantedDates {cfg : Config} {env : TickEnv} {n : ℕ} {exp : Date} :
    exp ∈ env.setOrder (Grouping.keys Prod.fst (cfg.datedPositions (duePositions cfg env n))) ↔
      ∃ p ∈ duePositions cfg env n, p.netQty ≠ 0 ∧ cfg.positionExpiry p = some exp := by
  rw [(env.setOrder_perm _).mem_iff, Grouping.mem_keys]
  constructor
  · rintro ⟨⟨e, p⟩, hmem, rfl⟩
    obtain ⟨hp, hopen, hexp⟩ := mem_datedPositions.mp hmem
    exact ⟨p, hp, hopen, hexp⟩
  · rintro ⟨p, hp, hopen, hexp⟩
    exact ⟨(exp, p), mem_datedPositions.mpr ⟨hp, hopen, hexp⟩, rfl⟩

theorem open_of_mem_duePositions {cfg : Config} {env : TickEnv} {n : ℕ} {p : PaperPosition}
    (h : p ∈ duePositions cfg env n) : p.netQty ≠ 0 := by
  obtain ⟨s, -, hp⟩ := List.mem_flatMap.mp h
  exact open_of_mem_positionsOf hp

/-- If some due position resolves, every resolvable expiry gets its chain. -/
theorem fetchChains_of_resolves {cfg : Config} {env : TickEnv} {n : ℕ} (havail : ChainsAvailable cfg env n)
    {p : PaperPosition} (hp : p ∈ duePositions cfg env n) (hres : cfg.resolves p) :
    ∃ c cs, env.fetchChains cfg (duePositions cfg env n) = some (c :: cs) ∧
      ∀ q ∈ duePositions cfg env n, ∀ exp, cfg.positionExpiry q = some exp →
        (chainOf (c :: cs) exp).isSome = true := by
  obtain ⟨exp, hexp⟩ := Option.isSome_iff_exists.mp hres
  have hmem := mem_wantedDates.mpr ⟨p, hp, open_of_mem_duePositions hp, hexp⟩
  have hwanted : env.wantedExpiries cfg (duePositions cfg env n) =
      env.setOrder (Grouping.keys Prod.fst (cfg.datedPositions (duePositions cfg env n))) := by
    unfold TickEnv.wantedExpiries
    split
    next hnil =>
      rw [hnil] at hmem
      exact absurd hmem (by simp)
    next => rfl
  have hall : ∀ e ∈ env.setOrder (Grouping.keys Prod.fst (cfg.datedPositions (duePositions cfg env n))),
      ∃ c, env.fetchChain e = .chain c := by
    intro e he
    obtain ⟨q, hq, -, hqexp⟩ := mem_wantedDates.mp he
    exact havail q hq e hqexp
  obtain ⟨chains, hchains, hkeys⟩ := fetchEach_eq hall
  have hfetch : env.fetchChains cfg (duePositions cfg env n) = some chains := by
    unfold TickEnv.fetchChains
    rw [hwanted]
    split
    next hnil =>
      rw [hnil] at hmem
      exact absurd hmem (by simp)
    next => exact hchains
  cases chains with
  | nil =>
    rw [← hkeys] at hmem
    exact absurd hmem (by simp)
  | cons c cs =>
    refine ⟨c, cs, hfetch, fun q hq e hqexp => ?_⟩
    rw [chainOf_isSome_iff, hkeys]
    exact mem_wantedDates.mpr ⟨q, hq, open_of_mem_duePositions hq, hqexp⟩

/-- If no due position resolves, only the date of `expiry_fn` is asked for. -/
theorem fetchChains_of_none_resolves {cfg : Config} {env : TickEnv} {n : ℕ}
    (hnone : ∀ p ∈ duePositions cfg env n, ¬ cfg.resolves p) :
    env.fetchChains cfg (duePositions cfg env n) =
      match env.expiryFn with
      | some (some d) => env.fetchEach [d]
      | _ => some [(env.marketToday, emptyChain)] := by
  have hnil : env.setOrder (Grouping.keys Prod.fst (cfg.datedPositions (duePositions cfg env n))) = [] := by
    refine List.eq_nil_iff_forall_not_mem.mpr fun exp hmem => ?_
    obtain ⟨p, hp, -, hexp⟩ := mem_wantedDates.mp hmem
    exact hnone p hp (by rw [Config.resolves, hexp]; rfl)
  unfold TickEnv.fetchChains TickEnv.wantedExpiries
  rw [hnil]
  rcases env.expiryFn with _ | _ | d <;> rfl

/-! ### Every position evaluated once -/

/-- The calls a tick makes. -/
def callsMade (cfg : Config) (env : TickEnv) (n : ℕ) (s : TickState) : List Call :=
  (finalState (tick cfg env n { s with calls := [] })).calls

theorem callsMade_eq (cfg : Config) (env : TickEnv) (n : ℕ) (s : TickState) :
    callsMade cfg env n s = takeThrough env.stops (plan cfg env n) := by
  rw [callsMade, calls_tick, List.nil_append]

/-- Each open position of each due strategy is passed to the strategy's `check_signals` in
exactly one call. -/
def AllMonitored (cfg : Config) (env : TickEnv) (n : ℕ) (s : TickState) : Prop :=
  ∀ r ∈ cfg.dueStrategies n, ∀ p ∈ env.positionsOf r.1.strategyName,
    (callsMade cfg env n s).countP (isCallFor r.2 p) = 1

/-- **When a tick evaluates everything.** -/
structure Monitorable (cfg : Config) (env : TickEnv) (n : ℕ) : Prop where
  /-- No strategy has positions of both kinds. -/
  unmixed : ∀ r ∈ cfg.dueStrategies n, (∀ p ∈ env.positionsOf r.1.strategyName, cfg.resolves p) ∨
    ∀ p ∈ env.positionsOf r.1.strategyName, ¬ cfg.resolves p
  /-- If no position resolves, the expiry of `expiry_fn` has a chain. -/
  fallback : duePositions cfg env n ≠ [] → (∀ p ∈ duePositions cfg env n, ¬ cfg.resolves p) →
    ∀ d, env.expiryFn = some (some d) → ∃ c, env.fetchChain d = .chain c
  /-- No routing exception leaves a call with positions unmade. -/
  uncut : ∀ pre c post, plan cfg env n = pre ++ c :: post → env.stops c = true → ∀ c' ∈ post, c'.positions = []

section Coverage

variable {cfg : Config} {env : TickEnv} {n : ℕ}

/-- A planned call is one of a due strategy, with positions of that strategy. -/
theorem mem_plan {c : Call} (h : c ∈ plan cfg env n) :
    ∃ r ∈ cfg.dueStrategies n, c.index = r.2 ∧ ∀ p ∈ c.positions, p ∈ env.positionsOf r.1.strategyName := by
  unfold plan at h
  split at h
  · split at h
    · exact absurd h (by simp)
    · exact absurd h (by simp)
    · obtain ⟨r, hr, hc⟩ := List.mem_flatMap.mp h
      obtain ⟨-, hindex, hpos⟩ := mem_plannedCalls hc
      exact ⟨r, hr, hindex, hpos⟩
  · exact absurd h (by simp)

/-- With unmixed strategies and a chain for the fallback, every due position is in exactly
one planned call. -/
theorem count_plan (hopen : env.tradingDay = true ∧ env.marketSession = true)
    (havail : ChainsAvailable cfg env n)
    (hunmixed : ∀ r ∈ cfg.dueStrategies n, (∀ p ∈ env.positionsOf r.1.strategyName, cfg.resolves p) ∨
      ∀ p ∈ env.positionsOf r.1.strategyName, ¬ cfg.resolves p)
    (hfallback : (∀ p ∈ duePositions cfg env n, ¬ cfg.resolves p) →
      ∀ d, env.expiryFn = some (some d) → ∃ c, env.fetchChain d = .chain c)
    {r : Registered × ℕ} (hr : r ∈ cfg.dueStrategies n) {p : PaperPosition}
    (hp : p ∈ env.positionsOf r.1.strategyName) : (plan cfg env n).countP (isCallFor r.2 p) = 1 := by
  have hdue : ∀ q ∈ env.positionsOf r.1.strategyName, q ∈ duePositions cfg env n := fun q hq =>
    List.mem_flatMap.mpr ⟨r, hr, hq⟩
  unfold plan
  rw [if_pos hopen]
  by_cases hsome : ∃ q ∈ duePositions cfg env n, cfg.resolves q
  · obtain ⟨q, hq, hqres⟩ := hsome
    obtain ⟨c, cs, hfetch, hchains⟩ := fetchChains_of_resolves havail hq hqres
    rw [hfetch]
    simp only
    rw [count_flatMap_plannedCalls hr]
    rcases hunmixed r hr with hall | hnone
    · exact count_of_all_resolve (fun q hq => hchains q (hdue q hq)) hp (hall p hp)
    · exact count_of_none_resolves hnone hp
  · have hnone : ∀ q ∈ duePositions cfg env n, ¬ cfg.resolves q := fun q hq hres => hsome ⟨q, hq, hres⟩
    have hfetch : ∃ c cs, env.fetchChains cfg (duePositions cfg env n) = some (c :: cs) := by
      rw [fetchChains_of_none_resolves hnone]
      rcases hfn : env.expiryFn with _ | _ | d
      · exact ⟨_, _, rfl⟩
      · exact ⟨_, _, rfl⟩
      · obtain ⟨c, hc⟩ := hfallback hnone d hfn
        exact ⟨(d, c), [], by simp [TickEnv.fetchEach, hc]⟩
    obtain ⟨c, cs, hfetch⟩ := hfetch
    rw [hfetch]
    simp only
    rw [count_flatMap_plannedCalls hr]
    exact count_of_none_resolves (fun q hq => hnone q (hdue q hq)) hp

/-- Nothing is planned for a position without expiry when a sibling has one. -/
theorem count_plan_of_mixed {r : Registered × ℕ} (hr : r ∈ cfg.dueStrategies n) {p q : PaperPosition}
    (hq : q ∈ env.positionsOf r.1.strategyName) (hqres : cfg.resolves q) (hpres : ¬ cfg.resolves p) :
    (plan cfg env n).countP (isCallFor r.2 p) = 0 := by
  unfold plan
  split
  · split
    · rfl
    · rfl
    · rw [count_flatMap_plannedCalls hr]
      exact count_of_mixed hq hqres hpres
  · rfl

/-- Nothing is planned without a chain. -/
theorem plan_of_no_fallback (hnone : ∀ p ∈ duePositions cfg env n, ¬ cfg.resolves p) {d : Date}
    (hfn : env.expiryFn = some (some d)) (hchain : ¬ ∃ c, env.fetchChain d = .chain c) :
      plan cfg env n = [] := by
  unfold plan
  split
  · rw [fetchChains_of_none_resolves hnone, hfn]
    cases h : env.fetchChain d with
    | chain c => exact absurd ⟨c, h⟩ hchain
    | dataFetchError => simp [TickEnv.fetchEach, h]
    | raises => simp [TickEnv.fetchEach, h]
  · rfl

/-- What a tick makes of its plan is at most the plan. -/
theorem count_callsMade_le (s : TickState) (q : Call → Bool) :
    (callsMade cfg env n s).countP q ≤ (plan cfg env n).countP q := by
  rw [callsMade_eq]
  exact (takeThrough_sublist _ _).countP_le

/-- **Every open position is monitored exactly when** no due strategy mixes positions that
resolve with positions that do not, the fallback has a chain, and no routing exception
leaves a call with positions unmade. -/
theorem all_monitored_iff (s : TickState) (hopen : env.tradingDay = true ∧ env.marketSession = true)
    (havail : ChainsAvailable cfg env n) : AllMonitored cfg env n s ↔ Monitorable cfg env n := by
  constructor
  · intro hmon
    have hunmixed : ∀ r ∈ cfg.dueStrategies n, (∀ p ∈ env.positionsOf r.1.strategyName, cfg.resolves p) ∨
        ∀ p ∈ env.positionsOf r.1.strategyName, ¬ cfg.resolves p := by
      intro r hr
      by_contra hmixed
      obtain ⟨hnotall, hnotnone⟩ := not_or.mp hmixed
      simp only [not_forall, not_not] at hnotall hnotnone
      obtain ⟨p, hp, hpres⟩ := hnotall
      obtain ⟨q, hq, hqres⟩ := hnotnone
      have hle : (callsMade cfg env n s).countP (isCallFor r.2 p) ≤
          (plan cfg env n).countP (isCallFor r.2 p) :=
        count_callsMade_le s _
      rw [hmon r hr p hp, count_plan_of_mixed hr hq hqres hpres] at hle
      omega
    have hfallback : duePositions cfg env n ≠ [] → (∀ p ∈ duePositions cfg env n, ¬ cfg.resolves p) →
        ∀ d, env.expiryFn = some (some d) → ∃ c, env.fetchChain d = .chain c := by
      intro hne hnone d hfn
      by_contra hchain
      obtain ⟨p, hp⟩ := List.exists_mem_of_ne_nil _ hne
      obtain ⟨r, hr, hpr⟩ := List.mem_flatMap.mp hp
      have hcount := hmon r hr p hpr
      rw [callsMade_eq, plan_of_no_fallback hnone hfn hchain] at hcount
      exact absurd hcount (by simp [takeThrough])
    refine ⟨hunmixed, hfallback, fun pre c post hplan hstops c' hc' => ?_⟩
    -- a position of a later call would be in no call made
    by_contra hpos
    obtain ⟨p, hp⟩ := List.exists_mem_of_ne_nil _ hpos
    obtain ⟨r, hr, hindex, hown⟩ := mem_plan (hplan ▸ by simp [hc'] : c' ∈ plan cfg env n)
    have hpr := hown p hp
    have hdue : duePositions cfg env n ≠ [] := List.ne_nil_of_mem (List.mem_flatMap.mpr ⟨r, hr, hpr⟩)
    have hcount := count_plan hopen havail hunmixed (hfallback hdue) hr hpr
    have hlater : 0 < post.countP (isCallFor r.2 p) :=
      List.countP_pos_iff.mpr ⟨c', hc', by simp [isCallFor, hindex, hp]⟩
    have hmade := hmon r hr p hpr
    rw [callsMade_eq, hplan, List.append_cons, takeThrough_append,
      if_pos (by simp [hstops] : (pre ++ [c]).any env.stops = true)] at hmade
    have hle := (takeThrough_sublist env.stops (pre ++ [c])).countP_le (p := isCallFor r.2 p)
    rw [hplan, List.append_cons, List.countP_append] at hcount
    omega
  · rintro ⟨hunmixed, hfallback, huncut⟩ r hr p hp
    have hdue : duePositions cfg env n ≠ [] := List.ne_nil_of_mem (List.mem_flatMap.mpr ⟨r, hr, hp⟩)
    have hcount := count_plan hopen havail hunmixed (hfallback hdue) hr hp
    rw [callsMade_eq]
    cases hany : (plan cfg env n).any env.stops with
    | false => rwa [takeThrough_of_none hany]
    | true =>
      obtain ⟨pre, c, post, hplan, hstops, htake⟩ := takeThrough_eq_of_any hany
      have hzero : post.countP (isCallFor r.2 p) = 0 := by
        rw [List.countP_eq_zero]
        intro c' hc'
        simp [isCallFor, huncut pre c post hplan hstops c' hc']
      rw [hplan, List.append_cons, List.countP_append, hzero, Nat.add_zero] at hcount
      rwa [htake]

end Coverage

/-! ### A position left out -/

/-- A short leg of `paper_csp_nifty_v1`, sold on day 739790. -/
def soldLeg (legRole instrumentKey : String) (hrole : legRole ≠ "") (hkey : instrumentKey ≠ "") : PaperTrade where
  strategyName := "paper_csp_nifty_v1"
  legRole := legRole
  instrumentKey := instrumentKey
  tradeDate := 739790
  action := .sell
  quantity := 65
  price := 100
  paperPrefix := hasPaperPrefix_csp
  legRole_ne := hrole
  instrumentKey_ne := hkey
  quantity_pos := lot_pos
  price_pos := price100_pos

/-- A monitor of that strategy, with an instrument file that lacks the call's key. -/
def oneStrategy : Config where
  strategies := [{ strategyName := "paper_csp_nifty_v1" }]
  lookup := some ⟨[]⟩

/-- A tick with a put whose key names its expiry and a call whose key is a number. -/
def mixedTick : TickEnv where
  ledger := ((PaperTrades.empty.recordTrade (soldLeg "short_put" "NSE_FO|NIFTY30JUN2026PE" shortPut_ne keyJunePut_ne)).1.recordTrade
    (soldLeg "short_call" "NSE_FO|71474" shortCall_ne (by decide))).1
  fetchChain := fun exp => .chain ⟨24000, exp, Dict.empty⟩
  marketToday := 739791
  checkSignals := fun _ _ _ => .events []

theorem mixedTick_available : ChainsAvailable oneStrategy mixedTick 0 := fun _ _ exp _ =>
    ⟨⟨24000, exp, Dict.empty⟩, rfl⟩

/-- The call is in no call of `check_signals`. -/
theorem mixedTick_not_monitored :
    (mixedTick.tradingDay = true ∧ mixedTick.marketSession = true) ∧ ChainsAvailable oneStrategy mixedTick 0 ∧
      ¬ AllMonitored oneStrategy mixedTick 0 TickState.initial := by
  refine ⟨⟨rfl, rfl⟩, mixedTick_available, fun h => ?_⟩
  have hcounts : ∀ r ∈ oneStrategy.dueStrategies 0, ∀ p ∈ mixedTick.positionsOf r.1.strategyName,
      (callsMade oneStrategy mixedTick 0 TickState.initial).countP (isCallFor r.2 p) = 1 := h
  exact absurd hcounts (by decide +kernel)

/-- The equivalence at that tick. -/
theorem all_monitored_iff_mixedTick :
    AllMonitored oneStrategy mixedTick 0 TickState.initial ↔ Monitorable oneStrategy mixedTick 0 :=
  all_monitored_iff TickState.initial ⟨rfl, rfl⟩ mixedTick_available

end NiftyShield.Strategy.Monitor
