import NiftyShield.Strategy.IcCoverage
import Mathlib.Algebra.BigOperators.Group.Finset.Piecewise

/-!
# The events of a plain condor

Which of the events of `IronCondorV2.check_signals` can leave a short naked where nothing
else is in the way: the ledger holds one position a role, its shorts short and its hedges
long, and no trade of today (`Plain`). A full close and a roll keep the cover there. A Zone 2
lock keeps it exactly when both wings it needs are among the legs to open, and no short is
larger than the one lot that hedges it afterwards.

## What is proved

* `Plain.unitsLeft_eq`: what an action leaves of a pair;
* `lock_keepsCover_iff`, `roll_keepsCover`, `close_keepsCover`: the three actions;
* `plain_covered_iff`: the events of a call.
-/

namespace NiftyShield.Strategy.IronCondor

open NiftyShield.Instruments NiftyShield.Lib NiftyShield.Lib.Raising NiftyShield.Paper

variable {ic : Condor} {env : IcEnv} {action : IcAction} {T : PaperTrades}
    {lookup : Option InstrumentLookup}

/-! ### Plain condors -/

/-- A plain condor: one open pair a role, held the way the role says, and no trade of today. -/
structure Plain (T : PaperTrades) (s : String) (today : Date) : Prop where
  /-- A role has one open pair. -/
  single : ∀ k k', T.netQty s k ≠ 0 → T.netQty s k' ≠ 0 → k.1 = k'.1 → k = k'
  /-- The shorts are not long. -/
  short : ∀ (side : Side) (i : String), T.netQty s (side.shortRole, i) ≤ 0
  /-- The hedges are not short. -/
  long : ∀ (side : Side) (i : String), 0 ≤ T.netQty s (side.longRole, i)
  /-- Nothing has been traded today. -/
  quiet : ∀ u : PaperTrade.UniqueKey, u.strategyName = s → u.tradeDate = today → T.hasKey u = false

/-- The positions an action closes are those of the roles to close. -/
theorem Plain.mem_closing (h : Plain T ic.strategyName env.today) {k : String × String} :
    k ∈ (ic.closing (T.getPositions lookup ic.strategyName) action).map PaperPosition.pair ↔
      k.1 ∈ closedRoles .v2 action ∧ T.netQty ic.strategyName k ≠ 0 := by
  rw [Condor.closing, toClose_matched_v2, List.mem_map]
  constructor
  · rintro ⟨p, hp, rfl⟩
    obtain ⟨hp, hrole⟩ := List.mem_filter.mp hp
    exact ⟨(of_decide_eq_true hrole).1, PaperTrades.exists_position_iff.mp ⟨p, hp, rfl⟩⟩
  · rintro ⟨hrole, hopen⟩
    obtain ⟨p, hp, rfl⟩ : ∃ p ∈ T.getPositions lookup ic.strategyName, p.pair = k :=
      PaperTrades.exists_position_iff.mpr hopen
    obtain ⟨q, hq⟩ := positionForRole_isSome hp
    obtain ⟨hqm, hqrole⟩ := mem_of_positionForRole hq
    have hqp : q = p := PaperTrades.pair_injOn hqm hp
      (h.single _ _ (PaperTrades.exists_position_iff.mp ⟨q, hqm, rfl⟩) hopen hqrole)
    exact ⟨p, List.mem_filter.mpr ⟨hp, decide_eq_true ⟨hrole, hqp ▸ hq⟩⟩, rfl⟩

/-- What closing leaves of a pair. -/
theorem Plain.netQty_sub_closedUnits (h : Plain T ic.strategyName env.today) (k : String × String) :
    T.netQty ic.strategyName k - closedUnits ic.strategyName env.today T.hasKey (fun l => l = k)
        (ic.closing (T.getPositions lookup ic.strategyName) action) =
      if k.1 ∈ closedRoles .v2 action then 0 else T.netQty ic.strategyName k := by
  have hsub : (ic.closing (T.getPositions lookup ic.strategyName) action).Sublist
      (T.getPositions lookup ic.strategyName) :=
    List.filter_sublist.trans List.filter_sublist
  rw [closedUnits_pair k hsub fun p _ => h.quiet _ rfl rfl]
  simp only [h.mem_closing]
  by_cases hrole : k.1 ∈ closedRoles .v2 action
  · by_cases hopen : T.netQty ic.strategyName k = 0 <;> simp [hrole, hopen]
  · simp [hrole]

/-- The keys under which legs of a plain condor are opened are free. -/
structure OpensFree (s : String) (today : Date) (taken : PaperTrade.UniqueKey → Bool) : Prop where
  /-- Shorts are sold. -/
  short : ∀ (side : Side) (key : String), taken ⟨s, side.shortRole, key, today, .sell⟩ = false
  /-- Hedges are bought. -/
  long : ∀ (side : Side) (key : String), taken ⟨s, side.longRole, key, today, .buy⟩ = false

/-- A close buys shorts and sells hedges, so it takes no key of an opening. -/
theorem Plain.opensFree (h : Plain T ic.strategyName env.today) (lookup : Option InstrumentLookup)
    (action : IcAction) :
    OpensFree ic.strategyName env.today fun u => T.hasKey u ||
      decide (u ∈ (ic.closing (T.getPositions lookup ic.strategyName) action).map
        (closeKeyOf ic.strategyName env.today)) := by
  have hclosed : ∀ p ∈ ic.closing (T.getPositions lookup ic.strategyName) action,
      p.netQty = T.netQty ic.strategyName (p.legRole, p.instrumentKey) ∧ p.netQty ≠ 0 := by
    intro p hp
    have hmem : p ∈ T.getPositions lookup ic.strategyName :=
      (List.filter_sublist.trans List.filter_sublist).subset hp
    exact ⟨PaperTrades.netQty_of_mem hmem, (getPositions_open hmem).2.1⟩
  constructor
  · intro side key
    rw [h.quiet _ rfl rfl, Bool.false_or, decide_eq_false_iff_not, List.mem_map]
    rintro ⟨p, hp, hkey⟩
    obtain ⟨-, hrole, -, -, hsell⟩ := PaperTrade.UniqueKey.mk.inj hkey
    obtain ⟨hnet, -⟩ := hclosed p hp
    have hshort := h.short side p.instrumentKey
    rw [← hrole, ← hnet] at hshort
    rw [closeAction, if_neg (by omega)] at hsell
    exact absurd hsell (by decide)
  · intro side key
    rw [h.quiet _ rfl rfl, Bool.false_or, decide_eq_false_iff_not, List.mem_map]
    rintro ⟨p, hp, hkey⟩
    obtain ⟨-, hrole, -, -, hbuy⟩ := PaperTrade.UniqueKey.mk.inj hkey
    obtain ⟨hnet, hne⟩ := hclosed p hp
    have hlong := h.long side p.instrumentKey
    rw [← hrole, ← hnet] at hlong
    rw [closeAction, if_pos (by omega)] at hbuy
    exact absurd hbuy (by decide)

/-- **What an action leaves of a pair**: nothing of a closed role, and what it opens. -/
theorem Plain.unitsLeft_eq (h : Plain T ic.strategyName env.today) (lookup : Option InstrumentLookup)
    (action : IcAction) :
    ∃ taken, OpensFree ic.strategyName env.today taken ∧ ∀ k,
      unitsLeft ic.strategyName env.today
        (ic.closing (T.getPositions lookup ic.strategyName) action) (opening action) T k =
        (if k.1 ∈ closedRoles .v2 action then 0 else T.netQty ic.strategyName k) +
          openedUnits ic.strategyName env.today (fun l => l = k) taken (opening action) := by
  refine ⟨_, h.opensFree lookup action, fun k => ?_⟩
  rw [unitsLeft, h.netQty_sub_closedUnits]

/-! ### Legs of one lot -/

/-- Legs to open, one lot a role: shorts sold and hedges bought. -/
structure OneLotEach (legs : List LegSpec) : Prop where
  /-- No role twice. -/
  roles : (legs.map (·.legRole)).Nodup
  /-- One lot. -/
  lot : ∀ leg ∈ legs, leg.quantity = 1
  /-- Opened the way the role says. -/
  side : ∀ leg ∈ legs, ∃ side : Side,
    (leg.legRole = side.shortRole ∧ leg.action = "SELL") ∨
      (leg.legRole = side.longRole ∧ leg.action = "BUY")

/-- The pair of a leg. -/
def legPair (leg : LegSpec) : String × String := (leg.legRole, leg.instrumentKey)

/-- A leg of a pair is its first one, or comes later and not both. -/
private theorem notMem_of_nodup {leg : LegSpec} {legs : List LegSpec} {k : String × String}
    (hnd : ((leg :: legs).map (·.legRole)).Nodup) (hleg : legPair leg = k) :
      ¬∃ l ∈ legs, legPair l = k := by
  rintro ⟨l, hl, rfl⟩
  rw [List.map_cons, List.nodup_cons] at hnd
  exact hnd.1 (List.mem_map.mpr ⟨l, hl, (congrArg Prod.fst hleg).symm⟩)

/-- What legs of one lot each bring into a pair, when the keys of their trades are free. -/
theorem openedUnits_lots {s : String} {today : Date} {k : String × String} {u : ℤ} {legs : List LegSpec} :
    ∀ {taken : PaperTrade.UniqueKey → Bool}, (legs.map (·.legRole)).Nodup →
      (∀ leg ∈ legs, ∃ a, TradeAction.ofValue leg.action = some a ∧
        taken (openKeyOf s today leg a) = false ∧
        (legPair leg = k → legUnits leg a = u)) →
      openedUnits s today (fun l => l = k) taken legs = if ∃ leg ∈ legs, legPair leg = k then u else 0 := by
  induction legs with
  | nil => intro _ _ _; simp [openedUnits]
  | cons leg legs ih =>
    intro taken hnd hlegs
    obtain ⟨⟨a, ha, hfree, hunits⟩, hrest⟩ := List.forall_mem_cons.mp hlegs
    have hnd' := hnd
    rw [List.map_cons, List.nodup_cons] at hnd'
    -- the key just taken is of another role than those to come
    have hlater : ∀ l ∈ legs, ∃ a', TradeAction.ofValue l.action = some a' ∧
        (taken (openKeyOf s today l a') ||
          decide (openKeyOf s today l a' = openKeyOf s today leg a)) = false ∧
          (legPair l = k → legUnits l a' = u) := by
      intro l hl
      obtain ⟨a', ha', hfree', hunits'⟩ := hrest l hl
      have hne : openKeyOf s today l a' ≠ openKeyOf s today leg a := fun heq =>
        hnd'.1 (List.mem_map.mpr ⟨l, hl, congrArg PaperTrade.UniqueKey.legRole heq⟩)
      exact ⟨a', ha', by simp [hfree', hne], hunits'⟩
    rw [openedUnits, ha]
    simp only
    rw [hfree, if_neg Bool.false_ne_true, ih hnd'.2 hlater]
    by_cases hleg : (leg.legRole, leg.instrumentKey) = k
    · rw [if_pos (decide_eq_true hleg), hunits hleg, if_neg (notMem_of_nodup hnd hleg),
        if_pos ⟨leg, List.mem_cons_self, hleg⟩, add_zero]
    · have hmem : (∃ l ∈ leg :: legs, legPair l = k) ↔ ∃ l ∈ legs, legPair l = k := by
        rw [List.exists_mem_cons_iff, or_iff_right (show ¬legPair leg = k from hleg)]
      rw [if_neg (fun h => hleg (of_decide_eq_true h)), zero_add]
      exact if_congr hmem.symm rfl rfl

variable {legs : List LegSpec} {s : String} {today : Date} {taken : PaperTrade.UniqueKey → Bool}

private theorem shortRole_inj {side side' : Side} : side.shortRole = side'.shortRole ↔ side = side' := by
  cases side <;> cases side' <;> decide

private theorem longRole_inj {side side' : Side} : side.longRole = side'.longRole ↔ side = side' := by
  cases side <;> cases side' <;> decide

/-- One lot is sold of a short. -/
theorem OneLotEach.openedUnits_short (h : OneLotEach legs) (hfree : OpensFree s today taken)
    (side : Side) (i : String) :
    openedUnits s today (fun l => l = (side.shortRole, i)) taken legs =
      if ∃ leg ∈ legs, legPair leg = (side.shortRole, i) then -(lotSize : ℤ) else 0 := by
  refine openedUnits_lots h.roles fun leg hleg => ?_
  have hlot := h.lot leg hleg
  obtain ⟨side', ⟨hrole, haction⟩ | ⟨hrole, haction⟩⟩ := h.side leg hleg
  · refine ⟨.sell, haction ▸ rfl, ?_, fun _ => ?_⟩
    · rw [openKeyOf, hrole]
      exact hfree.short side' leg.instrumentKey
    · rw [legUnits, hlot, one_mul]
  · refine ⟨.buy, haction ▸ rfl, ?_, fun hpair => ?_⟩
    · rw [openKeyOf, hrole]
      exact hfree.long side' leg.instrumentKey
    · exact absurd (hrole.symm.trans (congrArg Prod.fst hpair)) (side'.longRole_ne_shortRole side)

/-- One lot is bought of a hedge. -/
theorem OneLotEach.openedUnits_long (h : OneLotEach legs) (hfree : OpensFree s today taken)
    (side : Side) (j : String) :
    openedUnits s today (fun l => l = (side.longRole, j)) taken legs =
      if ∃ leg ∈ legs, legPair leg = (side.longRole, j) then (lotSize : ℤ) else 0 := by
  refine openedUnits_lots h.roles fun leg hleg => ?_
  have hlot := h.lot leg hleg
  obtain ⟨side', ⟨hrole, haction⟩ | ⟨hrole, haction⟩⟩ := h.side leg hleg
  · refine ⟨.sell, haction ▸ rfl, ?_, fun hpair => ?_⟩
    · rw [openKeyOf, hrole]
      exact hfree.short side' leg.instrumentKey
    · exact absurd ((congrArg Prod.fst hpair).symm.trans hrole) (side.longRole_ne_shortRole side')
  · refine ⟨.buy, haction ▸ rfl, ?_, fun _ => ?_⟩
    · rw [openKeyOf, hrole]
      exact hfree.long side' leg.instrumentKey
    · rw [legUnits, hlot, one_mul]

/-- Over the instruments of the legs, a role has one lot or none. -/
theorem OneLotEach.sum_role (h : OneLotEach legs) {K : Finset String}
    (hK : ∀ leg ∈ legs, leg.instrumentKey ∈ K) (role : String) :
    ∑ j ∈ K, (if ∃ leg ∈ legs, legPair leg = (role, j) then (lotSize : ℤ) else 0) =
      if ∃ leg ∈ legs, leg.legRole = role then (lotSize : ℤ) else 0 := by
  by_cases hrole : ∃ leg ∈ legs, leg.legRole = role
  · obtain ⟨leg, hleg, rfl⟩ := hrole
    have hone : ∀ j, (∃ l ∈ legs, legPair l = (leg.legRole, j)) ↔ leg.instrumentKey = j := by
      intro j
      constructor
      · rintro ⟨l, hl, hpair⟩
        obtain rfl := List.inj_on_of_nodup_map h.roles hl hleg (congrArg Prod.fst hpair)
        exact congrArg Prod.snd hpair
      · rintro rfl
        exact ⟨leg, hleg, rfl⟩
    simp only [hone]
    rw [Finset.sum_ite_eq, if_pos (hK leg hleg), if_pos ⟨leg, hleg, rfl⟩]
  · rw [if_neg hrole]
    refine Finset.sum_eq_zero fun j _ => if_neg ?_
    rintro ⟨leg, hleg, hpair⟩
    exact hrole ⟨leg, hleg, congrArg Prod.fst hpair⟩

/-! ### Cover, side by side -/

/-- The instruments include those of the open pairs. -/
theorem mem_instrumentsOf_of_open {k : String × String} (h : T.netQty s k ≠ 0) :
    k.2 ∈ instrumentsOf T lookup s legs := by
  obtain ⟨p, hp, rfl⟩ : ∃ p ∈ T.getPositions lookup s, p.pair = k := PaperTrades.exists_position_iff.mpr h
  exact List.mem_toFinset.mpr (List.mem_append_left _ (List.mem_map_of_mem hp))

/-- **When an action keeps the cover of a plain condor**: on each side, every short that is
not closed and the lot that is sold are at most the hedges that are not closed and the lot
that is bought. -/
theorem Plain.keepsCover_iff (h : Plain T ic.strategyName env.today) (hlegs : OneLotEach (opening action)) :
    KeepsCover ic env lookup (T.getPositions lookup ic.strategyName) action T ↔
      planned ic env (T.getPositions lookup ic.strategyName) action = none ∨
        ∀ side : Side, ∀ i ∈ instrumentsOf T lookup ic.strategyName (opening action),
          (if side.shortRole ∈ closedRoles .v2 action then 0
            else -T.netQty ic.strategyName (side.shortRole, i)) +
              (if ∃ leg ∈ opening action, legPair leg = (side.shortRole, i) then (lotSize : ℤ) else 0) ≤
            (if side.longRole ∈ closedRoles .v2 action then 0
              else ∑ j ∈ instrumentsOf T lookup ic.strategyName (opening action),
                T.netQty ic.strategyName (side.longRole, j)) +
              if ∃ leg ∈ opening action, leg.legRole = side.longRole then (lotSize : ℤ) else 0 := by
  obtain ⟨taken, hfree, hunits⟩ := h.unitsLeft_eq lookup action
  refine or_congr_right (forall_congr' fun side => forall₂_congr fun i _ => ?_)
  have hK : ∀ leg ∈ opening action, leg.instrumentKey ∈ instrumentsOf T lookup ic.strategyName
      (opening action) := fun leg hleg =>
    List.mem_toFinset.mpr (List.mem_append_right _ (List.mem_map_of_mem hleg))
  have hlong : ∀ j, max (unitsLeft ic.strategyName env.today
    (ic.closing (T.getPositions lookup ic.strategyName) action)
      (opening action) T (side.longRole, j)) 0 =
        (if side.longRole ∈ closedRoles .v2 action then 0
          else T.netQty ic.strategyName (side.longRole, j)) +
          if ∃ leg ∈ opening action, legPair leg = (side.longRole, j) then (lotSize : ℤ) else 0 := by
    intro j
    rw [hunits, hlegs.openedUnits_long hfree, max_eq_left]
    have := h.long side j
    split <;> split <;> omega
  rw [Finset.sum_congr rfl fun j _ => hlong j, Finset.sum_add_distrib, hlegs.sum_role hK, hunits,
    hlegs.openedUnits_short hfree]
  refine iff_of_eq (congrArg₂ (· ≤ ·) ?_ (congrArg (· + _) ?_))
  · split <;> split <;> omega
  · split
    next => exact Finset.sum_const_zero
    next => rfl

/-! ### The three actions -/

private theorem isAutoExecute_approvedAction (e : IcSignal) : isAutoExecute e.approvedAction = true := by
  rw [isAutoExecute, show e.approvedAction.rationale = "auto-execute" from rfl]
  simp

private theorem roles_mem_icRoles (side : Side) : side.shortRole ∈ icRoles ∧ side.longRole ∈ icRoles := by
  cases side <;> decide

/-- A full close leaves nothing to cover. -/
theorem close_keepsCover (h : Plain T ic.strategyName env.today) (eventType : String) (side : Option Side)
    (reason : Option String) :
    KeepsCover ic env lookup (T.getPositions lookup ic.strategyName)
    (closeFullSignal eventType side reason).approvedAction T := by
  have hopening : opening (closeFullSignal eventType side reason).approvedAction = [] :=
    if_pos (show "CLOSE_FULL" ∈ closeActions by decide)
  have hclosed : closedRoles .v2 (closeFullSignal eventType side reason).approvedAction = icRoles := by
    rw [closedRoles, if_pos (isAutoExecute_approvedAction _)]
    exact if_pos rfl
  have hlegs : OneLotEach (opening (closeFullSignal eventType side reason).approvedAction) := by
    rw [hopening]
    exact ⟨List.nodup_nil, by simp, by simp⟩
  refine (h.keepsCover_iff hlegs).mpr (Or.inr fun s i _ => ?_)
  obtain ⟨hshort, hlong⟩ := roles_mem_icRoles s
  rw [hopening, hclosed, if_pos hshort, if_pos hlong]
  simp

/-- The legs of a Zone 2 lock. -/
theorem opening_lock (senv : SignalEnv) (c : LadderContext) (plState : ProfitLockState)
    (putStrike callStrike : ℚ)
    (newPut newCall : OptionLeg) (netDebit : ℚ) :
    opening (zone2Signal senv c plState putStrike callStrike newPut newCall netDebit).approvedAction =
      senv.newWingLeg .put newPut c.expiry ++ senv.newWingLeg .call newCall c.expiry :=
  if_neg (show "PROFIT_LOCK_ZONE2" ∉ closeActions by decide)

/-- A new wing is one lot of a hedge that is bought. -/
theorem mem_newWingLeg {senv : SignalEnv} {side : Side} {wing : OptionLeg} {expiry : Date} {leg : LegSpec}
    (h : leg ∈ senv.newWingLeg side wing expiry) :
      leg.legRole = side.longRole ∧ leg.action = "BUY" ∧ leg.quantity = 1 := by
  unfold SignalEnv.newWingLeg at h
  split at h
  next =>
    split at h
    next => exact absurd h List.not_mem_nil
    next =>
      obtain rfl := List.mem_singleton.mp h
      exact ⟨rfl, rfl, rfl⟩
  next => exact absurd h List.not_mem_nil

theorem nodup_newWingLeg (senv : SignalEnv) (side : Side) (wing : OptionLeg) (expiry : Date) :
    ((senv.newWingLeg side wing expiry).map (·.legRole)).Nodup := by
  unfold SignalEnv.newWingLeg
  split
  · split <;> simp
  · simp

/-- The wings of a lock are one lot each. -/
theorem oneLotEach_lock (senv : SignalEnv) (newPut newCall : OptionLeg) (expiry : Date) :
    OneLotEach (senv.newWingLeg .put newPut expiry ++ senv.newWingLeg .call newCall expiry) := by
  constructor
  · rw [List.map_append]
    refine (nodup_newWingLeg ..).append (nodup_newWingLeg ..) fun role hput hcall => ?_
    obtain ⟨leg, hleg, rfl⟩ := List.mem_map.mp hput
    obtain ⟨leg', hleg', hrole⟩ := List.mem_map.mp hcall
    rw [(mem_newWingLeg hleg).1, (mem_newWingLeg hleg').1] at hrole
    exact absurd hrole (by decide)
  · intro leg hleg
    rcases List.mem_append.mp hleg with hleg | hleg <;> exact (mem_newWingLeg hleg).2.2
  · intro leg hleg
    rcases List.mem_append.mp hleg with hleg | hleg
    · exact ⟨.put, Or.inr ⟨(mem_newWingLeg hleg).1, (mem_newWingLeg hleg).2.1⟩⟩
    · exact ⟨.call, Or.inr ⟨(mem_newWingLeg hleg).1, (mem_newWingLeg hleg).2.1⟩⟩

/-- **When a Zone 2 lock keeps the cover**: it is not written, or each side with a short has
a new wing among the legs to open, and the short is at most one lot. -/
theorem lock_keepsCover_iff (h : Plain T ic.strategyName env.today) {senv : SignalEnv} {c : LadderContext}
    {plState : ProfitLockState} {putStrike callStrike : ℚ} {newPut newCall : OptionLeg}
    {netDebit : ℚ} {e : IcSignal}
    (he : e = zone2Signal senv c plState putStrike callStrike newPut newCall netDebit) :
    KeepsCover ic env lookup (T.getPositions lookup ic.strategyName) e.approvedAction T ↔
      planned ic env (T.getPositions lookup ic.strategyName) e.approvedAction = none ∨
        ∀ (side : Side) (i : String), T.netQty ic.strategyName (side.shortRole, i) < 0 →
          (∃ leg ∈ e.legsToOpen, leg.legRole = side.longRole) ∧
            -T.netQty ic.strategyName (side.shortRole, i) ≤ lotSize := by
  have hopening : opening e.approvedAction = e.legsToOpen := by
    rw [he, opening_lock]
    rfl
  have hlegs : OneLotEach e.legsToOpen := by
    rw [he]
    exact oneLotEach_lock senv newPut newCall c.expiry
  have hclosed : closedRoles .v2 e.approvedAction = ["long_put_hedge", "long_call_hedge"] := by
    rw [closedRoles, if_pos (isAutoExecute_approvedAction e), he]
    rfl
  rw [h.keepsCover_iff (hopening ▸ hlegs), hopening, hclosed]
  refine or_congr_right (forall_congr' fun side => ?_)
  have hnoShort : ∀ i, ¬∃ leg ∈ e.legsToOpen, legPair leg = (side.shortRole, i) := by
    rintro i ⟨leg, hleg, hpair⟩
    obtain ⟨side', hrole⟩ : ∃ side' : Side, leg.legRole = side'.longRole := by
      rw [he] at hleg
      rcases List.mem_append.mp hleg with hleg | hleg
      · exact ⟨.put, (mem_newWingLeg hleg).1⟩
      · exact ⟨.call, (mem_newWingLeg hleg).1⟩
    exact side'.longRole_ne_shortRole side (hrole.symm.trans (congrArg Prod.fst hpair))
  have hkept : side.shortRole ∉ ["long_put_hedge", "long_call_hedge"] := by cases side <;> decide
  have hgone : side.longRole ∈ ["long_put_hedge", "long_call_hedge"] := by cases side <;> decide
  simp only [hnoShort, hkept, hgone, if_false, if_true, add_zero, zero_add]
  constructor
  · intro hcover i hshort
    have hle := hcover i (mem_instrumentsOf_of_open hshort.ne)
    split at hle
    next hwing => exact ⟨hwing, hle⟩
    next => omega
  · intro hwings i _
    by_cases hshort : T.netQty ic.strategyName (side.shortRole, i) < 0
    · obtain ⟨hwing, hle⟩ := hwings i hshort
      rw [if_pos hwing]
      exact hle
    · split <;> omega

/-- A roll of a side replaces a short and a hedge by one lot of each. -/
theorem roll_keepsCover (h : Plain T ic.strategyName env.today)
    (hcov : Covered (T.getPositions lookup ic.strategyName))
    {side : Side} {legs : List LegSpec} {e : IcSignal} (he : e = (RollResult.rollWing side legs).toSignal)
    (hroles : e.legsToClose.map (·.legRole) = [side.shortRole, side.longRole]) {newShort newLong : LegSpec}
    (hopen : e.legsToOpen = [newShort, newLong])
    (hshort : newShort.legRole = side.shortRole ∧ newShort.action = "SELL" ∧ newShort.quantity = 1)
    (hlong : newLong.legRole = side.longRole ∧ newLong.action = "BUY" ∧ newLong.quantity = 1) :
    KeepsCover ic env lookup (T.getPositions lookup ic.strategyName) e.approvedAction T := by
  have hopening : opening e.approvedAction = [newShort, newLong] := by
    rw [← hopen, opening, if_neg]
    · rfl
    · rw [he]
      exact show "ROLL_WING" ∉ closeActions by decide
  have hclosed : closedRoles .v2 e.approvedAction = [side.shortRole, side.longRole] := by
    have hsome : e.legsToClose ≠ [] := fun hnone => by simp [hnone] at hroles
    have htype : e.approvedAction.actionType = "ROLL_WING" := by
      rw [he]
      rfl
    rw [closedRoles, if_pos (isAutoExecute_approvedAction e), htype, ← hroles, IcSignal.approvedAction]
    simp [hsome]
  have hlegs : OneLotEach [newShort, newLong] := by
    constructor
    · simp [hshort.1, hlong.1, (side.longRole_ne_shortRole side).symm]
    · simp [hshort.2.2, hlong.2.2]
    · intro leg hleg
      rcases List.mem_pair.mp hleg with rfl | rfl
      · exact ⟨side, Or.inl ⟨hshort.1, hshort.2.1⟩⟩
      · exact ⟨side, Or.inr ⟨hlong.1, hlong.2.1⟩⟩
  refine (h.keepsCover_iff (hopening ▸ hlegs)).mpr (Or.inr fun s i hi => ?_)
  rw [hopening] at hi ⊢
  rw [hclosed]
  by_cases hside : s = side
  · -- the side that is rolled: one lot of each
    subst hside
    have hhedge : ∃ leg ∈ [newShort, newLong], leg.legRole = s.longRole := ⟨newLong, by simp, hlong.1⟩
    rw [if_pos (show s.shortRole ∈ [s.shortRole, s.longRole] by simp),
      if_pos (show s.longRole ∈ [s.shortRole, s.longRole] by simp),
      if_pos hhedge]
    split <;> omega
  · -- the other side is as it was
    have hother : s.shortRole ∉ [side.shortRole, side.longRole] ∧
        s.longRole ∉ [side.shortRole, side.longRole] := by
      constructor
      · simpa [(side.longRole_ne_shortRole s).symm, shortRole_inj] using hside
      · simpa [s.longRole_ne_shortRole side, longRole_inj] using hside
    have hroles : ∀ leg ∈ [newShort, newLong], leg.legRole ∈ [side.shortRole, side.longRole] := by
      simp [hshort.1, hlong.1]
    have hnoShort : ¬∃ leg ∈ [newShort, newLong], legPair leg = (s.shortRole, i) := by
      rintro ⟨leg, hleg, hpair⟩
      have hrole : leg.legRole = s.shortRole := congrArg Prod.fst hpair
      exact hother.1 (hrole ▸ hroles leg hleg)
    have hnoLong : ¬∃ leg ∈ [newShort, newLong], leg.legRole = s.longRole := by
      rintro ⟨leg, hleg, hrole⟩
      exact hother.2 (hrole ▸ hroles leg hleg)
    have hK : ∀ k, T.netQty ic.strategyName k ≠ 0 →
        k.2 ∈ instrumentsOf T lookup ic.strategyName [newShort, newLong] :=
      fun _ => mem_instrumentsOf_of_open
    have hcover := (covered_iff hK).mp hcov s i hi
    rw [Finset.sum_congr rfl fun j _ => max_eq_left (h.long s j)] at hcover
    rw [if_neg hnoShort, if_neg hnoLong, add_zero, add_zero, if_neg hother.1, if_neg hother.2]
    exact hcover

/-! ### The events of a call -/

/-- **Which events of a plain condor keep its shorts covered**: those that come to no write,
every full close and every roll; and a Zone 2 lock exactly when each side with a short has a
new wing among the legs to open, and the short is at most one lot. -/
theorem plain_covered_iff {ic : IronCondorV2} {env : SignalEnv} {exec : IcEnv} {st st' : V2State}
    {e : IcSignal}
    (h : Plain st.store.trades ic.strategyName exec.today)
    (hcov : HedgedEach (st.store.trades.getPositions lookup ic.strategyName))
    (he : ic.Emits env (st.store.trades.getPositions lookup ic.strategyName) st e st') :
    Covered ((finalState (applyActionV2 ic.condor exec
      (st.store.trades.getPositions lookup ic.strategyName) e.approvedAction
        st'.store)).trades.getPositions lookup ic.strategyName) ↔
      planned ic.condor exec (st.store.trades.getPositions lookup ic.strategyName) e.approvedAction = none ∨
        (e.autoAction = some "PROFIT_LOCK_ZONE2" → ∀ (side : Side) (i : String),
          st.store.trades.netQty ic.strategyName (side.shortRole, i) < 0 →
            (∃ leg ∈ e.legsToOpen, leg.legRole = side.longRole) ∧
              -st.store.trades.netQty ic.strategyName (side.shortRole, i) ≤ lotSize) := by
  obtain ⟨events, hcheck, hmem⟩ := he.answer
  have hreply := checkSignals_ok hcheck
  have hkeeps : Covered ((finalState (applyActionV2 ic.condor exec
    (st.store.trades.getPositions lookup ic.strategyName)
      e.approvedAction st'.store)).trades.getPositions lookup ic.strategyName) ↔
        KeepsCover ic.condor exec lookup (st.store.trades.getPositions lookup ic.strategyName)
          e.approvedAction
          st.store.trades := by
    rw [← hreply.trades] at hcov ⊢
    exact covered_applyActionV2_iff (List.Sublist.refl _) hcov
  rw [hkeeps]
  cases hreply with
  | nothing => exact absurd hmem List.not_mem_nil
  | close eventType side reason budget =>
    obtain rfl := List.mem_singleton.mp hmem
    refine iff_of_true (close_keepsCover h eventType side reason) (Or.inr fun hlock => ?_)
    exact absurd hlock (by simp [closeFullSignal])
  | lock senv c putStrike callStrike newPut newCall netDebit =>
    rw [lock_keepsCover_iff h (List.mem_singleton.mp hmem), List.mem_singleton.mp hmem]
    simp [zone2Signal]
  | milestone =>
    obtain rfl := List.mem_singleton.mp hmem
    exact absurd he.auto (by simp [zone1Signal])
  | roll senv c side legs built =>
    obtain rfl := List.mem_singleton.mp hmem
    obtain ⟨hroles, newShort, newLong, hopen, hshort, hlong⟩ := rollWing_legs built
    refine iff_of_true (roll_keepsCover h hcov.covered rfl hroles hopen hshort hlong)
      (Or.inr fun hlock => ?_)
    exact absurd hlock (by simp [RollResult.toSignal])
  | warn side =>
    obtain rfl := List.mem_singleton.mp hmem
    exact absurd he.auto (by simp [RollResult.toSignal])

end NiftyShield.Strategy.IronCondor
