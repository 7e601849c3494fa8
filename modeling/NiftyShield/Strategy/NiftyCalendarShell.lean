import NiftyShield.Lib.Run
import NiftyShield.Paper.Closing
import NiftyShield.Strategy.Executor
import NiftyShield.Strategy.NiftyCalendarState

/-!
# The calendar strategy

`NiftyCalendarV1` (`src/strategy/nifty_calendar_v1.py`): a flat strategy plans an entry
(`plan_entry`) and opens four legs; an open one is closed leg by leg when the exit rule says
so. Both write through `record_trade`, one trade a leg. The entry looks at the trades of the
day so that no opening trade is a duplicate; the close does not look.

## What is proved

* `held_closeStructure`: a close takes away exactly the legs whose closing keys are
  free;
* `openStructure_whole`: an entry that is planned opens all four legs;
* `structure_whole_iff`: along a run from a whole structure or none, every action leaves a
  whole structure or none exactly when each close finds its four closing keys all free or all
  taken.

## Honest scope

The selector and the cycle policy are parameters, and so are the chains an entry sees and the
decision and the mids of a close: when the exit rule decides what is in
`NiftyShield.NiftyCalendar.ExitRules`. Every store call succeeds. The exit event, the
messages and the re-entry notice that follow a close write no trade.
-/

namespace NiftyShield.Strategy.NiftyCalendarV1

open NiftyShield.Instruments NiftyShield.Lib NiftyShield.Lib.Raising NiftyShield.Lib.Run
open NiftyShield.NiftyCalendar NiftyShield.Paper

/-! ### The shell -/

/-- The collaborators of `NiftyCalendarV1`. -/
structure CalendarShell where
  /-- `config`. -/
  config : VariantConfig
  /-- `cycle_policy`. -/
  policy : CyclePolicy
  /-- `selector.select` with the configuration: near chain, far chain, spot, excluded short
  strikes. -/
  select : OptionChain → OptionChain → ℚ → List ℚ → Except NoEntry CalendarStructure
  /-- `lookup`. -/
  lookup : InstrumentLookup
  /-- Every contract of the file has a key. -/
  keys_ne : ∀ inst ∈ lookup.instruments, inst.instrumentKey ≠ ""
  /-- The BOD file of the store. -/
  storeLookup : Option InstrumentLookup := none

namespace CalendarShell

variable (shell : CalendarShell)

/-- `strategy_name`. -/
def strategyName : String := shell.config.strategyName

/-- The open positions. -/
def held (T : PaperTrades) : List PaperPosition := T.getPositions shell.storeLookup shell.strategyName

/-! ### Planning an entry -/

/-- `cycle_plan`: the plan of the cycle that a structure entered on this day belongs to. -/
def cyclePlan (T : PaperTrades) (entryDate : Date) : Option EntryPlan := do
  let origin ← cycleOriginDate (T.getTrades shell.strategyName) entryDate fun d =>
    (shell.policy.entryWindow d).isSome
  let plan ← shell.policy.entryWindow origin
  match shell.policy.redeployPlan with
  | some redeploy => some (redeploy plan entryDate)
  | none => some plan

/-- What `plan_entry` emits. -/
inductive EntryEvent where
  /-- `NC_ENTRY`, with `legs_to_open`. -/
  | entry (legsToOpen : List LegSpec)
  /-- A warning: its event type and description. -/
  | warn (eventType description : String)

/-- The legs of an entry event. -/
def EntryEvent.legs? : EntryEvent → Option (List LegSpec)
  | .entry legsToOpen => some legsToOpen
  | .warn _ _ => none

/-- `_MAX_REENTRIES_PER_DAY`. -/
def maxReentriesPerDay : ℕ := 1

/-- `_chain`: the given chain if it is of this expiry, else what the broker returns. -/
def chain (market : OptionChain) (fetch : Date → Option OptionChain) (expiry : Date) : Option OptionChain :=
  if market.expiry = expiry then some market else fetch expiry

/-- The text of a list of roles. -/
def rolesText (clashes : List String) : String :=
  "[" ++ ", ".intercalate (clashes.map fun role => "'" ++ role ++ "'") ++ "]"

/-- The plan an entry would follow, if today's trades allow one. -/
def entryPlan (T : PaperTrades) (now : Stamp) : Option EntryPlan :=
  let todays := (T.getTrades shell.strategyName).filter fun t => t.tradeDate = now.date
  -- a close today that is not a re-centre: no churn
  if todays.any fun t => isCloseTrade t && !isRecentreClose t then none
  else if maxReentriesPerDay < todays.countP fun t => t.legRole = shortCall && isRecentreClose t then none
  else
    (if todays = [] then shell.policy.entryWindow now.date else shell.cyclePlan T now.date).filter fun plan =>
      !(now.timeOfDay < plan.entryTimeIst || plan.hardExitDate ≤ now.date)

/-- The structure to enter, from the two chains. -/
def planStructure (T : PaperTrades) (now : Stamp) (near far : OptionChain) (spot : ℚ) : EntryEvent :=
  let trades := T.getTrades shell.strategyName
  let todays := trades.filter fun t => t.tradeDate = now.date
  let blocked := if todays = [] then [] else soldShortStrikesOn trades shell.lookup now.date
  match shell.select near far spot blocked with
  | .error skip => .warn "NC_NO_ENTRY" (skip.reason ++ " [" ++ skip.failedFilter.getD "None" ++ "]")
  | .ok structure_ =>
    match entryLegSpecs structure_ shell.lookup shell.config.lotSize with
    | none => .warn "NC_KEY_UNRESOLVED" "no contract for a leg"
    | some specs =>
      match ledgerCollisions specs trades now.date with
      | [] => .entry specs
      | clashes => .warn "NC_LEDGER_COLLISION" ("legs " ++ rolesText clashes ++ " already traded today")

/-- `plan_entry`. -/
def planEntry (T : PaperTrades) (market : OptionChain) (fetch : Date → Option OptionChain) (now : Stamp) :
    List EntryEvent :=
  match shell.entryPlan T now with
  | none => []
  | some plan =>
    match chain market fetch plan.nearExpiry, chain market fetch plan.farExpiry with
    | some near, some far => [shell.planStructure T now near far market.underlyingSpot]
    | _, _ => [.warn "NC_CHAIN_UNAVAILABLE" "near or far chain unavailable"]

/-! ### Trading -/

/-- What `apply_action` can raise. -/
inductive CalendarRaise where
  /-- `LegSpec … carries no price`. -/
  | noPrice (legRole : String)
  /-- `TradeAction(…)` on any other text. -/
  | badAction (text : String)
  /-- `no mid supplied for …`. -/
  | noMid (legRole instrumentKey : String)
  /-- pydantic's `ValidationError`. -/
  | invalidTrade
  deriving DecidableEq

/-- A program over the ledger. -/
abbrev CalendarExec := EStateM CalendarRaise PaperTrades

/-- `str` of a slippage. -/
def slippageText (slippage : ℚ) : String :=
  if slippage = 1 then "1.0" else if slippage = 3 / 2 then "1.5" else if slippage = 3 then "3.0" else "4.0"

/-- The trade that opens a leg. -/
def openTrade (today : Date) (vix : Option ℚ) (spec : LegSpec) : Except CalendarRaise PaperTrade :=
  match spec.price, TradeAction.ofValue spec.action with
  | none, _ => .error (.noPrice spec.legRole)
  | some _, none => .error (.badAction spec.action)
  | some price, some action =>
    let fill := simulateFill spec.instrumentKey spec.action spec.quantity price vix
    match PaperTrade.validate shell.strategyName spec.legRole spec.instrumentKey today action fill.quantity
      fill.fillPrice (shell.config.name ++ " entry slippage=" ++ slippageText fill.slippage) none .open with
    | some t => .ok t
    | none => .error .invalidTrade

/-- One leg of `_open_structure`. -/
def openOne (today : Date) (vix : Option ℚ) (spec : LegSpec) : CalendarExec Unit :=
  match shell.openTrade today vix spec with
  | .ok t => updates fun T => ((T.recordTrade t).1, ())
  | .error e => throw e

/-- `_open_structure`: nothing beside an open position. -/
def openStructure (today : Date) (vix : Option ℚ) (specs : List LegSpec) : CalendarExec Unit := do
  let held ← reads shell.held
  if held = [] then specs.forM (shell.openOne today vix) else pure ()

/-- The legs of a close that are open, each with its position; raises before any write if a
mid is missing. -/
def closeTargets (T : PaperTrades) (mids : List (String × ℚ)) :
    List LegClose → Except CalendarRaise (List (LegClose × PaperPosition × ℚ))
  | [] => .ok []
  | leg :: legs =>
    let pos := T.getPosition shell.storeLookup shell.strategyName leg.legRole leg.instrumentKey
    if pos.netQty = 0 then closeTargets T mids legs
    else
      match mids.lookup pos.instrumentKey with
      | none => .error (.noMid leg.legRole pos.instrumentKey)
      | some mid => (closeTargets T mids legs).map fun targets => (leg, pos, mid) :: targets

/-- The side that closes a position. -/
def closeSide (pos : PaperPosition) : TradeAction := if pos.netQty < 0 then .buy else .sell

/-- The trade that closes a leg. -/
def closeTrade (today : Date) (vix : Option ℚ) (decision : String) (legRole : String) (pos : PaperPosition)
    (mid : ℚ) : Option PaperTrade :=
  let fill := simulateFill pos.instrumentKey (closeSide pos).value |pos.netQty| mid vix
  PaperTrade.validate shell.strategyName legRole pos.instrumentKey today (closeSide pos) fill.quantity fill.fillPrice
    (decision ++ " slippage=" ++ slippageText fill.slippage) none .open

/-- One leg of `_close_structure`. -/
def closeOne (today : Date) (vix : Option ℚ) (decision : String) (target : LegClose × PaperPosition × ℚ) :
    CalendarExec Unit :=
  match shell.closeTrade today vix decision target.1.legRole target.2.1 target.2.2 with
  | some t => updates fun T => (T.recordClose t, ())
  | none => throw .invalidTrade

/-- `_close_structure`. -/
def closeStructure (today : Date) (vix : Option ℚ) (decision : String) (mids : List (String × ℚ))
    (legs : List LegClose) : CalendarExec Unit := do
  let targets ← reads fun T => shell.closeTargets T mids legs
  match targets with
  | .ok targets => targets.forM (shell.closeOne today vix decision)
  | .error e => throw e

/-! ### Runs -/

/-- One action of the strategy. -/
inductive CalendarEvent where
  /-- An entry is planned on these chains and, if there is one, applied. -/
  | enter (now : Stamp) (market : OptionChain) (fetch : Date → Option OptionChain) (vix : Option ℚ)
  /-- The exit rule decides, and the close of the structure at these mids is applied. -/
  | exit (now : Stamp) (decision : ExitDecision) (mids : String → ℚ) (vix : Option ℚ)

/-- The legs that `_exit_events` closes: those of a complete structure. -/
def exitLegs (T : PaperTrades) : Option (List OpenLeg) := resolveOpenLegs (shell.held T) shell.lookup

/-- `legs_to_close` of the event. -/
def legsToClose (legs : List OpenLeg) : List LegClose :=
  legs.map fun leg => { legRole := leg.position.legRole, instrumentKey := some leg.position.instrumentKey }

/-- `mids` of the event. -/
def midsOf (mids : String → ℚ) (legs : List OpenLeg) : List (String × ℚ) :=
  legs.map fun leg => (leg.position.instrumentKey, mids leg.position.instrumentKey)

/-- The ledger after an action. -/
def step (T : PaperTrades) : CalendarEvent → PaperTrades
  | .enter now market fetch vix =>
    match (shell.planEntry T market fetch now).findSome? EntryEvent.legs? with
    | some specs => finalState (shell.openStructure now.date vix specs T)
    | none => T
  | .exit now decision mids vix =>
    match decision, shell.exitLegs T with
    | .hold, _ => T
    | _, none => T
    | _, some legs =>
      finalState (shell.closeStructure now.date vix (decisionText decision) (midsOf mids legs) (legsToClose legs) T)

/-- No position, or one for each role, all of one absolute quantity. -/
def StructureWhole (T : PaperTrades) : Prop :=
  shell.held T = [] ∨ (((shell.held T).map PaperPosition.legRole).Perm roles ∧
    ∀ p ∈ shell.held T, ∀ q ∈ shell.held T, |p.netQty| = |q.netQty|)

/-- The unique key of the trade that closes a position. -/
def closeKey (day : Date) (p : PaperPosition) : PaperTrade.UniqueKey :=
  ⟨shell.strategyName, p.legRole, p.instrumentKey, day, closeSide p⟩

/-- A close that goes through finds the closing keys of the open legs all free or all
taken. -/
def ClosesTogether (T : PaperTrades) : CalendarEvent → Prop
  | .enter .. => True
  | .exit now decision _ _ => decision = .hold ∨ shell.exitLegs T = none ∨
      (∀ p ∈ shell.held T, T.hasKey (shell.closeKey now.date p) = false) ∨
        ∀ p ∈ shell.held T, T.hasKey (shell.closeKey now.date p) = true

end CalendarShell

/-! ### The legs of the open structure -/

theorem roles_nodup : roles.Nodup := by decide

private theorem byRole_held {ps : List PaperPosition} {p : PaperPosition} (h : p ∈ byRole ps) :
    p ∈ ps ∧ p.legRole ∈ roles := by
  obtain ⟨role, -, hrole⟩ := List.mem_filterMap.mp h
  have hgroup := (Grouping.mem_group.mp (List.mem_of_getLast? hrole)).1
  obtain ⟨hmem, hp⟩ := List.mem_filter.mp hgroup
  exact ⟨hmem, (of_decide_eq_true hp).2⟩

/-- The roles of the legs are different. -/
theorem nodup_byRole (ps : List PaperPosition) : ((byRole ps).map PaperPosition.legRole).Nodup := by
  have hsub : ∀ (last : String → Option PaperPosition) (ks : List String),
      (∀ k p, last k = some p → p.legRole = k) →
        ((ks.filterMap last).map PaperPosition.legRole).Sublist ks := by
    intro last ks hlast
    induction ks with
    | nil => exact List.Sublist.slnil
    | cons k ks ih =>
      cases hk : last k with
      | none =>
        rw [List.filterMap_cons_none hk]
        exact ih.cons k
      | some q =>
        rw [List.filterMap_cons_some hk, List.map_cons, hlast k q hk]
        exact ih.cons_cons k
  exact (Grouping.nodup_keys _ _).sublist (hsub _ _ fun k p hk =>
    (Grouping.mem_group.mp (List.mem_of_getLast? hk)).2)

/-- When no two positions share a role, every open position of a role is a leg. -/
theorem mem_byRole {ps : List PaperPosition} (hnodup : (ps.map PaperPosition.legRole).Nodup) {p : PaperPosition}
    (hp : p ∈ ps) (hne : p.netQty ≠ 0) (hrole : p.legRole ∈ roles) : p ∈ byRole ps := by
  have hheld : p ∈ ps.filter fun p => p.netQty ≠ 0 ∧ p.legRole ∈ roles :=
    List.mem_filter.mpr ⟨hp, decide_eq_true ⟨hne, hrole⟩⟩
  have hgroup : p ∈ Grouping.group PaperPosition.legRole (ps.filter fun p => p.netQty ≠ 0 ∧ p.legRole ∈ roles)
      p.legRole := Grouping.mem_group.mpr ⟨hheld, rfl⟩
  refine List.mem_filterMap.mpr ⟨p.legRole, Grouping.mem_keys_of_mem hheld, ?_⟩
  obtain ⟨q, hq⟩ : ∃ q, (Grouping.group PaperPosition.legRole
      (ps.filter fun p => p.netQty ≠ 0 ∧ p.legRole ∈ roles) p.legRole).getLast? = some q :=
    ⟨_, List.getLast?_eq_some_getLast (List.ne_nil_of_mem hgroup)⟩
  obtain ⟨hqheld, hqrole⟩ := Grouping.mem_group.mp (List.mem_of_getLast? hq)
  rw [hq, List.inj_on_of_nodup_map hnodup (List.mem_filter.mp hqheld).1 hp hqrole]

theorem position_openLeg {lookup : InstrumentLookup} {p : PaperPosition} {leg : OpenLeg}
    (h : openLeg lookup p = some leg) : leg.position = p := by
  simp only [openLeg, Option.bind_eq_bind, Option.bind_eq_some_iff, Option.some.injEq] at h
  obtain ⟨_, _, _, _, _, _, _, _, rfl⟩ := h
  rfl

/-- The legs that are resolved are those of `by_role`. -/
theorem positions_resolveOpenLegs {ps : List PaperPosition} {lookup : InstrumentLookup} {legs : List OpenLeg}
    (h : resolveOpenLegs ps lookup = some legs) : legs.map OpenLeg.position = byRole ps := by
  unfold resolveOpenLegs at h
  split at h
  next =>
    have hall := mapM_eq_some_iff.mp h
    clear h
    generalize byRole ps = held at hall
    induction hall with
    | nil => rfl
    | cons hleg _ ih => rw [List.map_cons, position_openLeg hleg, ih]
  next => exact absurd h (by simp)

namespace CalendarShell

variable {shell : CalendarShell} {T : PaperTrades}

/-! ### A close -/

theorem getPosition_held {p : PaperPosition} (hp : p ∈ shell.held T) :
    T.getPosition shell.storeLookup shell.strategyName p.legRole (some p.instrumentKey) = p := by
  have hmem : p ∈ T.getPositions shell.storeLookup shell.strategyName := hp
  rw [PaperTrades.getPosition]
  cases hpick : PaperTrades.pickPosition (T.getPositions shell.storeLookup shell.strategyName) p.legRole
    (some p.instrumentKey) with
  | some q =>
    obtain ⟨hq, hqrole, hqkey⟩ := mem_of_pickPosition hpick
    have hpair : q.pair = p.pair := Prod.ext hqrole (hqkey _ rfl)
    rw [PaperTrades.pair_injOn hq hmem hpair, Option.getD_some]
  | none =>
    have hnone := List.find?_eq_none.mp hpick p (List.mem_filter.mpr ⟨hmem, decide_eq_true rfl⟩)
    exact absurd (decide_eq_true rfl) hnone

/-- The trade that closes an open leg is always built. -/
theorem closeTrade_held {p : PaperPosition} (hp : p ∈ shell.held T) (today : Date) (vix : Option ℚ)
    (decision : String) (mid : ℚ) :
    ∃ t, shell.closeTrade today vix decision p.legRole p mid = some t ∧
      t.uniqueKey = shell.closeKey today p ∧ PaperTrades.Closes shell.strategyName t p := by
  obtain ⟨hname, hne, hkey⟩ := getPositions_open hp
  obtain ⟨u, hu⟩ : ∃ u : PaperTrade, u.legRole = p.legRole := by
    obtain ⟨k, hk, hpos⟩ := mem_getPositions.mp hp
    obtain ⟨u, -, hleg⟩ := Grouping.mem_keys.mp hk
    exact ⟨u, congrArg Prod.fst (hleg.trans (pair_of_groupPosition hpos).symm)⟩
  have hqty : 0 < |p.netQty|.toNat := by
    have := abs_pos.mpr hne
    omega
  have hvalid : ∃ t, shell.closeTrade today vix decision p.legRole p mid = some t := by
    unfold closeTrade PaperTrade.validate
    exact ⟨_, dif_pos ⟨shell.config.paperPrefix, hu ▸ u.legRole_ne, hkey, hqty, fillPrice_pos ..⟩⟩
  obtain ⟨t, ht⟩ := hvalid
  obtain ⟨hukey, hquantity⟩ := validate_eq_some ht
  obtain ⟨hs, hrole, hinst, -, haction⟩ := PaperTrade.UniqueKey.mk.inj hukey
  refine ⟨t, ht, hukey, hs, Prod.ext hrole hinst, ?_⟩
  have hquantity' : (t.quantity : ℤ) = |p.netQty| := hquantity
  rw [PaperTrade.signedQty, haction, closeSide]
  by_cases hshort : p.netQty < 0
  · rw [if_pos hshort]
    rw [abs_of_neg hshort] at hquantity'
    exact hquantity'
  · rw [if_neg hshort]
    rw [abs_of_nonneg (not_lt.mp hshort)] at hquantity'
    exact congrArg Neg.neg hquantity'

/-- The target a leg becomes. -/
def closeTarget (mid : String → ℚ) (leg : OpenLeg) : LegClose × PaperPosition × ℚ :=
  ({ legRole := leg.position.legRole, instrumentKey := some leg.position.instrumentKey }, leg.position,
    mid leg.position.instrumentKey)

/-- The targets of a close of open legs are these legs. -/
theorem closeTargets_held {mids : List (String × ℚ)} {mid : String → ℚ} : ∀ {legs : List OpenLeg},
    (∀ leg ∈ legs, leg.position ∈ shell.held T) →
    (∀ leg ∈ legs, mids.lookup leg.position.instrumentKey = some (mid leg.position.instrumentKey)) →
    shell.closeTargets T mids (legsToClose legs) = .ok (legs.map (closeTarget mid)) := by
  intro legs
  induction legs with
  | nil => exact fun _ _ => rfl
  | cons leg legs ih =>
    intro hheld hmids
    have hp := hheld leg List.mem_cons_self
    have hrest := ih (fun l hl => hheld l (List.mem_cons_of_mem leg hl)) fun l hl =>
      hmids l (List.mem_cons_of_mem leg hl)
    rw [legsToClose, List.map_cons, closeTargets]
    simp only [getPosition_held hp]
    rw [if_neg (getPositions_open hp).2.1, hmids leg List.mem_cons_self]
    simp only
    rw [← legsToClose, hrest]
    rfl

theorem lookup_midsOf {mid : String → ℚ} : ∀ {legs : List OpenLeg}, ∀ leg ∈ legs,
    (midsOf mid legs).lookup leg.position.instrumentKey = some (mid leg.position.instrumentKey) := by
  intro legs
  induction legs with
  | nil => exact fun leg hleg => absurd hleg (by simp)
  | cons l legs ih =>
    intro leg hleg
    rw [midsOf, List.map_cons, List.lookup_cons]
    by_cases hkey : leg.position.instrumentKey = l.position.instrumentKey
    · simp [hkey]
    · rcases List.mem_cons.mp hleg with rfl | hleg
      · exact absurd rfl hkey
      · have hne : (leg.position.instrumentKey == l.position.instrumentKey) = false := by simpa using hkey
        rw [hne]
        exact ih leg hleg

theorem mem_byRole_held (hroles : ((shell.held T).map PaperPosition.legRole).Perm roles) {p : PaperPosition} :
    p ∈ byRole (shell.held T) ↔ p ∈ shell.held T := by
  refine ⟨fun hp => (byRole_held hp).1, fun hp => ?_⟩
  refine mem_byRole (hroles.nodup_iff.mpr roles_nodup) hp (getPositions_open hp).2.1 ?_
  exact hroles.mem_iff.mp (List.mem_map_of_mem hp)

/-- **A close** runs through and takes away the legs whose closing keys are free. -/
theorem closeStructure_legs {legs : List OpenLeg} (hlegs : shell.exitLegs T = some legs) (today : Date)
    (vix : Option ℚ) (decision : String) (mid : String → ℚ) :
    ∃ T', shell.closeStructure today vix decision (midsOf mid legs) (legsToClose legs) T = .ok () T' ∧
      shell.held T' = (shell.held T).filter fun p =>
        decide (p ∉ byRole (shell.held T)) || T.hasKey (shell.closeKey today p) := by
  have hpos : legs.map OpenLeg.position = byRole (shell.held T) := positions_resolveOpenLegs hlegs
  have hheld : ∀ leg ∈ legs, leg.position ∈ shell.held T := fun leg hleg =>
    (byRole_held (hpos ▸ List.mem_map_of_mem hleg)).1
  have hnodup : (legs.map fun leg => leg.position.legRole).Nodup := by
    have h := nodup_byRole (shell.held T)
    rwa [← hpos, List.map_map] at h
  obtain ⟨ts, hts⟩ := exists_forall₂ fun leg hleg =>
    closeTrade_held (hheld leg hleg) today vix decision (mid leg.position.instrumentKey)
  have hrun : shell.closeStructure today vix decision (midsOf mid legs) (legsToClose legs) T =
      .ok () (T.recordCloses ts) := by
    have hloop : ∀ S, (legs.map (closeTarget mid)).forM (shell.closeOne today vix decision) S =
        .ok () (PaperTrades.recordCloses S ts) := by
      refine forM_forall₂ (List.forall₂_map_left_iff.mpr (hts.imp fun leg t ht S => ?_))
      show shell.closeOne today vix decision (closeTarget mid leg) S = _
      rw [closeOne, closeTarget, ht.1]
      rfl
    rw [closeStructure, bind_run, reads_run]
    simp only [closeTargets_held hheld lookup_midsOf]
    exact hloop T
  have hclose : ∀ t ∈ ts, ∃ p ∈ shell.held T, PaperTrades.Closes shell.strategyName t p := by
    intro t ht
    obtain ⟨leg, hleg, h⟩ := forall₂_left_of_mem hts t ht
    exact ⟨leg.position, hheld leg hleg, h.2.2⟩
  have hne : ts.Pairwise fun t u => t.legInstrument ≠ u.legInstrument := by
    have hrole : legs.map (fun leg => leg.position.legRole) = ts.map PaperTrade.legRole :=
      map_eq_of_forall₂ (fun leg t ht => (congrArg Prod.fst ht.2.2.pair).symm) hts
    rw [hrole] at hnodup
    exact (List.pairwise_map.mp hnodup).imp fun htu heq => htu (congrArg Prod.fst heq)
  refine ⟨_, hrun, ?_⟩
  rw [held, PaperTrades.getPositions_recordCloses hclose hne]
  refine List.filter_congr fun p hp => ?_
  rw [Bool.eq_iff_iff, List.all_eq_true, Bool.or_eq_true, decide_eq_true_iff]
  -- the one trade that can take a position away is the one of its leg
  have hone : ∀ {leg t}, leg ∈ legs → t.uniqueKey = shell.closeKey today leg.position →
      PaperTrades.Closes shell.strategyName t leg.position → t.legInstrument = p.pair →
        leg.position = p ∧ t.uniqueKey = shell.closeKey today p := by
    intro leg t hleg hkey hcl hpair
    have hsame : leg.position = p := PaperTrades.pair_injOn (hheld leg hleg) hp (hcl.pair ▸ hpair)
    exact ⟨hsame, hsame ▸ hkey⟩
  constructor
  · intro h
    by_cases hleg : p ∈ byRole (shell.held T)
    · obtain ⟨leg, hmem, rfl⟩ := List.mem_map.mp (hpos ▸ hleg)
      obtain ⟨t, ht, htrade⟩ := forall₂_right_of_mem hts leg hmem
      have hkey := h t ht
      rw [htrade.2.2.pair] at hkey
      exact Or.inr (by simpa [htrade.2.1] using hkey)
    · exact Or.inl hleg
  · intro h u hu
    obtain ⟨leg, hleg, hu'⟩ := forall₂_left_of_mem hts u hu
    by_cases hpair : u.legInstrument = p.pair
    · obtain ⟨hsame, hkey⟩ := hone hleg hu'.2.1 hu'.2.2 hpair
      have hin : p ∈ byRole (shell.held T) := hpos ▸ hsame ▸ List.mem_map_of_mem hleg
      rw [hkey, h.resolve_left (not_not_intro hin)]
      rfl
    · simp [hpair]

/-- **The close of a complete structure** takes away the legs whose closing keys are free. -/
theorem held_closeStructure (hroles : ((shell.held T).map PaperPosition.legRole).Perm roles)
    {legs : List OpenLeg} (hlegs : shell.exitLegs T = some legs) (today : Date) (vix : Option ℚ)
    (decision : String) (mid : String → ℚ) :
    shell.held (finalState
        (shell.closeStructure today vix decision (midsOf mid legs) (legsToClose legs) T)) =
      (shell.held T).filter fun p => T.hasKey (shell.closeKey today p) := by
  obtain ⟨T', hrun, hheld⟩ := closeStructure_legs hlegs today vix decision mid
  rw [hrun, finalState_ok, hheld]
  refine List.filter_congr fun p hp => ?_
  simp [(mem_byRole_held hroles).mpr hp]

/-! ### An entry -/

/-- The opening trade of a leg of a structure is always built. -/
theorem openTrade_leg {role : String} {leg : CalendarLeg} {spec : LegSpec} (hrole : role ≠ "")
    (h : entryLegSpec shell.lookup shell.config.lotSize role leg = some spec) (today : Date) (vix : Option ℚ) :
    spec.legRole = role ∧ spec.action = leg.side.value ∧ ∃ t, shell.openTrade today vix spec = .ok t ∧
      t.uniqueKey = ⟨shell.strategyName, role, spec.instrumentKey, today, leg.side⟩ ∧
      t.quantity = leg.qtyLots * shell.config.lotSize := by
  obtain ⟨found, hfound, rfl⟩ := Option.map_eq_some_iff.mp h
  have hkey : found.instrumentKey ≠ "" :=
    shell.keys_ne found (List.mem_filter.mp (List.mem_of_mem_take (List.mem_of_mem_head? hfound))).1
  have hqty : 0 < leg.qtyLots * shell.config.lotSize := Nat.mul_pos leg.qtyLots_pos shell.config.lotSize_pos
  have hpos : 0 < ((leg.qtyLots : ℤ) * (shell.config.lotSize : ℤ)).toNat := by
    rw [← Nat.cast_mul, Int.toNat_natCast]
    exact hqty
  have hvalid : ∃ t, shell.openTrade today vix
      { instrumentKey := found.instrumentKey, action := leg.side.value,
        quantity := leg.qtyLots * shell.config.lotSize, legRole := role, price :=
          some leg.entryPrice } = .ok t ∧
      t.uniqueKey = ⟨shell.strategyName, role, found.instrumentKey, today, leg.side⟩ ∧
      (t.quantity : ℤ) = leg.qtyLots * shell.config.lotSize := by
    unfold openTrade
    simp only [TradeAction.ofValue_value]
    rw [PaperTrade.validate, dif_pos ⟨shell.config.paperPrefix, hrole, hkey, hpos, fillPrice_pos ..⟩]
    refine ⟨_, rfl, rfl, ?_⟩
    exact Int.toNat_of_nonneg (Int.natCast_nonneg (leg.qtyLots * shell.config.lotSize))
  obtain ⟨t, ht, hukey, hquantity⟩ := hvalid
  exact ⟨rfl, rfl, t, ht, hukey, by exact_mod_cast hquantity⟩

/-- The opening trades of a structure: one a role, all of one quantity. -/
theorem openTrades_entry {st : CalendarStructure} {specs : List LegSpec}
    (h : entryLegSpecs st shell.lookup shell.config.lotSize = some specs) (today : Date) (vix : Option ℚ) :
    ∃ ts : List PaperTrade, List.Forall₂ (fun spec t => shell.openTrade today vix spec = .ok t ∧
        t.strategyName = shell.strategyName ∧ t.legRole = spec.legRole ∧ t.instrumentKey = spec.instrumentKey ∧
        t.tradeDate = today ∧ t.action.value = spec.action) specs ts ∧
      ts.map PaperTrade.legRole = roles ∧
      ∀ t ∈ ts, t.quantity = st.shortCe.qtyLots * shell.config.lotSize := by
  have hspecs := mapM_eq_some_iff.mp h
  have hleg : ∀ rl ∈ legsWithRoles st, rl.1 ≠ "" ∧ rl.2.qtyLots = st.shortCe.qtyLots := by
    intro rl hrl
    simp only [legsWithRoles, List.mem_cons, List.not_mem_nil, or_false] at hrl
    rcases hrl with rfl | rfl | rfl | rfl
    · exact ⟨show shortCall ≠ "" by decide, rfl⟩
    · exact ⟨show shortPut ≠ "" by decide, st.lots.1⟩
    · exact ⟨show longCallWing ≠ "" by decide, st.lots.2.1⟩
    · exact ⟨show longPutWing ≠ "" by decide, st.lots.2.2⟩
  have hroles : specs.map LegSpec.legRole = roles := by
    have hmap := map_eq_of_forall₂ (f := Prod.fst) (g := LegSpec.legRole) (fun rl spec hs => ?_) hspecs
    · exact hmap.symm
    · obtain ⟨found, -, rfl⟩ := Option.map_eq_some_iff.mp hs
      rfl
  obtain ⟨ts, hts⟩ := exists_forall₂ (l := specs) (R := fun spec (t : PaperTrade) =>
      (shell.openTrade today vix spec = .ok t ∧ t.strategyName = shell.strategyName ∧
        t.legRole = spec.legRole ∧ t.instrumentKey = spec.instrumentKey ∧ t.tradeDate = today ∧
        t.action.value = spec.action) ∧ t.quantity =
          st.shortCe.qtyLots * shell.config.lotSize) fun spec hspec => by
    obtain ⟨rl, hrl, hs⟩ := forall₂_left_of_mem hspecs spec hspec
    obtain ⟨hrole, haction, t, ht, hkey, hquantity⟩ := openTrade_leg (hleg rl hrl).1 hs today vix
    obtain ⟨hname, hr, hi, hd, ha⟩ := PaperTrade.UniqueKey.mk.inj hkey
    exact ⟨t, ⟨ht, hname, hr.trans hrole.symm, hi, hd, (congrArg TradeAction.value ha).trans haction.symm⟩,
      hquantity.trans (by rw [(hleg rl hrl).2])⟩
  refine ⟨ts, hts.imp fun _ _ ht => ht.1, ?_, fun t ht => ?_⟩
  · rw [← hroles]
    exact (map_eq_of_forall₂ (fun _ _ ht => ht.1.2.2.1.symm) hts).symm
  · obtain ⟨spec, -, hs⟩ := forall₂_left_of_mem hts t ht
    exact hs.2

/-- With no collision, the opening keys of the legs are free. -/
theorem hasKey_of_noCollision {specs : List LegSpec} {today : Date}
    (h : ledgerCollisions specs (T.getTrades shell.strategyName) today = []) {spec : LegSpec}
    (hspec : spec ∈ specs)
    {t : PaperTrade} (hname : t.strategyName = shell.strategyName) (hrole : t.legRole = spec.legRole)
    (hinst : t.instrumentKey = spec.instrumentKey) (hdate : t.tradeDate = today)
    (haction : t.action.value = spec.action) : T.hasKey t.uniqueKey = false := by
  refine PaperTrades.hasKey_eq_false_iff.mpr fun r hr heq => ?_
  obtain ⟨hs, hr', hi, hd, ha⟩ := PaperTrade.UniqueKey.mk.inj heq
  have hmem : r.trade ∈ T.getTrades shell.strategyName :=
    (T.getTrades_perm _).mem_iff.mpr (List.mem_filter.mpr
      ⟨List.mem_map_of_mem hr, by simpa using hs.trans hname⟩)
  have hnone := List.filter_eq_nil_iff.mp (List.map_eq_nil_iff.mp h) spec hspec
  refine hnone (List.any_eq_true.mpr ⟨r.trade, hmem, decide_eq_true ⟨hd.trans hdate, hr'.trans hrole,
    hi.trans hinst, ?_⟩⟩)
  rw [ha, haction]

/-- **An entry of a planned structure** into an empty book opens all four legs. -/
theorem openStructure_whole (hflat : shell.held T = []) {st : CalendarStructure} {specs : List LegSpec}
    (hspecs : entryLegSpecs st shell.lookup shell.config.lotSize = some specs) {today : Date}
    (hfree : ledgerCollisions specs (T.getTrades shell.strategyName) today = []) (vix : Option ℚ) :
    ∃ T', shell.openStructure today vix specs T = .ok () T' ∧
      ((shell.held T').map PaperPosition.legRole).Perm roles ∧
      ∀ p ∈ shell.held T', ∀ q ∈ shell.held T', |p.netQty| = |q.netQty| := by
  obtain ⟨ts, hts, hroles, hquantity⟩ := openTrades_entry hspecs today vix
  have hrun : shell.openStructure today vix specs T = .ok () (T.recordTrades ts).1 := by
    have hloop : ∀ S, specs.forM (shell.openOne today vix) S =
        .ok () (ts.foldl (fun S t => (PaperTrades.recordTrade S t).1) S) := by
      refine forM_forall₂ (hts.imp fun spec t ht S => ?_)
      rw [openOne, ht.1]
      rfl
    rw [openStructure, bind_run, reads_run]
    simp only [if_pos hflat]
    rw [hloop, PaperTrades.foldl_recordTrade]
  have hkeys : ∀ t ∈ ts, T.hasKey t.uniqueKey = false := by
    intro t ht
    obtain ⟨spec, hspec, -, hname, hrole, hinst, hdate, haction⟩ := forall₂_left_of_mem hts t ht
    exact hasKey_of_noCollision hfree hspec hname hrole hinst hdate haction
  have hnames : ∀ t ∈ ts, t.strategyName = shell.strategyName := by
    intro t ht
    obtain ⟨spec, -, -, hname, -⟩ := forall₂_left_of_mem hts t ht
    exact hname
  have hne : ts.Pairwise fun t u => t.legInstrument ≠ u.legInstrument := by
    have hnodup : (ts.map PaperTrade.legRole).Nodup := hroles ▸ roles_nodup
    exact (List.pairwise_map.mp hnodup).imp fun htu heq => htu (congrArg Prod.fst heq)
  have hopened := PaperTrades.openedPairs hflat hkeys hnames hne
  refine ⟨_, hrun, ?_, ?_⟩
  · have hmap := hopened.map fun kq => kq.1.1
    rw [List.map_map, List.map_map] at hmap
    rw [← hroles]
    exact hmap
  · have habs : ∀ p ∈ shell.held (T.recordTrades ts).1,
        |p.netQty| = (st.shortCe.qtyLots * shell.config.lotSize : ℕ) := by
      intro p hp
      obtain ⟨t, ht, heq⟩ := List.mem_map.mp (hopened.mem_iff.mp (List.mem_map_of_mem hp))
      rw [← (Prod.mk.inj heq).2, ← hquantity t ht, PaperTrade.signedQty]
      cases t.action with
      | buy => exact abs_of_nonneg (Int.natCast_nonneg _)
      | sell => exact (abs_neg _).trans (abs_of_nonneg (Int.natCast_nonneg _))
    intro p hp q hq
    rw [habs p hp, habs q hq]

theorem legs?_eq_some_iff {ev : EntryEvent} {specs : List LegSpec} :
    ev.legs? = some specs ↔ ev = .entry specs := by
  cases ev <;> simp [EntryEvent.legs?]

/-- There is at most one event, so the legs found are those of the entry event. -/
theorem legs_planEntry_iff {market : OptionChain} {fetch : Date → Option OptionChain} {now : Stamp}
    {specs : List LegSpec} :
    (shell.planEntry T market fetch now).findSome? EntryEvent.legs? = some specs ↔
      EntryEvent.entry specs ∈ shell.planEntry T market fetch now := by
  have hone : ∀ ev : EntryEvent, [ev].findSome? EntryEvent.legs? = some specs ↔
      EntryEvent.entry specs ∈ [ev] := by
    intro ev
    rw [List.mem_singleton, List.findSome?_singleton, legs?_eq_some_iff, eq_comm]
  unfold planEntry
  split
  next => simp
  next =>
    split
    next => exact hone _
    next => exact hone _

/-- An entry event carries the legs of a structure, none of which collides with a trade of
the day. -/
theorem planEntry_entry {market : OptionChain} {fetch : Date → Option OptionChain} {now : Stamp}
    {specs : List LegSpec} (h : EntryEvent.entry specs ∈ shell.planEntry T market fetch now) :
    ∃ st, entryLegSpecs st shell.lookup shell.config.lotSize = some specs ∧
      ledgerCollisions specs (T.getTrades shell.strategyName) now.date = [] := by
  unfold planEntry at h
  split at h
  next => exact absurd h (by simp)
  next =>
    split at h
    next =>
      have heq := (List.mem_singleton.mp h).symm
      unfold planStructure at heq
      simp only at heq
      split at heq
      next => exact absurd heq (by simp)
      next st _ =>
        split at heq
        next => exact absurd heq (by simp)
        next specs' hspecs =>
          split at heq
          next hfree =>
            obtain rfl := EntryEvent.entry.inj heq
            exact ⟨st, hspecs, hfree⟩
          next => exact absurd heq (by simp)
    next => exact absurd h (by simp)

/-- Nothing is opened beside an open position. -/
theorem openStructure_held (hheld : shell.held T ≠ []) (today : Date) (vix : Option ℚ) (specs : List LegSpec) :
    finalState (shell.openStructure today vix specs T) = T := by
  rw [openStructure, bind_run, reads_run]
  simp only [if_neg hheld]
  rfl

/-! ### Every step -/

theorem exitLegs_flat (hflat : shell.held T = []) : shell.exitLegs T = none := by
  rw [exitLegs, hflat]
  rfl

/-- An entry keeps a structure whole. -/
theorem structureWhole_enter (h : shell.StructureWhole T) (now : Stamp) (market : OptionChain)
    (fetch : Date → Option OptionChain) (vix : Option ℚ) :
    shell.StructureWhole (shell.step T (.enter now market fetch vix)) := by
  show shell.StructureWhole (match (shell.planEntry T market fetch now).findSome? EntryEvent.legs? with
    | some specs => finalState (shell.openStructure now.date vix specs T)
    | none => T)
  split
  next specs hspecs =>
    have hentry := legs_planEntry_iff.mp hspecs
    by_cases hflat : shell.held T = []
    · obtain ⟨st, hst, hfree⟩ := planEntry_entry hentry
      obtain ⟨T', hrun, hwhole⟩ := openStructure_whole hflat hst hfree vix
      rw [hrun]
      exact Or.inr hwhole
    · rw [openStructure_held hflat]
      exact h
  next => exact h

/-- What is left of a complete structure is whole exactly when all of it or nothing of it
is. -/
theorem whole_filter_iff {ps : List PaperPosition} (hroles : (ps.map PaperPosition.legRole).Perm roles)
    (hqty : ∀ p ∈ ps, ∀ q ∈ ps, |p.netQty| = |q.netQty|) (keep : PaperPosition → Bool) :
    (ps.filter keep = [] ∨ ((ps.filter keep).map PaperPosition.legRole).Perm roles ∧
        ∀ p ∈ ps.filter keep, ∀ q ∈ ps.filter keep, |p.netQty| = |q.netQty|) ↔
      (∀ p ∈ ps, keep p = false) ∨ ∀ p ∈ ps, keep p = true := by
  refine or_congr ?_ ⟨?_, ?_⟩
  · rw [List.filter_eq_nil_iff]
    exact forall₂_congr fun p _ => iff_of_eq (Bool.not_eq_true _)
  · rintro ⟨hperm, -⟩
    have hlen := hperm.length_eq.trans hroles.length_eq.symm
    rw [List.length_map, List.length_map] at hlen
    exact List.length_filter_eq_length_iff.mp hlen
  · intro hall
    rw [List.filter_eq_self.mpr hall]
    exact ⟨hroles, hqty⟩

/-- A decision to close closes the open legs, if there are any. -/
theorem step_exit {decision : ExitDecision} (h : decision ≠ .hold) (now : Stamp) (mids : String → ℚ)
    (vix : Option ℚ) :
    shell.step T (.exit now decision mids vix) = (shell.exitLegs T).elim T fun legs =>
      finalState (shell.closeStructure now.date vix (decisionText decision) (midsOf mids legs)
        (legsToClose legs) T) := by
  unfold step
  cases decision with
  | hold => exact absurd rfl h
  | _ =>
    cases shell.exitLegs T with
    | none => rfl
    | some legs => rfl

/-- A close keeps a structure whole exactly when it closes all of it or nothing. -/
theorem structureWhole_exit (h : shell.StructureWhole T) (now : Stamp) (decision : ExitDecision)
    (mids : String → ℚ) (vix : Option ℚ) :
    shell.StructureWhole (shell.step T (.exit now decision mids vix)) ↔
      shell.ClosesTogether T (.exit now decision mids vix) := by
  by_cases hhold : decision = .hold
  · subst hhold
    exact iff_of_true h (Or.inl rfl)
  cases hlegs : shell.exitLegs T with
  | none =>
    rw [step_exit hhold, hlegs]
    exact iff_of_true h (Or.inr (Or.inl hlegs))
  | some legs =>
    rcases h with hflat | ⟨hroles, hqty⟩
    · exact absurd ((exitLegs_flat hflat).symm.trans hlegs) (by simp)
    · rw [step_exit hhold, hlegs, Option.elim_some, StructureWhole, held_closeStructure hroles hlegs,
        whole_filter_iff hroles hqty fun p => T.hasKey (shell.closeKey now.date p)]
      constructor
      · exact fun hkeys => Or.inr (Or.inr hkeys)
      · rintro (hdec | hnone | hkeys)
        · exact absurd hdec hhold
        · exact absurd (hlegs.symm.trans hnone) (by simp)
        · exact hkeys

/-- **Whole or flat**: along a run from a whole structure or none, the positions are a whole
structure or none after every action exactly when each close finds the closing keys of its
four legs all free or all taken. -/
theorem structure_whole_iff {evs : List CalendarEvent} (h : shell.StructureWhole T) :
    Along shell.step shell.StructureWhole T evs ↔ EachStep shell.step shell.ClosesTogether T evs := by
  refine along_iff_eachStep (I := fun _ => True) (fun _ _ _ => trivial) (fun S ev _ hS => ?_) trivial h
  cases ev with
  | enter now market fetch vix => exact iff_of_true (structureWhole_enter hS now market fetch vix) trivial
  | exit now decision mids vix => exact structureWhole_exit hS now decision mids vix

/-! ### A second close on one day -/

/-- A contract of July or August 2026. -/
def contract (key optionType : String) (strike : ℚ) (expiry : Date) : Instrument :=
  { instrumentKey := key, instrumentType := some optionType, underlyingSymbol := "NIFTY", strikePrice := some strike,
    expiry := some expiry }

/-- Straddles at 24000 and 24100 for 28 July, wings for 4 August. -/
def julyContracts : InstrumentLookup :=
  ⟨[contract "NSE_FO|1" "CE" 24000 739825, contract "NSE_FO|2" "PE" 24000 739825,
    contract "NSE_FO|3" "CE" 24100 739825, contract "NSE_FO|4" "PE" 24100 739825,
    contract "NSE_FO|5" "CE" 24400 739832, contract "NSE_FO|6" "CE" 24500 739832,
    contract "NSE_FO|7" "PE" 23600 739832]⟩

/-- A leg at a price of 100. -/
def legAt (strike : ℚ) (side : TradeAction) (expiry : Date) (optionType : OptionType)
    (h : optionType = .ce ∨ optionType = .pe) : CalendarLeg :=
  { strike, optionType, expiry, side, qtyLots := 1, entryPrice := 100, isOption := h, qtyLots_pos := Nat.one_pos }

/-- A straddle at a strike, with the call wing 400 points above it and the put wing at
23600. -/
def straddleAt (strike : ℚ) (near far : Date) (hstrike : 23600 < strike) (h : near < far) : CalendarStructure where
  shortCe := legAt strike .sell near .ce ce_isOption
  shortPe := legAt strike .sell near .pe pe_isOption
  longCeWing := legAt (strike + 400) .buy far .ce ce_isOption
  longPeWing := legAt 23600 .buy far .pe pe_isOption
  shorts := ⟨rfl, rfl⟩
  longs := ⟨rfl, rfl⟩
  straddle := ⟨rfl, rfl⟩
  wings := rfl
  nearBeforeFar := h
  lots := ⟨rfl, rfl, rfl⟩
  types := ⟨rfl, rfl, rfl, rfl⟩
  otm := ⟨lt_add_of_pos_right strike (by norm_num), hstrike⟩

/-- The listed strike nearest to spot that may be sold. -/
def nearestStraddle (near far : OptionChain) (spot : ℚ) (excluded : List ℚ) :
    Except NoEntry CalendarStructure :=
  match near.strikes.keys.filter fun k => k ∉ excluded ∧ |k - spot| ≤ 50 with
  | [] => .error ⟨"No eligible near strike", some "missing_quote"⟩
  | strike :: _ =>
    if h : 23600 < strike ∧ near.expiry < far.expiry then .ok (straddleAt strike near.expiry far.expiry h.1 h.2)
    else .error ⟨"No eligible far strike", some "missing_quote"⟩

/-- The bi-weekly strategy on the listing of 14 July 2026. -/
def julyShell : CalendarShell where
  config := biweeklyVariant
  policy := biweeklyPolicy MarketCalendar.TradingCalendar.weekdays
    [739818, 739825, 739832, 739839, 739846, 739853, 739881, 739916] 739811
  select := nearestStraddle
  lookup := julyContracts
  keys_ne := by decide

/-- Both options of a strike, quoted at 100. -/
def quotedAt (strike : ℚ) : OptionChainStrike :=
  { ce := some { ltp := 100, bid := 99, ask := 101, strike }, pe := some { ltp := 100, bid := 99, ask := 101, strike } }

/-- The chain of an expiry. -/
def chainOf (spot : ℚ) (expiry : Date) : OptionChain :=
  { underlyingSpot := spot, expiry
    strikes := [23600, 24000, 24100, 24400, 24500].foldl (fun d k => d.set k (quotedAt k)) Dict.empty }

/-- A full hour of a day in July 2026. -/
def julyTime (day hour : ℕ) : Stamp := { micros := (739797 + day) * dayMicros + hour * 3600000000 }

/-- An entry at a spot. -/
def enterAt (day hour : ℕ) (spot : ℚ) : CalendarEvent :=
  .enter (julyTime day hour) (chainOf spot 739825) (fun expiry => some (chainOf spot expiry)) none

/-- A close at mids of 80. -/
def exitAt (day hour : ℕ) (decision : ExitDecision) : CalendarEvent :=
  .exit (julyTime day hour) decision (fun _ => 80) none

instance decidableClosesTogether : ∀ (shell : CalendarShell) (T : PaperTrades) (ev : CalendarEvent),
    Decidable (shell.ClosesTogether T ev)
  | _, _, .enter .. => isTrue trivial
  | shell, T, .exit now decision _ _ => inferInstanceAs (Decidable (decision = .hold ∨ shell.exitLegs T = none ∨
      (∀ p ∈ shell.held T, T.hasKey (shell.closeKey now.date p) = false) ∨
        ∀ p ∈ shell.held T, T.hasKey (shell.closeKey now.date p) = true))

/-- An entry on 14 July, a redeployment at another strike with one wing kept, and a close on
the day after. -/
theorem structure_whole_iff_redeploy :
    Along julyShell.step julyShell.StructureWhole PaperTrades.empty
      [enterAt 14 11 24000, exitAt 15 10 .redeploySamePair, enterAt 15 11 24100, exitAt 16 10 .redeploySamePair] :=
  (structure_whole_iff (Or.inl rfl)).mpr (by decide +kernel)

/-- The same with a second close on the day of the redeployment: the sale of the wing that
was kept is a duplicate, and the wing stays open alone. -/
theorem second_close_leaves_wing :
    julyShell.StructureWhole PaperTrades.empty ∧
      ¬Along julyShell.step julyShell.StructureWhole PaperTrades.empty
        [enterAt 14 11 24000, exitAt 15 10 .redeploySamePair, enterAt 15 11 24100, exitAt 15 14 .redeploySamePair] ∧
      ((julyShell.held (final julyShell.step PaperTrades.empty
          [enterAt 14 11 24000, exitAt 15 10 .redeploySamePair, enterAt 15 11 24100,
            exitAt 15 14 .redeploySamePair])).map PaperPosition.legRole) = [longPutWing] := by
  have hwing : ((julyShell.held (final julyShell.step PaperTrades.empty
      [enterAt 14 11 24000, exitAt 15 10 .redeploySamePair, enterAt 15 11 24100,
        exitAt 15 14 .redeploySamePair])).map PaperPosition.legRole) = [longPutWing] := by
    decide +kernel
  refine ⟨Or.inl rfl, fun h => ?_, hwing⟩
  rcases along_iff_final.mp h _ List.prefix_rfl with hnil | ⟨hperm, -⟩
  · rw [hnil] at hwing
    exact absurd hwing (by simp)
  · rw [hwing] at hperm
    exact absurd hperm.length_eq (by decide)

end CalendarShell

end NiftyShield.Strategy.NiftyCalendarV1
