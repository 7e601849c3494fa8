import NiftyShield.Instruments.Expiries
import NiftyShield.Strategy.NiftyCalendarPlans

/-!
# The calendar entry script

`run_entry` (`scripts/strategies/nifty_calendar/paper_calendar_entry.py`): the gates of the
script, then `plan_entry` and `apply_action` of the strategy that `build_calendar_shell`
(`src/strategy/nifty_calendar_factory.py`) wires from the same instrument file.

The script and the strategy decide twice whether today is a day to enter: the script by the
window of today, the strategy by the cycle that today's trades belong to.

* `window_of_fresh_entry`: without a trade today they agree;
* `entry_gates_agree_iff`: an entry the strategy would plan is carried out by the script
  exactly when today itself has a window.

## Honest scope

The broker is a parameter; the margin capture, the messages and the chart after an entry are
left out, as they never change the outcome. One reading of the clock serves the script and
the strategy.
-/

namespace NiftyShield.Strategy.NiftyCalendarV1

open NiftyShield.Instruments NiftyShield.Lib.Raising NiftyShield.MarketCalendar
open NiftyShield.NiftyCalendar NiftyShield.Paper

/-! ### The script -/

/-- What the script and the strategy are wired with. -/
structure CalendarSetup where
  /-- The trading-day calendar. -/
  calendar : TradingCalendar
  /-- `lookup`. -/
  lookup : InstrumentLookup
  /-- Every contract of the file has a key. -/
  keys_ne : ∀ inst ∈ lookup.instruments, inst.instrumentKey ≠ ""
  /-- The wing selector. -/
  select : OptionChain → OptionChain → ℚ → List ℚ → Except NoEntry CalendarStructure
  /-- The BOD file of the store. -/
  storeLookup : Option InstrumentLookup := none

namespace CalendarSetup

variable (setup : CalendarSetup)

/-- The listed expiries. -/
def listed : List Date := setup.lookup.allOptionExpiries "NIFTY"

/-- `build_calendar_shell` of a variant. -/
def buildCalendarShell (v : Variant) (today : Date) : CalendarShell where
  config := v.config
  policy := v.policy setup.calendar setup.listed today
  select := setup.select
  lookup := setup.lookup
  keys_ne := setup.keys_ne
  storeLookup := setup.storeLookup

/-- `_other_variant_open`. -/
def otherVariantOpen (v : Variant) (T : PaperTrades) : Bool :=
  [Variant.monthly, .biweekly].any fun other =>
    other ≠ v && T.getPositions setup.storeLookup other.config.strategyName ≠ []

/-- What `run_entry` returns. -/
inductive EntryOutcome where
  /-- `ALREADY_OPEN`. -/
  | alreadyOpen
  /-- `NOT_ACTIVE`. -/
  | notActive
  /-- `OTHER_VARIANT_OPEN`. -/
  | otherVariantOpen
  /-- `NO_EXPIRY`. -/
  | noExpiry
  /-- `CHAIN_FAILED`. -/
  | chainFailed
  /-- `NO_ENTRY`. -/
  | noEntry
  /-- `DRY_RUN`. -/
  | dryRun
  /-- `INCOMPLETE`. -/
  | incomplete
  /-- `ENTERED`. -/
  | entered
  deriving DecidableEq

/-- `apply_action` of an entry, and the check that every leg landed. -/
def applyEntry (shell : CalendarShell) (today : Date) (vix : Option ℚ) (specs : List LegSpec) :
    CalendarShell.CalendarExec EntryOutcome := do
  shell.openStructure today vix specs
  let positions ← reads shell.held
  pure (if ∀ role ∈ roles, role ∈ positions.map PaperPosition.legRole then .entered else .incomplete)

/-- `run_entry`. -/
def runEntry (v : Variant) (fetch : Date → Option OptionChain) (vix : Option ℚ) (now : Stamp) (dryRun : Bool) :
    CalendarShell.CalendarExec EntryOutcome := do
  let shell := setup.buildCalendarShell v now.date
  let T ← reads id
  if shell.held T ≠ [] then pure .alreadyOpen
  else if activeVariant setup.calendar setup.listed now.date ≠ some shell.config.name then pure .notActive
  else if setup.otherVariantOpen v T then pure .otherVariantOpen
  else
    match (v.policy setup.calendar setup.listed now.date).entryWindow now.date with
    | none => pure .noExpiry
    | some plan =>
      match fetch plan.nearExpiry with
      | none => pure .chainFailed
      | some market =>
        match (shell.planEntry T market fetch now).findSome? CalendarShell.EntryEvent.legs? with
        | none => pure .noEntry
        | some specs => if dryRun then pure .dryRun else applyEntry shell now.date vix specs

/-! ### A responding broker -/

/-- The broker answers for every listed expiry, each time with the chain asked for and the
same spot. -/
structure Responds (fetch : Date → Option OptionChain) : Prop where
  /-- There is a chain for each listed expiry. -/
  answers : ∀ expiry ∈ setup.listed, ∃ market, fetch expiry = some market
  /-- It is the chain of the expiry. -/
  expiry : ∀ expiry market, fetch expiry = some market → market.expiry = expiry
  /-- All chains have one spot. -/
  spot : ∀ expiry expiry' market market', fetch expiry = some market → fetch expiry' = some market' →
    market.underlyingSpot = market'.underlyingSpot

variable {setup} {fetch : Date → Option OptionChain}

/-- Which of the fetched chains an entry is planned on makes no difference. -/
theorem planEntry_fetched (h : setup.Responds fetch) (shell : CalendarShell) (T : PaperTrades) (now : Stamp)
    {expiry expiry' : Date} {market market' : OptionChain} (hm : fetch expiry = some market)
    (hm' : fetch expiry' = some market') :
    shell.planEntry T market fetch now = shell.planEntry T market' fetch now := by
  have hchain : ∀ {e : Date} {m : OptionChain}, fetch e = some m → ∀ x,
      CalendarShell.chain m fetch x = fetch x := by
    intro e m hfetch x
    rw [CalendarShell.chain]
    split
    next hx => rw [← hx, h.expiry e m hfetch, hfetch]
    next => rfl
  unfold CalendarShell.planEntry
  simp only [hchain hm, hchain hm', h.spot expiry expiry' market market' hm hm']

/-! ### The two gates -/

variable {v : Variant} {T : PaperTrades} {now : Stamp}

/-- **A fresh entry**: without a trade today, the strategy plans an entry only if today has a
window. -/
theorem window_of_fresh_entry {market : OptionChain} {specs : List LegSpec}
    (hfresh : ((T.getTrades v.config.strategyName).filter fun t => t.tradeDate = now.date) = [])
    (h : CalendarShell.EntryEvent.entry specs ∈
      (setup.buildCalendarShell v now.date).planEntry T market fetch now) :
    ((v.policy setup.calendar setup.listed now.date).entryWindow now.date).isSome = true := by
  by_contra hnone
  have hwindow : (setup.buildCalendarShell v now.date).policy.entryWindow now.date = none :=
    Option.not_isSome_iff_eq_none.mp hnone
  have hplan : (setup.buildCalendarShell v now.date).entryPlan T now = none := by
    have hfresh' : ((T.getTrades (setup.buildCalendarShell v now.date).strategyName).filter fun t =>
        t.tradeDate = now.date) = [] := hfresh
    unfold CalendarShell.entryPlan
    simp [hfresh', hwindow]
  rw [CalendarShell.planEntry, hplan] at h
  exact absurd h (by simp)

/-- An entry that is applied to a flat ledger ends with all four legs open. -/
theorem applyEntry_entered {shell : CalendarShell} (hflat : shell.held T = []) {market : OptionChain}
    {specs : List LegSpec} (h : CalendarShell.EntryEvent.entry specs ∈ shell.planEntry T market fetch now)
    (vix : Option ℚ) :
    ∃ T', applyEntry shell now.date vix specs T = .ok .entered T' ∧
      ((shell.held T').map PaperPosition.legRole).Perm roles ∧
      ∀ p ∈ shell.held T', ∀ q ∈ shell.held T', |p.netQty| = |q.netQty| := by
  obtain ⟨st, hst, hfree⟩ := CalendarShell.planEntry_entry h
  obtain ⟨T', hrun, hroles, hqty⟩ := CalendarShell.openStructure_whole hflat hst hfree vix
  refine ⟨T', ?_, hroles, hqty⟩
  have hall : ∀ role ∈ roles, role ∈ (shell.held T').map PaperPosition.legRole :=
    fun role hrole => hroles.mem_iff.mpr hrole
  rw [applyEntry, bind_run, hrun]
  simp only [bind_run, reads_run, if_pos hall]
  rfl

/-- **When the gates agree**: every variant is flat, the broker responds and the strategy
would plan an entry on the fetched chains. The script then opens the whole structure exactly
when today has a window of the variant. -/
theorem entry_gates_agree_iff (setup : CalendarSetup) (v : Variant) (T : PaperTrades) (now : Stamp)
    (fetch : Date → Option OptionChain) (vix : Option ℚ) (hresponds : setup.Responds fetch)
    (hflat : ∀ w : Variant, T.getPositions setup.storeLookup w.config.strategyName = [])
    (hentry : ∃ expiry market specs, fetch expiry = some market ∧ CalendarShell.EntryEvent.entry specs ∈
      (setup.buildCalendarShell v now.date).planEntry T market fetch now) :
    (∃ T', setup.runEntry v fetch vix now false T = .ok .entered T' ∧
        (((setup.buildCalendarShell v now.date).held T').map PaperPosition.legRole).Perm roles ∧
        ∀ p ∈ (setup.buildCalendarShell v now.date).held T', ∀ q ∈ (setup.buildCalendarShell v now.date).held T',
          |p.netQty| = |q.netQty|) ↔
      ((v.policy setup.calendar setup.listed now.date).entryWindow now.date).isSome = true := by
  have hheld : (setup.buildCalendarShell v now.date).held T = [] := hflat v
  have hother : setup.otherVariantOpen v T = false := by
    unfold otherVariantOpen
    simp [hflat]
  have hactive : activeVariant setup.calendar setup.listed now.date =
        some (setup.buildCalendarShell v now.date).config.name ↔
      ((v.policy setup.calendar setup.listed now.date).entryWindow now.date).isSome = true := activeVariant_eq_iff
  cases hwindow : (v.policy setup.calendar setup.listed now.date).entryWindow now.date with
  | none =>
    rw [hwindow] at hactive
    have hna : activeVariant setup.calendar setup.listed now.date ≠
        some (setup.buildCalendarShell v now.date).config.name := fun h => absurd (hactive.mp h) (by simp)
    have hrun : setup.runEntry v fetch vix now false T = .ok .notActive T := by
      unfold runEntry
      simp only [bind_run, reads_run, id, hheld, ne_eq, not_true_eq_false, if_false, hna, not_false_eq_true, if_true]
      rfl
    refine iff_of_false ?_ (by simp)
    rintro ⟨T', hT', -⟩
    rw [hrun] at hT'
    exact absurd hT' (by simp)
  | some plan =>
    rw [hwindow] at hactive
    have ha : activeVariant setup.calendar setup.listed now.date =
        some (setup.buildCalendarShell v now.date).config.name := hactive.mpr rfl
    obtain ⟨expiry, market, specs, hmarket, hspecs⟩ := hentry
    obtain ⟨market', hmarket'⟩ := hresponds.answers plan.nearExpiry (nearExpiry_listed hwindow)
    rw [planEntry_fetched hresponds _ T now hmarket hmarket'] at hspecs
    have hrun : setup.runEntry v fetch vix now false T =
        applyEntry (setup.buildCalendarShell v now.date) now.date vix specs T := by
      unfold runEntry
      simp only [bind_run, reads_run, id, hheld, ne_eq, not_true_eq_false, if_false, ha, hother, hwindow, hmarket',
        CalendarShell.legs_planEntry_iff.mpr hspecs, Bool.false_eq_true]
    refine iff_of_true ?_ rfl
    rw [hrun]
    exact applyEntry_entered hheld hspecs vix

/-! ### Re-entries in July 2026 -/

open CalendarShell

/-- The contracts that are traded. -/
private def tradedContracts : List Instrument :=
  julyContracts.instruments ++ [contract "NSE_FO|8" "CE" 24400 739853, contract "NSE_FO|9" "CE" 24500 739853,
    contract "NSE_FO|10" "PE" 23600 739853]

/-- The instrument file of a day: the contracts that are traded, and one row for each listed
expiry. -/
private def summerFile (today : Date) : InstrumentLookup :=
  ⟨tradedContracts ++
    (listingOn TradingCalendar.weekdays summerExpiries today).map fun d => contract "NSE_FO|11" "CE" 30000 d⟩

/-- Script and strategy with the file of a day. -/
private def summerSetup (today : Date) : CalendarSetup where
  calendar := TradingCalendar.weekdays
  lookup := summerFile today
  keys_ne := by
    intro inst hinst
    have htraded : ∀ inst ∈ tradedContracts, inst.instrumentKey ≠ "" := by decide
    rcases List.mem_append.mp hinst with hinst | hinst
    · exact htraded inst hinst
    · obtain ⟨d, -, rfl⟩ := List.mem_map.mp hinst
      exact show "NSE_FO|11" ≠ "" by decide
  select := nearestStraddle

/-- The chains of a day at a spot. -/
private def chainsAt (spot : ℚ) (expiry : Date) : Option OptionChain := some (chainOf spot expiry)

private theorem responds_chainsAt (today : Date) (spot : ℚ) : (summerSetup today).Responds (chainsAt spot) where
  answers expiry _ := ⟨chainOf spot expiry, rfl⟩
  expiry := by
    rintro expiry market h
    obtain rfl := Option.some.inj h
    rfl
  spot := by
    rintro expiry expiry' market market' h h'
    obtain rfl := Option.some.inj h
    obtain rfl := Option.some.inj h'
    rfl

/-- The ledger of a variant after an entry on one day and a close on another. -/
private def closedCycle (v : Variant) (entryDay exitDay : ℕ) (decision : ExitDecision) : PaperTrades :=
  let opened := ((summerSetup (739797 + entryDay)).buildCalendarShell v (739797 + entryDay)).step PaperTrades.empty
    (enterAt entryDay 11 24000)
  ((summerSetup (739797 + exitDay)).buildCalendarShell v (739797 + exitDay)).step opened (exitAt exitDay 10 decision)

private theorem reentry_planned {v : Variant} {T : PaperTrades} {now : Stamp} (today : Date)
    (h : ((((summerSetup today).buildCalendarShell v now.date).planEntry T (chainOf 24100 739825) (chainsAt 24100)
      now).findSome? EntryEvent.legs?).isSome = true) :
    ∃ expiry market specs, chainsAt 24100 expiry = some market ∧
      EntryEvent.entry specs ∈ ((summerSetup today).buildCalendarShell v now.date).planEntry T market (chainsAt 24100)
        now := by
  obtain ⟨specs, hspecs⟩ := Option.isSome_iff_exists.mp h
  exact ⟨739825, chainOf 24100 739825, specs, rfl, legs_planEntry_iff.mp hspecs⟩

/-- What is evaluated for the redeployment, in one evaluation of the ledger. -/
private theorem redeploy_facts :
    ((closedCycle .biweekly 14 15 .redeploySamePair).getPositions none Variant.monthly.config.strategyName = [] ∧
        (closedCycle .biweekly 14 15 .redeploySamePair).getPositions none Variant.biweekly.config.strategyName = []) ∧
      ((((summerSetup 739812).buildCalendarShell .biweekly (julyTime 15 11).date).planEntry
        (closedCycle .biweekly 14 15 .redeploySamePair) (chainOf 24100 739825) (chainsAt 24100)
        (julyTime 15 11)).findSome? EntryEvent.legs?).isSome = true ∧
      ((Variant.policy (summerSetup 739812).calendar .biweekly (summerSetup 739812).listed
        (julyTime 15 11).date).entryWindow (julyTime 15 11).date).isSome = true := by
  decide +kernel

/-- The bi-weekly variant is redeployed on 15 July, itself a day with a window. -/
theorem entry_gates_agree_iff_redeploy :
    ∃ T', (summerSetup 739812).runEntry .biweekly (chainsAt 24100) none (julyTime 15 11) false
        (closedCycle .biweekly 14 15 .redeploySamePair) = .ok .entered T' ∧
      ((((summerSetup 739812).buildCalendarShell .biweekly (julyTime 15 11).date).held T').map
        PaperPosition.legRole).Perm roles ∧
      ∀ p ∈ ((summerSetup 739812).buildCalendarShell .biweekly (julyTime 15 11).date).held T',
        ∀ q ∈ ((summerSetup 739812).buildCalendarShell .biweekly (julyTime 15 11).date).held T',
          |p.netQty| = |q.netQty| :=
  (entry_gates_agree_iff (summerSetup 739812) .biweekly (closedCycle .biweekly 14 15 .redeploySamePair) (julyTime 15 11)
    (chainsAt 24100) none (responds_chainsAt 739812 24100)
    (fun w => match w with
      | .monthly => redeploy_facts.1.1
      | .biweekly => redeploy_facts.1.2)
    (reentry_planned 739812 redeploy_facts.2.1)).mpr redeploy_facts.2.2

/-- What is evaluated for the re-centring. -/
private theorem recentre_facts :
    ((closedCycle .monthly 1 6 .recentre).getPositions none Variant.monthly.config.strategyName = [] ∧
        (closedCycle .monthly 1 6 .recentre).getPositions none Variant.biweekly.config.strategyName = []) ∧
      ((((summerSetup 739803).buildCalendarShell .monthly (julyTime 6 11).date).planEntry
        (closedCycle .monthly 1 6 .recentre) (chainOf 24100 739825) (chainsAt 24100)
        (julyTime 6 11)).findSome? EntryEvent.legs?).isSome = true ∧
      returnsWith (fun outcome _ => outcome = .notActive) ((summerSetup 739803).runEntry .monthly (chainsAt 24100) none
        (julyTime 6 11) false (closedCycle .monthly 1 6 .recentre)) = true := by
  decide +kernel

/-- The monthly variant, entered on 1 July, is re-centred on 6 July: the strategy would
re-enter under the plan of the cycle, the script stops at its first gate. -/
theorem recentre_not_active :
    (summerSetup 739803).Responds (chainsAt 24100) ∧
      (∀ w : Variant, (closedCycle .monthly 1 6 .recentre).getPositions none w.config.strategyName = []) ∧
      (∃ expiry market specs, chainsAt 24100 expiry = some market ∧
        EntryEvent.entry specs ∈ ((summerSetup 739803).buildCalendarShell .monthly (julyTime 6 11).date).planEntry
          (closedCycle .monthly 1 6 .recentre) market (chainsAt 24100) (julyTime 6 11)) ∧
      returnsWith (fun outcome _ => outcome = .notActive) ((summerSetup 739803).runEntry .monthly (chainsAt 24100) none
        (julyTime 6 11) false (closedCycle .monthly 1 6 .recentre)) = true ∧
      ¬∃ T', (summerSetup 739803).runEntry .monthly (chainsAt 24100) none (julyTime 6 11) false
        (closedCycle .monthly 1 6 .recentre) = .ok .entered T' := by
  obtain ⟨⟨hmonthly, hbiweekly⟩, hplanned, hrun⟩ := recentre_facts
  refine ⟨responds_chainsAt 739803 24100, fun w => ?_, reentry_planned 739803 hplanned, hrun, ?_⟩
  · cases w with
    | monthly => exact hmonthly
    | biweekly => exact hbiweekly
  rintro ⟨T', hT'⟩
  rw [hT'] at hrun
  exact absurd hrun (by simp [returnsWith])

end CalendarSetup

end NiftyShield.Strategy.NiftyCalendarV1
