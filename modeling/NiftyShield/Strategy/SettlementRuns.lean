import NiftyShield.Strategy.ExpirySettlement

/-!
# Runs of the expiry settlement

What `settle_expired_legs` (`src/strategy/expiry_settlement.py`) reports and writes. What
comes of a leg is told by the rows of that leg alone (`Outcome`), and a close touches no
other leg, so the loop gives each leg the outcome it has in the ledger the run starts from.

## What is proved

* `settleLegs_run`: the loop, as these outcomes and the closes of the settled legs;
* `settles_iff`: a run returns exactly when the broker answers for every expiry;
* `settle_expired_legs_spec`: a run accounts once for every leg that is due; a settled leg is
  flat, at its intrinsic value, and no row of it is live; no other leg is touched; a second
  run settles nothing; and a dry run writes nothing;
* `settled_leg_awaiting_reentry`: a row that awaits re-entry stays so in a settled leg, and a
  dry run leaves the leg it reports as settled open.
-/

namespace NiftyShield.Strategy.ExpirySettlement

open NiftyShield.Lib NiftyShield.Lib.Raising NiftyShield.Paper
open NiftyShield.Paper.PaperTrades

/-! ### What comes of a leg -/

/-- What comes of an expired leg in a ledger. -/
inductive Outcome (env : SettlementEnv) (dryRun : Bool) (T : PaperTrades) (leg : ExpiredLeg) :
    Except SettlementFailure Settlement → Prop where
  /-- There is no close for its expiry. -/
  | noClose (hfetch : fetchIndexClose env.broker leg.contract.expiry = .ok none) :
      Outcome env dryRun T leg (.error ⟨leg.strategyName, leg.legRole, leg.instrumentKey,
        "no NIFTY 50 close for " ++ leg.contract.expiry.isoformat⟩)
  /-- The key of its closing trade is taken. -/
  | blocked {close : ℚ} {trade : PaperTrade}
      (hfetch : fetchIndexClose env.broker leg.contract.expiry = .ok (some close))
      (htrade : buildSettlementTrade leg close = some trade)
      (hlive : dryRun = false) (htaken : T.hasKey trade.uniqueKey = true) :
      Outcome env dryRun T leg (.error ⟨leg.strategyName, leg.legRole, leg.instrumentKey,
        "closing trade blocked by duplicate guard"⟩)
  /-- It is settled. -/
  | settled {close : ℚ} {trade : PaperTrade}
      (hfetch : fetchIndexClose env.broker leg.contract.expiry = .ok (some close))
      (htrade : buildSettlementTrade leg close = some trade)
      (hfree : dryRun = false → T.hasKey trade.uniqueKey = false) :
      Outcome env dryRun T leg (.ok ⟨leg, close, trade⟩)

/-- The ledger after an outcome. -/
def afterOutcome (dryRun : Bool) (T : PaperTrades) : Except SettlementFailure Settlement → PaperTrades
  | .ok s => if dryRun then T else T.recordClose s.trade
  | .error _ => T

/-- The leg of an outcome. -/
def outcomeId : Except SettlementFailure Settlement → LegId
  | .ok s => s.id
  | .error f => f.id

variable {env : SettlementEnv} {dryRun : Bool} {T T' : PaperTrades} {leg : ExpiredLeg}
  {o : Except SettlementFailure Settlement} {id : LegId}

theorem Outcome.id_eq (h : Outcome env dryRun T leg o) : outcomeId o = leg.id := by
  cases h with
  | noClose hfetch => rfl
  | blocked hfetch htrade hlive htaken => rfl
  | settled hfetch htrade hfree => rfl

/-- The rows of the leg tell what comes of it. -/
theorem Outcome.congr (hrows : T.legRows leg.id = T'.legRows leg.id) (h : Outcome env dryRun T leg o) :
    Outcome env dryRun T' leg o := by
  have hkey : ∀ {close : ℚ} {trade : PaperTrade}, buildSettlementTrade leg close = some trade →
      T.hasKey trade.uniqueKey = T'.hasKey trade.uniqueKey := by
    intro close trade htrade
    rw [hasKey_eq_legRows, hasKey_eq_legRows, (buildSettlementTrade_spec htrade).1, hrows]
  cases h with
  | noClose hfetch => exact .noClose hfetch
  | blocked hfetch htrade hlive htaken => exact .blocked hfetch htrade hlive (hkey htrade ▸ htaken)
  | settled hfetch htrade hfree => exact .settled hfetch htrade fun hdry => hkey htrade ▸ hfree hdry

/-- A leg has one outcome. -/
theorem Outcome.unique {o' : Except SettlementFailure Settlement} (h : Outcome env dryRun T leg o)
    (h' : Outcome env dryRun T leg o') : o = o' := by
  cases h with
  | noClose hfetch =>
    cases h' with
    | noClose _ => rfl
    | blocked hfetch' _ _ _ => exact absurd (hfetch.symm.trans hfetch') (by simp)
    | settled hfetch' _ _ => exact absurd (hfetch.symm.trans hfetch') (by simp)
  | blocked hfetch htrade hlive htaken =>
    cases h' with
    | noClose hfetch' => exact absurd (hfetch.symm.trans hfetch') (by simp)
    | blocked _ _ _ _ => rfl
    | settled hfetch' htrade' hfree =>
      obtain rfl := Option.some.inj (Except.ok.inj (hfetch.symm.trans hfetch'))
      obtain rfl := Option.some.inj (htrade.symm.trans htrade')
      exact absurd (htaken.symm.trans (hfree hlive)) (by simp)
  | settled hfetch htrade hfree =>
    cases h' with
    | noClose hfetch' => exact absurd (hfetch.symm.trans hfetch') (by simp)
    | blocked hfetch' htrade' hlive htaken =>
      obtain rfl := Option.some.inj (Except.ok.inj (hfetch.symm.trans hfetch'))
      obtain rfl := Option.some.inj (htrade.symm.trans htrade')
      exact absurd (htaken.symm.trans (hfree hlive)) (by simp)
    | settled hfetch' htrade' _ =>
      obtain rfl := Option.some.inj (Except.ok.inj (hfetch.symm.trans hfetch'))
      obtain rfl := Option.some.inj (htrade.symm.trans htrade')
      rfl

/-- The other legs stay as they are. -/
theorem Outcome.legRows_of_ne (h : Outcome env dryRun T leg o) (hne : leg.id ≠ id) :
    (afterOutcome dryRun T o).legRows id = T.legRows id := by
  cases h with
  | noClose hfetch => rfl
  | blocked hfetch htrade hlive htaken => rfl
  | settled hfetch htrade hfree =>
    unfold afterOutcome
    simp only
    split
    next => rfl
    next => exact legRows_recordClose_of_ne ((buildSettlementTrade_spec htrade).1 ▸ hne)

/-! ### The loop -/

/-- The closes that are held were fetched. -/
def Coherent (env : SettlementEnv) (closes : Dict Date (Option ℚ)) : Prop :=
  ∀ on close, closes.get? on = some close → fetchIndexClose env.broker on = .ok close

theorem Coherent.set {closes : Dict Date (Option ℚ)} {on : Date} {close : Option ℚ} (h : Coherent env closes)
    (hfetch : fetchIndexClose env.broker on = .ok close) : Coherent env (closes.set on close) := by
  intro on' close' hget
  rw [Dict.get?_set] at hget
  split at hget
  next heq =>
    obtain rfl := Option.some.inj hget
    rwa [heq]
  next => exact h on' close' hget

variable {run : SettlementRun}

/-- The close a leg is settled at is the one fetched. -/
theorem closeFor_run {on : Date} {close : Option ℚ} (hco : Coherent env run.closes)
    (hfetch : fetchIndexClose env.broker on = .ok close) :
    ∃ closes, Coherent env closes ∧ env.closeFor on run = .ok close { run with closes := closes } := by
  unfold SettlementEnv.closeFor
  rw [bind_run, reads_run]
  cases hget : run.closes.get? on with
  | some held =>
    obtain rfl := Except.ok.inj ((hco on held hget).symm.trans hfetch)
    exact ⟨run.closes, hco, rfl⟩
  | none =>
    refine ⟨run.closes.set on close, hco.set hfetch, ?_⟩
    simp only [hfetch]
    rfl

/-- An error of the fetch is raised. -/
theorem closeFor_error {on : Date} {e : SettlementError} (hco : Coherent env run.closes)
    (hfetch : fetchIndexClose env.broker on = .error e) : env.closeFor on run = .error e run := by
  unfold SettlementEnv.closeFor
  rw [bind_run, reads_run]
  cases hget : run.closes.get? on with
  | some held => exact absurd ((hco on held hget).symm.trans hfetch) (by simp)
  | none =>
    simp only [hfetch]
    rfl

/-- The write of a leg's closing trade. -/
theorem book_eq {close : ℚ} {trade : PaperTrade} (hfetch : fetchIndexClose env.broker leg.contract.expiry =
    .ok (some close)) (htrade : buildSettlementTrade leg close = some trade) :
    ∃ o, Outcome env dryRun run.trades leg o ∧ run.book dryRun leg close trade =
      { run with trades := afterOutcome dryRun run.trades o, report := run.report.add o } := by
  have hid : (trade.strategyName, trade.legRole, trade.instrumentKey) = leg.id := (buildSettlementTrade_spec htrade).1
  obtain ⟨hs, hrole, hkey⟩ : trade.strategyName = leg.strategyName ∧ trade.legRole = leg.legRole ∧
      trade.instrumentKey = leg.instrumentKey := by
    simpa [ExpiredLeg.id] using hid
  cases dryRun with
  | true => exact ⟨_, .settled hfetch htrade (by simp), rfl⟩
  | false =>
    cases htaken : run.trades.hasKey trade.uniqueKey with
    | true =>
      refine ⟨_, .blocked hfetch htrade rfl htaken, ?_⟩
      simp [SettlementRun.book, recordTrade_duplicate htaken, SettlementRun.fail, afterOutcome]
    | false =>
      refine ⟨_, .settled hfetch htrade fun _ => htaken, ?_⟩
      simp [SettlementRun.book, (recordTrade_fresh htaken).1, afterOutcome, recordClose, hs, hrole, hkey]

/-- **One turn** of the loop. -/
theorem settleLeg_run (hco : Coherent env run.closes) (hleg : leg.Closable) {close : Option ℚ}
    (hfetch : fetchIndexClose env.broker leg.contract.expiry = .ok close) :
    ∃ o closes, Outcome env dryRun run.trades leg o ∧ Coherent env closes ∧ env.settleLeg dryRun leg run = .ok ()
      { trades := afterOutcome dryRun run.trades o, closes := closes, report := run.report.add o } := by
  obtain ⟨closes, hco', hclose⟩ := closeFor_run hco hfetch
  unfold SettlementEnv.settleLeg
  rw [bind_of_ok hclose]
  cases close with
  | none => exact ⟨_, closes, .noClose hfetch, hco', rfl⟩
  | some close =>
    obtain ⟨trade, htrade⟩ := hleg.exists_trade close
    obtain ⟨o, ho, hbook⟩ := @book_eq env dryRun leg { run with closes := closes } close trade hfetch htrade
    refine ⟨o, closes, ho, hco', ?_⟩
    simp only
    rw [bind_of_ok (fromOption_of_some htrade _), updates_run, hbook]

/-- **The loop**: each leg has the outcome it has in the ledger at the start. -/
theorem settleLegs_run {legs : List ExpiredLeg} : ∀ {run : SettlementRun}, Coherent env run.closes →
    (∀ leg ∈ legs, leg.Closable) → (legs.map ExpiredLeg.id).Nodup →
    (∀ leg ∈ legs, ∃ close, fetchIndexClose env.broker leg.contract.expiry = .ok close) →
    ∃ outs closes, List.Forall₂ (Outcome env dryRun run.trades) legs outs ∧
      legs.forM (env.settleLeg dryRun) run = .ok ()
        { trades := outs.foldl (afterOutcome dryRun) run.trades
          closes := closes
          report := outs.foldl SettlementReport.add run.report } := by
  induction legs with
  | nil => exact fun {run} _ _ _ _ => ⟨[], run.closes, .nil, rfl⟩
  | cons leg legs ih =>
    intro run hco hlegs hnodup hfetch
    obtain ⟨hnew, hrest⟩ := List.nodup_cons.mp hnodup
    obtain ⟨close, hclose⟩ := hfetch leg List.mem_cons_self
    obtain ⟨o, closes, ho, hco', hturn⟩ := @settleLeg_run env dryRun leg run hco (hlegs leg List.mem_cons_self) _ hclose
    obtain ⟨outs, closes', houts, hloop⟩ := @ih
      { trades := afterOutcome dryRun run.trades o, closes := closes, report := run.report.add o } hco'
      (fun l hl => hlegs l (List.mem_cons_of_mem leg hl)) hrest fun l hl => hfetch l (List.mem_cons_of_mem leg hl)
    refine ⟨o :: outs, closes', .cons ho ?_, ?_⟩
    · -- the turn did not touch the legs that follow
      have hne : ∀ l ∈ legs, leg.id ≠ l.id := fun l hl heq => hnew (heq ▸ List.mem_map_of_mem hl)
      refine ((List.forall₂_and_left _ _).mpr ⟨hne, houts⟩).imp fun l o' h => ?_
      exact h.2.congr (ho.legRows_of_ne h.1)
    · show (env.settleLeg dryRun leg >>= fun _ => legs.forM (env.settleLeg dryRun)) run = _
      rw [bind_of_ok hturn, hloop]
      rfl

/-- The loop raises where a fetch does. -/
theorem settleLegs_error {legs : List ExpiredLeg} : ∀ {run : SettlementRun}, Coherent env run.closes →
    (∀ leg ∈ legs, leg.Closable) →
    (∃ leg ∈ legs, ∃ e, fetchIndexClose env.broker leg.contract.expiry = .error e) →
    ∃ e run', legs.forM (env.settleLeg dryRun) run = .error e run' := by
  induction legs with
  | nil =>
    rintro run - - ⟨leg, hleg, -⟩
    exact absurd hleg List.not_mem_nil
  | cons leg legs ih =>
    rintro run hco hlegs ⟨l, hl, e, he⟩
    have hstep : (leg :: legs).forM (env.settleLeg dryRun) run =
        (env.settleLeg dryRun leg >>= fun _ => legs.forM (env.settleLeg dryRun)) run := rfl
    rw [hstep]
    cases hclose : fetchIndexClose env.broker leg.contract.expiry with
    | error e' =>
      refine ⟨e', run, bind_of_error ?_⟩
      unfold SettlementEnv.settleLeg
      exact bind_of_error (closeFor_error hco hclose)
    | ok close =>
      obtain ⟨o, closes, -, hco', hturn⟩ :=
        @settleLeg_run env dryRun leg run hco (hlegs leg List.mem_cons_self) _ hclose
      rw [bind_of_ok hturn]
      refine ih hco' (fun l' hl' => hlegs l' (List.mem_cons_of_mem leg hl')) ⟨l, ?_, e, he⟩
      refine (List.mem_cons.mp hl).resolve_left ?_
      rintro rfl
      exact absurd (hclose.symm.trans he) (by simp)

/-! ### Runs -/

/-- The ledger after the outcomes of a run. -/
theorem foldl_afterOutcome (outs : List (Except SettlementFailure Settlement)) : ∀ T : PaperTrades,
    outs.foldl (afterOutcome dryRun) T =
      if dryRun then T else T.recordCloses ((results outs).map Settlement.trade) := by
  induction outs with
  | nil => exact fun T => by simp
  | cons o outs ih =>
    intro T
    rw [List.foldl_cons, ih]
    cases o with
    | ok s => cases dryRun <;> rfl
    | error f => rfl

/-- The report of the outcomes of a run. -/
theorem foldl_add (outs : List (Except SettlementFailure Settlement)) : ∀ report : SettlementReport,
    outs.foldl SettlementReport.add report =
      { settled := report.settled ++ results outs, failures := report.failures ++ errors outs } := by
  induction outs with
  | nil => exact fun report => by simp
  | cons o outs ih =>
    intro report
    rw [List.foldl_cons, ih]
    cases o with
    | ok s => simp [SettlementReport.add]
    | error f => simp [SettlementReport.add]

/-- The legs that have expired are distinct. -/
theorem nodup_legs (env : SettlementEnv) (T : PaperTrades) : ((results (env.entries T)).map ExpiredLeg.id).Nodup :=
  (List.nodup_append.mp ((map_results_append_map_errors entryId _).nodup_iff.mpr (nodup_entries env T))).1

theorem coherent_empty : Coherent env .empty := fun on close h => absurd h (by simp)

/-- **A run** that has every close it asks for. -/
theorem settleExpiredLegs_run (hfetch : ∀ leg ∈ results (env.entries T), ∃ close,
      fetchIndexClose env.broker leg.contract.expiry = .ok close) :
    ∃ outs, List.Forall₂ (Outcome env dryRun T) (results (env.entries T)) outs ∧
      settleExpiredLegs env dryRun T = .ok
        { settled := results outs, failures := errors (env.entries T) ++ errors outs }
        (if dryRun then T else T.recordCloses ((results outs).map Settlement.trade)) := by
  obtain ⟨outs, closes, houts, hloop⟩ := @settleLegs_run env dryRun (results (env.entries T))
    { trades := T, report := { failures := errors (env.entries T) } } coherent_empty
    (fun leg hleg => (leg_of_mem (mem_results.mp hleg)).1) (nodup_legs env T) hfetch
  refine ⟨outs, houts, ?_⟩
  simp only [settleExpiredLegs, findExpiredLegs, hloop, foldl_afterOutcome, foldl_add, List.nil_append]

/-- **When a run returns**: exactly when it can fetch the close of every expiry it asks for. -/
theorem settles_iff : (∃ report T', settleExpiredLegs env dryRun T = .ok report T') ↔
    ∀ leg ∈ results (env.entries T), ∃ close, fetchIndexClose env.broker leg.contract.expiry = .ok close := by
  constructor
  · rintro ⟨report, T', h⟩ leg hleg
    cases hclose : fetchIndexClose env.broker leg.contract.expiry with
    | ok close => exact ⟨close, rfl⟩
    | error e =>
      obtain ⟨e', run', hloop⟩ := @settleLegs_error env dryRun (results (env.entries T))
        { trades := T, report := { failures := errors (env.entries T) } } coherent_empty
        (fun l hl => (leg_of_mem (mem_results.mp hl)).1) ⟨leg, hleg, e, hclose⟩
      simp only [settleExpiredLegs, findExpiredLegs, hloop] at h
      exact absurd h (by simp)
  · intro hfetch
    obtain ⟨outs, -, hrun⟩ := @settleExpiredLegs_run env dryRun T hfetch
    exact ⟨_, _, hrun⟩

/-! ### What a run leaves -/

/-- The legs of a report. -/
def SettlementReport.ids (report : SettlementReport) : List LegId :=
  report.settled.map Settlement.id ++ report.failures.map SettlementFailure.id

/-- A report has the legs that are due, each once. -/
def Accounts (env : SettlementEnv) (T : PaperTrades) (report : SettlementReport) : Prop :=
  report.ids.Nodup ∧ ∀ id, id ∈ report.ids ↔ Due env T id

/-- A settlement is at the intrinsic value of its contract, or the floor. -/
structure Priced (env : SettlementEnv) (s : Settlement) : Prop where
  /-- The contract is that of the leg. -/
  contract : env.contractOf s.leg.instrumentKey = some s.leg.contract
  /-- The close is that of its expiry. -/
  close : fetchIndexClose env.broker s.leg.contract.expiry = .ok (some s.indexClose)
  /-- The price. -/
  price : s.trade.price =
    max (intrinsicValue s.leg.contract.optionType s.leg.contract.strike s.indexClose) settlementPriceFloor

/-- What a settlement leaves of its leg. -/
structure SettledLeg (T T' : PaperTrades) (s : Settlement) : Prop where
  /-- It is flat. -/
  flat : T'.netQty s.id.1 s.id.2 = 0
  /-- Its live rows are closed, and the closing trade is added. -/
  rows : ∃ n, T'.legRows s.id =
    (T.legRows s.id).map TradeRow.close ++ [⟨n, { s.trade with state := .closed }⟩]
  /-- Its rows are CLOSED, but for those that awaited re-entry. -/
  closed : ∀ r ∈ T'.legRows s.id,
    r.trade.state = .closed ∨ r.trade.state = .reEntryPending ∧ r ∈ T.legRows s.id

section Outcomes

variable {outs : List (Except SettlementFailure Settlement)} {s : Settlement}

/-- A settlement is of an expired leg. -/
theorem leg_of_settled (houts : List.Forall₂ (Outcome env dryRun T) (results (env.entries T)) outs)
    (hs : s ∈ results outs) : .ok s.leg ∈ env.entries T ∧
      fetchIndexClose env.broker s.leg.contract.expiry = .ok (some s.indexClose) ∧
      buildSettlementTrade s.leg s.indexClose = some s.trade ∧
      (dryRun = false → T.hasKey s.trade.uniqueKey = false) := by
  obtain ⟨leg, hleg, ho⟩ := forall₂_left_of_mem houts _ (mem_results.mp hs)
  cases ho with
  | settled hfetch htrade hfree => exact ⟨mem_results.mp hleg, hfetch, htrade, hfree⟩

theorem priced_of_settled (houts : List.Forall₂ (Outcome env dryRun T) (results (env.entries T)) outs)
    (hs : s ∈ results outs) : Priced env s := by
  obtain ⟨hleg, hfetch, htrade, -⟩ := leg_of_settled houts hs
  exact ⟨(mem_legs_iff.mp hleg).2.2, hfetch, (buildSettlementTrade_spec htrade).2.2.1⟩

/-- **The report** has each leg that is due once. -/
theorem accounts_of_outcomes (houts : List.Forall₂ (Outcome env dryRun T) (results (env.entries T)) outs) :
    Accounts env T { settled := results outs, failures := errors (env.entries T) ++ errors outs } := by
  have hlegs : outs.map outcomeId = (results (env.entries T)).map ExpiredLeg.id :=
    (map_eq_of_forall₂ (fun _ _ ho => ho.id_eq.symm) houts).symm
  have hperm : (SettlementReport.ids
      { settled := results outs, failures := errors (env.entries T) ++ errors outs }).Perm
      ((env.entries T).map entryId) := by
    have houtcomes := map_results_append_map_errors outcomeId outs
    have hentries := map_results_append_map_errors entryId (env.entries T)
    rw [hlegs] at houtcomes
    refine List.Perm.trans ?_ ((houtcomes.append_right _).trans hentries)
    rw [SettlementReport.ids, List.map_append, List.append_assoc]
    exact List.perm_append_comm.append_left _
  exact ⟨hperm.nodup_iff.mpr (nodup_entries env T), fun id => hperm.mem_iff.trans mem_entries_iff⟩

/-- The closing trades are of the legs that are settled. -/
theorem legIds_of_outcomes (houts : List.Forall₂ (Outcome env dryRun T) (results (env.entries T)) outs) :
    ((results outs).map Settlement.trade).map PaperTrade.legId = (results outs).map Settlement.id := by
  rw [List.map_map]
  refine List.map_congr_left fun s hs => ?_
  obtain ⟨-, -, htrade, -⟩ := leg_of_settled houts hs
  exact (buildSettlementTrade_spec htrade).1

/-- **The other legs** are not touched. -/
theorem legRows_of_outcomes (houts : List.Forall₂ (Outcome env dryRun T) (results (env.entries T)) outs)
    (hid : ∀ s ∈ results outs, s.id ≠ id) :
    (T.recordCloses ((results outs).map Settlement.trade)).legRows id = T.legRows id := by
  refine legRows_recordCloses_of_not_mem fun t ht heq => ?_
  have hmem := List.mem_map_of_mem (f := PaperTrade.legId) ht
  rw [legIds_of_outcomes houts] at hmem
  obtain ⟨s, hs, hsid⟩ := List.mem_map.mp hmem
  exact hid s hs (hsid.trans heq)

/-- **A settled leg** is flat, and its live rows are closed. -/
theorem settledLeg_of_outcomes (houts : List.Forall₂ (Outcome env false T) (results (env.entries T)) outs)
    (hs : s ∈ results outs) : SettledLeg T (T.recordCloses ((results outs).map Settlement.trade)) s := by
  obtain ⟨hleg, -, htrade, hfree⟩ := leg_of_settled houts hs
  obtain ⟨hid, hqty, -, hstate⟩ := buildSettlementTrade_spec htrade
  have hnodup := (List.nodup_append.mp (accounts_of_outcomes houts).1).1
  rw [← legIds_of_outcomes houts] at hnodup
  obtain ⟨n, hrows⟩ := legRows_recordCloses_of_mem hnodup (List.mem_map_of_mem hs) (hfree rfl)
  have hclose : (⟨n, s.trade⟩ : TradeRow).close = ⟨n, { s.trade with state := .closed }⟩ := if_pos (Or.inl hstate)
  rw [hid, hclose] at hrows
  refine ⟨?_, ⟨n, hrows⟩, fun r hr => ?_⟩
  · have hnet := (mem_legs_iff.mp hleg).2.1
    rw [netQty_eq_legRows] at hnet ⊢
    rw [show s.id = s.leg.id from rfl, hrows, List.map_append, netOf_append, netOf_map_close, ← hnet, List.map_singleton,
      netOf_singleton, signedQty_setState, hqty]
    exact add_neg_cancel _
  · rw [show s.id = s.leg.id from rfl, hrows, List.mem_append] at hr
    rcases hr with hr | hr
    · obtain ⟨r₀, hr₀, rfl⟩ := List.mem_map.mp hr
      rcases state_close r₀ with hclosed | ⟨hwaits, hsame⟩
      · exact Or.inl hclosed
      · exact Or.inr ⟨hwaits, hsame.symm ▸ hr₀⟩
    · obtain rfl := List.mem_singleton.mp hr
      exact Or.inl rfl

end Outcomes

/-- What is due after a run was due before it, and is not settled by it. -/
theorem due_before {outs : List (Except SettlementFailure Settlement)}
    (houts : List.Forall₂ (Outcome env false T) (results (env.entries T)) outs)
    (hdue : Due env (T.recordCloses ((results outs).map Settlement.trade)) id) :
    (∀ s ∈ results outs, s.id ≠ id) ∧ Due env T id := by
  have hid : ∀ s ∈ results outs, s.id ≠ id := by
    rintro s hs rfl
    exact hdue.notFlat (settledLeg_of_outcomes houts hs).flat
  have hrows := legRows_of_outcomes houts hid
  obtain ⟨hsegment, hlive, hnotFlat, hexpired⟩ := hdue
  rw [netQty_eq_legRows, hrows, ← netQty_eq_legRows] at hnotFlat
  rw [hrows] at hlive
  exact ⟨hid, hsegment, hlive, hnotFlat, hexpired⟩

/-- **A second run** settles nothing and changes nothing. -/
theorem settles_nothing_again {outs : List (Except SettlementFailure Settlement)}
    (houts : List.Forall₂ (Outcome env false T) (results (env.entries T)) outs)
    (hfetch : ∀ leg ∈ results (env.entries T), ∃ close,
      fetchIndexClose env.broker leg.contract.expiry = .ok close) :
    ∃ again, settleExpiredLegs env false (T.recordCloses ((results outs).map Settlement.trade)) =
      .ok again (T.recordCloses ((results outs).map Settlement.trade)) ∧ again.settled = [] := by
  have hbefore : ∀ leg, .ok leg ∈ env.entries (T.recordCloses ((results outs).map Settlement.trade)) →
      (∀ s ∈ results outs, s.id ≠ leg.id) ∧ .ok leg ∈ env.entries T := by
    intro leg hleg
    obtain ⟨hdue, hnet, hcontract⟩ := mem_legs_iff.mp hleg
    obtain ⟨hid, hdue'⟩ := due_before houts hdue
    rw [netQty_eq_legRows, legRows_of_outcomes houts hid, ← netQty_eq_legRows] at hnet
    exact ⟨hid, mem_legs_iff.mpr ⟨hdue', hnet, hcontract⟩⟩
  obtain ⟨outs', houts', hrun⟩ := @settleExpiredLegs_run env false _ fun leg hleg =>
    hfetch leg (mem_results.mpr (hbefore leg (mem_results.mp hleg)).2)
  have hnone : results outs' = [] := by
    refine List.eq_nil_iff_forall_not_mem.mpr fun s hs => ?_
    obtain ⟨hleg, hclose, htrade, hfree⟩ := leg_of_settled houts' hs
    obtain ⟨hid, hleg'⟩ := hbefore s.leg hleg
    -- the first run found the leg as the second does, so it settled it
    obtain ⟨o, ho, houtcome⟩ := forall₂_right_of_mem houts s.leg (mem_results.mpr hleg')
    have hsettled : Outcome env false T s.leg (.ok s) :=
      (Outcome.settled hclose htrade hfree).congr (legRows_of_outcomes houts hid)
    rw [houtcome.unique hsettled] at ho
    exact hid s (mem_results.mpr ho) rfl
  rw [hnone] at hrun
  exact ⟨_, hrun, rfl⟩

/-- **Expiry settlement.** A run that writes accounts once for every leg that is due; what it
settles is at the intrinsic value, flat and not live; no other leg is touched; and a second
run settles nothing. A dry run reports the same way and writes nothing. -/
theorem settle_expired_legs_spec (env : SettlementEnv) (T : PaperTrades) :
    (∀ report T', settleExpiredLegs env false T = .ok report T' →
      Accounts env T report ∧ (∀ s ∈ report.settled, Priced env s ∧ SettledLeg T T' s) ∧
        (∀ id, (∀ s ∈ report.settled, s.id ≠ id) → T'.legRows id = T.legRows id) ∧
        ∃ again, settleExpiredLegs env false T' = .ok again T' ∧ again.settled = []) ∧
      ∀ report T', settleExpiredLegs env true T = .ok report T' →
        Accounts env T report ∧ (∀ s ∈ report.settled, Priced env s) ∧ T' = T := by
  constructor
  · intro report T' h
    have hfetch := settles_iff.mp ⟨report, T', h⟩
    obtain ⟨outs, houts, hrun⟩ := @settleExpiredLegs_run env false T hfetch
    obtain ⟨rfl, rfl⟩ := EStateM.Result.ok.inj (h.symm.trans hrun)
    exact ⟨accounts_of_outcomes houts,
      fun s hs => ⟨priced_of_settled houts hs, settledLeg_of_outcomes houts hs⟩,
      fun id hid => legRows_of_outcomes houts hid, settles_nothing_again houts hfetch⟩
  · intro report T' h
    have hfetch := settles_iff.mp ⟨report, T', h⟩
    obtain ⟨outs, houts, hrun⟩ := @settleExpiredLegs_run env true T hfetch
    obtain ⟨rfl, rfl⟩ := EStateM.Result.ok.inj (h.symm.trans hrun)
    exact ⟨accounts_of_outcomes houts, fun s hs => priced_of_settled houts hs, rfl⟩

/-! ### A put that was rolled into -/

/-- A row of the put of 25000 that expired on 30 June. -/
private def putRow (d : Date) (a : TradeAction) (state : TradeState) : PaperTrade where
  strategyName := "paper_nifty_overlay"
  legRole := "overlay_pp"
  instrumentKey := "NSE_FO|1001"
  tradeDate := d
  action := a
  quantity := 65
  price := 100
  state := state
  paperPrefix := hasPaperPrefix_overlay
  legRole_ne := overlayPp_ne
  instrumentKey_ne := by decide
  quantity_pos := lot_pos
  price_pos := price100_pos

/-- The put is held since 10 June. -/
def heldPut : PaperTrades := (PaperTrades.empty.recordTrade (putRow 739777 .buy .open)).1

/-- One lot of it awaits re-entry. -/
def heldPutAwaiting : PaperTrades := (heldPut.recordTrade (putRow 739770 .buy .reEntryPending)).1

/-- A run on 2 July; the index closed at 24200 on the expiry date. -/
def julyRun : SettlementEnv where
  lookup := { instruments := [] }
  today := 739799
  overrides := Dict.empty.set "NSE_FO|1001" ⟨25000, .pe, 739797⟩
  broker := fun _ => .ok [.row "2026-06-30T00:00:00+05:30" (some 24200)]

/-- The put is settled at 800. -/
theorem settle_expired_legs_spec_put : ∃ report T', settleExpiredLegs julyRun false heldPut = .ok report T' ∧
    (∃ s ∈ report.settled, s.trade.price = 800 ∧ SettledLeg heldPut T' s) ∧
    ∃ again, settleExpiredLegs julyRun false T' = .ok again T' ∧ again.settled = [] := by
  have hends : returnsWith (fun report _ => decide (∃ s ∈ report.settled, s.trade.price = 800))
      (settleExpiredLegs julyRun false heldPut) = true := by
    decide +kernel
  obtain ⟨report, T', hrun, hprice⟩ := returnsWith_iff.mp hends
  obtain ⟨s, hs, hprice⟩ := of_decide_eq_true hprice
  obtain ⟨-, hsettled, -, hagain⟩ := (settle_expired_legs_spec julyRun heldPut).1 report T' hrun
  exact ⟨report, T', hrun, ⟨s, hs, hprice, (hsettled s hs).2⟩, hagain⟩

/-- A row of a settled leg that awaits re-entry is not closed; and a dry run leaves open what
it reports as settled, and reports it again. -/
theorem settled_leg_awaiting_reentry :
    (∃ report T', settleExpiredLegs julyRun false heldPutAwaiting = .ok report T' ∧
      ∃ s ∈ report.settled, ∃ r ∈ T'.legRows s.id, r.trade.state ≠ .closed) ∧
    ∃ report T', settleExpiredLegs julyRun true heldPut = .ok report T' ∧
      ∃ s ∈ report.settled, T'.netQty s.id.1 s.id.2 ≠ 0 ∧
        ∃ again T'', settleExpiredLegs julyRun true T' = .ok again T'' ∧ again.settled ≠ [] := by
  constructor
  · have hends : returnsWith (fun report T' => decide (∃ s ∈ report.settled, ∃ r ∈ T'.legRows s.id,
        r.trade.state ≠ .closed)) (settleExpiredLegs julyRun false heldPutAwaiting) = true := by
      decide +kernel
    obtain ⟨report, T', hrun, hwaits⟩ := returnsWith_iff.mp hends
    exact ⟨report, T', hrun, of_decide_eq_true hwaits⟩
  · have hends : returnsWith (fun report T' => decide (∃ s ∈ report.settled, T'.netQty s.id.1 s.id.2 ≠ 0 ∧
        returnsWith (fun again _ => decide (again.settled ≠ [])) (settleExpiredLegs julyRun true T') = true))
        (settleExpiredLegs julyRun true heldPut) = true := by
      decide +kernel
    obtain ⟨report, T', hrun, hopen⟩ := returnsWith_iff.mp hends
    obtain ⟨s, hs, hnet, hagain⟩ := of_decide_eq_true hopen
    obtain ⟨again, T'', hrun', hagain⟩ := returnsWith_iff.mp hagain
    exact ⟨report, T', hrun, s, hs, hnet, again, T'', hrun', of_decide_eq_true hagain⟩

end NiftyShield.Strategy.ExpirySettlement
