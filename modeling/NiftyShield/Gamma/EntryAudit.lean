import NiftyShield.Gamma.ScanRuns

/-!
# The rows of a scan

`_run_entries` (`scripts/gamma_scan.py`) logs the strikes that were evaluated: those not chosen
for an entry at once, each chosen one with its entry, in one transaction, or with an audit row
where that transaction raises.

## What is proved

`entries_audited`: whichever entries fail, and wherever, each strike gets one row; a filled row is
that of the first strike of its option type in the order of `rank_candidates`; the ledger gets
the BUY of the strikes whose row is filled and nothing else; and the row of a strike that passed
and was not bought says why.
-/

namespace NiftyShield.Gamma

open NiftyShield.Lib NiftyShield.Lib.Process NiftyShield.Paper

namespace Scan

/-- `_run_entries`: the number of trades opened; `none` where a plain insert raises. -/
def runEntries (r : Scan) (evals : List Evaluated) : Process Db Txn (Option ℕ) :=
  .call (.rows (r.planEntries evals).1) fun
    | none => .ret none
    | some _ => do
      let entered ← r.enterEach (r.planEntries evals).2
      return some entered

/-- The writes of a scan are its entries and then its exits. -/
theorem record_eq_runEntries (r : Scan) (evals : List Evaluated) (positions : List GammaSignalLogEntry) :
    r.record evals positions = r.runEntries evals >>= fun
      | none => .ret none
      | some entered => do
        let exits ← r.exitEach evals positions
        return exits.map fun (exited, exitCalls) =>
          { evaluated := evals.length, triggered := evals.countP (·.passed), entered, exited, exitCalls } := by
  rw [record, runEntries, call_bind]
  refine congrArg (Process.call _) (funext fun seen => ?_)
  cases seen with
  | none => rfl
  | some db => simp only [Process.bind_assoc, Process.pure_eq, Process.ret_bind]

/-- The transactions of the entries. -/
def IsEntry : Txn → Prop
  | .entry _ => True
  | _ => False

/-- The ledger trade of an entry. -/
def buyOf (r : Scan) (ev : Evaluated) : Option PaperTrade :=
  (legRole ev.entry.contract.optionType).bind (r.entryOrder ev).trade

/-- What an evaluation of a scan has in its row. -/
structure OfScan (ev : Evaluated) : Prop where
  triggered : ev.entry.signalTriggered = ev.passed
  contract : ev.entry.contract = ev.snap.contract
  side : ev.candidate.optionType = ev.entry.contract.optionType
  plain : Plain ev.entry

/-- A row of the log is that of the strike, and says why if the strike passed and was not
bought. -/
structure RowFor (ev : Evaluated) (e : GammaSignalLogEntry) : Prop where
  id : e.signalId = ev.entry.signalId
  contract : e.contract = ev.entry.contract
  timestamp : e.signalTimestamp = ev.entry.signalTimestamp
  reason : ev.passed = true → e.paperTradeFilled = false → e.unfilledReason.isSome = true

variable {r : Scan}

theorem ofScan_of_mem {sqrt : ℚ → ℚ} {held : List Contract} {history : SignalLog} {watch : List GammaWatchlistEntry}
    {snaps : List GammaChainSnapshot} {ev : Evaluated} (h : ev ∈ r.evaluateAll sqrt held history watch snaps) :
    OfScan ev := by
  obtain ⟨n, snap, -, hev⟩ := mem_evaluateAll h
  unfold evaluateSnap at hev
  split at hev
  · split at hev
    · exact absurd hev (by simp)
    · rw [← Option.some.inj hev]
      exact ⟨rfl, rfl, rfl, rfl, rfl⟩
  · exact absurd hev (by simp)

/-! ### The strikes chosen -/

theorem firstPerType_sublist : ∀ evals : List Evaluated, (firstPerType evals).Sublist evals
  | [] => List.Sublist.slnil
  | ev :: evals => (List.filter_sublist.trans (firstPerType_sublist evals)).cons_cons ev

/-- The strikes chosen are the first of their types. -/
theorem mem_firstPerType {ev : Evaluated} : ∀ {evals : List Evaluated}, ev ∈ firstPerType evals ↔
    evals.find? (fun ev' => ev'.candidate.optionType = ev.candidate.optionType) = some ev
  | [] => by simp [firstPerType]
  | first :: evals => by
    rw [firstPerType, List.mem_cons, List.mem_filter, mem_firstPerType, List.find?_cons]
    by_cases hside : first.candidate.optionType = ev.candidate.optionType
    · simp [hside, eq_comm]
    · have hne : ev ≠ first := fun h => hside (by rw [h])
      simp [hside, hne, Ne.symm hside]

/-- No two are of one type. -/
theorem nodup_firstPerType : ∀ evals : List Evaluated,
    ((firstPerType evals).map (·.candidate.optionType)).Nodup
  | [] => List.nodup_nil
  | ev :: evals => by
    rw [firstPerType, List.map_cons, List.nodup_cons]
    refine ⟨fun h => ?_, (nodup_firstPerType evals).sublist (List.filter_sublist.map _)⟩
    obtain ⟨ev', hev', hside⟩ := List.mem_map.mp h
    simpa [hside] using (List.mem_filter.mp hev').2

theorem rankPassed_perm (evals : List Evaluated) : (rankPassed evals).Perm (evals.filter (·.passed)) :=
  (List.perm_insertionSort _ _).trans (List.perm_insertionSort _ _)

section Chosen

variable {evals : List Evaluated}

theorem passed_of_mem_selectEntries {ev : Evaluated} (h : ev ∈ selectEntries evals) :
    ev ∈ evals ∧ ev.passed = true :=
  List.mem_filter.mp ((rankPassed_perm evals).mem_iff.mp ((firstPerType_sublist _).subset h))

theorem nodup_ids_selectEntries (hids : (evals.map (·.entry.signalId)).Nodup) :
    ((selectEntries evals).map (·.entry.signalId)).Nodup := by
  have hpassed : ((rankPassed evals).map (·.entry.signalId)).Nodup :=
    ((rankPassed_perm evals).map _).nodup_iff.mpr (hids.sublist (List.filter_sublist.map _))
  exact hpassed.sublist ((firstPerType_sublist _).map _)

/-- With distinct ids the strikes are those chosen and those whose id is none of theirs. -/
theorem ids_partition (hids : (evals.map (·.entry.signalId)).Nodup) :
    ((evals.filter fun ev => ev.entry.signalId ∉ (selectEntries evals).map (·.entry.signalId)).map
      (·.entry.signalId) ++ (selectEntries evals).map (·.entry.signalId)).Perm (evals.map (·.entry.signalId)) := by
  have hchosen : (selectEntries evals).Perm
      (evals.filter fun ev => ev.entry.signalId ∈ (selectEntries evals).map (·.entry.signalId)) := by
    refine (List.perm_ext_iff_of_nodup (nodup_ids_selectEntries hids).of_map (hids.of_map.filter _)).mpr fun ev => ?_
    rw [List.mem_filter, decide_eq_true_iff]
    constructor
    · exact fun h => ⟨(passed_of_mem_selectEntries h).1, List.mem_map_of_mem h⟩
    · rintro ⟨hev, hid⟩
      obtain ⟨ev', hev', heq⟩ := List.mem_map.mp hid
      rwa [List.inj_on_of_nodup_map hids hev (passed_of_mem_selectEntries hev').1 heq.symm]
  have hsplit := List.filter_append_perm
    (fun ev : Evaluated => decide (ev.entry.signalId ∈ (selectEntries evals).map (·.entry.signalId))) evals
  simp only [← decide_not] at hsplit
  rw [← List.map_append]
  exact ((List.Perm.append_left _ hchosen).trans (List.perm_append_comm.trans hsplit)).map _

/-! ### The plan -/

/-- **The plan**: no row that is logged at once is filled, and each says why its strike is not
entered. -/
theorem rowFor_of_mem_planEntries (hscan : ∀ ev ∈ evals, OfScan ev) {e : GammaSignalLogEntry}
    (he : e ∈ (r.planEntries evals).1) : e.paperTradeFilled = false ∧ ∃ ev ∈ evals, RowFor ev e := by
  unfold planEntries at he
  simp only at he
  split at he
  · obtain ⟨ev, hev, rfl⟩ := List.mem_map.mp he
    obtain ⟨htriggered, -, -, hunfilled, -⟩ := hscan ev hev
    split
    next => exact ⟨hunfilled, ev, hev, rfl, rfl, rfl, fun _ _ => rfl⟩
    next hid =>
      split
      next => exact ⟨hunfilled, ev, hev, rfl, rfl, rfl, fun _ _ => rfl⟩
      next hnot =>
        exact ⟨hunfilled, ev, hev, rfl, rfl, rfl, fun hpassed => absurd ⟨htriggered.trans hpassed, hid⟩ hnot⟩
  · obtain ⟨ev, hmem, rfl⟩ := List.mem_map.mp he
    obtain ⟨hev, hid⟩ := List.mem_filter.mp hmem
    obtain ⟨htriggered, -, -, hunfilled, -⟩ := hscan ev hev
    split
    next => exact ⟨hunfilled, ev, hev, rfl, rfl, rfl, fun _ _ => rfl⟩
    next hnot =>
      exact ⟨hunfilled, ev, hev, rfl, rfl, rfl, fun hpassed =>
        absurd ⟨htriggered.trans hpassed, of_decide_eq_true hid⟩ hnot⟩

theorem planEntries_sublist (r : Scan) (evals : List Evaluated) : (r.planEntries evals).2.Sublist (selectEntries evals) := by
  unfold planEntries
  simp only
  split
  · exact List.nil_sublist _
  · exact List.Sublist.refl _

/-- With the strikes to enter the rows logged at once are those of all strikes. -/
theorem planEntries_perm (r : Scan) (hids : (evals.map (·.entry.signalId)).Nodup) :
    (((r.planEntries evals).1.map (·.signalId)) ++ (r.planEntries evals).2.map (·.entry.signalId)).Perm
      (evals.map (·.entry.signalId)) := by
  unfold planEntries
  simp only
  split
  · rw [List.map_nil, List.append_nil, List.map_map]
    refine List.Perm.of_eq (List.map_congr_left fun ev _ => ?_)
    simp only [Function.comp]
    split
    · rfl
    · split <;> rfl
  · rw [List.map_map, List.map_congr_left (g := fun ev : Evaluated => ev.entry.signalId)]
    · exact ids_partition hids
    · intro ev _
      simp only [Function.comp]
      split <;> rfl

end Chosen

/-! ### The entries -/

theorem rows_recordRows {db db' : Db} {entries : List GammaSignalLogEntry} (h : db.recordRows entries = some db') :
    db'.log.rows = db.log.rows ++ entries ∧ db'.trades = db.trades := by
  have hinsert : ∀ {entries : List GammaSignalLogEntry} {log log' : SignalLog},
      entries.foldlM SignalLog.insertSignalLog log = some log' → log'.rows = log.rows ++ entries := by
    intro entries
    induction entries with
    | nil =>
      intro log log' h
      obtain rfl := Option.some.inj h
      rw [List.append_nil]
    | cons e entries ih =>
      intro log log' h
      rw [List.foldlM_cons] at h
      obtain ⟨log₁, hfirst, hrest⟩ := Option.bind_eq_some_iff.mp h
      rw [ih hrest, SignalLog.rows_insertSignalLog hfirst, List.append_assoc, List.singleton_append]
  obtain ⟨log, hlog, h⟩ := Option.bind_eq_some_iff.mp h
  obtain rfl := Option.some.inj h
  exact ⟨hinsert hlog, rfl⟩

/-- The row that an entry adds; where it is filled, the direction was not blocked, and the BUY is
new in the ledger. -/
structure EntryRow (o : EntryOrder) (db db' : Db) (filled : Bool) (e : GammaSignalLogEntry) : Prop where
  id : e.signalId = o.entry.signalId
  contract : e.contract = o.entry.contract
  timestamp : e.signalTimestamp = o.entry.signalTimestamp
  fill : e.paperTradeFilled = filled
  reason : filled = false → e.unfilledReason.isSome = true
  rows : db'.log.rows = db.log.rows ++ [e]
  bought : filled = true → ∃ leg trade, legRole o.entry.contract.optionType = some leg ∧
    db.blocked o.entry.contract.optionType leg = false ∧ o.trade leg = some trade ∧
    db.trades.hasKey trade.uniqueKey = false ∧ db'.trades.rows = db.trades.rows ++ [⟨db.trades.nextId, trade⟩]
  same : filled = false → db'.trades = db.trades

/-- An entry that commits. -/
theorem entryRow_of_atomicEntry {o : EntryOrder} {db db' : Db} {filled : Bool} (hplain : Plain o.entry)
    (h : db.atomicEntry o = some (db', filled)) : ∃ e, EntryRow o db db' filled e := by
  unfold Db.atomicEntry at h
  obtain ⟨leg, hleg, h⟩ := Option.bind_eq_some_iff.mp h
  split at h
  · obtain ⟨log, hinsert, h⟩ := Option.bind_eq_some_iff.mp h
    obtain ⟨rfl, rfl⟩ := Prod.mk.inj (Option.some.inj h)
    exact ⟨{ o.entry with unfilledReason := some "open_position_same_direction" }, rfl, rfl, rfl, hplain.1,
      fun _ => rfl, SignalLog.rows_insertSignalLog hinsert, fun hno => absurd hno Bool.false_ne_true, fun _ => rfl⟩
  next hblocked =>
    obtain ⟨trade, htrade, h⟩ := Option.bind_eq_some_iff.mp h
    obtain ⟨log, hinsert, h⟩ := Option.bind_eq_some_iff.mp h
    obtain ⟨rfl, rfl⟩ := Prod.mk.inj (Option.some.inj h)
    simp only [openLong] at hinsert ⊢
    cases hkey : db.trades.hasKey trade.uniqueKey with
    | true =>
      rw [PaperTrades.recordTrade_duplicate hkey] at hinsert ⊢
      exact ⟨o.final false, rfl, rfl, rfl, rfl, fun _ => rfl, SignalLog.rows_insertSignalLog hinsert,
        fun hno => absurd hno Bool.false_ne_true, fun _ => rfl⟩
    | false =>
      obtain ⟨hfilled, hrows⟩ := PaperTrades.recordTrade_fresh hkey
      rw [hfilled] at hinsert ⊢
      exact ⟨o.final true, rfl, rfl, rfl, rfl, fun hno => absurd hno.symm Bool.false_ne_true,
        SignalLog.rows_insertSignalLog hinsert,
        fun _ => ⟨leg, trade, hleg, Bool.eq_false_of_not_eq_true hblocked, htrade, hkey, hrows⟩,
        fun hno => absurd hno.symm Bool.false_ne_true⟩

/-- What entering a strike adds: a filled row and its BUY, or a row that is not filled. -/
def Enters (r : Scan) (ev : Evaluated) (db db' : Db) (e : GammaSignalLogEntry) : Prop :=
  RowFor ev e ∧ db'.log.rows = db.log.rows ++ [e] ∧
    if e.paperTradeFilled then ∃ buy, r.buyOf ev = some buy.trade ∧ db'.trades.rows = db.trades.rows ++ [buy]
    else db'.trades = db.trades

theorem EntryRow.enters {ev : Evaluated} {db db' : Db} {filled : Bool} {e : GammaSignalLogEntry}
    (h : EntryRow (r.entryOrder ev) db db' filled e) : r.Enters ev db db' e := by
  refine ⟨⟨h.id, h.contract, h.timestamp, fun _ hunfilled => h.reason (h.fill.symm.trans hunfilled)⟩, h.rows, ?_⟩
  rw [h.fill]
  cases filled with
  | false => exact h.same rfl
  | true =>
    obtain ⟨leg, trade, hleg, -, htrade, -, hrows⟩ := h.bought rfl
    exact ⟨_, Option.bind_eq_some_iff.mpr ⟨leg, hleg, htrade⟩, hrows⟩

/-- The audit row of an entry that failed. -/
theorem enters_of_entryError {ev : Evaluated} {db db' : Db} (hplain : Plain ev.entry)
    (h : db.recordRows [{ ev.entry with paperTradeAttempted := true, unfilledReason := some "entry_error" }] = some db') :
    ∃ e, r.Enters ev db db' e ∧ e.paperTradeFilled = false := by
  obtain ⟨hlog, htrades⟩ := rows_recordRows h
  refine ⟨{ ev.entry with paperTradeAttempted := true, unfilledReason := some "entry_error" },
    ⟨⟨rfl, rfl, rfl, fun _ _ => rfl⟩, hlog, ?_⟩, hplain.1⟩
  rw [if_neg (by simpa using hplain.1), htrades]

/-- **One strike**, whether its entry fails or not. -/
theorem enterEach_cons {ev : Evaluated} {evals : List Evaluated} {db db' : Db} {entered : ℕ} (hplain : Plain ev.entry)
    (hrun : (r.enterEach (ev :: evals)).Runs Db.exec IsEntry db db' entered) :
    ∃ u e entered', r.Enters ev db u e ∧ (r.enterEach evals).Runs Db.exec IsEntry u db' entered' ∧
      entered = entered' + if e.paperTradeFilled then 1 else 0 := by
  rw [enterEach] at hrun
  cases hrun with
  | commits hexec hafter =>
    obtain ⟨⟨u, filled⟩, hentry, rfl⟩ := Option.map_eq_some_iff.mp hexec
    have hbind : (r.enterEach evals >>= fun entered' => (Process.ret
        (if (db.atomicEntry (r.entryOrder ev)).any (·.2) then entered' + 1 else entered') : Process Db Txn ℕ)).Runs
        Db.exec IsEntry u db' entered := hafter
    obtain ⟨v, entered', hrest, hret⟩ := Runs.of_bind hbind
    obtain ⟨e, hrow⟩ := entryRow_of_atomicEntry hplain hentry
    simp only [hentry, Option.any_some] at hret
    cases hret
    refine ⟨u, e, entered', hrow.enters, hrest, ?_⟩
    rw [hrow.fill]
    cases filled <;> rfl
  | fails hmay hrest =>
    cases hrest with
    | commits hexec hrest =>
      obtain ⟨e, henters, hunfilled⟩ := enters_of_entryError hplain hexec
      exact ⟨_, e, entered, henters, hrest, by rw [hunfilled]; rfl⟩
    | fails hmay _ => exact absurd hmay id

/-- **The entries**: a row for each strike, in their order, and the BUYs of the filled ones. -/
theorem enterEach_spec : ∀ {chosen : List Evaluated} {db db' : Db} {entered : ℕ}, (∀ ev ∈ chosen, Plain ev.entry) →
    (r.enterEach chosen).Runs Db.exec IsEntry db db' entered →
    ∃ done : List (Evaluated × GammaSignalLogEntry), done.map (·.1) = chosen ∧ (∀ p ∈ done, RowFor p.1 p.2) ∧
      db'.log.rows = db.log.rows ++ done.map (·.2) ∧
      ∃ buys, db'.trades.rows = db.trades.rows ++ buys ∧
        ((done.filter (·.2.paperTradeFilled)).map (·.1)).Forall₂ (fun ev buy => r.buyOf ev = some buy.trade) buys ∧
        entered = buys.length
  | [], db, db', entered, _, hrun => by
    cases hrun
    exact ⟨[], rfl, by simp, by simp, [], by simp, .nil, rfl⟩
  | ev :: chosen, db, db', entered, hplain, hrun => by
    obtain ⟨u, e, entered', ⟨hrow, hlog, hledger⟩, hrest, rfl⟩ := enterEach_cons (hplain ev List.mem_cons_self) hrun
    obtain ⟨done, hchosen, hrows, hlog', buys, hbuys, hforall, rfl⟩ :=
      enterEach_spec (fun ev' hev' => hplain ev' (List.mem_cons_of_mem ev hev')) hrest
    refine ⟨(ev, e) :: done, by rw [List.map_cons, hchosen], List.forall_mem_cons.mpr ⟨hrow, hrows⟩, ?_, ?_⟩
    · rw [hlog', hlog, List.map_cons, List.append_assoc, List.singleton_append]
    · split at hledger
      next hfilled =>
        obtain ⟨buy, hbuy, hrows'⟩ := hledger
        refine ⟨buy :: buys, ?_, ?_, ?_⟩
        · rw [hbuys, hrows', List.append_assoc, List.singleton_append]
        · rw [List.filter_cons, if_pos hfilled, List.map_cons]
          exact hforall.cons hbuy
        · rw [if_pos hfilled, List.length_cons]
      next hunfilled =>
        refine ⟨buys, by rw [hbuys, hledger], ?_, by rw [if_neg hunfilled, add_zero]⟩
        rw [List.filter_cons, if_neg hunfilled]
        exact hforall

/-! ### The audit -/

section Audit

variable {evals : List Evaluated} {db db' : Db} {entered : Option ℕ}

/-- **The rows of a run**: those logged at once, none filled, and those of the entries. -/
theorem runEntries_spec (hof : ∀ ev ∈ evals, OfScan ev) (hids : (evals.map (·.entry.signalId)).Nodup)
    (hrun : (r.runEntries evals).Runs Db.exec IsEntry db db' entered) :
    ∃ (logged : List GammaSignalLogEntry) (done : List (Evaluated × GammaSignalLogEntry)) (buys : List TradeRow),
      db'.log.rows = db.log.rows ++ (logged ++ done.map (·.2)) ∧
      (∀ e ∈ logged, e.paperTradeFilled = false ∧ ∃ ev ∈ evals, RowFor ev e) ∧ (∀ p ∈ done, RowFor p.1 p.2) ∧
      (done.map (·.1)).Sublist (selectEntries evals) ∧
      ((logged ++ done.map (·.2)).map (·.signalId)).Perm (evals.map (·.entry.signalId)) ∧
      db'.trades.rows = db.trades.rows ++ buys ∧
      ((done.filter (·.2.paperTradeFilled)).map (·.1)).Forall₂ (fun ev buy => r.buyOf ev = some buy.trade) buys ∧
      entered = some buys.length := by
  have hperm := planEntries_perm r hids
  have hsub := planEntries_sublist r evals
  rw [runEntries] at hrun
  cases hrun with
  | fails hmay _ => exact absurd hmay id
  | @commits _ _ _ u _ _ hexec hafter =>
    obtain ⟨hlog, htrades⟩ := rows_recordRows hexec
    obtain ⟨v, entered', hentries, hret⟩ := Runs.of_bind hafter
    cases hret
    obtain ⟨done, hdone, hrows, hlog', buys, hbuys, hforall, rfl⟩ :=
      enterEach_spec (fun ev hev => (hof ev (passed_of_mem_selectEntries (hsub.subset hev)).1).plain) hentries
    refine ⟨(r.planEntries evals).1, done, buys, ?_, fun e he => rowFor_of_mem_planEntries hof he, hrows, hdone ▸ hsub, ?_, ?_, hforall, rfl⟩
    · rw [hlog', hlog, List.append_assoc]
    · have hids : (done.map (·.2)).map (·.signalId) = (done.map (·.1)).map (·.entry.signalId) := by
        rw [List.map_map, List.map_map]
        exact List.map_congr_left fun p hp => (hrows p hp).id
      rwa [List.map_append, hids, hdone]
    · rw [hbuys, htrades]

/-- Of strikes of different types one at most is of a type. -/
theorem countP_filled_le_one {done : List (Evaluated × GammaSignalLogEntry)}
    (hnodup : (done.map (·.1.candidate.optionType)).Nodup)
    (hside : ∀ p ∈ done, p.2.contract.optionType = p.1.candidate.optionType) (optionType : OptionType) :
    (done.map (·.2)).countP (fun e => e.paperTradeFilled && e.contract.optionType = optionType) ≤ 1 := by
  have hcount := List.nodup_iff_count_le_one.mp hnodup optionType
  rw [List.count, List.countP_map] at hcount
  rw [List.countP_map]
  refine (List.countP_mono_left fun p hp h => ?_).trans hcount
  simpa [hside p hp] using (Bool.and_eq_true_iff.mp h).2

/-- **The audit of a scan.** Whichever entries fail, each evaluated strike has one new row. A
filled row is that of the first strike of its type in the ranking, so there is one at most for
each type; the ledger has the BUYs of the strikes with a filled row; and a strike that passed
and was not bought has its reason. -/
theorem entries_audited {sqrt : ℚ → ℚ} {held : List Contract} {history : SignalLog} {watch : List GammaWatchlistEntry}
    {snaps : List GammaChainSnapshot} (hscan : evals = r.evaluateAll sqrt held history watch snaps)
    (hids : (evals.map (·.entry.signalId)).Nodup) (hrun : (r.runEntries evals).Runs Db.exec IsEntry db db' entered) :
    ∃ rows, db'.log.rows = db.log.rows ++ rows ∧
      (rows.map (·.signalId)).Perm (evals.map (·.entry.signalId)) ∧
      (∀ ev ∈ evals, ∀ e ∈ rows, e.signalId = ev.entry.signalId → e.contract = ev.snap.contract ∧
        (e.paperTradeFilled = true →
          (rankPassed evals).find? (fun ev' => ev'.candidate.optionType = ev.candidate.optionType) = some ev) ∧
        (ev.passed = true → e.paperTradeFilled = false → e.unfilledReason.isSome = true)) ∧
      (∀ optionType, rows.countP (fun e => e.paperTradeFilled && e.contract.optionType = optionType) ≤ 1) ∧
      ∃ (bought : List Evaluated) (buys : List TradeRow), bought.Nodup ∧
        (∀ ev, ev ∈ bought ↔ ev ∈ evals ∧ ∃ e ∈ rows, e.signalId = ev.entry.signalId ∧ e.paperTradeFilled = true) ∧
        db'.trades.rows = db.trades.rows ++ buys ∧
        bought.Forall₂ (fun ev buy => r.buyOf ev = some buy.trade) buys ∧ entered = some buys.length := by
  have hof : ∀ ev ∈ evals, OfScan ev := fun ev hev => ofScan_of_mem (hscan ▸ hev)
  obtain ⟨logged, done, buys, hlog, hlogged, hrows, hsub, hperm, hbuys, hforall, hentered⟩ := runEntries_spec hof hids hrun
  have hchosen : ∀ p ∈ done, p.1 ∈ selectEntries evals := fun p hp => hsub.subset (List.mem_map_of_mem hp)
  have hmem : ∀ p ∈ done, p.1 ∈ evals := fun p hp => (passed_of_mem_selectEntries (hchosen p hp)).1
  have hsame : ∀ ev ∈ evals, ∀ ev' ∈ evals, ev.entry.signalId = ev'.entry.signalId → ev = ev' :=
    fun ev hev ev' hev' => List.inj_on_of_nodup_map hids hev hev'
  refine ⟨logged ++ done.map (·.2), hlog, hperm, fun ev hev e he hid => ?_, fun optionType => ?_,
    (done.filter (·.2.paperTradeFilled)).map (·.1), buys, ?_, fun ev => ?_, hbuys, hforall, hentered⟩
  · rw [← (hof ev hev).contract]
    rcases List.mem_append.mp he with he | he
    · obtain ⟨hunfilled, ev', hev', hrow⟩ := hlogged e he
      obtain rfl := hsame ev' hev' ev hev (hrow.id.symm.trans hid)
      exact ⟨hrow.contract, fun hfilled => absurd (hunfilled.symm.trans hfilled) Bool.false_ne_true, hrow.reason⟩
    · obtain ⟨p, hp, rfl⟩ := List.mem_map.mp he
      obtain rfl := hsame p.1 (hmem p hp) ev hev ((hrows p hp).id.symm.trans hid)
      exact ⟨(hrows p hp).contract, fun _ => mem_firstPerType.mp (hchosen p hp), (hrows p hp).reason⟩
  · have hnone : logged.countP (fun e => e.paperTradeFilled && e.contract.optionType = optionType) = 0 :=
      List.countP_eq_zero.mpr fun e he => by simp [(hlogged e he).1]
    rw [List.countP_append, hnone, Nat.zero_add]
    refine countP_filled_le_one ?_ (fun p hp => ?_) optionType
    · have hnodup := (nodup_firstPerType (rankPassed evals)).sublist (hsub.map (·.candidate.optionType))
      rwa [List.map_map] at hnodup
    · rw [(hrows p hp).contract, (hof p.1 (hmem p hp)).side]
  · exact ((nodup_ids_selectEntries hids).of_map.sublist hsub).sublist (List.filter_sublist.map _)
  · constructor
    · intro hev
      obtain ⟨p, hp, rfl⟩ := List.mem_map.mp hev
      obtain ⟨hp, hfilled⟩ := List.mem_filter.mp hp
      exact ⟨hmem p hp, p.2, List.mem_append_right _ (List.mem_map_of_mem hp), (hrows p hp).id, hfilled⟩
    · rintro ⟨hev, e, he, hid, hfilled⟩
      rcases List.mem_append.mp he with he | he
      · exact absurd ((hlogged e he).1.symm.trans hfilled) Bool.false_ne_true
      · obtain ⟨p, hp, rfl⟩ := List.mem_map.mp he
        obtain rfl := hsame p.1 (hmem p hp) ev hev ((hrows p hp).id.symm.trans hid)
        exact List.mem_map_of_mem (List.mem_filter.mpr ⟨hp, hfilled⟩)

end Audit

/-- Where the ids are new there is a run, also one in which every entry fails. -/
theorem exists_runs_enterEach : ∀ {chosen : List Evaluated} {db : Db}, (chosen.map (·.entry.signalId)).Nodup →
    (∀ ev ∈ chosen, ev.entry.signalId ∉ db.log.rows.map (·.signalId)) →
    ∃ db', (r.enterEach chosen).Runs Db.exec IsEntry db db' 0
  | [], db, _, _ => ⟨db, .ret 0 db⟩
  | ev :: chosen, db, hids, hnew => by
    rw [List.map_cons, List.nodup_cons] at hids
    have hsome : (db.recordRows
        [{ ev.entry with paperTradeAttempted := true, unfilledReason := some "entry_error" }]).isSome = true :=
      isSome_recordRows (List.nodup_singleton _) fun e he => by
        rw [List.mem_singleton.mp he]
        exact hnew ev List.mem_cons_self
    obtain ⟨u, hu⟩ := Option.isSome_iff_exists.mp hsome
    have hnew' : ∀ ev' ∈ chosen, ev'.entry.signalId ∉ u.log.rows.map (·.signalId) := fun ev' hev' hmem => by
      rw [(rows_recordRows hu).1, List.map_append] at hmem
      rcases List.mem_append.mp hmem with hmem | hmem
      · exact hnew ev' (List.mem_cons_of_mem ev hev') hmem
      · have hid : ev'.entry.signalId = ev.entry.signalId := List.mem_singleton.mp hmem
        exact hids.1 (hid ▸ List.mem_map_of_mem hev')
    obtain ⟨db', hrun⟩ := exists_runs_enterEach hids.2 hnew'
    exact ⟨db', .fails trivial (.commits hu hrun)⟩

theorem exists_runs_runEntries {evals : List Evaluated} {db : Db}
    (hids : (evals.map (·.entry.signalId)).Nodup)
    (hnew : ∀ ev ∈ evals, ev.entry.signalId ∉ db.log.rows.map (·.signalId)) :
    ∃ db', (r.runEntries evals).Runs Db.exec IsEntry db db' (some 0) := by
  have hperm := planEntries_perm r hids
  have hnodup := hperm.nodup_iff.mpr hids
  have hnewId : ∀ id ∈ evals.map (·.entry.signalId), id ∉ db.log.rows.map (·.signalId) := fun id hid => by
    obtain ⟨ev, hev, rfl⟩ := List.mem_map.mp hid
    exact hnew ev hev
  have hsome : (db.recordRows (r.planEntries evals).1).isSome = true :=
    isSome_recordRows (List.nodup_append.mp hnodup).1 fun e he =>
      hnewId _ (hperm.subset (List.mem_append_left _ (List.mem_map_of_mem he)))
  obtain ⟨u, hu⟩ := Option.isSome_iff_exists.mp hsome
  have hnew' : ∀ ev ∈ (r.planEntries evals).2, ev.entry.signalId ∉ u.log.rows.map (·.signalId) := fun ev hev hmem => by
    have hid : ev.entry.signalId ∈ (r.planEntries evals).2.map (·.entry.signalId) := List.mem_map_of_mem hev
    rw [(rows_recordRows hu).1, List.map_append] at hmem
    rcases List.mem_append.mp hmem with hmem | hmem
    · exact hnewId _ (hperm.subset (List.mem_append_right _ hid)) hmem
    · exact (List.nodup_append.mp hnodup).2.2 _ hmem _ hid rfl
  obtain ⟨db', hrun⟩ := exists_runs_enterEach (List.nodup_append.mp hnodup).2.1 hnew'
  refine ⟨db', .commits hu ?_⟩
  exact Runs.bind hrun (.ret _ _)

/-- The evaluations of a scan that finds a call and a put. -/
def twoSided : List Evaluated :=
  (callScan 739796 0 4 5 'a').evaluateAll id [] {} [] (deriveSnapshots
    ⟨24900, 739797, Dict.empty.set 25000
      { ce := some { ltp := 5, bid := 4, ask := 5, oi := 5000, gamma := some (1 / 1000), strike := 25000 }
        pe := some { ltp := 6, bid := 5, ask := 6, oi := 5000, gamma := some (1 / 1000), strike := 25000 } }⟩
    739797 739796 600 fun _ => none)

/-- Both are to be entered, and both entries fail: each still has its row, and nothing is in the
ledger. -/
theorem entries_audited_twoSided :
    (selectEntries twoSided).length = 2 ∧ ∃ (db' : Db) (rows : List GammaSignalLogEntry),
      db'.log.rows = rows ∧
      (rows.map (·.signalId)).Perm (twoSided.map (·.entry.signalId)) ∧ db'.trades.rows = [] := by
  have hids : (twoSided.map (·.entry.signalId)).Nodup := by decide +kernel
  obtain ⟨db', hrun⟩ := @exists_runs_runEntries (callScan 739796 0 4 5 'a') twoSided {} hids fun ev _ => List.not_mem_nil
  obtain ⟨rows, hlog, hperm, -, -, bought, buys, -, -, hledger, -, hentered⟩ := entries_audited rfl hids hrun
  refine ⟨by decide +kernel, db', rows, hlog, hperm, ?_⟩
  have hnone : buys = [] := List.length_eq_zero_iff.mp (Option.some.inj hentered).symm
  rw [hledger, hnone]
  rfl

end Scan

end NiftyShield.Gamma
