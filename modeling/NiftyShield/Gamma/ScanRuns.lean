import NiftyShield.Gamma.ExitCalls

/-!
# The ledger and the signal log over scans

Any number of scans share the database, and a schedule says which of them makes its next call
and whether that call is made to fail.

## What is proved

`ledger_agrees_iff`: with one lot size, the net quantity of a leg role is one lot for each open
row of its side, and there is at most one, all along a schedule exactly if each exit that is
committed adds its SELL to the ledger just when its row is still open. The SELL of a contract
that was bought and sold before on the same day is a duplicate and is dropped
(`second_exit_dropped`).
-/

namespace NiftyShield.Gamma

open NiftyShield.Lib NiftyShield.Lib.Run NiftyShield.MarketCalendar NiftyShield.Paper

/-- The ledger agrees with the log. -/
def Agree (lot : ℤ) (db : Db) : Prop :=
  ∀ optionType leg, legRole optionType = some leg →
    db.trades.roleQty strategy leg = lot * db.log.openCount optionType ∧ db.log.openCount optionType ≤ 1

/-- A direction is blocked for entries only while a position in it is open. -/
def BlockedWhileOpen (db : Db) : Prop :=
  ∀ optionType leg, legRole optionType = some leg → db.blocked optionType leg = true →
    db.log.openCount optionType = 1 ∧ db.trades.roleQty strategy leg ≠ 0

/-- The SELL of an exit is new exactly if the row is still open. -/
def ExitFits (db : Db) : Txn → Prop
  | .exit o => ∀ leg, legRole o.pos.contract.optionType = some leg →
      (db.trades.hasKey ⟨strategy, leg, o.instrumentKey, o.today, .sell⟩ = false ↔
        db.log.HasOpen o.pos.contract.optionType o.pos.signalId)
  | _ => True

/-- No row goes or changes its contract. -/
def Later (db db' : Db) : Prop :=
  ∀ e ∈ db.log.rows, ∃ e' ∈ db'.log.rows, e'.signalId = e.signalId ∧ e'.contract = e.contract

/-- What a scan guarantees of a transaction: rows that it only logs are not filled, and an
exit is that of a row of the log. -/
def Offered (lot : ℤ) (db : Db) : Txn → Prop
  | .read => True
  | .rows entries => ∀ e ∈ entries, e.paperTradeFilled = false
  | .entry o => o.lotSize = lot ∧ o.entry.paperTradeFilled = false ∧ o.entry.exitTimestamp = none
  | .exit o => o.lotSize = lot ∧ ∃ e ∈ db.log.rows, e.signalId = o.pos.signalId ∧ e.contract = o.pos.contract

namespace Later

theorem refl (db : Db) : Later db db := fun e he => ⟨e, he, rfl, rfl⟩

theorem trans (db db' db'' : Db) (h : Later db db') (h' : Later db' db'') : Later db db'' := by
  intro e he
  obtain ⟨e', he', hid, hc⟩ := h e he
  obtain ⟨e'', he'', hid', hc'⟩ := h' e' he'
  exact ⟨e'', he'', hid'.trans hid, hc'.trans hc⟩

theorem of_subset {db db' : Db} (h : db.log.rows ⊆ db'.log.rows) : Later db db' := fun e he => ⟨e, h he, rfl, rfl⟩

end Later

/-! ### What a transaction does -/

theorem legRole_injective {optionType optionType' : OptionType} {leg : String} (h : legRole optionType = some leg)
    (h' : legRole optionType' = some leg) : optionType = optionType' := by
  cases optionType <;> cases optionType' <;> simp_all [legRole] <;> subst h <;> simp at h'

/-- Logging rows that are not filled opens nothing. -/
theorem openCount_foldlM : ∀ {entries : List GammaSignalLogEntry} {log log' : SignalLog},
    (∀ e ∈ entries, e.paperTradeFilled = false) → entries.foldlM SignalLog.insertSignalLog log = some log' →
    (∀ optionType, log'.openCount optionType = log.openCount optionType) ∧ log.rows ⊆ log'.rows
  | [], log, log', _, h => by
    obtain rfl := Option.some.inj h
    exact ⟨fun _ => rfl, List.Subset.refl _⟩
  | e :: entries, log, log', hunfilled, h => by
    rw [List.foldlM_cons] at h
    obtain ⟨log₁, hinsert, hrest⟩ := Option.bind_eq_some_iff.mp h
    obtain ⟨hcount, hsub⟩ := openCount_foldlM (fun e' he' => hunfilled e' (List.mem_cons_of_mem e he')) hrest
    refine ⟨fun optionType => ?_, fun r hr => hsub ?_⟩
    · rw [hcount, SignalLog.openCount_insertSignalLog hinsert]
      simp [SignalLog.isOpenOf, GammaSignalLogEntry.isOpen, hunfilled e List.mem_cons_self]
    · rw [SignalLog.rows_insertSignalLog hinsert]
      exact List.mem_append_left _ hr

/-- What an entry does: nothing to the open rows and the quantities, or it opens a row and
buys a lot in a direction that is not blocked. -/
theorem atomicEntry_cases {db db' : Db} {o : EntryOrder} {filled : Bool} (h : db.atomicEntry o = some (db', filled))
    (hunfilled : o.entry.paperTradeFilled = false) (hexit : o.entry.exitTimestamp = none) :
    db.log.rows ⊆ db'.log.rows ∧ ∃ leg, legRole o.entry.contract.optionType = some leg ∧
      ((∀ role, db'.trades.roleQty strategy role = db.trades.roleQty strategy role) ∧
          (∀ optionType, db'.log.openCount optionType = db.log.openCount optionType) ∨
        db.blocked o.entry.contract.optionType leg = false ∧
          (∀ role, db'.trades.roleQty strategy role =
            db.trades.roleQty strategy role + if leg = role then o.lotSize else 0) ∧
          ∀ optionType, db'.log.openCount optionType =
            db.log.openCount optionType + if o.entry.contract.optionType = optionType then 1 else 0) := by
  unfold Db.atomicEntry at h
  obtain ⟨leg, hleg, h⟩ := Option.bind_eq_some_iff.mp h
  split at h
  · obtain ⟨log, hinsert, h⟩ := Option.bind_eq_some_iff.mp h
    obtain ⟨rfl, -⟩ := Prod.mk.inj (Option.some.inj h)
    refine ⟨?_, leg, hleg, Or.inl ⟨fun _ => rfl, fun optionType => ?_⟩⟩
    · rw [SignalLog.rows_insertSignalLog hinsert]
      exact List.subset_append_left _ _
    · rw [SignalLog.openCount_insertSignalLog hinsert]
      simp [SignalLog.isOpenOf, GammaSignalLogEntry.isOpen, hunfilled]
  next hblocked =>
    obtain ⟨trade, htrade, h⟩ := Option.bind_eq_some_iff.mp h
    obtain ⟨log, hinsert, h⟩ := Option.bind_eq_some_iff.mp h
    obtain ⟨rfl, -⟩ := Prod.mk.inj (Option.some.inj h)
    obtain ⟨hkey, hqty⟩ := validate_eq_some htrade
    obtain ⟨hstrategy, hrole, -, -, haction⟩ := PaperTrade.UniqueKey.mk.inj hkey
    have hsigned : trade.signedQty = o.lotSize := by rw [PaperTrade.signedQty, haction, hqty]
    refine ⟨?_, leg, hleg, ?_⟩
    · rw [SignalLog.rows_insertSignalLog hinsert]
      exact List.subset_append_left _ _
    · simp only [openLong, PaperTrades.roleQty_recordTrade, SignalLog.openCount_insertSignalLog hinsert, hstrategy,
        hrole, hsigned, true_and]
      cases hfree : db.trades.hasKey trade.uniqueKey with
      | true =>
        left
        simp [PaperTrades.recordTrade_duplicate hfree, EntryOrder.final, SignalLog.isOpenOf, GammaSignalLogEntry.isOpen]
      | false =>
        right
        simp [(PaperTrades.recordTrade_fresh hfree).1, EntryOrder.final, SignalLog.isOpenOf,
          GammaSignalLogEntry.isOpen, hexit, hblocked]

/-- What an exit does: its SELL counts if it is new, and its row is closed if it was open. -/
theorem atomicExit_spec {db db' : Db} {o : ExitOrder} (h : db.atomicExit o = some db') :
    Later db db' ∧ 0 < o.lotSize ∧ ∃ leg, legRole o.pos.contract.optionType = some leg ∧
      (∀ role, db'.trades.roleQty strategy role = db.trades.roleQty strategy role -
        if db.trades.hasKey ⟨strategy, leg, o.instrumentKey, o.today, .sell⟩ = false ∧ leg = role then o.lotSize else 0) ∧
      ∀ optionType, db'.log.openCount optionType +
        (if db.log.HasOpen optionType o.pos.signalId then 1 else 0) = db.log.openCount optionType := by
  unfold Db.atomicExit at h
  obtain ⟨leg, hleg, h⟩ := Option.bind_eq_some_iff.mp h
  obtain ⟨trade, htrade, h⟩ := Option.bind_eq_some_iff.mp h
  obtain rfl := Option.some.inj h
  obtain ⟨hkey, hqty⟩ := validate_eq_some htrade
  obtain ⟨hstrategy, hrole, -, -, haction⟩ := PaperTrade.UniqueKey.mk.inj hkey
  have hsigned : trade.signedQty = -o.lotSize := by rw [PaperTrade.signedQty, haction, hqty]
  refine ⟨?_, ?_, leg, hleg, fun role => ?_, fun optionType => SignalLog.openCount_updateSignalExit ..⟩
  · exact fun e he => ⟨_, List.mem_map_of_mem he, SignalLog.signalId_exitRow .., SignalLog.contract_exitRow ..⟩
  · rw [← hqty]
    exact_mod_cast trade.quantity_pos
  · have hclose : (closeLong db.trades trade).roleQty strategy role =
        (db.trades.recordTrade trade).1.roleQty strategy role := by
      rw [closeLong]
      split
      · exact PaperTrades.legsQty_updateState ..
      · rfl
    simp only [hclose, PaperTrades.roleQty_recordTrade, hkey, hstrategy, hrole, hsigned, true_and]
    split <;> omega

/-! ### One transaction -/

/-- Where the ledger agrees, a direction is blocked only while a position in it is open. -/
theorem Agree.blockedWhileOpen {lot : ℤ} (hlot : lot ≠ 0) {db : Db} (h : Agree lot db) : BlockedWhileOpen db := by
  intro optionType leg hleg hblocked
  obtain ⟨hqty, hone⟩ := h optionType leg hleg
  have hopen : db.log.openCount optionType ≠ 0 := by
    intro hzero
    rw [hzero] at hqty
    have hlength := SignalLog.length_getOpenSignalPositions db.log optionType
    rw [hzero, List.length_eq_zero_iff] at hlength
    simp [Db.blocked, hlength, hqty] at hblocked
  have hcount : db.log.openCount optionType = 1 := by omega
  refine ⟨hcount, ?_⟩
  rw [hqty, hcount]
  simpa using hlot

/-- Where a direction is not blocked, nothing is open in it. -/
theorem openCount_of_not_blocked {db : Db} {optionType : OptionType} {leg : String}
    (h : db.blocked optionType leg = false) :
    db.log.openCount optionType = 0 ∧ db.trades.roleQty strategy leg = 0 := by
  simpa [Db.blocked, ← SignalLog.length_getOpenSignalPositions] using h

/-- The row of an offered exit is open only on its own side. -/
theorem hasOpen_side {db : Db} {o : ExitOrder} {optionType : OptionType}
    (hrow : ∃ e ∈ db.log.rows, e.signalId = o.pos.signalId ∧ e.contract = o.pos.contract)
    (hopen : db.log.HasOpen optionType o.pos.signalId) : optionType = o.pos.contract.optionType := by
  obtain ⟨e, he, hid, hcontract⟩ := hrow
  obtain ⟨e', he', hid', hside⟩ := hopen
  obtain rfl := List.inj_on_of_nodup_map db.log.ids_nodup he he' (hid.trans hid'.symm)
  simp only [SignalLog.isOpenOf, Bool.and_eq_true, decide_eq_true_eq] at hside
  rw [← hside.2, hcontract]

/-- **One exit**: it keeps the agreement exactly if its SELL is new just when its row is
open. -/
theorem agree_exit_iff {lot : ℤ} {db db' : Db} {o : ExitOrder} (hagree : Agree lot db)
    (hoffered : Offered lot db (.exit o)) (h : db.atomicExit o = some db') :
    Agree lot db' ↔ ExitFits db (.exit o) := by
  obtain ⟨hlot, hrow⟩ := hoffered
  obtain ⟨-, hpos, leg, hleg, hqty, hopen⟩ := atomicExit_spec h
  rw [hlot] at hpos hqty
  have hside : ∀ optionType, db.log.HasOpen optionType o.pos.signalId → optionType = o.pos.contract.optionType :=
    fun _ => hasOpen_side hrow
  constructor
  · intro hagree' leg' hleg'
    obtain rfl := Option.some.inj (hleg.symm.trans hleg')
    have hqty' := (hagree' _ _ hleg).1
    have hopen' := hopen o.pos.contract.optionType
    rw [hqty, (hagree _ _ hleg).1, ← hopen'] at hqty'
    by_cases hfree : db.trades.hasKey ⟨strategy, leg, o.instrumentKey, o.today, .sell⟩ = false
    · by_cases hhas : db.log.HasOpen o.pos.contract.optionType o.pos.signalId
      · exact iff_of_true hfree hhas
      · simp [hfree, hhas, hpos.ne'] at hqty'
    · by_cases hhas : db.log.HasOpen o.pos.contract.optionType o.pos.signalId
      · simp [hfree, hhas, hpos.ne'] at hqty'
      · exact iff_of_false hfree hhas
  · intro hfits optionType leg' hleg'
    obtain ⟨hqty₀, hone₀⟩ := hagree optionType leg' hleg'
    have hopen' := hopen optionType
    refine ⟨?_, by omega⟩
    rw [hqty, hqty₀, ← hopen']
    by_cases hsame : leg = leg'
    · obtain rfl := hsame
      obtain rfl := legRole_injective hleg' hleg
      simp only [hfits leg hleg, and_true]
      split <;> push_cast <;> ring
    · have hno : ¬ db.log.HasOpen optionType o.pos.signalId := fun hhas => by
        rw [hside optionType hhas, hleg] at hleg'
        exact hsame (Option.some.inj hleg')
      simp [hno, hsame]

/-- **One transaction** that a scan offers keeps the agreement exactly if it fits. -/
theorem agree_iff {lot : ℤ} {db db' : Db} {t : Txn} (hagree : Agree lot db) (hoffered : Offered lot db t)
    (h : db.exec t = some db') : Agree lot db' ↔ ExitFits db t := by
  cases t with
  | read =>
    obtain rfl := Option.some.inj h
    exact iff_of_true hagree trivial
  | rows entries =>
    obtain ⟨log', hlog, rfl⟩ : ∃ log', entries.foldlM SignalLog.insertSignalLog db.log = some log' ∧
        { db with log := log' } = db' := by
      simpa [Db.exec, Db.recordRows, Option.bind_eq_some_iff] using h
    refine iff_of_true (fun optionType leg hleg => ?_) trivial
    rw [(openCount_foldlM hoffered hlog).1]
    exact hagree optionType leg hleg
  | entry o =>
    obtain ⟨hlot, hunfilled, hexit⟩ := hoffered
    obtain ⟨⟨db'', filled⟩, hentry, rfl⟩ := Option.map_eq_some_iff.mp h
    refine iff_of_true (fun optionType leg' hleg' => ?_) trivial
    obtain ⟨-, leg, hleg, ⟨hqty, hopen⟩ | ⟨hblocked, hqty, hopen⟩⟩ := atomicEntry_cases hentry hunfilled hexit
    · rw [hqty, hopen]
      exact hagree optionType leg' hleg'
    · rw [hqty, hopen]
      by_cases hsame : leg = leg'
      · obtain rfl := hsame
        obtain rfl := legRole_injective hleg' hleg
        obtain ⟨hcount, hzero⟩ := openCount_of_not_blocked hblocked
        simp [hcount, hzero, hlot]
      · have hside : o.entry.contract.optionType ≠ optionType := fun hside => by
          rw [hside, hleg'] at hleg
          exact hsame (Option.some.inj hleg).symm
        simpa [hsame, hside] using hagree optionType leg' hleg'
  | exit o => exact agree_exit_iff hagree hoffered h

theorem later_exec {lot : ℤ} (db : Db) (t : Txn) (db' : Db) (hoffered : Offered lot db t) (h : db.exec t = some db') :
    Later db db' := by
  cases t with
  | read =>
    obtain rfl := Option.some.inj h
    exact Later.refl db
  | rows entries =>
    obtain ⟨log', hlog, rfl⟩ : ∃ log', entries.foldlM SignalLog.insertSignalLog db.log = some log' ∧
        { db with log := log' } = db' := by
      simpa [Db.exec, Db.recordRows, Option.bind_eq_some_iff] using h
    exact Later.of_subset (openCount_foldlM hoffered hlog).2
  | entry o =>
    obtain ⟨⟨db'', filled⟩, hentry, rfl⟩ := Option.map_eq_some_iff.mp h
    exact Later.of_subset (atomicEntry_cases hentry hoffered.2.1 hoffered.2.2).1
  | exit o => exact (atomicExit_spec h).1

/-! ### What a scan offers -/

namespace Scan

variable {sqrt : ℚ → ℚ} {holidays : Holidays}

/-- Safe in any company of scans of one lot size. -/
abbrev Safe {α : Type} (lot : ℤ) (db : Db) (p : Process Db Txn α) : Prop := p.Safe Db.exec Later (Offered lot) db

theorem safe_bind {α β : Type} {lot : ℤ} {f : α → Process Db Txn β} {p : Process Db Txn α} {db : Db}
    (hp : Safe lot db p) (hf : ∀ a db', Later db db' → Safe lot db' (f a)) : Safe lot db (p >>= f) :=
  Process.Safe.bind Later.refl Later.trans later_exec hp hf

/-- A position is a row of the log. -/
def RowOf (db : Db) (pos : GammaSignalLogEntry) : Prop :=
  ∃ e ∈ db.log.rows, e.signalId = pos.signalId ∧ e.contract = pos.contract

theorem RowOf.later {db db' : Db} {pos : GammaSignalLogEntry} (h : RowOf db pos) (hlater : Later db db') :
    RowOf db' pos := by
  obtain ⟨e, he, hid, hcontract⟩ := h
  obtain ⟨e', he', hid', hcontract'⟩ := hlater e he
  exact ⟨e', he', hid'.trans hid, hcontract'.trans hcontract⟩

/-- A row that is not filled and not exited. -/
def Plain (e : GammaSignalLogEntry) : Prop := e.paperTradeFilled = false ∧ e.exitTimestamp = none

variable {lot : ℤ} {r : Scan}

theorem safe_enterEach (hlot : r.lotSize = lot) : ∀ {chosen : List Evaluated} {db : Db},
    (∀ ev ∈ chosen, Plain ev.entry) → Safe lot db (r.enterEach chosen)
  | [], _, _ => trivial
  | ev :: chosen, db, hplain => by
    have hev := hplain ev List.mem_cons_self
    have hrest : ∀ db', Safe lot db' (r.enterEach chosen) := fun db' =>
      safe_enterEach hlot fun ev' hev' => hplain ev' (List.mem_cons_of_mem ev hev')
    intro u hu
    refine ⟨⟨hlot, hev⟩, fun v hv => ⟨?_, hrest v, fun v' _ => hrest v'⟩, fun u' hu' => ?_⟩
    · intro e he
      rw [List.mem_singleton.mp he]
      exact hev.1
    · exact safe_bind (hrest u') fun _ _ _ => trivial

theorem safe_writeExit (hlot : r.lotSize = lot) {pos : GammaSignalLogEntry} {instrumentKey : Option String}
    {exit : Option SignalExit} {db : Db} (hrow : RowOf db pos) : Safe lot db (r.writeExit pos instrumentKey exit) := by
  unfold writeExit
  split
  · exact fun u hu => ⟨⟨hlot, hrow.later hu⟩, trivial, fun _ _ => trivial⟩
  · trivial

theorem safe_exitEach (hlot : r.lotSize = lot) {evals : List Evaluated} :
    ∀ {positions : List GammaSignalLogEntry} {db : Db}, (∀ pos ∈ positions, RowOf db pos) →
      Safe lot db (r.exitEach evals positions)
  | [], _, _ => trivial
  | pos :: positions, db, hrows => by
    rw [exitEach]
    have hrest : ∀ db', Later db db' → Safe lot db' (r.exitEach evals positions) := fun db' hlater =>
      safe_exitEach hlot fun pos' hpos' => (hrows pos' (List.mem_cons_of_mem pos hpos')).later hlater
    split
    · exact hrest db (Later.refl db)
    · intro u hu
      refine ⟨trivial, trivial, fun u' hu' => ?_⟩
      obtain rfl := Option.some.inj hu'
      refine safe_bind (safe_writeExit hlot ((hrows pos List.mem_cons_self).later hu)) fun written v hv => ?_
      exact safe_bind (hrest v (Later.trans _ _ _ hu hv)) fun _ _ _ => trivial

theorem mem_rankPassed {evals : List Evaluated} {ev : Evaluated} (h : ev ∈ rankPassed evals) : ev ∈ evals := by
  simp only [rankPassed, List.mem_insertionSort, List.mem_filter] at h
  exact h.1

theorem firstPerType_subset : ∀ evals : List Evaluated, firstPerType evals ⊆ evals
  | [] => List.Subset.refl _
  | ev :: evals => List.cons_subset_cons ev fun _ h => firstPerType_subset evals (List.mem_of_mem_filter h)

theorem plain_planEntries {evals : List Evaluated} (h : ∀ ev ∈ evals, Plain ev.entry) :
    (∀ e ∈ (r.planEntries evals).1, e.paperTradeFilled = false) ∧ ∀ ev ∈ (r.planEntries evals).2, Plain ev.entry := by
  unfold planEntries
  simp only
  split
  · refine ⟨fun e he => ?_, by simp⟩
    obtain ⟨ev, hev, rfl⟩ := List.mem_map.mp he
    split
    · exact (h ev hev).1
    · split <;> exact (h ev hev).1
  · refine ⟨fun e he => ?_, fun ev hev => h ev (mem_rankPassed (firstPerType_subset _ hev))⟩
    obtain ⟨ev, hev, rfl⟩ := List.mem_map.mp he
    split <;> exact (h ev (List.mem_of_mem_filter hev)).1

theorem safe_record (hlot : r.lotSize = lot) {evals : List Evaluated} {positions : List GammaSignalLogEntry} {db : Db}
    (hplain : ∀ ev ∈ evals, Plain ev.entry) (hrows : ∀ pos ∈ positions, RowOf db pos) :
    Safe lot db (r.record evals positions) := by
  obtain ⟨hunfilled, hchosen⟩ := plain_planEntries (r := r) hplain
  intro u hu
  refine ⟨hunfilled, trivial, fun u' hu' => ?_⟩
  have hoffered : Offered lot u (.rows (r.planEntries evals).1) := hunfilled
  have hlater : Later db u' := Later.trans _ _ _ hu (later_exec u _ u' hoffered hu')
  refine safe_bind (safe_enterEach hlot hchosen) fun entered v hv => ?_
  refine safe_bind (safe_exitEach hlot fun pos hpos => (hrows pos hpos).later ?_) fun _ _ _ => trivial
  exact Later.trans _ _ _ hlater hv

/-- **A scan**, whatever the others do, only offers rows that are not filled, entries of its
lot size and exits of rows of the log. -/
theorem safe_runScan (hlot : r.lotSize = lot) (db : Db) : Safe lot db (r.runScan sqrt holidays) := by
  have hread : ∀ {db : Db} {next : Db → Process Db Txn (Option ScanOutcome)},
      (∀ u, Later db u → Safe lot u (next u)) → Safe lot db (reading next) := by
    intro db next hnext u hu
    refine ⟨trivial, trivial, fun u' hu' => ?_⟩
    obtain rfl := Option.some.inj hu'
    exact hnext u hu
  unfold runScan
  split
  · trivial
  · simp only
    split
    · trivial
    · split
      · trivial
      · split
        · trivial
        · refine hread fun u _ => ?_
          split
          · trivial
          · refine hread fun v _ => hread fun w hw => hread fun x hx => ?_
            refine safe_record hlot (fun ev hev => ?_) fun pos hpos => ?_
            · obtain ⟨n, snap, -, hev⟩ := mem_evaluateAll hev
              exact (snap_of_evaluateSnap hev).2.2.2
            · have hrow : RowOf v pos := ⟨pos, (SignalLog.mem_getOpenSignalPositions.mp hpos).1, rfl, rfl⟩
              exact hrow.later (Later.trans _ _ _ hw hx)

end Scan

/-! ### Schedules of scans -/

/-- Scans that share a database. -/
def scanPool (sqrt : ℚ → ℚ) (holidays : Holidays) (db : Db) (scans : ℕ → Scan) : Pool Db Txn (Option ScanOutcome) :=
  ⟨db, fun i => (scans i).runScan sqrt holidays⟩

/-- **The ledger and the log.** For scans of one lot size, with every order of their calls and
any of these made to fail, the ledger agrees with the log all along exactly if each committed
exit fits; and then a direction is blocked only while a position in it is open. -/
theorem ledger_agrees_iff (sqrt : ℚ → ℚ) (holidays : Holidays) {lot : ℤ} {db : Db} {scans : ℕ → Scan}
    (hlot : ∀ i, (scans i).lotSize = lot) (hpos : 0 < lot) (hagree : Agree lot db) (turns : List (ℕ × Bool)) :
    Along (Pool.step Db.exec) (fun P => Agree lot P.store ∧ BlockedWhileOpen P.store)
        (scanPool sqrt holidays db scans) turns ↔
      EachStep (Pool.step Db.exec) (Pool.Meets Db.exec ExitFits) (scanPool sqrt holidays db scans) turns := by
  have hblocked : ∀ P : Pool Db Txn (Option ScanOutcome),
      (Agree lot P.store ∧ BlockedWhileOpen P.store) = Agree lot P.store := fun P =>
    propext (and_iff_left_of_imp fun h => h.blockedWhileOpen hpos.ne')
  simp only [hblocked]
  exact Pool.along_iff_eachStep Later.refl Later.trans later_exec (fun s t s' => agree_iff)
    (fun i => Scan.safe_runScan (hlot i) db) hagree turns

/-- Empty tables agree. -/
theorem agree_empty (lot : ℤ) : Agree lot {} := fun _ _ _ => ⟨by simp [SignalLog.openCount]; rfl, by simp [SignalLog.openCount]⟩

/-- A scan of 30 June 2026 or the day before that finds one call, at a bid and an ask. -/
def callScan (today : Date) (minute : ℕ) (bid ask : ℚ) (id : Char) : Scan where
  today
  time := timeOfDay 10 minute
  fetchChain := fun _ => some ⟨24900, 739797, Dict.empty.set 25000
    { ce := some { ltp := ask, bid, ask, oi := 5000, gamma := some (1 / 1000), strike := 25000 } }⟩
  vix := some 15
  resolve := fun _ => some "NSE_FO|25000CE"
  newId := fun n => String.ofList (List.replicate (n + 1) id)
  stack := ⟨{ minAskQty := 65 }, [[l0PremiumRule, l0AskQtyRule, l0VixRule]]⟩
  lotSize := 65

/-- The call is bought on Monday, stopped out and bought again on Tuesday, and stopped out
again. -/
def rebuyScans : ℕ → Scan
  | 0 => callScan 739796 0 4 5 'a'
  | 1 => callScan 739797 0 (2 / 10) 1 'b'
  | 2 => callScan 739797 5 4 5 'c'
  | _ => callScan 739797 10 (2 / 10) 1 'd'

/-- One scan after the other. -/
def rebuyTurns : List (ℕ × Bool) := (List.range 4).flatMap fun i => List.replicate 8 (i, false)

/-- The second SELL of Tuesday is dropped: a lot stays in the ledger, no row is open, and no
call can be bought any more. -/
theorem second_exit_dropped :
    let db := (final (Pool.step Db.exec) (scanPool id (fun _ => []) {} rebuyScans) rebuyTurns).store
    db.trades.roleQty strategy "gamma_call" = 65 ∧ db.log.openCount .ce = 0 ∧ db.blocked .ce "gamma_call" = true ∧
      ¬ Along (Pool.step Db.exec) (fun P => Agree 65 P.store ∧ BlockedWhileOpen P.store)
        (scanPool id (fun _ => []) {} rebuyScans) rebuyTurns := by
  intro db
  have hqty : db.trades.roleQty strategy "gamma_call" = 65 := by decide +kernel
  have hopen : db.log.openCount .ce = 0 := by decide +kernel
  refine ⟨hqty, hopen, by decide +kernel, fun halong => ?_⟩
  have hagree := (along_iff_final.mp halong rebuyTurns List.prefix_rfl).1 .ce "gamma_call" rfl
  rw [hqty, hopen] at hagree
  exact absurd hagree.1 (by decide)

/-- The general statement at these four scans. -/
theorem ledger_agrees_iff_rebuy :
    Along (Pool.step Db.exec) (fun P => Agree 65 P.store ∧ BlockedWhileOpen P.store)
        (scanPool id (fun _ => []) {} rebuyScans) rebuyTurns ↔
      EachStep (Pool.step Db.exec) (Pool.Meets Db.exec ExitFits) (scanPool id (fun _ => []) {} rebuyScans)
        rebuyTurns := by
  refine ledger_agrees_iff id (fun _ => []) (fun i => ?_) (by decide) (agree_empty 65) rebuyTurns
  unfold rebuyScans
  split <;> rfl

end NiftyShield.Gamma
