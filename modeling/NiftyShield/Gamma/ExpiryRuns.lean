import NiftyShield.Gamma.EntryAudit

/-!
# Positions and their expiry

The exit rules of a scan see the open positions of the scanned expiry only, and the check of
`_atomic_entry` counts the open rows of a direction whatever their expiry. A position that the
last scan of its expiry leaves open is never looked at again and blocks its direction for good.

## What is proved

`no_position_outlives`: in a sequence of scans, any of whose transactions may be made to fail, no
row stays open into a scan of a later expiry, if the last scan of each expiry closes the book: it
opens nothing, and it writes the exit of each open row of its expiry. Where the last scan of an
expiry is missed the row stays (`missed_exit_blocks`).

## Honest scope

The scans come one after the other. Between them the daily watch may have changed its own
tables.
-/

namespace NiftyShield.Gamma

open NiftyShield.Lib NiftyShield.Lib.Process NiftyShield.Lib.Run NiftyShield.MarketCalendar NiftyShield.Paper

/-! ### A sequence of scans -/

/-- A scan of a sequence: the tables that the daily watch has left it, and which of its
transactions are made to fail. -/
structure Round where
  /-- The scan. -/
  scan : Scan
  /-- `gamma_chain_snapshots`. -/
  snapshots : SnapshotTable := Dict.empty
  /-- `gamma_watchlist`. -/
  watchlist : WatchlistTable := WatchlistTable.empty
  /-- Made to fail. -/
  fails : Txn → Bool := fun _ => false

namespace Round

/-- The database that the scan finds. -/
def found (ρ : Round) (db : Db) : Db := { db with snapshots := ρ.snapshots, watchlist := ρ.watchlist }

/-- A transaction, unless it is made to fail. -/
def exec (ρ : Round) (db : Db) (t : Txn) : Option Db := if ρ.fails t then none else db.exec t

variable (sqrt : ℚ → ℚ) (holidays : Holidays)

/-- The scanned expiry. -/
def expiry (ρ : Round) : Date := ρ.scan.expiry holidays

/-- The database after the scan. -/
def step (db : Db) (ρ : Round) : Db := ((ρ.scan.runScan sqrt holidays).runAlone ρ.exec (ρ.found db)).1

/-- What the scan evaluates; `none` where it ends before. -/
def evaluations (ρ : Round) (db : Db) : Option (List Evaluated) :=
  let r := ρ.scan
  let expiry := r.expiry holidays
  match r.gate holidays with
  | some _ => none
  | none =>
    if 1 < r.today.daysBetween expiry then none
    else
      match r.fetchChain expiry with
      | none => none
      | some chain =>
        let snaps := deriveSnapshots chain expiry r.today (r.time / 60000000) (ρ.snapshots.getPriorOi r.today)
        if chain.strikes.entries = [] ∨ ρ.fails .read = true ∨ snaps = [] then none
        else
          let positions := db.log.getOpenSignalPositions none
          let held := (positions.filter fun p => p.contract.expiryDate = expiry).map (·.contract)
          let watch := ρ.watchlist.getAllActiveWatchlist.filter fun w => w.contract.expiryDate = expiry
          some (r.evaluateAll sqrt held db.log watch snaps)

/-- The scan runs for its expiry. -/
def Ran (ρ : Round) (db : Db) : Prop := (ρ.evaluations sqrt holidays db).isSome = true

instance (ρ : Round) (db : Db) : Decidable (ρ.Ran sqrt holidays db) := inferInstanceAs (Decidable (_ = true))

/-- A chosen strike would be bought. -/
def opens (ρ : Round) (db : Db) (ev : Evaluated) : Bool :=
  (legRole ev.entry.contract.optionType).any fun leg => !db.blocked ev.entry.contract.optionType leg &&
    ((ρ.scan.entryOrder ev).trade leg).any fun trade => !db.trades.hasKey trade.uniqueKey &&
      !ρ.fails (.entry (ρ.scan.entryOrder ev))

/-- The exit of a position that its rules ask for. -/
def exitOrder (ρ : Round) (db : Db) (evals : List Evaluated) (pos : GammaSignalLogEntry) : Option ExitOrder := do
  let ev ← Scan.evaluationOf evals pos.contract
  let instrumentKey ← ev.instrumentKey
  let exit ← ρ.scan.exitOf db ev pos
  return ⟨pos, instrumentKey, ρ.scan.today, ρ.scan.lotSize, exit⟩

/-- Its trade is one that the ledger takes, and it is not made to fail. -/
def exitGoes (ρ : Round) (o : ExitOrder) : Bool :=
  ((legRole o.pos.contract.optionType).bind o.trade).isSome && !ρ.fails (.exit o)

/-- A scan closes the book of its expiry: it buys nothing, and each open row of the expiry has
its exit. -/
structure ClosesBook (ρ : Round) (db : Db) (evals : List Evaluated) : Prop where
  buysNothing : ∀ ev ∈ (ρ.scan.planEntries evals).2, ρ.opens db ev = false
  exits : ∀ pos ∈ db.log.getOpenSignalPositions none, pos.contract.expiryDate = ρ.expiry holidays →
    ρ.scan.dryRun = false ∧ (ρ.exec (ρ.found db) (.rows (ρ.scan.planEntries evals).1)).isSome = true ∧
      (ρ.exitOrder db evals pos).any ρ.exitGoes = true

variable {sqrt : ℚ → ℚ} {holidays : Holidays} {ρ : Round} {db db' : Db}

theorem exec_of_round {t : Txn} (h : ρ.exec db t = some db') : ρ.fails t = false ∧ db.exec t = some db' := by
  unfold exec at h
  split at h
  next => exact absurd h (by simp)
  next hfails => exact ⟨Bool.eq_false_of_not_eq_true hfails, h⟩

/-- What a scan writes are the writes for what it evaluates. -/
theorem step_eq (ρ : Round) (db : Db) : ρ.step sqrt holidays db =
    (ρ.evaluations sqrt holidays db).elim (ρ.found db) fun evals =>
      ((ρ.scan.record evals (db.log.getOpenSignalPositions none)).runAlone ρ.exec (ρ.found db)).1 := by
  unfold step evaluations Scan.runScan
  dsimp only
  cases ρ.scan.gate holidays with
  | some reason => rfl
  | none =>
    by_cases hdte : 1 < ρ.scan.today.daysBetween (ρ.scan.expiry holidays)
    · simp only [if_pos hdte]
      rfl
    simp only [if_neg hdte]
    cases ρ.scan.fetchChain (ρ.scan.expiry holidays) with
    | none => rfl
    | some chain =>
      by_cases hempty : chain.strikes.entries = []
      · simp only [if_pos hempty, if_pos (Or.inl hempty)]
        rfl
      by_cases hfails : ρ.fails .read = true
      · simp [if_neg hempty, Scan.reading, runAlone, exec, hfails]
      have hread : ∀ u : Db, ρ.exec u .read = some u := fun u => if_neg hfails
      have hskip : ∀ snaps : List GammaChainSnapshot,
          (chain.strikes.entries = [] ∨ ρ.fails .read = true ∨ snaps = []) = (snaps = []) := fun snaps => by
        simp [hempty, hfails]
      have hfound : (ρ.found db).snapshots = ρ.snapshots := rfl
      simp only [if_neg hempty, hskip, Scan.reading, runAlone, hread, hfound]
      split
      · rfl
      · simp only [runAlone, hread]
        rfl

/-! ### What a scan leaves open -/

/-- The open rows that are new are of one expiry, and no row is lost. -/
structure Extends (expiry : Date) (db db' : Db) : Prop where
  opened : ∀ e ∈ db'.log.rows, e.isOpen = true →
    e ∈ db.log.rows ∨ e.contract.expiryDate = expiry ∧ e.signalId ∉ db.log.rows.map (·.signalId)
  kept : db.log.rows.map (·.signalId) ⊆ db'.log.rows.map (·.signalId)

namespace Extends

variable {expiry : Date}

theorem refl (db : Db) : Extends expiry db db := ⟨fun _ he _ => .inl he, List.Subset.refl _⟩

theorem trans (db db' db'' : Db) (h : Extends expiry db db') (h' : Extends expiry db' db'') : Extends expiry db db'' where
  opened e he hopen := by
    rcases h'.opened e he hopen with he | ⟨hexpiry, hid⟩
    · exact h.opened e he hopen
    · exact .inr ⟨hexpiry, fun hmem => hid (h.kept hmem)⟩
  kept := List.Subset.trans h.kept h'.kept

end Extends

/-- The transactions of a scan of an expiry. -/
def OfExpiry (expiry : Date) : Txn → Prop
  | .read => True
  | .rows entries => ∀ e ∈ entries, e.paperTradeFilled = false
  | .entry o => Scan.Plain o.entry ∧ o.entry.contract.expiryDate = expiry
  | .exit _ => True

/-- An exit opens nothing. -/
theorem open_of_exitRow {signalId : String} {x : SignalExit} {e : GammaSignalLogEntry}
    (h : (SignalLog.exitRow signalId x e).isOpen = true) : SignalLog.exitRow signalId x e = e := by
  unfold SignalLog.exitRow at h ⊢
  split at h
  next => simp [GammaSignalLogEntry.isOpen, GammaSignalLogEntry.exited] at h
  next hno => rw [if_neg hno]

theorem log_exit {o : ExitOrder} (h : db.exec (.exit o) = some db') :
    db'.log = db.log.updateSignalExit o.pos.signalId o.exit := by
  obtain ⟨leg, -, h⟩ := Option.bind_eq_some_iff.mp h
  obtain ⟨trade, -, h⟩ := Option.bind_eq_some_iff.mp h
  obtain rfl := Option.some.inj h
  rfl

theorem rows_exit {o : ExitOrder} (h : db.exec (.exit o) = some db') :
    db'.log.rows = db.log.rows.map (SignalLog.exitRow o.pos.signalId o.exit) := by
  rw [log_exit h]
  rfl

theorem extends_exec {expiry : Date} {t : Txn} (hkind : OfExpiry expiry t) (h : db.exec t = some db') :
    Extends expiry db db' := by
  cases t with
  | read =>
    obtain rfl := Option.some.inj h
    exact Extends.refl db
  | rows entries =>
    obtain ⟨hrows, -⟩ := Scan.rows_recordRows h
    refine ⟨fun e he hopen => ?_, by rw [hrows, List.map_append]; exact List.subset_append_left _ _⟩
    rw [hrows] at he
    rcases List.mem_append.mp he with he | he
    · exact .inl he
    · rw [GammaSignalLogEntry.isOpen, hkind e he] at hopen
      exact absurd hopen (by simp)
  | entry o =>
    obtain ⟨⟨u, filled⟩, hentry, rfl⟩ := Option.map_eq_some_iff.mp h
    obtain ⟨e, hrow⟩ := Scan.entryRow_of_atomicEntry hkind.1 hentry
    have hids := u.log.ids_nodup
    rw [hrow.rows, List.map_append, List.nodup_append] at hids
    refine ⟨fun e' he' _ => ?_, by rw [hrow.rows, List.map_append]; exact List.subset_append_left _ _⟩
    rw [hrow.rows] at he'
    rcases List.mem_append.mp he' with he' | he'
    · exact .inl he'
    · obtain rfl := List.mem_singleton.mp he'
      rw [hrow.contract]
      exact .inr ⟨hkind.2, fun hmem => hids.2.2 _ hmem _ (List.mem_singleton_self _) rfl⟩
  | exit o =>
    have hrows := rows_exit h
    refine ⟨fun e he hopen => ?_, fun id hid => ?_⟩
    · rw [hrows] at he
      obtain ⟨e', he', rfl⟩ := List.mem_map.mp he
      rw [open_of_exitRow hopen]
      exact .inl he'
    · rw [hrows, List.map_map]
      obtain ⟨e, he, rfl⟩ := List.mem_map.mp hid
      exact List.mem_map.mpr ⟨e, he, SignalLog.signalId_exitRow ..⟩

/-- What an exit loop asks for. -/
def Closing : Txn → Prop
  | .read => True
  | .exit _ => True
  | _ => False

theorem offers_enterEach {r : Scan} {G : Txn → Prop} (hrows : ∀ ev : Evaluated, G (.entry (r.entryOrder ev)) →
    G (.rows [{ ev.entry with paperTradeAttempted := true, unfilledReason := some "entry_error" }])) :
    ∀ {chosen : List Evaluated}, (∀ ev ∈ chosen, G (.entry (r.entryOrder ev))) → (r.enterEach chosen).Offers G
  | [], _ => trivial
  | ev :: chosen, h => by
    have hrest := offers_enterEach hrows fun ev' hev' => h ev' (List.mem_cons_of_mem ev hev')
    have hev := h ev List.mem_cons_self
    refine ⟨hev, fun seen => ?_⟩
    cases seen with
    | none => exact ⟨hrows ev hev, fun _ => hrest⟩
    | some u => exact hrest.bind fun _ => trivial

theorem offers_exitEach {r : Scan} {evals : List Evaluated} : ∀ {positions : List GammaSignalLogEntry},
    (r.exitEach evals positions).Offers Closing
  | [] => trivial
  | pos :: positions => by
    rw [Scan.exitEach]
    split
    · exact offers_exitEach
    · refine ⟨trivial, fun seen => ?_⟩
      cases seen with
      | none => trivial
      | some u =>
        refine Offers.bind ?_ fun _ => offers_exitEach.bind fun _ => trivial
        unfold Scan.writeExit
        split
        · exact ⟨trivial, fun _ => trivial⟩
        · trivial

/-- What a scan evaluates is of its expiry and its moment. -/
theorem scanned_of_evaluations {evals : List Evaluated} (h : ρ.evaluations sqrt holidays db = some evals) :
    ∀ ev ∈ evals, Scan.OfScan ev ∧ ev.entry.contract.expiryDate = ρ.expiry holidays ∧
      ev.entry.signalTimestamp = ρ.scan.now := by
  have hall : ∃ chain held watch, evals = ρ.scan.evaluateAll sqrt held db.log watch (deriveSnapshots chain
      (ρ.expiry holidays) ρ.scan.today (ρ.scan.time / 60000000) (ρ.snapshots.getPriorOi ρ.scan.today)) := by
    unfold evaluations at h
    dsimp only at h
    split at h
    · exact absurd h (by simp)
    split at h
    · exact absurd h (by simp)
    split at h
    · exact absurd h (by simp)
    split at h
    · exact absurd h (by simp)
    · exact ⟨_, _, _, (Option.some.inj h).symm⟩
  obtain ⟨chain, held, watch, rfl⟩ := hall
  intro ev hev
  obtain ⟨n, snap, hsnap, hsome⟩ := Scan.mem_evaluateAll hev
  obtain ⟨-, -, hcontract, -⟩ := Scan.snap_of_evaluateSnap hsome
  obtain ⟨-, strike, pair, optionType, leg, -, -, -, hrow⟩ := mem_deriveSnapshots.mp hsnap
  refine ⟨Scan.ofScan_of_mem hev, by rw [hcontract, hrow]; rfl, ?_⟩
  unfold Scan.evaluateSnap at hsome
  split at hsome
  · split at hsome
    · exact absurd hsome (by simp)
    · rw [← Option.some.inj hsome]
      rfl
  · exact absurd hsome (by simp)

theorem read_of_evaluations {evals : List Evaluated} (h : ρ.evaluations sqrt holidays db = some evals) :
    ρ.fails .read = false := by
  unfold evaluations at h
  dsimp only at h
  split at h
  · exact absurd h (by simp)
  split at h
  · exact absurd h (by simp)
  split at h
  · exact absurd h (by simp)
  split at h
  · exact absurd h (by simp)
  next hruns => exact Bool.eq_false_of_not_eq_true fun hfails => hruns (Or.inr (Or.inl hfails))

/-- **A scan**: the rows it opens are of its expiry; if it does not run it opens none. -/
theorem step_extends (ρ : Round) (db : Db) : Extends (ρ.expiry holidays) db (ρ.step sqrt holidays db) ∧
    (¬ ρ.Ran sqrt holidays db → (ρ.step sqrt holidays db).log = db.log) := by
  rw [step_eq, Ran]
  cases hevals : ρ.evaluations sqrt holidays db with
  | none => exact ⟨⟨fun _ he _ => .inl he, List.Subset.refl _⟩, fun _ => rfl⟩
  | some evals =>
    refine ⟨?_, fun hno => absurd rfl hno⟩
    have hscan := scanned_of_evaluations hevals
    obtain ⟨hunfilled, hchosen⟩ := Scan.plain_planEntries (r := ρ.scan) fun ev hev => (hscan ev hev).1.plain
    have hmem : ∀ ev ∈ (ρ.scan.planEntries evals).2, ev ∈ evals := fun ev hev =>
      (Scan.passed_of_mem_selectEntries ((Scan.planEntries_sublist _ _).subset hev)).1
    have hoffers : (ρ.scan.record evals (db.log.getOpenSignalPositions none)).Offers
        (OfExpiry (ρ.expiry holidays)) := by
      refine ⟨hunfilled, fun seen => ?_⟩
      cases seen with
      | none => trivial
      | some u =>
        refine Offers.bind (offers_enterEach (fun ev hev e he => ?_) fun ev hev => ?_) fun _ => Offers.bind
          (offers_exitEach.mono fun t ht => ?_) fun _ => trivial
        · rw [List.mem_singleton.mp he]
          exact hev.1.1
        · exact ⟨hchosen ev hev, (hscan ev (hmem ev hev)).2.1⟩
        · cases t with
          | read => trivial
          | exit o => trivial
          | rows entries => exact ht.elim
          | entry o => exact ht.elim
    obtain ⟨hopened, hkept⟩ := hoffers.runAlone Extends.refl Extends.trans
      (fun s t s' (hkind : OfExpiry (ρ.expiry holidays) t) h => extends_exec hkind (exec_of_round h).2) (ρ.found db)
    exact ⟨hopened, hkept⟩

/-! ### A scan that buys nothing -/

/-- So far the scan has only logged rows that are not filled. -/
structure Quiet (now : ℕ) (db u : Db) : Prop where
  trades : u.trades = db.trades
  rows : ∃ more, u.log.rows = db.log.rows ++ more ∧ ∀ e ∈ more, e.paperTradeFilled = false ∧ e.signalTimestamp = now

namespace Quiet

variable {now : ℕ} {u : Db}

theorem found (ρ : Round) (db : Db) : Quiet now db (ρ.found db) := ⟨rfl, [], (List.append_nil _).symm, by simp⟩

theorem append {v : Db} (h : Quiet now db u) (htrades : v.trades = u.trades) {more : List GammaSignalLogEntry}
    (hrows : v.log.rows = u.log.rows ++ more)
    (hmore : ∀ e ∈ more, e.paperTradeFilled = false ∧ e.signalTimestamp = now) : Quiet now db v := by
  obtain ⟨before, hbefore, hall⟩ := h.rows
  refine ⟨htrades.trans h.trades, before ++ more, by rw [hrows, hbefore, List.append_assoc], fun e he => ?_⟩
  rcases List.mem_append.mp he with he | he
  · exact hall e he
  · exact hmore e he

theorem mem_of_open (h : Quiet now db u) {e : GammaSignalLogEntry} (he : e ∈ u.log.rows) (hopen : e.isOpen = true) :
    e ∈ db.log.rows := by
  obtain ⟨more, hrows, hall⟩ := h.rows
  rw [hrows] at he
  rcases List.mem_append.mp he with he | he
  · exact he
  · rw [GammaSignalLogEntry.isOpen, (hall e he).1] at hopen
    exact absurd hopen (by simp)

theorem blocked (h : Quiet now db u) (optionType : OptionType) (leg : String) :
    u.blocked optionType leg = db.blocked optionType leg := by
  obtain ⟨more, hrows, hall⟩ := h.rows
  have hnone : more.filter (fun e => e.isOpen && (some optionType).all (e.contract.optionType = ·)) = [] :=
    List.filter_eq_nil_iff.mpr fun e he => by simp [GammaSignalLogEntry.isOpen, (hall e he).1]
  rw [Db.blocked, Db.blocked, h.trades, SignalLog.getOpenSignalPositions, SignalLog.getOpenSignalPositions, hrows,
    List.filter_append, hnone, List.append_nil]

theorem positionTrack (h : Quiet now db u) (pos : GammaSignalLogEntry) :
    u.log.positionTrack pos now = db.log.positionTrack pos now := by
  obtain ⟨more, hrows, hall⟩ := h.rows
  have hnone : ∀ since, more.filter (fun r => decide (r.contract = pos.contract) && decide (since ≤ r.signalTimestamp) &&
      decide (r.signalTimestamp < now)) = [] := fun since =>
    List.filter_eq_nil_iff.mpr fun e he => by simp [(hall e he).2]
  unfold SignalLog.positionTrack
  simp only [hrows, List.filter_append, hnone, List.append_nil]

end Quiet

/-- The transactions of the entries of a scan that buys nothing. -/
def Buyless (ρ : Round) (db : Db) : Txn → Prop
  | .rows entries => ∀ e ∈ entries, e.paperTradeFilled = false ∧ e.signalTimestamp = ρ.scan.now
  | .entry o => ∃ ev, o = ρ.scan.entryOrder ev ∧ Scan.Plain ev.entry ∧ ev.entry.signalTimestamp = ρ.scan.now ∧
      ρ.opens db ev = false
  | _ => False

/-- An entry that would not be filled in the state before the scan is not filled later in it. -/
theorem Quiet.exec {u v : Db} {t : Txn} (h : Quiet ρ.scan.now db u) (hkind : ρ.Buyless db t) (hexec : ρ.exec u t = some v) :
    Quiet ρ.scan.now db v := by
  obtain ⟨hfails, hexec⟩ := exec_of_round hexec
  cases t with
  | read => exact hkind.elim
  | exit o => exact hkind.elim
  | rows entries =>
    obtain ⟨hrows, htrades⟩ := Scan.rows_recordRows hexec
    exact h.append htrades hrows hkind
  | entry o =>
    obtain ⟨ev, rfl, hplain, hnow, hopens⟩ := hkind
    obtain ⟨⟨v, filled⟩, hentry, rfl⟩ := Option.map_eq_some_iff.mp hexec
    obtain ⟨e, hrow⟩ := Scan.entryRow_of_atomicEntry hplain hentry
    cases filled with
    | false =>
      refine h.append (hrow.same rfl) hrow.rows fun e' he' => ?_
      rw [List.mem_singleton.mp he']
      exact ⟨hrow.fill, hrow.timestamp.trans hnow⟩
    | true =>
      obtain ⟨leg, trade, hleg, hfree, htrade, hkey, -⟩ := hrow.bought rfl
      rw [h.blocked] at hfree
      rw [h.trades] at hkey
      have hyes : ρ.opens db ev = true := by
        rw [opens, show legRole ev.entry.contract.optionType = some leg from hleg, Option.any_some,
          show db.blocked ev.entry.contract.optionType leg = false from hfree, htrade, Option.any_some, hkey, hfails]
        rfl
      exact absurd (hopens.symm.trans hyes) Bool.false_ne_true

/-! ### A scan that writes its exits -/

/-- The tracks of the positions are as before the scan. -/
def SameTracks (now : ℕ) (db u : Db) : Prop := ∀ pos, u.log.positionTrack pos now = db.log.positionTrack pos now

theorem exitOf_congr {u : Db} (h : SameTracks ρ.scan.now db u) (ev : Evaluated) (pos : GammaSignalLogEntry) :
    ρ.scan.exitOf u ev pos = ρ.scan.exitOf db ev pos := by
  unfold Scan.exitOf
  rw [h pos]

/-- An exit loop opens nothing. -/
theorem mem_of_closing {α : Type} {p : Process Db Txn α} (hp : p.Offers Closing) (u : Db) {e : GammaSignalLogEntry}
    (he : e ∈ (p.runAlone ρ.exec u).1.log.rows) (hopen : e.isOpen = true) : e ∈ u.log.rows := by
  refine Offers.runAlone (R := fun u v : Db => ∀ e ∈ v.log.rows, e.isOpen = true → e ∈ u.log.rows)
    (fun _ _ he _ => he) (fun _ _ _ h h' e he hopen => h e (h' e he hopen) hopen) (fun u t v hkind hexec e he hopen => ?_)
    u hp e he hopen
  obtain ⟨-, hexec⟩ := exec_of_round hexec
  cases t with
  | rows entries => exact hkind.elim
  | entry o => exact hkind.elim
  | read =>
    obtain rfl := Option.some.inj hexec
    exact he
  | exit o =>
    rw [rows_exit hexec] at he
    obtain ⟨e', he', rfl⟩ := List.mem_map.mp he
    rwa [open_of_exitRow hopen]

section Exits

variable {evals : List Evaluated} {pos : GammaSignalLogEntry} {u : Db}

theorem writeExit_tracks (h : SameTracks ρ.scan.now db u) (instrumentKey : Option String) (exit : Option SignalExit) :
    SameTracks ρ.scan.now db ((ρ.scan.writeExit pos instrumentKey exit).runAlone ρ.exec u).1 := by
  unfold Scan.writeExit
  split
  · rw [runAlone]
    cases hexec : ρ.exec u (.exit _) with
    | none => exact h
    | some v =>
      intro pos'
      simp only [runAlone]
      rw [log_exit (exec_of_round hexec).2, SignalLog.positionTrack_updateSignalExit, h pos']
  · exact h

theorem exists_exec_exit {o : ExitOrder} (hgoes : ρ.exitGoes o = true) (u : Db) : ∃ v, ρ.exec u (.exit o) = some v := by
  obtain ⟨htrade, hfails⟩ := Bool.and_eq_true_iff.mp hgoes
  obtain ⟨trade, htrade⟩ := Option.isSome_iff_exists.mp htrade
  obtain ⟨leg, hleg, htrade⟩ := Option.bind_eq_some_iff.mp htrade
  refine Option.isSome_iff_exists.mp ?_
  rw [exec, if_neg (by simpa using hfails)]
  simp [Db.exec, Db.atomicExit, hleg, htrade]

/-- An exit that goes closes its row. -/
theorem writeExit_closes (hlive : ρ.scan.dryRun = false) {instrumentKey : String} {x : SignalExit}
    (hgoes : ρ.exitGoes ⟨pos, instrumentKey, ρ.scan.today, ρ.scan.lotSize, x⟩ = true) {e : GammaSignalLogEntry}
    (he : e ∈ ((ρ.scan.writeExit pos (some instrumentKey) (some x)).runAlone ρ.exec u).1.log.rows)
    (hid : e.signalId = pos.signalId) : e.isOpen = false := by
  obtain ⟨v, hexec⟩ := exists_exec_exit hgoes u
  simp only [Scan.writeExit, hlive, runAlone, hexec] at he
  rw [rows_exit (exec_of_round hexec).2] at he
  obtain ⟨e', -, rfl⟩ := List.mem_map.mp he
  rw [SignalLog.signalId_exitRow] at hid
  unfold SignalLog.exitRow
  split
  next => simp [GammaSignalLogEntry.isOpen, GammaSignalLogEntry.exited]
  next hno =>
    have hexited : e'.exitTimestamp ≠ none := fun h => hno ⟨hid, h⟩
    simp [GammaSignalLogEntry.isOpen, Option.ne_none_iff_isSome.mp hexited]

/-- **The exit loop** closes the row of each position whose exit goes. -/
theorem exitEach_closes (hread : ρ.fails .read = false) (hlive : ρ.scan.dryRun = false)
    (hgoes : (ρ.exitOrder db evals pos).any ρ.exitGoes = true) :
    ∀ {positions : List GammaSignalLogEntry} {u : Db}, SameTracks ρ.scan.now db u → pos ∈ positions →
      ∀ e ∈ ((ρ.scan.exitEach evals positions).runAlone ρ.exec u).1.log.rows, e.signalId = pos.signalId → e.isOpen = false
  | [], _, _, hpos => absurd hpos List.not_mem_nil
  | p :: positions, u, htracks, hpos => by
    intro e he hid
    rw [Scan.exitEach] at he
    cases hev : Scan.evaluationOf evals p.contract with
    | none =>
      rw [hev] at he
      rcases List.mem_cons.mp hpos with rfl | hpos
      · simp [exitOrder, hev] at hgoes
      · exact exitEach_closes hread hlive hgoes htracks hpos e he hid
    | some ev =>
      have hreadOk : ρ.exec u .read = some u := if_neg (by rw [hread]; exact Bool.false_ne_true)
      rw [hev] at he
      simp only [runAlone, hreadOk, runAlone_bind, pure_eq] at he
      rcases List.mem_cons.mp hpos with rfl | hpos
      · by_contra hopen
        have he' := mem_of_closing offers_exitEach _ he (Bool.eq_true_of_not_eq_false hopen)
        rw [exitOf_congr htracks] at he'
        cases hkey : ev.instrumentKey with
        | none => simp [exitOrder, hev, hkey] at hgoes
        | some instrumentKey =>
          cases hx : ρ.scan.exitOf db ev pos with
          | none => simp [exitOrder, hev, hkey, hx] at hgoes
          | some x =>
            rw [hkey, hx] at he'
            exact hopen (writeExit_closes hlive (by simpa [exitOrder, hev, hkey, hx] using hgoes) he' hid)
      · exact exitEach_closes hread hlive hgoes (writeExit_tracks htracks _ _) hpos e he hid

end Exits

/-- **A scan that closes the book** leaves no row of its expiry open. -/
theorem step_closes {evals : List Evaluated} (hevals : ρ.evaluations sqrt holidays db = some evals)
    (hclose : ρ.ClosesBook holidays db evals) {e : GammaSignalLogEntry} (he : e ∈ (ρ.step sqrt holidays db).log.rows)
    (hexpiry : e.contract.expiryDate = ρ.expiry holidays) : e.isOpen = false := by
  by_contra hopen
  have hopen : e.isOpen = true := Bool.eq_true_of_not_eq_false hopen
  have hscan := scanned_of_evaluations hevals
  rw [step_eq, hevals, Option.elim_some, Scan.record, runAlone] at he
  cases hrows : ρ.exec (ρ.found db) (.rows (ρ.scan.planEntries evals).1) with
  | none =>
    -- nothing is written, so nothing was open
    rw [hrows] at he
    have hpos : e ∈ db.log.getOpenSignalPositions none := SignalLog.mem_getOpenSignalPositions.mpr ⟨he, hopen⟩
    have hsome := (hclose.exits e hpos hexpiry).2.1
    rw [hrows] at hsome
    exact absurd hsome (by simp)
  | some u =>
    rw [hrows] at he
    simp only [runAlone_bind, pure_eq, runAlone] at he
    have hquiet : Quiet ρ.scan.now db u := by
      refine (Quiet.found ρ db).exec (t := .rows _) (fun e' he' => ?_) hrows
      obtain ⟨hunfilled, ev, hev, hrow⟩ := Scan.rowFor_of_mem_planEntries (fun ev hev => (hscan ev hev).1) he'
      exact ⟨hunfilled, hrow.timestamp.trans (hscan ev hev).2.2⟩
    have hentries : Quiet ρ.scan.now db
        ((ρ.scan.enterEach (ρ.scan.planEntries evals).2).runAlone ρ.exec u).1 := by
      refine Offers.runAlone (G := ρ.Buyless db)
        (R := fun v w : Db => Quiet ρ.scan.now db v → Quiet ρ.scan.now db w) (fun _ h => h) (fun _ _ _ h h' hv => h' (h hv))
        (fun v t w hkind hexec hv => hv.exec hkind hexec) u (offers_enterEach ?_ fun ev hev => ?_) hquiet
      · rintro ev ⟨ev', heq, hplain, hnow, -⟩ e' he'
        have hentry : ev.entry = ev'.entry := congrArg EntryOrder.entry heq
        rw [List.mem_singleton.mp he']
        exact ⟨hentry ▸ hplain.1, hentry ▸ hnow⟩
      · have hmem := (Scan.passed_of_mem_selectEntries ((Scan.planEntries_sublist _ _).subset hev)).1
        exact ⟨ev, rfl, (hscan ev hmem).1.plain, (hscan ev hmem).2.2, hclose.buysNothing ev hev⟩
    have hpos : e ∈ db.log.getOpenSignalPositions none := SignalLog.mem_getOpenSignalPositions.mpr
      ⟨hentries.mem_of_open (mem_of_closing offers_exitEach _ he hopen) hopen, hopen⟩
    obtain ⟨hlive, -, hgoes⟩ := hclose.exits e hpos hexpiry
    have hclosed := exitEach_closes (read_of_evaluations hevals) hlive hgoes (fun pos => hentries.positionTrack pos) hpos e he
      rfl
    exact absurd (hclosed.symm.trans hopen) Bool.false_ne_true

/-! ### The claim about runs -/

section Runs

variable (sqrt holidays)

/-- Once a scan runs, no row of an earlier expiry that was in the log is open. -/
def NoneOutlives (db : Db) (rounds : List Round) : Prop :=
  ∀ before ρ during after, rounds = before ++ ρ :: (during ++ after) →
    ρ.Ran sqrt holidays (final (step sqrt holidays) db before) →
    ∀ e ∈ (final (step sqrt holidays) db before).log.rows, e.contract.expiryDate < ρ.expiry holidays →
      ∀ optionType, ¬ (final (step sqrt holidays) db (before ++ ρ :: during)).log.HasOpen optionType e.signalId

/-- The last scan that runs for an expiry before one that runs for a later expiry closes the book. -/
def LastScansClose (db : Db) (rounds : List Round) : Prop :=
  ∀ before ρ during ρ' after, rounds = before ++ ρ :: (during ++ ρ' :: after) →
    ρ'.Ran sqrt holidays (final (step sqrt holidays) db (before ++ ρ :: during)) →
    ρ.expiry holidays < ρ'.expiry holidays →
    EachStep (step sqrt holidays) (fun db σ => ¬ (σ.Ran sqrt holidays db ∧ σ.expiry holidays = ρ.expiry holidays))
      (final (step sqrt holidays) db (before ++ [ρ])) during →
    ∀ evals, ρ.evaluations sqrt holidays (final (step sqrt holidays) db before) = some evals →
      ρ.ClosesBook holidays (final (step sqrt holidays) db before) evals

variable {sqrt holidays}

/-- A row that is open after more scans was open before, if it was there. -/
theorem open_of_final {e : GammaSignalLogEntry} (hopen : e.isOpen = true) : ∀ {rounds : List Round} {db : Db},
    e ∈ (final (step sqrt holidays) db rounds).log.rows → e.signalId ∈ db.log.rows.map (·.signalId) → e ∈ db.log.rows
  | [], _, he, _ => he
  | ρ :: rounds, db, he, hid => by
    have hextends := (@step_extends sqrt holidays ρ db).1
    have he' : e ∈ (ρ.step sqrt holidays db).log.rows := open_of_final hopen he (hextends.kept hid)
    rcases hextends.opened e he' hopen with he' | ⟨-, hnew⟩
    · exact he'
    · exact absurd hid hnew

/-- Only a scan of its expiry opens a row. -/
theorem mem_of_step {e : GammaSignalLogEntry} (hopen : e.isOpen = true)
    (hother : ¬ (ρ.Ran sqrt holidays db ∧ ρ.expiry holidays = e.contract.expiryDate))
    (he : e ∈ (ρ.step sqrt holidays db).log.rows) : e ∈ db.log.rows := by
  obtain ⟨hextends, hskipped⟩ := @step_extends sqrt holidays ρ db
  by_cases hran : ρ.Ran sqrt holidays db
  · rcases hextends.opened e he hopen with he | ⟨hexpiry, -⟩
    · exact he
    · exact absurd ⟨hran, hexpiry.symm⟩ hother
  · rwa [hskipped hran] at he

/-- **No position outlives its expiry** where the last scan of each expiry closes the book. -/
theorem no_position_outlives (hnone : ∀ e ∈ db.log.rows, e.isOpen = false) {rounds : List Round}
    (hclose : LastScansClose sqrt holidays db rounds) : NoneOutlives sqrt holidays db rounds := by
  rintro before ρ' during after rfl hran e he hlt optionType ⟨e', he', hid, hside⟩
  have hopen : e'.isOpen = true := (Bool.and_eq_true_iff.mp hside).1
  rw [final_append] at he'
  have hmem := open_of_final hopen he' (hid ▸ List.mem_map_of_mem he)
  obtain rfl := List.inj_on_of_nodup_map (SignalLog.ids_nodup _) hmem he hid
  -- the last scan of its expiry left it open
  obtain ⟨b, ρ, d, rfl, ⟨hran', hexpiry⟩, hleft, hsince⟩ := exists_last_step
    (P := fun u : Db => e' ∈ u.log.rows) (Q := fun u ρ => Ran sqrt holidays ρ u ∧ ρ.expiry holidays = e'.contract.expiryDate)
    (fun u ρ hother => mem_of_step hopen hother) (fun h => absurd ((hnone e' h).symm.trans hopen) Bool.false_ne_true) he
  obtain ⟨evals, hevals⟩ := Option.isSome_iff_exists.mp hran'
  have hbook := hclose b ρ d ρ' (during ++ after) (by simp) hran (hexpiry ▸ hlt) (hexpiry ▸ hsince) evals hevals
  rw [final_append] at hleft
  exact absurd ((step_closes hevals hbook hleft hexpiry.symm).symm.trans hopen) Bool.false_ne_true

/-- A call is bought on Monday, 29 June 2026. -/
def juneRound : Round := { scan := callScan 739796 0 4 5 'a' }

/-- It is offered at 2 in a scan at 14:35 on the day of its expiry. -/
def expiryRound : Round := { scan := { callScan 739797 0 1 2 'c' with time := timeOfDay 14 35 } }

/-- A call of the next expiry passes on the Monday after. -/
def julyRound : Round := { scan := callScan 739803 0 4 5 'b' }

/-- Without a scan on the day of expiry the row of June is open in the scan of July, whose call is
refused for it. -/
theorem missed_exit_blocks :
    ¬ NoneOutlives id (fun _ => []) {} [juneRound, julyRound] ∧
      (final (step id fun _ => []) {} [juneRound, julyRound]).log.rows.map (·.unfilledReason) =
        [none, some "open_position_same_direction"] := by
  refine ⟨fun h => ?_, by decide +kernel⟩
  have hran : julyRound.Ran id (fun _ => []) (final (step id fun _ => []) {} [juneRound]) := by decide +kernel
  have hrow : ∃ e ∈ (final (step id fun _ => []) {} [juneRound]).log.rows,
      e.contract.expiryDate < julyRound.expiry (fun _ => []) ∧
        (final (step id fun _ => []) {} [juneRound, julyRound]).log.HasOpen .ce e.signalId := by decide +kernel
  obtain ⟨e, he, hlt, hopen⟩ := hrow
  exact h [juneRound] julyRound [] [] rfl hran e he hlt .ce hopen

/-- The scan on the day of expiry closes the book. -/
theorem lastScansClose_sold : LastScansClose id (fun _ => []) {} [juneRound, expiryRound, julyRound] := by
  intro before ρ during ρ' after hrounds _ hlt hsince evals hevals
  rcases before with _ | ⟨b, _ | ⟨b', before⟩⟩
  · -- the scan of Monday is not the last of its expiry
    obtain ⟨rfl, hrest⟩ := List.cons.inj hrounds
    rcases during with _ | ⟨d, during⟩
    · obtain ⟨rfl, -⟩ := List.cons.inj hrest
      exact absurd hlt (by decide +kernel)
    · obtain ⟨rfl, -⟩ := List.cons.inj hrest
      exact absurd hsince.1 (by decide +kernel)
  · obtain ⟨rfl, hrest⟩ := List.cons.inj hrounds
    obtain ⟨rfl, -⟩ := List.cons.inj hrest
    have hcheck : ((expiryRound.evaluations id (fun _ => []) (final (step id fun _ => []) {} [juneRound])).all
        fun evals => (expiryRound.scan.planEntries evals).2.isEmpty &&
          ((final (step id fun _ => []) {} [juneRound]).log.getOpenSignalPositions none).all fun pos =>
            (expiryRound.exec (expiryRound.found (final (step id fun _ => []) {} [juneRound]))
              (.rows (expiryRound.scan.planEntries evals).1)).isSome &&
            (expiryRound.exitOrder (final (step id fun _ => []) {} [juneRound]) evals pos).any expiryRound.exitGoes) =
        true := by decide +kernel
    rw [hevals, Option.all_some, Bool.and_eq_true, List.isEmpty_iff, List.all_eq_true] at hcheck
    refine ⟨fun ev hev => absurd hev (hcheck.1 ▸ List.not_mem_nil), fun pos hpos _ => ⟨rfl, ?_⟩⟩
    exact Bool.and_eq_true_iff.mp (hcheck.2 pos hpos)
  · have hlength := congrArg List.length hrounds
    simp only [List.length_cons, List.length_append, List.length_nil] at hlength
    omega

theorem no_position_outlives_sold : NoneOutlives id (fun _ => []) {} [juneRound, expiryRound, julyRound] :=
  no_position_outlives (fun _ he => absurd he List.not_mem_nil) lastScansClose_sold

end Runs

end Round

end NiftyShield.Gamma
