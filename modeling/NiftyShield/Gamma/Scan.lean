import NiftyShield.Gamma.DailyWatch
import NiftyShield.Gamma.Exits
import NiftyShield.Gamma.SignalLog
import NiftyShield.Gamma.Signals
import NiftyShield.Lib.Process
import NiftyShield.Paper.Batch

/-!
# The intraday scan

`run_scan` (`scripts/gamma_scan.py`): every five minutes on the last two days of an expiry, each
strike of the chain is evaluated and logged, at most one paper trade is opened for each side,
and the exit rules are put to the open ones.

A scan is a process over the database. Each of its reads is a call, and so is each of its
transactions: the rows of the log, an entry with its `BEGIN IMMEDIATE` check, the audit row of
an entry that failed, and an exit.

## Honest scope

Telegram messages are left out, with the log lines. What the collaborators answer (chain, VIX,
depth, instrument keys, new ids) is given with the scan. A moment is its number of seconds from
a fixed midnight, a time of day its number of microseconds.
-/

namespace NiftyShield.Gamma

open NiftyShield.Lib NiftyShield.MarketCalendar NiftyShield.Paper

/-- `STRATEGY`. -/
def strategy : String := "paper_negamma_v1"

/-- `LEG_ROLE`; `none` is its `KeyError`. -/
def legRole : OptionType → Option String
  | .ce => some "gamma_call"
  | .pe => some "gamma_put"
  | _ => none

/-- `SCAN_START`. -/
def scanStart : ℕ := timeOfDay 9 25

/-- `LAST_ENTRY`. -/
def lastEntry : ℕ := timeOfDay 14 30

/-- `SCAN_END`. -/
def scanEnd : ℕ := timeOfDay 15 0

/-- `SESSION_CLOSE`. -/
def sessionClose : ℕ := timeOfDay 15 30

/-- `MIN_LEDGER_PRICE`. -/
def minLedgerPrice : ℚ := 5 / 100

/-- `HISTORY_WINDOW`, in seconds. -/
def historyWindow : ℕ := 25 * 60

/-! ### The database and its transactions -/

/-- The tables that a scan uses. -/
structure Db where
  /-- `paper_trades`. -/
  trades : PaperTrades := PaperTrades.empty
  /-- `gamma_signal_log`. -/
  log : SignalLog := {}
  /-- `gamma_chain_snapshots`. -/
  snapshots : SnapshotTable := Dict.empty
  /-- `gamma_watchlist`. -/
  watchlist : WatchlistTable := WatchlistTable.empty

/-- What `_atomic_entry` gets. -/
structure EntryOrder where
  /-- The row of the candidate. -/
  entry : GammaSignalLogEntry
  /-- Its instrument key. -/
  instrumentKey : Option String
  /-- Day of the scan. -/
  today : Date
  /-- Moment of the scan. -/
  now : ℕ
  /-- `deps.lot_size`. -/
  lotSize : ℤ

/-- What `_atomic_exit` gets. -/
structure ExitOrder where
  /-- The row as it was read. -/
  pos : GammaSignalLogEntry
  /-- Instrument key of its contract. -/
  instrumentKey : String
  /-- Day of the scan. -/
  today : Date
  /-- `deps.lot_size`. -/
  lotSize : ℤ
  /-- The columns of the exit. -/
  exit : SignalExit

/-- A transaction of a scan. -/
inductive Txn where
  /-- A `SELECT`. -/
  | read
  /-- Rows of the log. -/
  | rows (entries : List GammaSignalLogEntry)
  /-- `_atomic_entry`. -/
  | entry (o : EntryOrder)
  /-- `_atomic_exit`. -/
  | exit (o : ExitOrder)

/-- `open_long`: the table and whether the row was inserted. -/
def openLong (T : PaperTrades) (trade : PaperTrade) : PaperTrades × Bool := T.recordTrade trade

/-- `close_long`. -/
def closeLong (T : PaperTrades) (trade : PaperTrade) : PaperTrades :=
  let T' := (T.recordTrade trade).1
  if T'.roleQty strategy trade.legRole = 0 then
    T'.markTradeClosed trade.strategyName trade.legRole trade.instrumentKey
  else T'

/-- The trade of `_atomic_entry`. -/
def EntryOrder.trade (o : EntryOrder) (leg : String) : Option PaperTrade :=
  PaperTrade.validate strategy leg (o.instrumentKey.getD "") o.today .buy o.lotSize o.entry.bestAsk
    ("gamma_scan signal " ++ o.entry.signalId) none .open

/-- The row of an entry that was tried. -/
def EntryOrder.final (o : EntryOrder) (filled : Bool) : GammaSignalLogEntry :=
  { o.entry with
    paperTradeAttempted := true
    paperTradeFilled := filled
    entryFillPrice := if filled then some o.entry.bestAsk else none
    fillTimestamp := if filled then some o.now else none
    unfilledReason := if filled then none else some "duplicate_trade" }

/-- The trade of `_atomic_exit`. -/
def ExitOrder.trade (o : ExitOrder) (leg : String) : Option PaperTrade :=
  let price :=
    match o.exit.exitPrice with
    | some price => if 0 < price then price else minLedgerPrice
    | none => minLedgerPrice
  PaperTrade.validate strategy leg o.instrumentKey o.today .sell o.lotSize price
    ("gamma_scan exit " ++ o.exit.exitReason ++ " signal " ++ o.pos.signalId) none .open

namespace Db

/-- The check of `_atomic_entry`: no entry in this direction. -/
def blocked (db : Db) (optionType : OptionType) (leg : String) : Bool :=
  !(db.log.getOpenSignalPositions (some optionType)).isEmpty || db.trades.roleQty strategy leg ≠ 0

/-- The rows of `_record_rows`. -/
def recordRows (db : Db) (entries : List GammaSignalLogEntry) : Option Db := do
  let log ← entries.foldlM SignalLog.insertSignalLog db.log
  return { db with log }

/-- `_atomic_entry`, with whether the trade was filled. -/
def atomicEntry (db : Db) (o : EntryOrder) : Option (Db × Bool) := do
  let leg ← legRole o.entry.contract.optionType
  if db.blocked o.entry.contract.optionType leg then
    let log ← db.log.insertSignalLog { o.entry with unfilledReason := some "open_position_same_direction" }
    return ({ db with log }, false)
  else
    let trade ← o.trade leg
    let opened := openLong db.trades trade
    let log ← db.log.insertSignalLog (o.final opened.2)
    return ({ db with trades := opened.1, log }, opened.2)

/-- `_atomic_exit`. -/
def atomicExit (db : Db) (o : ExitOrder) : Option Db := do
  let leg ← legRole o.pos.contract.optionType
  let trade ← o.trade leg
  return { db with trades := closeLong db.trades trade, log := db.log.updateSignalExit o.pos.signalId o.exit }

/-- A transaction; `none` where it raises and is rolled back. -/
def exec (db : Db) : Txn → Option Db
  | .read => some db
  | .rows entries => db.recordRows entries
  | .entry o => (db.atomicEntry o).map (·.1)
  | .exit o => db.atomicExit o

end Db

/-! ### A scan -/

/-- A scan with the answers of its collaborators. -/
structure Scan where
  /-- Day of the scan. -/
  today : Date
  /-- Time of day. -/
  time : ℕ
  /-- `--dry-run`. -/
  dryRun : Bool := false
  /-- The chain of an expiry; `none` where the fetch fails. -/
  fetchChain : Date → Option OptionChain
  /-- `_live_vix`. -/
  vix : Option ℚ := none
  /-- Quantity at the ask, by security id; `none` where the depth is not known. -/
  fetchDepth : String → Option ℤ := fun _ => none
  /-- `ContractResolver.resolve`. -/
  resolve : Contract → Option String
  /-- Age of the chain when the n-th row is evaluated. -/
  quoteAge : ℕ → ℤ := fun _ => 0
  /-- `str(uuid.uuid4())` of the n-th row. -/
  newId : ℕ → String
  /-- The signal stack. -/
  stack : SignalStack
  /-- Exit thresholds. -/
  exitConfig : ExitConfig := {}
  /-- One lot. -/
  lotSize : ℤ

/-- What one scan did. -/
structure ScanOutcome where
  /-- Why there was no scan. -/
  skipped : Option String := none
  /-- Rows evaluated. -/
  evaluated : ℕ := 0
  /-- Rows that passed. -/
  triggered : ℕ := 0
  /-- Trades opened. -/
  entered : ℕ := 0
  /-- Exits written. -/
  exited : ℕ := 0
  /-- The positions that `evaluate_exit` was called for, in their order. -/
  exitCalls : List GammaSignalLogEntry := []

/-- `_Evaluated`. -/
structure Evaluated where
  /-- Row of the chain. -/
  snap : GammaChainSnapshot
  /-- What the stack saw. -/
  candidate : Candidate
  /-- Why it failed; `none` is a pass. -/
  reason : Option ReasonCode
  /-- Row for the log. -/
  entry : GammaSignalLogEntry
  /-- Instrument key. -/
  instrumentKey : Option String

/-- `result.passed`. -/
def Evaluated.passed (ev : Evaluated) : Bool := ev.reason.isNone

/-- `_sec_id`. -/
def secId (instrumentKey : Option String) : Option String :=
  instrumentKey.bind fun key =>
    match key.toList.dropWhile (· ≠ '|') with
    | [] => none
    | _ :: rest => some (String.ofList rest)

namespace Scan

/-- `_utc(now)`. -/
def now (r : Scan) : ℕ := r.today * 86400 + r.time / 1000000

/-- `_gate`. -/
def gate (holidays : Holidays) (r : Scan) : Option String :=
  if isTradingDay holidays r.today = false then some "non_trading_day"
  else if scanStart ≤ r.time ∧ r.time ≤ scanEnd then none
  else some "outside_scan_window"

/-- The scanned expiry. -/
def expiry (holidays : Holidays) (r : Scan) : Date := (resolveExpiries holidays r.today).1

/-- `_build_entry`. -/
def buildEntry (r : Scan) (n : ℕ) (snap : GammaChainSnapshot) (gamma ask : ℚ) (cand : Candidate)
    (reason : Option ReasonCode) : GammaSignalLogEntry where
  signalId := r.newId n
  signalTimestamp := r.now
  contract := snap.contract
  niftySpot := snap.niftySpot
  distancePct := snap.distancePct.getD 0
  bestBid := snap.bestBid
  bestAsk := ask
  askQtyL1 := cand.askQtyL1
  gammaVal := gamma
  oiNow := snap.oi
  signalTriggered := reason.isNone
  unfilledReason := reason.map (·.value)

variable (sqrt : ℚ → ℚ)

/-- The body of the loop of `_evaluate_all`. -/
def evaluateSnap (r : Scan) (held : List Contract) (history : SignalLog) (watch : List GammaWatchlistEntry) (n : ℕ)
    (snap : GammaChainSnapshot) : Option Evaluated :=
  match snap.gammaVal, snap.gammaGearing, snap.bestAsk with
  | some gamma, some gearing, some ask =>
    if ask = 0 then none
    else
      let cfg := r.stack.config
      let instrumentKey := r.resolve snap.contract
      let needsDepth := snap.contract ∈ held ∨ cfg.minPremium ≤ ask ∧ ask ≤ cfg.maxPremium
      let askQty := if needsDepth then (secId instrumentKey).bind r.fetchDepth else none
      let distancePct := snap.distancePct.getD 0
      let closeAt := r.today * 86400 + sessionClose / 1000000
      let feats := deriveFeatures sqrt r.now closeAt (direction snap.contract.optionType) snap.niftySpot gamma ask snap.oi
        distancePct (history.loadHistory snap.contract (r.now - historyWindow))
      let cand : Candidate :=
        { optionType := snap.contract.optionType
          dte := snap.dteCalendar
          ask
          bid := snap.bestBid
          spread := snap.bidAskSpread
          askQtyL1 := askQty
          indiaVix := r.vix
          quoteAgeSeconds := some (r.quoteAge n)
          oi := snap.oi
          underlyingReturn15m := feats.underlyingReturn15m
          distancePct
          distancePct15mAgo := feats.distancePct15mAgo
          distanceSigma := feats.distanceSigma
          gammaGearing := some gearing
          speed5m := feats.speed5m
          theoreticalPrice := none
          -- no snapshot of a scan has its percentile yet
          strikeIvPctile20d := none
          volumeZscore5m := none
          oiVelocity15m := feats.oiVelocity15m
          optionPriceRising := feats.optionPriceRising
          watchlistHit := watch.any fun w => w.contract = snap.contract }
      let reason := r.stack.evaluate cand
      some ⟨snap, cand, reason, r.buildEntry n snap gamma ask cand reason, instrumentKey⟩
  | _, _, _ => none

/-- `_evaluate_all`. -/
def evaluateAll (r : Scan) (held : List Contract) (history : SignalLog) (watch : List GammaWatchlistEntry)
    (snaps : List GammaChainSnapshot) : List Evaluated :=
  snaps.zipIdx.filterMap fun p => r.evaluateSnap sqrt held history watch p.2 p.1

/-- `sorted(passed, key=(option_type, strike))` in the order of `rank_candidates`. -/
def rankPassed (evals : List Evaluated) : List Evaluated :=
  let passed := (evals.filter (·.passed)).insertionSort fun e e' =>
    (compare (e.snap.contract.optionType = .pe : Bool) (e'.snap.contract.optionType = .pe : Bool)).then
      (compare e.snap.contract.strike e'.snap.contract.strike) ≠ .gt
  passed.insertionSort fun e e' => rankCompare e.candidate e'.candidate ≠ .gt

/-- The first of each option type. -/
def firstPerType : List Evaluated → List Evaluated
  | [] => []
  | ev :: evals => ev :: (firstPerType evals).filter (·.candidate.optionType ≠ ev.candidate.optionType)

/-- `_select_entries`. -/
def selectEntries (evals : List Evaluated) : List Evaluated := firstPerType (rankPassed evals)

/-- The rows of `_run_entries`: those that are logged at once, and the candidates to enter. -/
def planEntries (r : Scan) (evals : List Evaluated) : List GammaSignalLogEntry × List Evaluated :=
  let chosen := selectEntries evals
  let chosenIds := chosen.map (·.entry.signalId)
  let logged := fun ev : Evaluated =>
    if ev.entry.signalTriggered = true ∧ ev.entry.signalId ∉ chosenIds then
      { ev.entry with unfilledReason := some "not_top_ranked" }
    else ev.entry
  if r.dryRun = true ∨ lastEntry < r.time then
    let why := if r.dryRun then "dry_run" else "entry_window_closed"
    (evals.map fun ev =>
      if ev.entry.signalId ∈ chosenIds then { ev.entry with unfilledReason := some why } else logged ev, [])
  else ((evals.filter fun ev => ev.entry.signalId ∉ chosenIds).map logged, chosen)

/-- The order of an entry. -/
def entryOrder (r : Scan) (ev : Evaluated) : EntryOrder := ⟨ev.entry, ev.instrumentKey, r.today, r.now, r.lotSize⟩

/-- The loop of `_run_entries`, with the number of trades opened. -/
def enterEach (r : Scan) : List Evaluated → Process Db Txn ℕ
  | [] => .ret 0
  | ev :: evals => .call (.entry (r.entryOrder ev)) fun
    | some db => do
      let entered ← r.enterEach evals
      return if (db.atomicEntry (r.entryOrder ev)).any (·.2) then entered + 1 else entered
    | none =>
      -- `_log_entry_error`, best effort
      .call (.rows [{ ev.entry with paperTradeAttempted := true, unfilledReason := some "entry_error" }]) fun _ =>
        r.enterEach evals

/-- `_excursions`. -/
def excursions (entryAsk : ℚ) (bids : List ℚ) : Option ℚ × Option ℚ :=
  (bids.max?.map (· - entryAsk), bids.min?.map (entryAsk - ·))

/-- `_zero_ask_streak`. -/
def zeroAskStreak (track : List (Option ℚ × Option ℤ)) : ℕ := (track.reverse.takeWhile fun p => p.2 = some 0).length

/-- `by_key.get(...)`: the last evaluation of the contract. -/
def evaluationOf (evals : List Evaluated) (contract : Contract) : Option Evaluated :=
  evals.reverse.find? fun ev => ev.snap.contract = contract

/-- `entry_fill_price or best_ask`. -/
def entryAsk (pos : GammaSignalLogEntry) : ℚ :=
  match pos.entryFillPrice with
  | some price => if price = 0 then pos.bestAsk else price
  | none => pos.bestAsk

/-- The bid, if it is positive. -/
def positiveBid (bid : Option ℚ) : Option ℚ := bid.filter (0 < ·)

/-- The exit that `evaluate_exit` finds for a position, with its excursions. -/
def exitOf (r : Scan) (db : Db) (ev : Evaluated) (pos : GammaSignalLogEntry) : Option SignalExit :=
  let track := db.log.positionTrack pos r.now
  let bid := positiveBid ev.snap.bestBid
  let tick : ExitTick := ⟨r.time, ev.snap.dteCalendar, bid, ev.entry.askQtyL1⟩
  let held : ExitPosition := ⟨entryAsk pos, zeroAskStreak track⟩
  (evaluateExit held tick r.exitConfig).map fun decision =>
    let bids := track.filterMap (positiveBid ·.1) ++ bid.toList
    let (mfe, mae) := excursions (entryAsk pos) bids
    ⟨decision.exitPrice, r.now, decision.reason.value, mfe, mae, decision.realisedR⟩

/-- The part of the body of `_run_exits` that follows `evaluate_exit`: whether an exit was
written. -/
def writeExit (r : Scan) (pos : GammaSignalLogEntry) (instrumentKey : Option String) (exit : Option SignalExit) :
    Process Db Txn Bool :=
  match exit, instrumentKey, r.dryRun with
  | some exit, some instrumentKey, false =>
    .call (.exit ⟨pos, instrumentKey, r.today, r.lotSize, exit⟩) fun seen => .ret seen.isSome
  | _, _, _ => .ret false

/-- The loop of `_run_exits`: the number of exits written and the positions that
`evaluate_exit` was called for; `none` where a read raises. -/
def exitEach (r : Scan) (evals : List Evaluated) : List GammaSignalLogEntry →
    Process Db Txn (Option (ℕ × List GammaSignalLogEntry))
  | [] => .ret (some (0, []))
  | pos :: positions =>
    match evaluationOf evals pos.contract with
    | none => r.exitEach evals positions
    | some ev => .call .read fun
      | none => .ret none
      | some db => do
        let written ← r.writeExit pos ev.instrumentKey (r.exitOf db ev pos)
        let rest ← r.exitEach evals positions
        return rest.map fun (exited, calls) => (if written then exited + 1 else exited, pos :: calls)

/-- A read whose exception ends the scan. -/
def reading (next : Db → Process Db Txn (Option ScanOutcome)) : Process Db Txn (Option ScanOutcome) :=
  .call .read fun
    | none => .ret none
    | some db => next db

/-- The writes of `run_scan`. -/
def record (r : Scan) (evals : List Evaluated) (positions : List GammaSignalLogEntry) :
    Process Db Txn (Option ScanOutcome) :=
  let plan := r.planEntries evals
  .call (.rows plan.1) fun
    | none => .ret none
    | some _ => do
      let entered ← r.enterEach plan.2
      let exits ← r.exitEach evals positions
      return exits.map fun (exited, exitCalls) =>
        { evaluated := evals.length, triggered := evals.countP (·.passed), entered, exited, exitCalls }

/-- `run_scan`; the result is `none` where it raises. -/
def runScan (holidays : Holidays) (r : Scan) : Process Db Txn (Option ScanOutcome) :=
  match r.gate holidays with
  | some reason => .ret (some { skipped := some reason })
  | none =>
    let expiry := r.expiry holidays
    if 1 < r.today.daysBetween expiry then .ret (some { skipped := some "dte_out_of_range" })
    else
      match r.fetchChain expiry with
      | none => .ret (some { skipped := some "chain_fetch_failed" })
      | some chain =>
        if chain.strikes.entries = [] then .ret (some { skipped := some "empty_chain" })
        else reading fun db =>
          let snaps := deriveSnapshots chain expiry r.today (r.time / 60000000) (db.snapshots.getPriorOi r.today)
          if snaps = [] then .ret (some { skipped := some "no_snapshots" })
          else reading fun db =>
            let positions := db.log.getOpenSignalPositions none
            let held := (positions.filter fun p => p.contract.expiryDate = expiry).map (·.contract)
            reading fun history => reading fun watched =>
              let watch := watched.watchlist.getAllActiveWatchlist.filter fun w => w.contract.expiryDate = expiry
              r.record (r.evaluateAll sqrt held history.log watch snaps) positions

end Scan

end NiftyShield.Gamma
