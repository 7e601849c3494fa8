import NiftyShield.Gamma.Scan

/-!
# Which positions the exit rules see

A scan looks an open position up among the strikes it evaluated for entry.

## What is proved

`exit_called_iff`: `evaluate_exit` is called for an open position of the scanned expiry exactly
when the chain has its strike within a tenth of the spot, with a gamma, and with an ask above
fifty paise. A contract that nobody offers any more is passed over, also on the afternoon of its
expiry (`locked_up_not_called`).
-/

namespace NiftyShield.Gamma

open NiftyShield.Lib NiftyShield.Lib.Process NiftyShield.MarketCalendar NiftyShield.Paper

/-- The chain has the contract on its strike and side. -/
def Lists (chain : OptionChain) (c : Contract) : Prop :=
  ∃ strike pair leg, chain.strikes.get? strike = some pair ∧ truncate strike = c.strike ∧
    pair.side c.optionType = some leg

/-- It has it within the band, with a gamma, and with an ask that gives a gearing. -/
def Marked (chain : OptionChain) (c : Contract) : Prop :=
  0 < chain.underlyingSpot ∧ ∃ strike pair leg, chain.strikes.get? strike = some pair ∧ truncate strike = c.strike ∧
    pair.side c.optionType = some leg ∧ |strike - chain.underlyingSpot| / chain.underlyingSpot ≤ spotBand ∧
    leg.gamma.isSome = true ∧ minAskForGearing < leg.ask

/-- `uuid.uuid4()` gives new ids. -/
def Scan.FreshIds (r : Scan) (db : Db) : Prop :=
  Function.Injective r.newId ∧ ∀ n, r.newId n ∉ db.log.rows.map (·.signalId)

namespace Scan

variable {sqrt : ℚ → ℚ}

theorem gammaGearing_isSome_iff {leg : OptionLeg} {spot : ℚ} :
    (gammaGearing leg spot).isSome = true ↔ leg.gamma.isSome = true ∧ minAskForGearing < leg.ask := by
  unfold gammaGearing
  cases leg.gamma with
  | none => simp
  | some gamma =>
    by_cases hask : leg.ask ≤ minAskForGearing
    · simp [hask]
    · simp [hask, not_le.mp hask]

/-! ### The evaluations -/

section Evaluations

variable {r : Scan} {held : List Contract} {history : SignalLog} {watch : List GammaWatchlistEntry}
  {snaps : List GammaChainSnapshot}

theorem snap_of_evaluateSnap {n : ℕ} {snap : GammaChainSnapshot} {ev : Evaluated}
    (h : r.evaluateSnap sqrt held history watch n snap = some ev) :
    ev.snap = snap ∧ ev.entry.signalId = r.newId n ∧ ev.entry.contract = snap.contract ∧
      ev.entry.paperTradeFilled = false ∧ ev.entry.exitTimestamp = none := by
  unfold evaluateSnap at h
  split at h
  · split at h
    · exact absurd h (by simp)
    · rw [← Option.some.inj h]
      exact ⟨rfl, rfl, rfl, rfl, rfl⟩
  · exact absurd h (by simp)

theorem evaluateSnap_isSome {n : ℕ} {snap : GammaChainSnapshot} :
    (r.evaluateSnap sqrt held history watch n snap).isSome = true ↔
      snap.gammaVal.isSome = true ∧ snap.gammaGearing.isSome = true ∧ ∃ ask, snap.bestAsk = some ask ∧ ask ≠ 0 := by
  unfold evaluateSnap
  cases snap.gammaVal <;> cases snap.gammaGearing <;> cases snap.bestAsk <;> simp

theorem mem_evaluateAll {ev : Evaluated} (h : ev ∈ r.evaluateAll sqrt held history watch snaps) :
    ∃ n snap, snap ∈ snaps ∧ r.evaluateSnap sqrt held history watch n snap = some ev := by
  obtain ⟨⟨snap, n⟩, hmem, hev⟩ := List.mem_filterMap.mp h
  exact ⟨n, snap, (List.mem_zipIdx' hmem).2 ▸ List.getElem_mem _, hev⟩

theorem exists_mem_evaluateAll {snap : GammaChainSnapshot} (hsnap : snap ∈ snaps)
    (hsome : ∀ n, (r.evaluateSnap sqrt held history watch n snap).isSome = true) :
    ∃ ev ∈ r.evaluateAll sqrt held history watch snaps, ev.snap = snap := by
  obtain ⟨n, hn, rfl⟩ := List.getElem_of_mem hsnap
  obtain ⟨ev, hev⟩ := Option.isSome_iff_exists.mp (hsome n)
  refine ⟨ev, List.mem_filterMap.mpr ⟨(snaps[n], n), ?_, hev⟩, (snap_of_evaluateSnap hev).1⟩
  exact List.mem_zipIdx_iff_getElem?.mpr (List.getElem?_eq_getElem hn)

theorem isSome_evaluationOf {evals : List Evaluated} {c : Contract} :
    (evaluationOf evals c).isSome = true ↔ ∃ ev ∈ evals, ev.snap.contract = c := by
  simp [evaluationOf, List.find?_isSome]

end Evaluations

/-- A row of the chain for a contract that the scan can evaluate. -/
theorem evaluates_iff (r : Scan) (held : List Contract) (history : SignalLog) (watch : List GammaWatchlistEntry)
    (snapshotTime : ℕ) (priorOi : Contract → Option ℤ) {chain : OptionChain} {c : Contract} :
    (∃ ev ∈ r.evaluateAll sqrt held history watch
        (deriveSnapshots chain c.expiryDate r.today snapshotTime priorOi), ev.snap.contract = c) ↔ Marked chain c := by
  constructor
  · rintro ⟨ev, hev, hc⟩
    obtain ⟨n, snap, hsnap, hsome⟩ := mem_evaluateAll hev
    obtain rfl := (snap_of_evaluateSnap hsome).1
    obtain ⟨hspot, strike, pair, optionType, leg, hpair, hband, hleg, hrow⟩ := mem_deriveSnapshots.mp hsnap
    have hgearing := (evaluateSnap_isSome.mp (Option.isSome_of_eq_some hsome)).2.1
    rw [hrow] at hc hgearing
    obtain ⟨hgamma, hask⟩ := gammaGearing_isSome_iff.mp hgearing
    have hside : truncate strike = c.strike ∧ optionType = c.optionType := by
      rw [← hc]
      exact ⟨rfl, rfl⟩
    exact ⟨hspot, strike, pair, leg, hpair, hside.1, hside.2 ▸ hleg, hband, hgamma, hask⟩
  · rintro ⟨hspot, strike, pair, leg, hpair, hstrike, hleg, hband, hgamma, hask⟩
    have hsnap : buildRow leg c chain.underlyingSpot r.today snapshotTime (priorOi c) ∈
        deriveSnapshots chain c.expiryDate r.today snapshotTime priorOi :=
      mem_deriveSnapshots.mpr ⟨hspot, strike, pair, c.optionType, leg, hpair, hband, hleg, by rw [hstrike]⟩
    have hask0 : leg.ask ≠ 0 := (lt_trans (by decide +kernel) hask).ne'
    have hsome : ∀ n, (r.evaluateSnap sqrt held history watch n
        (buildRow leg c chain.underlyingSpot r.today snapshotTime (priorOi c))).isSome = true := fun n =>
      evaluateSnap_isSome.mpr ⟨hgamma, gammaGearing_isSome_iff.mpr ⟨hgamma, hask⟩, leg.ask, rfl, hask0⟩
    obtain ⟨ev, hev, hsnapEq⟩ := exists_mem_evaluateAll hsnap hsome
    exact ⟨ev, hev, by rw [hsnapEq]; rfl⟩

/-! ### The calls -/

section Calls

variable {r : Scan} {evals : List Evaluated}

/-- With the database to itself the loop of the exits calls the rules for every position that
was evaluated. -/
theorem calls_exitEach : ∀ (positions : List GammaSignalLogEntry) (db : Db),
    ∃ exited, ((r.exitEach evals positions).runAlone Db.exec db).2 =
      some (exited, positions.filter fun pos => (evaluationOf evals pos.contract).isSome)
  | [], db => ⟨0, rfl⟩
  | pos :: positions, db => by
    rw [exitEach]
    cases hev : evaluationOf evals pos.contract with
    | none =>
      obtain ⟨exited, h⟩ := calls_exitEach positions db
      exact ⟨exited, by simpa [hev] using h⟩
    | some ev =>
      rw [runAlone]
      simp only [Db.exec, runAlone_bind]
      obtain ⟨exited, h⟩ := calls_exitEach positions
        ((r.writeExit pos ev.instrumentKey (r.exitOf db ev pos)).runAlone Db.exec db).1
      exact ⟨_, by simp [h, hev, runAlone]; rfl⟩

/-- Rows whose ids are new are written. -/
theorem isSome_recordRows {db : Db} {entries : List GammaSignalLogEntry}
    (hnodup : (entries.map (·.signalId)).Nodup)
    (hnew : ∀ e ∈ entries, e.signalId ∉ db.log.rows.map (·.signalId)) : (db.recordRows entries).isSome = true := by
  have hlog : ∀ {entries : List GammaSignalLogEntry} {log : SignalLog}, (entries.map (·.signalId)).Nodup →
      (∀ e ∈ entries, e.signalId ∉ log.rows.map (·.signalId)) →
      (entries.foldlM SignalLog.insertSignalLog log).isSome = true := by
    intro entries
    induction entries with
    | nil => exact fun _ _ => rfl
    | cons e entries ih =>
      intro log hnodup hnew
      rw [List.map_cons, List.nodup_cons] at hnodup
      rw [List.foldlM_cons]
      cases hinsert : log.insertSignalLog e with
      | none =>
        have hmem := hnew e List.mem_cons_self
        simp [SignalLog.insertSignalLog, hmem] at hinsert
      | some log' =>
        refine ih hnodup.2 fun e' he' => ?_
        rw [SignalLog.rows_insertSignalLog hinsert, List.map_append, List.mem_append, not_or]
        refine ⟨hnew e' (List.mem_cons_of_mem e he'), fun hid => hnodup.1 ?_⟩
        have heq : e'.signalId = e.signalId := by simpa using hid
        exact heq ▸ List.mem_map_of_mem he'
  rw [Db.recordRows]
  obtain ⟨log, h⟩ := Option.isSome_iff_exists.mp (hlog hnodup hnew)
  simp [h]

/-- Every row of the plan is that of an evaluation, and no evaluation has two. -/
theorem ids_planEntries (r : Scan) (evals : List Evaluated) :
    ((r.planEntries evals).1.map (·.signalId)).Sublist (evals.map (·.entry.signalId)) := by
  unfold planEntries
  simp only
  split
  · simp only [List.map_map]
    rw [List.map_congr_left (g := fun ev : Evaluated => ev.entry.signalId)]
    intro ev _
    simp only [Function.comp]
    split
    · rfl
    · split <;> rfl
  · simp only [List.map_map]
    rw [List.map_congr_left (g := fun ev : Evaluated => ev.entry.signalId)]
    · exact List.filter_sublist.map _
    · intro ev _
      simp only [Function.comp]
      split <;> rfl

/-- The ids of the evaluations are new ids, each once. -/
theorem ids_evaluateAll (r : Scan) (hids : Function.Injective r.newId) (held : List Contract) (history : SignalLog)
    (watch : List GammaWatchlistEntry) (snaps : List GammaChainSnapshot) :
    ((r.evaluateAll sqrt held history watch snaps).map (·.entry.signalId)).Nodup := by
  have hsub : ((r.evaluateAll sqrt held history watch snaps).map (·.entry.signalId)).Sublist
      (snaps.zipIdx.map fun p => r.newId p.2) := by
    rw [evaluateAll]
    induction snaps.zipIdx with
    | nil => exact List.Sublist.slnil
    | cons p ps ih =>
      rw [List.filterMap_cons, List.map_cons]
      split
      · exact ih.cons _
      next ev hev =>
        rw [List.map_cons, (snap_of_evaluateSnap hev).2.1]
        exact ih.cons_cons _
  refine hsub.nodup ?_
  rw [← Function.comp_def, ← List.map_map, List.zipIdx_map_snd]
  exact (List.nodup_range' ..).map hids

end Calls

/-- The positions that a scan of a database calls `evaluate_exit` for. -/
def exitCalls (sqrt : ℚ → ℚ) (holidays : Holidays) (r : Scan) (db : Db) : List GammaSignalLogEntry :=
  ((r.runScan sqrt holidays).runAlone Db.exec db).2.elim [] (·.exitCalls)

/-- The calls of a scan whose rows can be written. -/
theorem exitCalls_record {r : Scan} {db : Db} {evals : List Evaluated} {positions : List GammaSignalLogEntry}
    (hrows : (db.recordRows (r.planEntries evals).1).isSome = true) :
    ((r.record evals positions).runAlone Db.exec db).2.elim [] (·.exitCalls) =
      positions.filter fun pos => (evaluationOf evals pos.contract).isSome := by
  obtain ⟨db', hdb'⟩ := Option.isSome_iff_exists.mp hrows
  have hexec : Db.exec db (.rows (r.planEntries evals).1) = some db' := hdb'
  rw [record]
  simp only [runAlone, hexec, runAlone_bind]
  obtain ⟨exited, h⟩ := @calls_exitEach r evals positions
    ((r.enterEach (r.planEntries evals).2).runAlone Db.exec db').1
  simp [h, runAlone]

/-- **Which positions the exit rules see.** In a scan within its window the rules are called
for an open position of the scanned expiry exactly if the expiry is at most a day off and the
chain marks the contract. -/
theorem exit_called_iff (holidays : Holidays) {r : Scan} {db : Db} {pos : GammaSignalLogEntry} {chain : OptionChain}
    (hgate : r.gate holidays = none) (hpos : pos ∈ db.log.getOpenSignalPositions none)
    (hexpiry : pos.contract.expiryDate = r.expiry holidays) (hchain : r.fetchChain (r.expiry holidays) = some chain)
    (hlists : Lists chain pos.contract) (hids : r.FreshIds db) :
    pos ∈ r.exitCalls sqrt holidays db ↔
      r.today.daysBetween (r.expiry holidays) ≤ 1 ∧ Marked chain pos.contract := by
  obtain ⟨strike, pair, leg, hpair, -⟩ := hlists
  have hentries : chain.strikes.entries ≠ [] := fun hnil => by
    have hmem := Dict.mem_entries_iff.mpr hpair
    simp [hnil] at hmem
  unfold exitCalls runScan
  simp only [hgate, hchain, if_neg hentries]
  by_cases hdte : 1 < r.today.daysBetween (r.expiry holidays)
  · simp [hdte, runAlone, not_le.mpr hdte]
  · simp only [if_neg hdte, not_lt.mp hdte, true_and, reading, runAlone, Db.exec]
    have hmarked := fun held history watch => @evaluates_iff sqrt r held history watch
      (r.time / 60000000) (db.snapshots.getPriorOi r.today) chain pos.contract
    rw [hexpiry] at hmarked
    split
    next hsnaps =>
      have hno := hmarked [] db.log []
      rw [hsnaps] at hno
      rw [← hno]
      simp [runAlone, evaluateAll]
    next hsnaps =>
      simp only [runAlone, Db.exec]
      rw [exitCalls_record, List.mem_filter, isSome_evaluationOf, hmarked]
      · exact and_iff_right hpos
      · refine isSome_recordRows (List.Sublist.nodup (ids_planEntries ..) (ids_evaluateAll r hids.1 ..)) fun e he => ?_
        have hid := (ids_planEntries ..).subset (List.mem_map_of_mem he)
        obtain ⟨ev, hev, hid⟩ := List.mem_map.mp hid
        obtain ⟨n, snap, -, hsome⟩ := mem_evaluateAll hev
        rw [← hid, (snap_of_evaluateSnap hsome).2.1]
        exact hids.2 n

/-- The row of a call bought on Monday, 29 June 2026. -/
def heldCall : GammaSignalLogEntry where
  signalId := "held"
  signalTimestamp := 739796 * 86400 + 36000
  contract := ⟨739797, 25000, .ce⟩
  niftySpot := 24900
  distancePct := 1 / 249
  bestBid := some 9
  bestAsk := 10
  askQtyL1 := some 650
  gammaVal := 1 / 1000
  oiNow := some 5000
  signalTriggered := true
  paperTradeAttempted := true
  paperTradeFilled := true
  entryFillPrice := some 10
  fillTimestamp := some (739796 * 86400 + 36000)

/-- A log with just this row. -/
def heldDb : Db where
  log := { rows := [heldCall] }

/-- A scan on the day of expiry at 14:35, with the call at an ask. -/
def afternoonScan (ask : ℚ) : Scan where
  today := 739797
  time := timeOfDay 14 35
  fetchChain := fun _ => some ⟨24900, 739797, Dict.empty.set 25000
    { ce := some { ltp := 3, bid := 0, ask, oi := 5000, gamma := some (1 / 1000), strike := 25000 } }⟩
  resolve := fun _ => some "NSE_FO|25000CE"
  newId := fun n => String.ofList (List.replicate (n + 1) 'n')
  stack := ⟨{ minAskQty := 65 }, defaultLayers⟩
  lotSize := 65

theorem afternoonScan_freshIds (ask : ℚ) : (afternoonScan ask).FreshIds heldDb := by
  constructor
  · intro m n h
    have hlength := congrArg List.length (String.ofList_injective h)
    simpa using hlength
  · intro n h
    have hid : "held" = String.ofList (List.replicate (n + 1) 'n') := (List.mem_singleton.mp h).symm
    have hhead := congrArg (fun s => s.toList.head?) hid
    simp [List.replicate_succ] at hhead

/-- Nobody offers the call on the afternoon of its expiry: the time stop is due, and the scan
does not call the rules. -/
theorem locked_up_not_called :
    (afternoonScan 0).gate (fun _ => []) = none ∧ heldCall ∈ heldDb.log.getOpenSignalPositions none ∧
      heldCall.contract.expiryDate = (afternoonScan 0).expiry (fun _ => []) ∧
      (∃ chain, (afternoonScan 0).fetchChain ((afternoonScan 0).expiry fun _ => []) = some chain ∧
        Lists chain heldCall.contract) ∧
      (∀ askQty, (evaluateExit ⟨10, 0⟩ ⟨(afternoonScan 0).time, 0, none, askQty⟩ (afternoonScan 0).exitConfig).isSome) ∧
      heldCall ∉ (afternoonScan 0).exitCalls id (fun _ => []) heldDb := by
  have hcutoff : (afternoonScan 0).exitConfig.dte0Cutoff ≤ (afternoonScan 0).time := by decide
  refine ⟨by decide +kernel, by decide +kernel, by decide +kernel, ⟨_, rfl, 25000, _, _, rfl, ?_, rfl⟩, ?_, ?_⟩
  · decide +kernel
  · exact fun askQty => evaluateExit_dte0 rfl hcutoff
  · decide +kernel

/-- The general statement at the same scan with an ask of ten rupees. -/
theorem exit_called_iff_offered : heldCall ∈ (afternoonScan 10).exitCalls id (fun _ => []) heldDb := by
  refine (exit_called_iff (fun _ => []) (by decide +kernel) (by decide +kernel) (by decide +kernel) rfl
    ⟨25000, _, _, rfl, by decide +kernel, rfl⟩ (afternoonScan_freshIds 10)).mpr ⟨by decide +kernel, ?_⟩
  exact ⟨by decide +kernel, 25000, _, _, rfl, by decide +kernel, rfl, by decide +kernel, rfl, by decide +kernel⟩

end Scan

end NiftyShield.Gamma
