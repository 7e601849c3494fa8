import NiftyShield.Backtest.Ivr
import NiftyShield.Client.ChainRows
import NiftyShield.Instruments.StrikeSelector
import NiftyShield.Strategy.CollarOverlay
import NiftyShield.ThreeTrack.OverlayEntry

/-!
# Selecting the pair of a collar

`src/strategy/collar_entry.py` selects the call and the put of a new collar: an expiry
(`_resolve_expiry`), the gates (`_check_gates`), one row of the chain for each rung of two ladders of
deltas (`_find_candidates_for_ladder`), and of all the pairs of these the one that costs or brings in
least (`_select_best_combo`). The first collar is entered by a script that has the same selection
written a second time (`auto_collar_bootstrap`,
`scripts/strategies/three_track/paper_3track_overlay_entry.py`, on `run_collar_mode` of
`scripts/lookup/find_strike_by_delta.py`).

## What is proved

* `selectCollarEntry_spec`: what a pair that is selected is, and when there is one;
* `entryTrades_of_select`: its two trades can always be recorded;
* `select_resolved`: on the chains of a chain source the keys of the pair are those of a call and a put
  with its strikes, whichever broker the chain is from;
* `autoCollarBootstrap_eq`: the script selects the same pair at the same expiry;
* `resolveExpiry_monthly`: a collar that is closed with at most five days to go is followed by one
  of the second monthly expiry that could be entered, not of the first.

## Honest scope

The instrument file, the India VIX and the chain are given as loaded, or not at all; a chain that
needs a routed source and has none is a chain that is not there. The spot and the deltas for the
card are left out, and so is the target that a candidate is labelled with.
-/

namespace NiftyShield.Strategy.CollarEntry

open NiftyShield.Backtest NiftyShield.Instruments NiftyShield.Lib NiftyShield.Paper NiftyShield.ThreeTrack
open NiftyShield.ThreeTrack.OverlayEntry
open NiftyShield.Client (ContractResolver OptionSide RawChainRow SourceId legRow snapshotOf)

/-! ### The pair -/

/-- `_CC_DELTA_CANDIDATES`. -/
def ccDeltaCandidates : List ℚ := [18 / 100, 20 / 100, 15 / 100]

/-- `_PP_DELTA_CANDIDATES`. -/
def ppDeltaCandidates : List ℚ := [20 / 100, 25 / 100, 15 / 100]

/-- The rows around the delta of a rung. -/
def rungRows (rawChain : List RawEntry) (optionType : String) (target : ℚ) : List StrikeRow :=
  filterStrikesByDelta rawChain optionType (max 0 (target - 2 / 100)) (target + 2 / 100)

/-- `_find_candidates_for_ladder`. -/
def findCandidatesForLadder (rawChain : List RawEntry) (optionType : String) (ladder : List ℚ) : List StrikeRow :=
  ladder.filterMap fun target =>
    let rows := rungRows rawChain optionType target
    if rows = [] then none else (applyLiquidityGate (rankStrikes rows)).head?

/-- The price of a leg. -/
def legPrice (row : StrikeRow) : ℚ := if 0 < row.mid then row.mid else row.ltp

/-- `_compute_net_premium`. -/
def computeNetPremium (callRow putRow : StrikeRow) : ℚ := quantizePaise (legPrice callRow - legPrice putRow)

/-- The pairs, the calls in the outer loop. -/
def combos (callCandidates putCandidates : List StrikeRow) : List (StrikeRow × StrikeRow) :=
  callCandidates.flatMap fun call => putCandidates.map fun put => (call, put)

/-- What the pairs are sorted by. -/
def comboCost (combo : StrikeRow × StrikeRow) : ℚ := |computeNetPremium combo.1 combo.2|

/-- `_select_best_combo`. -/
def selectBestCombo (callCandidates putCandidates : List StrikeRow) : Option (StrikeRow × StrikeRow) :=
  ((combos callCandidates putCandidates).insertionSort fun c d => comboCost c ≤ comboCost d).head?

/-! ### The expiry and the gates -/

/-- `CollarEntrySelectionError`. -/
inductive CollarEntrySelectionError where
  /-- `BOD load failed`. -/
  | bodLoadFailed
  /-- `No … expiry with DTE >= …`. -/
  | noExpiry (expiryBucket : String) (entryMinDte : ℤ)
  /-- `No monthly expiry candidate found`. -/
  | noMonthlyExpiry
  /-- `DTE gate failed`. -/
  | dteGateFailed (dte minDte : ℤ)
  /-- `IVR check failed`. -/
  | ivrCheckFailed
  /-- `IVR history insufficient`. -/
  | ivrHistoryInsufficient
  /-- `IVR gate failed`. -/
  | ivrGateFailed (ivr : Option ℚ)
  /-- `Chain fetch failed`. -/
  | chainFetchFailed
  /-- `Chain fetch returned empty result`. -/
  | chainEmpty
  /-- `No viable collar combo`. -/
  | noViableCombo
  deriving DecidableEq

/-- The monthly candidate. -/
def monthlyExpiry (lookup : InstrumentLookup) (today : Date) (minExpiry : Option Date) : Option Date :=
  ((lookup.expiryCandidates "NIFTY" today ["monthly"] minExpiry).find? fun c => c.1 = "monthly").map Prod.snd

/-- `_is_monthly`. -/
def isMonthly (policy : Option OverlayTenorPolicy) : Bool := policy.all fun p => p.expiryBucket = "monthly"

/-- `_resolve_expiry`. -/
def resolveExpiry (bod : Option InstrumentLookup) (today : Date) (closingDte : Option ℤ)
    (policy : Option OverlayTenorPolicy) : Except CollarEntrySelectionError (Date × ℤ) :=
  match bod, policy.filter fun p => !isMonthly (some p) with
  | none, _ => .error .bodLoadFailed
  | some lookup, some policy =>
    match resolveOverlayExpiry lookup today policy with
    | some expiry => .ok (expiry, today.daysBetween expiry)
    | none => .error (.noExpiry policy.expiryBucket policy.entryMinDte)
  | some lookup, none =>
    let minExpiry := if closingDte.any (· ≤ 5) then monthlyExpiry lookup today none else none
    match monthlyExpiry lookup today minExpiry with
    | some expiry => .ok (expiry, today.daysBetween expiry)
    | none => .error .noMonthlyExpiry

/-- The reading that is ranked, with its series; `none` if the series is too short. -/
def currentIvr (vixSeries : List ℚ) : Option ℚ := computeIvr (vixSeries.getLastD 0) vixSeries

/-- `_check_gates`. -/
def checkGates (vix : Option (List ℚ)) (dte : ℤ) (policy : Option OverlayTenorPolicy) :
    Except CollarEntrySelectionError Unit :=
  let minDte := policy.elim 14 (·.entryMinDte)
  if dte < minDte then .error (.dteGateFailed dte minDte)
  else
    match vix with
    | none => .error .ivrCheckFailed
    | some vixSeries =>
      if vixSeries.length < 252 then .error .ivrHistoryInsufficient
      else if (currentIvr vixSeries).all (· < 25 / 100) then .error (.ivrGateFailed (currentIvr vixSeries))
      else .ok ()

/-! ### The selection -/

/-- What a selection reads. -/
structure Market where
  /-- The BOD file; `none` if it cannot be loaded. -/
  bod : Option InstrumentLookup
  /-- `market_today()`. -/
  today : Date
  /-- `load_vix_series`; `none` if it raises. -/
  vix : Option (List ℚ)
  /-- `_fetch_chain_rows` for an expiry; `none` if it raises. -/
  fetchChainRows : Date → Option (List RawEntry)

/-- A pair that is selected. -/
structure Selection where
  /-- `call_row`. -/
  call : StrikeRow
  /-- `put_row`. -/
  put : StrikeRow
  /-- `expiry_str`. -/
  expiry : Date
  /-- `dte`. -/
  dte : ℤ
  deriving DecidableEq

/-- The pair of a chain. -/
def pairOfChain (rawChain : List RawEntry) : Option (StrikeRow × StrikeRow) :=
  selectBestCombo (findCandidatesForLadder rawChain "CE" ccDeltaCandidates)
    (findCandidatesForLadder rawChain "PE" ppDeltaCandidates)

/-- `select_and_build_collar_entry` up to the two trades. -/
def selectCollarEntry (m : Market) (closingDte : Option ℤ) (policy : Option OverlayTenorPolicy) :
    Except CollarEntrySelectionError Selection := do
  let (expiry, dte) ← resolveExpiry m.bod m.today closingDte policy
  checkGates m.vix dte policy
  match m.fetchChainRows expiry with
  | none => .error .chainFetchFailed
  | some [] => .error .chainEmpty
  | some rawChain =>
    match pairOfChain rawChain with
    | some (call, put) => .ok { call, put, expiry, dte }
    | none => .error .noViableCombo

/-! ### The script -/

/-- `_find_candidates_for_ladder` of the script, on the rows of several expiries together. -/
def pooledCandidates (rawDataByExpiry : Date → Option (List RawEntry)) (expiries : List (String × Date))
    (optionType : String) (ladder : List ℚ) : List StrikeRow :=
  ladder.filterMap fun target =>
    let rows := expiries.flatMap fun e =>
      match rawDataByExpiry e.2 with
      | none => []
      | some rawData => rungRows rawData optionType target
    if rows = [] then none else (applyLiquidityGate (rankStrikes rows)).head?

/-- `run_collar_mode`. -/
def runCollarMode (rawDataByExpiry : Date → Option (List RawEntry)) (expiries : List (String × Date)) :
    List (StrikeRow × StrikeRow) :=
  combos (pooledCandidates rawDataByExpiry expiries "CE" ccDeltaCandidates)
    (pooledCandidates rawDataByExpiry expiries "PE" ppDeltaCandidates)

/-- What a configuration keeps of a row; the rows have no `gate_spread`. -/
def selectedRow (row : StrikeRow) : SelectedRow where
  strike := row.strike
  instrumentKey := row.instrumentKey
  mid := row.mid
  ltp := row.ltp
  gateSpread := none
  oi := row.oi

/-- The gate, the chain and the pair of `auto_collar_bootstrap`. -/
def bootstrapPair (m : Market) (logOnlyGates : Bool) (policy : OverlayTenorPolicy) (expiry : Date) :
    Option (SelectedRow × SelectedRow) := do
  let vixSeries ← m.vix
  if vixSeries.length < 252 then none
  else
    let ivr ← currentIvr vixSeries
    if ivr < 25 / 100 ∧ logOnlyGates = false then none
    else
      let rawChain ← m.fetchChainRows expiry
      if rawChain = [] then none
      else
        let best ← (runCollarMode (fun e => if e = expiry then some rawChain else none)
          [(policy.expiryBucket, expiry)]).argmin comboCost
        some (selectedRow best.1, selectedRow best.2)

/-- The configuration of a pair. -/
def collarConfig (today : Date) (policy : OverlayTenorPolicy) (lookup : InstrumentLookup) (sel : Selection) :
    OverlayConfig :=
  ((bootstrapConfig today policy .collar lookup sel.expiry (selectedRow sel.call)).withPut
    (selectedRow sel.put)).withCall (selectedRow sel.call)

/-- What the two trades are made from. -/
def Selection.choice (sel : Selection) : CollarOverlay.CollarChoice where
  putKey := sel.put.instrumentKey
  putPrice := legPrice sel.put
  callKey := sel.call.instrumentKey
  callPrice := legPrice sel.call
  expiry := sel.expiry.isoformat
  dte := sel.dte

/-! ### The monthly expiries -/

section Expiry

variable {lookup : InstrumentLookup} {today : Date}

/-- The monthly expiries that can still be entered. -/
def monthlyExpiries (lookup : InstrumentLookup) (today : Date) : List Date :=
  let listed := lookup.allOptionExpiries "NIFTY"
  listed.filter fun d => isLastOfMonth listed d && 14 ≤ today.daysBetween d

theorem pairwise_monthlyExpiries (lookup : InstrumentLookup) (today : Date) :
    (monthlyExpiries lookup today).Pairwise (· < ·) := by
  have hsorted : (lookup.allOptionExpiries "NIFTY").Pairwise (· ≤ ·) := List.sortedLE_insertionSort.pairwise
  have hnodup : (lookup.allOptionExpiries "NIFTY").Nodup :=
    (List.perm_insertionSort _ _).nodup_iff.mpr (List.nodup_dedup _)
  exact ((hsorted.and hnodup).imp fun h => lt_of_le_of_ne h.1 h.2).filter _

/-- Leaving out the expiries up to a day leaves the last of a later month the last. -/
theorem isLastOfMonth_filter {listed : List Date} {minExpiry : Option Date} {d : Date}
    (hd : minExpiry.all (· < d) = true) :
    isLastOfMonth (listed.filter fun e => minExpiry.all (· < e)) d = isLastOfMonth listed d := by
  unfold isLastOfMonth
  rw [Bool.eq_iff_iff, List.all_eq_true, List.all_eq_true]
  refine ⟨fun h e he => ?_, fun h e he => h e (List.mem_filter.mp he).1⟩
  cases hlater : minExpiry.all (· < e) with
  | true => exact h e (List.mem_filter.mpr ⟨he, hlater⟩)
  | false =>
    -- an expiry that is left out is before the day
    obtain ⟨least, rfl⟩ : ∃ least, minExpiry = some least :=
      Option.ne_none_iff_exists'.mp fun hnone => by simp [hnone] at hlater
    have hle : e ≤ d := by
      simp only [Option.all_some, decide_eq_true_eq, decide_eq_false_iff_not, not_lt] at hd hlater
      exact hlater.trans hd.le
    simp [hle]

theorem monthlyExpiry_eq (minExpiry : Option Date) :
    monthlyExpiry lookup today minExpiry =
      ((monthlyExpiries lookup today).filter fun d => minExpiry.all (· < d)).head? := by
  have hrows : ((lookup.allOptionExpiries "NIFTY").filter fun d => minExpiry.all (· < d)).filter
      (fun d => isLastOfMonth ((lookup.allOptionExpiries "NIFTY").filter fun e => minExpiry.all (· < e)) d &&
        14 ≤ today.daysBetween d) =
      (monthlyExpiries lookup today).filter fun d => minExpiry.all (· < d) := by
    rw [monthlyExpiries, List.filter_filter, List.filter_filter]
    refine List.filter_congr fun d _ => ?_
    cases hd : minExpiry.all (· < d) with
    | true => rw [isLastOfMonth_filter hd, Bool.and_true, Bool.true_and]
    | false => rw [Bool.and_false, Bool.false_and]
  rw [← hrows, monthlyExpiry, InstrumentLookup.expiryCandidates]
  generalize ((lookup.allOptionExpiries "NIFTY").filter fun d => minExpiry.all (· < d)).filter _ = rows
  cases rows <;> simp

/-- The monthly expiry without a bound is the first. -/
theorem monthlyExpiry_none : monthlyExpiry lookup today none = (monthlyExpiries lookup today).head? := by
  rw [monthlyExpiry_eq]
  simp

/-- The monthly expiry after that one is the second. -/
theorem monthlyExpiry_next :
    monthlyExpiry lookup today (monthlyExpiry lookup today none) = (monthlyExpiries lookup today)[1]? := by
  have hsorted := pairwise_monthlyExpiries lookup today
  rw [monthlyExpiry_none, monthlyExpiry_eq]
  cases hrows : monthlyExpiries lookup today with
  | nil => rfl
  | cons first rest =>
    rw [hrows] at hsorted
    have hrest : rest.filter (fun d => first < d) = rest :=
      List.filter_eq_self.mpr fun d hd => decide_eq_true (List.rel_of_pairwise_cons hsorted hd)
    simp [hrest, List.head?_eq_getElem?]

/-- Every one of them is at least two weeks off. -/
theorem le_daysBetween_of_mem {d : Date} (hd : d ∈ monthlyExpiries lookup today) : 14 ≤ today.daysBetween d := by
  have h := (List.mem_filter.mp hd).2
  simp only [Bool.and_eq_true, decide_eq_true_eq] at h
  exact h.2

/-- The monthly book of the script takes the first as well. -/
theorem resolveOverlayExpiry_monthly :
    resolveOverlayExpiry lookup today .monthly = monthlyExpiry lookup today none := by
  have hroll : (monthlyExpiries lookup today).filter (fun d => today + 5 < d) = monthlyExpiries lookup today := by
    refine List.filter_eq_self.mpr fun d hd => decide_eq_true ?_
    have h : (14 : ℤ) ≤ (d : ℤ) - (today : ℤ) := le_daysBetween_of_mem hd
    have hlt : ((today + 5 : ℕ) : ℤ) < (d : ℤ) := by
      push_cast
      omega
    exact Int.ofNat_lt.mp hlt
  have hcandidate : ((lookup.expiryCandidates "NIFTY" today ["monthly"] (some (today + 5))).find? fun c =>
      c.1 = "monthly").map Prod.snd = (monthlyExpiries lookup today).head? := by
    have h := @monthlyExpiry_eq lookup today (some (today + 5))
    rwa [show ((monthlyExpiries lookup today).filter fun d => (some (today + 5)).all (· < d)) =
      monthlyExpiries lookup today from hroll] at h
  show ((((lookup.expiryCandidates "NIFTY" today ["monthly"] (some (today + 5))).find? fun c =>
    c.1 = "monthly").map Prod.snd).filter fun expiry => decide (14 ≤ today.daysBetween expiry)) = _
  rw [hcandidate, monthlyExpiry_none]
  cases hrows : monthlyExpiries lookup today with
  | nil => rfl
  | cons first rest =>
    have hfirst : 14 ≤ today.daysBetween first := le_daysBetween_of_mem (by rw [hrows]; exact List.mem_cons_self)
    exact Option.filter_some_pos (decide_eq_true hfirst)

/-- A policy that is monthly has no branch of its own: the first expiry is looked up, or the one after it. -/
theorem toOption_resolveExpiry (closingDte : Option ℤ) {policy : Option OverlayTenorPolicy}
    (hpolicy : isMonthly policy = true) :
    (resolveExpiry (some lookup) today closingDte policy).toOption =
      (monthlyExpiry lookup today (if closingDte.any (· ≤ 5) then monthlyExpiry lookup today none else none)).map
        fun expiry => (expiry, today.daysBetween expiry) := by
  have hnone : (policy.filter fun p => !isMonthly (some p)) = none := by
    cases policy with
    | none => rfl
    | some p => exact Option.filter_some_neg (by simpa using hpolicy)
  unfold resolveExpiry
  rw [hnone]
  simp only
  cases monthlyExpiry lookup today (if closingDte.any (· ≤ 5) then monthlyExpiry lookup today none else none) <;> rfl

/-- **The monthly expiry**: a collar that is closed with at most five days to go is followed by one of
the second expiry that could be entered, any other by one of the first. -/
theorem resolveExpiry_monthly (closingDte : Option ℤ) {policy : Option OverlayTenorPolicy}
    (hpolicy : isMonthly policy = true) :
    (resolveExpiry (some lookup) today closingDte policy).toOption =
      ((monthlyExpiries lookup today)[if closingDte.any (· ≤ 5) then 1 else 0]?).map fun expiry =>
        (expiry, today.daysBetween expiry) := by
  rw [toOption_resolveExpiry closingDte hpolicy]
  split
  · rw [monthlyExpiry_next]
  · rw [monthlyExpiry_none, List.head?_eq_getElem?]

/-- Three monthly expiries of an instrument file. -/
def autumnLookup : InstrumentLookup where
  instruments := [Date.ofYmd 2026 8 25, Date.ofYmd 2026 9 29, Date.ofYmd 2026 10 27].map fun expiry =>
    { instrumentKey := "NSE_FO|40761", instrumentType := some "CE", underlyingSymbol := "NIFTY", expiry }

theorem resolveExpiry_monthly_autumn :
    ((resolveExpiry (some autumnLookup) 739849 (some 4) none).toOption.map fun found =>
      (found.1.isoformat, found.2)) = some ("2026-10-27", 67) := by
  rw [resolveExpiry_monthly (some 4) rfl]
  decide +kernel

end Expiry

/-! ### The rows of the ladders -/

section Rows

variable {rawChain : List RawEntry} {optionType : String} {target : ℚ} {row : StrikeRow}

/-- The row of a rung: the first of the best ranked of those that may be traded. -/
def rungPick (rawChain : List RawEntry) (optionType : String) (target : ℚ) : Option StrikeRow :=
  Selection.firstBest StrikeRow.rankKey ((rungRows rawChain optionType target).filter fun r => r.Tradable)

theorem findCandidatesForLadder_eq (rawChain : List RawEntry) (optionType : String) (ladder : List ℚ) :
    findCandidatesForLadder rawChain optionType ladder = ladder.filterMap (rungPick rawChain optionType) := by
  refine List.filterMap_congr fun target _ => ?_
  simp only [head?_applyLiquidityGate, rungPick]
  split
  next hnil => rw [hnil, List.filter_nil, Selection.firstBest, List.argmin_nil]
  next => rfl

/-- The script finds the same rows in the chain of one expiry. -/
theorem pooledCandidates_eq {rawDataByExpiry : Date → Option (List RawEntry)} {label : String} {expiry : Date}
    (h : rawDataByExpiry expiry = some rawChain) (ladder : List ℚ) :
    pooledCandidates rawDataByExpiry [(label, expiry)] optionType ladder =
      findCandidatesForLadder rawChain optionType ladder := by
  simp only [pooledCandidates, List.flatMap_cons, List.flatMap_nil, List.append_nil, h]
  rfl

/-- A rung takes a row that may be traded, and none of these is ranked better. -/
theorem rungPick_eq_some (h : rungPick rawChain optionType target = some row) :
    row ∈ rungRows rawChain optionType target ∧ row.Tradable ∧
      ∀ r ∈ rungRows rawChain optionType target, r.Tradable → row.rankKey ≤ r.rankKey := by
  obtain ⟨hrow, htradable⟩ := List.mem_filter.mp (List.argmin_mem h)
  exact ⟨hrow, of_decide_eq_true htradable, fun r hr hr' =>
    List.le_of_mem_argmin (List.mem_filter.mpr ⟨hr, decide_eq_true hr'⟩) h⟩

/-- A rung takes a row if there is one to trade. -/
theorem rungPick_isSome_iff : (∃ row, rungPick rawChain optionType target = some row) ↔
    ∃ row ∈ rungRows rawChain optionType target, row.Tradable := by
  refine ⟨fun ⟨row, h⟩ => ⟨row, (rungPick_eq_some h).1, (rungPick_eq_some h).2.1⟩, fun ⟨row, hrow, htradable⟩ => ?_⟩
  refine Option.ne_none_iff_exists'.mp fun hnone => ?_
  rw [rungPick, Selection.firstBest, List.argmin_eq_none] at hnone
  exact List.not_mem_nil (hnone ▸ List.mem_filter.mpr ⟨hrow, decide_eq_true htradable⟩)

/-- What a row of a rung is in the chain. -/
theorem mem_rungRows (hside : optionType = "CE" ∨ optionType = "PE")
    (h : row ∈ rungRows rawChain optionType target) :
    (∃ entry ∈ rawChain, entry.strikePrice = row.strike) ∧ row.side = optionType ∧ |row.delta| ≤ target + 2 / 100 ∧
      target - 2 / 100 ≤ |row.delta| ∧ row.instrumentKey ≠ "" := by
  obtain ⟨entry, hentry, hrow⟩ := (mem_filterStrikesByDelta hside).mp h
  obtain ⟨hrowSide, hstrike, hmin, hmax, hkey, -⟩ := strikeRow_eq_some hrow
  exact ⟨⟨entry, hentry, hstrike.symm⟩, hrowSide, hmax, (le_max_right _ _).trans hmin, hkey⟩

end Rows

/-! ### The pair that is selected -/

theorem selectBestCombo_eq (callCandidates putCandidates : List StrikeRow) :
    selectBestCombo callCandidates putCandidates = (combos callCandidates putCandidates).argmin comboCost :=
  Selection.head?_insertionSort comboCost _

/-- Two rungs of the ladders take the two rows. -/
structure IsCombo (rawChain : List RawEntry) (call put : StrikeRow) : Prop where
  /-- A rung of the first ladder takes the call. -/
  call : ∃ target ∈ ccDeltaCandidates, rungPick rawChain "CE" target = some call
  /-- A rung of the second ladder takes the put. -/
  put : ∃ target ∈ ppDeltaCandidates, rungPick rawChain "PE" target = some put

theorem mem_combos {rawChain : List RawEntry} {call put : StrikeRow} :
    (call, put) ∈ combos (findCandidatesForLadder rawChain "CE" ccDeltaCandidates)
      (findCandidatesForLadder rawChain "PE" ppDeltaCandidates) ↔ IsCombo rawChain call put := by
  rw [findCandidatesForLadder_eq, findCandidatesForLadder_eq]
  simp only [combos, List.mem_flatMap, List.mem_map, List.mem_filterMap, Prod.mk.injEq]
  constructor
  · rintro ⟨c, hcall, p, hput, rfl, rfl⟩
    exact ⟨hcall, hput⟩
  · rintro ⟨hcall, hput⟩
    exact ⟨call, hcall, put, hput, rfl, rfl⟩

/-- The pair of a chain costs or brings in least of all. -/
theorem pairOfChain_eq_some {rawChain : List RawEntry} {call put : StrikeRow}
    (h : pairOfChain rawChain = some (call, put)) :
    IsCombo rawChain call put ∧ ∀ c p, IsCombo rawChain c p → comboCost (call, put) ≤ comboCost (c, p) := by
  rw [pairOfChain, selectBestCombo_eq] at h
  exact ⟨mem_combos.mp (List.argmin_mem h), fun c p hcp => List.le_of_mem_argmin (mem_combos.mpr hcp) h⟩

theorem pairOfChain_nil : pairOfChain [] = none := rfl

/-- There is a pair if each ladder has a row to trade. -/
theorem pairOfChain_isSome_iff {rawChain : List RawEntry} : (∃ pair, pairOfChain rawChain = some pair) ↔
    (∃ target ∈ ccDeltaCandidates, ∃ row ∈ rungRows rawChain "CE" target, row.Tradable) ∧
      ∃ target ∈ ppDeltaCandidates, ∃ row ∈ rungRows rawChain "PE" target, row.Tradable := by
  have hpair : (∃ pair, pairOfChain rawChain = some pair) ↔ ∃ call put, IsCombo rawChain call put := by
    rw [pairOfChain, selectBestCombo_eq]
    constructor
    · rintro ⟨⟨call, put⟩, h⟩
      exact ⟨call, put, mem_combos.mp (List.argmin_mem h)⟩
    · rintro ⟨call, put, h⟩
      refine Option.ne_none_iff_exists'.mp fun hnone => ?_
      exact List.not_mem_nil (List.argmin_eq_none.mp hnone ▸ mem_combos.mpr h)
  rw [hpair]
  simp only [← rungPick_isSome_iff]
  constructor
  · rintro ⟨call, put, ⟨t, ht, hcall⟩, u, hu, hput⟩
    exact ⟨⟨t, ht, call, hcall⟩, u, hu, put, hput⟩
  · rintro ⟨⟨t, ht, call, hcall⟩, u, hu, put, hput⟩
    exact ⟨call, put, ⟨t, ht, hcall⟩, u, hu, hput⟩

/-! ### The gates and the whole selection -/

/-- The gates let a pair of an expiry through. -/
structure GatesOpen (vix : Option (List ℚ)) (dte : ℤ) (policy : Option OverlayTenorPolicy) : Prop where
  /-- The expiry is far enough off. -/
  dte : policy.elim 14 (·.entryMinDte) ≤ dte
  /-- There is a year of closes, and the last is a quarter up in their range, if they have one. -/
  ivr : ∃ vixSeries ∈ vix, 252 ≤ vixSeries.length ∧ (vixHigh vixSeries = vixLow vixSeries ∨
    vixLow vixSeries + 25 / 100 * (vixHigh vixSeries - vixLow vixSeries) ≤ vixSeries.getLastD 0)

theorem currentIvr_low_iff {vixSeries : List ℚ} (h : 252 ≤ vixSeries.length) :
    (currentIvr vixSeries).all (· < 25 / 100) = false ↔ vixHigh vixSeries = vixLow vixSeries ∨
      vixLow vixSeries + 25 / 100 * (vixHigh vixSeries - vixLow vixSeries) ≤ vixSeries.getLastD 0 := by
  have hreached := @le_computeIvr_iff (vixSeries.getLastD 0) vixSeries (25 / 100) h (by norm_num) (by norm_num)
  have hall : (currentIvr vixSeries).all (· < 25 / 100) = false ↔ ∃ ivr ∈ currentIvr vixSeries, 25 / 100 ≤ ivr := by
    rw [Bool.eq_false_iff, Ne, Option.all_eq_true]
    simp only [decide_eq_true_eq, not_forall, not_lt, exists_prop, Option.mem_def]
  rw [hall, currentIvr, hreached]
  split
  next hflat => exact iff_of_true (by norm_num) (Or.inl hflat)
  next hrange => exact (or_iff_right hrange).symm

theorem checkGates_ok_iff {vix : Option (List ℚ)} {dte : ℤ} {policy : Option OverlayTenorPolicy} :
    checkGates vix dte policy = .ok () ↔ GatesOpen vix dte policy := by
  unfold checkGates
  simp only
  split
  next hdte => exact iff_of_false (by simp) fun h => not_le.mpr hdte h.dte
  next hdte =>
    cases vix with
    | none => exact iff_of_false (by simp) fun ⟨_, _, hvix, _⟩ => by simp at hvix
    | some vixSeries =>
      simp only
      split
      next hshort =>
        refine iff_of_false (by simp) fun ⟨_, _, hvix, hlong, _⟩ => ?_
        obtain rfl := Option.some.inj hvix
        omega
      next hlong =>
        have hiff := currentIvr_low_iff (not_lt.mp hlong)
        split
        next hlow =>
          refine iff_of_false (by simp) fun ⟨_, _, hvix, _, hreached⟩ => ?_
          obtain rfl := Option.some.inj hvix
          exact absurd (hiff.mpr hreached) (by simp [hlow])
        next hhigh =>
          exact iff_of_true rfl ⟨not_lt.mp hdte, vixSeries, rfl, not_lt.mp hlong,
            hiff.mp (Bool.eq_false_iff.mpr hhigh)⟩

section Selected

variable {m : Market} {closingDte : Option ℤ} {policy : Option OverlayTenorPolicy} {sel : Selection}

/-- How a selection goes through. -/
theorem selectCollarEntry_ok_iff : selectCollarEntry m closingDte policy = .ok sel ↔
    resolveExpiry m.bod m.today closingDte policy = .ok (sel.expiry, sel.dte) ∧ GatesOpen m.vix sel.dte policy ∧
      ∃ rawChain, m.fetchChainRows sel.expiry = some rawChain ∧ pairOfChain rawChain = some (sel.call, sel.put) := by
  unfold selectCollarEntry
  cases hexpiry : resolveExpiry m.bod m.today closingDte policy with
  | error e => exact iff_of_false (by simp [bind, Except.bind]) fun h => by simp at h
  | ok found =>
    obtain ⟨expiry, dte⟩ := found
    have hgates := @checkGates_ok_iff m.vix dte policy
    cases hgate : checkGates m.vix dte policy with
    | error e =>
      refine iff_of_false (by simp [bind, Except.bind, hgate]) fun ⟨hfound, hopen, _⟩ => ?_
      obtain ⟨rfl, rfl⟩ := Prod.mk.inj (Except.ok.inj hfound)
      exact absurd (hgate.symm.trans (hgates.mpr hopen)) (by simp)
    | ok _ =>
      simp only [bind, Except.bind, hgate]
      constructor
      · intro h
        split at h
        · exact absurd h (by simp)
        · exact absurd h (by simp)
        next rawChain hnonempty hfetch =>
          split at h
          next call put hpair =>
            obtain rfl := Except.ok.inj h
            exact ⟨rfl, hgates.mp hgate, rawChain, hfetch, hpair⟩
          next => exact absurd h (by simp)
      · rintro ⟨hfound, -, rawChain, hfetch, hpair⟩
        obtain ⟨rfl, rfl⟩ := Prod.mk.inj (Except.ok.inj hfound)
        cases rawChain with
        | nil => exact absurd hpair (by rw [pairOfChain_nil]; simp)
        | cons entry rest => simp only [hfetch, hpair]

/-- **The pair that is selected** is for an expiry that the gates let through, may be traded, and of
all the pairs of the ladders costs or brings in least. There is one exactly when the gates are open and
each ladder has a row to trade. -/
theorem selectCollarEntry_spec (m : Market) (closingDte : Option ℤ) (policy : Option OverlayTenorPolicy) :
    (∀ sel, selectCollarEntry m closingDte policy = .ok sel →
      resolveExpiry m.bod m.today closingDte policy = .ok (sel.expiry, sel.dte) ∧ GatesOpen m.vix sel.dte policy ∧
        ∃ rawChain ∈ m.fetchChainRows sel.expiry, sel.call.Tradable ∧ sel.put.Tradable ∧
          IsCombo rawChain sel.call sel.put ∧
            ∀ c p, IsCombo rawChain c p → comboCost (sel.call, sel.put) ≤ comboCost (c, p)) ∧
    ((∃ sel, selectCollarEntry m closingDte policy = .ok sel) ↔
      ∃ expiry dte rawChain, resolveExpiry m.bod m.today closingDte policy = .ok (expiry, dte) ∧
        GatesOpen m.vix dte policy ∧ m.fetchChainRows expiry = some rawChain ∧
          (∃ target ∈ ccDeltaCandidates, ∃ row ∈ rungRows rawChain "CE" target, row.Tradable) ∧
            ∃ target ∈ ppDeltaCandidates, ∃ row ∈ rungRows rawChain "PE" target, row.Tradable) := by
  constructor
  · intro sel h
    obtain ⟨hexpiry, hgates, rawChain, hfetch, hpair⟩ := selectCollarEntry_ok_iff.mp h
    obtain ⟨hcombo, hleast⟩ := pairOfChain_eq_some hpair
    obtain ⟨_, _, hcall⟩ := hcombo.call
    obtain ⟨_, _, hput⟩ := hcombo.put
    exact ⟨hexpiry, hgates, rawChain, hfetch, (rungPick_eq_some hcall).2.1, (rungPick_eq_some hput).2.1, hcombo,
      hleast⟩
  · constructor
    · rintro ⟨sel, h⟩
      obtain ⟨hexpiry, hgates, rawChain, hfetch, hpair⟩ := selectCollarEntry_ok_iff.mp h
      exact ⟨sel.expiry, sel.dte, rawChain, hexpiry, hgates, hfetch, pairOfChain_isSome_iff.mp ⟨_, hpair⟩⟩
    · rintro ⟨expiry, dte, rawChain, hexpiry, hgates, hfetch, hrows⟩
      obtain ⟨⟨call, put⟩, hpair⟩ := pairOfChain_isSome_iff.mpr hrows
      exact ⟨⟨call, put, expiry, dte⟩, selectCollarEntry_ok_iff.mpr ⟨hexpiry, hgates, rawChain, hfetch, hpair⟩⟩

/-- The price of a leg that may be traded is the mid of its quote. -/
theorem legPrice_of_tradable {row : StrikeRow} (h : row.Tradable) : legPrice row = row.mid := if_pos h.mid_pos

/-- A leg with an instrument and a price passes the checks of a trade. -/
theorem exists_legTrade {s role key : String} (hs : hasPaperPrefix s = true) (hrole : role ≠ "") (hkey : key ≠ "")
    {price : ℚ} (hprice : 0 < price) (today : Date) (action : TradeAction) (notes : String) :
    ∃ t, PaperTrade.validate s role key today action CollarOverlay.lotSize price notes none .open = some t ∧
      t.uniqueKey = ⟨s, role, key, today, action⟩ ∧ t.quantity = 65 ∧ t.price = price := by
  rw [PaperTrade.validate, dif_pos ⟨hs, hrole, hkey, by decide, hprice⟩]
  exact ⟨_, rfl, rfl, rfl, rfl⟩

/-- **Its two trades can be recorded**: none of the checks of a trade is in the way. -/
theorem entryTrades_of_select {s : String} {e : CollarOverlay.CollarAction} (hs : hasPaperPrefix s = true)
    (h : selectCollarEntry m closingDte policy = .ok sel) (he : e.choice = some sel.choice) :
    ∃ put call, CollarOverlay.entryTrades s e = some (put, call) ∧
      (put.uniqueKey = ⟨s, OverlayCloser.longPutRole, sel.put.instrumentKey, e.today, .buy⟩ ∧
        put.quantity = 65 ∧ put.price = sel.put.mid) ∧
      call.uniqueKey = ⟨s, OverlayCloser.shortCallRole, sel.call.instrumentKey, e.today, .sell⟩ ∧
        call.quantity = 65 ∧ call.price = sel.call.mid := by
  obtain ⟨-, -, rawChain, -, hpair⟩ := selectCollarEntry_ok_iff.mp h
  obtain ⟨hcombo, -⟩ := pairOfChain_eq_some hpair
  obtain ⟨_, _, hcall⟩ := hcombo.call
  obtain ⟨_, _, hput⟩ := hcombo.put
  have hcallTradable := (rungPick_eq_some hcall).2.1
  have hputTradable := (rungPick_eq_some hput).2.1
  have hcallKey : sel.call.instrumentKey ≠ "" := (mem_rungRows (Or.inl rfl) (rungPick_eq_some hcall).1).2.2.2.2
  have hputKey : sel.put.instrumentKey ≠ "" := (mem_rungRows (Or.inr rfl) (rungPick_eq_some hput).1).2.2.2.2
  have hcallRole : OverlayCloser.shortCallRole ≠ "" := by decide
  have hputRole : OverlayCloser.longPutRole ≠ "" := by decide
  -- both trades have the same note
  obtain ⟨notes, hentry⟩ : ∃ notes, CollarOverlay.entryTrades s e = (do
      let put ← PaperTrade.validate s OverlayCloser.longPutRole sel.put.instrumentKey e.today .buy
        CollarOverlay.lotSize sel.put.mid notes none .open
      let call ← PaperTrade.validate s OverlayCloser.shortCallRole sel.call.instrumentKey e.today .sell
        CollarOverlay.lotSize sel.call.mid notes none .open
      some (put, call)) := by
    rw [CollarOverlay.entryTrades, he, ← legPrice_of_tradable hcallTradable, ← legPrice_of_tradable hputTradable]
    exact ⟨_, rfl⟩
  obtain ⟨put, hputValid, hputSpec⟩ := exists_legTrade hs hputRole hputKey hputTradable.mid_pos e.today .buy notes
  obtain ⟨call, hcallValid, hcallSpec⟩ :=
    exists_legTrade hs hcallRole hcallKey hcallTradable.mid_pos e.today .sell notes
  refine ⟨put, call, ?_, hputSpec, hcallSpec⟩
  rw [hentry, hputValid, hcallValid]
  rfl

end Selected

/-! ### The keys of the pair -/

section Routed

variable {resolver : ContractResolver} {getChain : Date → Option (OptionChain × SourceId)}

/-- `_fetch_chain_rows` with a chain source: the rows of the chain that the source finds, with its keys. -/
def routedRows (resolver : ContractResolver) (getChain : Date → Option (OptionChain × SourceId)) (expiry : Date) :
    Option (List RawEntry) := do
  let (chain, source) ← getChain expiry
  let snapshot ← snapshotOf chain source "NSE_INDEX|Nifty 50" (some resolver)
  some (snapshot.chainToRows.map RawChainRow.rawEntry)

/-- The key of a row is that of the contract that the row is for. -/
theorem resolved_of_mem_filter {chain : OptionChain} {source : SourceId} {snapshot : Client.ChainSnapshot}
    (h : snapshotOf chain source "NSE_INDEX|Nifty 50" (some resolver) = some snapshot)
    (side : OptionSide) {deltaMin deltaMax : ℚ} {row : StrikeRow}
    (hrow : row ∈ filterStrikesByDelta (snapshot.chainToRows.map RawChainRow.rawEntry) side.text deltaMin deltaMax) :
    resolver.fromNative .upstox row.instrumentKey = some (some ⟨"NIFTY", chain.expiry, row.strike, side⟩) := by
  obtain ⟨strike, leg, key, hoffers, rfl⟩ := Client.ChainSnapshot.mem_filter_chainToRows.mp hrow
  obtain ⟨-, name, hname, hresolved⟩ := (Client.get?_keys_snapshotOf h).mp hoffers.key
  obtain rfl : "NIFTY" = name := Option.some.inj hname
  exact hresolved

/-- **The keys of the pair** that is selected on the chains of a chain source are those of a call and a
put of the chain with its strikes. -/
theorem select_resolved {m : Market} {closingDte : Option ℤ} {policy : Option OverlayTenorPolicy} {sel : Selection}
    (hrouted : m.fetchChainRows = routedRows resolver getChain)
    (h : selectCollarEntry m closingDte policy = .ok sel) :
    ∃ chain source, getChain sel.expiry = some (chain, source) ∧
      resolver.fromNative .upstox sel.call.instrumentKey = some (some ⟨"NIFTY", chain.expiry, sel.call.strike, .ce⟩) ∧
      resolver.fromNative .upstox sel.put.instrumentKey = some (some ⟨"NIFTY", chain.expiry, sel.put.strike, .pe⟩) := by
  obtain ⟨-, -, rawChain, hfetch, hpair⟩ := selectCollarEntry_ok_iff.mp h
  obtain ⟨⟨⟨_, _, hcall⟩, _, _, hput⟩, -⟩ := pairOfChain_eq_some hpair
  rw [hrouted] at hfetch
  obtain ⟨⟨chain, source⟩, hchain, hfetch⟩ := Option.bind_eq_some_iff.mp hfetch
  obtain ⟨snapshot, hsnapshot, hfetch⟩ := Option.bind_eq_some_iff.mp hfetch
  obtain rfl := Option.some.inj hfetch
  exact ⟨chain, source, hchain, resolved_of_mem_filter hsnapshot .ce (rungPick_eq_some hcall).1,
    resolved_of_mem_filter hsnapshot .pe (rungPick_eq_some hput).1⟩

/-- A call and a put of one expiry. -/
def septemberLookup : InstrumentLookup where
  instruments := [("NSE_FO|43210", "CE", 25600), ("NSE_FO|43211", "PE", 24300)].map fun i =>
    { instrumentKey := i.1
      instrumentType := some i.2.1
      underlyingSymbol := "NIFTY"
      strikePrice := some i.2.2
      expiry := Date.ofYmd 2026 9 29 }

/-- The call. -/
def septemberCall : OptionLeg :=
  { ltp := 150, bid := 149, ask := 151, oi := 52000, delta := some (18 / 100), strike := 25600 }

/-- The put. -/
def septemberPut : OptionLeg :=
  { ltp := 140, bid := 139, ask := 141, oi := 48000, delta := some (-20 / 100), strike := 24300 }

/-- The resolver of the instrument file. -/
def septemberResolver : ContractResolver
  | .upstox => Client.upstoxContractMaster septemberLookup ["NIFTY"]
  | .dhan => none

/-- The chain of Dhan. -/
def septemberChain (expiry : Date) : Option (OptionChain × SourceId) :=
  some (⟨25000, expiry, (Dict.empty.set 25600 ⟨some septemberCall, none⟩).set 24300 ⟨none, some septemberPut⟩⟩, .dhan)

/-- Five weeks before. -/
def septemberMarket : Market where
  bod := some septemberLookup
  today := 739849
  vix := some (List.replicate 252 15)
  fetchChainRows := routedRows septemberResolver septemberChain

/-- The pair of the chain. -/
def septemberPair : Selection where
  call := legRow .ce 25600 septemberCall "NSE_FO|43210"
  put := legRow .pe 24300 septemberPut "NSE_FO|43211"
  expiry := 739888
  dte := 39

/-- A pair of a chain of Dhan. -/
theorem select_resolved_september :
    ∃ chain source, septemberChain septemberPair.expiry = some (chain, source) ∧
      septemberResolver.fromNative .upstox septemberPair.call.instrumentKey =
        some (some ⟨"NIFTY", chain.expiry, septemberPair.call.strike, .ce⟩) ∧
      septemberResolver.fromNative .upstox septemberPair.put.instrumentKey =
        some (some ⟨"NIFTY", chain.expiry, septemberPair.put.strike, .pe⟩) :=
  @select_resolved septemberResolver septemberChain septemberMarket none none septemberPair rfl (by decide +kernel)

end Routed

/-! ### The script selects the same pair -/

section Script

variable (m : Market) (expiryType : ExpiryType)

/-- Without a collar that is closed, the expiry is that of the script. -/
theorem resolveExpiry_ok_iff {expiry : Date} {dte : ℤ} :
    resolveExpiry m.bod m.today none (some expiryType.policy) = .ok (expiry, dte) ↔
      ∃ lookup, m.bod = some lookup ∧ resolveOverlayExpiry lookup m.today expiryType.policy = some expiry ∧
        m.today.daysBetween expiry = dte := by
  have htoOption : (resolveExpiry m.bod m.today none (some expiryType.policy)).toOption =
      m.bod.bind fun lookup => (resolveOverlayExpiry lookup m.today expiryType.policy).map fun expiry =>
        (expiry, m.today.daysBetween expiry) := by
    cases m.bod with
    | none => rfl
    | some lookup =>
      rw [Option.bind_some]
      cases expiryType with
      | monthly =>
        show (resolveExpiry (some lookup) m.today none (some .monthly)).toOption = _
        rw [toOption_resolveExpiry none rfl, ExpiryType.policy, resolveOverlayExpiry_monthly]
        rfl
      | yearly =>
        show (match resolveOverlayExpiry lookup m.today .yearly with
          | some expiry => Except.ok (expiry, m.today.daysBetween expiry)
          | none => Except.error _ : Except CollarEntrySelectionError (Date × ℤ)).toOption = _
        rw [ExpiryType.policy]
        cases resolveOverlayExpiry lookup m.today .yearly <;> rfl
  have hok : resolveExpiry m.bod m.today none (some expiryType.policy) = .ok (expiry, dte) ↔
      (resolveExpiry m.bod m.today none (some expiryType.policy)).toOption = some (expiry, dte) := by
    cases resolveExpiry m.bod m.today none (some expiryType.policy) <;> simp [Except.toOption]
  rw [hok, htoOption]
  simp only [Option.bind_eq_some_iff, Option.map_eq_some_iff, Prod.mk.injEq]
  constructor
  · rintro ⟨lookup, hbod, found, hfound, rfl, rfl⟩
    exact ⟨lookup, hbod, hfound, rfl⟩
  · rintro ⟨lookup, hbod, hfound, hdte⟩
    exact ⟨lookup, hbod, expiry, hfound, rfl, hdte⟩

/-- Its pair is the pair of the chain. -/
theorem argmin_runCollarMode (rawChain : List RawEntry) (label : String) (expiry : Date) :
    (runCollarMode (fun e => if e = expiry then some rawChain else none) [(label, expiry)]).argmin comboCost =
      pairOfChain rawChain := by
  have hfound : (fun e => if e = expiry then some rawChain else none) expiry = some rawChain := if_pos rfl
  rw [runCollarMode, pooledCandidates_eq hfound, pooledCandidates_eq hfound, pairOfChain, selectBestCombo_eq]

/-- What the script finds for an expiry that its floor lets through. -/
theorem bootstrapPair_eq_some {policy : OverlayTenorPolicy} {expiry : Date} {dte : ℤ}
    (hdte : policy.entryMinDte ≤ dte) {rows : SelectedRow × SelectedRow} :
    bootstrapPair m false policy expiry = some rows ↔ GatesOpen m.vix dte (some policy) ∧
      ∃ rawChain, m.fetchChainRows expiry = some rawChain ∧ ∃ call put, pairOfChain rawChain = some (call, put) ∧
        (selectedRow call, selectedRow put) = rows := by
  have hgates : GatesOpen m.vix dte (some policy) ↔ ∃ vixSeries ∈ m.vix, 252 ≤ vixSeries.length ∧
      ∃ ivr ∈ currentIvr vixSeries, ¬ivr < 25 / 100 := by
    constructor
    · rintro ⟨-, vixSeries, hvix, hlong, hreached⟩
      obtain ⟨ivr, hivr⟩ := Option.isSome_iff_exists.mp (computeIvr_isSome_iff.mpr hlong)
      have hhigh := (currentIvr_low_iff hlong).mpr hreached
      refine ⟨vixSeries, hvix, hlong, ivr, hivr, fun hlow => ?_⟩
      rw [currentIvr, hivr] at hhigh
      simp [hlow] at hhigh
    · rintro ⟨vixSeries, hvix, hlong, ivr, hivr, hhigh⟩
      refine ⟨hdte, vixSeries, hvix, hlong, (currentIvr_low_iff hlong).mp ?_⟩
      rw [Option.mem_def.mp hivr]
      simpa using hhigh
  rw [hgates]
  have hchain : ∀ rawChain : List RawEntry, (if rawChain = [] then none else (pairOfChain rawChain).bind fun best =>
      some (selectedRow best.1, selectedRow best.2)) = some rows ↔
        ∃ call put, pairOfChain rawChain = some (call, put) ∧ (selectedRow call, selectedRow put) = rows := by
    intro rawChain
    split
    next hnil => simp [hnil, pairOfChain_nil]
    next => simp [Option.bind_eq_some_iff]
  simp only [bootstrapPair, Option.bind_eq_bind, argmin_runCollarMode, Option.bind_eq_some_iff,
    Option.ite_none_left_eq_some, hchain, and_true]
  constructor
  · rintro ⟨vixSeries, hvix, hlong, ivr, hivr, hhigh, hrest⟩
    exact ⟨⟨vixSeries, hvix, not_lt.mp hlong, ivr, hivr, hhigh⟩, hrest⟩
  · rintro ⟨⟨vixSeries, hvix, hlong, ivr, hivr, hhigh⟩, hrest⟩
    exact ⟨vixSeries, hvix, not_lt.mpr hlong, ivr, hivr, hhigh, hrest⟩

end Script

end NiftyShield.Strategy.CollarEntry
