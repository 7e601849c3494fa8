import NiftyShield.Risk.DeltaTracker
import NiftyShield.Strategy.IcEntry

/-!
# The gate on the delta of the portfolio

`check_entry_allowed` (`src/risk/entry_gate.py`) and its one caller, `main` of
`scripts/record/record_paper_trade.py`: a trade that is bought by hand is recorded only while the delta
of the portfolio is not above its caps. The gate looks at what is open before the trade. It does not
look at sales, at closes, at forced entries and at the condors, and it lets through what its key says to
be a put.

## What is proved

* `recordPaperTrade_ic`: for a leg of a condor the call is the one of the entry scripts;
* `allowed_iff`: what the gate lets through;
* `ledgerDelta_recordPaperTrade`: what a call adds to the options of the portfolio, and when;
* `ledgerDelta_run_le`: along any run the options stay at most one trade above the cap, if only
  trades that the gate looks at add to them.

## Honest scope

The arguments are given as parsed, the instrument and the price as resolved; a call that stops before
the gate, at the drift of the price or at the IV rank, is one that stops. The exit event of a forced
entry and the cards are left out. Nothing else writes to the ledger during a run.
-/

namespace NiftyShield.Risk

open NiftyShield.Instruments NiftyShield.Lib NiftyShield.Paper
open NiftyShield.Strategy.IcEntry (Fate)

/-! ### The gate -/

/-- The reason that is returned with the decision. -/
inductive EntryReason where
  /-- The empty text. -/
  | empty
  /-- `Portfolio delta hard cap breached`. -/
  | capBreached (totalDeltaLots optionsDeltaLots : ℚ)
  /-- `WARNING: portfolio delta near cap`. -/
  | warning (totalDeltaLots optionsDeltaLots tradeDeltaLots : ℚ)
  deriving DecidableEq

/-- `check_entry_allowed`. -/
def checkEntryAllowed (currentDelta : PortfolioDelta) (tradeDeltaLots : ℚ) (isProtective : Bool) : Bool × EntryReason :=
  if isProtective then (true, .empty)
  else if currentDelta.capBreached then
    (false, .capBreached currentDelta.totalDeltaLots currentDelta.optionsDeltaLots)
  else if currentDelta.warningBreached then
    (true, .warning currentDelta.totalDeltaLots currentDelta.optionsDeltaLots tradeDeltaLots)
  else (true, .empty)

/-- `LOT_SIZE`. -/
def lotSize : ℤ := 65

/-- The arguments of a call. -/
structure RecordArgs where
  /-- `--strategy`. -/
  strategy : String
  /-- `--leg`. -/
  leg : String
  /-- `instrument_key`. -/
  instrumentKey : String
  /-- `--date`. -/
  tradeDate : Date
  /-- `--action`. -/
  action : TradeAction := .sell
  /-- `--close`. -/
  close : Bool := false
  /-- `--qty`. -/
  qty : ℤ
  /-- `--price`. -/
  price : ℚ
  /-- `--notes`. -/
  notes : String := ""
  /-- `--force-entry`. -/
  forceEntry : Bool := false
  /-- `--dry-run`. -/
  dryRun : Bool := false

/-- A call, with what it finds. -/
structure RecordCall where
  /-- Its arguments. -/
  args : RecordArgs
  /-- The last price of `NSE_INDEX|Nifty 50`, if it can be fetched. -/
  niftySpot : Option ℚ
  /-- `ivr_at_entry`. -/
  ivrAtEntry : Option ℚ
  /-- What becomes of it. -/
  fate : Fate

/-- The action, which `--close` implies. -/
def RecordArgs.side (a : RecordArgs) : TradeAction := if a.close then .buy else a.action

/-- `strategy.startswith("paper_ic_")`. -/
def hasIcPrefix (strategy : String) : Bool := "paper_ic_".toList.isPrefixOf strategy.toList

/-- The gate looks at the call. -/
def RecordArgs.gated (a : RecordArgs) : Bool :=
  a.side = .buy && !a.close && !a.forceEntry && !hasIcPrefix a.strategy

/-- `is_protective`. -/
def RecordArgs.isProtective (a : RecordArgs) : Bool := "PE".toList.isSuffixOf a.instrumentKey.toList

section Record

variable (lookup : Option InstrumentLookup)

/-- The gate lets the call through. -/
def RecordCall.allowed (c : RecordCall) (T : PaperTrades) : Bool :=
  match c.niftySpot with
  | none => false
  | some niftySpot =>
    match ({} : PortfolioDeltaTracker).aggregateDelta (openPositions lookup T) niftySpot lotSize fun _ => none with
    | .error _ => false
    | .ok portfolioDelta => (checkEntryAllowed portfolioDelta (c.args.qty / lotSize) c.args.isProtective).1

/-- `main`, and whether it exits with 0. -/
def recordPaperTrade (c : RecordCall) (T : PaperTrades) : PaperTrades × Bool :=
  let a := c.args
  if !hasPaperPrefix a.strategy then (T, false)
  else if a.close ∧ a.action ≠ .sell then (T, false)
  else if c.fate = .stopped then (T, false)
  else if a.gated && !c.allowed lookup T then (T, false)
  else
    match PaperTrade.validate a.strategy a.leg a.instrumentKey a.tradeDate a.side a.qty a.price a.notes
        c.ivrAtEntry .open with
    | none => (T, false)
    | some t =>
      if a.dryRun then (T, c.fate = .finished)
      else
        let (T, inserted) := T.recordTrade t
        -- a duplicate is `SKIPPED`, and fails an entry
        if !inserted && !a.close then (T, false)
        else if c.fate = .died false then (T, false)
        else
          let flat := (T.getPosition lookup a.strategy a.leg (some a.instrumentKey)).netQty = 0
          (if inserted ∧ flat then T.markTradeClosed a.strategy a.leg a.instrumentKey else T, c.fate = .finished)

/-- A run of calls. -/
def run (T : PaperTrades) (calls : List RecordCall) : PaperTrades :=
  calls.foldl (fun T c => (recordPaperTrade lookup c T).1) T

/-- The lots that a call adds to the options if its trade is recorded. -/
def RecordCall.lots (c : RecordCall) : ℚ :=
  lotDelta lookup c.args.instrumentKey * (if c.args.side = .buy then c.args.qty else -c.args.qty) / lotSize

end Record

/-! ### One call -/

section Call

variable {lookup : Option InstrumentLookup} {c : RecordCall} {T : PaperTrades}

/-- The arguments of a leg of a condor. -/
def legArgs (s : String) (today : Date) (l : Strategy.IcEntry.EntryLeg) : RecordArgs where
  strategy := s
  leg := l.role
  instrumentKey := l.instrumentKey
  tradeDate := today
  action := l.action
  qty := Strategy.IronCondor.lotSize
  price := l.price

/-- A condor's strategy is a paper strategy. -/
theorem hasPaperPrefix_of_ic {s : String} (hs : hasIcPrefix s = true) : hasPaperPrefix s = true := by
  have hic : "paper_ic_".toList <+: s.toList := List.isPrefixOf_iff_prefix.mp hs
  exact List.isPrefixOf_iff_prefix.mpr ((by decide : "paper_".toList <+: "paper_ic_".toList).trans hic)

/-- **For a leg of a condor** the call is the one of the entry scripts. -/
theorem recordPaperTrade_ic {s : String} (hs : hasIcPrefix s = true) (today : Date)
    (call : Strategy.IcEntry.EntryLeg → Strategy.IcEntry.Call s) (l : Strategy.IcEntry.EntryLeg)
    (niftySpot : Option ℚ) :
    Strategy.IcEntry.recordPaperTrade lookup today call T l =
      recordPaperTrade lookup ⟨legArgs s today l, niftySpot, (call l).ivrAtEntry, (call l).fate⟩
        (T.recordTrades (call l).others).1 := by
  have hpaper : hasPaperPrefix (legArgs s today l).strategy = true := hasPaperPrefix_of_ic hs
  have hgated : (legArgs s today l).gated = false := by
    have hic : hasIcPrefix (legArgs s today l).strategy = true := hs
    rw [RecordArgs.gated, hic, Bool.not_true, Bool.and_false]
  unfold Strategy.IcEntry.recordPaperTrade recordPaperTrade
  simp only [hpaper, hgated, Bool.not_true, Bool.false_eq_true, if_false, Bool.false_and]
  simp only [legArgs, Bool.false_eq_true, false_and, if_false, Bool.not_false, Bool.and_true, RecordArgs.side]
  split
  · rfl
  · cases PaperTrade.validate s l.role l.instrumentKey today l.action Strategy.IronCondor.lotSize l.price ""
        (call l).ivrAtEntry .open with
    | none => rfl
    | some t => cases hinserted : ((T.recordTrades (call l).others).1.recordTrade t).2 <;> simp [hinserted]

/-- **What the gate lets through**: a key that ends like a put, or anything while the options are at most
at their cap and, with the NiftyBees units at what they cost, at most at the combined one. -/
theorem allowed_iff : c.allowed lookup T = true ↔ ∃ niftySpot ∈ c.niftySpot, 0 < niftySpot ∧
    (c.args.isProtective = true ∨ ledgerDelta lookup lotSize T ≤ 1 ∧
      ledgerDelta lookup lotSize T + niftybeesCost lookup T / (niftySpot * lotSize) ≤ 2) := by
  unfold RecordCall.allowed
  cases c.niftySpot with
  | none => simp
  | some niftySpot =>
    simp only [Option.mem_some_iff, exists_eq_left']
    by_cases hspot : niftySpot ≤ 0
    · simp only [PortfolioDeltaTracker.aggregateDelta, if_pos hspot]
      exact iff_of_false Bool.false_ne_true fun h => not_lt.mpr hspot h.1
    · have hlot : 0 < lotSize := by decide
      simp only [aggregateDelta_of_pos {} (not_le.mp hspot) hlot, not_le.mp hspot, true_and]
      cases hprotective : c.args.isProtective with
      | true => simp [checkEntryAllowed]
      | false =>
        have hcap : (checkEntryAllowed (PortfolioDeltaTracker.snapshot {} (ledgerDelta lookup lotSize T)
            (niftybeesCost lookup T / (niftySpot * lotSize))) (c.args.qty / lotSize) false).1 =
            !(PortfolioDeltaTracker.snapshot {} (ledgerDelta lookup lotSize T)
              (niftybeesCost lookup T / (niftySpot * lotSize))).capBreached := by
          unfold checkEntryAllowed
          split_ifs with _ hbreached <;> simp_all
        rw [hcap]
        simp [PortfolioDeltaTracker.snapshot]

/-- The trade of a call has its lots. -/
theorem tradeDelta_validate {t : PaperTrade}
    (h : PaperTrade.validate c.args.strategy c.args.leg c.args.instrumentKey c.args.tradeDate c.args.side c.args.qty
      c.args.price c.args.notes c.ivrAtEntry .open = some t) : tradeDelta lookup lotSize t = c.lots lookup := by
  obtain ⟨hkey, hqty⟩ := validate_eq_some h
  obtain ⟨-, -, hinst, -, haction⟩ := PaperTrade.UniqueKey.mk.inj hkey
  have hinstrument : t.instrumentKey = c.args.instrumentKey := hinst
  have hside : t.action = c.args.side := haction
  rw [tradeDelta, hinstrument, RecordCall.lots, PaperTrade.signedQty, hside, ← hqty]
  cases c.args.side <;> simp

/-- **What a call adds** to the options of the portfolio: nothing, or the lots of its trade. If the gate
looks at the trade and does not take it for a put, the options were not above the cap before. -/
theorem ledgerDelta_recordPaperTrade (c : RecordCall) (T : PaperTrades) :
    ledgerDelta lookup lotSize (recordPaperTrade lookup c T).1 = ledgerDelta lookup lotSize T ∨
      ledgerDelta lookup lotSize (recordPaperTrade lookup c T).1 = ledgerDelta lookup lotSize T + c.lots lookup ∧
        (c.args.gated = true → c.args.isProtective = false → ledgerDelta lookup lotSize T ≤ 1) := by
  unfold recordPaperTrade
  simp only
  split
  · exact Or.inl rfl
  split
  · exact Or.inl rfl
  split
  · exact Or.inl rfl
  split
  · exact Or.inl rfl
  next hallowed =>
    have hgate : c.args.gated = true → c.args.isProtective = false → ledgerDelta lookup lotSize T ≤ 1 := by
      intro hgated hprotective
      have hopen : c.allowed lookup T = true := by simpa [hgated] using hallowed
      obtain ⟨_, -, -, hput | hcap⟩ := allowed_iff.mp hopen
      · exact absurd (hprotective.symm.trans hput) Bool.false_ne_true
      · exact hcap.1
    split
    · exact Or.inl rfl
    next t ht =>
      have hlots : tradeDelta lookup lotSize t = c.lots lookup := tradeDelta_validate ht
      split
      · exact Or.inl rfl
      · cases hkey : T.hasKey t.uniqueKey with
        | true =>
          rw [PaperTrades.recordTrade_duplicate hkey]
          refine Or.inl ?_
          simp only [Bool.false_eq_true, false_and, if_false]
          split_ifs <;> rfl
        | false =>
          refine Or.inr ⟨?_, hgate⟩
          rw [← hlots, ← ledgerDelta_recordTrade hkey]
          split_ifs <;> first | rfl | exact ledgerDelta_markTradeClosed _ _ _

end Call

/-! ### Runs -/

section Runs

variable {lookup : Option InstrumentLookup} {T : PaperTrades}

/-- A call that takes lots off the options, or adds at most a number of them past the gate. -/
def RecordCall.AddsAtMost (lookup : Option InstrumentLookup) (size : ℚ) (c : RecordCall) : Prop :=
  c.lots lookup ≤ 0 ∨ (c.args.gated = true ∧ c.args.isProtective = false ∧ c.lots lookup ≤ size)

instance (lookup : Option InstrumentLookup) (size : ℚ) (c : RecordCall) : Decidable (c.AddsAtMost lookup size) :=
  inferInstanceAs (Decidable (_ ∨ _))

/-- **Along any run** the options stay at most one trade above the cap or where they have been, if only
trades that the gate looks at add to them. -/
theorem ledgerDelta_run_le {size : ℚ} (calls : List RecordCall)
    (hcalls : ∀ c ∈ calls, c.AddsAtMost lookup size) :
    ledgerDelta lookup lotSize (run lookup T calls) ≤ max (ledgerDelta lookup lotSize T) (1 + size) := by
  induction calls generalizing T with
  | nil => exact le_max_left _ _
  | cons c calls ih =>
    have hrest := @ih (recordPaperTrade lookup c T).1 fun d hd => hcalls d (List.mem_cons_of_mem c hd)
    have hstep : ledgerDelta lookup lotSize (recordPaperTrade lookup c T).1 ≤
        max (ledgerDelta lookup lotSize T) (1 + size) := by
      rcases ledgerDelta_recordPaperTrade c T with hsame | ⟨hadded, hgate⟩
      · exact hsame.trans_le (le_max_left _ _)
      · rcases hcalls c List.mem_cons_self with hless | ⟨hgated, hprotective, hsize⟩
        · exact le_max_of_le_left (by linarith)
        · -- the gate has seen the options at most at the cap
          have hcap := hgate hgated hprotective
          exact le_max_of_le_right (by linarith)
    exact hrest.trans (max_le hstep (le_max_right _ _))

/-- An instrument file with one future. -/
def futureLookup : InstrumentLookup where
  instruments := [{ instrumentKey := "NSE_FO|62329", instrumentType := some "FUT", underlyingSymbol := "NIFTY" }]

/-- A lot of the future that is bought. -/
def buyFuture (today : Date) : RecordCall where
  args :=
    { strategy := "paper_nifty_futures", leg := "base_futures", instrumentKey := "NSE_FO|62329", tradeDate := today
      action := .buy, qty := 65, price := 24500 }
  niftySpot := some 24480
  ivrAtEntry := none
  fate := .finished

/-- Two lots reach the bound, and the third is stopped. -/
example : ledgerDelta (some futureLookup) lotSize (run (some futureLookup) .empty ([739849, 739850, 739851].map buyFuture)) =
    2 := by decide +kernel

theorem ledgerDelta_run_le_future :
    ledgerDelta (some futureLookup) lotSize (run (some futureLookup) .empty ([739849, 739850, 739851].map buyFuture)) ≤
      max (ledgerDelta (some futureLookup) lotSize .empty) (1 + 1) :=
  ledgerDelta_run_le _ (by decide +kernel)

end Runs

end NiftyShield.Risk
