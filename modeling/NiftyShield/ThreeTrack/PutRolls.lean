import NiftyShield.Lib.Run
import NiftyShield.ThreeTrack.OverlayEntry

/-!
# Rolling a protective put

The put of an overlay is bought by runs of `paper_3track_overlay_entry.py --auto-pp` and sold by
`PPOverlayV1.apply_action` (`src/strategy/pp_overlay_v1.py`). The new put is bought while the old
one is still open, so for a time there are two; the run looks at the fewest days that one of them
has left.

## What is proved

* `main_autoPp`: what an entry run writes;
* `one_fresh_iff`: along a run of entries and closes there is at most one put with more than
  `roll_dte` days left, and an entry writes nothing while there is one, exactly when no entry that
  has a put to buy meets such a put next to one that runs out.

## Honest scope

The days a put has left are those to the expiry of its contract, whatever a run can find out
about it. An entry reads the clock once. The re-entry check of `MONETIZE_PP` writes no trade.
-/

namespace NiftyShield.ThreeTrack.PutRolls

open NiftyShield.Instruments NiftyShield.Lib NiftyShield.Paper NiftyShield.Strategy OverlayEntry

/-! ### The steps -/

/-- The ledger of the puts and the day of its last step. -/
structure PutBook where
  /-- `paper_trades`. -/
  trades : PaperTrades
  /-- `market_today()`. -/
  day : Date

/-- A step, some days after the last. -/
inductive PutStep where
  /-- A run of the entry script. -/
  | entry (skipped : ℕ) (run : EntryRun)
  /-- A `ROLL_PP` or `MONETIZE_PP` action. -/
  | close (skipped : ℕ) (lookup : Option InstrumentLookup) (a : LegAction)

/-- `--auto-pp`. -/
def withAutoPp (run : EntryRun) : EntryRun := { run with autoCc := false, autoPp := true }

variable (expiryType : ExpiryType)

/-- A step. -/
def next (B : PutBook) : PutStep → PutBook
  | .entry skipped run => ⟨((withAutoPp run).main expiryType (B.day + skipped) B.trades).2, B.day + skipped⟩
  | .close skipped lookup a =>
    ⟨a.applyPp lookup expiryType.policy.ppStrategyName (B.day + skipped) B.trades, B.day + skipped⟩

/-! ### What is to hold -/

/-- A put is open and has more than `roll_dte` days left. -/
def Fresh (expiryOf : String → Date) (T : PaperTrades) (today : Date) (key : String) : Prop :=
  0 < T.netQty expiryType.policy.ppStrategyName ("overlay_pp", key) ∧
    expiryType.policy.rollDte < today.daysBetween (expiryOf key)

instance (expiryOf : String → Date) (T : PaperTrades) (today : Date) (key : String) :
    Decidable (Fresh expiryType expiryOf T today key) := inferInstanceAs (Decidable (_ ∧ _))

/-- There are not two such puts. -/
def AtMostOneFresh (expiryOf : String → Date) (B : PutBook) : Prop :=
  ∀ key key', Fresh expiryType expiryOf B.trades B.day key → Fresh expiryType expiryOf B.trades B.day key' → key = key'

/-- An entry writes nothing while there is one. -/
def FreshStopsEntry (expiryOf : String → Date) (B : PutBook) : PutStep → Prop
  | .entry skipped run => (∃ key, Fresh expiryType expiryOf B.trades (B.day + skipped) key) →
      (next expiryType B (.entry skipped run)).trades = B.trades
  | .close .. => True

/-- The put that an entry has to buy. -/
def putToBuy (today : Date) (run : EntryRun) : Option PaperTrade :=
  if run.dryRun || run.recordFails then none
  else
    (autoPpBootstrap run.bod today expiryType.policy run.selectPut).bind fun cfg =>
      putTrade run.text cfg expiryType.policy.ppStrategyName "overlay_pp" "Overlay PP"

/-- No entry that has a put to buy, can read the ledger and has not bought the same put that
day meets a fresh put next to one that it knows to run out. -/
def FreshIsSeen (expiryOf : String → Date) (B : PutBook) : PutStep → Prop
  | .entry skipped run =>
      ∀ put ∈ putToBuy expiryType (B.day + skipped) run, run.openQueryFails = false →
        B.trades.hasKey put.uniqueKey = false → (∃ key, Fresh expiryType expiryOf B.trades (B.day + skipped) key) →
          ∀ key, 0 < B.trades.netQty expiryType.policy.ppStrategyName ("overlay_pp", key) →
            ∀ expiry ∈ ppExpiry run.bod key, expiryType.policy.rollDte < (B.day + skipped).daysBetween expiry
  | .close .. => True

/-! ### An entry -/

section Entry

variable {expiryType} {today : Date} {run : EntryRun} {T : PaperTrades}

variable (expiryType today run T) in
/-- **What an entry writes**: the put it has to buy, if the gate lets it. -/
theorem main_autoPp :
    ((withAutoPp run).main expiryType today T).2 = T ∨
      ∃ put ∈ putToBuy expiryType today run, (withAutoPp run).ppGate expiryType today T = .ok () ∧
        ((withAutoPp run).main expiryType today T).2 = (T.recordTrade put).1 := by
  unfold EntryRun.main
  cases hplan : (withAutoPp run).plan expiryType today T with
  | error stop => exact Or.inl rfl
  | ok trades =>
    obtain ⟨hgate, hdry, cfg, hcfg, put, hput, rfl⟩ := (plan_autoPp rfl rfl).mp hplan
    cases hfails : run.recordFails with
    | true =>
      have hrec : (withAutoPp run).recordFails = true := hfails
      exact Or.inl (by simp [hrec])
    | false =>
      have hrec : (withAutoPp run).recordFails = false := hfails
      have hdry' : run.dryRun = false := hdry
      refine Or.inr ⟨put, ?_, hgate, ?_⟩
      · simp only [putToBuy, hdry', hfails, Bool.or_self, Bool.false_eq_true, if_false]
        exact Option.bind_eq_some_iff.mpr ⟨cfg, hcfg, hput⟩
      · simp only [hrec, Bool.false_eq_true, if_false]
        exact (PaperTrades.foldl_recordTrade [put] T).symm

theorem main_autoPp_of_gate {put : PaperTrade} (hput : put ∈ putToBuy expiryType today run)
    (hgate : (withAutoPp run).ppGate expiryType today T = .ok ()) :
    ((withAutoPp run).main expiryType today T).2 = (T.recordTrade put).1 := by
  unfold putToBuy at hput
  split at hput
  next => exact absurd hput (by simp)
  next hruns =>
    obtain ⟨hdry, hrec⟩ : run.dryRun = false ∧ run.recordFails = false := by simpa using hruns
    obtain ⟨cfg, hcfg, hput⟩ := Option.bind_eq_some_iff.mp hput
    have hplan : (withAutoPp run).plan expiryType today T = .ok [put] :=
      (plan_autoPp rfl rfl).mpr ⟨hgate, hdry, cfg, hcfg, put, hput, rfl⟩
    have hrec' : (withAutoPp run).recordFails = false := hrec
    simp only [EntryRun.main, hplan, hrec', Bool.false_eq_true, if_false]
    exact (PaperTrades.foldl_recordTrade [put] T).symm

theorem ledger_withAutoPp (run : EntryRun) :
    (withAutoPp run).ledger expiryType = expiryType.policy.ppStrategyName := by
  simp [EntryRun.ledger, withAutoPp]

end Entry

/-! ### A step -/

section Step

variable {expiryType} {expiryOf : String → Date}

/-- A put that is fresh was fresh before, if it was open. -/
theorem Fresh.earlier {T T' : PaperTrades} {today : ℕ} {skipped : ℕ} {key : String}
    (hopen : 0 < T.netQty expiryType.policy.ppStrategyName ("overlay_pp", key))
    (h : Fresh expiryType expiryOf T' (today + skipped) key) : Fresh expiryType expiryOf T today key := by
  refine ⟨hopen, ?_⟩
  have hroll := h.2
  unfold Date.daysBetween at hroll ⊢
  push_cast at hroll ⊢
  omega

/-- A close opens no put. -/
theorem netQty_close_pos {a : LegAction} {lookup : Option InstrumentLookup} {s : String} {today : Date} {T : PaperTrades}
    {k : String × String} (h : 0 < (a.applyPp lookup s today T).netQty s k) : 0 < T.netQty s k := by
  rcases netQty_applyAction a lookup s .sell today T with hsame | ⟨p, -, -, hnet⟩
  · rw [LegAction.applyPp, hsame] at h
    exact h
  · rw [LegAction.applyPp, hnet] at h
    split at h
    next => exact absurd h (lt_irrefl 0)
    next => exact h

/-- A fresh put that is seen stops an entry. -/
theorem freshStopsEntry_of_freshIsSeen {B : PutBook} {skipped : ℕ} {run : EntryRun}
    (h : FreshIsSeen expiryType expiryOf B (.entry skipped run)) :
    FreshStopsEntry expiryType expiryOf B (.entry skipped run) := by
  rintro ⟨key, hfresh⟩
  show ((withAutoPp run).main expiryType (B.day + skipped) B.trades).2 = B.trades
  rcases main_autoPp expiryType (B.day + skipped) run B.trades with heq | ⟨put, hput, hgate, heq⟩
  · exact heq
  · rw [heq, PaperTrades.recordTrade_eq_self_iff]
    by_contra hkey
    obtain ⟨hquery, hflat | ⟨key', hopen, expiry, hexpiry, hroll⟩⟩ := ppGate_ok_iff.mp hgate
    · have hmem := mem_openLongKeys.mpr hfresh.1
      rw [ledger_withAutoPp] at hflat
      rw [hflat] at hmem
      exact absurd hmem List.not_mem_nil
    · rw [ledger_withAutoPp, mem_openLongKeys] at hopen
      have hseen := h put hput hquery (Bool.eq_false_iff.mpr hkey) ⟨key, hfresh⟩ key' hopen expiry hexpiry
      exact absurd hroll (not_le.mpr hseen)

/-- An entry that a fresh put does not stop has not seen it. -/
theorem freshIsSeen_of_freshStopsEntry {B : PutBook} {skipped : ℕ} {run : EntryRun}
    (h : FreshStopsEntry expiryType expiryOf B (.entry skipped run)) :
    FreshIsSeen expiryType expiryOf B (.entry skipped run) := by
  intro put hput hquery hfree hfresh key hopen expiry hexpiry
  by_contra hroll
  have hgate : (withAutoPp run).ppGate expiryType (B.day + skipped) B.trades = .ok () := by
    refine ppGate_ok_iff.mpr ⟨hquery, Or.inr ⟨key, ?_, expiry, hexpiry, not_lt.mp hroll⟩⟩
    rw [ledger_withAutoPp]
    exact mem_openLongKeys.mpr hopen
  have hmain : ((withAutoPp run).main expiryType (B.day + skipped) B.trades).2 = B.trades := h hfresh
  rw [main_autoPp_of_gate hput hgate, PaperTrades.recordTrade_eq_self_iff, hfree] at hmain
  exact absurd hmain Bool.false_ne_true

/-- **A step** leaves at most one fresh put and does not write next to one, exactly when a fresh
put is seen. -/
theorem step_iff {B : PutBook} (step : PutStep) (h : AtMostOneFresh expiryType expiryOf B) :
    AtMostOneFresh expiryType expiryOf (next expiryType B step) ∧ FreshStopsEntry expiryType expiryOf B step ↔
      FreshIsSeen expiryType expiryOf B step := by
  cases step with
  | entry skipped run =>
    refine ⟨fun hstep => freshIsSeen_of_freshStopsEntry hstep.2, fun hseen => ?_⟩
    have hstops := freshStopsEntry_of_freshIsSeen hseen
    refine ⟨?_, hstops⟩
    by_cases hfresh : ∃ key, Fresh expiryType expiryOf B.trades (B.day + skipped) key
    · -- nothing is written, and the days left only get fewer
      intro key key' hkey hkey'
      rw [AtMostOneFresh] at h
      have hsame : (next expiryType B (.entry skipped run)).trades = B.trades := hstops hfresh
      rw [hsame] at hkey hkey'
      exact h key key' (hkey.earlier hkey.1) (hkey'.earlier hkey'.1)
    · -- only the put that is bought can be fresh
      have hnone : ∀ key, ¬Fresh expiryType expiryOf B.trades (B.day + skipped) key := not_exists.mp hfresh
      rcases main_autoPp expiryType (B.day + skipped) run B.trades with heq | ⟨put, hput, -, heq⟩
      · intro key key' hkey
        have hkey : Fresh expiryType expiryOf
            ((withAutoPp run).main expiryType (B.day + skipped) B.trades).2 (B.day + skipped) key := hkey
        rw [heq] at hkey
        exact absurd hkey (hnone key)
      · have honly : ∀ key, Fresh expiryType expiryOf (B.trades.recordTrade put).1 (B.day + skipped) key →
            key = put.instrumentKey := by
          intro key hkey
          by_contra hne
          have hpair : put.legInstrument ≠ ("overlay_pp", key) := fun heq => hne (Prod.mk.inj heq).2.symm
          refine hnone key ⟨?_, hkey.2⟩
          rw [← PaperTrades.netQty_recordTrade_of_ne hpair]
          exact hkey.1
        intro key key' hkey hkey'
        simp only [next, heq] at hkey hkey'
        rw [honly key hkey, honly key' hkey']
  | close skipped lookup a =>
    refine ⟨fun _ => trivial, fun _ => ⟨fun key key' hkey hkey' => ?_, trivial⟩⟩
    exact h key key' (hkey.earlier (netQty_close_pos hkey.1)) (hkey'.earlier (netQty_close_pos hkey'.1))

/-- **At most one fresh put**: and no entry next to one, along a run from a ledger with at most
one, exactly when every entry that has a put to buy sees it. -/
theorem one_fresh_iff (expiryType : ExpiryType) (expiryOf : String → Date) {start : PutBook} (steps : List PutStep)
    (h : AtMostOneFresh expiryType expiryOf start) :
    Run.Along (next expiryType) (AtMostOneFresh expiryType expiryOf) start steps ∧
        Run.EachStep (next expiryType) (FreshStopsEntry expiryType expiryOf) start steps ↔
      Run.EachStep (next expiryType) (FreshIsSeen expiryType expiryOf) start steps :=
  Run.along_and_eachStep_iff (I := fun _ => True) (fun _ _ _ => trivial) (fun _ step _ h => step_iff step h) trivial h

end Step

/-! ### Two entries in the days of a roll -/

/-- A put in the BOD file. -/
private def listedPut (key : String) (expiry : Date) : Instrument where
  instrumentKey := key
  instrumentType := some "PE"
  underlyingSymbol := "NIFTY"
  expiry := some expiry
  lotSize := some 65

/-- Puts of 30 June and of 28 July 2026. -/
private def listedPuts : InstrumentLookup :=
  ⟨[listedPut "NSE_FO|65800" 739797, listedPut "NSE_FO|65810" 739825, listedPut "NSE_FO|65820" 739825]⟩

/-- An entry run that selects a put. -/
private def buys (key : String) : EntryRun where
  bod := some listedPuts
  selectPut _ := some { strike := 23000, instrumentKey := key, mid := 120, ltp := 120, gateSpread := none, oi := 1000 }
  text := { strike := toString, spreadPct := fun _ => "None", oi := toString }

/-- The expiries of these puts. -/
private def listedExpiry (key : String) : Date := if key = "NSE_FO|65800" then 739797 else 739825

/-- The day before the first entry. -/
private def noPuts : PutBook := ⟨PaperTrades.empty, 739769⟩

/-- A put is bought on 3 June; on 26 June, with four days left, two runs each buy one of July. -/
theorem two_fresh_puts :
    ¬(Run.Along (next .monthly) (AtMostOneFresh .monthly listedExpiry) noPuts
        [.entry 1 (buys "NSE_FO|65800"), .entry 23 (buys "NSE_FO|65810"), .entry 0 (buys "NSE_FO|65820")] ∧
      Run.EachStep (next .monthly) (FreshStopsEntry .monthly listedExpiry) noPuts
        [.entry 1 (buys "NSE_FO|65800"), .entry 23 (buys "NSE_FO|65810"), .entry 0 (buys "NSE_FO|65820")]) := by
  rintro ⟨halong, -⟩
  rw [Run.along_iff_final] at halong
  have htwo := halong _ List.prefix_rfl "NSE_FO|65810" "NSE_FO|65820" (by decide +kernel) (by decide +kernel)
  exact absurd htwo (by decide)

/-- The equivalence from an empty ledger. -/
theorem one_fresh_iff_noPuts :
    Run.Along (next .monthly) (AtMostOneFresh .monthly listedExpiry) noPuts [.entry 1 (buys "NSE_FO|65800")] ∧
        Run.EachStep (next .monthly) (FreshStopsEntry .monthly listedExpiry) noPuts [.entry 1 (buys "NSE_FO|65800")] ↔
      Run.EachStep (next .monthly) (FreshIsSeen .monthly listedExpiry) noPuts [.entry 1 (buys "NSE_FO|65800")] :=
  one_fresh_iff .monthly listedExpiry _ fun _ _ hopen => absurd hopen.1 (lt_irrefl (0 : ℤ))

end NiftyShield.ThreeTrack.PutRolls
