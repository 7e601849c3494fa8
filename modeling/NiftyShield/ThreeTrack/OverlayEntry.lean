import NiftyShield.Instruments.Expiries
import NiftyShield.Strategy.OverlayTenor
import NiftyShield.Strategy.ReEntryNotices

/-!
# Entering an overlay and closing it

`scripts/strategies/three_track/paper_3track_overlay_entry.py`: a run selects the put, the call or
the pair of an overlay, or is given it in a file, looks at what is open and records the trades
(`main`). A protective put is entered again while the old one runs out, so what is open is
measured in days (`_open_pp_dte`); a call that is already sold under another role is not sold
again (`_query_open_call_role`). The put and the covered call are closed by `apply_action` of
`PPOverlayV1` and `CCOverlayV1` (`src/strategy/pp_overlay_v1.py`, `cc_overlay_v1.py`).

## What is proved

* `ppGate_ok_iff`: which open puts let a run go on;
* `plan_ok`, `plan_autoPp`: what a run has to record;
* `netQty_applyAction`: what a close does to the net quantities.

## Honest scope

The gates on volatility, the chain and the choice of strikes are one function of the expiry. A
file is given as loaded. The gate violation that is recorded, the cards and the advisory check
of the collateral are left out. The re-entry checks of the closes write no trade.
-/

namespace NiftyShield.ThreeTrack.OverlayEntry

open NiftyShield.Instruments NiftyShield.Lib NiftyShield.Paper NiftyShield.Strategy

/-! ### What is to be entered -/

/-- The choices of `--expiry-type`. -/
inductive ExpiryType where
  /-- The monthly book. -/
  | monthly
  /-- The yearly books. -/
  | yearly
  deriving DecidableEq

/-- `OVERLAY_TENORS[args.expiry_type]`. -/
def ExpiryType.policy : ExpiryType → OverlayTenorPolicy
  | .monthly => .monthly
  | .yearly => .yearly

/-- `overlay_type`. -/
inductive OverlayType where
  /-- A protective put. -/
  | pp
  /-- A covered call. -/
  | cc
  /-- A put and a call. -/
  | collar
  deriving DecidableEq

/-- `_PRIMARY_LEG_ROLE`. -/
def OverlayType.primaryLegRole : OverlayType → String
  | .pp => "overlay_pp"
  | .cc => "overlay_cc"
  | .collar => "overlay_collar_put"

/-- `OverlayConfig`. -/
structure OverlayConfig where
  /-- `overlay_type`. -/
  overlayType : OverlayType
  /-- `entry_date`. -/
  entryDate : Date
  /-- `cycle`. -/
  cycle : ℤ
  /-- `lot_size`. -/
  lotSize : ℤ
  /-- `expiry`. -/
  expiry : String
  /-- `expiry_type`. -/
  expiryType : String
  /-- `dte_at_entry`. -/
  dteAtEntry : ℤ
  /-- `put_strike`. -/
  putStrike : ℚ := 0
  /-- `put_instrument_key`. -/
  putInstrumentKey : String := ""
  /-- `put_price`. -/
  putPrice : ℚ := 0
  /-- `put_spread_pct`. -/
  putSpreadPct : Option ℚ := none
  /-- `put_oi`. -/
  putOi : ℤ := 0
  /-- `call_strike`. -/
  callStrike : ℚ := 0
  /-- `call_instrument_key`. -/
  callInstrumentKey : String := ""
  /-- `call_price`. -/
  callPrice : ℚ := 0
  /-- `call_spread_pct`. -/
  callSpreadPct : Option ℚ := none
  /-- `call_oi`. -/
  callOi : ℤ := 0

/-- A row of the chain that is selected. -/
structure SelectedRow where
  /-- `strike`. -/
  strike : ℚ
  /-- `instrument_key`. -/
  instrumentKey : String
  /-- `mid`. -/
  mid : ℚ
  /-- `ltp`. -/
  ltp : ℚ
  /-- `gate_spread`. -/
  gateSpread : Option ℚ
  /-- `oi`. -/
  oi : ℤ

/-- The price of an entry. -/
def SelectedRow.price (row : SelectedRow) : ℚ := if 0 < row.mid then row.mid else row.ltp

/-- `_resolve_lot_size`. -/
def resolveLotSize (lookup : InstrumentLookup) (instrumentKey : String) : ℤ :=
  match (lookup.getByKey instrumentKey).bind (·.lotSize) with
  | some lotSize => if lotSize ≤ 0 then 65 else lotSize
  | none => 65

/-- `resolve_overlay_expiry`. -/
def resolveOverlayExpiry (lookup : InstrumentLookup) (today : Date) (policy : OverlayTenorPolicy) : Option Date :=
  let candidates := lookup.expiryCandidates "NIFTY" today [policy.expiryBucket] (some (today + policy.rollDte.toNat))
  ((candidates.find? fun c => c.1 = policy.expiryBucket).map Prod.snd).filter fun expiry =>
    policy.entryMinDte ≤ today.daysBetween expiry

section Bootstrap

variable (bod : Option InstrumentLookup) (today : Date) (policy : OverlayTenorPolicy)

/-- The fields that the bootstraps share. -/
def bootstrapConfig (overlayType : OverlayType) (lookup : InstrumentLookup) (expiry : Date) (row : SelectedRow) :
    OverlayConfig where
  overlayType := overlayType
  entryDate := today
  cycle := 1
  lotSize := resolveLotSize lookup row.instrumentKey
  expiry := expiry.isoformat
  expiryType := policy.expiryType
  dteAtEntry := today.daysBetween expiry

/-- The side of a put. -/
def OverlayConfig.withPut (cfg : OverlayConfig) (row : SelectedRow) : OverlayConfig :=
  { cfg with
    putStrike := row.strike
    putInstrumentKey := row.instrumentKey
    putPrice := row.price
    putSpreadPct := row.gateSpread
    putOi := row.oi }

/-- The side of a call. -/
def OverlayConfig.withCall (cfg : OverlayConfig) (row : SelectedRow) : OverlayConfig :=
  { cfg with
    callStrike := row.strike
    callInstrumentKey := row.instrumentKey
    callPrice := row.price
    callSpreadPct := row.gateSpread
    callOi := row.oi }

/-- `auto_pp_bootstrap`. -/
def autoPpBootstrap (select : Date → Option SelectedRow) : Option OverlayConfig := do
  let lookup ← bod
  let expiry ← resolveOverlayExpiry lookup today policy
  let put ← select expiry
  some ((bootstrapConfig today policy .pp lookup expiry put).withPut put)

/-- `auto_cc_bootstrap`. -/
def autoCcBootstrap (select : Date → Option SelectedRow) : Option OverlayConfig := do
  let lookup ← bod
  let expiry ← resolveOverlayExpiry lookup today policy
  let call ← select expiry
  some ((bootstrapConfig today policy .cc lookup expiry call).withCall call)

/-- `auto_collar_bootstrap`; the lot is that of the call. -/
def autoCollarBootstrap (select : Date → Option (SelectedRow × SelectedRow)) : Option OverlayConfig := do
  let lookup ← bod
  let expiry ← resolveOverlayExpiry lookup today policy
  let (call, put) ← select expiry
  some (((bootstrapConfig today policy .collar lookup expiry call).withPut put).withCall call)

end Bootstrap

/-! ### What is open -/

/-- `OpenPPPositionUnresolvable`. -/
inductive OpenPPPositionUnresolvable where
  /-- `paper_trades` query failed. -/
  | queryFailed
  /-- Open rows exist but none resolved a DTE. -/
  | noneResolved (openRows : ℕ) (unresolvedKeys : List String)
  deriving DecidableEq

/-- `_PP_EXPIRY_RE`, `NSE_FO\|NIFTY(\d{2}[A-Za-z]{3}\d{4})(PE|CE)`. -/
def ppExpiryText (instrumentKey : String) : Option (ℕ × List Char × ℕ) :=
  searchFrom (fun s => do
    let s ← stripPrefixCI "NSE_FO|NIFTY".toList s
    let (day, month, year, rest) ← takeDayMonthYear s
    let _ ← optionSuffix rest
    some (day, month, year)) instrumentKey.toList

/-- The expiry of an open row: the one the key spells, else the one in the BOD file. -/
def ppExpiry (bod : Option InstrumentLookup) (instrumentKey : String) : Option Date :=
  match ppExpiryText instrumentKey with
  | some (day, month, year) => dateOfParts day month year
  | none => (bod.bind (·.getByKey instrumentKey)).bind (·.expiry)

/-- The open rows of a leg that is held long. -/
def openLongKeys (T : PaperTrades) (strategyName legRole : String) : List String :=
  (Grouping.keys PaperTrade.instrumentKey ((T.rows.map (·.trade)).filter fun t =>
    t.strategyName = strategyName && t.legRole = legRole)).filter fun key => 0 < T.netQty strategyName (legRole, key)

/-- `_open_pp_dte`; `none` only if nothing is open. -/
def openPpDte (T : PaperTrades) (bod : Option InstrumentLookup) (queryFails : Bool) (today : Date)
    (strategyName : String) : Except OpenPPPositionUnresolvable (Option ℤ) :=
  let rows := openLongKeys T strategyName "overlay_pp"
  if queryFails then .error .queryFailed
  else if rows = [] then .ok none
  else
    match (rows.filterMap fun key => (ppExpiry bod key).map (today.daysBetween ·)).min? with
    | some dte => .ok (some dte)
    | none => .error (.noneResolved rows.length (rows.filter fun key => (ppExpiry bod key).isNone))

/-- The roles of a short call, as the query groups them. -/
def shortCallRoles : List String := ["overlay_cc", "overlay_collar_call"]

/-- `_query_open_call_role`. A query that fails finds nothing. -/
def queryOpenCallRole (T : PaperTrades) (callInstrumentKey : String) (strategyNames : List String)
    (queryFails : Bool) : Option String :=
  if queryFails then none
  else shortCallRoles.find? fun role => (strategyNames.map fun s => T.netQty s (role, callInstrumentKey)).sum < 0

/-- `_has_open_overlay_leg`. -/
def hasOpenOverlayLeg (T : PaperTrades) (lookup : Option InstrumentLookup) (legRole strategyName : String) : Bool :=
  (T.getPositions lookup strategyName).any fun p => p.legRole = legRole

/-! ### The trades -/

/-- How the numbers of a note are printed. -/
structure EntryText where
  /-- `f"{strike:.0f}"`. -/
  strike : ℚ → String
  /-- `f"{spread_pct}"`. -/
  spreadPct : Option ℚ → String
  /-- `f"{oi:,}"`. -/
  oi : ℤ → String

section Trades

variable (text : EntryText) (cfg : OverlayConfig) (strategyName : String)

/-- `cycle_tag`. -/
def cycleTag : String :=
  "Cycle " ++ toString cfg.cycle ++ ". Expiry=" ++ cfg.expiry ++ " (" ++ cfg.expiryType ++ ", DTE=" ++
    toString cfg.dteAtEntry ++ ")."

/-- The note of a leg. -/
def legNote (leg : String) (strike : ℚ) (spreadPct : Option ℚ) (oi : ℤ) : String :=
  leg ++ ": strike=" ++ text.strike strike ++ ", spread=" ++ text.spreadPct spreadPct ++ "%, OI=" ++ text.oi oi ++ ". " ++
    cycleTag cfg

/-- The put that is bought. -/
def putTrade (legRole leg : String) : Option PaperTrade :=
  PaperTrade.validate strategyName legRole cfg.putInstrumentKey cfg.entryDate .buy cfg.lotSize cfg.putPrice
    (legNote text cfg leg cfg.putStrike cfg.putSpreadPct cfg.putOi) none .open

/-- The call that is sold. -/
def callTrade (legRole leg : String) : Option PaperTrade :=
  PaperTrade.validate strategyName legRole cfg.callInstrumentKey cfg.entryDate .sell cfg.lotSize cfg.callPrice
    (legNote text cfg leg cfg.callStrike cfg.callSpreadPct cfg.callOi) none .open

/-- The warning about a leg that is skipped. -/
def skippedWarning (legRole openRole serves : String) : String :=
  "  ⚠  SKIPPED: " ++ legRole ++ " — " ++ openRole ++ " already open on " ++ cfg.callInstrumentKey ++ ". " ++ serves

/-- `build_overlay_trades`: the trades and the warnings; `none` if a trade does not validate. -/
def buildOverlayTrades (existingCallRole : Option String) : Option (List PaperTrade × List String) :=
  match cfg.overlayType with
  | .pp => do
    let put ← putTrade text cfg strategyName "overlay_pp" "Overlay PP"
    some ([put], [])
  | .cc =>
    if existingCallRole = some "overlay_collar_call" then
      some ([], [skippedWarning cfg "overlay_cc" "overlay_collar_call" "Collar call serves as CC."])
    else do
      let call ← callTrade text cfg strategyName "overlay_cc" "Overlay CC"
      some ([call], [])
  | .collar => do
    let put ← putTrade text cfg strategyName "overlay_collar_put" "Collar put"
    -- the covered call serves as the call of the collar
    if existingCallRole = some "overlay_cc" then
      some ([put], [skippedWarning cfg "overlay_collar_call" "overlay_cc" "Existing CC serves as collar call."])
    else do
      let call ← callTrade text cfg strategyName "overlay_collar_call" "Collar call"
      some ([put, call], [])

end Trades

/-! ### A run -/

/-- The arguments of a run and what it reads besides the ledger. -/
structure EntryRun where
  /-- `--auto-cc`. -/
  autoCc : Bool := false
  /-- `--auto-pp`. -/
  autoPp : Bool := false
  /-- `--auto-collar`. -/
  autoCollar : Bool := false
  /-- `--dry-run`. -/
  dryRun : Bool := false
  /-- The BOD file, if it loads. -/
  bod : Option InstrumentLookup := none
  /-- The BOD file of the store. -/
  storeLookup : Option InstrumentLookup := none
  /-- The put that `auto_pp_bootstrap` selects. -/
  selectPut : Date → Option SelectedRow := fun _ => none
  /-- The call that `auto_cc_bootstrap` selects. -/
  selectCall : Date → Option SelectedRow := fun _ => none
  /-- The call and the put that `auto_collar_bootstrap` selects. -/
  selectPair : Date → Option (SelectedRow × SelectedRow) := fun _ => none
  /-- The file of `--config`, if it loads. -/
  file : Option OverlayConfig := none
  /-- The query of `_open_pp_dte` fails. -/
  openQueryFails : Bool := false
  /-- The query of `_query_open_call_role` fails. -/
  roleQueryFails : Bool := false
  /-- The store fails to write. -/
  recordFails : Bool := false
  /-- How numbers are printed. -/
  text : EntryText

/-- Why a run writes nothing. -/
inductive EntryStop where
  /-- `parser.error`. -/
  | usage
  /-- A put is open and its DTE could not be resolved. -/
  | unresolvable (e : OpenPPPositionUnresolvable)
  /-- A put is open at this DTE. -/
  | freshPositionOpen (dte : ℤ)
  /-- There is no config. -/
  | noConfig
  /-- A covered call is open on the spot track. -/
  | spotCallOpen
  /-- A trade does not validate. -/
  | invalidTrade
  /-- No trades to record. -/
  | noTrades
  /-- Collar legs not on the resolved expiry. -/
  | wrongExpiry
  /-- One leg of a collar is missing. -/
  | partialCollar
  /-- `--dry-run`. -/
  | dryRun
  /-- The primary leg is open. -/
  | alreadyOpen
  /-- The store failed. -/
  | recordFailed
  deriving DecidableEq

/-- A stop, if there is reason for it. -/
def stopIf (reason : Prop) [Decidable reason] (stop : EntryStop) : Except EntryStop Unit :=
  if reason then .error stop else .ok ()

/-- A value that may be missing. -/
def found {α : Type} (x : Option α) (stop : EntryStop) : Except EntryStop α := x.elim (.error stop) .ok

namespace EntryRun

variable (expiryType : ExpiryType) (today : Date) (run : EntryRun) (T : PaperTrades)

/-- `ledger`. -/
def ledger : String :=
  if run.autoPp then expiryType.policy.ppStrategyName
  else if run.autoCollar then expiryType.policy.collarStrategyName
  else expiryType.policy.ccStrategyName

/-- The gate of `--auto-pp`. -/
def ppGate : Except EntryStop Unit :=
  match openPpDte T run.bod run.openQueryFails today (run.ledger expiryType) with
  | .error e => .error (.unresolvable e)
  | .ok none => .ok ()
  | .ok (some dte) => if expiryType.policy.rollDte < dte then .error (.freshPositionOpen dte) else .ok ()

/-- `cfg`, as the arguments ask for it. -/
def config : Except EntryStop OverlayConfig :=
  if run.autoCc then found (autoCcBootstrap run.bod today expiryType.policy run.selectCall) .noConfig
  else if run.autoPp then do
    run.ppGate expiryType today T
    found (autoPpBootstrap run.bod today expiryType.policy run.selectPut) .noConfig
  else if run.autoCollar then found (autoCollarBootstrap run.bod today expiryType.policy run.selectPair) .noConfig
  else if expiryType = .yearly then .error .usage
  else found run.file .noConfig

/-- `dedup_ledgers`. -/
def dedupLedgers : List String :=
  if run.ledger expiryType ∈ ["paper_nifty_overlay_yearly_cc", "paper_nifty_overlay_yearly_collar"] then
    ["paper_nifty_overlay_yearly_cc", "paper_nifty_overlay_yearly_collar"]
  else [run.ledger expiryType]

/-- `existing_call_role`. -/
def existingCallRole (cfg : OverlayConfig) : Option String :=
  if cfg.overlayType ≠ .pp ∧ cfg.callInstrumentKey ≠ "" then
    queryOpenCallRole T cfg.callInstrumentKey (run.dedupLedgers expiryType) run.roleQueryFails
  else none

/-- The guard of a monthly covered call. -/
def spotCallOpen (cfg : OverlayConfig) : Bool :=
  cfg.overlayType = .cc && run.ledger expiryType = "paper_nifty_overlay" &&
    hasOpenOverlayLeg T run.storeLookup "overlay_cc" "paper_nifty_spot"

/-- `already_bootstrapped`; a protective put is entered next to the one that runs out. -/
def alreadyBootstrapped (cfg : OverlayConfig) : Bool :=
  !run.autoPp && hasOpenOverlayLeg T run.storeLookup cfg.overlayType.primaryLegRole (run.ledger expiryType)

/-- `_validate_collar_pairs`. -/
def validateCollarPairs (cfg : OverlayConfig) (existing : Option String) (trades : List PaperTrade) :
    Except EntryStop Unit := do
  let checkExpiry := run.autoCollar && expiryType = .yearly
  let expiryOf (key : String) : Option String :=
    ((run.bod.bind (·.getByKey key)).bind (·.expiry)).map Date.isoformat
  let hasLeg (role : String) : Bool := trades.any fun t => t.legRole = role
  stopIf (checkExpiry && trades.any fun t => expiryOf t.instrumentKey ≠ some cfg.expiry) .wrongExpiry
  stopIf (hasLeg "overlay_collar_put" ≠ hasLeg "overlay_collar_call" ∧
    ¬(hasLeg "overlay_collar_put" ∧ existing = some "overlay_cc")) .partialCollar

/-- The trades that `main` has to record. -/
def plan : Except EntryStop (List PaperTrade) := do
  let cfg ← run.config expiryType today T
  stopIf (run.spotCallOpen expiryType T cfg) .spotCallOpen
  let existing := run.existingCallRole expiryType T cfg
  let (trades, _) ← found (buildOverlayTrades run.text cfg (run.ledger expiryType) existing) .invalidTrade
  stopIf (trades = []) .noTrades
  (if cfg.overlayType = .collar then run.validateCollarPairs expiryType cfg existing trades else .ok ())
  stopIf run.dryRun .dryRun
  stopIf (run.alreadyBootstrapped expiryType T cfg) .alreadyOpen
  .ok trades

/-- `main`: the pair of a collar in one batch, another trade by itself. -/
def main : Except EntryStop (List PaperTrade) × PaperTrades :=
  match run.plan expiryType today T with
  | .error stop => (.error stop, T)
  | .ok trades => if run.recordFails then (.error .recordFailed, T) else (.ok trades, (T.recordTrades trades).1)

end EntryRun

/-! ### Closing -/

/-- An action on a put or a covered call, with what it reads besides the ledger. -/
structure LegAction where
  /-- `legs_to_close`. -/
  legsToClose : List LegClose
  /-- The positions of the store that the caller passes. -/
  passed : PaperPosition → Bool := fun _ => true
  /-- The mark in the metadata, if it is a number. -/
  mark : Option ℚ := none

/-- Whether a position is open on the side that a trade closes. -/
def closedBy (action : TradeAction) (netQty : ℤ) : Bool :=
  match action with
  | .buy => netQty < 0
  | .sell => 0 < netQty

namespace LegAction

variable (a : LegAction) (lookup : Option InstrumentLookup) (strategyName : String)

/-- `closed_pos`. -/
def closedPos (action : TradeAction) (T : PaperTrades) : Option PaperPosition :=
  ((T.getPositions lookup strategyName).filter a.passed).find? fun p =>
    a.legsToClose.any (CollarOverlay.legCloseMatches p) && closedBy action p.netQty

/-- `apply_action`, of the strategy whose closing trades are of this side. -/
def applyAction (action : TradeAction) (today : Date) (T : PaperTrades) : PaperTrades :=
  match a.closedPos lookup strategyName action T with
  | some pos => ReEntry.recordCloseTrade today action a.mark pos T
  | none => T

/-- `PPOverlayV1.apply_action`. -/
def applyPp (today : Date) (T : PaperTrades) : PaperTrades := a.applyAction lookup strategyName .sell today T

/-- `CCOverlayV1.apply_action`. -/
def applyCc (today : Date) (T : PaperTrades) : PaperTrades := a.applyAction lookup strategyName .buy today T

end LegAction

/-! ### What stops a run -/

section Gate

variable {expiryType : ExpiryType} {today : Date} {run : EntryRun} {T : PaperTrades}

theorem mem_openLongKeys {s role key : String} :
    key ∈ openLongKeys T s role ↔ 0 < T.netQty s (role, key) := by
  rw [openLongKeys, List.mem_filter, decide_eq_true_iff]
  refine and_iff_right_of_imp fun hopen => ?_
  by_contra hkey
  have hnone : (T.rows.map (·.trade)).filter (PaperTrades.inPair s (role, key)) = [] := by
    refine List.filter_eq_nil_iff.mpr fun t ht hpair => hkey (Grouping.mem_keys.mpr ⟨t, ?_, ?_⟩)
    · simp only [PaperTrades.inPair, PaperTrade.legInstrument, Bool.and_eq_true, decide_eq_true_iff,
        Prod.mk.injEq] at hpair
      exact List.mem_filter.mpr ⟨ht, by simp [hpair]⟩
    · simp only [PaperTrades.inPair, PaperTrade.legInstrument, Bool.and_eq_true, decide_eq_true_iff,
        Prod.mk.injEq] at hpair
      exact hpair.2.2
  rw [PaperTrades.netQty, hnone] at hopen
  exact absurd hopen (by decide)

/-- **The gate**: a run goes on if nothing is open, or if an open put that can be resolved is
about to run out. -/
theorem ppGate_ok_iff :
    run.ppGate expiryType today T = .ok () ↔
      run.openQueryFails = false ∧ (openLongKeys T (run.ledger expiryType) "overlay_pp" = [] ∨
        ∃ key ∈ openLongKeys T (run.ledger expiryType) "overlay_pp", ∃ expiry ∈ ppExpiry run.bod key,
          today.daysBetween expiry ≤ expiryType.policy.rollDte) := by
  unfold EntryRun.ppGate openPpDte
  cases hquery : run.openQueryFails with
  | true => simp
  | false =>
    by_cases hflat : openLongKeys T (run.ledger expiryType) "overlay_pp" = []
    · simp [hflat]
    · have hmem : ∀ dte, dte ∈ ((openLongKeys T (run.ledger expiryType) "overlay_pp").filterMap fun key =>
          (ppExpiry run.bod key).map (today.daysBetween ·)) ↔
          ∃ key ∈ openLongKeys T (run.ledger expiryType) "overlay_pp", ∃ expiry ∈ ppExpiry run.bod key,
            today.daysBetween expiry = dte := by
        intro dte
        rw [List.mem_filterMap]
        exact exists_congr fun key => and_congr_right fun _ => Option.map_eq_some_iff
      simp only [hflat, Bool.false_eq_true, if_false, false_or, true_and]
      cases hmin : ((openLongKeys T (run.ledger expiryType) "overlay_pp").filterMap fun key =>
          (ppExpiry run.bod key).map (today.daysBetween ·)).min? with
      | none =>
        -- no row resolves
        rw [List.min?_eq_none_iff] at hmin
        refine iff_of_false (by simp) ?_
        rintro ⟨key, hkey, expiry, hexpiry, -⟩
        have hdte := (hmem _).mpr ⟨key, hkey, expiry, hexpiry, rfl⟩
        rw [hmin] at hdte
        exact absurd hdte List.not_mem_nil
      | some dte =>
        obtain ⟨hdte, hleast⟩ := List.min?_eq_some_iff.mp hmin
        obtain ⟨key, hkey, expiry, hexpiry, rfl⟩ := (hmem dte).mp hdte
        by_cases hfresh : expiryType.policy.rollDte < today.daysBetween expiry
        · refine iff_of_false (by simp [hfresh]) ?_
          rintro ⟨key', hkey', expiry', hexpiry', hroll⟩
          have hle := hleast _ ((hmem _).mpr ⟨key', hkey', expiry', hexpiry', rfl⟩)
          omega
        · exact iff_of_true (by simp [hfresh]) ⟨key, hkey, expiry, hexpiry, not_lt.mp hfresh⟩

end Gate

/-! ### What a run writes -/

section Plan

variable {expiryType : ExpiryType} {today : Date} {run : EntryRun} {T : PaperTrades}

theorem bind_ok_iff {α β : Type} {x : Except EntryStop α} {f : α → Except EntryStop β} {b : β} :
    (x >>= f) = .ok b ↔ ∃ a, x = .ok a ∧ f a = .ok b := by
  cases x with
  | error stop => simp [bind, Except.bind]
  | ok a => simp [bind, Except.bind]

theorem stopIf_ok_iff {reason : Prop} [Decidable reason] {stop : EntryStop} :
    stopIf reason stop = .ok () ↔ ¬reason := by
  unfold stopIf
  split <;> simp [*]

theorem found_ok_iff {α : Type} {x : Option α} {stop : EntryStop} {a : α} :
    found x stop = .ok a ↔ x = some a := by
  cases x <;> simp [found]

/-- A run that goes on to record what its config asks for. -/
structure Records (expiryType : ExpiryType) (today : Date) (run : EntryRun) (T : PaperTrades) (cfg : OverlayConfig) :
    Prop where
  /-- There is a config. -/
  config : run.config expiryType today T = .ok cfg
  /-- No covered call is open on the spot track. -/
  spot : run.spotCallOpen expiryType T cfg = false
  /-- It writes. -/
  writes : run.dryRun = false
  /-- The primary leg is not open. -/
  primary : run.alreadyBootstrapped expiryType T cfg = false

/-- What there is to record has been built for the config, next to what the query found. -/
theorem plan_ok {trades : List PaperTrade} (h : run.plan expiryType today T = .ok trades) :
    ∃ cfg, Records expiryType today run T cfg ∧ ∃ warnings,
      buildOverlayTrades run.text cfg (run.ledger expiryType) (run.existingCallRole expiryType T cfg) =
        some (trades, warnings) := by
  unfold EntryRun.plan at h
  obtain ⟨cfg, hcfg, h⟩ := bind_ok_iff.mp h
  obtain ⟨_, hspot, h⟩ := bind_ok_iff.mp h
  obtain ⟨⟨built, warnings⟩, hbuilt, h⟩ := bind_ok_iff.mp h
  obtain ⟨-, -, h⟩ := bind_ok_iff.mp h
  obtain ⟨-, -, h⟩ := bind_ok_iff.mp h
  obtain ⟨_, hdry, h⟩ := bind_ok_iff.mp h
  obtain ⟨_, hprimary, h⟩ := bind_ok_iff.mp h
  obtain rfl := Except.ok.inj h
  exact ⟨cfg, ⟨hcfg, Bool.eq_false_iff.mpr (stopIf_ok_iff.mp hspot),
    Bool.eq_false_iff.mpr (stopIf_ok_iff.mp hdry),
    Bool.eq_false_iff.mpr (stopIf_ok_iff.mp hprimary)⟩, warnings, found_ok_iff.mp hbuilt⟩

/-- A protective put is recorded by itself, under its own role. -/
theorem plan_autoPp (hcc : run.autoCc = false) (hpp : run.autoPp = true) {trades : List PaperTrade} :
    run.plan expiryType today T = .ok trades ↔
      run.ppGate expiryType today T = .ok () ∧ run.dryRun = false ∧
        ∃ cfg ∈ autoPpBootstrap run.bod today expiryType.policy run.selectPut,
          ∃ put ∈ putTrade run.text cfg expiryType.policy.ppStrategyName "overlay_pp" "Overlay PP",
            trades = [put] := by
  have hledger : run.ledger expiryType = expiryType.policy.ppStrategyName := by simp [EntryRun.ledger, hpp]
  have hconfig : run.config expiryType today T = (do
      run.ppGate expiryType today T
      found (autoPpBootstrap run.bod today expiryType.policy run.selectPut) .noConfig) := by
    simp [EntryRun.config, hcc, hpp]
  have htype : ∀ cfg ∈ autoPpBootstrap run.bod today expiryType.policy run.selectPut,
      cfg.overlayType = .pp := by
    intro cfg hcfg
    simp only [autoPpBootstrap, Option.mem_def, Option.bind_eq_bind, Option.bind_eq_some_iff,
      Option.some.injEq] at hcfg
    obtain ⟨lookup, -, expiry, -, put, -, rfl⟩ := hcfg
    rfl
  constructor
  · intro h
    obtain ⟨cfg, hrecords, warnings, hbuilt⟩ := plan_ok h
    have hcfg := hrecords.config
    rw [hconfig] at hcfg
    obtain ⟨_, hgate, hfound⟩ := bind_ok_iff.mp hcfg
    have hmem : cfg ∈ autoPpBootstrap run.bod today expiryType.policy run.selectPut := found_ok_iff.mp hfound
    rw [buildOverlayTrades, htype cfg hmem, hledger] at hbuilt
    obtain ⟨put, hput, hsome⟩ := Option.bind_eq_some_iff.mp hbuilt
    obtain ⟨rfl, -⟩ := Prod.mk.inj (Option.some.inj hsome)
    exact ⟨hgate, hrecords.writes, cfg, hmem, put, hput, rfl⟩
  · rintro ⟨hgate, hdry, cfg, hcfg, put, hput, rfl⟩
    have hbuilt : buildOverlayTrades run.text cfg (run.ledger expiryType)
      (run.existingCallRole expiryType T cfg) =
        some ([put], []) := by
      rw [buildOverlayTrades, htype cfg hcfg, hledger]
      exact Option.bind_eq_some_iff.mpr ⟨put, hput, rfl⟩
    unfold EntryRun.plan
    refine bind_ok_iff.mpr ⟨cfg, ?_, ?_⟩
    · rw [hconfig]
      exact bind_ok_iff.mpr ⟨(), hgate, found_ok_iff.mpr hcfg⟩
    · simp [stopIf, found, EntryRun.spotCallOpen, EntryRun.alreadyBootstrapped, htype cfg hcfg,
        hbuilt, hdry, hpp, bind,
        Except.bind]

end Plan

/-! ### What a close does -/

/-- **A close** takes its position to zero and leaves all others, or does nothing. -/
theorem netQty_applyAction (a : LegAction) (lookup : Option InstrumentLookup) (s : String)
    (action : TradeAction)
    (today : Date) (T : PaperTrades) :
    a.applyAction lookup s action today T = T ∨
      ∃ p ∈ T.getPositions lookup s, closedBy action p.netQty = true ∧ ∀ s' k,
        (a.applyAction lookup s action today T).netQty s' k = if s' = s ∧ k = p.pair then 0
          else T.netQty s' k := by
  unfold LegAction.applyAction
  cases hpos : a.closedPos lookup s action T with
  | none => exact Or.inl rfl
  | some p =>
    have hp : p ∈ T.getPositions lookup s := (List.mem_filter.mp (List.mem_of_find?_eq_some hpos)).1
    have hside : closedBy action p.netQty = true := by
      have hfound := List.find?_some hpos
      simp only [Bool.and_eq_true] at hfound
      exact hfound.2
    obtain ⟨t, ht, hkey, hqty⟩ : ∃ t, CollarOverlay.buildCloseTrade today p action a.mark = some t ∧
        t.uniqueKey = ⟨s, p.legRole, p.instrumentKey, today, action⟩ ∧ t.signedQty = -p.netQty := by
      cases action with
      | buy =>
        exact @CollarOverlay.buildCloseTrade_of_mem lookup s T p .buy hp (of_decide_eq_true hside) today a.mark
      | sell =>
        exact @CollarOverlay.buildCloseTrade_of_mem lookup s T p .sell hp (of_decide_eq_true hside) today a.mark
    have hclose : ReEntry.recordCloseTrade today action a.mark p T = T.recordClose t := by
      rw [ReEntry.recordCloseTrade, ht]
    simp only [hclose]
    cases hfree : T.hasKey t.uniqueKey with
    | true => exact Or.inl (PaperTrades.recordClose_duplicate hfree)
    | false =>
      refine Or.inr ⟨p, hp, hside, fun s' k => ?_⟩
      have hpair : t.legInstrument = p.pair :=
        Prod.ext (congrArg PaperTrade.UniqueKey.legRole hkey) (congrArg PaperTrade.UniqueKey.instrumentKey hkey)
      have hname : t.strategyName = s := congrArg PaperTrade.UniqueKey.strategyName hkey
      rw [PaperTrades.netQty_recordClose hfree]
      by_cases hin : s' = s ∧ k = p.pair
      · obtain ⟨rfl, rfl⟩ := hin
        have hmine : PaperTrades.inPair s' p.pair t = true := by simp [PaperTrades.inPair, hname, hpair]
        rw [if_pos hmine, if_pos ⟨rfl, rfl⟩, hqty, PaperTrades.netQty_of_mem hp, add_neg_cancel]
      · have hother : PaperTrades.inPair s' k t = false := by
          rw [PaperTrades.inPair, hname, hpair, Bool.and_eq_false_iff, decide_eq_false_iff_not,
            decide_eq_false_iff_not]
          by_cases hs : s = s'
          · exact Or.inr fun h => hin ⟨hs.symm, h.symm⟩
          · exact Or.inl hs
        rw [hother, if_neg Bool.false_ne_true, if_neg hin, add_zero]

end NiftyShield.ThreeTrack.OverlayEntry
