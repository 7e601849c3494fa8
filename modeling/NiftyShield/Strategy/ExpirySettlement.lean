import NiftyShield.Lib.Dict
import NiftyShield.Lib.Raising
import NiftyShield.Paper.LegRows
import NiftyShield.Strategy.PriceUtils

/-!
# Settling expired option legs

`settle_expired_legs` (`src/strategy/expiry_settlement.py`) closes the option legs of the
paper ledger whose expiry has passed, at intrinsic value against the index close of the
expiry date. A leg whose contract or close is not to be had is left open and reported. The
closes are fetched once an expiry, and each leg is written and marked on its own.

## What is proved

* `buildSettlementTrade_spec`: the closing trade is of the leg and takes it to zero;
* `mem_entries_iff`, `nodup_entries`: every leg that is due is looked at, and each once;
* `mem_legs_iff`: which of them are handed on to be settled.

## Honest scope

Strikes and closes are finite. A candle is what the reader makes of it. The note of the
closing trade is kept without its figures, and log lines are left out. The broker's answer is
a function of the date, for a run and for the second.
-/

namespace NiftyShield.Strategy.ExpirySettlement

open NiftyShield.Instruments NiftyShield.Lib NiftyShield.Lib.Raising NiftyShield.Paper
open NiftyShield.Paper.PaperTrades

/-! ### Contracts, legs and reports -/

/-- `OptionType`, `Literal["CE", "PE"]`. -/
inductive ContractType where
  /-- A call. -/
  | ce
  /-- A put. -/
  | pe
  deriving DecidableEq

/-- `ContractSpec`. -/
structure ContractSpec where
  /-- `strike`. -/
  strike : ℚ
  /-- `option_type`. -/
  optionType : ContractType
  /-- `expiry`. -/
  expiry : Date
  deriving DecidableEq

/-- `ExpiredLeg`. -/
structure ExpiredLeg where
  /-- `strategy_name`. -/
  strategyName : String
  /-- `leg_role`. -/
  legRole : String
  /-- `instrument_key`. -/
  instrumentKey : String
  /-- `net_qty`. -/
  netQty : ℤ
  /-- `contract`. -/
  contract : ContractSpec
  deriving DecidableEq

/-- `SettlementFailure`. -/
structure SettlementFailure where
  /-- `strategy_name`. -/
  strategyName : String
  /-- `leg_role`. -/
  legRole : String
  /-- `instrument_key`. -/
  instrumentKey : String
  /-- `reason`. -/
  reason : String
  deriving DecidableEq

/-- `Settlement`. -/
structure Settlement where
  /-- `leg`. -/
  leg : ExpiredLeg
  /-- `index_close`. -/
  indexClose : ℚ
  /-- `trade`. -/
  trade : PaperTrade
  deriving DecidableEq

/-- `SettlementReport`. -/
structure SettlementReport where
  /-- `settled`. -/
  settled : List Settlement := []
  /-- `failures`. -/
  failures : List SettlementFailure := []
  deriving DecidableEq

/-- The leg in the ledger. -/
def ExpiredLeg.id (leg : ExpiredLeg) : LegId := (leg.strategyName, leg.legRole, leg.instrumentKey)

/-- The leg in the ledger. -/
def SettlementFailure.id (f : SettlementFailure) : LegId := (f.strategyName, f.legRole, f.instrumentKey)

/-- The leg in the ledger. -/
def Settlement.id (s : Settlement) : LegId := s.leg.id

/-! ### Pure computation -/

/-- `SETTLEMENT_PRICE_FLOOR`. -/
def settlementPriceFloor : ℚ := 5 / 100

/-- `intrinsic_value`. -/
def intrinsicValue (optionType : ContractType) (strike indexClose : ℚ) : ℚ :=
  match optionType with
  | .pe => max 0 (strike - indexClose)
  | .ce => max 0 (indexClose - strike)

/-- `build_settlement_trade`; `none` is its `ValueError`. -/
def buildSettlementTrade (leg : ExpiredLeg) (indexClose : ℚ) : Option PaperTrade :=
  if leg.netQty = 0 then none
  else
    PaperTrade.validate leg.strategyName leg.legRole leg.instrumentKey leg.contract.expiry
      (if 0 < leg.netQty then .sell else .buy) |leg.netQty|
      (max (intrinsicValue leg.contract.optionType leg.contract.strike indexClose) settlementPriceFloor)
      "expiry_settlement (BUG-060)" none .open

/-! ### The index close -/

/-- A row of the broker's answer. -/
inductive Candle where
  /-- A list: `str(c[0])`, and `Decimal(str(c[4]))` where that is a finite number. -/
  | row (stamp : String) (close : Option ℚ)
  /-- `c[0]` raises `IndexError` or `TypeError`. -/
  | bare
  /-- `c[0]` raises `KeyError`. -/
  | keyed

/-- What the broker raises. -/
inductive BrokerError where
  /-- An error that `fetch_index_close` catches, e.g. `DataFetchError`. -/
  | caught
  /-- Any other. -/
  | other

/-- What a run raises. -/
inductive SettlementError where
  /-- An error of the broker. -/
  | broker
  /-- `KeyError`. -/
  | key
  /-- `ValueError`. -/
  | value
  deriving DecidableEq

/-- The close of the first candle of the date, if it is positive. -/
def closeOf (on : Date) : List Candle → Except SettlementError (Option ℚ)
  | [] => .ok none
  | .row stamp close :: candles =>
    if stamp.toList.take 10 = on.isoformat.toList then .ok (close.filter fun c => 0 < c) else closeOf on candles
  | .bare :: _ => .ok none
  | .keyed :: _ => .error .key

/-- `fetch_index_close`. -/
def fetchIndexClose (broker : Date → Except BrokerError (List Candle)) (on : Date) :
    Except SettlementError (Option ℚ) :=
  match broker on with
  | .ok candles => closeOf on candles
  | .error .caught => .ok none
  | .error .other => .error .broker

/-! ### Which legs have expired -/

/-- What a run is given besides the ledger. -/
structure SettlementEnv where
  /-- `lookup`. -/
  lookup : InstrumentLookup
  /-- The BOD file of the store. -/
  storeLookup : Option InstrumentLookup := none
  /-- `today`. -/
  today : Date
  /-- `overrides`. -/
  overrides : Dict String ContractSpec := .empty
  /-- `broker.get_historical_candles` for the week up to a date. -/
  broker : Date → Except BrokerError (List Candle)

/-- The type of an option row. -/
def contractType (inst : Instrument) : Option ContractType :=
  match (inst.instrumentType.getD "").toUpper with
  | "CE" => some .ce
  | "PE" => some .pe
  | _ => none

/-- `resolve_contract`. -/
def resolveContract (instrumentKey : String) (lookup : InstrumentLookup) : Option ContractSpec := do
  let inst ← lookup.getByKey instrumentKey
  let optionType ← contractType inst
  if inst.underlyingSymbol.toUpper = "NIFTY" then
    let expiry ← resolveOptionExpiry instrumentKey (some lookup)
    let strike ← inst.strikePrice
    some ⟨strike, optionType, expiry⟩
  else none

/-- `_is_bod_non_option`. -/
def isBodNonOption (instrumentKey : String) (lookup : InstrumentLookup) : Bool :=
  (lookup.getByKey instrumentKey).any fun inst => (contractType inst).isNone

/-- `overrides.get(key) or resolve_contract(key, lookup)`. -/
def SettlementEnv.contractOf (env : SettlementEnv) (instrumentKey : String) : Option ContractSpec :=
  (env.overrides.get? instrumentKey).orElse fun _ => resolveContract instrumentKey env.lookup

/-- `_settleable_keys`. -/
def settleableKeys (T : PaperTrades) (strategyName : String) : List (String × String) :=
  ((T.getTrades strategyName).filter fun t => t.state.Live).map PaperTrade.legInstrument

/-- `key.startswith("NSE_FO|")`. -/
def isNseFo (instrumentKey : String) : Bool := "NSE_FO|".toList.isPrefixOf instrumentKey.toList

/-- One turn of the loop of `find_expired_legs`: nothing, a failure or an expired leg. -/
def SettlementEnv.examine (env : SettlementEnv) (T : PaperTrades) (strategy : String) (pos : PaperPosition) :
    Option (Except SettlementFailure ExpiredLeg) :=
  if isNseFo pos.instrumentKey = true ∧ (pos.legRole, pos.instrumentKey) ∈ settleableKeys T strategy then
    match env.contractOf pos.instrumentKey with
    | none =>
      if isBodNonOption pos.instrumentKey env.lookup then none
      else some (.error ⟨strategy, pos.legRole, pos.instrumentKey, "contract not resolvable"⟩)
    | some contract =>
      if contract.expiry < env.today then
        some (.ok ⟨strategy, pos.legRole, pos.instrumentKey, pos.netQty, contract⟩)
      else none
  else none

/-- What the loop finds. -/
def SettlementEnv.entries (env : SettlementEnv) (T : PaperTrades) : List (Except SettlementFailure ExpiredLeg) :=
  T.getStrategyNames.flatMap fun strategy =>
    (T.getPositions env.storeLookup strategy).filterMap (env.examine T strategy)

/-- `find_expired_legs`. -/
def findExpiredLegs (env : SettlementEnv) (T : PaperTrades) : List ExpiredLeg × List SettlementFailure :=
  (results (env.entries T), errors (env.entries T))

/-! ### The run -/

/-- What the loop over the legs works on. -/
structure SettlementRun where
  /-- The ledger. -/
  trades : PaperTrades
  /-- `closes`. -/
  closes : Dict Date (Option ℚ) := .empty
  /-- `report`. -/
  report : SettlementReport := {}

/-- A program of the loop. -/
abbrev SettlementProgram := EStateM SettlementError SettlementRun

/-- An outcome is reported. -/
def SettlementReport.add (report : SettlementReport) : Except SettlementFailure Settlement → SettlementReport
  | .ok s => { report with settled := report.settled ++ [s] }
  | .error f => { report with failures := report.failures ++ [f] }

/-- `_failure`, reported. -/
def SettlementRun.fail (run : SettlementRun) (leg : ExpiredLeg) (reason : String) : SettlementRun :=
  { run with report := run.report.add (.error ⟨leg.strategyName, leg.legRole, leg.instrumentKey, reason⟩) }

/-- The write of a leg's closing trade, and its report. -/
def SettlementRun.book (dryRun : Bool) (leg : ExpiredLeg) (close : ℚ) (trade : PaperTrade) (run : SettlementRun) :
    SettlementRun :=
  if dryRun then { run with report := run.report.add (.ok ⟨leg, close, trade⟩) }
  else
    let (trades, inserted) := run.trades.recordTrade trade
    if inserted then
      { run with
        trades := trades.markTradeClosed leg.strategyName leg.legRole leg.instrumentKey
        report := run.report.add (.ok ⟨leg, close, trade⟩) }
    else { run with trades := trades }.fail leg "closing trade blocked by duplicate guard"

/-- `closes[expiry]`, fetched if it is not there. -/
def SettlementEnv.closeFor (env : SettlementEnv) (expiry : Date) : SettlementProgram (Option ℚ) := do
  match ← reads fun run => run.closes.get? expiry with
  | some close => pure close
  | none =>
    match fetchIndexClose env.broker expiry with
    | .ok close => updates fun run => ({ run with closes := run.closes.set expiry close }, close)
    | .error e => throw e

/-- One turn of the loop of `settle_expired_legs`. -/
def SettlementEnv.settleLeg (env : SettlementEnv) (dryRun : Bool) (leg : ExpiredLeg) : SettlementProgram Unit := do
  match ← env.closeFor leg.contract.expiry with
  | none => updates fun run => (run.fail leg ("no NIFTY 50 close for " ++ leg.contract.expiry.isoformat), ())
  | some close => do
    let trade ← fromOption .value (buildSettlementTrade leg close)
    updates fun run => (run.book dryRun leg close trade, ())

/-- `settle_expired_legs`. -/
def settleExpiredLegs (env : SettlementEnv) (dryRun : Bool) : EStateM SettlementError PaperTrades SettlementReport :=
  fun T =>
    let (legs, failures) := findExpiredLegs env T
    match legs.forM (env.settleLeg dryRun) { trades := T, report := { failures := failures } } with
    | .ok _ run => .ok run.report run.trades
    | .error e run => .error e run.trades

/-! ### The closing trade -/

theorem settlementPriceFloor_pos : 0 < settlementPriceFloor := by
  unfold settlementPriceFloor
  norm_num

/-- What the closing trade of a leg can be built from. -/
structure ExpiredLeg.Closable (leg : ExpiredLeg) : Prop where
  /-- The strategy is one of the paper ledger. -/
  paperPrefix : hasPaperPrefix leg.strategyName = true
  /-- The role has a name. -/
  legRole_ne : leg.legRole ≠ ""
  /-- The instrument has a key. -/
  instrumentKey_ne : leg.instrumentKey ≠ ""
  /-- The leg is not flat. -/
  netQty_ne : leg.netQty ≠ 0

theorem ExpiredLeg.Closable.exists_trade {leg : ExpiredLeg} (h : leg.Closable) (close : ℚ) :
    ∃ trade, buildSettlementTrade leg close = some trade := by
  rw [buildSettlementTrade, if_neg h.netQty_ne]
  exact exists_validate_iff.mpr ⟨h.paperPrefix, h.legRole_ne, h.instrumentKey_ne, abs_pos.mpr h.netQty_ne,
    settlementPriceFloor_pos.trans_le (le_max_right _ _)⟩

/-- **The closing trade** is of the leg and takes it to zero. -/
theorem buildSettlementTrade_spec {leg : ExpiredLeg} {close : ℚ} {trade : PaperTrade}
    (h : buildSettlementTrade leg close = some trade) : trade.legId = leg.id ∧ trade.signedQty = -leg.netQty ∧
      trade.price = max (intrinsicValue leg.contract.optionType leg.contract.strike close) settlementPriceFloor ∧
      trade.state = .open := by
  unfold buildSettlementTrade at h
  split at h
  next => exact absurd h (by simp)
  next hnet =>
    unfold PaperTrade.validate at h
    split at h
    next =>
      obtain rfl := Option.some.inj h
      refine ⟨rfl, ?_, rfl, rfl⟩
      unfold PaperTrade.signedQty
      by_cases hlong : 0 < leg.netQty
      · simp only [if_pos hlong]
        rw [abs_of_pos hlong]
        omega
      · simp only [if_neg hlong]
        rw [abs_of_nonpos (not_lt.mp hlong)]
        omega
    next => exact absurd h (by simp)

/-! ### What is looked at -/

/-- The contract of a key expired before today, or is not known of a key that is not known
to be no option. -/
def SettlementEnv.Expired (env : SettlementEnv) (instrumentKey : String) : Prop :=
  match env.contractOf instrumentKey with
  | some contract => contract.expiry < env.today
  | none => isBodNonOption instrumentKey env.lookup = false

/-- A leg to be settled: an `NSE_FO` option leg that has expired, with an OPEN or DEFENDED
row, and not flat. -/
structure Due (env : SettlementEnv) (T : PaperTrades) (id : LegId) : Prop where
  /-- Its segment. -/
  segment : isNseFo id.2.2 = true
  /-- It has a row that is OPEN or DEFENDED. -/
  live : ∃ r ∈ T.legRows id, r.trade.state.Live
  /-- It is not flat. -/
  notFlat : T.netQty id.1 id.2 ≠ 0
  /-- It has expired. -/
  expired : env.Expired id.2.2

/-- The leg of an entry. -/
def entryId : Except SettlementFailure ExpiredLeg → LegId
  | .ok leg => leg.id
  | .error f => f.id

section Entries

variable {env : SettlementEnv} {T : PaperTrades} {s : String} {pos : PaperPosition}
  {e : Except SettlementFailure ExpiredLeg}

theorem mem_settleableKeys {k : String × String} :
    k ∈ settleableKeys T s ↔ ∃ r ∈ T.legRows (s, k), r.trade.state.Live := by
  unfold settleableKeys
  rw [List.mem_map]
  constructor
  · rintro ⟨t, ht, rfl⟩
    obtain ⟨hmem, hlive⟩ := List.mem_filter.mp ht
    obtain ⟨hrows, hs⟩ := List.mem_filter.mp ((T.getTrades_perm s).mem_iff.mp hmem)
    obtain ⟨r, hr, rfl⟩ := List.mem_map.mp hrows
    refine ⟨r, mem_legRows.mpr ⟨hr, ?_⟩, of_decide_eq_true hlive⟩
    rw [PaperTrade.legId, of_decide_eq_true hs]
  · rintro ⟨r, hr, hlive⟩
    obtain ⟨hrow, hid⟩ := mem_legRows.mp hr
    obtain ⟨hs, hk⟩ := Prod.mk.inj hid
    refine ⟨r.trade, List.mem_filter.mpr ⟨?_, decide_eq_true hlive⟩, hk⟩
    exact (T.getTrades_perm s).mem_iff.mpr
      (List.mem_filter.mpr ⟨List.mem_map_of_mem hrow, decide_eq_true hs⟩)

/-- What a turn of the loop looks at. -/
theorem examine_isSome_iff : (∃ e, env.examine T s pos = some e) ↔
    isNseFo pos.instrumentKey = true ∧ pos.pair ∈ settleableKeys T s ∧ env.Expired pos.instrumentKey := by
  unfold SettlementEnv.examine SettlementEnv.Expired PaperPosition.pair
  split
  next h =>
    rw [and_iff_right h.1, and_iff_right h.2]
    cases env.contractOf pos.instrumentKey with
    | none =>
      simp only
      split
      next hnon => exact iff_of_false (by simp) (by simp [hnon])
      next hnon => exact iff_of_true ⟨_, rfl⟩ (eq_false_of_ne_true hnon)
    | some contract =>
      simp only
      split
      next hexpired => exact iff_of_true ⟨_, rfl⟩ hexpired
      next hlive => exact iff_of_false (by simp) hlive
  next h => exact iff_of_false (by simp) fun h' => h ⟨h'.1, h'.2.1⟩

/-- What it makes of it. -/
theorem examine_eq_some (h : env.examine T s pos = some e) : entryId e = (s, pos.pair) ∧
    ∀ leg, e = .ok leg → leg.netQty = pos.netQty ∧ env.contractOf leg.instrumentKey = some leg.contract ∧
      leg.contract.expiry < env.today := by
  unfold SettlementEnv.examine at h
  split at h
  next =>
    split at h
    next =>
      split at h
      next => exact absurd h (by simp)
      next =>
        obtain rfl := Option.some.inj h
        exact ⟨rfl, fun leg hleg => absurd hleg (by simp)⟩
    next contract hcontract =>
      split at h
      next hexpired =>
        obtain rfl := Option.some.inj h
        refine ⟨rfl, fun leg hleg => ?_⟩
        obtain rfl := Except.ok.inj hleg
        exact ⟨rfl, hcontract, hexpired⟩
      next => exact absurd h (by simp)
  next => exact absurd h (by simp)

theorem mem_entries : e ∈ env.entries T ↔
    ∃ s ∈ T.getStrategyNames, ∃ pos ∈ T.getPositions env.storeLookup s, env.examine T s pos = some e := by
  simp [SettlementEnv.entries]

/-- **Every leg that is due** is looked at. -/
theorem mem_entries_iff {id : LegId} : id ∈ (env.entries T).map entryId ↔ Due env T id := by
  rw [List.mem_map]
  constructor
  · rintro ⟨e, he, rfl⟩
    obtain ⟨s, -, pos, hpos, hexamine⟩ := mem_entries.mp he
    obtain ⟨hseg, hlive, hexpired⟩ := examine_isSome_iff.mp ⟨e, hexamine⟩
    rw [(examine_eq_some hexamine).1]
    exact ⟨hseg, mem_settleableKeys.mp hlive, exists_position_iff.mp ⟨pos, hpos, rfl⟩, hexpired⟩
  · intro hdue
    obtain ⟨s, k⟩ := id
    have hexists : ∃ pos ∈ T.getPositions env.storeLookup s, pos.pair = k := exists_position_iff.mpr hdue.notFlat
    obtain ⟨pos, hpos, rfl⟩ := hexists
    obtain ⟨e, hexamine⟩ := examine_isSome_iff.mpr
      ⟨hdue.segment, mem_settleableKeys.mpr hdue.live, hdue.expired⟩
    obtain ⟨r, hr, -⟩ := hdue.live
    obtain ⟨hrow, hid⟩ := mem_legRows.mp hr
    have hname : s ∈ T.getStrategyNames := mem_getStrategyNames.mpr ⟨r, hrow, (Prod.mk.inj hid).1⟩
    exact ⟨e, mem_entries.mpr ⟨s, hname, pos, hpos, hexamine⟩, (examine_eq_some hexamine).1⟩

/-- **Each once.** -/
theorem nodup_entries (env : SettlementEnv) (T : PaperTrades) : ((env.entries T).map entryId).Nodup := by
  have hsub : ∀ (s : String) (ps : List PaperPosition),
      ((ps.filterMap (env.examine T s)).map entryId).Sublist (ps.map fun pos => (s, pos.pair)) := by
    intro s ps
    induction ps with
    | nil => exact List.Sublist.slnil
    | cons pos ps ih =>
      cases hexamine : env.examine T s pos with
      | none =>
        rw [List.filterMap_cons_none hexamine]
        exact ih.cons _
      | some e =>
        rw [List.filterMap_cons_some hexamine, List.map_cons, (examine_eq_some hexamine).1]
        exact ih.cons_cons _
  rw [SettlementEnv.entries, List.map_flatMap, List.nodup_flatMap]
  constructor
  · intro s _
    refine List.Nodup.sublist (hsub s _) ?_
    have hpairs := (nodup_pairs T env.storeLookup s).map (f := fun k => (s, k)) fun k k' h => (Prod.mk.inj h).2
    rwa [List.map_map] at hpairs
  · refine (nodup_getStrategyNames T).imp fun {s s'} hne => ?_
    intro id hid hid'
    obtain ⟨pos, -, rfl⟩ := List.mem_map.mp ((hsub s _).subset hid)
    obtain ⟨pos', -, heq⟩ := List.mem_map.mp ((hsub s' _).subset hid')
    exact hne (Prod.mk.inj heq).1.symm

/-- An expired leg has the quantity of its rows, and can be closed. -/
theorem leg_of_mem {leg : ExpiredLeg} (h : .ok leg ∈ env.entries T) :
    leg.Closable ∧ leg.netQty = T.netQty leg.id.1 leg.id.2 ∧
      env.contractOf leg.instrumentKey = some leg.contract ∧ leg.contract.expiry < env.today := by
  obtain ⟨s, -, pos, hpos, hexamine⟩ := mem_entries.mp h
  obtain ⟨hid, hleg⟩ := examine_eq_some hexamine
  obtain ⟨hnet, hcontract, hexpired⟩ := hleg leg rfl
  obtain ⟨hpaper, hrole, hkey, hopen⟩ := getPositions_valid hpos
  have hid' : leg.id = (s, pos.pair) := hid
  simp only [ExpiredLeg.id, PaperPosition.pair, Prod.mk.injEq] at hid'
  refine ⟨⟨hid'.1 ▸ hpaper, hid'.2.1 ▸ hrole, hid'.2.2 ▸ hkey, hnet ▸ hopen⟩, ?_, hcontract, hexpired⟩
  rw [hnet, netQty_of_mem hpos, show leg.id = (s, pos.pair) from hid]

/-- The expired legs are the legs that are due and have a contract. -/
theorem mem_legs_iff {leg : ExpiredLeg} : .ok leg ∈ env.entries T ↔
    Due env T leg.id ∧ leg.netQty = T.netQty leg.id.1 leg.id.2 ∧
      env.contractOf leg.instrumentKey = some leg.contract := by
  constructor
  · intro h
    obtain ⟨-, hnet, hcontract, -⟩ := leg_of_mem h
    exact ⟨mem_entries_iff.mp (List.mem_map.mpr ⟨_, h, rfl⟩), hnet, hcontract⟩
  · rintro ⟨hdue, hnet, hcontract⟩
    obtain ⟨e, he, hid⟩ := List.mem_map.mp (mem_entries_iff.mpr hdue)
    cases e with
    | ok leg' =>
      obtain ⟨-, hnet', hcontract', -⟩ := leg_of_mem he
      have hid' : leg'.id = leg.id := hid
      rw [hid', ← hnet] at hnet'
      simp only [ExpiredLeg.id, Prod.mk.injEq] at hid'
      rw [hid'.2.2, hcontract] at hcontract'
      obtain ⟨s, role, key, qty, contract⟩ := leg
      obtain ⟨s', role', key', qty', contract'⟩ := leg'
      obtain ⟨rfl, rfl, rfl⟩ := hid'
      obtain rfl : qty' = qty := hnet'
      obtain rfl : contract = contract' := Option.some.inj hcontract'
      exact he
    | error f =>
      obtain ⟨s, -, pos, -, hexamine⟩ := mem_entries.mp he
      have hkey : leg.instrumentKey = pos.instrumentKey :=
        congrArg (fun id : LegId => id.2.2) (hid.symm.trans (examine_eq_some hexamine).1)
      rw [hkey] at hcontract
      unfold SettlementEnv.examine at hexamine
      rw [hcontract] at hexamine
      split at hexamine
      next =>
        simp only at hexamine
        split at hexamine
        next => exact absurd hexamine (by simp)
        next => exact absurd hexamine (by simp)
      next => exact absurd hexamine (by simp)

end Entries

end NiftyShield.Strategy.ExpirySettlement
