import NiftyShield.Client.ContractResolver
import NiftyShield.Instruments.StrikeSelector
import NiftyShield.Lib.Rounding

/-!
# Option chains and their rows

`parse_upstox_option_chain` (`src/client/upstox_market.py`) reads the rows of the option chain endpoint
into a chain, without the keys of the contracts. A chain source (`src/client/chain_source.py`) looks up
the Upstox key of each leg, whichever broker the chain comes from, and `chain_to_rows`
(`src/client/chain_rows.py`) turns a chain with its keys back into rows, from which the overlays select
their strikes by `filter_strikes_by_delta`.

## What is proved

* `parse_chainToRows`: the rows of a chain are read as the chain again, less the legs that have no
  key;
* `selected_iff`: the rows that are selected are those of the legs in range that have a key, and the key of
  each is resolved to the contract of that leg again.

## Honest scope

A field of a row that is missing, `None` or not a number is `none`: each reader has one default for
all of these. A text that `date.isoformat` writes is read back as the date. Floats are exact rationals, and the
time of a snapshot is left out.
-/

namespace NiftyShield.Client

open NiftyShield.Instruments NiftyShield.Lib

/-! ### Rows -/

/-- `market_data`. -/
structure RawMarketData where
  /-- `ltp`. -/
  ltp : Option ℚ := none
  /-- `bid_price`. -/
  bidPrice : Option ℚ := none
  /-- `ask_price`. -/
  askPrice : Option ℚ := none
  /-- `oi`. -/
  oi : Option ℚ := none
  /-- `volume`. -/
  volume : Option ℚ := none

/-- `option_greeks`. -/
structure RawGreeks where
  /-- `delta`. -/
  delta : Option ℚ := none
  /-- `gamma`. -/
  gamma : Option ℚ := none
  /-- `theta`. -/
  theta : Option ℚ := none
  /-- `vega`. -/
  vega : Option ℚ := none
  /-- `iv`. -/
  iv : Option ℚ := none

/-- `call_options` or `put_options`. -/
structure RawSide where
  /-- `instrument_key`. -/
  instrumentKey : Option String := none
  /-- `market_data`, unless it is empty. -/
  marketData : Option RawMarketData := none
  /-- `option_greeks`, unless it is empty. -/
  optionGreeks : Option RawGreeks := none

/-- A row of the endpoint. -/
structure RawChainRow where
  /-- `expiry`, if it is a date. -/
  expiry : Option Date := none
  /-- `strike_price`. -/
  strikePrice : Option ℚ := none
  /-- `underlying_spot_price`. -/
  underlyingSpotPrice : Option ℚ := none
  /-- `call_options`. -/
  callOptions : Option RawSide := none
  /-- `put_options`. -/
  putOptions : Option RawSide := none

/-- What `filter_strikes_by_delta` reads of a side. -/
def RawSide.rawOption (s : RawSide) : RawOption where
  instrumentKey := s.instrumentKey.getD ""
  delta := (s.optionGreeks.bind (·.delta)).getD 0
  iv := (s.optionGreeks.bind (·.iv)).getD 0
  ltp := s.marketData.bind (·.ltp)
  bidPrice := s.marketData.bind (·.bidPrice)
  askPrice := s.marketData.bind (·.askPrice)
  oi := (s.marketData.bind (·.oi)).getD 0

/-- What `filter_strikes_by_delta` reads of a row. -/
def RawChainRow.rawEntry (row : RawChainRow) : RawEntry where
  strikePrice := row.strikePrice.getD 0
  callOptions := row.callOptions.elim {} RawSide.rawOption
  putOptions := row.putOptions.elim {} RawSide.rawOption

/-! ### Reading rows -/

/-- `_parse_option_leg`. -/
def parseOptionLeg (optionsDict : RawSide) (strike : ℚ) : Option OptionLeg :=
  if optionsDict.marketData.isNone && optionsDict.optionGreeks.isNone then none
  else
    let marketData := optionsDict.marketData.getD {}
    let optionGreeks := optionsDict.optionGreeks.getD {}
    some
      { ltp := marketData.ltp.getD 0
        bid := marketData.bidPrice.getD 0
        ask := marketData.askPrice.getD 0
        oi := truncate (marketData.oi.getD 0)
        volume := truncate (marketData.volume.getD 0)
        delta := optionGreeks.delta
        gamma := optionGreeks.gamma
        theta := optionGreeks.theta
        vega := optionGreeks.vega
        iv := optionGreeks.iv
        strike }

/-- The two sides of a row. -/
def RawChainRow.chainStrike (row : RawChainRow) : OptionChainStrike where
  ce := parseOptionLeg (row.callOptions.getD {}) (row.strikePrice.getD 0)
  pe := parseOptionLeg (row.putOptions.getD {}) (row.strikePrice.getD 0)

/-- `date(1970, 1, 1)`. -/
def emptyExpiry : Date := 719163

/-- `parse_upstox_option_chain`. -/
def parseUpstoxOptionChain (data : List RawChainRow) : OptionChain where
  underlyingSpot := (data.head?.bind (·.underlyingSpotPrice)).getD 0
  expiry := (data.head?.bind (·.expiry)).getD emptyExpiry
  strikes := data.foldl (fun strikes row => strikes.set? row.strikePrice row.chainStrike) Dict.empty

/-! ### The keys of a chain -/

/-- `_REF_UNDERLYING`. -/
def refUnderlying (underlying : String) : Option String :=
  if underlying = "NSE_INDEX|Nifty 50" then some "NIFTY" else none

/-- The contracts of the legs of a chain. -/
def chainRefs (chain : OptionChain) (name : String) : List ContractRef :=
  chain.strikes.entries.flatMap fun e =>
    [OptionSide.ce, OptionSide.pe].filterMap fun side => (side.leg e.2).map fun _ => ⟨name, chain.expiry, e.1, side⟩

/-- The loop body of `_instrument_keys`. -/
def addKey (resolver : ContractResolver) (keys : Dict ContractRef String) (ref : ContractRef) :
    Option (Dict ContractRef String) :=
  (resolver.toNative ref .upstox).map fun native => native.elim keys (keys.set ref)

/-- `_instrument_keys`; `none` is an `UnknownSourceError`. -/
def instrumentKeys (chain : OptionChain) (underlying : String) (resolver : Option ContractResolver) :
    Option (Dict ContractRef String) :=
  match resolver, refUnderlying underlying with
  | some resolver, some name => (chainRefs chain name).foldlM (addKey resolver) Dict.empty
  | _, _ => some Dict.empty

/-- `ChainSnapshot`. -/
structure ChainSnapshot where
  /-- `chain`. -/
  chain : OptionChain
  /-- `greeks_source`. -/
  greeksSource : SourceId
  /-- `instrument_keys`. -/
  instrumentKeys : Dict ContractRef String

/-- `_snapshot`. -/
def snapshotOf (chain : OptionChain) (source : SourceId) (underlying : String) (resolver : Option ContractResolver) :
    Option ChainSnapshot :=
  (instrumentKeys chain underlying resolver).map fun keys => ⟨chain, source, keys⟩

/-! ### Writing rows -/

/-- `_side_dict`. -/
def sideDict (leg : OptionLeg) (instrumentKey : String) : RawSide where
  instrumentKey := some instrumentKey
  marketData := some
    { ltp := some leg.ltp
      bidPrice := some leg.bid
      askPrice := some leg.ask
      oi := some leg.oi
      volume := some leg.volume }
  optionGreeks := some
    { delta := leg.delta
      gamma := leg.gamma
      theta := leg.theta
      vega := leg.vega
      iv := leg.iv }

namespace ChainSnapshot

variable (s : ChainSnapshot)

/-- The strike and side of a contract of the expiry. -/
def keyPlace (ref : ContractRef) : Option (ℚ × OptionSide) :=
  if ref.expiry = s.chain.expiry then some (ref.strike, ref.side) else none

/-- `keys`. -/
def keys : Dict (ℚ × OptionSide) String :=
  s.instrumentKeys.entries.foldl (fun keys e => keys.set? (s.keyPlace e.1) e.2) Dict.empty

/-- The side of a row, if it has a leg and a key. -/
def rowSide (strike : ℚ) (row : OptionChainStrike) (side : OptionSide) : Option RawSide :=
  (side.leg row).bind fun leg => (s.keys.get? (strike, side)).map (sideDict leg)

/-- The row of a strike, unless it has no side. -/
def rowOf (e : ℚ × OptionChainStrike) : Option RawChainRow :=
  let callOptions := s.rowSide e.1 e.2 .ce
  let putOptions := s.rowSide e.1 e.2 .pe
  if callOptions.isSome || putOptions.isSome then
    some
      { expiry := some s.chain.expiry
        strikePrice := some e.1
        underlyingSpotPrice := some s.chain.underlyingSpot
        callOptions
        putOptions }
  else none

/-- `chain_to_rows`. -/
def chainToRows : List RawChainRow :=
  (s.chain.strikes.entries.insertionSort fun e f => e.1 ≤ f.1).filterMap s.rowOf

end ChainSnapshot

theorem chain_snapshotOf {chain : OptionChain} {source : SourceId} {underlying : String}
    {resolver : Option ContractResolver} {s : ChainSnapshot}
    (h : snapshotOf chain source underlying resolver = some s) : s.chain = chain := by
  obtain ⟨keys, -, rfl⟩ := Option.map_eq_some_iff.mp h
  rfl

/-! ### Rows are read as the chain -/

/-- The legs of a chain carry their strikes. -/
def LegsAtStrikes (chain : OptionChain) : Prop :=
  ∀ strike row, chain.strikes.get? strike = some row → ∀ (side : OptionSide) (leg : OptionLeg),
    side.leg row = some leg → leg.strike = strike

theorem strike_of_parseOptionLeg {optionsDict : RawSide} {strike : ℚ} {leg : OptionLeg}
    (h : parseOptionLeg optionsDict strike = some leg) : leg.strike = strike := by
  unfold parseOptionLeg at h
  split at h
  · exact absurd h (by simp)
  · obtain rfl := Option.some.inj h
    rfl

/-- The legs that are read do. -/
theorem legsAtStrikes_parse (data : List RawChainRow) : LegsAtStrikes (parseUpstoxOptionChain data) := by
  intro strike row hrow side leg hleg
  rcases Dict.of_get?_foldl_set RawChainRow.strikePrice RawChainRow.chainStrike hrow with
    ⟨raw, -, hstrike, rfl⟩ | hempty
  · have hprice : raw.strikePrice.getD 0 = strike := by rw [hstrike, Option.getD_some]
    cases side with
    | ce => exact (strike_of_parseOptionLeg hleg).trans hprice
    | pe => exact (strike_of_parseOptionLeg hleg).trans hprice
  · exact absurd hempty (by simp)

theorem truncate_intCast (z : ℤ) : truncate (z : ℚ) = z := by
  unfold truncate
  split <;> simp

/-- A leg that is written is read as it was. -/
theorem parseOptionLeg_sideDict (leg : OptionLeg) (instrumentKey : String) :
    parseOptionLeg (sideDict leg instrumentKey) leg.strike = some leg := by
  simp [parseOptionLeg, sideDict, truncate_intCast]

namespace ChainSnapshot

variable {s : ChainSnapshot} {strike : ℚ} {row : OptionChainStrike} {side : OptionSide}

theorem rowSide_eq_some_iff {raw : RawSide} : s.rowSide strike row side = some raw ↔
    ∃ leg instrumentKey, side.leg row = some leg ∧ s.keys.get? (strike, side) = some instrumentKey ∧
      raw = sideDict leg instrumentKey := by
  unfold rowSide
  rw [Option.bind_eq_some_iff]
  simp only [Option.map_eq_some_iff]
  exact ⟨fun ⟨leg, hleg, key, hkey, h⟩ => ⟨leg, key, hleg, hkey, h.symm⟩,
    fun ⟨leg, key, hleg, hkey, h⟩ => ⟨leg, hleg, key, hkey, h.symm⟩⟩

/-- A leg, if it has a key. -/
def keptLeg (s : ChainSnapshot) (strike : ℚ) (row : OptionChainStrike) (side : OptionSide) : Option OptionLeg :=
  (side.leg row).filter fun _ => (s.keys.get? (strike, side)).isSome

/-- The legs of a strike that have a key, if there are any. -/
def kept (s : ChainSnapshot) (strike : ℚ) (row : OptionChainStrike) : Option OptionChainStrike :=
  let ce := s.keptLeg strike row .ce
  let pe := s.keptLeg strike row .pe
  if ce.isSome || pe.isSome then some ⟨ce, pe⟩ else none

theorem isSome_rowSide : (s.rowSide strike row side).isSome = (s.keptLeg strike row side).isSome := by
  unfold rowSide keptLeg
  cases side.leg row with
  | none => rfl
  | some leg => cases s.keys.get? (strike, side) <;> rfl

/-- What is read of a side. -/
theorem parse_rowSide (hleg : ∀ leg, side.leg row = some leg → leg.strike = strike) :
    parseOptionLeg ((s.rowSide strike row side).getD {}) strike = s.keptLeg strike row side := by
  unfold rowSide keptLeg
  cases hrow : side.leg row with
  | none => rfl
  | some leg =>
    obtain rfl := hleg leg hrow
    cases s.keys.get? (leg.strike, side) with
    | none => rfl
    | some instrumentKey => exact parseOptionLeg_sideDict leg instrumentKey

/-- A strike is written if it has a leg with a key, and read as these legs. -/
theorem map_rowOf (hlegs : ∀ (side : OptionSide) (leg : OptionLeg), side.leg row = some leg → leg.strike = strike) :
    (s.rowOf (strike, row)).map RawChainRow.chainStrike = s.kept strike row := by
  simp only [rowOf, kept, isSome_rowSide]
  split
  · simp only [Option.map_some, RawChainRow.chainStrike, Option.getD_some, parse_rowSide (hlegs _)]
  · rfl

/-- What all rows say. -/
theorem rowOf_eq_some {e : ℚ × OptionChainStrike} {raw : RawChainRow} (h : s.rowOf e = some raw) :
    raw.strikePrice = some e.1 ∧ raw.expiry = some s.chain.expiry ∧
      raw.underlyingSpotPrice = some s.chain.underlyingSpot ∧ raw.callOptions = s.rowSide e.1 e.2 .ce ∧
        raw.putOptions = s.rowSide e.1 e.2 .pe := by
  unfold rowOf at h
  simp only at h
  split at h
  · obtain rfl := Option.some.inj h
    exact ⟨rfl, rfl, rfl, rfl, rfl⟩
  · exact absurd h (by simp)

theorem mem_chainToRows {raw : RawChainRow} : raw ∈ s.chainToRows ↔
    ∃ strike row, s.chain.strikes.get? strike = some row ∧ s.rowOf (strike, row) = some raw := by
  simp only [chainToRows, List.mem_filterMap, List.mem_insertionSort, Prod.exists, Dict.mem_entries_iff]

/-- **The rows of a chain are read as the chain**, less the legs without a key. -/
theorem parse_chainToRows (hlegs : LegsAtStrikes s.chain) :
    (∀ strike, (parseUpstoxOptionChain s.chainToRows).strikes.get? strike =
      (s.chain.strikes.get? strike).bind (s.kept strike)) ∧
    (s.chainToRows ≠ [] → (parseUpstoxOptionChain s.chainToRows).underlyingSpot = s.chain.underlyingSpot ∧
      (parseUpstoxOptionChain s.chainToRows).expiry = s.chain.expiry) := by
  constructor
  · refine fun strike => Option.ext fun kept => ?_
    rw [Option.bind_eq_some_iff]
    constructor
    · intro h
      rcases Dict.of_get?_foldl_set RawChainRow.strikePrice RawChainRow.chainStrike h with
        ⟨raw, hraw, hstrike, rfl⟩ | hempty
      · obtain ⟨strike', row, hrow, hout⟩ := mem_chainToRows.mp hraw
        obtain rfl := Option.some.inj ((rowOf_eq_some hout).1.symm.trans hstrike)
        exact ⟨row, hrow, by rw [← map_rowOf (hlegs _ row hrow), hout, Option.map_some]⟩
      · exact absurd hempty (by simp)
    · rintro ⟨row, hrow, hkept⟩
      rw [← map_rowOf (hlegs strike row hrow), Option.map_eq_some_iff] at hkept
      obtain ⟨raw, hout, rfl⟩ := hkept
      refine Dict.get?_foldl_set_of_agree RawChainRow.strikePrice RawChainRow.chainStrike
        ⟨raw, mem_chainToRows.mpr ⟨strike, row, hrow, hout⟩, (rowOf_eq_some hout).1⟩ (fun raw' hraw' hstrike' => ?_) _
      obtain ⟨strike', row', hrow', hout'⟩ := mem_chainToRows.mp hraw'
      obtain rfl := Option.some.inj ((rowOf_eq_some hout').1.symm.trans hstrike')
      obtain rfl := Option.some.inj (hrow'.symm.trans hrow)
      rw [Option.some.inj (hout'.symm.trans hout)]
  · intro hne
    obtain ⟨raw, rest, hrows⟩ := List.exists_cons_of_ne_nil hne
    have hraw : raw ∈ s.chainToRows := hrows ▸ List.mem_cons_self
    obtain ⟨strike, row, -, hout⟩ := mem_chainToRows.mp hraw
    obtain ⟨-, hexpiry, hspot, -⟩ := rowOf_eq_some hout
    simp only [parseUpstoxOptionChain, hrows, List.head?_cons, Option.bind_some, hexpiry, hspot, Option.getD_some,
      and_self]

end ChainSnapshot

/-- A row of the endpoint. -/
def marchRow : RawChainRow where
  expiry := Date.ofYmd 2026 3 31
  strikePrice := some 24000
  underlyingSpotPrice := some 24010
  callOptions := some
    { marketData := some { ltp := some 212, bidPrice := some 211, askPrice := some 213, oi := some 4200 }
      optionGreeks := some { delta := some (12 / 25) } }
  putOptions := some { marketData := some { ltp := some 190 } }

/-- Its call. -/
def marchCall : OptionLeg where
  ltp := 212
  bid := 211
  ask := 213
  oi := 4200
  delta := some (12 / 25)
  strike := 24000

/-- An instrument file without its put. -/
def marchLookup : InstrumentLookup where
  instruments :=
    [{  instrumentKey := "NSE_FO|51414"
        instrumentType := some "CE"
        underlyingSymbol := "NIFTY"
        strikePrice := some 24000
        expiry := Date.ofYmd 2026 3 31 }]

/-- The keys of Upstox. -/
def marchResolver : ContractResolver
  | .upstox => upstoxContractMaster marchLookup ["NIFTY"]
  | .dhan => none

/-- The chain with its keys. -/
def marchSnapshot : ChainSnapshot :=
  (snapshotOf (parseUpstoxOptionChain [marchRow]) .dhan "NSE_INDEX|Nifty 50" (some marchResolver)).get
    (by decide +kernel)

theorem snapshotOf_march :
    snapshotOf (parseUpstoxOptionChain [marchRow]) .dhan "NSE_INDEX|Nifty 50" (some marchResolver) =
      some marchSnapshot :=
  (Option.some_get _).symm

/-- The put is lost. -/
theorem parse_chainToRows_march :
    ((parseUpstoxOptionChain marchSnapshot.chainToRows).strikes.get? 24000).map (fun row => (row.ce, row.pe)) =
      some (some marchCall, none) := by
  have hlegs : LegsAtStrikes marchSnapshot.chain := by
    rw [chain_snapshotOf snapshotOf_march]
    exact legsAtStrikes_parse _
  rw [(ChainSnapshot.parse_chainToRows hlegs).1]
  decide +kernel

/-! ### The rows that are selected -/

/-- The row that `filter_strikes_by_delta` makes of a leg. -/
def legRow (side : OptionSide) (strike : ℚ) (leg : OptionLeg) (instrumentKey : String) : StrikeRow where
  side := side.text
  strike := strike
  delta := leg.delta.getD 0
  iv := leg.iv.getD 0
  ltp := leg.ltp
  mid := if 0 < leg.bid ∧ 0 < leg.ask then (leg.bid + leg.ask) / 2 else leg.ltp
  bid := leg.bid
  ask := leg.ask
  oi := leg.oi
  instrumentKey := instrumentKey

namespace ChainSnapshot

variable {s : ChainSnapshot} {strike : ℚ} {row : OptionChainStrike} {side : OptionSide} {deltaMin deltaMax : ℚ}
  {found : StrikeRow}

/-- A leg with its key, in range. -/
structure Offers (s : ChainSnapshot) (deltaMin deltaMax : ℚ) (side : OptionSide) (strike : ℚ) (leg : OptionLeg)
    (instrumentKey : String) : Prop where
  /-- The chain has the leg. -/
  listed : (s.chain.strikes.get? strike).bind side.leg = some leg
  /-- It has a key. -/
  key : s.keys.get? (strike, side) = some instrumentKey
  /-- Not an empty one. -/
  key_ne : instrumentKey ≠ ""
  /-- Its delta is in range. -/
  range : deltaMin ≤ |leg.delta.getD 0| ∧ |leg.delta.getD 0| ≤ deltaMax

/-- The row of a side that is written. -/
theorem strikeRow_sideDict {leg : OptionLeg} {instrumentKey : String} {entry : RawEntry}
    (hentry : (if side.text = "CE" then entry.callOptions else entry.putOptions) =
      (sideDict leg instrumentKey).rawOption) :
    strikeRow deltaMin deltaMax entry side.text =
      if deltaMin ≤ |leg.delta.getD 0| ∧ |leg.delta.getD 0| ≤ deltaMax ∧ instrumentKey ≠ "" then
        some (legRow side entry.strikePrice leg instrumentKey)
      else none := by
  unfold strikeRow
  simp only [hentry]
  simp only [RawSide.rawOption, sideDict, Option.bind_some, Option.getD_some, Option.map_some, truncate_intCast]
  rfl

theorem strikeRow_rowOf {e : ℚ × OptionChainStrike} {raw : RawChainRow} (h : s.rowOf e = some raw) :
    strikeRow deltaMin deltaMax raw.rawEntry side.text = some found ↔
      ∃ leg instrumentKey, side.leg e.2 = some leg ∧ s.keys.get? (e.1, side) = some instrumentKey ∧
        (deltaMin ≤ |leg.delta.getD 0| ∧ |leg.delta.getD 0| ≤ deltaMax ∧ instrumentKey ≠ "") ∧
          legRow side e.1 leg instrumentKey = found := by
  obtain ⟨hstrike, -, -, hcall, hput⟩ := rowOf_eq_some h
  have hside : (if side.text = "CE" then raw.rawEntry.callOptions else raw.rawEntry.putOptions) =
      (s.rowSide e.1 e.2 side).elim {} RawSide.rawOption := by
    rw [RawChainRow.rawEntry, hcall, hput]
    cases side <;> rfl
  have hprice : raw.rawEntry.strikePrice = e.1 := by rw [RawChainRow.rawEntry, hstrike, Option.getD_some]
  cases hraw : s.rowSide e.1 e.2 side with
  | none =>
    rw [hraw, Option.elim_none] at hside
    have hnone : strikeRow deltaMin deltaMax raw.rawEntry side.text = none := by
      unfold strikeRow
      simp [hside]
    rw [hnone]
    refine iff_of_false (by simp) fun ⟨leg, key, hleg, hkey, _⟩ => ?_
    exact absurd (rowSide_eq_some_iff.mpr ⟨leg, key, hleg, hkey, rfl⟩) (by simp [hraw])
  | some rawSide =>
    obtain ⟨leg, key, hleg, hkey, rfl⟩ := rowSide_eq_some_iff.mp hraw
    rw [hraw, Option.elim_some] at hside
    rw [strikeRow_sideDict hside, hprice]
    constructor
    · intro hfound
      split at hfound
      next hin => exact ⟨leg, key, hleg, hkey, hin, Option.some.inj hfound⟩
      next => exact absurd hfound (by simp)
    · rintro ⟨leg', key', hleg', hkey', hin, hfound⟩
      obtain rfl := Option.some.inj (hleg.symm.trans hleg')
      obtain rfl := Option.some.inj (hkey.symm.trans hkey')
      rw [if_pos hin, hfound]

/-- **The rows that are selected** are those of the legs in range that have a key. -/
theorem mem_filter_chainToRows :
    found ∈ filterStrikesByDelta (s.chainToRows.map RawChainRow.rawEntry) side.text deltaMin deltaMax ↔
      ∃ strike leg instrumentKey, s.Offers deltaMin deltaMax side strike leg instrumentKey ∧
        legRow side strike leg instrumentKey = found := by
  have hside : side.text = "CE" ∨ side.text = "PE" := by cases side <;> simp [OptionSide.text]
  rw [mem_filterStrikesByDelta hside]
  constructor
  · rintro ⟨entry, hentry, hrow⟩
    obtain ⟨raw, hraw, rfl⟩ := List.mem_map.mp hentry
    obtain ⟨strike, row, hchain, hout⟩ := mem_chainToRows.mp hraw
    obtain ⟨leg, key, hleg, hkey, ⟨hmin, hmax, hne⟩, hfound⟩ := (strikeRow_rowOf hout).mp hrow
    exact ⟨strike, leg, key, ⟨by rw [hchain]; exact hleg, hkey, hne, hmin, hmax⟩, hfound⟩
  · rintro ⟨strike, leg, key, ⟨hleg, hkey, hne, hmin, hmax⟩, hfound⟩
    obtain ⟨row, hchain, hrow⟩ := Option.bind_eq_some_iff.mp hleg
    obtain ⟨raw, hout⟩ : ∃ raw, s.rowOf (strike, row) = some raw := by
      have hsome : (s.rowSide strike row side).isSome = true := by
        rw [rowSide_eq_some_iff.mpr ⟨leg, key, hrow, hkey, rfl⟩, Option.isSome_some]
      unfold rowOf
      cases side with
      | ce => exact ⟨_, if_pos (by simp [hsome])⟩
      | pe => exact ⟨_, if_pos (by simp [hsome])⟩
    exact ⟨raw.rawEntry, List.mem_map_of_mem (mem_chainToRows.mpr ⟨strike, row, hchain, hout⟩),
      (strikeRow_rowOf hout).mpr ⟨leg, key, hrow, hkey, ⟨hmin, hmax, hne⟩, hfound⟩⟩

end ChainSnapshot

/-! ### The keys are those of the contracts -/

section Keys

variable {chain : OptionChain} {source : SourceId} {underlying : String} {resolver : ContractResolver}
  {s : ChainSnapshot}

theorem mem_chainRefs {name : String} {ref : ContractRef} : ref ∈ chainRefs chain name ↔
    ref.underlying = name ∧ ref.expiry = chain.expiry ∧
      ∃ leg, (chain.strikes.get? ref.strike).bind ref.side.leg = some leg := by
  have hsides : ∀ side : OptionSide, side ∈ [OptionSide.ce, OptionSide.pe] := fun side => by cases side <;> simp
  simp only [chainRefs, List.mem_flatMap, List.mem_filterMap, hsides, true_and, Option.map_eq_some_iff,
    Option.bind_eq_some_iff, Prod.exists, Dict.mem_entries_iff]
  constructor
  · rintro ⟨strike, row, hrow, side, leg, hleg, rfl⟩
    exact ⟨rfl, rfl, leg, row, hrow, hleg⟩
  · rintro ⟨rfl, hexpiry, leg, row, hrow, hleg⟩
    refine ⟨ref.strike, row, hrow, ref.side, leg, hleg, ?_⟩
    rw [← hexpiry]

/-- The key of a contract at Upstox. -/
def ContractResolver.ledgerKey (resolver : ContractResolver) (ref : ContractRef) : Option String :=
  (resolver.toNative ref .upstox).join

theorem get?_foldlM_addKey {refs : List ContractRef} {d d' : Dict ContractRef String}
    (h : refs.foldlM (addKey resolver) d = some d') (ref : ContractRef) :
    d'.get? ref = if ref ∈ refs then (resolver.ledgerKey ref).or (d.get? ref) else d.get? ref := by
  induction refs generalizing d with
  | nil =>
    obtain rfl := Option.some.inj h
    simp
  | cons r refs ih =>
    obtain ⟨d₁, hd₁, hrest⟩ := Option.bind_eq_some_iff.mp h
    obtain ⟨native, hnative, rfl⟩ := Option.map_eq_some_iff.mp hd₁
    have hkey : resolver.ledgerKey r = native := by rw [ContractResolver.ledgerKey, hnative, Option.join_some]
    have hstep : (native.elim d (d.set r)).get? ref = if ref = r then native.or (d.get? ref) else d.get? ref := by
      cases native with
      | none => simp
      | some instrumentKey => rw [Option.elim_some, Dict.get?_set, Option.some_or]
    rw [ih hrest, hstep]
    by_cases href : ref = r
    · subst href
      simp only [List.mem_cons_self, if_true, hkey]
      split <;> cases native <;> simp
    · simp [href]

/-- A key at Upstox is resolved to its contract again. -/
theorem ledgerKey_eq_some_iff {ref : ContractRef} {instrumentKey : String} :
    resolver.ledgerKey ref = some instrumentKey ↔ resolver.fromNative .upstox instrumentKey = some (some ref) := by
  unfold ContractResolver.ledgerKey ContractResolver.toNative ContractResolver.fromNative
  cases resolver .upstox with
  | none => simp
  | some master => simpa using master.inverse ref instrumentKey

/-- The keys of a chain are those of the contracts of its legs. -/
theorem get?_instrumentKeys {keys : Dict ContractRef String}
    (h : instrumentKeys chain underlying (some resolver) = some keys) {ref : ContractRef} {instrumentKey : String} :
    keys.get? ref = some instrumentKey ↔ (∃ name ∈ refUnderlying underlying, ref ∈ chainRefs chain name) ∧
      resolver.ledgerKey ref = some instrumentKey := by
  unfold instrumentKeys at h
  cases hname : refUnderlying underlying with
  | none =>
    rw [hname] at h
    obtain rfl := Option.some.inj h
    simp
  | some name =>
    rw [hname] at h
    rw [get?_foldlM_addKey h]
    by_cases href : ref ∈ chainRefs chain name
    · simp [href]
    · simp [href]

/-- What a row finds under its strike and side. -/
theorem get?_keys_snapshotOf (h : snapshotOf chain source underlying (some resolver) = some s) {strike : ℚ}
    {side : OptionSide} {instrumentKey : String} : s.keys.get? (strike, side) = some instrumentKey ↔
      (∃ leg, (chain.strikes.get? strike).bind side.leg = some leg) ∧
        ∃ name ∈ refUnderlying underlying,
          resolver.fromNative .upstox instrumentKey = some (some ⟨name, chain.expiry, strike, side⟩) := by
  obtain ⟨keys, hkeys, rfl⟩ := Option.map_eq_some_iff.mp h
  let place (e : ContractRef × String) := ChainSnapshot.keyPlace ⟨chain, source, keys⟩ e.1
  have hplace : ∀ e ∈ keys.entries, place e = some (strike, side) →
      (∃ leg, (chain.strikes.get? strike).bind side.leg = some leg) ∧
        ∃ name ∈ refUnderlying underlying, e.1 = ⟨name, chain.expiry, strike, side⟩ ∧
          resolver.fromNative .upstox e.2 = some (some e.1) := by
    rintro ⟨ref, key⟩ he hp
    obtain ⟨⟨name, hname, href⟩, hkey⟩ := (get?_instrumentKeys hkeys).mp (Dict.mem_entries_iff.mp he)
    obtain ⟨rfl, hexpiry, hleg⟩ := mem_chainRefs.mp href
    have hp' : some (ref.strike, ref.side) = some (strike, side) := (if_pos hexpiry).symm.trans hp
    obtain ⟨rfl, rfl⟩ := Prod.mk.inj (Option.some.inj hp')
    exact ⟨hleg, ref.underlying, hname, by rw [← hexpiry], ledgerKey_eq_some_iff.mp hkey⟩
  constructor
  · intro hget
    rcases Dict.of_get?_foldl_set place Prod.snd hget with ⟨e, he, hp, rfl⟩ | hempty
    · obtain ⟨hleg, name, hname, href, hkey⟩ := hplace e he hp
      exact ⟨hleg, name, hname, href ▸ hkey⟩
    · exact absurd hempty (by simp)
  · rintro ⟨hleg, name, hname, hkey⟩
    have hget : keys.get? ⟨name, chain.expiry, strike, side⟩ = some instrumentKey :=
      (get?_instrumentKeys hkeys).mpr
        ⟨⟨name, hname, mem_chainRefs.mpr ⟨rfl, rfl, hleg⟩⟩, ledgerKey_eq_some_iff.mpr hkey⟩
    refine Dict.get?_foldl_set_of_agree place Prod.snd ⟨_, Dict.mem_entries_iff.mpr hget, if_pos rfl⟩
      (fun e he hp => ?_) _
    obtain ⟨-, name', hname', href, -⟩ := hplace e he hp
    obtain rfl : name' = name := Option.some.inj (hname'.symm.trans hname)
    obtain ⟨ref, key⟩ := e
    obtain rfl : ref = _ := href
    exact Option.some.inj ((Dict.mem_entries_iff.mp he).symm.trans hget)

/-- **What is selected is what is meant**: from the rows of a chain with its keys the legs in range are
selected that have a key at Upstox, and each key is resolved to the underlying, expiry, strike and
side that it was selected for, whichever broker the chain is from. -/
theorem selected_iff (h : snapshotOf chain source underlying (some resolver) = some s) {side : OptionSide}
    {deltaMin deltaMax : ℚ} {found : StrikeRow} :
    found ∈ filterStrikesByDelta (s.chainToRows.map RawChainRow.rawEntry) side.text deltaMin deltaMax ↔
      ∃ name ∈ refUnderlying underlying, ∃ strike leg instrumentKey,
        (chain.strikes.get? strike).bind side.leg = some leg ∧
        resolver.fromNative .upstox instrumentKey = some (some ⟨name, chain.expiry, strike, side⟩) ∧
        instrumentKey ≠ "" ∧ (deltaMin ≤ |leg.delta.getD 0| ∧ |leg.delta.getD 0| ≤ deltaMax) ∧
        legRow side strike leg instrumentKey = found := by
  have hchain := chain_snapshotOf h
  rw [ChainSnapshot.mem_filter_chainToRows]
  constructor
  · rintro ⟨strike, leg, key, ⟨hleg, hkey, hne, hrange⟩, hfound⟩
    obtain ⟨-, name, hname, hresolved⟩ := (get?_keys_snapshotOf h).mp hkey
    exact ⟨name, hname, strike, leg, key, hchain ▸ hleg, hresolved, hne, hrange, hfound⟩
  · rintro ⟨name, hname, strike, leg, key, hleg, hresolved, hne, hrange, hfound⟩
    exact ⟨strike, leg, key, ⟨hchain ▸ hleg, (get?_keys_snapshotOf h).mpr ⟨⟨leg, hleg⟩, name, hname, hresolved⟩, hne,
      hrange⟩, hfound⟩

/-- The call of the row is selected by its key. -/
theorem selected_iff_march :
    legRow .ce 24000 marchCall "NSE_FO|51414" ∈
      filterStrikesByDelta (marchSnapshot.chainToRows.map RawChainRow.rawEntry) OptionSide.ce.text (2 / 5) (1 / 2) :=
  (selected_iff snapshotOf_march).mpr ⟨"NIFTY", by decide +kernel, 24000, marchCall, "NSE_FO|51414", by decide +kernel,
    by decide +kernel, by decide, by decide +kernel, rfl⟩

end Keys

end NiftyShield.Client
