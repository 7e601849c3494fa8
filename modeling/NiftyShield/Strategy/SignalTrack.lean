import NiftyShield.Lib.Run
import NiftyShield.Paper.Batch
import NiftyShield.Strategy.Executor

/-!
# The signal track

`SignalTrackV1` and `open_signal_paper_entry` (`src/strategy/signal_track_v1.py`), the exit
rules of `src/strategy/signal_exit.py` and the signal tables of `PaperStore`
(`record_signal_open_leg`, `open_signal_entry`, `get_open_signal_entry`,
`close_signal_entry`). An exit is two writes: the SELL row, then the close of the entry,
which also closes the BUY row. The trade id of an entry goes into the memory of fired exits
before the first of them.

## What is proved

* `tick_cases`: the four ways a tick ends;
* `managed_run_iff`: every tick of a run finds its open entry to evaluate exactly when no
  exit that fires loses one of its two writes;
* `sold_once_run_iff`: each entry is sold at most once and no leg is ever short exactly when
  an exit that fires again finds a SELL of its leg on the date of the retry.

## Honest scope

A run is any sequence of entries, ticks and restarts, each with its own clock and its own
failing store calls. Mark rows, shadow marks, exit events and messages decide nothing here
and are left out (`SignalMarks` and `SignalBooks` have them); that the mark path can raise is
not. Of an entry the record keeps what the exit reads.
-/

namespace NiftyShield.Strategy.SignalTrack

open NiftyShield.Instruments NiftyShield.Lib NiftyShield.Paper

/-! ### Entries and exit rules -/

/-- `STRATEGY_SIGNAL_TRACK`. -/
def strategySignalTrack : String := "paper_signal_track_v1"

/-- `_LEG_ROLE`. -/
def legRole : String := "signal_long"

/-- `LOT_SIZE`. -/
def lotSize : ℕ := 65

/-- `_NIFTY_KEY`. -/
def niftyKey : String := "NSE_INDEX|Nifty 50"

/-- What the exits read of `SignalPaperEntry`. -/
@[ext] structure SignalPaperEntry where
  /-- Row id of the opening BUY. -/
  tradeId : ℕ
  /-- Option held. -/
  instrumentKey : String
  /-- India VIX at entry. -/
  entryVix : Option ℚ := none
  /-- Stop level. -/
  slPrice : ℚ
  /-- Target level. -/
  tgtPrice : ℚ
  /-- `min_length=1`. -/
  instrumentKey_ne : instrumentKey ≠ ""

instance : DecidableEq SignalPaperEntry := fun _ _ => decidable_of_iff' _ SignalPaperEntry.ext_iff

/-- A time in IST. -/
structure Moment where
  /-- The day. -/
  date : Date
  /-- Microseconds of the day. -/
  timeOfDay : ℕ
  deriving DecidableEq

/-- `SignalExitReason`, those `evaluate` returns. -/
inductive SignalExitReason where
  /-- `TARGET`. -/
  | target
  /-- `STOP_LOSS`. -/
  | stopLoss
  /-- `TIME_EXIT`. -/
  | timeExit
  deriving DecidableEq

/-- `reason.value`. -/
def SignalExitReason.value : SignalExitReason → String
  | .target => "TARGET"
  | .stopLoss => "STOP_LOSS"
  | .timeExit => "TIME_EXIT"

/-- `_SQUARE_OFF`, 15:00. -/
def squareOff : ℕ := 54000000000

/-- `SL_PCT`. -/
def slPct : ℚ := 3 / 10

/-- `TGT_PCT`. -/
def tgtPct : ℚ := 1 / 2

/-- `derive_levels`; `none` is its `ValueError`. -/
def deriveLevels (entryPremium : ℚ) : Option (ℚ × ℚ) :=
  if entryPremium ≤ 0 then none else some (entryPremium * (1 - slPct), entryPremium * (1 + tgtPct))

/-- `evaluate`; `none` is HOLD. -/
def evaluate (entry : SignalPaperEntry) (mark : ℚ) (now : Moment) : Option SignalExitReason :=
  if entry.tgtPrice ≤ mark then some .target
  else if mark ≤ entry.slPrice then some .stopLoss
  else if squareOff ≤ now.timeOfDay then some .timeExit
  else none

/-! ### The store -/

/-- The tables of the store and the memory of the process. -/
structure TrackState where
  /-- `paper_trades`. -/
  trades : PaperTrades
  /-- `paper_signal_entries`. -/
  entries : List SignalPaperEntry := []
  /-- `_exit_fired_trade_ids`. -/
  exitFiredTradeIds : List ℕ := []

/-- The row with this id is not CLOSED. -/
def isOpenRow (T : PaperTrades) (id : ℕ) : Bool :=
  T.rows.any fun r => r.id = id && decide (r.trade.state ≠ .closed)

/-- `get_open_signal_entry`: `ORDER BY trade_id DESC LIMIT 1`. -/
def getOpenSignalEntry (s : TrackState) : Option SignalPaperEntry :=
  (s.entries.filter fun e => isOpenRow s.trades e.tradeId).argmax (·.tradeId)

/-- `record_signal_open_leg`: the id of the new row, or of the row with the same key. -/
def recordSignalOpenLeg (T : PaperTrades) (t : PaperTrade) : Option (PaperTrades × ℕ) :=
  if (T.recordTrade t).2 then some ((T.recordTrade t).1, T.nextId)
  else (T.rows.find? fun r => r.trade.uniqueKey = t.uniqueKey).map fun r => (T, r.id)

/-- `open_signal_entry`; `none` if a position is open or the trade id is taken. -/
def openSignalEntry (s : TrackState) (entry : SignalPaperEntry) : Option TrackState :=
  if s.entries.any fun e => isOpenRow s.trades e.tradeId then none
  else if entry.tradeId ∈ s.entries.map (·.tradeId) then none
  else some { s with entries := s.entries ++ [entry] }

/-- The two updates of `close_signal_entry`; `none` if no row has the id. The unique key of
the row names it as its id does. -/
def closeSignalEntry (T : PaperTrades) (tradeId : ℕ) : Option PaperTrades :=
  (T.rows.find? fun r => r.id = tradeId).map fun row =>
    (T.updateState (fun t => t.uniqueKey = row.trade.uniqueKey) .closed).updateState
      (fun t => t.state = .open && PaperTrades.sameLeg row.trade t) .closed

/-! ### The strategy -/

/-- The collaborators of a strategy object. -/
structure SignalConfig where
  /-- The BOD file. -/
  lookup : Option InstrumentLookup := none
  /-- A broker is injected. -/
  hasBroker : Bool := true

/-- The store calls of a tick that raise. -/
structure TickFaults where
  /-- `get_open_signal_entry`. -/
  getOpenEntry : Bool := false
  /-- `get_marks` or `record_mark`. -/
  marks : Bool := false
  /-- `record_trade`. -/
  recordTrade : Bool := false
  /-- `close_signal_entry`. -/
  closeEntry : Bool := false
  deriving DecidableEq

/-- What a tick gets its price from. -/
inductive Quotes where
  /-- `check_signals`: a chain. -/
  | chain (market : OptionChain)
  /-- `check_without_chain`: last prices, none if `get_ltp` raises. -/
  | ltps (ltps : Dict String ℚ)

/-- One tick of the monitor. -/
structure Tick where
  /-- Where the price comes from. -/
  quotes : Quotes
  /-- The clock. -/
  now : Moment
  /-- Failing store calls. -/
  faults : TickFaults := {}

/-- What a tick did. -/
structure TickLog where
  /-- The entry whose exit rules were evaluated. -/
  evaluated : Option SignalPaperEntry := none
  /-- The entry for which a SELL row was inserted. -/
  sold : Option SignalPaperEntry := none
  deriving DecidableEq

/-- `_leg_from_ltp`. -/
def legFromLtp (ltp : ℚ) : OptionLeg := { ltp, bid := ltp, ask := ltp, strike := 0 }

/-- The leg of the open entry, if the tick has a quote for it. -/
def legOf (config : SignalConfig) (quotes : Quotes) (entry : SignalPaperEntry) : Option OptionLeg :=
  match quotes with
  | .chain market => findOptionLeg entry.instrumentKey market config.lookup
  | .ltps ltps =>
    match ltps.get? entry.instrumentKey, ltps.get? niftyKey with
    | some ltp, some _ => if config.hasBroker = false ∨ ltp ≤ 0 then none else some (legFromLtp ltp)
    | _, _ => none

/-- The `mark` of a leg; `none` if `resolve_price` raises or `SignalMark` refuses a negative
price. -/
def markPrice (leg : OptionLeg) : Option ℚ :=
  if 0 ≤ leg.ltp ∧ 0 ≤ leg.bid ∧ 0 ≤ leg.ask then resolvePrice leg else none

/-- The mark of the open entry, if the tick has a valid price for it. -/
def markOf (config : SignalConfig) (quotes : Quotes) (entry : SignalPaperEntry) : Option ℚ :=
  (legOf config quotes entry).bind markPrice

/-- `sell_trade`; `none` is pydantic's `ValidationError`. -/
def sellTrade (entry : SignalPaperEntry) (reason : SignalExitReason) (mark : ℚ) (now : Moment) :
    Option PaperTrade :=
  PaperTrade.validate strategySignalTrack legRole entry.instrumentKey now.date .sell lotSize
    (simulateFill entry.instrumentKey "SELL" lotSize mark entry.entryVix).fillPrice
    ("signal_track_v1 exit (" ++ reason.value ++ ")") none .open

/-- The close after the SELL. -/
def closeAfterSell (s : TrackState) (entry : SignalPaperEntry) (faults : TickFaults) : TrackState :=
  if faults.closeEntry then s
  else
    match closeSignalEntry s.trades entry.tradeId with
    | none => s
    | some T => { s with trades := T }

/-- `_close_position`: the SELL row, then the close of the entry. -/
def closePosition (s : TrackState) (entry : SignalPaperEntry) (reason : SignalExitReason) (mark : ℚ)
    (tick : Tick) :
    TrackState × TickLog :=
  match sellTrade entry reason mark tick.now with
  | none => (s, { evaluated := some entry })
  | some sell =>
    if tick.faults.recordTrade then (s, { evaluated := some entry })
    else
      (closeAfterSell { s with trades := (s.trades.recordTrade sell).1 } entry tick.faults,
        { evaluated := some entry, sold := if (s.trades.recordTrade sell).2 then some entry else none })

/-- `check_signals` and `check_without_chain`. -/
def checkSignals (config : SignalConfig) (s : TrackState) (tick : Tick) : TrackState × TickLog :=
  if tick.faults.getOpenEntry then (s, {})
  else
    match getOpenSignalEntry s with
    | none => (s, {})
    | some entry =>
      if entry.tradeId ∈ s.exitFiredTradeIds then (s, {})
      else
        match markOf config tick.quotes entry with
        | none => (s, {})
        | some mark =>
          if tick.faults.marks then (s, {})
          else
            match evaluate entry mark tick.now with
            | none => (s, { evaluated := some entry })
            | some reason =>
              closePosition { s with exitFiredTradeIds :=
                entry.tradeId :: s.exitFiredTradeIds } entry reason mark tick

/-! ### Entries -/

/-- An actionable signal within the session: its option and the fill that was taken. -/
structure SignalOrder where
  /-- Day of the signal, which is today. -/
  tradeDate : Date
  /-- Resolved option. -/
  instrumentKey : String
  /-- Fill price. -/
  premium : ℚ
  /-- India VIX. -/
  vix : Option ℚ := none
  /-- `record_signal_open_leg` raises. -/
  recordLegFault : Bool := false
  /-- `open_signal_entry` raises. -/
  openEntryFault : Bool := false

/-- `open_signal_paper_entry`, from the point where it has its fill. -/
def openSignalPaperEntry (s : TrackState) (o : SignalOrder) : TrackState :=
  match getOpenSignalEntry s, deriveLevels o.premium,
    PaperTrade.validate strategySignalTrack legRole o.instrumentKey o.tradeDate .buy lotSize o.premium
      "signal_track_v1 entry" none .open with
  | none, some (slPrice, tgtPrice), some trade =>
    if o.recordLegFault then s
    else
      match recordSignalOpenLeg s.trades trade with
      | none => s
      | some (T, tradeId) =>
        if o.openEntryFault then { s with trades := T }
        else
          (openSignalEntry { s with trades := T }
            { tradeId, instrumentKey := trade.instrumentKey, entryVix := o.vix, slPrice, tgtPrice,
              instrumentKey_ne := trade.instrumentKey_ne }).getD { s with trades := T }
  | _, _, _ => s

/-! ### Runs -/

/-- What can happen. -/
inductive Event where
  /-- An entry from the morning signal or the backfill. -/
  | entry (o : SignalOrder)
  /-- A tick of the monitor. -/
  | tick (t : Tick)
  /-- The process restarts. -/
  | restart

/-- One event: the state after it and what a tick did. -/
def step (config : SignalConfig) (s : TrackState) : Event → TrackState × TickLog
  | .entry o => (openSignalPaperEntry s o, {})
  | .tick t => checkSignals config s t
  | .restart => ({ s with exitFiredTradeIds := [] }, {})

/-! ### Open rows -/

theorem isOpenRow_iff {T : PaperTrades} {id : ℕ} :
    isOpenRow T id = true ↔ ∃ r ∈ T.rows, r.id = id ∧ r.trade.state ≠ .closed := by
  simp [isOpenRow]

/-- An insert opens no row that was there. -/
theorem isOpenRow_recordTrade {T : PaperTrades} {t : PaperTrade} {id : ℕ} (hid : id < T.nextId) :
    isOpenRow (T.recordTrade t).1 id = isOpenRow T id := by
  cases hkey : T.hasKey t.uniqueKey with
  | true => rw [PaperTrades.recordTrade_duplicate hkey]
  | false =>
    have hne : ¬T.nextId = id := by omega
    rw [isOpenRow, (PaperTrades.recordTrade_fresh hkey).2, List.any_append]
    simp [isOpenRow, hne]

/-- A row that is open after closing some was open before, and is not one of them. -/
theorem isOpenRow_updateState {T : PaperTrades} {p : PaperTrade → Bool} {id : ℕ}
    (h : isOpenRow (T.updateState p .closed) id = true) :
    ∃ r ∈ T.rows, r.id = id ∧ r.trade.state ≠ .closed ∧ p r.trade = false := by
  obtain ⟨r', hr', hid, hstate⟩ := isOpenRow_iff.mp h
  rw [PaperTrades.rows_updateState] at hr'
  obtain ⟨r, hr, rfl⟩ := List.mem_map.mp hr'
  cases hp : p r.trade with
  | true =>
    rw [hp, if_pos rfl] at hstate
    exact absurd rfl hstate
  | false =>
    rw [hp, if_neg Bool.false_ne_true] at hid hstate
    exact ⟨r, hr, hid, hstate, hp⟩

/-- Two rows with one id are one row. -/
theorem row_injOn {T : PaperTrades} {r r' : TradeRow} (hr : r ∈ T.rows) (hr' : r' ∈ T.rows)
    (h : r.id = r'.id) : r = r' := by
  have hnd : (T.rows.map (·.id)).Nodup := List.pairwise_map.mpr (T.ids_increasing.imp fun hlt => hlt.ne)
  exact List.inj_on_of_nodup_map hnd hr hr' h

/-- **What `close_signal_entry` does**: the entry's row is closed, no row is opened, and the
quantities, keys and ids are as they were. -/
theorem closeSignalEntry_spec {T T' : PaperTrades} {id : ℕ} (h : closeSignalEntry T id = some T') :
    isOpenRow T' id = false ∧ (∀ id', isOpenRow T' id' = true → isOpenRow T id' = true) ∧
      (∀ s k, T'.netQty s k = T.netQty s k) ∧ T'.nextId = T.nextId ∧ (∀ k, T'.hasKey k = T.hasKey k) ∧
      T'.rows.map (fun r => (r.id, r.trade.uniqueKey)) = T.rows.map fun r => (r.id, r.trade.uniqueKey) := by
  obtain ⟨row, hrow, rfl⟩ := Option.map_eq_some_iff.mp h
  have hmem := List.mem_of_find?_eq_some hrow
  have hid : row.id = id := by simpa using List.find?_some hrow
  refine ⟨?_, fun id' hopen => ?_, fun s k => ?_, rfl, fun k => ?_, ?_⟩
  · by_contra hopen
    obtain ⟨r, hr, hrid, hstate, -⟩ := isOpenRow_updateState (Bool.not_eq_false _ ▸ hopen)
    obtain ⟨r₀, hr₀, hid₀, -, hp⟩ := isOpenRow_updateState (isOpenRow_iff.mpr ⟨r, hr, hrid, hstate⟩)
    obtain rfl := row_injOn hr₀ hmem (hid₀.trans hid.symm)
    exact absurd hp (by simp)
  · obtain ⟨r, hr, hrid, hstate, -⟩ := isOpenRow_updateState hopen
    obtain ⟨r₀, hr₀, hid₀, hstate₀, -⟩ := isOpenRow_updateState (isOpenRow_iff.mpr ⟨r, hr, hrid, hstate⟩)
    exact isOpenRow_iff.mpr ⟨r₀, hr₀, hid₀, hstate₀⟩
  · rw [PaperTrades.netQty_updateState, PaperTrades.netQty_updateState]
  · rw [PaperTrades.hasKey_updateState, PaperTrades.hasKey_updateState]
  · rw [PaperTrades.rows_updateState, PaperTrades.rows_updateState, List.map_map, List.map_map]
    refine List.map_congr_left fun r _ => ?_
    simp only [Function.comp]
    split <;> split <;> rfl

/-! ### How a tick ends -/

/-- The SELL of an entry always validates. -/
theorem sellTrade_eq_some (entry : SignalPaperEntry) (reason : SignalExitReason) (mark : ℚ) (now : Moment) :
    ∃ sell, sellTrade entry reason mark now = some sell ∧
      sell.uniqueKey = ⟨strategySignalTrack, legRole, entry.instrumentKey, now.date, .sell⟩ ∧
        sell.quantity = lotSize := by
  have hprice : 0 < (simulateFill entry.instrumentKey "SELL" lotSize mark entry.entryVix).fillPrice :=
    lt_of_lt_of_le (by norm_num : (0 : ℚ) < 1 / 100) (le_max_right _ _)
  have hvalid : hasPaperPrefix strategySignalTrack = true ∧ legRole ≠ "" ∧ entry.instrumentKey ≠ "" ∧
      0 < ((lotSize : ℕ) : ℤ).toNat ∧ 0 <
        (simulateFill entry.instrumentKey "SELL" lotSize mark entry.entryVix).fillPrice :=
    ⟨by decide, by decide, entry.instrumentKey_ne, by decide, hprice⟩
  rw [sellTrade, PaperTrade.validate, dif_pos hvalid]
  exact ⟨_, rfl, rfl, rfl⟩

/-- The unique key of the SELL of an entry. -/
def sellKey (entry : SignalPaperEntry) (date : Date) : PaperTrade.UniqueKey :=
  ⟨strategySignalTrack, legRole, entry.instrumentKey, date, .sell⟩

/-- The entry whose exit rules fire at a tick. -/
def firesFor (config : SignalConfig) (s : TrackState) (tick : Tick) : Option SignalPaperEntry :=
  if tick.faults.getOpenEntry then none
  else
    (getOpenSignalEntry s).bind fun entry =>
      if entry.tradeId ∈ s.exitFiredTradeIds ∨ tick.faults.marks = true then none
      else ((markOf config tick.quotes entry).bind fun mark =>
        evaluate entry mark tick.now).map fun _ => entry

/-- **The four ways a tick ends**: nothing is written, the exit having not fired; the exit
fires and `record_trade` raises; the SELL is recorded and the close raises; both are done. -/
theorem tick_cases (config : SignalConfig) (s : TrackState) (tick : Tick) :
    (firesFor config s tick = none ∧ (checkSignals config s tick).1 = s ∧
      (checkSignals config s tick).2.sold = none) ∨
      ∃ entry sell, firesFor config s tick = some entry ∧ getOpenSignalEntry s = some entry ∧
        entry.tradeId ∉ s.exitFiredTradeIds ∧ sell.uniqueKey = sellKey entry tick.now.date ∧
          sell.quantity = lotSize ∧
        ((tick.faults.recordTrade = true ∧
            (checkSignals config s tick).1 =
              { s with exitFiredTradeIds := entry.tradeId :: s.exitFiredTradeIds } ∧
            (checkSignals config s tick).2.sold = none) ∨
          (tick.faults.recordTrade = false ∧
            (checkSignals config s tick).1 =
              closeAfterSell { s with
                exitFiredTradeIds := entry.tradeId :: s.exitFiredTradeIds
                trades := (s.trades.recordTrade sell).1 } entry tick.faults ∧
            (checkSignals config s tick).2.sold = if (s.trades.recordTrade sell).2 then some entry
              else none)) := by
  unfold checkSignals firesFor
  cases hget : tick.faults.getOpenEntry with
  | true => exact Or.inl ⟨rfl, rfl, rfl⟩
  | false =>
    rw [if_neg Bool.false_ne_true, if_neg Bool.false_ne_true]
    cases hopen : getOpenSignalEntry s with
    | none => exact Or.inl ⟨rfl, rfl, rfl⟩
    | some entry =>
      simp only [Option.bind_some]
      by_cases hfired : entry.tradeId ∈ s.exitFiredTradeIds
      · exact Or.inl (by simp [hfired])
      · cases hmark : markOf config tick.quotes entry with
        | none => exact Or.inl (by simp [hfired])
        | some mark =>
          cases hmarks : tick.faults.marks with
          | true => exact Or.inl (by simp [hfired])
          | false =>
            cases hexit : evaluate entry mark tick.now with
            | none => exact Or.inl (by simp [hfired, hexit])
            | some reason =>
              obtain ⟨sell, hsell, hkey, hqty⟩ := sellTrade_eq_some entry reason mark tick.now
              refine Or.inr ⟨entry, sell, by simp [hfired, hexit], rfl, hfired, hkey, hqty, ?_⟩
              simp only [if_neg hfired, Bool.false_eq_true, if_false, hexit, closePosition, hsell]
              cases hfault : tick.faults.recordTrade with
              | true => exact Or.inl ⟨rfl, rfl, rfl⟩
              | false => exact Or.inr ⟨rfl, rfl, rfl⟩

/-! ### What every run keeps -/

/-- The ids and unique keys of the rows. -/
def idKeys (T : PaperTrades) : List (ℕ × PaperTrade.UniqueKey) :=
  T.rows.map fun r => (r.id, r.trade.uniqueKey)

theorem idKeys_recordTrade (T : PaperTrades) (t : PaperTrade) :
    idKeys (T.recordTrade t).1 = idKeys T ++ if T.hasKey t.uniqueKey then []
      else [(T.nextId, t.uniqueKey)] := by
  unfold idKeys
  cases hkey : T.hasKey t.uniqueKey with
  | true => rw [PaperTrades.recordTrade_duplicate hkey, if_pos rfl, List.append_nil]
  | false =>
    rw [(PaperTrades.recordTrade_fresh hkey).2, List.map_append, if_neg Bool.false_ne_true]
    rfl

theorem lt_nextId_of_mem_idKeys {T : PaperTrades} {x : ℕ × PaperTrade.UniqueKey}
    (h : x ∈ idKeys T) : x.1 < T.nextId := by
  obtain ⟨r, hr, rfl⟩ := List.mem_map.mp h
  exact T.ids_lt r hr

/-- The BUY key of an entry's leg on a day. -/
def buyKey (instrumentKey : String) (date : Date) : PaperTrade.UniqueKey :=
  ⟨strategySignalTrack, legRole, instrumentKey, date, .buy⟩

/-- What holds in every state of a run: each entry has its BUY row, no two share one, fired
exits are of entries, and at most one entry is open. -/
structure Consistent (s : TrackState) : Prop where
  /-- The BUY row of an entry. -/
  bought : ∀ e ∈ s.entries, ∃ d, (e.tradeId, buyKey e.instrumentKey d) ∈ idKeys s.trades
  /-- The primary key of `paper_signal_entries`. -/
  ids : (s.entries.map (·.tradeId)).Nodup
  /-- Only exits of entries fire. -/
  fired : ∀ id ∈ s.exitFiredTradeIds, id ∈ s.entries.map (·.tradeId)
  /-- One position at a time. -/
  one : ∀ e ∈ s.entries, ∀ e' ∈ s.entries, isOpenRow s.trades e.tradeId = true →
    isOpenRow s.trades e'.tradeId = true → e = e'

/-- The open entry is the entry whose row is not closed. -/
theorem getOpenSignalEntry_eq_some_iff {s : TrackState} (hs : Consistent s) {e : SignalPaperEntry} :
    getOpenSignalEntry s = some e ↔ e ∈ s.entries ∧ isOpenRow s.trades e.tradeId = true := by
  constructor
  · intro h
    simpa using List.mem_filter.mp (List.argmax_mem h)
  · rintro ⟨he, hopen⟩
    cases h : getOpenSignalEntry s with
    | none =>
      have hmem : e ∈ s.entries.filter fun e => isOpenRow s.trades e.tradeId :=
        List.mem_filter.mpr ⟨he, by simpa using hopen⟩
      rw [List.argmax_eq_none.mp h] at hmem
      exact absurd hmem (by simp)
    | some e' =>
      obtain ⟨he', hopen'⟩ : e' ∈ s.entries ∧ isOpenRow s.trades e'.tradeId = true := by
        simpa using List.mem_filter.mp (List.argmax_mem h)
      rw [hs.one e he e' he' hopen hopen']

/-- A ledger that grew by one recorded trade. -/
private theorem Consistent.record {s : TrackState} (hs : Consistent s) (t : PaperTrade) :
    Consistent { s with trades := (s.trades.recordTrade t).1 } ∧
      ∀ e ∈ s.entries, isOpenRow (s.trades.recordTrade t).1 e.tradeId = isOpenRow s.trades e.tradeId := by
  have hsame : ∀ e ∈ s.entries, isOpenRow (s.trades.recordTrade t).1 e.tradeId =
      isOpenRow s.trades e.tradeId := fun e he => by
    obtain ⟨d, hd⟩ := hs.bought e he
    exact isOpenRow_recordTrade (lt_nextId_of_mem_idKeys hd)
  refine ⟨⟨fun e he => ?_, hs.ids, hs.fired, fun e he e' he' hopen hopen' => ?_⟩, hsame⟩
  · obtain ⟨d, hd⟩ := hs.bought e he
    refine ⟨d, ?_⟩
    rw [idKeys_recordTrade]
    exact List.mem_append_left _ hd
  · rw [hsame e he] at hopen
    rw [hsame e' he'] at hopen'
    exact hs.one e he e' he' hopen hopen'

/-- A ledger after the close of an entry. -/
private theorem Consistent.close {s : TrackState} (hs : Consistent s) {T : PaperTrades} {id : ℕ}
    (h : closeSignalEntry s.trades id = some T) : Consistent { s with trades := T } := by
  obtain ⟨-, hopen, -, -, -, hkeys⟩ := closeSignalEntry_spec h
  refine ⟨fun e he => ?_, hs.ids, hs.fired, fun e he e' he' ho ho' => ?_⟩
  · obtain ⟨d, hd⟩ := hs.bought e he
    refine ⟨d, ?_⟩
    rw [idKeys, hkeys]
    exact hd
  · exact hs.one e he e' he' (hopen _ ho) (hopen _ ho')

private theorem Consistent.fire {s : TrackState} (hs : Consistent s) {e : SignalPaperEntry}
    (he : e ∈ s.entries) :
    Consistent { s with exitFiredTradeIds := e.tradeId :: s.exitFiredTradeIds } := by
  refine ⟨hs.bought, hs.ids, fun id hid => ?_, hs.one⟩
  rcases List.mem_cons.mp hid with rfl | hid
  · exact List.mem_map_of_mem he
  · exact hs.fired id hid

theorem recordSignalOpenLeg_spec {T T' : PaperTrades} {t : PaperTrade} {id : ℕ}
    (h : recordSignalOpenLeg T t = some (T', id)) :
      T' = (T.recordTrade t).1 ∧ (id, t.uniqueKey) ∈ idKeys T' := by
  unfold recordSignalOpenLeg at h
  cases hkey : T.hasKey t.uniqueKey with
  | true =>
    rw [PaperTrades.recordTrade_duplicate hkey, if_neg Bool.false_ne_true] at h
    obtain ⟨r, hr, hrT⟩ := Option.map_eq_some_iff.mp h
    obtain ⟨rfl, rfl⟩ := Prod.mk.inj hrT
    refine ⟨by rw [PaperTrades.recordTrade_duplicate hkey],
      List.mem_map.mpr ⟨r, List.mem_of_find?_eq_some hr, ?_⟩⟩
    have hrk : r.trade.uniqueKey = t.uniqueKey := by simpa using List.find?_some hr
    rw [hrk]
  | false =>
    rw [if_pos (PaperTrades.recordTrade_fresh hkey).1] at h
    obtain ⟨rfl, rfl⟩ := Prod.mk.inj (Option.some.inj h)
    refine ⟨rfl, ?_⟩
    rw [idKeys_recordTrade, hkey]
    simp

/-- **The three ways an entry ends**: nothing is written; the BUY is recorded only; the
entry is opened on its BUY row. -/
theorem openSignalPaperEntry_cases (s : TrackState) (o : SignalOrder) :
    openSignalPaperEntry s o = s ∨
      ∃ buy, buy.uniqueKey = buyKey o.instrumentKey o.tradeDate ∧ buy.quantity = lotSize ∧
        (openSignalPaperEntry s o = { s with trades := (s.trades.recordTrade buy).1 } ∨
          ∃ e : SignalPaperEntry, e.instrumentKey = o.instrumentKey ∧
            (e.tradeId, buy.uniqueKey) ∈ idKeys (s.trades.recordTrade buy).1 ∧
            (∀ e' ∈ s.entries, isOpenRow (s.trades.recordTrade buy).1 e'.tradeId = false) ∧
            e.tradeId ∉ s.entries.map (·.tradeId) ∧
            openSignalPaperEntry s o = { s with trades := (s.trades.recordTrade buy).1, entries :=
              s.entries ++ [e] }) := by
  unfold openSignalPaperEntry
  split
  next slPrice tgtPrice trade _ _ hvalid =>
    obtain ⟨hkey, hqty⟩ := validate_eq_some hvalid
    split
    next => exact Or.inl rfl
    next =>
      split
      next => exact Or.inl rfl
      next T tradeId hrec =>
        obtain ⟨rfl, hid⟩ := recordSignalOpenLeg_spec hrec
        refine Or.inr ⟨trade, hkey, by exact_mod_cast hqty, ?_⟩
        split
        next => exact Or.inl rfl
        next =>
          unfold openSignalEntry
          split
          next => exact Or.inl rfl
          next hnone =>
            split
            next => exact Or.inl rfl
            next hfree =>
              have hclosed : ∀ e' ∈ s.entries, isOpenRow (s.trades.recordTrade trade).1 e'.tradeId =
                  false := by
                simpa using hnone
              have hinst : trade.instrumentKey = o.instrumentKey :=
                congrArg PaperTrade.UniqueKey.instrumentKey hkey
              exact Or.inr ⟨_, hinst, hid, hclosed, hfree, rfl⟩
  next => exact Or.inl rfl

/-- The close after a SELL, whether it raises or not. -/
private theorem Consistent.closeAfterSell {s : TrackState} (hs : Consistent s)
    (e : SignalPaperEntry) (faults : TickFaults) :
    Consistent (closeAfterSell s e faults) := by
  unfold SignalTrack.closeAfterSell
  split
  next => exact hs
  next =>
    split
    next => exact hs
    next T hclose => exact hs.close hclose

/-- **Every event keeps the tables consistent.** -/
theorem Consistent.step (config : SignalConfig) {s : TrackState} (hs : Consistent s) (ev : Event) :
    Consistent (step config s ev).1 := by
  cases ev with
  | entry o =>
    rw [SignalTrack.step]
    rcases openSignalPaperEntry_cases s o with h | ⟨buy, hkey, -, h | ⟨e, hinst, hid, hclosed, hfree, h⟩⟩
    · rw [h]
      exact hs
    · rw [h]
      exact (hs.record buy).1
    · rw [h]
      obtain ⟨hrec, hopen⟩ := hs.record buy
      refine ⟨fun e' he' => ?_, ?_, fun id hfired => ?_, fun e₁ he₁ e₂ he₂ ho₁ ho₂ => ?_⟩
      · rcases List.mem_append.mp he' with he' | he'
        · exact hrec.bought e' he'
        · obtain rfl := List.mem_singleton.mp he'
          rw [hkey, ← hinst] at hid
          exact ⟨o.tradeDate, hid⟩
      · rw [List.map_append]
        refine List.nodup_append.mpr ⟨hs.ids, List.nodup_singleton _, fun id hid₁ id' hid₂ heq => ?_⟩
        rw [List.map_singleton, List.mem_singleton] at hid₂
        rw [heq, hid₂] at hid₁
        exact hfree hid₁
      · rw [List.map_append]
        exact List.mem_append_left _ (hs.fired id hfired)
      · -- an entry is opened only when none is open
        have hnew : ∀ e' ∈ s.entries ++ [e], isOpenRow (s.trades.recordTrade buy).1 e'.tradeId =
            true → e' = e := by
          intro e' he' ho
          rcases List.mem_append.mp he' with he' | he'
          · exact absurd (ho.symm.trans (hclosed e' he')) (by decide)
          · exact List.mem_singleton.mp he'
        rw [hnew e₁ he₁ ho₁, hnew e₂ he₂ ho₂]
  | tick t =>
    rw [SignalTrack.step]
    rcases tick_cases config s t with ⟨-, h, -⟩ | ⟨e, sell, -, hget, -, -, -, hcase⟩
    · rw [h]
      exact hs
    · obtain ⟨he, -⟩ := (getOpenSignalEntry_eq_some_iff hs).mp hget
      rcases hcase with ⟨-, h, -⟩ | ⟨-, h, -⟩
      · rw [h]
        exact hs.fire he
      · rw [h]
        exact ((hs.fire he).record sell).1.closeAfterSell e t.faults
  | restart => exact ⟨hs.bought, hs.ids, fun id hid => absurd hid (by simp [SignalTrack.step]), hs.one⟩

/-! ### Entries stay managed -/

/-- A tick that reads the store and has a price for the open entry evaluates its exit
rules, and no open entry is one whose exit has fired. -/
def Managed (config : SignalConfig) (s : TrackState) : Prop :=
  ∀ e, getOpenSignalEntry s = some e →
    (∀ t : Tick, t.faults.getOpenEntry = false → t.faults.marks = false →
      (markOf config t.quotes e).isSome = true →
      (checkSignals config s t).2.evaluated = some e) ∧
    e.tradeId ∉ s.exitFiredTradeIds

theorem managed_iff {config : SignalConfig} {s : TrackState} :
    Managed config s ↔ ∀ e, getOpenSignalEntry s = some e → e.tradeId ∉ s.exitFiredTradeIds := by
  refine ⟨fun h e he => (h e he).2, fun h e he => ⟨fun t hget hmarks hprice => ?_, h e he⟩⟩
  obtain ⟨mark, hmark⟩ := Option.isSome_iff_exists.mp hprice
  unfold checkSignals
  rw [hget, he, hmarks]
  simp only [Bool.false_eq_true, if_false, if_neg (h e he), hmark]
  cases hexit : evaluate e mark t.now with
  | none => rfl
  | some reason =>
    obtain ⟨sell, hsell, -⟩ := sellTrade_eq_some e reason mark t.now
    simp only [closePosition, hsell]
    split <;> rfl

/-- No exit that fires at the event loses one of its two writes. -/
def ExitPersists (config : SignalConfig) (s : TrackState) : Event → Prop
  | .tick t => ∀ e, firesFor config s t = some e → t.faults.recordTrade = false ∧
    t.faults.closeEntry = false
  | _ => True

/-- An open entry whose exit has fired is not managed. -/
private theorem not_managed {config : SignalConfig} {s : TrackState} (hs : Consistent s)
    {e : SignalPaperEntry}
    (he : e ∈ s.entries) (hopen : isOpenRow s.trades e.tradeId = true)
    (hfired : e.tradeId ∈ s.exitFiredTradeIds) :
    ¬Managed config s := fun h => (h e ((getOpenSignalEntry_eq_some_iff hs).mpr ⟨he, hopen⟩)).2 hfired

/-- One event keeps entries managed exactly when it loses no write of an exit. -/
theorem managed_step_iff (config : SignalConfig) (s : TrackState) (ev : Event) (hs : Consistent s)
    (hm : Managed config s) :
    Managed config (step config s ev).1 ↔ ExitPersists config s ev := by
  have hstep := hs.step config ev
  rw [managed_iff] at hm
  cases ev with
  | entry o =>
    refine iff_of_true (managed_iff.mpr fun e he hfired => ?_) trivial
    obtain ⟨hmem, hopen⟩ := (getOpenSignalEntry_eq_some_iff hstep).mp he
    rw [SignalTrack.step] at hmem hopen hfired
    rcases openSignalPaperEntry_cases s o with h | ⟨buy, hkey, -, h | ⟨e', hinst, hid, hclosed, hfree, h⟩⟩
    · rw [h] at hmem hopen hfired
      exact hm e ((getOpenSignalEntry_eq_some_iff hs).mpr ⟨hmem, hopen⟩) hfired
    · rw [h] at hmem hopen hfired
      rw [(hs.record buy).2 e hmem] at hopen
      exact hm e ((getOpenSignalEntry_eq_some_iff hs).mpr ⟨hmem, hopen⟩) hfired
    · rw [h] at hmem hopen hfired
      rcases List.mem_append.mp hmem with hmem | hmem
      · exact absurd (hopen.symm.trans (hclosed e hmem)) (by decide)
      · obtain rfl := List.mem_singleton.mp hmem
        exact hfree (hs.fired _ hfired)
  | tick t =>
    rw [SignalTrack.step] at hstep ⊢
    rcases tick_cases config s t with ⟨hnone, h, -⟩ | ⟨e, sell, hfires, hget, -, -, -, hcase⟩
    · rw [h]
      refine iff_of_true (managed_iff.mpr hm) fun e he => ?_
      rw [hnone] at he
      exact absurd he (by simp)
    · obtain ⟨hmem, hopen⟩ := (getOpenSignalEntry_eq_some_iff hs).mp hget
      obtain ⟨hrec, hsame⟩ := (hs.fire hmem).record sell
      have hpersists : ExitPersists config s (.tick t) ↔ t.faults.recordTrade = false ∧
          t.faults.closeEntry = false := by
        simp [ExitPersists, hfires]
      rw [hpersists]
      rcases hcase with ⟨hfault, h, -⟩ | ⟨hfault, h, -⟩
      · -- the SELL was not recorded: the entry is open, and its exit has fired
        rw [h] at hstep ⊢
        refine iff_of_false (not_managed hstep hmem hopen (List.mem_cons_self)) ?_
        rw [hfault]
        simp
      · rw [h] at hstep ⊢
        cases hclose : t.faults.closeEntry with
        | true =>
          have hstate : closeAfterSell { s with
              exitFiredTradeIds := e.tradeId :: s.exitFiredTradeIds
              trades := (s.trades.recordTrade sell).1 } e t.faults = { s with
              exitFiredTradeIds := e.tradeId :: s.exitFiredTradeIds
              trades := (s.trades.recordTrade sell).1 } := by
            rw [closeAfterSell, if_pos hclose]
          rw [hstate] at hstep ⊢
          refine iff_of_false (not_managed hstep hmem ?_ (List.mem_cons_self)) (by simp)
          rw [hsame e hmem]
          exact hopen
        | false =>
          refine iff_of_true (managed_iff.mpr fun e' he' _ => ?_) ⟨hfault, rfl⟩
          obtain ⟨d, hd⟩ := hrec.bought e hmem
          obtain ⟨r, hr, hrid⟩ := List.mem_map.mp hd
          obtain ⟨T, hT⟩ : ∃ T, closeSignalEntry (s.trades.recordTrade sell).1 e.tradeId = some T := by
            rw [← Option.isSome_iff_exists, closeSignalEntry, Option.isSome_map, List.find?_isSome]
            exact ⟨r, hr, by simpa using congrArg Prod.fst hrid⟩
          have hstate : closeAfterSell { s with
              exitFiredTradeIds := e.tradeId :: s.exitFiredTradeIds
              trades := (s.trades.recordTrade sell).1 } e t.faults = { s with
              exitFiredTradeIds := e.tradeId :: s.exitFiredTradeIds
              trades := T } := by
            rw [closeAfterSell, hclose, if_neg Bool.false_ne_true]
            simp only [hT]
          rw [hstate] at hstep he'
          -- the only entry that was open is the one just closed
          obtain ⟨hclosed, hback, -⟩ := closeSignalEntry_spec hT
          obtain ⟨hmem', hopen'⟩ := (getOpenSignalEntry_eq_some_iff hstep).mp he'
          have hopen₀ : isOpenRow s.trades e'.tradeId = true := by
            rw [← hsame e' hmem']
            exact hback _ hopen'
          obtain rfl := hs.one e' hmem' e hmem hopen₀ hopen
          exact absurd (hopen'.symm.trans hclosed) (by decide)
  | restart =>
    refine iff_of_true (managed_iff.mpr fun e _ hfired => ?_) trivial
    exact absurd hfired (by simp [SignalTrack.step])

/-- The store before the first signal. -/
def initial (T : PaperTrades) : TrackState := { trades := T }

theorem consistent_initial (T : PaperTrades) : Consistent (initial T) :=
  ⟨by simp [initial], by simp [initial], by simp [initial], by simp [initial]⟩

/-- **Entries stay managed** throughout a run exactly when no exit that fires loses one of
its two writes. -/
theorem managed_run_iff (config : SignalConfig) (T : PaperTrades) (evs : List Event) :
    Run.Along (fun s ev => (step config s ev).1) (Managed config) (initial T) evs ↔
      Run.EachStep (fun s ev => (step config s ev).1) (ExitPersists config) (initial T) evs := by
  refine Run.along_iff_eachStep (I := Consistent) (fun s ev hs => hs.step config ev)
    (fun s ev hs hm => managed_step_iff config s ev hs hm) (consistent_initial T) ?_
  exact managed_iff.mpr fun e he => absurd he (by simp [initial, getOpenSignalEntry])

/-! ### Entries are sold once -/

/-- One event on a state and the entries sold so far. -/
def stepSold (config : SignalConfig) (x : TrackState × List SignalPaperEntry) (ev : Event) :
    TrackState × List SignalPaperEntry :=
  ((step config x.1 ev).1, x.2 ++ (step config x.1 ev).2.sold.toList)

/-- The signal leg of an option. -/
def signalLeg (instrumentKey : String) : String × String := (legRole, instrumentKey)

/-- No entry is sold twice and no leg is short. -/
def SoldOnce (x : TrackState × List SignalPaperEntry) : Prop :=
  x.2.Nodup ∧ ∀ i, 0 ≤ x.1.trades.netQty strategySignalTrack (signalLeg i)

/-- An exit that fires for an entry sold before finds a SELL of its leg of today, or
`record_trade` raises. -/
def RetryIsDuplicate (config : SignalConfig) (x : TrackState × List SignalPaperEntry) : Event → Prop
  | .tick t => ∀ e, firesFor config x.1 t = some e → e ∈ x.2 →
      t.faults.recordTrade = true ∨ x.1.trades.hasKey (sellKey e t.now.date) = true
  | _ => True

/-- The BUY rows of a leg. -/
def buys (T : PaperTrades) (i : String) : List (ℕ × PaperTrade.UniqueKey) :=
  (idKeys T).filter fun x => x.2 = buyKey i x.2.tradeDate

/-- The entries of a leg. -/
def ofInstrument (i : String) (es : List SignalPaperEntry) : List SignalPaperEntry :=
  es.filter fun e => e.instrumentKey = i

/-- What a run keeps of the quantities: the entries sold are entries, and the net of a leg
is a lot for each BUY row less a lot for each entry sold. -/
structure Balanced (x : TrackState × List SignalPaperEntry) : Prop where
  /-- The tables are consistent. -/
  consistent : Consistent x.1
  /-- Only entries are sold. -/
  sold : ∀ e ∈ x.2, e ∈ x.1.entries
  /-- The net of a leg. -/
  net : ∀ i, x.1.trades.netQty strategySignalTrack (signalLeg i) + lotSize * (ofInstrument i x.2).length =
    lotSize * (buys x.1.trades i).length

/-- The units of one lot in a direction. -/
def lotUnits : TradeAction → ℤ
  | .buy => lotSize
  | .sell => -lotSize

/-- What one recorded lot of a signal leg changes. -/
private theorem record_lot {T : PaperTrades} {t : PaperTrade} {key : String} {d : Date} {a : TradeAction}
    (hkey : t.uniqueKey = ⟨strategySignalTrack, legRole, key, d, a⟩) (hqty : t.quantity = lotSize)
    (hfree : T.hasKey t.uniqueKey = false) (i : String) :
    (T.recordTrade t).1.netQty strategySignalTrack (signalLeg i) =
        T.netQty strategySignalTrack (signalLeg i) + (if key = i then lotUnits a else 0) ∧
      ((buys (T.recordTrade t).1 i).length : ℤ) =
        (buys T i).length + if key = i ∧ a = .buy then 1 else 0 := by
  obtain ⟨hname, hrole, hinst, hdate, haction⟩ := PaperTrade.UniqueKey.mk.inj hkey
  constructor
  · rw [PaperTrades.netQty_recordTrade hfree]
    congr 1
    have hpair : PaperTrades.inPair strategySignalTrack (signalLeg i) t = decide (key = i) := by
      simp only [PaperTrades.inPair, PaperTrade.legInstrument, hname, hrole, hinst, signalLeg,
        Prod.mk.injEq, true_and,
        decide_true, Bool.true_and]
    have hunits : t.signedQty = lotUnits a := by
      rw [PaperTrade.signedQty, haction]
      cases a with
      | buy => exact congrArg Nat.cast hqty
      | sell => exact congrArg (fun n : ℕ => -(n : ℤ)) hqty
    rw [hpair, hunits]
    simp only [decide_eq_true_eq]
  · have hmem : t.uniqueKey = buyKey i t.uniqueKey.tradeDate ↔ key = i ∧ a = .buy := by
      rw [hkey]
      simp [buyKey]
    rw [buys, idKeys_recordTrade, hfree, if_neg Bool.false_ne_true, List.filter_append,
      List.length_append, ← buys]
    by_cases h : key = i ∧ a = .buy
    · simp [h, hmem]
    · simp [h, hmem]

/-- With no entry sold twice, no leg is short: each entry has a BUY row of its own. -/
theorem Balanced.nonneg {x : TrackState × List SignalPaperEntry} (hx : Balanced x) (hnd : x.2.Nodup)
    (i : String) :
    0 ≤ x.1.trades.netQty strategySignalTrack (signalLeg i) := by
  have hsold : (ofInstrument i x.2).length ≤ (ofInstrument i x.1.entries).length := by
    refine (List.subperm_of_subset (hnd.filter _) fun e he => ?_).length_le
    obtain ⟨he, hi⟩ := List.mem_filter.mp he
    exact List.mem_filter.mpr ⟨hx.sold e he, hi⟩
  have hentries : (ofInstrument i x.1.entries).length ≤ (buys x.1.trades i).length := by
    have hids : ((ofInstrument i x.1.entries).map (·.tradeId)).Nodup :=
      hx.consistent.ids.sublist (List.filter_sublist.map _)
    have hsub : (ofInstrument i x.1.entries).map (·.tradeId) ⊆ (buys x.1.trades i).map (·.1) := by
      intro id hid
      obtain ⟨e, he, rfl⟩ := List.mem_map.mp hid
      obtain ⟨he, hi⟩ := List.mem_filter.mp he
      obtain ⟨d, hd⟩ := hx.consistent.bought e he
      rw [of_decide_eq_true hi] at hd
      exact List.mem_map.mpr ⟨_, List.mem_filter.mpr ⟨hd, by simp [buyKey]⟩, rfl⟩
    simpa using (List.subperm_of_subset hids hsub).length_le
  have hnet := hx.net i
  have hlot : (lotSize : ℤ) = 65 := rfl
  rw [hlot] at hnet
  omega

/-- The close after a SELL moves no quantity. -/
private theorem closeAfterSell_same (s : TrackState) (e : SignalPaperEntry) (faults : TickFaults)
    (i : String) :
    (closeAfterSell s e faults).trades.netQty strategySignalTrack (signalLeg i) =
        s.trades.netQty strategySignalTrack (signalLeg i) ∧
      buys (closeAfterSell s e faults).trades i = buys s.trades i ∧
        (closeAfterSell s e faults).entries = s.entries := by
  unfold closeAfterSell
  split
  next => exact ⟨rfl, rfl, rfl⟩
  next =>
    split
    next => exact ⟨rfl, rfl, rfl⟩
    next T hT =>
      obtain ⟨-, -, hnet, -, -, hkeys⟩ := closeSignalEntry_spec hT
      refine ⟨hnet _ _, ?_, rfl⟩
      simp only [buys, idKeys, hkeys]

/-- **Every event keeps the quantities balanced.** -/
theorem Balanced.step (config : SignalConfig) {x : TrackState × List SignalPaperEntry}
    (hx : Balanced x) (ev : Event) :
    Balanced (stepSold config x ev) := by
  obtain ⟨s, sold⟩ := x
  have hcons := hx.consistent.step config ev
  -- a recorded BUY adds a lot to its leg and a BUY row, or is a duplicate
  have hbuy : ∀ (buy : PaperTrade) (key : String) (d : Date), buy.uniqueKey = buyKey key d →
    buy.quantity = lotSize →
      ∀ i, (s.trades.recordTrade buy).1.netQty strategySignalTrack (signalLeg i) + lotSize *
        (ofInstrument i sold).length =
        lotSize * (buys (s.trades.recordTrade buy).1 i).length := by
    intro buy key d hkey hqty i
    cases htaken : s.trades.hasKey buy.uniqueKey with
    | true =>
      rw [PaperTrades.recordTrade_duplicate htaken]
      exact hx.net i
    | false =>
      obtain ⟨hnet, hbuys⟩ := record_lot hkey hqty htaken i
      rw [hnet, hbuys, mul_add, ← hx.net i]
      by_cases hi : key = i
      · simp only [hi, if_pos, and_self, lotUnits]
        ring
      · simp [hi]
  cases ev with
  | entry o =>
    rw [SignalTrack.step] at hcons
    rw [stepSold, SignalTrack.step]
    simp only [Option.toList_none, List.append_nil]
    rcases openSignalPaperEntry_cases s o with h | ⟨buy, hkey, hqty, h | ⟨e, hinst, hid, hclosed, hfree, h⟩⟩
    · rw [h]
      exact hx
    · rw [h] at hcons ⊢
      exact ⟨hcons, hx.sold, hbuy buy _ _ hkey hqty⟩
    · rw [h] at hcons ⊢
      exact ⟨hcons, fun e' he' => List.mem_append_left _ (hx.sold e' he'), hbuy buy _ _ hkey hqty⟩
  | tick t =>
    rw [SignalTrack.step] at hcons
    rw [stepSold, SignalTrack.step]
    rcases tick_cases config s t with ⟨-, h, hnone⟩ | ⟨e, sell, -, hget, -, hkey, hqty, hcase⟩
    · rw [h, hnone]
      simpa using hx
    · obtain ⟨hmem, -⟩ := (getOpenSignalEntry_eq_some_iff hx.consistent).mp hget
      rcases hcase with ⟨-, h, hnone⟩ | ⟨-, h, hsold⟩
      · rw [h] at hcons
        rw [h, hnone]
        simp only [Option.toList_none, List.append_nil]
        exact ⟨hcons, hx.sold, hx.net⟩
      · rw [h] at hcons
        rw [h, hsold]
        refine ⟨hcons, fun e' he' => ?_, fun i => ?_⟩
        · obtain ⟨-, -, hentries⟩ := closeAfterSell_same { s with
            exitFiredTradeIds := e.tradeId :: s.exitFiredTradeIds
            trades := (s.trades.recordTrade sell).1 } e t.faults ""
          rw [hentries]
          rcases List.mem_append.mp he' with he' | he'
          · exact hx.sold e' he'
          · split at he'
            next =>
              obtain rfl : e' = e := by simpa using he'
              exact hmem
            next => exact absurd he' (by simp)
        · obtain ⟨hnet, hbuys, -⟩ := closeAfterSell_same { s with
            exitFiredTradeIds := e.tradeId :: s.exitFiredTradeIds
            trades := (s.trades.recordTrade sell).1 } e t.faults i
          rw [hnet, hbuys]
          simp only
          cases htaken : s.trades.hasKey sell.uniqueKey with
          | true =>
            rw [PaperTrades.recordTrade_duplicate htaken]
            simpa using hx.net i
          | false =>
            obtain ⟨hnet', hbuys'⟩ := record_lot hkey hqty htaken i
            have hsell : ¬(e.instrumentKey = i ∧ TradeAction.sell = TradeAction.buy) := fun h =>
              absurd h.2 (by decide)
            have hbefore : s.trades.netQty strategySignalTrack (signalLeg i) + lotSize *
              (ofInstrument i sold).length =
                lotSize * (buys s.trades i).length := hx.net i
            rw [(PaperTrades.recordTrade_fresh htaken).1, if_pos rfl, hnet', hbuys', if_neg hsell,
              add_zero, ← hbefore,
              ofInstrument, List.filter_append, List.length_append, ← ofInstrument]
            by_cases hi : e.instrumentKey = i
            · simp [hi, lotUnits]
              ring
            · simp [hi]
  | restart =>
    rw [stepSold, SignalTrack.step]
    simp only [Option.toList_none, List.append_nil]
    rw [SignalTrack.step] at hcons
    exact ⟨hcons, hx.sold, hx.net⟩

theorem soldOnce_iff {x : TrackState × List SignalPaperEntry} (hx : Balanced x) : SoldOnce x ↔ x.2.Nodup :=
  ⟨fun h => h.1, fun h => ⟨h, hx.nonneg h⟩⟩

/-- One event keeps entries sold once exactly when a retried exit is a duplicate. -/
theorem soldOnce_step_iff (config : SignalConfig) (x : TrackState × List SignalPaperEntry)
    (ev : Event) (hx : Balanced x)
    (hp : SoldOnce x) : SoldOnce (stepSold config x ev) ↔ RetryIsDuplicate config x ev := by
  rw [soldOnce_iff (hx.step config ev)]
  obtain ⟨s, sold⟩ := x
  have hnd : sold.Nodup := hp.1
  cases ev with
  | entry o => exact iff_of_true (by simpa [stepSold, SignalTrack.step] using hnd) trivial
  | tick t =>
    rw [stepSold, SignalTrack.step, RetryIsDuplicate]
    rcases tick_cases config s t with ⟨hnone, -, h⟩ | ⟨e, sell, hfires, -, -, hkey, -, hcase⟩
    · rw [h, hnone]
      exact iff_of_true (by simpa using hnd) fun e he => absurd he (by simp)
    · simp only [hfires, Option.some.injEq, forall_eq']
      rcases hcase with ⟨hfault, -, h⟩ | ⟨hfault, -, h⟩
      · rw [h]
        exact iff_of_true (by simpa using hnd) fun _ => Or.inl hfault
      · rw [h, hfault, ← hkey]
        cases htaken : s.trades.hasKey sell.uniqueKey with
        | true =>
          rw [PaperTrades.recordTrade_duplicate htaken]
          exact iff_of_true (by simpa using hnd) fun _ => Or.inr rfl
        | false =>
          rw [(PaperTrades.recordTrade_fresh htaken).1, if_pos rfl, Option.toList_some, List.nodup_append]
          constructor
          · rintro ⟨-, -, hdisjoint⟩ he
            exact absurd rfl (hdisjoint e he e (List.mem_singleton_self e))
          · intro hfresh
            refine ⟨hnd, List.nodup_singleton e, fun a ha b hb hab => ?_⟩
            rw [hab, List.mem_singleton.mp hb] at ha
            rcases hfresh ha with h | h
            · exact absurd h (by decide)
            · exact absurd h (by decide)
  | restart => exact iff_of_true (by simpa [stepSold, SignalTrack.step] using hnd) trivial

theorem balanced_initial {T : PaperTrades} (hT : ∀ r ∈ T.rows, r.trade.strategyName ≠ strategySignalTrack) :
    Balanced (initial T, []) := by
  refine ⟨consistent_initial T, by simp, fun i => ?_⟩
  have hrows : (T.rows.map (·.trade)).filter
      (PaperTrades.inPair strategySignalTrack (signalLeg i)) = [] := by
    refine List.filter_eq_nil_iff.mpr fun t ht => ?_
    obtain ⟨r, hr, rfl⟩ := List.mem_map.mp ht
    simp [PaperTrades.inPair, hT r hr]
  have hbuys : buys T i = [] := by
    refine List.filter_eq_nil_iff.mpr fun x hx => ?_
    obtain ⟨r, hr, rfl⟩ := List.mem_map.mp hx
    simp only [decide_eq_true_eq]
    exact fun h => hT r hr (congrArg PaperTrade.UniqueKey.strategyName h)
  simp [initial, PaperTrades.netQty, hrows, hbuys, ofInstrument]

/-- **Each entry is sold at most once**, and no leg is ever short, throughout a run exactly
when every exit that fires again is a duplicate of a SELL of the same day. -/
theorem sold_once_run_iff (config : SignalConfig) {T : PaperTrades}
    (hT : ∀ r ∈ T.rows, r.trade.strategyName ≠ strategySignalTrack) (evs : List Event) :
    Run.Along (stepSold config) SoldOnce (initial T, []) evs ↔
      Run.EachStep (stepSold config) (RetryIsDuplicate config) (initial T, []) evs := by
  have hb := balanced_initial hT
  exact Run.along_iff_eachStep (I := Balanced) (fun x ev hx => hx.step config ev)
    (fun x ev hx hp => soldOnce_step_iff config x ev hx hp) hb ((soldOnce_iff hb).mpr List.nodup_nil)

/-! ### A close that fails -/

/-- A call bought at 100. -/
def callOrder : SignalOrder where
  tradeDate := 739791
  instrumentKey := "NSE_FO|51204"
  premium := 100

/-- A tick of the fallback with the call at 160, beyond its target. -/
def targetTick (now : Moment) (faults : TickFaults) : Tick where
  quotes := .ltps ((Dict.empty.set "NSE_FO|51204" 160).set "NSE_INDEX|Nifty 50" 24600)
  now := now
  faults := faults

/-- The target is met at 14:00 and the close of the entry fails. -/
def failedClose : List Event :=
  [.entry callOrder, .tick (targetTick ⟨739791, 50400000000⟩ { closeEntry := true })]

/-- From then on the open entry is skipped. -/
theorem failedClose_unmanaged :
    ¬Run.Along (fun s ev => (step {} s ev).1) (Managed {}) (initial PaperTrades.empty) failedClose := by
  intro h
  have hlast := Run.along_iff_final.mp h failedClose List.prefix_rfl
  have hskipped : (match getOpenSignalEntry
    (Run.final (fun s ev => (step {} s ev).1) (initial PaperTrades.empty) failedClose) with
      | some e => decide (e.tradeId ∈
          (Run.final (fun s ev => (step {} s ev).1)
            (initial PaperTrades.empty) failedClose).exitFiredTradeIds)
      | none => false) = true := by
    decide +kernel
  cases hopen : getOpenSignalEntry (Run.final (fun s ev => (step {} s ev).1)
    (initial PaperTrades.empty) failedClose) with
  | none =>
    rw [hopen] at hskipped
    exact absurd hskipped (by decide)
  | some e =>
    rw [hopen] at hskipped
    exact (hlast e hopen).2 (of_decide_eq_true hskipped)

/-- The close fails, the process restarts, and the target is met again the next morning. -/
def overnightRetry : List Event :=
  failedClose ++ [.restart, .tick (targetTick ⟨739792, 36000000000⟩ {})]

/-- The entry is sold twice and its leg is short. -/
theorem overnightRetry_sold_twice : ¬Run.Along (stepSold {}) SoldOnce
    (initial PaperTrades.empty, []) overnightRetry := by
  intro h
  have hlast := (Run.along_iff_final.mp h overnightRetry List.prefix_rfl).2 "NSE_FO|51204"
  have hnet : (Run.final (stepSold {}) (initial PaperTrades.empty,
    []) overnightRetry).1.trades.netQty strategySignalTrack
      (signalLeg "NSE_FO|51204") = -65 := by
    decide +kernel
  rw [hnet] at hlast
  exact absurd hlast (by decide)

/-- The equivalence for the run in which the retry comes the same afternoon. -/
theorem sold_once_same_day :
    Run.Along (stepSold {}) SoldOnce (initial PaperTrades.empty, [])
        (failedClose ++ [.restart, .tick (targetTick ⟨739791, 50430000000⟩ {})]) ↔
      Run.EachStep (stepSold {}) (RetryIsDuplicate {}) (initial PaperTrades.empty, [])
        (failedClose ++ [.restart, .tick (targetTick ⟨739791, 50430000000⟩ {})]) :=
  sold_once_run_iff {} (by simp [PaperTrades.empty]) _

end NiftyShield.Strategy.SignalTrack
