import NiftyShield.Lib.Alternation
import NiftyShield.Strategy.SignalTrack

/-!
# The books of the signal track

The reports of `PaperStore` over the signals paper track: `get_signal_exit` and
`cumulative_pnl` (`src/paper/store.py`). They read columns of `paper_signal_entries` that no
exit needs and the exit events, so the tables of `SignalTrack` are extended with these, and
the writes with them (`track_step`: what they leave of the other tables is what `SignalTrack`
says).

`get_signal_exit` takes the first SELL after an entry's BUY row; `cumulative_pnl` lines the
closed entries up with the SELLs by date. No SELL carries the id of its entry.

## What is proved

* `Cycles.step`: entries and SELLs take turns as long as every exit that fires writes a SELL
  exactly when its entry has none, and every entry takes a BUY row of its own cycle;
* `books_agree_run`: in every run of such steps the two reports agree, and `cumulative_pnl`
  returns once every entry is closed;
* `overnight_reentry_raises`: an option bought again on the day it was sold loses its second
  SELL, after which `cumulative_pnl` raises.

## Honest scope

As in `SignalTrack`. Prices are rationals; the texts of an exit event are left out.
-/

namespace NiftyShield.Strategy.SignalTrack

open NiftyShield.Instruments NiftyShield.Lib NiftyShield.Paper Alternation

/-! ### The tables -/

/-- A row of `paper_signal_entries`, with the columns the reports read. -/
structure EntryRow extends SignalPaperEntry where
  /-- Day of the signal. -/
  signalDate : Date
  /-- Fill of the opening BUY. -/
  entryPremium : ℚ
  deriving DecidableEq

/-- A row of `paper_exit_events` of this strategy. -/
structure PaperExitEvent where
  /-- The row id of the opening BUY; the table holds its digits. -/
  tradeId : ℕ
  /-- `exit_signal`. -/
  exitSignal : String
  deriving DecidableEq

/-- The tables of the store and the memory of the process. -/
structure Books where
  /-- `paper_trades`. -/
  trades : PaperTrades
  /-- `paper_signal_entries`. -/
  entries : List EntryRow := []
  /-- `paper_exit_events`, in id order. -/
  exitEvents : List PaperExitEvent := []
  /-- `_exit_fired_trade_ids`. -/
  exitFiredTradeIds : List ℕ := []

/-- `_EXIT_REASON_TO_SIGNAL`, the values. -/
def exitReasonToSignal : SignalExitReason → String
  | .target => "PROFIT_TARGET"
  | .stopLoss => "LOSS_STOP"
  | .timeExit => "TIME_STOP"

namespace Books

/-- What the exits read of the tables. -/
def track (b : Books) : TrackState where
  trades := b.trades
  entries := b.entries.map EntryRow.toSignalPaperEntry
  exitFiredTradeIds := b.exitFiredTradeIds

/-! ### The writes -/

/-- `open_signal_entry`. -/
def openSignalEntry (b : Books) (entry : EntryRow) : Option Books :=
  if b.entries.any fun e => isOpenRow b.trades e.tradeId then none
  else if entry.tradeId ∈ b.entries.map (·.tradeId) then none
  else some { b with entries := b.entries ++ [entry] }

/-- `close_signal_entry`; `none` if the event is of another trade or no row has the id. -/
def closeSignalEntry (b : Books) (tradeId : ℕ) (event : PaperExitEvent) : Option Books :=
  if tradeId ≠ event.tradeId then none
  else
    (SignalTrack.closeSignalEntry b.trades tradeId).map fun T =>
      { b with trades := T, exitEvents := b.exitEvents ++ [event] }

/-- The close after the SELL. -/
def closeAfterSell (b : Books) (entry : SignalPaperEntry) (reason : SignalExitReason)
    (faults : TickFaults) : Books :=
  if faults.closeEntry then b
  else (b.closeSignalEntry entry.tradeId ⟨entry.tradeId, exitReasonToSignal reason⟩).getD b

/-- `_close_position`. -/
def closePosition (b : Books) (entry : SignalPaperEntry) (reason : SignalExitReason) (mark : ℚ)
    (tick : Tick) : Books :=
  match sellTrade entry reason mark tick.now with
  | none => b
  | some sell =>
    if tick.faults.recordTrade then b
    else
      { b with trades := (b.trades.recordTrade sell).1 }.closeAfterSell entry reason tick.faults

/-- `check_signals` and `check_without_chain`. -/
def checkSignals (config : SignalConfig) (b : Books) (tick : Tick) : Books :=
  if tick.faults.getOpenEntry then b
  else
    match getOpenSignalEntry b.track with
    | none => b
    | some entry =>
      if entry.tradeId ∈ b.exitFiredTradeIds then b
      else
        match markOf config tick.quotes entry with
        | none => b
        | some mark =>
          if tick.faults.marks then b
          else
            match evaluate entry mark tick.now with
            | none => b
            | some reason =>
              { b with exitFiredTradeIds := entry.tradeId :: b.exitFiredTradeIds }.closePosition entry
                reason mark tick

/-- `open_signal_paper_entry`, from the point where it has its fill. -/
def openSignalPaperEntry (b : Books) (o : SignalOrder) : Books :=
  match getOpenSignalEntry b.track, deriveLevels o.premium,
    PaperTrade.validate strategySignalTrack legRole o.instrumentKey o.tradeDate .buy lotSize o.premium
      "signal_track_v1 entry" none .open with
  | none, some (slPrice, tgtPrice), some trade =>
    if o.recordLegFault then b
    else
      match recordSignalOpenLeg b.trades trade with
      | none => b
      | some (T, tradeId) =>
        if o.openEntryFault then { b with trades := T }
        else
          ({ b with trades := T }.openSignalEntry
            { tradeId, instrumentKey := trade.instrumentKey, entryVix := o.vix, slPrice, tgtPrice,
              instrumentKey_ne := trade.instrumentKey_ne, signalDate := o.tradeDate,
              entryPremium := o.premium }).getD { b with trades := T }
  | _, _, _ => b

/-- One event. -/
def step (config : SignalConfig) (b : Books) : Event → Books
  | .entry o => b.openSignalPaperEntry o
  | .tick t => b.checkSignals config t
  | .restart => { b with exitFiredTradeIds := [] }

/-- The empty store. -/
def empty : Books := { trades := PaperTrades.empty }

/-! ### The reports -/

/-- The rows of the opening BUYs that are CLOSED. -/
def isClosedRow (T : PaperTrades) (id : ℕ) : Bool :=
  T.rows.any fun r => r.id = id && r.trade.strategyName = strategySignalTrack && r.trade.state = .closed

/-- The SELLs of the strategy, in id order. -/
def sells (T : PaperTrades) : List TradeRow :=
  T.rows.filter fun r => r.trade.strategyName = strategySignalTrack && r.trade.action = .sell

/-- The closed entries, `ORDER BY signal_date, trade_id`. -/
def closedEntries (b : Books) : List EntryRow :=
  (b.entries.filter fun e => isClosedRow b.trades e.tradeId).insertionSort fun e e' =>
    e.signalDate < e'.signalDate ∨ (e.signalDate = e'.signalDate ∧ e.tradeId ≤ e'.tradeId)

/-- `SignalExit`. -/
structure SignalExit where
  /-- Fill of the SELL. -/
  exitPrice : ℚ
  /-- Why the position was closed. -/
  reason : String

/-- `get_signal_exit`: the last exit event of the trade and the first SELL after its row. -/
def getSignalExit (b : Books) (tradeId : ℕ) : Option SignalExit :=
  match (b.exitEvents.filter fun ev => ev.tradeId = tradeId).getLast?,
    (sells b.trades).find? fun r => tradeId < r.id with
  | some event, some sell => some ⟨sell.trade.price, event.exitSignal⟩
  | _, _ => none

/-- `cumulative_pnl`: total, cycles, wins and losses; `none` is its `ValueError`. -/
def cumulativePnl (b : Books) : Option (ℚ × ℕ × ℕ × ℕ) :=
  let entries := b.closedEntries
  let sells := PaperTrades.orderRows (sells b.trades)
  if entries.length ≠ sells.length then none
  else
    let pnls := List.zipWith (fun e r => (r.trade.price - e.entryPremium) * (r.trade.quantity : ℚ)) entries sells
    some (pnls.sum, entries.length, pnls.countP (0 < ·), pnls.countP (· < 0))

/-! ### The other tables are those of the signal track -/

@[simp] theorem trades_track (b : Books) : b.track.trades = b.trades := rfl

@[simp] theorem exitFiredTradeIds_track (b : Books) : b.track.exitFiredTradeIds = b.exitFiredTradeIds := rfl

theorem ids_track (b : Books) : b.track.entries.map (·.tradeId) = b.entries.map (·.tradeId) := by
  rw [track, List.map_map]
  rfl

theorem any_track (b : Books) (p : ℕ → Bool) :
    (b.track.entries.any fun e => p e.tradeId) = b.entries.any fun e => p e.tradeId := by
  rw [track, List.any_map]
  rfl

theorem track_openSignalEntry (b : Books) (entry : EntryRow) :
    (b.openSignalEntry entry).map track = SignalTrack.openSignalEntry b.track entry.toSignalPaperEntry := by
  rw [openSignalEntry, SignalTrack.openSignalEntry, trades_track, any_track b (isOpenRow b.trades), ids_track]
  split
  next => rfl
  next =>
    split
    next => rfl
    next => simp [track]

theorem track_closeAfterSell (b : Books) (entry : SignalPaperEntry) (reason : SignalExitReason)
    (faults : TickFaults) :
    (b.closeAfterSell entry reason faults).track = SignalTrack.closeAfterSell b.track entry faults := by
  rw [closeAfterSell, SignalTrack.closeAfterSell]
  split
  next => rfl
  next =>
    rw [closeSignalEntry, if_neg (not_not_intro rfl), trades_track]
    cases SignalTrack.closeSignalEntry b.trades entry.tradeId <;> rfl

theorem track_closePosition (b : Books) (entry : SignalPaperEntry) (reason : SignalExitReason) (mark : ℚ)
    (tick : Tick) :
    (b.closePosition entry reason mark tick).track =
      (SignalTrack.closePosition b.track entry reason mark tick).1 := by
  rw [closePosition, SignalTrack.closePosition]
  cases sellTrade entry reason mark tick.now with
  | none => rfl
  | some sell =>
    simp only
    split
    next => rfl
    next => exact track_closeAfterSell _ _ _ _

theorem track_checkSignals (config : SignalConfig) (b : Books) (tick : Tick) :
    (b.checkSignals config tick).track = (SignalTrack.checkSignals config b.track tick).1 := by
  rw [checkSignals, SignalTrack.checkSignals]
  split
  next => rfl
  next =>
    cases getOpenSignalEntry b.track with
    | none => rfl
    | some entry =>
      simp only
      by_cases hfired : entry.tradeId ∈ b.exitFiredTradeIds
      · rw [if_pos hfired, exitFiredTradeIds_track, if_pos hfired]
      · rw [if_neg hfired, exitFiredTradeIds_track, if_neg hfired]
        cases markOf config tick.quotes entry with
        | none => rfl
        | some mark =>
          simp only
          split
          next => rfl
          next =>
            cases evaluate entry mark tick.now with
            | none => rfl
            | some reason => exact track_closePosition _ _ _ _ _

theorem track_openSignalPaperEntry (b : Books) (o : SignalOrder) :
    (b.openSignalPaperEntry o).track = SignalTrack.openSignalPaperEntry b.track o := by
  rw [openSignalPaperEntry, SignalTrack.openSignalPaperEntry]
  cases getOpenSignalEntry b.track with
  | some _ => rfl
  | none =>
    cases deriveLevels o.premium with
    | none => rfl
    | some levels =>
      cases PaperTrade.validate strategySignalTrack legRole o.instrumentKey o.tradeDate .buy lotSize o.premium
        "signal_track_v1 entry" none .open with
      | none => rfl
      | some trade =>
        simp only [trades_track]
        split
        next => rfl
        next =>
          cases recordSignalOpenLeg b.trades trade with
          | none => rfl
          | some leg =>
            simp only
            split
            next => rfl
            next =>
              rw [← Option.getD_map track]
              exact congrArg (fun x : Option TrackState => x.getD _) (track_openSignalEntry _ _)

/-- **What an event leaves of the other tables** is what it leaves on the signal track. -/
theorem track_step (config : SignalConfig) (b : Books) (ev : Event) :
    (b.step config ev).track = (SignalTrack.step config b.track ev).1 := by
  cases ev with
  | entry o => exact track_openSignalPaperEntry b o
  | tick t => exact track_checkSignals config b t
  | restart => rfl

/-! ### How an event ends -/

/-- **The ways a tick ends**: no exit fires; one fires, and its SELL is refused or recorded
and the entry closed. -/
theorem tick_cases (config : SignalConfig) (b : Books) (tick : Tick) :
    (firesFor config b.track tick = none ∧ b.checkSignals config tick = b) ∨
      ∃ entry sell reason, firesFor config b.track tick = some entry ∧
        getOpenSignalEntry b.track = some entry ∧ sell.uniqueKey = sellKey entry tick.now.date ∧
        sell.quantity = lotSize ∧
        b.checkSignals config tick =
          if tick.faults.recordTrade then
            { b with exitFiredTradeIds := entry.tradeId :: b.exitFiredTradeIds }
          else
            { b with
              exitFiredTradeIds := entry.tradeId :: b.exitFiredTradeIds
              trades := (b.trades.recordTrade sell).1 }.closeAfterSell entry reason tick.faults := by
  unfold checkSignals firesFor
  split
  next => exact Or.inl ⟨rfl, rfl⟩
  next =>
    cases hopen : getOpenSignalEntry b.track with
    | none => exact Or.inl ⟨rfl, rfl⟩
    | some entry =>
      simp only [Option.bind_some, exitFiredTradeIds_track]
      by_cases hfired : entry.tradeId ∈ b.exitFiredTradeIds
      · exact Or.inl (by simp [hfired])
      · cases hmark : markOf config tick.quotes entry with
        | none => exact Or.inl (by simp [hfired])
        | some mark =>
          cases hmarks : tick.faults.marks with
          | true => exact Or.inl (by simp [hfired])
          | false =>
            cases hexit : evaluate entry mark tick.now with
            | none => exact Or.inl (by simp [hfired, hexit])
            | some reason =>
              obtain ⟨sell, hsell, hkey, hqty⟩ := sellTrade_eq_some entry reason mark tick.now
              refine Or.inr ⟨entry, sell, reason, by simp [hfired, hexit], rfl, hkey, hqty, ?_⟩
              simp only [if_neg hfired, Bool.false_eq_true, if_false, hexit, closePosition, hsell]

/-- The order would open its entry on this row, the BUY of an earlier attempt. -/
structure Reuses (b : Books) (o : SignalOrder) (r : TradeRow) : Prop where
  /-- No position is open. -/
  flat : getOpenSignalEntry b.track = none
  /-- The levels can be derived. -/
  premium_pos : 0 < o.premium
  /-- The BUY is recorded. -/
  leg : o.recordLegFault = false
  /-- The entry is opened. -/
  entry : o.openEntryFault = false
  /-- The row is in the ledger. -/
  mem : r ∈ b.trades.rows
  /-- It has the key of the BUY. -/
  key : r.trade.uniqueKey = buyKey o.instrumentKey o.tradeDate
  /-- It is not the row of an entry. -/
  free : r.id ∉ b.entries.map (·.tradeId)

theorem deriveLevels_eq_some {premium : ℚ} {levels : ℚ × ℚ} (h : deriveLevels premium = some levels) :
    0 < premium := by
  by_contra hle
  rw [deriveLevels, if_pos (not_lt.mp hle)] at h
  exact absurd h (by simp)

/-- **The ways an order ends**: nothing is written; the BUY only; the entry is opened on the
row of the BUY just recorded or on one it reuses. -/
theorem order_cases (b : Books) (o : SignalOrder) :
    b.openSignalPaperEntry o = b ∨
      ∃ buy, buy.uniqueKey = buyKey o.instrumentKey o.tradeDate ∧ buy.quantity = lotSize ∧ buy.state = .open ∧
        (b.openSignalPaperEntry o = { b with trades := (b.trades.recordTrade buy).1 } ∨
          ∃ e : EntryRow, getOpenSignalEntry b.track = none ∧
            (b.trades.hasKey buy.uniqueKey = false ∧ e.tradeId = b.trades.nextId ∨
              b.trades.hasKey buy.uniqueKey = true ∧ ∃ r, b.Reuses o r ∧ r.id = e.tradeId) ∧
            b.openSignalPaperEntry o =
              { b with trades := (b.trades.recordTrade buy).1, entries := b.entries ++ [e] }) := by
  unfold openSignalPaperEntry
  split
  next slPrice tgtPrice buy hnone hlevels hvalid =>
    obtain ⟨hkey, hqty⟩ := validate_eq_some hvalid
    have hstate := validate_state hvalid
    split
    next => exact Or.inl rfl
    next hleg =>
      split
      next => exact Or.inl rfl
      next T tradeId hrec =>
        have hT : T = (b.trades.recordTrade buy).1 := (recordSignalOpenLeg_spec hrec).1
        refine Or.inr ⟨buy, hkey, by exact_mod_cast hqty, hstate, ?_⟩
        subst hT
        split
        next => exact Or.inl rfl
        next hentry =>
          unfold openSignalEntry
          split
          next => exact Or.inl rfl
          next =>
            split
            next => exact Or.inl rfl
            next hfree =>
              refine Or.inr ⟨_, hnone, ?_, rfl⟩
              unfold recordSignalOpenLeg at hrec
              cases htaken : b.trades.hasKey buy.uniqueKey with
              | false =>
                rw [if_pos (PaperTrades.recordTrade_fresh htaken).1] at hrec
                exact Or.inl ⟨rfl, (Prod.mk.inj (Option.some.inj hrec)).2.symm⟩
              | true =>
                rw [PaperTrades.recordTrade_duplicate htaken, if_neg Bool.false_ne_true] at hrec
                obtain ⟨r, hr, hrid⟩ := Option.map_eq_some_iff.mp hrec
                obtain rfl := (Prod.mk.inj hrid).2
                have hrkey : r.trade.uniqueKey = buy.uniqueKey := by simpa using List.find?_some hr
                exact Or.inr ⟨rfl, r, ⟨hnone, deriveLevels_eq_some hlevels, by simpa using hleg,
                  by simpa using hentry, List.mem_of_find?_eq_some hr, hrkey.trans hkey, hfree⟩, rfl⟩
  next => exact Or.inl rfl

/-! ### The ids of the SELLs -/

/-- The ids of the SELLs of the strategy. -/
def sellIds (T : PaperTrades) : List ℕ :=
  ((idKeys T).filter fun x => x.2.strategyName = strategySignalTrack && x.2.action = .sell).map (·.1)

theorem map_id_sells (T : PaperTrades) : (sells T).map (·.id) = sellIds T := by
  rw [sells, sellIds, idKeys, List.filter_map, List.map_map]
  rfl

theorem lt_nextId_of_mem_sellIds {T : PaperTrades} {i : ℕ} (h : i ∈ sellIds T) : i < T.nextId := by
  obtain ⟨x, hx, rfl⟩ := List.mem_map.mp h
  exact lt_nextId_of_mem_idKeys (List.mem_of_mem_filter hx)

/-- A BUY adds no SELL. -/
theorem sellIds_recordTrade_buy (T : PaperTrades) {buy : PaperTrade} {key : String} {date : Date}
    (hkey : buy.uniqueKey = buyKey key date) : sellIds (T.recordTrade buy).1 = sellIds T := by
  rw [sellIds, idKeys_recordTrade, List.filter_append, List.map_append, ← sellIds]
  split
  next => simp
  next => simp [hkey, buyKey]

/-- A SELL that is recorded is the last. -/
theorem sellIds_recordTrade_sell {T : PaperTrades} {sell : PaperTrade} {entry : SignalPaperEntry} {date : Date}
    (hkey : sell.uniqueKey = sellKey entry date) (hfree : T.hasKey sell.uniqueKey = false) :
    sellIds (T.recordTrade sell).1 = sellIds T ++ [T.nextId] := by
  rw [sellIds, idKeys_recordTrade, hfree, if_neg Bool.false_ne_true, List.filter_append, List.map_append,
    ← sellIds]
  simp [hkey, sellKey]

/-! ### Rows of one lot -/

/-- Every row is of one lot. -/
def OneLot (T : PaperTrades) : Prop := ∀ r ∈ T.rows, r.trade.quantity = lotSize

theorem OneLot.record {T : PaperTrades} (h : OneLot T) {t : PaperTrade} (ht : t.quantity = lotSize) :
    OneLot (T.recordTrade t).1 := by
  intro r hr
  cases hkey : T.hasKey t.uniqueKey with
  | true =>
    rw [PaperTrades.recordTrade_duplicate hkey] at hr
    exact h r hr
  | false =>
    rw [(PaperTrades.recordTrade_fresh hkey).2] at hr
    rcases List.mem_append.mp hr with hr | hr
    · exact h r hr
    · rw [List.mem_singleton.mp hr]
      exact ht

theorem OneLot.update {T : PaperTrades} (h : OneLot T) (p : PaperTrade → Bool) (state : TradeState) :
    OneLot (T.updateState p state) := by
  intro r' hr'
  rw [PaperTrades.rows_updateState] at hr'
  obtain ⟨r, hr, rfl⟩ := List.mem_map.mp hr'
  split
  next => exact h r hr
  next => exact h r hr

theorem OneLot.close {T T' : PaperTrades} (h : OneLot T) {id : ℕ}
    (hclose : SignalTrack.closeSignalEntry T id = some T') : OneLot T' := by
  obtain ⟨row, -, rfl⟩ := Option.map_eq_some_iff.mp hclose
  exact (h.update _ _).update _ _

/-! ### Cycles -/

/-- The trade ids of the exit events. -/
def exits (b : Books) : List ℕ := b.exitEvents.map (·.tradeId)

/-- The entries are those closed, in the order of their exit events, and the open one; they
and the SELLs take turns, the last SELL perhaps that of the open entry. -/
structure Cycles (b : Books) (current : Option ℕ) : Prop where
  /-- One lot in, one lot out. -/
  oneLot : OneLot b.trades
  /-- The open entry is the last. -/
  ids : b.entries.map (·.tradeId) = b.exits ++ current.toList
  /-- Entries with an exit event are closed. -/
  closed : ∀ id ∈ b.exits, isOpenRow b.trades id = false
  /-- The open entry is open. -/
  opened : ∀ id ∈ current, isOpenRow b.trades id = true
  /-- A SELL for each entry, but for the open one perhaps. -/
  turns : Alternates b.exits (sellIds b.trades) ∧ (∀ id ∈ current, ∀ i ∈ sellIds b.trades, i < id) ∨
    ∃ id ∈ current, Alternates (b.exits ++ [id]) (sellIds b.trades)

section

variable {b : Books} {current : Option ℕ}

/-- Every entry has its BUY row. -/
theorem bought (hb : Consistent b.track) {id : ℕ} (hid : id ∈ b.entries.map (·.tradeId)) :
    ∃ key d, (id, buyKey key d) ∈ idKeys b.trades := by
  rw [← ids_track] at hid
  obtain ⟨e, he, rfl⟩ := List.mem_map.mp hid
  obtain ⟨d, hd⟩ := hb.bought e he
  exact ⟨_, d, hd⟩

theorem lt_nextId (hb : Consistent b.track) {id : ℕ} (hid : id ∈ b.entries.map (·.tradeId)) :
    id < b.trades.nextId := by
  obtain ⟨key, d, h⟩ := bought hb hid
  exact lt_nextId_of_mem_idKeys h

/-- The open entry of the tables is the one of the cycle. -/
theorem Cycles.current_eq (hb : Consistent b.track) (h : b.Cycles current) :
    current = (getOpenSignalEntry b.track).map (·.tradeId) := by
  cases hget : getOpenSignalEntry b.track with
  | none =>
    cases current with
    | none => rfl
    | some id =>
      have hid : id ∈ b.track.entries.map (·.tradeId) := by
        rw [ids_track, h.ids]
        simp
      obtain ⟨e, he, rfl⟩ := List.mem_map.mp hid
      rw [(getOpenSignalEntry_eq_some_iff hb).mpr ⟨he, h.opened _ rfl⟩] at hget
      exact absurd hget (by simp)
  | some e =>
    obtain ⟨he, hopen⟩ := (getOpenSignalEntry_eq_some_iff hb).mp hget
    have hid : e.tradeId ∈ b.exits ++ current.toList := by
      rw [← h.ids, ← ids_track]
      exact List.mem_map_of_mem he
    rcases List.mem_append.mp hid with hid | hid
    · exact absurd (hopen.symm.trans (h.closed _ hid)) (by decide)
    · exact Option.mem_toList.mp hid

/-- A trade that is recorded leaves every entry as open as it was. -/
theorem isOpenRow_record (hb : Consistent b.track) (t : PaperTrade) {id : ℕ}
    (hid : id ∈ b.entries.map (·.tradeId)) :
    isOpenRow (b.trades.recordTrade t).1 id = isOpenRow b.trades id := isOpenRow_recordTrade (lt_nextId hb hid)

theorem Cycles.mem_ids (h : b.Cycles current) {id : ℕ} (hid : id ∈ b.exits ∨ id ∈ current) :
    id ∈ b.entries.map (·.tradeId) := by
  rw [h.ids, List.mem_append, Option.mem_toList]
  exact hid

/-- A BUY that is recorded. -/
theorem Cycles.buy (hb : Consistent b.track) (h : b.Cycles current) {buy : PaperTrade} {key : String} {date : Date}
    (hkey : buy.uniqueKey = buyKey key date) (hqty : buy.quantity = lotSize) :
    { b with trades := (b.trades.recordTrade buy).1 }.Cycles current where
  oneLot := h.oneLot.record hqty
  ids := h.ids
  closed := fun id hid => (isOpenRow_record hb buy (h.mem_ids (Or.inl hid))).trans (h.closed id hid)
  opened := fun id hid => (isOpenRow_record hb buy (h.mem_ids (Or.inr hid))).trans (h.opened id hid)
  turns := by
    simp only [sellIds_recordTrade_buy b.trades hkey]
    exact h.turns

/-- An entry that is opened after every SELL, on a row that is not closed. -/
theorem Cycles.open (h : b.Cycles none) {e : EntryRow} (hopen : isOpenRow b.trades e.tradeId = true)
    (hafter : ∀ i ∈ sellIds b.trades, i < e.tradeId) :
    { b with entries := b.entries ++ [e] }.Cycles (some e.tradeId) where
  oneLot := h.oneLot
  ids := by
    have hids : b.entries.map (·.tradeId) = b.exits := by simpa using h.ids
    simp only [List.map_append, hids]
    rfl
  closed := h.closed
  opened := by
    rintro id ⟨⟩
    exact hopen
  turns := by
    rcases h.turns with ⟨halt, -⟩ | ⟨id, hid, -⟩
    · refine Or.inl ⟨halt, ?_⟩
      rintro id ⟨⟩
      exact hafter
    · exact absurd hid (by simp)

/-- The SELL of the open entry: it is written exactly when the entry has none. -/
theorem Cycles.sell (hb : Consistent b.track) {entry : SignalPaperEntry} (h : b.Cycles (some entry.tradeId))
    {sell : PaperTrade} {date : Date} (hkey : sell.uniqueKey = sellKey entry date) (hqty : sell.quantity = lotSize)
    (hfits : b.trades.hasKey sell.uniqueKey = true ↔ ∃ i ∈ sellIds b.trades, entry.tradeId < i) :
    { b with trades := (b.trades.recordTrade sell).1 }.Cycles (some entry.tradeId) ∧
      Alternates (b.exits ++ [entry.tradeId]) (sellIds (b.trades.recordTrade sell).1) := by
  have halt : Alternates (b.exits ++ [entry.tradeId]) (sellIds (b.trades.recordTrade sell).1) := by
    rcases h.turns with ⟨halt, hbefore⟩ | ⟨id, hid, halt⟩
    · have hfree : b.trades.hasKey sell.uniqueKey = false := by
        by_contra htaken
        obtain ⟨i, hi, hlt⟩ := hfits.mp (Bool.not_eq_false _ ▸ htaken)
        exact absurd (hbefore _ rfl i hi) hlt.asymm
      rw [sellIds_recordTrade_sell hkey hfree]
      exact halt.snoc (hbefore _ rfl) (lt_nextId hb (h.mem_ids (Or.inr rfl)))
    · obtain rfl : entry.tradeId = id := Option.some.inj hid
      rw [PaperTrades.recordTrade_duplicate (hfits.mpr ?_)]
      · exact halt
      · exact halt.last_lt
  refine ⟨⟨h.oneLot.record hqty, h.ids, fun id hid => ?_, fun id hid => ?_, Or.inr ⟨_, rfl, halt⟩⟩, halt⟩
  · exact (isOpenRow_record hb sell (h.mem_ids (Or.inl hid))).trans (h.closed id hid)
  · exact (isOpenRow_record hb sell (h.mem_ids (Or.inr hid))).trans (h.opened id hid)

/-- The close of the open entry after its SELL. -/
theorem Cycles.close {id : ℕ} (h : b.Cycles (some id)) (halt : Alternates (b.exits ++ [id]) (sellIds b.trades))
    {T : PaperTrades} (hclose : SignalTrack.closeSignalEntry b.trades id = some T) {event : PaperExitEvent}
    (hevent : event.tradeId = id) :
    { b with trades := T, exitEvents := b.exitEvents ++ [event] }.Cycles none := by
  obtain ⟨hid, hopen, -, -, -, hkeys⟩ := closeSignalEntry_spec hclose
  have hexits : exits { b with trades := T, exitEvents := b.exitEvents ++ [event] } = b.exits ++ [id] := by
    simp [exits, hevent]
  have hsells : sellIds T = sellIds b.trades := by
    rw [sellIds, idKeys, hkeys]
    rfl
  refine ⟨h.oneLot.close hclose, ?_, fun id' hid' => ?_, by simp, Or.inl ⟨?_, by simp⟩⟩
  · rw [hexits]
    simpa using h.ids
  · rw [hexits] at hid'
    rcases List.mem_append.mp hid' with hid' | hid'
    · by_contra hne
      exact absurd ((hopen id' (Bool.not_eq_false _ ▸ hne)).symm.trans (h.closed id' hid')) (by decide)
    · rw [List.mem_singleton.mp hid']
      exact hid
  · rw [hexits, hsells]
    exact halt

/-- What keeps entries and SELLs in turn: an exit that fires finds its SELL key taken exactly
when its entry has been sold, and an order that reuses a BUY row finds it open and newer than
every SELL. -/
def Fits (config : SignalConfig) (b : Books) : Event → Prop
  | .entry o => ∀ r, b.Reuses o r → r.trade.state ≠ .closed ∧ ∀ q ∈ sells b.trades, q.id < r.id
  | .tick t => ∀ e, firesFor config b.track t = some e → t.faults.recordTrade = false →
      (b.trades.hasKey (sellKey e t.now.date) = true ↔ ∃ q ∈ sells b.trades, e.tradeId < q.id)
  | .restart => True

instance decidableReuses (b : Books) (o : SignalOrder) (r : TradeRow) : Decidable (b.Reuses o r) :=
  decidable_of_iff (getOpenSignalEntry b.track = none ∧ 0 < o.premium ∧ o.recordLegFault = false ∧
      o.openEntryFault = false ∧ r ∈ b.trades.rows ∧
        r.trade.uniqueKey = buyKey o.instrumentKey o.tradeDate ∧ r.id ∉ b.entries.map (·.tradeId))
    ⟨fun ⟨h₁, h₂, h₃, h₄, h₅, h₆, h₇⟩ => ⟨h₁, h₂, h₃, h₄, h₅, h₆, h₇⟩,
      fun h => ⟨h.flat, h.premium_pos, h.leg, h.entry, h.mem, h.key, h.free⟩⟩

instance decidableFits (config : SignalConfig) (b : Books) : ∀ ev, Decidable (Fits config b ev)
  | .entry o =>
    decidable_of_iff (∀ r ∈ b.trades.rows, b.Reuses o r →
        r.trade.state ≠ .closed ∧ ∀ q ∈ sells b.trades, q.id < r.id)
      ⟨fun h r hr => h r hr.mem hr, fun h r _ hr => h r hr⟩
  | .tick t =>
    decidable_of_iff (∀ e ∈ firesFor config b.track t, t.faults.recordTrade = false →
        (b.trades.hasKey (sellKey e t.now.date) = true ↔ ∃ q ∈ sells b.trades, e.tradeId < q.id)) Iff.rfl
  | .restart => isTrue trivial

theorem forall_sellIds {T : PaperTrades} {p : ℕ → Prop} : (∀ i ∈ sellIds T, p i) ↔ ∀ q ∈ sells T, p q.id := by
  rw [← map_id_sells]
  exact List.forall_mem_map

theorem exists_sellIds {T : PaperTrades} {p : ℕ → Prop} : (∃ i ∈ sellIds T, p i) ↔ ∃ q ∈ sells T, p q.id := by
  rw [← map_id_sells]
  simp only [List.mem_map, exists_exists_and_eq_and]

/-- An order that fits keeps the cycles. -/
theorem Cycles.order (hb : Consistent b.track) (h : b.Cycles current) {config : SignalConfig} {o : SignalOrder}
    (hfits : Fits config b (.entry o)) : ∃ next, (b.openSignalPaperEntry o).Cycles next := by
  rcases order_cases b o with hsame | ⟨buy, hkey, hqty, hstate, hbuy | ⟨e, hnone, hrow, hopened⟩⟩
  · rw [hsame]
    exact ⟨current, h⟩
  · rw [hbuy]
    exact ⟨current, h.buy hb hkey hqty⟩
  · rw [hopened]
    obtain rfl : current = none := (h.current_eq hb).trans (by rw [hnone]; rfl)
    refine ⟨_, (h.buy hb hkey hqty).open ?_ fun i hi => ?_⟩
    · rcases hrow with ⟨hfree, hid⟩ | ⟨htaken, r, hr, hid⟩
      · refine isOpenRow_iff.mpr ⟨⟨b.trades.nextId, buy⟩, ?_, hid.symm, by simp [hstate]⟩
        rw [(PaperTrades.recordTrade_fresh hfree).2]
        exact List.mem_append_right _ (List.mem_singleton_self _)
      · rw [PaperTrades.recordTrade_duplicate htaken]
        exact isOpenRow_iff.mpr ⟨r, hr.mem, hid, (hfits r hr).1⟩
    · rw [sellIds_recordTrade_buy b.trades hkey] at hi
      rcases hrow with ⟨-, hid⟩ | ⟨-, r, hr, hid⟩
      · rw [hid]
        exact lt_nextId_of_mem_sellIds hi
      · rw [← hid]
        exact (forall_sellIds (p := (· < r.id))).mpr (hfits r hr).2 i hi

/-- A tick that fits keeps the cycles. -/
theorem Cycles.tick (hb : Consistent b.track) (h : b.Cycles current) {config : SignalConfig} {t : Tick}
    (hfits : Fits config b (.tick t)) : ∃ next, (b.checkSignals config t).Cycles next := by
  rcases tick_cases config b t with ⟨-, hsame⟩ | ⟨entry, sell, reason, hfires, hget, hkey, hqty, hexit⟩
  · rw [hsame]
    exact ⟨current, h⟩
  · obtain rfl : current = some entry.tradeId := (h.current_eq hb).trans (by rw [hget]; rfl)
    have hfired : { b with exitFiredTradeIds := entry.tradeId :: b.exitFiredTradeIds }.Cycles
      (some entry.tradeId) := ⟨h.oneLot, h.ids, h.closed, h.opened, h.turns⟩
    rw [hexit]
    cases hfault : t.faults.recordTrade with
    | true => exact ⟨_, hfired⟩
    | false =>
      have hfree := hfits entry hfires hfault
      rw [← hkey, ← exists_sellIds (p := fun i => entry.tradeId < i)] at hfree
      obtain ⟨hsold, halt⟩ := h.sell hb hkey hqty hfree
      have hsold' : { b with
          exitFiredTradeIds := entry.tradeId :: b.exitFiredTradeIds
          trades := (b.trades.recordTrade sell).1 }.Cycles (some entry.tradeId) :=
        ⟨hsold.oneLot, hsold.ids, hsold.closed, hsold.opened, hsold.turns⟩
      rw [if_neg Bool.false_ne_true, closeAfterSell]
      split
      next => exact ⟨_, hsold'⟩
      next =>
        rw [closeSignalEntry, if_neg (not_not_intro rfl)]
        cases hclose : SignalTrack.closeSignalEntry (b.trades.recordTrade sell).1 entry.tradeId with
        | none => exact ⟨_, hsold'⟩
        | some T => exact ⟨none, hsold'.close halt hclose rfl⟩

/-- **Every step that fits keeps entries and SELLs in turn.** -/
theorem Cycles.step (hb : Consistent b.track) (h : b.Cycles current) {config : SignalConfig} {ev : Event}
    (hfits : Fits config b ev) : ∃ next, (b.step config ev).Cycles next := by
  cases ev with
  | entry o => exact h.order hb hfits
  | tick t => exact h.tick hb hfits
  | restart => exact ⟨current, h.oneLot, h.ids, h.closed, h.opened, h.turns⟩

/-! ### The two reports agree -/

/-- The price of an entry's exit, for an entry that has one. -/
def exitPrice (b : Books) (e : EntryRow) : ℚ := ((b.getSignalExit e.tradeId).map (·.exitPrice)).getD 0

/-- The total over the closed entries, each at its `get_signal_exit`. -/
def exitsTotal (b : Books) : ℚ :=
  (b.closedEntries.map fun e => (b.exitPrice e - e.entryPremium) * (lotSize : ℚ)).sum

/-- Every entry has been closed exactly once. -/
def AllClosedOnce (b : Books) : Prop :=
  ∀ e ∈ b.entries, (b.exitEvents.filter fun ev => ev.tradeId = e.tradeId).length = 1

/-- What `cumulative_pnl` returns is the total of the exits `get_signal_exit` finds, one for
each closed entry, and it returns once every entry has been closed. -/
def Agrees (b : Books) : Prop :=
  (∀ total n wins losses, b.cumulativePnl = some (total, n, wins, losses) →
    (∀ e ∈ b.closedEntries, (b.getSignalExit e.tradeId).isSome = true) ∧ total = b.exitsTotal) ∧
  (b.AllClosedOnce → b.cumulativePnl.isSome = true)

/-- The row of an entry is CLOSED unless it is open. -/
theorem isClosedRow_eq (hb : Consistent b.track) {id : ℕ} (hid : id ∈ b.entries.map (·.tradeId)) :
    isClosedRow b.trades id = !isOpenRow b.trades id := by
  obtain ⟨key, d, hmem⟩ := bought hb hid
  obtain ⟨r, hr, hrid⟩ := List.mem_map.mp hmem
  obtain ⟨rfl, hrkey⟩ := Prod.mk.inj hrid
  have hname : r.trade.strategyName = strategySignalTrack :=
    congrArg PaperTrade.UniqueKey.strategyName hrkey
  have honly : ∀ r' ∈ b.trades.rows, r'.id = r.id → r' = r := fun r' hr' h => row_injOn hr' hr h
  have hopen : isOpenRow b.trades r.id = true ↔ r.trade.state ≠ .closed := by
    rw [isOpenRow_iff]
    constructor
    · rintro ⟨r', hr', hid', hstate⟩
      rwa [honly r' hr' hid'] at hstate
    · exact fun hstate => ⟨r, hr, rfl, hstate⟩
  have hclosed : isClosedRow b.trades r.id = true ↔ r.trade.state = .closed := by
    simp only [isClosedRow, List.any_eq_true, Bool.and_eq_true, decide_eq_true_eq]
    constructor
    · rintro ⟨r', hr', ⟨hid', -⟩, hstate⟩
      rwa [honly r' hr' hid'] at hstate
    · exact fun hstate => ⟨r, hr, ⟨rfl, hname⟩, hstate⟩
  rw [Bool.eq_iff_iff, hclosed, Bool.not_eq_true', ← Bool.not_eq_true, hopen, not_not]

/-- The closed entries are those with an exit event, in some order. -/
theorem Cycles.closedEntries_perm (hb : Consistent b.track) (h : b.Cycles current) :
    ∃ es, b.closedEntries.Perm es ∧ es.map (·.tradeId) = b.exits := by
  obtain ⟨es, es', hsplit, hes, hes'⟩ := List.map_eq_append_iff.mp h.ids
  have hclosed : ∀ e ∈ es, isClosedRow b.trades e.tradeId = true := fun e he => by
    rw [isClosedRow_eq hb (h.mem_ids (Or.inl (hes ▸ List.mem_map_of_mem he))),
      h.closed _ (hes ▸ List.mem_map_of_mem he)]
    rfl
  have hopen : ∀ e ∈ es', ¬isClosedRow b.trades e.tradeId = true := fun e he => by
    have hmem : e.tradeId ∈ current := Option.mem_toList.mp (hes' ▸ List.mem_map_of_mem he)
    rw [isClosedRow_eq hb (h.mem_ids (Or.inr hmem)), h.opened _ hmem]
    exact Bool.false_ne_true
  refine ⟨es, ?_, hes⟩
  rw [closedEntries, hsplit, List.filter_append, List.filter_eq_self.mpr hclosed,
    List.filter_eq_nil_iff.mpr hopen, List.append_nil]
  exact List.perm_insertionSort _ _

/-- The exits of entries that are in turn with the SELLs are the SELLs. -/
theorem map_exitPrice {es : List EntryRow} (hes : es.map (·.tradeId) = b.exits)
    (halt : Alternates b.exits (sellIds b.trades)) :
    (∀ e ∈ es, (b.getSignalExit e.tradeId).isSome = true) ∧
      es.map b.exitPrice = (sells b.trades).map fun r => r.trade.price := by
  have hfind := halt.map_find? hes (map_id_sells b.trades)
  -- each entry has an exit event, and a SELL after it
  have hexit : ∀ e ∈ es, ∃ r reason, (sells b.trades).find? (fun r => e.tradeId < r.id) = some r ∧
      b.getSignalExit e.tradeId = some ⟨r.trade.price, reason⟩ := by
    intro e he
    have hsome : (sells b.trades).find? (fun r => e.tradeId < r.id) ∈ (sells b.trades).map some :=
      hfind ▸ List.mem_map_of_mem he
    obtain ⟨r, -, hr⟩ := List.mem_map.mp hsome
    have hid : e.tradeId ∈ b.exitEvents.map (·.tradeId) := by
      rw [← exits, ← hes]
      exact List.mem_map_of_mem he
    obtain ⟨ev, hev, hevid⟩ := List.mem_map.mp hid
    have hne : (b.exitEvents.filter fun ev => ev.tradeId = e.tradeId) ≠ [] :=
      List.ne_nil_of_mem (List.mem_filter.mpr ⟨hev, decide_eq_true hevid⟩)
    refine ⟨r, ((b.exitEvents.filter fun ev => ev.tradeId = e.tradeId).getLast hne).exitSignal, hr.symm, ?_⟩
    rw [getSignalExit, ← hr, List.getLast?_eq_some_getLast hne]
  refine ⟨fun e he => ?_, ?_⟩
  · obtain ⟨r, reason, -, hget⟩ := hexit e he
    rw [hget]
    rfl
  · have hprices : es.map b.exitPrice = (es.map fun e =>
        (sells b.trades).find? fun r => e.tradeId < r.id).map fun r => (r.map (·.trade.price)).getD 0 := by
      rw [List.map_map]
      refine List.map_congr_left fun e he => ?_
      obtain ⟨r, reason, hr, hget⟩ := hexit e he
      rw [exitPrice, hget, Function.comp_apply, hr]
      rfl
    rw [hprices, hfind, List.map_map]
    rfl

/-- The total `cumulative_pnl` comes to, when it returns. -/
theorem cumulativePnl_total (h : OneLot b.trades) {total : ℚ} {n wins losses : ℕ}
    (hpnl : b.cumulativePnl = some (total, n, wins, losses)) :
    total = (((sells b.trades).map fun r => r.trade.price).sum -
      (b.closedEntries.map (·.entryPremium)).sum) * (lotSize : ℚ) := by
  unfold cumulativePnl at hpnl
  simp only at hpnl
  split at hpnl
  next => exact absurd hpnl (by simp)
  next hlen =>
    have hperm := PaperTrades.orderRows_perm (sells b.trades)
    have hlots : ∀ r ∈ PaperTrades.orderRows (sells b.trades), (r.trade.quantity : ℚ) = lotSize := fun r hr => by
      rw [h r (List.mem_of_mem_filter (hperm.mem_iff.mp hr))]
    rw [← (hperm.map fun r => r.trade.price).sum_eq, ← sum_zipWith_sub_mul _ _ _ (not_not.mp hlen) hlots]
    exact (congrArg Prod.fst (Option.some.inj hpnl)).symm

/-- Books whose entries and SELLs take turns agree. -/
theorem Cycles.agrees (hb : Consistent b.track) (h : b.Cycles current) : b.Agrees := by
  obtain ⟨es, hperm, hes⟩ := h.closedEntries_perm hb
  have hlen : b.closedEntries.length = b.exits.length := by
    rw [hperm.length_eq, ← hes, List.length_map]
  have hsells : (PaperTrades.orderRows (sells b.trades)).length = (sellIds b.trades).length := by
    rw [(PaperTrades.orderRows_perm _).length_eq, ← map_id_sells, List.length_map]
  rcases h.turns with ⟨halt, -⟩ | ⟨id, hid, halt⟩
  · -- as many SELLs as closed entries: the report returns
    obtain ⟨hexits, hprices⟩ := map_exitPrice hes halt
    refine ⟨fun total n wins losses hpnl => ⟨fun e he => hexits e (hperm.mem_iff.mp he), ?_⟩, fun _ => ?_⟩
    · have htotal := sum_zipWith_sub_mul (·.entryPremium) b.exitPrice (fun _ => (lotSize : ℚ))
        (rfl : b.closedEntries.length = b.closedEntries.length) fun _ _ => rfl
      rw [List.zipWith_self, (hperm.map b.exitPrice).sum_eq, hprices] at htotal
      rw [cumulativePnl_total h.oneLot hpnl, exitsTotal, htotal]
    · rw [cumulativePnl, if_neg]
      · rfl
      · rw [hlen, hsells, halt.length_eq]
        simp
  · -- a SELL more: the report raises, and the open entry has not been closed
    have hne : b.closedEntries.length ≠ (PaperTrades.orderRows (sells b.trades)).length := by
      rw [hlen, hsells, ← halt.length_eq, List.length_append]
      simp
    have hnone : b.cumulativePnl = none := by
      rw [cumulativePnl, if_pos hne]
    refine ⟨fun total n wins losses hpnl => ?_, fun hclosed => ?_⟩
    · rw [hnone] at hpnl
      exact absurd hpnl (by simp)
    · obtain ⟨e, he, rfl⟩ := List.mem_map.mp (h.mem_ids (Or.inr hid))
      obtain ⟨ev, hev⟩ := List.exists_mem_of_length_pos (by rw [hclosed e he]; exact Nat.one_pos)
      obtain ⟨hmem, hevid⟩ := List.mem_filter.mp hev
      have hshut := h.closed e.tradeId (List.mem_map.mpr ⟨ev, hmem, of_decide_eq_true hevid⟩)
      exact absurd (hshut.symm.trans (h.opened _ hid)) (by decide)

theorem cycles_empty : empty.Cycles none where
  oneLot := by simp [OneLot, empty, PaperTrades.empty]
  ids := rfl
  closed := by simp [empty, exits]
  opened := by simp
  turns := Or.inl ⟨Alternates.nil, by simp⟩

theorem consistent_step (config : SignalConfig) (hb : Consistent b.track) (ev : Event) :
    Consistent (b.step config ev).track := by
  rw [track_step]
  exact hb.step config ev

/-- **The books agree**: in a run from the empty store whose exits each write the SELL of
their entry once, and whose entries each take a BUY row of their own cycle, what
`cumulative_pnl` returns is the total of the exits `get_signal_exit` finds, and it returns
when every entry has been closed. -/
theorem books_agree_run (config : SignalConfig) (evs : List Event)
    (hfits : Run.EachStep (step config) (Fits config) empty evs) :
    Run.Along (step config) Agrees empty evs :=
  Run.along_of_invariant (I := fun b => Consistent b.track ∧ ∃ current, b.Cycles current)
    (fun _ ev ⟨hb, _, h⟩ hev => ⟨consistent_step config hb ev, h.step hb hev⟩)
    (fun _ ⟨hb, _, h⟩ => h.agrees hb) ⟨consistent_initial _, none, cycles_empty⟩ hfits

/-! ### An entry again on the day of an exit -/

/-- The call bought one day, sold at its target on the next morning, bought again and sold
again. -/
def overnightReentry : List Event :=
  [.entry callOrder, .tick (targetTick ⟨739792, 36000000000⟩ {}), .entry { callOrder with tradeDate := 739792 },
    .tick (targetTick ⟨739792, 39600000000⟩ {})]

/-- Both entries have been closed, each once; the second SELL was a duplicate of the first,
and `cumulative_pnl` raises. -/
theorem overnight_reentry_raises : ¬Run.Along (step {}) Agrees empty overnightReentry := by
  intro h
  have hlast := Run.along_iff_final.mp h overnightReentry List.prefix_rfl
  have hclosed : (Run.final (step {}) empty overnightReentry).AllClosedOnce := by
    unfold AllClosedOnce
    decide +kernel
  have hraises : (Run.final (step {}) empty overnightReentry).cumulativePnl.isSome = false := by
    decide +kernel
  exact absurd ((hlast.2 hclosed).symm.trans hraises) (by decide)

/-- The theorem for the call bought and sold on two days. -/
theorem books_agree_two_days : Run.Along (step {}) Agrees empty
    [.entry callOrder, .tick (targetTick ⟨739791, 36000000000⟩ {}), .entry { callOrder with tradeDate := 739792 },
      .tick (targetTick ⟨739792, 36000000000⟩ {})] :=
  books_agree_run {} _ (by decide +kernel)

end

end Books

end NiftyShield.Strategy.SignalTrack
