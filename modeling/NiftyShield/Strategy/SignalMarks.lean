import Mathlib.Data.Prod.Lex
import NiftyShield.Lib.Series
import NiftyShield.Strategy.SignalBooks

/-!
# The marks of the signal track

The mark rows of `SignalTrackV1` (`_compute_mark`, `_process_leg` and `_shadow_tick` in
`src/strategy/signal_track_v1.py`) and their two tables in `PaperStore` (`record_mark`,
`record_shadow_mark`, `get_marks`, `get_shadow_marks`, `get_closed_signal_entry`). While a
position is open each tick writes a live mark; after it closed, until 15:00 of its day, a
shadow mark. A mark carries the extremes of `unrealised_pct`, taken from the mark with the
latest timestamp and its own value.

## What is proved

* `books_step`: the other tables go through what `SignalBooks` says;
* `trueExtremes_run_iff`: in every state of a run the last mark of each series holds the true
  extremes exactly when no mark is stored with an earlier timestamp than the last of its series
  and a value outside the extremes of that one;
* `clockSetBack_loses_high`: a clock set back by a minute loses a high.

## Honest scope

As in `SignalBooks`. Timestamps are times in IST, whose ISO texts sort as they do. A read or a
write of marks that raises ends the tick.
-/

namespace NiftyShield.Strategy.SignalTrack

open NiftyShield.Instruments NiftyShield.Lib NiftyShield.Paper Series

/-! ### One mark -/

/-- `_STALE_AFTER`, in microseconds. -/
def staleAfter : ℕ := 30000000

/-- `_GAP_PCT`. -/
def gapPct : ℚ := 1 / 5

namespace Moment

/-- Microseconds since the first day. -/
def micros (m : Moment) : ℕ := m.date * 86400000000 + m.timeOfDay

/-- The order of the ISO texts. -/
def key (m : Moment) : Lex (Date × ℕ) := toLex (m.date, m.timeOfDay)

end Moment

/-- A row of `paper_signal_marks` or `paper_signal_shadow_marks`. -/
structure SignalMark where
  /-- The row id of the opening BUY. -/
  tradeId : ℕ
  /-- The clock at the tick. -/
  ts : Moment
  /-- Timestamp of the quote. -/
  quoteTs : Option Moment
  /-- The quote was older than `_STALE_AFTER`. -/
  stale : Bool
  /-- Last price. -/
  ltp : ℚ
  /-- Bid. -/
  bid : ℚ
  /-- Ask. -/
  ask : ℚ
  /-- The price the exits compare. -/
  mark : ℚ
  /-- Gain since the entry, as a fraction of its premium. -/
  unrealisedPct : ℚ
  /-- Running best of `unrealised_pct`. -/
  mfePct : ℚ
  /-- Running worst of `unrealised_pct`. -/
  maePct : ℚ
  /-- The mark moved by more than `_GAP_PCT` of the premium. -/
  gapEvent : Bool
  /-- `ge=0`. -/
  prices_nonneg : 0 ≤ ltp ∧ 0 ≤ bid ∧ 0 ≤ ask ∧ 0 ≤ mark
  deriving DecidableEq

/-- `_compute_mark`; `none` is the `ValueError` of `resolve_price` or of `SignalMark`. -/
def computeMark (entry : EntryRow) (leg : OptionLeg) (now : Moment) (quoteTs : Option Moment)
    (prevMark : Option ℚ) (prevMfePct prevMaePct : ℚ) : Option SignalMark :=
  (resolvePrice leg).bind fun mark =>
    if h : 0 ≤ leg.ltp ∧ 0 ≤ leg.bid ∧ 0 ≤ leg.ask ∧ 0 ≤ mark then
      let unrealisedPct := mark / entry.entryPremium - 1
      some
        { tradeId := entry.tradeId, ts := now, quoteTs
          stale := quoteTs.any fun q => q.micros + staleAfter < now.micros
          ltp := leg.ltp, bid := leg.bid, ask := leg.ask, mark, unrealisedPct
          mfePct := max prevMfePct unrealisedPct, maePct := min prevMaePct unrealisedPct
          gapEvent := prevMark.any fun p => gapPct < |mark - p| / entry.entryPremium
          prices_nonneg := h }
    else none

/-! ### The store -/

/-- The columns of a mark row. -/
def markColumns : Columns SignalMark ℕ (Lex (Date × ℕ)) ℚ where
  key := (·.tradeId)
  time := fun m => m.ts.key
  value := (·.unrealisedPct)
  low := (·.maePct)
  high := (·.mfePct)

/-- A table of marks. -/
structure MarkTable where
  /-- The rows, in id order. -/
  rows : List SignalMark := []
  /-- `UNIQUE(trade_id, ts)`. -/
  unique : (markColumns.slots rows).Nodup := by exact List.nodup_nil

namespace MarkTable

/-- `_insert_signal_mark`. -/
def insertSignalMark (T : MarkTable) (m : SignalMark) : MarkTable where
  rows := markColumns.insertNew T.rows m
  unique := Columns.nodup_slots_insertNew T.unique m

/-- `get_marks` and `get_shadow_marks`. -/
def getMarks (T : MarkTable) (tradeId : ℕ) : List SignalMark := markColumns.inOrder tradeId T.rows

/-- The stored values of `unrealised_pct` of a position. -/
def unrealised (T : MarkTable) (tradeId : ℕ) : Set ℚ :=
  {x | ∃ m ∈ T.rows, m.tradeId = tradeId ∧ m.unrealisedPct = x}

end MarkTable

namespace Books

/-- `get_open_signal_entry`, with all columns of the entry. -/
def getOpenEntry (b : Books) : Option EntryRow :=
  (b.entries.filter fun e => isOpenRow b.trades e.tradeId).argmax (·.tradeId)

/-- `get_closed_signal_entry`. -/
def getClosedSignalEntry (b : Books) (signalDate : Date) : Option EntryRow :=
  (b.entries.filter fun e =>
    (b.trades.rows.any fun r => r.id = e.tradeId && r.trade.state = .closed) &&
      e.signalDate = signalDate).argmax (·.tradeId)

end Books

/-! ### The strategy -/

/-- The tables of the store with the marks, and the memory of the process. -/
structure Telemetry where
  /-- The other tables. -/
  books : Books
  /-- `paper_signal_marks`. -/
  marks : MarkTable := {}
  /-- `paper_signal_shadow_marks`. -/
  shadowMarks : MarkTable := {}

/-- A tick with what a shadow mark is taken from. -/
structure MarkTick extends Tick where
  /-- The answer of `get_ltp` for the closed position, empty if it raises. -/
  shadowLtps : Dict String ℚ := Dict.empty
  /-- A store call of `_shadow_tick` raises. -/
  shadowFault : Bool := false

/-- The leg of a closed position: from the chain that carries it, else from a last price. -/
def shadowLegOf (config : SignalConfig) (tick : MarkTick) (entry : EntryRow) : Option OptionLeg :=
  let leg :=
    match tick.quotes with
    | .chain market => findOptionLeg entry.instrumentKey market config.lookup
    | .ltps _ => none
  match leg, tick.shadowLtps.get? entry.instrumentKey with
  | some leg, _ => some leg
  | none, some ltp => if config.hasBroker = false ∨ ltp ≤ 0 then none else some (legFromLtp ltp)
  | none, none => none

/-- What can happen. -/
inductive MarkEvent where
  /-- An entry. -/
  | entry (o : SignalOrder)
  /-- A tick of the monitor. -/
  | tick (t : MarkTick)
  /-- The process restarts. -/
  | restart

/-- The event for the other tables. -/
def MarkEvent.toEvent : MarkEvent → Event
  | .entry o => .entry o
  | .tick t => .tick t.toTick
  | .restart => .restart

/-- The mark after those of the position: `prev` is the last of them, and no quote has a
timestamp. -/
def nextMark (marks : List SignalMark) (entry : EntryRow) (leg : OptionLeg) (now : Moment) :
    Option SignalMark :=
  let prev := marks.getLast?
  computeMark entry leg now none (prev.map (·.mark)) ((prev.map (·.mfePct)).getD 0)
    ((prev.map (·.maePct)).getD 0)

namespace Telemetry

/-- `_process_leg`. -/
def processLeg (s : Telemetry) (entry : EntryRow) (leg : OptionLeg) (tick : Tick) : Telemetry :=
  if tick.faults.marks then s
  else
    match nextMark (s.marks.getMarks entry.tradeId) entry leg tick.now with
    | none => s
    | some row =>
      let recorded := { s with marks := s.marks.insertSignalMark row }
      match evaluate entry.toSignalPaperEntry row.mark tick.now with
      | none => recorded
      | some reason =>
        let fired := { s.books with exitFiredTradeIds := entry.tradeId :: s.books.exitFiredTradeIds }
        { recorded with books := fired.closePosition entry.toSignalPaperEntry reason row.mark tick }

/-- The marks a shadow mark follows: the shadow marks, or the live marks if there are none. -/
def priorMarks (s : Telemetry) (tradeId : ℕ) : List SignalMark :=
  match s.shadowMarks.getMarks tradeId with
  | [] => s.marks.getMarks tradeId
  | marks => marks

/-- `_shadow_tick`. -/
def shadowTick (config : SignalConfig) (s : Telemetry) (tick : MarkTick) : Telemetry :=
  if squareOff ≤ tick.now.timeOfDay ∨ tick.shadowFault = true then s
  else
    match s.books.getClosedSignalEntry tick.now.date with
    | none => s
    | some entry =>
      match shadowLegOf config tick entry with
      | none => s
      | some leg =>
        match nextMark (s.priorMarks entry.tradeId) entry leg tick.now with
        | none => s
        | some row => { s with shadowMarks := s.shadowMarks.insertSignalMark row }

/-- `check_signals` and `check_without_chain`. -/
def checkSignals (config : SignalConfig) (s : Telemetry) (tick : MarkTick) : Telemetry :=
  if tick.faults.getOpenEntry then s
  else
    match s.books.getOpenEntry with
    | none => s.shadowTick config tick
    | some entry =>
      if entry.tradeId ∈ s.books.exitFiredTradeIds then s
      else
        match legOf config tick.quotes entry.toSignalPaperEntry with
        | none => s
        | some leg => s.processLeg entry leg tick.toTick

/-- One event. -/
def step (config : SignalConfig) (s : Telemetry) : MarkEvent → Telemetry
  | .entry o => { s with books := s.books.openSignalPaperEntry o }
  | .tick t => s.checkSignals config t
  | .restart => { s with books := { s.books with exitFiredTradeIds := [] } }

/-- A store with some trades and no signal entries. -/
def initial (T : PaperTrades) : Telemetry := { books := { trades := T } }

end Telemetry

/-! ### What a mark says -/

section

variable {entry : EntryRow} {leg : OptionLeg} {now : Moment} {marks : List SignalMark} {row : SignalMark}

/-- **The mark of a quote**: its price, and the extremes of the last mark with its own value. -/
theorem nextMark_eq_some (h : nextMark marks entry leg now = some row) :
    row.tradeId = entry.tradeId ∧ row.ts = now ∧ markPrice leg = some row.mark ∧
      row.unrealisedPct = row.mark / entry.entryPremium - 1 ∧
      row.maePct = min ((marks.getLast?.map (·.maePct)).getD 0) row.unrealisedPct ∧
      row.mfePct = max ((marks.getLast?.map (·.mfePct)).getD 0) row.unrealisedPct := by
  obtain ⟨mark, hmark, hrow⟩ := Option.bind_eq_some_iff.mp h
  split at hrow
  next hprices =>
    obtain rfl := Option.some.inj hrow
    refine ⟨rfl, rfl, ?_, rfl, rfl, rfl⟩
    rw [markPrice, if_pos ⟨hprices.1, hprices.2.1, hprices.2.2.1⟩, hmark]
  next => exact absurd hrow (by simp)

theorem nextMark_eq_none (h : nextMark marks entry leg now = none) : markPrice leg = none := by
  rw [markPrice]
  split
  next hprices =>
    cases hmark : resolvePrice leg with
    | none => rfl
    | some mark =>
      rw [nextMark, computeMark, hmark, Option.bind_some, dif_pos ⟨hprices.1, hprices.2.1, hprices.2.2,
        (resolvePrice_pos hmark).le⟩] at h
      exact absurd h (by simp)
  next => rfl

end

/-! ### Closed positions -/

/-- A closed entry stays closed. -/
theorem Books.closed_step {b : Books} (hb : Consistent b.track) (config : SignalConfig) (ev : Event) {id : ℕ}
    (hid : id ∈ b.entries.map (·.tradeId)) (hclosed : isOpenRow b.trades id = false) :
    id ∈ (b.step config ev).entries.map (·.tradeId) ∧ isOpenRow (b.step config ev).trades id = false := by
  have hrecord : ∀ t, isOpenRow (b.trades.recordTrade t).1 id = false := fun t =>
    (isOpenRow_record hb t hid).trans hclosed
  cases ev with
  | entry o =>
    rw [Books.step]
    rcases order_cases b o with h | ⟨buy, -, -, -, h | ⟨e, -, -, h⟩⟩
    · rw [h]
      exact ⟨hid, hclosed⟩
    · rw [h]
      exact ⟨hid, hrecord buy⟩
    · rw [h]
      refine ⟨?_, hrecord buy⟩
      rw [List.map_append]
      exact List.mem_append_left _ hid
  | tick t =>
    rw [Books.step]
    rcases tick_cases config b t with ⟨-, h⟩ | ⟨e, sell, reason, -, -, -, -, h⟩
    · rw [h]
      exact ⟨hid, hclosed⟩
    · rw [h]
      split
      next => exact ⟨hid, hclosed⟩
      next =>
        unfold closeAfterSell
        split
        next => exact ⟨hid, hrecord sell⟩
        next =>
          rw [closeSignalEntry, if_neg (not_not_intro rfl)]
          cases hclose : SignalTrack.closeSignalEntry (b.trades.recordTrade sell).1 e.tradeId with
          | none => exact ⟨hid, hrecord sell⟩
          | some T =>
            refine ⟨hid, ?_⟩
            obtain ⟨-, hback, -⟩ := closeSignalEntry_spec hclose
            exact Bool.eq_false_iff.mpr fun hopen => absurd (hback id hopen) (by rw [hrecord sell]; decide)
  | restart => exact ⟨hid, hclosed⟩

theorem Books.getOpenEntry_eq_some {b : Books} {e : EntryRow} (h : b.getOpenEntry = some e) :
    e ∈ b.entries ∧ isOpenRow b.trades e.tradeId = true := by
  simpa using List.mem_filter.mp (List.argmax_mem h)

/-- A closed entry is closed. -/
theorem Books.getClosedSignalEntry_eq_some {b : Books} {d : Date} {e : EntryRow}
    (h : b.getClosedSignalEntry d = some e) :
    e ∈ b.entries ∧ isOpenRow b.trades e.tradeId = false := by
  obtain ⟨he, hrow⟩ := List.mem_filter.mp (List.argmax_mem h)
  obtain ⟨r, hr, hclosed⟩ := List.any_eq_true.mp (Bool.and_eq_true_iff.mp hrow).1
  simp only [Bool.and_eq_true, decide_eq_true_eq] at hclosed
  refine ⟨he, Bool.eq_false_iff.mpr fun hopen => ?_⟩
  obtain ⟨r', hr', hid, hstate⟩ := isOpenRow_iff.mp hopen
  rw [row_injOn hr' hr (hid.trans hclosed.1.symm)] at hstate
  exact hstate hclosed.2

/-! ### The other tables -/

theorem getOpenSignalEntry_track (b : Books) :
    getOpenSignalEntry b.track = b.getOpenEntry.map EntryRow.toSignalPaperEntry := by
  rw [getOpenSignalEntry, Books.getOpenEntry, Books.track, List.filter_map, Selection.argmax_map]
  rfl

namespace Telemetry

variable {config : SignalConfig} {s : Telemetry}

theorem books_shadowTick (config : SignalConfig) (s : Telemetry) (tick : MarkTick) :
    (s.shadowTick config tick).books = s.books := by
  unfold shadowTick
  split
  next => rfl
  next =>
    cases s.books.getClosedSignalEntry tick.now.date with
    | none => rfl
    | some entry =>
      simp only
      cases shadowLegOf config tick entry with
      | none => rfl
      | some leg =>
        simp only
        cases nextMark (s.priorMarks entry.tradeId) entry leg tick.now <;> rfl

theorem books_checkSignals (config : SignalConfig) (s : Telemetry) (tick : MarkTick) :
    (s.checkSignals config tick).books = s.books.checkSignals config tick.toTick := by
  rw [checkSignals, Books.checkSignals, getOpenSignalEntry_track]
  split
  next => rfl
  next =>
    cases s.books.getOpenEntry with
    | none => exact books_shadowTick config s tick
    | some entry =>
      simp only [Option.map_some]
      by_cases hfired : entry.tradeId ∈ s.books.exitFiredTradeIds
      · rw [if_pos hfired, if_pos hfired]
      · rw [if_neg hfired, if_neg hfired, markOf]
        cases legOf config tick.quotes entry.toSignalPaperEntry with
        | none => rfl
        | some leg =>
          simp only [Option.bind_some, processLeg]
          cases hrow : nextMark (s.marks.getMarks entry.tradeId) entry leg tick.now with
          | none =>
            rw [nextMark_eq_none hrow]
            split <;> rfl
          | some row =>
            rw [(nextMark_eq_some hrow).2.2.1]
            simp only
            split
            next => rfl
            next => cases evaluate entry.toSignalPaperEntry row.mark tick.now <;> rfl

/-- **The other tables** go through what `Books` says. -/
theorem books_step (config : SignalConfig) (s : Telemetry) (ev : MarkEvent) :
    (s.step config ev).books = s.books.step config ev.toEvent := by
  cases ev with
  | entry o => rfl
  | tick t => exact books_checkSignals config s t
  | restart => rfl

/-! ### The mark of a tick -/

/-- The live mark of a tick is taken from this quote. -/
def liveQuote (config : SignalConfig) (s : Telemetry) (tick : MarkTick) : Option (EntryRow × OptionLeg) :=
  if tick.faults.getOpenEntry = true ∨ tick.faults.marks = true then none
  else
    s.books.getOpenEntry.bind fun e =>
      if e.tradeId ∈ s.books.exitFiredTradeIds then none
      else (legOf config tick.quotes e.toSignalPaperEntry).map fun leg => (e, leg)

/-- The shadow mark of a tick is taken from this quote. -/
def shadowQuote (config : SignalConfig) (s : Telemetry) (tick : MarkTick) : Option (EntryRow × OptionLeg) :=
  if tick.faults.getOpenEntry = true ∨ s.books.getOpenEntry.isSome = true ∨
      squareOff ≤ tick.now.timeOfDay ∨ tick.shadowFault = true then none
  else
    (s.books.getClosedSignalEntry tick.now.date).bind fun e =>
      (shadowLegOf config tick e).map fun leg => (e, leg)

/-- A live mark is of the open entry, and then there is no shadow mark. -/
theorem open_of_liveQuote {tick : MarkTick} {q : EntryRow × OptionLeg} (h : s.liveQuote config tick = some q) :
    s.books.getOpenEntry = some q.1 ∧ s.shadowQuote config tick = none := by
  unfold liveQuote at h
  split at h
  next => exact absurd h (by simp)
  next =>
    obtain ⟨e, he, hq⟩ := Option.bind_eq_some_iff.mp h
    split at hq
    next => exact absurd hq (by simp)
    next =>
      obtain ⟨leg, -, rfl⟩ := Option.map_eq_some_iff.mp hq
      exact ⟨he, by rw [shadowQuote, if_pos (Or.inr (Or.inl (by rw [he]; rfl)))]⟩

/-- A shadow mark is of a closed entry. -/
theorem closed_of_shadowQuote {tick : MarkTick} {q : EntryRow × OptionLeg}
    (h : s.shadowQuote config tick = some q) :
    q.1 ∈ s.books.entries ∧ isOpenRow s.books.trades q.1.tradeId = false := by
  unfold shadowQuote at h
  split at h
  next => exact absurd h (by simp)
  next =>
    obtain ⟨e, he, hq⟩ := Option.bind_eq_some_iff.mp h
    obtain ⟨leg, -, rfl⟩ := Option.map_eq_some_iff.mp hq
    exact Books.getClosedSignalEntry_eq_some he

/-- The mark of an open entry goes into the live table. -/
theorem tables_processLeg (s : Telemetry) (entry : EntryRow) (leg : OptionLeg) (tick : Tick) :
    (s.processLeg entry leg tick).marks =
        (if tick.faults.marks = true then none
          else nextMark (s.marks.getMarks entry.tradeId) entry leg tick.now).elim s.marks s.marks.insertSignalMark ∧
      (s.processLeg entry leg tick).shadowMarks = s.shadowMarks := by
  unfold processLeg
  split
  next => exact ⟨rfl, rfl⟩
  next =>
    cases nextMark (s.marks.getMarks entry.tradeId) entry leg tick.now with
    | none => exact ⟨rfl, rfl⟩
    | some row =>
      simp only
      cases evaluate entry.toSignalPaperEntry row.mark tick.now <;> exact ⟨rfl, rfl⟩

/-- The mark of a closed entry goes into the shadow table. -/
theorem tables_shadowTick (config : SignalConfig) (s : Telemetry) (tick : MarkTick) :
    (s.shadowTick config tick).marks = s.marks ∧
      (s.shadowTick config tick).shadowMarks =
        ((if squareOff ≤ tick.now.timeOfDay ∨ tick.shadowFault = true then none
          else (s.books.getClosedSignalEntry tick.now.date).bind fun e =>
            (shadowLegOf config tick e).map fun leg => (e, leg)).bind fun q =>
          nextMark (s.priorMarks q.1.tradeId) q.1 q.2 tick.now).elim s.shadowMarks
            s.shadowMarks.insertSignalMark := by
  unfold shadowTick
  split
  next => exact ⟨rfl, rfl⟩
  next =>
    cases s.books.getClosedSignalEntry tick.now.date with
    | none => exact ⟨rfl, rfl⟩
    | some e =>
      simp only [Option.bind_some]
      cases shadowLegOf config tick e with
      | none => exact ⟨rfl, rfl⟩
      | some leg =>
        simp only [Option.map_some, Option.bind_some]
        cases nextMark (s.priorMarks e.tradeId) e leg tick.now <;> exact ⟨rfl, rfl⟩

/-- **What a tick does to the mark tables.** -/
theorem tables_checkSignals (config : SignalConfig) (s : Telemetry) (tick : MarkTick) :
    (s.checkSignals config tick).marks =
        ((s.liveQuote config tick).bind fun q =>
          nextMark (s.marks.getMarks q.1.tradeId) q.1 q.2 tick.now).elim s.marks s.marks.insertSignalMark ∧
      (s.checkSignals config tick).shadowMarks =
        ((s.shadowQuote config tick).bind fun q =>
          nextMark (s.priorMarks q.1.tradeId) q.1 q.2 tick.now).elim s.shadowMarks
            s.shadowMarks.insertSignalMark := by
  unfold checkSignals liveQuote shadowQuote
  cases hget : tick.faults.getOpenEntry with
  | true => exact ⟨rfl, rfl⟩
  | false =>
    rw [if_neg Bool.false_ne_true]
    cases hopen : s.books.getOpenEntry with
    | none =>
      simp only [Bool.false_eq_true, false_or, Option.bind_none, ite_self, Option.elim_none, Option.isSome_none]
      exact tables_shadowTick config s tick
    | some e =>
      simp only [Bool.false_eq_true, false_or, Option.bind_some, Option.isSome_some, true_or, if_true,
        Option.bind_none, Option.elim_none]
      by_cases hfired : e.tradeId ∈ s.books.exitFiredTradeIds
      · simp only [if_pos hfired, ite_self, Option.bind_none, Option.elim_none, and_self]
      · simp only [if_neg hfired]
        cases legOf config tick.quotes e.toSignalPaperEntry with
        | none => simp only [Option.map_none, ite_self, Option.bind_none, Option.elim_none, and_self]
        | some leg =>
          obtain ⟨hmarks, hshadow⟩ := tables_processLeg s e leg tick.toTick
          refine ⟨hmarks.trans ?_, hshadow⟩
          cases tick.faults.marks <;> rfl

end Telemetry

/-! ### True extremes -/

namespace MarkTable

/-- A quote gives no mark, a mark whose timestamp is taken or not before that of the last mark
of its position, or one between the extremes of that mark. -/
def Admits (T : MarkTable) (now : Moment) (entry : EntryRow) (leg : OptionLeg) : Prop :=
  ∀ price ∈ markPrice leg, (entry.tradeId, now.key) ∉ markColumns.slots T.rows →
    ∀ m ∈ (T.getMarks entry.tradeId).getLast?, now.key < m.ts.key →
      m.maePct ≤ price / entry.entryPremium - 1 ∧ price / entry.entryPremium - 1 ≤ m.mfePct

end MarkTable

namespace Telemetry

variable {config : SignalConfig} {s : Telemetry}

/-- The last mark of each position has the extremes of zero and its stored `unrealised_pct`
values, and the last shadow mark those of zero and the stored values of both tables. -/
def TrueExtremes (s : Telemetry) : Prop :=
  ∀ tradeId,
    (∀ m ∈ (s.marks.getMarks tradeId).getLast?,
      Extremes ({0} ∪ s.marks.unrealised tradeId) m.maePct m.mfePct) ∧
    ∀ m ∈ (s.shadowMarks.getMarks tradeId).getLast?,
      Extremes ({0} ∪ s.marks.unrealised tradeId ∪ s.shadowMarks.unrealised tradeId) m.maePct m.mfePct

/-- A tick takes its mark from a quote its table admits. -/
def MarksInOrder (config : SignalConfig) (s : Telemetry) : MarkEvent → Prop
  | .tick t =>
    (∀ q ∈ s.liveQuote config t, s.marks.Admits t.now q.1 q.2) ∧
      ∀ q ∈ s.shadowQuote config t, s.shadowMarks.Admits t.now q.1 q.2
  | _ => True

/-- What holds in every state of a run: shadow marks are of closed entries. -/
structure ShadowsClosed (s : Telemetry) : Prop where
  /-- The other tables are consistent. -/
  consistent : Consistent s.books.track
  /-- The entry of a shadow mark is closed. -/
  closed : ∀ m ∈ s.shadowMarks.rows,
    m.tradeId ∈ s.books.entries.map (·.tradeId) ∧ isOpenRow s.books.trades m.tradeId = false

theorem trueExtremes_iff :
    s.TrueExtremes ↔ (∀ id, markColumns.HoldsExtremes {0} id s.marks.rows) ∧
      ∀ id, markColumns.HoldsExtremes ({0} ∪ s.marks.unrealised id) id s.shadowMarks.rows :=
  forall_and

/-- The mark a shadow mark follows. -/
theorem getLast?_priorMarks (s : Telemetry) (id : ℕ) :
    (s.priorMarks id).getLast? =
      ((s.shadowMarks.getMarks id).getLast?).or (s.marks.getMarks id).getLast? := by
  rw [priorMarks]
  cases s.shadowMarks.getMarks id with
  | nil => rfl
  | cons m marks => rw [List.getLast?_cons, Option.some_or]

/-- **Every event keeps the entries of shadow marks closed.** -/
theorem ShadowsClosed.step (config : SignalConfig) (h : s.ShadowsClosed) (ev : MarkEvent) :
    (s.step config ev).ShadowsClosed := by
  have hbooks := books_step config s ev
  have hkept : ∀ {id}, id ∈ s.books.entries.map (·.tradeId) → isOpenRow s.books.trades id = false →
      id ∈ (s.step config ev).books.entries.map (·.tradeId) ∧
        isOpenRow (s.step config ev).books.trades id = false := fun hid hclosed => by
    rw [hbooks]
    exact Books.closed_step h.consistent config _ hid hclosed
  refine ⟨hbooks ▸ Books.consistent_step config h.consistent _, fun m hm => ?_⟩
  cases ev with
  | entry o => exact hkept (h.closed m hm).1 (h.closed m hm).2
  | restart => exact hkept (h.closed m hm).1 (h.closed m hm).2
  | tick t =>
    rw [Telemetry.step, (tables_checkSignals config s t).2] at hm
    cases hrow : (s.shadowQuote config t).bind fun q => nextMark (s.priorMarks q.1.tradeId) q.1 q.2 t.now with
    | none =>
      rw [hrow] at hm
      exact hkept (h.closed m hm).1 (h.closed m hm).2
    | some row =>
      rw [hrow, Option.elim_some] at hm
      rcases Columns.mem_insertNew hm with hm | rfl
      · exact hkept (h.closed m hm).1 (h.closed m hm).2
      · obtain ⟨⟨e, leg⟩, hq, hnext⟩ := Option.bind_eq_some_iff.mp hrow
        rw [(nextMark_eq_some hnext).1]
        obtain ⟨he, hclosed⟩ := closed_of_shadowQuote hq
        exact hkept (List.mem_map_of_mem he) hclosed

/-- A row made from a quote carries what the last mark of its table has, or the extremes
`lo` and `hi` the marks before it have if its table has none. -/
theorem carries_nextMark {T : MarkTable} {prior : List SignalMark} {q : EntryRow × OptionLeg} {now : Moment}
    {row : SignalMark} (before : Option SignalMark) (h : nextMark prior q.1 q.2 now = some row)
    (hprior : prior.getLast? = ((T.getMarks q.1.tradeId).getLast?).or before) :
    markColumns.Carries ((before.map (·.maePct)).getD 0) ((before.map (·.mfePct)).getD 0) T.rows row := by
  obtain ⟨hid, -, -, -, hmae, hmfe⟩ := nextMark_eq_some h
  have hlast : markColumns.last (markColumns.key row) T.rows = (T.getMarks q.1.tradeId).getLast? := by
    rw [← hid]
    rfl
  rw [hprior] at hmae hmfe
  constructor
  · rw [hlast]
    refine hmae.trans ?_
    cases (T.getMarks q.1.tradeId).getLast? <;> rfl
  · rw [hlast]
    refine hmfe.trans ?_
    cases (T.getMarks q.1.tradeId).getLast? <;> rfl

/-- What a table admits of a quote is what keeps the extremes of its row. -/
theorem admits_iff {T : MarkTable} {prior : List SignalMark} {q : EntryRow × OptionLeg} {now : Moment}
    {row : SignalMark} (h : nextMark prior q.1 q.2 now = some row) :
    T.Admits now q.1 q.2 ↔
      ((markColumns.key row, markColumns.time row) ∉ markColumns.slots T.rows →
        ∀ m ∈ markColumns.last (markColumns.key row) T.rows, markColumns.time row < markColumns.time m →
          markColumns.low m ≤ markColumns.value row ∧ markColumns.value row ≤ markColumns.high m) := by
  obtain ⟨hid, hts, hprice, hvalue, -⟩ := nextMark_eq_some h
  simp only [MarkTable.Admits, hprice, Option.mem_some_iff, forall_eq', MarkTable.getMarks, Columns.last,
    markColumns, hid, hts, hvalue]

theorem admits_of_nextMark_eq_none {T : MarkTable} {prior : List SignalMark} {q : EntryRow × OptionLeg}
    {now : Moment} (h : nextMark prior q.1 q.2 now = none) : T.Admits now q.1 q.2 := by
  intro price hprice
  rw [nextMark_eq_none h] at hprice
  exact absurd hprice (by simp)

theorem trueExtremes_congr {s' : Telemetry} (hmarks : s'.marks = s.marks)
    (hshadow : s'.shadowMarks = s.shadowMarks) : s'.TrueExtremes ↔ s.TrueExtremes := by
  rw [TrueExtremes, TrueExtremes, hmarks, hshadow]

/-- A live mark keeps the true extremes exactly when its table admits it. -/
theorem trueExtremes_live_iff {s' : Telemetry} {q : EntryRow × OptionLeg} {now : Moment} (hs : s.ShadowsClosed)
    (h : s.TrueExtremes) (hopen : s.books.getOpenEntry = some q.1)
    (hmarks : s'.marks = (nextMark (s.marks.getMarks q.1.tradeId) q.1 q.2 now).elim s.marks
      s.marks.insertSignalMark)
    (hshadow : s'.shadowMarks = s.shadowMarks) : s'.TrueExtremes ↔ s.marks.Admits now q.1 q.2 := by
  obtain ⟨hlive, hshadows⟩ := trueExtremes_iff.mp h
  cases hrow : nextMark (s.marks.getMarks q.1.tradeId) q.1 q.2 now with
  | none =>
    rw [hrow] at hmarks
    exact iff_of_true ((trueExtremes_congr hmarks hshadow).mpr h) (admits_of_nextMark_eq_none hrow)
  | some row =>
    rw [hrow, Option.elim_some] at hmarks
    have hcarries : markColumns.Carries 0 0 s.marks.rows row :=
      carries_nextMark none hrow Option.or_none.symm
    rw [admits_iff hrow, ← Columns.forall_holdsExtremes_insertNew_iff s.marks.unique (S := fun _ => {0}) hlive
      (extremes_singleton 0) hcarries, trueExtremes_iff, hmarks, hshadow]
    refine and_iff_left fun id => ?_
    by_cases hid : markColumns.key row = id
    · -- the entry is open, so it has no shadow mark
      intro m hm
      obtain ⟨hmem, hkey, -⟩ := (Columns.last_eq_some_iff s.shadowMarks.unique).mp hm
      have hclosed := (hs.closed m hmem).2
      rw [show m.tradeId = q.1.tradeId from hkey.trans (hid.symm.trans (nextMark_eq_some hrow).1),
        (Books.getOpenEntry_eq_some hopen).2] at hclosed
      exact absurd hclosed (by decide)
    · have hsame : (s.marks.insertSignalMark row).unrealised id = s.marks.unrealised id :=
        Columns.values_insertNew_of_ne hid
      rw [hsame]
      exact hshadows id

/-- A shadow mark keeps the true extremes exactly when its table admits it. -/
theorem trueExtremes_shadow_iff {s' : Telemetry} {q : EntryRow × OptionLeg} {now : Moment}
    (h : s.TrueExtremes) (hmarks : s'.marks = s.marks)
    (hshadow : s'.shadowMarks = (nextMark (s.priorMarks q.1.tradeId) q.1 q.2 now).elim s.shadowMarks
      s.shadowMarks.insertSignalMark) : s'.TrueExtremes ↔ s.shadowMarks.Admits now q.1 q.2 := by
  obtain ⟨hlive, hshadows⟩ := trueExtremes_iff.mp h
  cases hrow : nextMark (s.priorMarks q.1.tradeId) q.1 q.2 now with
  | none =>
    rw [hrow] at hshadow
    exact iff_of_true ((trueExtremes_congr hmarks hshadow).mpr h) (admits_of_nextMark_eq_none hrow)
  | some row =>
    rw [hrow, Option.elim_some] at hshadow
    have hcarries := carries_nextMark _ hrow (getLast?_priorMarks s q.1.tradeId)
    have hseed := (hlive (markColumns.key row)).carried (extremes_singleton 0)
    rw [show markColumns.key row = q.1.tradeId from (nextMark_eq_some hrow).1] at hseed
    rw [admits_iff hrow, ← Columns.forall_holdsExtremes_insertNew_iff s.shadowMarks.unique hshadows
      (by rwa [show markColumns.key row = q.1.tradeId from (nextMark_eq_some hrow).1]) hcarries,
      trueExtremes_iff, hmarks, hshadow]
    exact and_iff_right hlive

/-- One event keeps the true extremes exactly when its mark is in order. -/
theorem trueExtremes_step_iff (config : SignalConfig) (s : Telemetry) (ev : MarkEvent) (hs : s.ShadowsClosed)
    (h : s.TrueExtremes) : (s.step config ev).TrueExtremes ↔ s.MarksInOrder config ev := by
  cases ev with
  | entry o => exact iff_of_true h trivial
  | restart => exact iff_of_true h trivial
  | tick t =>
    obtain ⟨hmarks, hshadow⟩ := tables_checkSignals config s t
    rw [Telemetry.step, MarksInOrder]
    cases hlive : s.liveQuote config t with
    | some q =>
      obtain ⟨hopen, hnone⟩ := open_of_liveQuote hlive
      rw [hlive, Option.bind_some] at hmarks
      rw [hnone] at hshadow
      rw [hnone, trueExtremes_live_iff hs h hopen hmarks hshadow]
      simp
    | none =>
      rw [hlive] at hmarks
      cases hq : s.shadowQuote config t with
      | none =>
        rw [hq] at hshadow
        exact iff_of_true ((trueExtremes_congr hmarks hshadow).mpr h) (by simp)
      | some q =>
        rw [hq, Option.bind_some] at hshadow
        rw [trueExtremes_shadow_iff h hmarks hshadow]
        simp

theorem shadowsClosed_initial (T : PaperTrades) : (initial T).ShadowsClosed :=
  ⟨consistent_initial T, fun m hm => absurd hm (by simp [initial])⟩

theorem trueExtremes_initial (T : PaperTrades) : (initial T).TrueExtremes := by
  intro id
  constructor
  · intro m hm
    exact absurd hm (by simp [initial, MarkTable.getMarks, Columns.inOrder])
  · intro m hm
    exact absurd hm (by simp [initial, MarkTable.getMarks, Columns.inOrder])

/-- **The excursions are true extremes** in every state of a run exactly when every mark is
stored in the order of its timestamp or within the extremes of the last of its series. -/
theorem trueExtremes_run_iff (config : SignalConfig) (T : PaperTrades) (evs : List MarkEvent) :
    Run.Along (step config) TrueExtremes (initial T) evs ↔
      Run.EachStep (step config) (MarksInOrder config) (initial T) evs :=
  Run.along_iff_eachStep (I := ShadowsClosed) (fun _ ev hs => hs.step config ev)
    (fun s ev hs h => trueExtremes_step_iff config s ev hs h) (shadowsClosed_initial T) (trueExtremes_initial T)

/-- The clock of a tick is not behind a stored mark. -/
def ClockKept (s : Telemetry) : MarkEvent → Prop
  | .tick t => ∀ m, m ∈ s.marks.rows ∨ m ∈ s.shadowMarks.rows → m.ts.key ≤ t.now.key
  | _ => True

/-- **A clock that never goes back** keeps the excursions true extremes. -/
theorem trueExtremes_of_clockKept (config : SignalConfig) (T : PaperTrades) (evs : List MarkEvent)
    (h : Run.EachStep (step config) ClockKept (initial T) evs) :
    Run.Along (step config) TrueExtremes (initial T) evs := by
  refine Run.along_of_invariant (I := fun s => s.ShadowsClosed ∧ s.TrueExtremes) (fun s ev hs hclock => ?_)
    (fun s hs => hs.2) ⟨shadowsClosed_initial T, trueExtremes_initial T⟩ h
  refine ⟨hs.1.step config ev, (trueExtremes_step_iff config s ev hs.1 hs.2).mpr ?_⟩
  cases ev with
  | entry o => trivial
  | restart => trivial
  | tick t =>
    have hlate : ∀ (M : MarkTable), (∀ m ∈ M.rows, m.ts.key ≤ t.now.key) → ∀ e leg, M.Admits t.now e leg :=
      fun M hM e leg price _ _ m hm hlt =>
        absurd hlt (not_lt.mpr (hM m ((Columns.last_eq_some_iff M.unique).mp hm).1))
    exact ⟨fun q _ => hlate _ (fun m hm => hclock m (Or.inl hm)) _ _,
      fun q _ => hlate _ (fun m hm => hclock m (Or.inr hm)) _ _⟩

/-! ### A clock set back -/

/-- A tick of the fallback with the call at this price. -/
def callTick (timeOfDay : ℕ) (ltp : ℚ) : MarkEvent :=
  .tick
    { quotes := .ltps ((Dict.empty.set "NSE_FO|51204" ltp).set "NSE_INDEX|Nifty 50" 24600)
      now := ⟨739791, timeOfDay⟩ }

/-- The call bought at 100 is marked at 110 at 10:00, and a minute earlier on the clock at 120. -/
def clockSetBack : List MarkEvent :=
  [.entry callOrder, callTick 36000000000 110, callTick 35940000000 120]

/-- The last mark by its timestamp has a high of 10 %, and the high was 20 %. -/
theorem clockSetBack_loses_high :
    ¬Run.Along (step {}) TrueExtremes (initial PaperTrades.empty) clockSetBack := by
  intro h
  have hlast := Run.along_iff_final.mp h clockSetBack List.prefix_rfl
  have hhigh : (((Run.final (step {}) (initial PaperTrades.empty) clockSetBack).marks.getMarks 1).getLast?.any
      fun m => m.mfePct < 1 / 5) = true := by
    decide +kernel
  have hseen : ((Run.final (step {}) (initial PaperTrades.empty) clockSetBack).marks.rows.any
      fun m => m.tradeId = 1 ∧ m.unrealisedPct = 1 / 5) = true := by
    decide +kernel
  obtain ⟨m, hm, hlt⟩ := (Option.any_eq_true _ _).mp hhigh
  obtain ⟨m', hm', hvalue⟩ := List.any_eq_true.mp hseen
  obtain ⟨hid, hvalue⟩ := of_decide_eq_true hvalue
  have hle := ((hlast 1).1 m hm).greatest.2 (Or.inr ⟨m', hm', hid, hvalue⟩)
  exact absurd (of_decide_eq_true hlt) (not_lt.mpr hle)

end Telemetry

end NiftyShield.Strategy.SignalTrack
