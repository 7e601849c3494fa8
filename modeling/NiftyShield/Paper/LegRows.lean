import NiftyShield.Paper.Closing

/-!
# The rows of a leg

What the ledger holds of one leg, that is of a strategy, a leg role and an instrument
(`legRows`): its net quantity and which of its unique keys are taken can be read off these
rows. A close (`recordClose`) whose key is free closes the rows of its leg that are OPEN or
DEFENDED and adds one (`legRows_recordClose_self`); it touches no other leg
(`legRows_recordClose_of_ne`).
-/

namespace NiftyShield.Paper

open NiftyShield.Lib

/-- A leg: strategy, and (leg role, instrument key). -/
abbrev LegId := String × String × String

/-- The leg of a trade. -/
def PaperTrade.legId (t : PaperTrade) : LegId := (t.strategyName, t.legInstrument)

theorem inPair_iff {id : LegId} {t : PaperTrade} : PaperTrades.inPair id.1 id.2 t = true ↔ t.legId = id := by
  simp [PaperTrades.inPair, PaperTrade.legId, Prod.ext_iff]

/-- OPEN or DEFENDED. -/
def TradeState.Live (state : TradeState) : Prop := state = .open ∨ state = .defended

instance (state : TradeState) : Decidable state.Live := inferInstanceAs (Decidable (_ ∨ _))

/-- A row after `mark_trade_closed` of its leg. -/
def TradeRow.close (r : TradeRow) : TradeRow :=
  if r.trade.state.Live then { r with trade := { r.trade with state := .closed } } else r

/-- A row that is not CLOSED after it awaits re-entry, and was not touched. -/
theorem state_close (r : TradeRow) :
    r.close.trade.state = .closed ∨ r.close.trade.state = .reEntryPending ∧ r.close = r := by
  unfold TradeRow.close
  split
  next => exact Or.inl rfl
  next hdead =>
    cases hstate : r.trade.state with
    | «open» => exact absurd (Or.inl hstate) hdead
    | defended => exact absurd (Or.inr hstate) hdead
    | reEntryPending => exact Or.inr ⟨rfl, rfl⟩
    | closed => exact Or.inl rfl

namespace PaperTrades

variable {T : PaperTrades} {t : PaperTrade} {id : LegId}

/-- The rows of a leg. -/
def legRows (T : PaperTrades) (id : LegId) : List TradeRow := T.rows.filter fun r => r.trade.legId = id

theorem mem_legRows {r : TradeRow} : r ∈ T.legRows id ↔ r ∈ T.rows ∧ r.trade.legId = id := by
  simp [legRows]

/-- The net quantity of a leg. -/
theorem netQty_eq_legRows (T : PaperTrades) (id : LegId) :
    T.netQty id.1 id.2 = netOf PaperTrade.signedQty ((T.legRows id).map (·.trade)) := by
  rw [netQty, legRows, List.filter_map]
  congr 2
  refine List.filter_congr fun r _ => ?_
  rw [Bool.eq_iff_iff, decide_eq_true_iff]
  exact inPair_iff

/-- Closing rows moves no quantity. -/
theorem netOf_map_close (rows : List TradeRow) : netOf PaperTrade.signedQty ((rows.map TradeRow.close).map (·.trade)) =
    netOf PaperTrade.signedQty (rows.map (·.trade)) := by
  have hqty : ∀ r : TradeRow, r.close.trade.signedQty = r.trade.signedQty := by
    intro r
    unfold TradeRow.close
    split <;> rfl
  simp only [netOf, List.map_map, Function.comp_def, hqty]

/-- A key is taken by a row of its leg. -/
theorem hasKey_eq_legRows (T : PaperTrades) (t : PaperTrade) :
    T.hasKey t.uniqueKey = (T.legRows t.legId).any fun r => r.trade.uniqueKey = t.uniqueKey := by
  rw [Bool.eq_iff_iff, hasKey_iff, List.any_eq_true]
  constructor
  · rintro ⟨r, hr, hkey⟩
    have hleg : r.trade.legId = t.legId := by
      simp only [PaperTrade.uniqueKey, PaperTrade.UniqueKey.mk.injEq] at hkey
      simp [PaperTrade.legId, PaperTrade.legInstrument, hkey.1, hkey.2.1, hkey.2.2.1]
    exact ⟨r, mem_legRows.mpr ⟨hr, hleg⟩, decide_eq_true hkey⟩
  · rintro ⟨r, hr, hkey⟩
    exact ⟨r, (mem_legRows.mp hr).1, of_decide_eq_true hkey⟩

/-- `get_strategy_names`. -/
def getStrategyNames (T : PaperTrades) : List String :=
  (T.rows.map fun r => r.trade.strategyName).eraseDups.insertionSort fun s s' => s ≤ s'

theorem mem_getStrategyNames {s : String} : s ∈ T.getStrategyNames ↔ ∃ r ∈ T.rows, r.trade.strategyName = s := by
  rw [getStrategyNames, (List.perm_insertionSort _ _).mem_iff, List.mem_eraseDups, List.mem_map]

theorem nodup_getStrategyNames (T : PaperTrades) : T.getStrategyNames.Nodup :=
  (List.perm_insertionSort _ _).nodup_iff.mpr (Grouping.nodup_eraseDups _)

/-! ### Closes -/

theorem legRows_recordTrade (h : T.hasKey t.uniqueKey = false) :
    (T.recordTrade t).1.legRows id = T.legRows id ++ if t.legId = id then [⟨T.nextId, t⟩] else [] := by
  rw [legRows, (recordTrade_fresh h).2, List.filter_append, legRows]
  congr 1
  by_cases hid : t.legId = id
  · simp [hid]
  · simp [hid]

theorem isActive_iff {u : PaperTrade} :
    isActive t.strategyName t.legRole t.instrumentKey u = true ↔ u.legId = t.legId ∧ u.state.Live := by
  simp [isActive, PaperTrade.legId, PaperTrade.legInstrument, TradeState.Live, Prod.ext_iff, and_assoc]

/-- `mark_trade_closed` closes the live rows of its leg. -/
theorem legRows_markTradeClosed : (T.markTradeClosed t.strategyName t.legRole t.instrumentKey).legRows id =
    if t.legId = id then (T.legRows id).map TradeRow.close else T.legRows id := by
  have hleg : ∀ r : TradeRow, (if isActive t.strategyName t.legRole t.instrumentKey r.trade
      then { r with trade := { r.trade with state := .closed } } else r).trade.legId = r.trade.legId := by
    intro r
    split <;> rfl
  have hrows : (T.markTradeClosed t.strategyName t.legRole t.instrumentKey).legRows id =
      (T.legRows id).map fun r => if isActive t.strategyName t.legRole t.instrumentKey r.trade
        then { r with trade := { r.trade with state := .closed } } else r := by
    rw [legRows, markTradeClosed, rows_updateState, List.filter_map, legRows]
    congr 1
    exact List.filter_congr fun r _ => by rw [Function.comp_apply, hleg]
  rw [hrows]
  split
  next hid =>
    refine List.map_congr_left fun r hr => ?_
    have hactive : isActive t.strategyName t.legRole t.instrumentKey r.trade = true ↔ r.trade.state.Live := by
      rw [isActive_iff, (mem_legRows.mp hr).2, hid, and_iff_right rfl]
    simp only [TradeRow.close, hactive]
  next hid =>
    refine (List.map_congr_left fun r hr => ?_).trans (List.map_id _)
    rw [if_neg]
    · rfl
    · rw [isActive_iff, (mem_legRows.mp hr).2]
      exact fun h => hid h.1.symm

/-- **A close** touches no other leg. -/
theorem legRows_recordClose_of_ne (h : t.legId ≠ id) : (T.recordClose t).legRows id = T.legRows id := by
  cases hkey : T.hasKey t.uniqueKey with
  | true => rw [recordClose_duplicate hkey]
  | false =>
    rw [recordClose, (recordTrade_fresh hkey).1, if_pos rfl, legRows_markTradeClosed, if_neg h,
      legRows_recordTrade hkey, if_neg h, List.append_nil]

/-- **A close with a free key** closes the rows of its leg and adds one. -/
theorem legRows_recordClose_self (h : T.hasKey t.uniqueKey = false) : (T.recordClose t).legRows t.legId =
    (T.legRows t.legId).map TradeRow.close ++ [(⟨T.nextId, t⟩ : TradeRow).close] := by
  rw [recordClose, (recordTrade_fresh h).1, if_pos rfl, legRows_markTradeClosed, if_pos rfl,
    legRows_recordTrade h, if_pos rfl, List.map_append]
  rfl

/-! ### Lists of closes -/

@[simp] theorem recordCloses_nil (T : PaperTrades) : T.recordCloses [] = T := rfl

@[simp] theorem recordCloses_cons (T : PaperTrades) (t : PaperTrade) (ts : List PaperTrade) :
    T.recordCloses (t :: ts) = (T.recordClose t).recordCloses ts := rfl

/-- Closes of other legs leave a leg as it is. -/
theorem legRows_recordCloses_of_not_mem {ts : List PaperTrade} : ∀ {T : PaperTrades},
    (∀ t ∈ ts, t.legId ≠ id) → (T.recordCloses ts).legRows id = T.legRows id := by
  induction ts with
  | nil => exact fun _ => rfl
  | cons t ts ih =>
    intro T h
    rw [recordCloses_cons, ih fun u hu => h u (List.mem_cons_of_mem t hu),
      legRows_recordClose_of_ne (h t List.mem_cons_self)]

/-- A close among closes of other legs is the only one its leg sees. -/
theorem legRows_recordCloses_of_mem {ts : List PaperTrade} : ∀ {T : PaperTrades},
    (ts.map PaperTrade.legId).Nodup → t ∈ ts → T.hasKey t.uniqueKey = false →
      ∃ n, (T.recordCloses ts).legRows t.legId =
        (T.legRows t.legId).map TradeRow.close ++ [(⟨n, t⟩ : TradeRow).close] := by
  induction ts with
  | nil => exact fun _ ht => absurd ht List.not_mem_nil
  | cons u ts ih =>
    intro T hnodup ht hfree
    obtain ⟨hnew, hrest⟩ := List.nodup_cons.mp hnodup
    rw [recordCloses_cons]
    rcases List.mem_cons.mp ht with rfl | ht
    · have hothers : ∀ v ∈ ts, v.legId ≠ t.legId := fun v hv hid => hnew (hid ▸ List.mem_map_of_mem hv)
      exact ⟨T.nextId, by rw [legRows_recordCloses_of_not_mem hothers, legRows_recordClose_self hfree]⟩
    · have hne : u.legId ≠ t.legId := fun hid => hnew (hid ▸ List.mem_map_of_mem ht)
      have hsame := legRows_recordClose_of_ne (T := T) hne
      have hfree' : (T.recordClose u).hasKey t.uniqueKey = false := by
        rw [hasKey_eq_legRows, hsame, ← hasKey_eq_legRows, hfree]
      rw [← hsame]
      exact ih hrest ht hfree'

end PaperTrades

end NiftyShield.Paper
