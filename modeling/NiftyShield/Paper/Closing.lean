import NiftyShield.Paper.Batch

/-!
# Closing positions one trade at a time

Most strategies close a leg with `record_trade` for the whole position and, if the trade was
inserted, `mark_trade_closed` for the leg (`recordClose`). A trade whose unique key is taken
is dropped, so the position stays open. Here: what one such close and a list of them leave of
the positions (`getPositions_recordClose`, `getPositions_recordCloses`), and what a batch of
fresh trades makes of a strategy with no position (`openedPairs`).
-/

namespace NiftyShield.Paper

open NiftyShield.Instruments NiftyShield.Lib

namespace PaperTrades

/-- `record_trade`, then `mark_trade_closed` if the trade was inserted. -/
def recordClose (T : PaperTrades) (t : PaperTrade) : PaperTrades :=
  if (T.recordTrade t).2 then
    (T.recordTrade t).1.markTradeClosed t.strategyName t.legRole t.instrumentKey
  else (T.recordTrade t).1

/-- The trade takes a position of the strategy to zero. -/
structure Closes (s : String) (t : PaperTrade) (p : PaperPosition) : Prop where
  /-- It is of the strategy. -/
  strategy : t.strategyName = s
  /-- It is of the position's leg and instrument. -/
  pair : t.legInstrument = p.pair
  /-- It has the whole quantity. -/
  quantity : t.signedQty = -p.netQty

variable {T : PaperTrades} {lookup : Option InstrumentLookup} {s : String}

theorem recordClose_duplicate {t : PaperTrade} (h : T.hasKey t.uniqueKey = true) : T.recordClose t = T := by
  rw [recordClose, recordTrade_duplicate h]
  rfl

theorem hasKey_recordClose (t : PaperTrade) (k : PaperTrade.UniqueKey) :
    (T.recordClose t).hasKey k = (T.hasKey k || decide (k = t.uniqueKey)) := by
  rw [recordClose]
  split
  · rw [markTradeClosed, hasKey_updateState, hasKey_recordTrade]
  · rw [hasKey_recordTrade]

/-- A close adds its units to its own pair and to no other. -/
theorem netQty_recordClose {t : PaperTrade} (h : T.hasKey t.uniqueKey = false) (s : String) (k : String × String) :
    (T.recordClose t).netQty s k = T.netQty s k + if inPair s k t then t.signedQty else 0 := by
  rw [recordClose, (recordTrade_fresh h).1, if_pos rfl, markTradeClosed, netQty_updateState, netQty_recordTrade h]

/-- **One close**: the position goes, unless the key of its trade is taken. -/
theorem getPositions_recordClose {t : PaperTrade} {p : PaperPosition} (hp : p ∈ T.getPositions lookup s)
    (h : Closes s t p) :
    (T.recordClose t).getPositions lookup s =
      if T.hasKey t.uniqueKey = true then T.getPositions lookup s
      else (T.getPositions lookup s).filter fun q => q.pair ≠ p.pair := by
  cases hkey : T.hasKey t.uniqueKey with
  | true => rw [recordClose_duplicate hkey, if_pos rfl]
  | false =>
    have hzero : (T.recordTrade t).1.netQty s t.legInstrument = 0 := by
      have hin : inPair s t.legInstrument t = true := by simp [inPair, h.strategy]
      rw [netQty_recordTrade hkey, if_pos hin, h.pair, ← netQty_of_mem hp, h.quantity]
      exact add_neg_cancel _
    rw [recordClose, (recordTrade_fresh hkey).1, if_pos rfl, markTradeClosed, getPositions_updateState,
      getPositions_close lookup s hzero, h.pair, if_neg Bool.false_ne_true]

/-- The closes of a list, in turn. -/
def recordCloses (T : PaperTrades) (ts : List PaperTrade) : PaperTrades := ts.foldl recordClose T

/-- **A list of closes** takes away the positions whose trades have free keys. -/
theorem getPositions_recordCloses {ts : List PaperTrade} : ∀ {T : PaperTrades},
    (∀ t ∈ ts, ∃ p ∈ T.getPositions lookup s, Closes s t p) →
      ts.Pairwise (fun t u => t.legInstrument ≠ u.legInstrument) →
      (T.recordCloses ts).getPositions lookup s =
        (T.getPositions lookup s).filter fun q =>
          ts.all fun t => T.hasKey t.uniqueKey || decide (t.legInstrument ≠ q.pair) := by
  induction ts with
  | nil =>
    intro T _ _
    simp [recordCloses]
  | cons t ts ih =>
    intro T hts hne
    obtain ⟨hhead, hrest⟩ := List.pairwise_cons.mp hne
    obtain ⟨p, hp, hclose⟩ := hts t List.mem_cons_self
    have hpos := getPositions_recordClose hp hclose
    have hkeys : ∀ u ∈ ts, (T.recordClose t).hasKey u.uniqueKey = T.hasKey u.uniqueKey := by
      intro u hu
      have hk : u.uniqueKey ≠ t.uniqueKey := fun heq => hhead u hu
        (Prod.ext (congrArg PaperTrade.UniqueKey.legRole heq).symm
          (congrArg PaperTrade.UniqueKey.instrumentKey heq).symm)
      rw [hasKey_recordClose]
      simp [hk]
    have hts' : ∀ u ∈ ts, ∃ q ∈ (T.recordClose t).getPositions lookup s, Closes s u q := by
      intro u hu
      obtain ⟨q, hq, hqclose⟩ := hts u (List.mem_cons_of_mem t hu)
      refine ⟨q, ?_, hqclose⟩
      rw [hpos]
      split
      · exact hq
      · refine List.mem_filter.mpr ⟨hq, decide_eq_true fun hpair => hhead u hu ?_⟩
        rw [hclose.pair, hqclose.pair, hpair]
    have hstep : T.recordCloses (t :: ts) = (T.recordClose t).recordCloses ts := rfl
    rw [hstep, ih hts' hrest, hpos]
    have hall : ∀ q : PaperPosition,
        (ts.all fun u => (T.recordClose t).hasKey u.uniqueKey || decide (u.legInstrument ≠ q.pair)) =
          ts.all fun u => T.hasKey u.uniqueKey || decide (u.legInstrument ≠ q.pair) := by
      intro q
      rw [Bool.eq_iff_iff, List.all_eq_true, List.all_eq_true]
      exact forall₂_congr fun u hu => by rw [hkeys u hu]
    simp only [hall, List.all_cons]
    cases hkey : T.hasKey t.uniqueKey with
    | true => simp
    | false =>
      rw [if_neg Bool.false_ne_true, List.filter_filter]
      refine List.filter_congr fun q _ => ?_
      rw [Bool.false_or, hclose.pair, Bool.and_comm]
      simp [ne_comm]

/-- **What a batch opens** for a strategy that holds nothing: with all keys free and one trade
a leg, a position for each trade, of its leg and quantity. -/
theorem openedPairs {ts : List PaperTrade} (hflat : T.getPositions lookup s = [])
    (hfree : ∀ t ∈ ts, T.hasKey t.uniqueKey = false) (hs : ∀ t ∈ ts, t.strategyName = s)
    (hne : ts.Pairwise fun t u => t.legInstrument ≠ u.legInstrument) :
    (((T.recordTrades ts).1.getPositions lookup s).map fun p => (p.pair, p.netQty)).Perm
      (ts.map fun t => (t.legInstrument, t.signedQty)) := by
  have hkeys : ts.Pairwise fun t u => t.uniqueKey ≠ u.uniqueKey := hne.imp fun h heq => h
    (Prod.ext (congrArg PaperTrade.UniqueKey.legRole heq) (congrArg PaperTrade.UniqueKey.instrumentKey heq))
  have hzero : ∀ k, T.netQty s k = 0 := by
    intro k
    by_contra hk
    obtain ⟨p, hp, -⟩ : ∃ p ∈ T.getPositions lookup s, p.pair = k := exists_position_iff.mpr hk
    rw [hflat] at hp
    exact absurd hp (by simp)
  have hfilter : (ts.filter fun t => !T.hasKey t.uniqueKey) = ts :=
    List.filter_eq_self.mpr fun t ht => by simp [hfree t ht]
  have hnet : ∀ k, (T.recordTrades ts).1.netQty s k = unitsAt ts k := by
    intro k
    rw [netQty_recordTrades hkeys hs, hzero, zero_add, hfilter]
  have hunits : ∀ t ∈ ts, unitsAt ts t.legInstrument = t.signedQty := by
    intro t ht
    have hone : ts.filter (fun u => decide (u.legInstrument = t.legInstrument)) = [t] := by
      clear hfree hs hkeys hfilter hnet
      induction ts with
      | nil => exact absurd ht (by simp)
      | cons u us ih =>
        obtain ⟨hhead, hrest⟩ := List.pairwise_cons.mp hne
        rcases List.mem_cons.mp ht with rfl | ht
        · have hnone : us.filter (fun v => decide (v.legInstrument = t.legInstrument)) = [] :=
            List.filter_eq_nil_iff.mpr fun v hv => by simpa using (hhead v hv).symm
          simp [hnone]
        · rw [List.filter_cons, if_neg (by simpa using hhead t ht)]
          exact ih hrest ht
    rw [unitsAt, hone, netOf_singleton]
  have hnodup : (((T.recordTrades ts).1.getPositions lookup s).map fun p => (p.pair, p.netQty)).Nodup := by
    refine List.Nodup.of_map Prod.fst ?_
    rw [List.map_map]
    exact nodup_pairs _ lookup s
  have hnodup' : (ts.map fun t => (t.legInstrument, t.signedQty)).Nodup := by
    refine List.Nodup.of_map Prod.fst ?_
    rw [List.map_map]
    exact List.pairwise_map.mpr hne
  refine (List.perm_ext_iff_of_nodup hnodup hnodup').mpr fun kq => ?_
  rw [List.mem_map, List.mem_map]
  constructor
  · rintro ⟨p, hp, rfl⟩
    have hpnet := netQty_of_mem hp
    have hopen := (getPositions_open hp).2.1
    rw [hnet] at hpnet
    by_cases hleg : ∃ t ∈ ts, t.legInstrument = p.pair
    · obtain ⟨t, ht, hpair⟩ := hleg
      exact ⟨t, ht, by rw [hpnet, ← hpair, hunits t ht]⟩
    · have hnone : unitsAt ts p.pair = 0 := unitsAt_eq_zero fun t ht hpair => hleg ⟨t, ht, hpair⟩
      exact absurd (hpnet.trans hnone) hopen
  · rintro ⟨t, ht, rfl⟩
    have hqty : t.signedQty ≠ 0 := by
      have := t.quantity_pos
      unfold PaperTrade.signedQty
      cases t.action <;> simp only <;> omega
    obtain ⟨p, hp, hpair⟩ : ∃ p ∈ (T.recordTrades ts).1.getPositions lookup s, p.pair = t.legInstrument := by
      rw [exists_position_iff, hnet, hunits t ht]
      exact hqty
    refine ⟨p, hp, ?_⟩
    rw [netQty_of_mem hp, hpair, hnet, hunits t ht]

/-- `record_trade` for each trade is `record_trades`. -/
theorem foldl_recordTrade (ts : List PaperTrade) : ∀ T : PaperTrades,
    ts.foldl (fun T t => (T.recordTrade t).1) T = (T.recordTrades ts).1 := by
  induction ts with
  | nil => exact fun _ => rfl
  | cons t ts ih =>
    intro T
    rw [List.foldl_cons, ih, recordTrades]
    split <;> rfl

/-- A batch that sells nothing of a pair does not lower its quantity. -/
theorem netQty_le_recordTrades {s : String} {k : String × String} : ∀ {ts : List PaperTrade} {T : PaperTrades},
    (∀ t ∈ ts, T.hasKey t.uniqueKey = false → t.strategyName = s → t.legInstrument = k → t.action = .buy) →
    T.netQty s k ≤ (T.recordTrades ts).1.netQty s k := by
  intro ts
  induction ts with
  | nil => exact fun _ => le_rfl
  | cons t ts ih =>
    intro T h
    rw [← foldl_recordTrade, List.foldl_cons, foldl_recordTrade]
    refine le_trans ?_ (ih fun u hu hfree => h u (List.mem_cons_of_mem t hu) ?_)
    · cases hkey : T.hasKey t.uniqueKey with
      | true => rw [recordTrade_duplicate hkey]
      | false =>
        rw [netQty_recordTrade hkey]
        split
        next hpair =>
          simp only [inPair, Bool.and_eq_true, decide_eq_true_iff] at hpair
          rw [PaperTrade.signedQty, h t List.mem_cons_self hkey hpair.1 hpair.2]
          simp
        next => rw [add_zero]
    · rw [hasKey_recordTrade, Bool.or_eq_false_iff] at hfree
      exact hfree.1

end PaperTrades

end NiftyShield.Paper
