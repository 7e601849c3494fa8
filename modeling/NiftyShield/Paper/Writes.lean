import NiftyShield.Lib.Selection
import NiftyShield.Paper.Positions

/-!
# What a write does to the positions

`PaperTrades.netQty` is the net quantity of a (leg, instrument) pair in the ledger. A
write to one pair changes its net quantity by the signed quantity written
(`netQty_recordTrade`) and leaves the positions of all other pairs as they were
(`getPositions_recordTrade`); a change of the state column changes no position
(`getPositions_updateState`). So a trade that closes a pair takes exactly its position out
of the list (`getPositions_close`).
-/

namespace NiftyShield.Paper

open NiftyShield.Lib NiftyShield.Instruments

namespace PaperTrades

/-- Whether a trade belongs to a pair of a strategy. -/
def inPair (s : String) (k : String × String) (t : PaperTrade) : Bool :=
  t.strategyName = s && t.legInstrument = k

/-- The net quantity of a (leg, instrument) pair of a strategy. -/
def netQty (T : PaperTrades) (s : String) (k : String × String) : ℤ :=
  netOf PaperTrade.signedQty ((T.rows.map (·.trade)).filter (inPair s k))

/-! ### Net quantities -/

theorem netQty_eq (T : PaperTrades) (s : String) (k : String × String) :
    T.netQty s k = netOf PaperTrade.signedQty (legInstrumentTrades (T.getTrades s) k) := by
  have hperm := (getTrades_perm T s).filter fun t => decide (t.legInstrument = k)
  rw [List.filter_filter] at hperm
  have hsum := (hperm.map PaperTrade.signedQty).sum_eq
  rw [legInstrumentTrades, netOf, Grouping.group, hsum, netQty, netOf]
  congr 3
  funext t
  rw [inPair, Bool.and_comm]

@[simp] theorem signedQty_setState (t : PaperTrade) (state : TradeState) :
    ({ t with state } : PaperTrade).signedQty = t.signedQty := rfl

/-- What the trades of a kind add up to is the same after a state change. -/
theorem netOf_updateState (T : PaperTrades) (p : PaperTrade → Bool) (state : TradeState) {q : PaperTrade → Bool}
    (hq : ∀ t : PaperTrade, q { t with state } = q t) :
    netOf PaperTrade.signedQty (((T.updateState p state).rows.map (·.trade)).filter q) =
      netOf PaperTrade.signedQty ((T.rows.map (·.trade)).filter q) := by
  rw [rows_updateState]
  induction T.rows with
  | nil => rfl
  | cons r rows ih =>
    have hkind : q (if p r.trade then { r with trade := { r.trade with state } } else r).trade = q r.trade := by
      split
      · exact hq r.trade
      · rfl
    have hqty : (if p r.trade then { r with trade := { r.trade with state } } else r).trade.signedQty =
        r.trade.signedQty := by
      split <;> rfl
    simp only [List.map_cons, List.filter_cons, hkind]
    split
    · simp only [netOf, List.map_cons, List.sum_cons, hqty] at ih ⊢
      rw [ih]
    · exact ih

/-- A state change moves no quantity. -/
@[simp] theorem netQty_updateState (T : PaperTrades) (p : PaperTrade → Bool) (state : TradeState)
    (s : String)
    (k : String × String) : (T.updateState p state).netQty s k = T.netQty s k :=
  netOf_updateState T p state fun _ => rfl

/-- A recorded trade adds its quantity to the kinds it is of. -/
theorem netOf_recordTrade {T : PaperTrades} {t : PaperTrade} (h : T.hasKey t.uniqueKey = false)
    (q : PaperTrade → Bool) :
    netOf PaperTrade.signedQty (((T.recordTrade t).1.rows.map (·.trade)).filter q) =
      netOf PaperTrade.signedQty ((T.rows.map (·.trade)).filter q) + if q t then t.signedQty else 0 := by
  rw [(recordTrade_fresh h).2, List.map_append, List.filter_append, netOf_append]
  congr 1
  by_cases ht : q t <;> simp [ht]

/-- A recorded trade adds its signed quantity to its own pair and to no other. -/
theorem netQty_recordTrade {T : PaperTrades} {t : PaperTrade} (h : T.hasKey t.uniqueKey = false)
    (s : String)
    (k : String × String) :
    (T.recordTrade t).1.netQty s k = T.netQty s k + if inPair s k t then t.signedQty else 0 :=
  netOf_recordTrade h (inPair s k)

/-- The other pairs stay as they are, whether the key is taken or not. -/
theorem netQty_recordTrade_of_ne {T : PaperTrades} {t : PaperTrade} {s : String} {k : String × String}
    (h : t.legInstrument ≠ k) : (T.recordTrade t).1.netQty s k = T.netQty s k := by
  cases hkey : T.hasKey t.uniqueKey with
  | true => rw [recordTrade_duplicate hkey]
  | false =>
    rw [netQty_recordTrade hkey, if_neg, add_zero]
    simp [inPair, h]

/-! ### Positions of other pairs -/

/-- The order of rows in a read: by date, then by id. -/
private abbrev rowLe (r s : TradeRow) : Prop :=
  r.trade.tradeDate < s.trade.tradeDate ∨ (r.trade.tradeDate = s.trade.tradeDate ∧ r.id ≤ s.id)

private instance : IsTrans TradeRow rowLe := ⟨fun a b c hab hbc => by
  rcases hab with hab | ⟨hab, hid⟩
  · rcases hbc with hbc | ⟨hbc, -⟩
    · exact Or.inl (hab.trans hbc)
    · exact Or.inl (hbc ▸ hab)
  · rcases hbc with hbc | ⟨hbc, hid'⟩
    · exact Or.inl (hab ▸ hbc)
    · exact Or.inr ⟨hab.trans hbc, hid.trans hid'⟩⟩

private instance : Std.Total rowLe := ⟨fun a b => by
  rcases lt_trichotomy a.trade.tradeDate b.trade.tradeDate with h | h | h
  · exact Or.inl (Or.inl h)
  · rcases le_total a.id b.id with hid | hid
    · exact Or.inl (Or.inr ⟨h, hid⟩)
    · exact Or.inr (Or.inr ⟨h.symm, hid⟩)
  · exact Or.inr (Or.inl h)⟩

theorem filter_orderRows (p : TradeRow → Bool) (rows : List TradeRow) :
    (orderRows rows).filter p = orderRows (rows.filter p) :=
  Selection.filter_insertionSort rowLe p rows

/-- The positions of the pairs that pass, read off the trades of these pairs. -/
theorem filter_getPositions (T : PaperTrades) (lookup : Option InstrumentLookup) (s : String)
    (p : String × String → Bool) :
    (T.getPositions lookup s).filter (fun q => p q.pair) =
      (Grouping.keys PaperTrade.legInstrument ((T.getTrades s).filter fun t => p t.legInstrument)).filterMap
        (groupPosition lookup s ((T.getTrades s).filter fun t => p t.legInstrument)) := by
  have hfilter : ∀ ks : List (String × String),
      (ks.filterMap (groupPosition lookup s (T.getTrades s))).filter (fun q => p q.pair) =
        (ks.filter p).filterMap (groupPosition lookup s (T.getTrades s)) := by
    intro ks
    induction ks with
    | nil => rfl
    | cons k ks ih =>
      cases hq : groupPosition lookup s (T.getTrades s) k with
      | none => cases hk : p k <;> simp [hq, hk, ih]
      | some q =>
        have := pair_of_groupPosition hq
        cases hk : p k <;> simp [hq, hk, ih, this]
  rw [getPositions, hfilter, Grouping.filter_keys]
  refine List.filterMap_congr fun k hk => ?_
  have hpk : p k = true := by
    obtain ⟨t, ht, rfl⟩ := Grouping.mem_keys.mp hk
    exact (List.mem_filter.mp ht).2
  rw [groupPosition_eq, groupPosition_eq, legInstrumentTrades, legInstrumentTrades,
    Grouping.group_filter hpk]

/-- The trades of the other pairs are not changed by a recorded trade. -/
theorem filter_getTrades_recordTrade (T : PaperTrades) (t : PaperTrade) (s : String) :
    ((T.recordTrade t).1.getTrades s).filter (fun u => u.legInstrument ≠ t.legInstrument) =
      (T.getTrades s).filter fun u => u.legInstrument ≠ t.legInstrument := by
  cases h : T.hasKey t.uniqueKey with
  | true => rw [recordTrade_duplicate h]
  | false =>
    rw [getTrades, getTrades, List.filter_map, List.filter_map, filter_orderRows, filter_orderRows,
      (recordTrade_fresh h).2, List.filter_append, List.filter_append]
    congr 2
    simp only [List.filter_cons, List.filter_nil]
    split <;> simp

/-- **The frame of a recorded trade**: the positions of all other pairs stay. -/
theorem getPositions_recordTrade (T : PaperTrades) (t : PaperTrade)
    (lookup : Option InstrumentLookup) (s : String) :
    ((T.recordTrade t).1.getPositions lookup s).filter (fun q => q.pair ≠ t.legInstrument) =
      (T.getPositions lookup s).filter fun q => q.pair ≠ t.legInstrument := by
  have h := filter_getTrades_recordTrade T t s
  rw [filter_getPositions (T.recordTrade t).1 lookup s fun k => decide (k ≠ t.legInstrument),
    filter_getPositions T lookup s fun k => decide (k ≠ t.legInstrument), h]

/-! ### State changes -/

/-- A trade with the state the update gives it. -/
private def withState (p : PaperTrade → Bool) (state : TradeState) (t : PaperTrade) : PaperTrade :=
  if p t then { t with state } else t

private theorem getTrades_updateState (T : PaperTrades) (p : PaperTrade → Bool) (state : TradeState)
    (s : String) :
    (T.updateState p state).getTrades s = (T.getTrades s).map (withState p state) := by
  let f : TradeRow → TradeRow := fun r =>
    if p r.trade then { r with trade := { r.trade with state } } else r
  have htrade : ∀ r, (f r).trade = withState p state r.trade := fun r => by
    simp only [f, withState]
    split <;> rfl
  have hid : ∀ r, (f r).id = r.id := fun r => by
    simp only [f]
    split <;> rfl
  have hdate : ∀ r, (f r).trade.tradeDate = r.trade.tradeDate := fun r => by
    simp only [f]
    split <;> rfl
  have hname : ∀ r, (f r).trade.strategyName = r.trade.strategyName := fun r => by
    simp only [f]
    split <;> rfl
  have hfilter : (T.rows.map f).filter (fun r => r.trade.strategyName = s) =
      (T.rows.filter fun r => r.trade.strategyName = s).map f := by
    rw [List.filter_map]
    congr 1
    exact List.filter_congr fun r _ => by simp [hname]
  have hsort : ((T.rows.filter fun r => r.trade.strategyName = s).map f).insertionSort rowLe =
      ((T.rows.filter fun r => r.trade.strategyName = s).insertionSort rowLe).map f :=
    (List.map_insertionSort rowLe rowLe f _ fun a _ b _ => by simp only [rowLe, hid, hdate]).symm
  rw [getTrades, getTrades, rows_updateState, List.map_map]
  show (orderRows ((T.rows.map f).filter _)).map _ = _
  rw [hfilter]
  show (((T.rows.filter fun r => r.trade.strategyName = s).map f).insertionSort rowLe).map _ = _
  rw [hsort, List.map_map]
  exact List.map_congr_left fun r _ => htrade r

private theorem ofTrades_withState (p : PaperTrade → Bool) (state : TradeState) (k : String)
    (ts : List PaperTrade) :
    CycleTotals.ofTrades k (ts.map (withState p state)) = CycleTotals.ofTrades k ts := by
  have hstep : ∀ c t, CycleTotals.addTrade c (withState p state t) =
      CycleTotals.addTrade c t := fun c t => by
    unfold withState
    split <;> rfl
  rw [CycleTotals.ofTrades, List.foldl_map]
  exact List.foldl_ext _ _ _ fun c t _ => hstep c t

/-- A state change changes no position. -/
@[simp] theorem getPositions_updateState (T : PaperTrades) (p : PaperTrade → Bool) (state : TradeState)
    (lookup : Option InstrumentLookup) (s : String) :
    (T.updateState p state).getPositions lookup s = T.getPositions lookup s := by
  have hpair : ∀ t, (withState p state t).legInstrument = t.legInstrument := fun t => by
    unfold withState
    split <;> rfl
  have hgroup : ∀ k, Grouping.group PaperTrade.legInstrument ((T.getTrades s).map (withState p state)) k =
      (Grouping.group PaperTrade.legInstrument (T.getTrades s) k).map (withState p state) := fun k => by
    rw [Grouping.group, List.filter_map]
    congr 1
    exact List.filter_congr fun t _ => by simp [hpair]
  rw [getPositions, getPositions, getTrades_updateState, Grouping.keys, List.map_map]
  simp only [Function.comp_def, hpair]
  refine List.filterMap_congr fun k _ => ?_
  unfold groupPosition
  rw [hgroup, ofTrades_withState]

/-! ### Open pairs -/

/-- The positions are those of the pairs that are not flat. -/
theorem exists_position_iff {T : PaperTrades} {lookup : Option InstrumentLookup} {s : String}
    {k : String × String} :
    (∃ p ∈ T.getPositions lookup s, p.pair = k) ↔ T.netQty s k ≠ 0 := by
  rw [netQty_eq]
  constructor
  · rintro ⟨p, hp, rfl⟩
    obtain ⟨k, -, hk⟩ := mem_getPositions.mp hp
    rw [groupPosition_eq] at hk
    split at hk
    next => exact absurd hk (by simp)
    next hnet =>
      obtain rfl := Option.some.inj hk
      exact hnet
  · intro hnet
    have hmem : k ∈ Grouping.keys PaperTrade.legInstrument (T.getTrades s) := by
      by_contra hmem
      rw [legInstrumentTrades, Grouping.group_eq_nil_of_not_mem hmem] at hnet
      exact hnet rfl
    have hpos := groupPosition_eq lookup s (T.getTrades s) k
    rw [if_neg hnet] at hpos
    exact ⟨_, mem_getPositions.mpr ⟨k, hmem, hpos⟩, rfl⟩

/-- The net quantity of a position is that of its pair. -/
theorem netQty_of_mem {T : PaperTrades} {lookup : Option InstrumentLookup} {s : String} {p : PaperPosition}
    (h : p ∈ T.getPositions lookup s) : p.netQty = T.netQty s p.pair := by
  obtain ⟨k, -, hk⟩ := mem_getPositions.mp h
  rw [groupPosition_eq] at hk
  split at hk
  · exact absurd hk (by simp)
  · obtain rfl := Option.some.inj hk
    exact (netQty_eq T s k).symm

/-- A pair has at most one position. -/
theorem pair_injOn {T : PaperTrades} {lookup : Option InstrumentLookup} {s : String} {p q : PaperPosition}
    (hp : p ∈ T.getPositions lookup s) (hq : q ∈ T.getPositions lookup s) (h : p.pair = q.pair) :
      p = q := by
  obtain ⟨k, -, hk⟩ := mem_getPositions.mp hp
  obtain ⟨l, -, hl⟩ := mem_getPositions.mp hq
  rw [pair_of_groupPosition hk, pair_of_groupPosition hl] at h
  subst h
  exact Option.some.inj (hk.symm.trans hl)

/-- The positions have pairwise different pairs. -/
theorem nodup_pairs (T : PaperTrades) (lookup : Option InstrumentLookup) (s : String) :
    ((T.getPositions lookup s).map PaperPosition.pair).Nodup := by
  have hsub : ∀ ks : List (String × String),
      ((ks.filterMap (groupPosition lookup s (T.getTrades s))).map PaperPosition.pair).Sublist ks := by
    intro ks
    induction ks with
    | nil => exact List.Sublist.slnil
    | cons k ks ih =>
      cases hq : groupPosition lookup s (T.getTrades s) k with
      | none =>
        rw [List.filterMap_cons_none hq]
        exact ih.cons k
      | some q =>
        rw [List.filterMap_cons_some hq, List.map_cons, pair_of_groupPosition hq]
        exact ih.cons_cons k
  exact (Grouping.nodup_keys _ _).sublist (hsub _)

/-- **A trade that closes a pair** takes its position out of the list and changes no
other. -/
theorem getPositions_close {T : PaperTrades} {t : PaperTrade} (lookup : Option InstrumentLookup)
    (s : String)
    (h : (T.recordTrade t).1.netQty s t.legInstrument = 0) :
    (T.recordTrade t).1.getPositions lookup s =
      (T.getPositions lookup s).filter fun q => q.pair ≠ t.legInstrument := by
  rw [← getPositions_recordTrade]
  refine (List.filter_eq_self.mpr fun q hq => ?_).symm
  rw [decide_eq_true_eq]
  intro hpair
  exact exists_position_iff.mp ⟨q, hq, hpair⟩ h

end PaperTrades

end NiftyShield.Paper
