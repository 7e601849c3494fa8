import NiftyShield.Paper.Realized
import NiftyShield.Paper.Writes

/-!
# Positions and their reference

`get_positions` (`src/paper/store.py`) walks the trades of a strategy once and keeps running
totals for each (leg, instrument) pair, which it clears at the first trade after the pair was
flat. `find_stale_flat_legs` adds up the same quantities in one query over the whole table. Here
both are compared with what they are to find, stated without a loop: the trades of a pair, the
part of them after the pair was last flat (`OpenCycle`), and the weighted prices of that part.

## What is proved

`positions_meet_reference`: the positions are those of the pairs that are not flat, one each,
with the figures of the open cycle, and the stale legs are the flat pairs that still have a row
that is OPEN or DEFENDED.

## Honest scope

A query without `ORDER BY` returns its groups in an order of the database's; here it is that of
their first rows.
-/

namespace NiftyShield.Paper

open NiftyShield.Instruments NiftyShield.Lib

/-! ### The stale legs -/

/-- `strategy_name, leg_role, instrument_key`. -/
def PaperTrade.leg (t : PaperTrade) : String × String × String := (t.strategyName, t.legInstrument)

/-- `state IN ('OPEN', 'DEFENDED')`. -/
def PaperTrade.isOpenRow (t : PaperTrade) : Bool := t.state = .open || t.state = .defended

/-- `SUM(CASE WHEN action = 'BUY' THEN quantity ELSE -quantity END)`. -/
def sumSigned (ts : List PaperTrade) : ℤ :=
  (ts.map fun t => if t.action = .buy then (t.quantity : ℤ) else -t.quantity).sum

/-- `SUM(CASE WHEN state IN ('OPEN', 'DEFENDED') THEN 1 ELSE 0 END)`. -/
def sumOpenRows (ts : List PaperTrade) : ℕ := (ts.map fun t => if t.isOpenRow then 1 else 0).sum

/-- `find_stale_flat_legs`. -/
def PaperTrades.findStaleFlatLegs (T : PaperTrades) : List (String × String × String) :=
  let trades := T.rows.map (·.trade)
  (Grouping.keys PaperTrade.leg trades).filter fun k =>
    sumSigned (Grouping.group PaperTrade.leg trades k) = 0 && 0 < sumOpenRows (Grouping.group PaperTrade.leg trades k)

/-! ### The reference -/

/-- The trades of a pair, by date and row id. -/
def PaperTrades.pairTrades (T : PaperTrades) (s : String) (k : String × String) : List PaperTrade :=
  (T.getTrades s).filter fun t => t.legInstrument = k

/-- BUY minus SELL quantity. -/
def netUnits (ts : List PaperTrade) : ℤ := (sumQty .buy ts : ℤ) - sumQty .sell ts

/-- The average price of the trades in one direction, weighted by quantity. -/
def weightedPrice (a : TradeAction) (ts : List PaperTrade) : ℚ :=
  if 0 < sumQty a ts then sumValue a ts / sumQty a ts else 0

/-- The trades after the last point where the running net quantity was zero. -/
structure OpenCycle (ts cycle : List PaperTrade) : Prop where
  /-- What was traded before is flat. -/
  flat_before : ∃ before, ts = before ++ cycle ∧ netUnits before = 0
  /-- And the quantity has not been zero since. -/
  open_since : ∀ i, 0 < i → i ≤ cycle.length → netUnits (cycle.take i) ≠ 0

/-- A position has the figures of its pair's trades. -/
structure MeetsReference (ts : List PaperTrade) (p : PaperPosition) : Prop where
  /-- The net quantity is that of the whole history. -/
  net : p.netQty = netUnits ts
  /-- The averages and the date are those of the open cycle. -/
  cycle : ∃ cycle, OpenCycle ts cycle ∧ p.avgCost = weightedPrice .buy cycle ∧
    p.avgSellPrice = weightedPrice .sell cycle ∧ p.entryDate = cycle.head?.map (·.tradeDate)

/-! ### Quantities -/

theorem netUnits_eq (ts : List PaperTrade) : netUnits ts = netOf PaperTrade.signedQty ts := by
  rw [← net_bookOf, Book.net, buyQty_bookOf, sellQty_bookOf, netUnits]

theorem sumSigned_eq (ts : List PaperTrade) : sumSigned ts = netUnits ts := by
  rw [netUnits_eq, sumSigned, netOf]
  refine congrArg List.sum (List.map_congr_left fun t _ => ?_)
  unfold PaperTrade.signedQty
  cases t.action <;> rfl

theorem sumOpenRows_pos_iff (ts : List PaperTrade) : 0 < sumOpenRows ts ↔ ∃ t ∈ ts, t.isOpenRow = true := by
  rw [sumOpenRows]
  induction ts with
  | nil => simp
  | cons t ts ih =>
    rw [List.map_cons, List.sum_cons, List.exists_mem_cons_iff, ← ih]
    cases t.isOpenRow <;> simp

/-- The order of the rows does not change what they add up to. -/
theorem netUnits_perm {ts us : List PaperTrade} (h : ts.Perm us) : netUnits ts = netUnits us := by
  rw [netUnits_eq, netUnits_eq, netOf, netOf]
  exact (h.map PaperTrade.signedQty).sum_eq

/-! ### The loop of `get_positions` -/

theorem weightedPrice_buy (ts : List PaperTrade) : (bookOf ts).buyAvg = weightedPrice .buy ts := by
  rw [Book.buyAvg, buyQty_bookOf, buyValue_bookOf, weightedPrice]

theorem weightedPrice_sell (ts : List PaperTrade) : (bookOf ts).sellAvg = weightedPrice .sell ts := by
  rw [Book.sellAvg, sellQty_bookOf, sellValue_bookOf, weightedPrice]

/-- The entry date of the loop is that of the first trade since the group was flat. -/
theorem cycleStartDate_ofTrades (k : String) (ts : List PaperTrade) :
    (CycleTotals.ofTrades k ts).cycleStartDate =
      (sinceFlat PaperTrade.signedQty ts).head?.map (·.tradeDate) := by
  induction ts using List.reverseRecOn with
  | nil => rfl
  | append_singleton ts t ih =>
    have hadd : ∀ c : CycleTotals, (c.addTrade t).cycleStartDate = (c.startCycle t).cycleStartDate := fun c => by
      unfold CycleTotals.addTrade
      cases t.action <;> rfl
    rw [CycleTotals.ofTrades_concat, hadd, CycleTotals.startCycle, CycleTotals.netQty_ofTrades, sinceFlat_concat]
    by_cases hflat : netOf PaperTrade.signedQty ts = 0
    · rw [if_pos hflat, if_pos hflat]
      rfl
    · have hne : sinceFlat PaperTrade.signedQty ts ≠ [] := fun hnil => hflat (by
        rw [← netOf_sinceFlat, hnil, netOf_nil])
      rw [if_neg hflat, if_neg hflat, ih, List.head?_append_of_ne_nil _ hne]

/-- The part since the last flat point is the open cycle. -/
theorem openCycle_sinceFlat {ts : List PaperTrade} (h : netUnits ts ≠ 0) :
    OpenCycle ts (sinceFlat PaperTrade.signedQty ts) where
  flat_before := ⟨ts.take (lastFlat PaperTrade.signedQty ts), (List.take_append_drop _ _).symm, by
    rw [netUnits_eq, netOf_take_lastFlat]⟩
  open_since i hpos _ := by
    rw [netUnits_eq] at h ⊢
    exact netOf_take_sinceFlat_ne _ h hpos

/-- There is one open cycle. -/
theorem OpenCycle.unique {ts c c' : List PaperTrade} (h : OpenCycle ts c) (h' : OpenCycle ts c') : c = c' := by
  have hshorter : ∀ {c c' : List PaperTrade}, OpenCycle ts c → OpenCycle ts c' → c'.length ≤ c.length := by
    intro c c' h h'
    obtain ⟨before, hts, hflat⟩ := h.flat_before
    obtain ⟨before', hts', hflat'⟩ := h'.flat_before
    by_contra hlong
    have hlen := congrArg List.length (hts.symm.trans hts')
    rw [List.length_append, List.length_append] at hlen
    -- the longer cycle would be flat where the shorter one begins
    refine h'.open_since (before.length - before'.length) (by omega) (by omega) ?_
    have hbefore : before = before' ++ c'.take (before.length - before'.length) := by
      have htake := congrArg (List.take before.length) (hts.symm.trans hts')
      rwa [List.take_left, List.take_append, List.take_of_length_le (by omega)] at htake
    have hsum := congrArg netUnits hbefore
    rw [netUnits_eq, netUnits_eq, netOf_append, ← netUnits_eq, ← netUnits_eq, ← netUnits_eq, hflat, hflat',
      zero_add] at hsum
    exact hsum.symm
  obtain ⟨before, hts, -⟩ := h.flat_before
  obtain ⟨before', hts', -⟩ := h'.flat_before
  exact (List.append_inj' (hts.symm.trans hts') (le_antisymm (hshorter h' h) (hshorter h h'))).2

/-! ### Both readers -/

namespace PaperTrades

variable (T : PaperTrades) (lookup : Option InstrumentLookup) (s : String)

theorem netQty_eq_netUnits (k : String × String) : T.netQty s k = netUnits (T.pairTrades s k) := by
  rw [netQty_eq, netUnits_eq]
  rfl

variable {T lookup s} in
theorem meetsReference {p : PaperPosition} (hp : p ∈ T.getPositions lookup s) :
    MeetsReference (T.pairTrades s p.pair) p := by
  obtain ⟨k, -, hk⟩ := mem_getPositions.mp hp
  rw [pair_of_groupPosition hk]
  rw [groupPosition_eq] at hk
  split at hk
  next => exact absurd hk (by simp)
  next hnet =>
    obtain rfl := Option.some.inj hk
    refine ⟨(netUnits_eq _).symm, _, openCycle_sinceFlat (by rwa [netUnits_eq]), ?_, ?_, ?_⟩
    · exact weightedPrice_buy _
    · exact weightedPrice_sell _
    · exact cycleStartDate_ofTrades _ _

/-- The rows of a pair that the aggregate query adds up are the trades the loop reads. -/
theorem group_leg_perm (k : String × String) :
    (Grouping.group PaperTrade.leg (T.rows.map (·.trade)) (s, k)).Perm (T.pairTrades s k) := by
  refine List.Perm.trans (List.Perm.of_eq ?_) ((T.getTrades_perm s).symm.filter _)
  rw [List.filter_filter]
  refine List.filter_congr fun t _ => ?_
  simp only [PaperTrade.leg, Prod.mk.injEq, Bool.decide_and, Bool.and_comm]

theorem mem_findStaleFlatLegs (k : String × String) :
    (s, k) ∈ T.findStaleFlatLegs ↔
      netUnits (T.pairTrades s k) = 0 ∧ ∃ t ∈ T.pairTrades s k, t.state = .open ∨ t.state = .defended := by
  have hperm := T.group_leg_perm s k
  have hrows : 0 < sumOpenRows (Grouping.group PaperTrade.leg (T.rows.map (·.trade)) (s, k)) ↔
      ∃ t ∈ T.pairTrades s k, t.state = .open ∨ t.state = .defended := by
    rw [sumOpenRows_pos_iff]
    refine exists_congr fun t => and_congr hperm.mem_iff ?_
    rw [PaperTrade.isOpenRow, Bool.or_eq_true, decide_eq_true_iff, decide_eq_true_iff]
  rw [findStaleFlatLegs, List.mem_filter, Bool.and_eq_true, decide_eq_true_iff, decide_eq_true_iff, sumSigned_eq,
    netUnits_perm hperm, hrows, and_iff_right_of_imp]
  rintro ⟨-, t, ht, -⟩
  obtain ⟨hmem, hkey⟩ := Grouping.mem_group.mp (hperm.mem_iff.mpr ht)
  exact Grouping.mem_keys.mpr ⟨t, hmem, hkey⟩

/-- **Both readers find what they should**: one position for each pair that is not flat, with
the figures of its open cycle, and as stale legs the flat pairs with a row that is OPEN or
DEFENDED. -/
theorem positions_meet_reference :
    (∀ s, ((T.getPositions lookup s).map PaperPosition.pair).Nodup ∧
      (∀ k, (∃ p ∈ T.getPositions lookup s, p.pair = k) ↔ netUnits (T.pairTrades s k) ≠ 0) ∧
      ∀ p ∈ T.getPositions lookup s, p.strategyName = s ∧ MeetsReference (T.pairTrades s p.pair) p) ∧
    T.findStaleFlatLegs.Nodup ∧
      ∀ s k, (s, k) ∈ T.findStaleFlatLegs ↔
        netUnits (T.pairTrades s k) = 0 ∧ ∃ t ∈ T.pairTrades s k, t.state = .open ∨ t.state = .defended := by
  refine ⟨fun s => ⟨T.nodup_pairs lookup s, fun k => ?_, fun p hp => ⟨(getPositions_open hp).1, meetsReference hp⟩⟩,
    (Grouping.nodup_keys _ _).filter _, fun s k => T.mem_findStaleFlatLegs s k⟩
  rw [exists_position_iff, netQty_eq_netUnits]

end PaperTrades

end NiftyShield.Paper
