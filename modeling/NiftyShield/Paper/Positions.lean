import NiftyShield.Lib.Book
import NiftyShield.Lib.SinceFlat
import NiftyShield.Paper.Store

/-!
# What the positions of the ledger are worth

`get_positions` keeps running totals for each (leg, instrument) group and clears them
whenever the group is flat before a trade. Here the loop is related to the accounting it
performs: the totals it ends with are the `Book` of the group's trades since the group was
last flat (`ofTrades_spec`), and the net quantity is that of the whole group
(`netQty_ofTrades`).
-/

namespace NiftyShield.Paper

open NiftyShield.Lib NiftyShield.Instruments

/-! ### Trades as books -/

/-- One trade as a book. -/
def PaperTrade.book (t : PaperTrade) : Book ℚ :=
  match t.action with
  | .buy => Book.buy t.quantity t.price
  | .sell => Book.sell t.quantity t.price

/-- A list of trades as a book. -/
def bookOf (ts : List PaperTrade) : Book ℚ := (ts.map PaperTrade.book).sum

@[simp] theorem bookOf_nil : bookOf [] = 0 := rfl

@[simp] theorem bookOf_cons (t : PaperTrade) (ts : List PaperTrade) :
    bookOf (t :: ts) = t.book + bookOf ts := by
  simp [bookOf]

@[simp] theorem bookOf_append (ts us : List PaperTrade) : bookOf (ts ++ us) = bookOf ts + bookOf us := by
  simp [bookOf]

@[simp] theorem net_book (t : PaperTrade) : t.book.net = t.signedQty := by
  unfold PaperTrade.book PaperTrade.signedQty
  cases t.action <;> simp

theorem net_bookOf (ts : List PaperTrade) : (bookOf ts).net = netOf PaperTrade.signedQty ts := by
  rw [bookOf, Book.net_sum, List.map_map, netOf]
  congr 1
  exact List.map_congr_left fun t _ => net_book t

theorem cash_bookOf (ts : List PaperTrade) : (bookOf ts).cash = (ts.map fun t => t.book.cash).sum := by
  rw [bookOf, Book.cash_sum, List.map_map]
  rfl

/-! ### The loop of `get_positions` -/

/-- The loop totals are those of a book. -/
structure CycleTotals.Holds (c : CycleTotals) (b : Book ℚ) : Prop where
  /-- Units bought. -/
  buyQty : c.buyTotalQty = b.buyQty
  /-- Money paid. -/
  buyValue : c.buyTotalCost = b.buyValue
  /-- Units sold. -/
  sellQty : c.sellTotalQty = b.sellQty
  /-- Money received. -/
  sellValue : c.sellTotalCost = b.sellValue

theorem CycleTotals.ofTrades_concat (k : String) (ts : List PaperTrade) (t : PaperTrade) :
    ofTrades k (ts ++ [t]) = (ofTrades k ts).addTrade t := by
  simp [ofTrades]

theorem CycleTotals.netQty_addTrade (c : CycleTotals) (t : PaperTrade) :
    (c.addTrade t).netQty = c.netQty + t.signedQty := by
  have hs : (c.startCycle t).netQty = c.netQty := by
    unfold startCycle
    split <;> rfl
  unfold addTrade PaperTrade.signedQty
  cases t.action <;> simp [hs, sub_eq_add_neg]

/-- The net quantity of the loop is that of the whole group. -/
theorem CycleTotals.netQty_ofTrades (k : String) (ts : List PaperTrade) :
    (ofTrades k ts).netQty = netOf PaperTrade.signedQty ts := by
  induction ts using List.reverseRecOn with
  | nil => rfl
  | append_singleton ts t ih => rw [ofTrades_concat, netQty_addTrade, ih, netOf_append, netOf_singleton]

private theorem CycleTotals.Holds.addTrade {c : CycleTotals} {b : Book ℚ} (t : PaperTrade)
    (h : (c.startCycle t).Holds b) : (c.addTrade t).Holds (b + t.book) := by
  obtain ⟨h1, h2, h3, h4⟩ := h
  unfold CycleTotals.addTrade PaperTrade.book
  cases t.action <;> constructor <;> simp [Book.buy, Book.sell, h1, h2, h3, h4]

/-- **The totals of the loop** are those of the trades since the group was last flat. -/
theorem CycleTotals.ofTrades_spec (k : String) (ts : List PaperTrade) :
    (ofTrades k ts).Holds (bookOf (sinceFlat PaperTrade.signedQty ts)) := by
  induction ts using List.reverseRecOn with
  | nil => exact ⟨rfl, rfl, rfl, rfl⟩
  | append_singleton ts t ih =>
    rw [ofTrades_concat, sinceFlat_concat]
    by_cases hflat : netOf PaperTrade.signedQty ts = 0
    · -- the group is flat before `t`: the totals are cleared first
      have hnet : (ofTrades k ts).netQty = 0 := by rw [netQty_ofTrades, hflat]
      rw [if_pos hflat, bookOf_cons, bookOf_nil, add_comm]
      refine Holds.addTrade t ?_
      rw [startCycle, if_pos hnet]
      exact ⟨rfl, rfl, rfl, rfl⟩
    · have hnet : (ofTrades k ts).netQty ≠ 0 := by rwa [netQty_ofTrades]
      rw [if_neg hflat, bookOf_append, bookOf_cons, bookOf_nil, add_zero]
      refine Holds.addTrade t ?_
      rwa [startCycle, if_neg hnet]

/-! ### The instrument of a group -/

theorem CycleTotals.cycleInstrumentKey_ofTrades (k : String) (ts : List PaperTrade)
    (h : ∀ t ∈ ts, t.instrumentKey = k) : (ofTrades k ts).cycleInstrumentKey = k := by
  induction ts using List.reverseRecOn with
  | nil => rfl
  | append_singleton ts t ih =>
    have hs : ((ofTrades k ts).startCycle t).cycleInstrumentKey = k := by
      unfold startCycle
      split
      · exact h t (by simp)
      · exact ih fun u hu => h u (by simp [hu])
    rw [ofTrades_concat, addTrade]
    cases t.action <;> exact hs

/-- The trades of one (leg, instrument) group. -/
def legInstrumentTrades (ts : List PaperTrade) (k : String × String) : List PaperTrade :=
  Grouping.group PaperTrade.legInstrument ts k

theorem cycleInstrumentKey_group (ts : List PaperTrade) (k : String × String) :
    (CycleTotals.ofTrades k.2 (legInstrumentTrades ts k)).cycleInstrumentKey = k.2 :=
  CycleTotals.cycleInstrumentKey_ofTrades _ _ fun _ ht => congrArg Prod.snd (Grouping.mem_group.mp ht).2

/-- The position of a group, in terms of the group's trades: nothing for a flat group,
else the averages since it was last flat. -/
theorem groupPosition_eq (lookup : Option InstrumentLookup) (s : String) (ts : List PaperTrade)
    (k : String × String) :
    groupPosition lookup s ts k =
      if netOf PaperTrade.signedQty (legInstrumentTrades ts k) = 0 then none
      else
        some
          { strategyName := s
            legRole := k.1
            netQty := netOf PaperTrade.signedQty (legInstrumentTrades ts k)
            avgCost := (bookOf (sinceFlat PaperTrade.signedQty (legInstrumentTrades ts k))).buyAvg
            avgSellPrice := (bookOf (sinceFlat PaperTrade.signedQty (legInstrumentTrades ts k))).sellAvg
            instrumentKey := k.2
            entryDate := (CycleTotals.ofTrades k.2 (legInstrumentTrades ts k)).cycleStartDate
            optionType := resolveOptionType lookup k.2 } := by
  have hspec := CycleTotals.ofTrades_spec k.2 (legInstrumentTrades ts k)
  have hnet := CycleTotals.netQty_ofTrades k.2 (legInstrumentTrades ts k)
  have hkey := cycleInstrumentKey_group ts k
  rw [Book.buyAvg, Book.sellAvg, ← hspec.buyQty, ← hspec.buyValue, ← hspec.sellQty,
    ← hspec.sellValue, ← hnet]
  show (if (CycleTotals.ofTrades k.2 (legInstrumentTrades ts k)).netQty = 0 then none
    else some (PaperPosition.mk ..)) = _
  rw [← legInstrumentTrades, hkey]

/-- The (leg, instrument) pair of a position. -/
def PaperPosition.pair (p : PaperPosition) : String × String := (p.legRole, p.instrumentKey)

theorem pair_of_groupPosition {lookup : Option InstrumentLookup} {s : String} {ts : List PaperTrade}
    {k : String × String} {p : PaperPosition} (h : groupPosition lookup s ts k = some p) : p.pair = k := by
  rw [groupPosition_eq] at h
  split at h
  · exact absurd h (by simp)
  · obtain rfl := Option.some.inj h
    rfl

/-- A returned position belongs to the strategy asked for, is not flat, and is that of a
group of the strategy's trades. -/
theorem mem_getPositions {T : PaperTrades} {lookup : Option InstrumentLookup} {s : String}
    {p : PaperPosition} :
    p ∈ T.getPositions lookup s ↔
      ∃ k ∈ Grouping.keys PaperTrade.legInstrument (T.getTrades s),
        groupPosition lookup s (T.getTrades s) k = some p := by
  simp [PaperTrades.getPositions]

/-- The position that is picked is one of the leg and, if an instrument is named, of it. -/
theorem mem_of_pickPosition {ps : List PaperPosition} {role : String} {key : Option String}
    {p : PaperPosition}
    (h : PaperTrades.pickPosition ps role key = some p) :
      p ∈ ps ∧ p.legRole = role ∧ ∀ k, key = some k → p.instrumentKey = k := by
  have hfound : ∀ q ∈ ps.filter (fun p => p.legRole = role), q ∈ ps ∧ q.legRole = role := fun q hq => by
    simpa using List.mem_filter.mp hq
  unfold PaperTrades.pickPosition at h
  cases key with
  | some k =>
    obtain ⟨hmem, hrole⟩ := hfound p (List.mem_of_find?_eq_some h)
    refine ⟨hmem, hrole, fun k' hk' => ?_⟩
    obtain rfl := Option.some.inj hk'
    simpa using List.find?_some h
  | none =>
    obtain ⟨hmem, hrole⟩ := hfound p (List.argmax_mem h)
    exact ⟨hmem, hrole, fun _ hk => absurd hk (by simp)⟩

/-- The positions are none of them flat, and each names its instrument. -/
theorem getPositions_open {T : PaperTrades} {lookup : Option InstrumentLookup} {s : String}
    {p : PaperPosition}
    (h : p ∈ T.getPositions lookup s) : p.strategyName = s ∧ p.netQty ≠ 0 ∧ p.instrumentKey ≠ "" := by
  obtain ⟨k, hk, hp⟩ := mem_getPositions.mp h
  obtain ⟨t, -, rfl⟩ := Grouping.mem_keys.mp hk
  rw [groupPosition_eq] at hp
  split at hp
  next => exact absurd hp (by simp)
  next hnet =>
    obtain rfl := Option.some.inj hp
    exact ⟨rfl, hnet, t.instrumentKey_ne⟩

/-- The fields that a position has from its trades pass the validators of a trade. -/
theorem getPositions_valid {T : PaperTrades} {lookup : Option InstrumentLookup} {s : String} {p : PaperPosition}
    (h : p ∈ T.getPositions lookup s) :
    hasPaperPrefix s = true ∧ p.legRole ≠ "" ∧ p.instrumentKey ≠ "" ∧ p.netQty ≠ 0 := by
  obtain ⟨-, hopen, hkey⟩ := getPositions_open h
  obtain ⟨k, hk, hgroup⟩ := mem_getPositions.mp h
  obtain ⟨t, ht, rfl⟩ := Grouping.mem_keys.mp hk
  have hrole : t.legRole = p.legRole := congrArg Prod.fst (pair_of_groupPosition hgroup).symm
  have hstrategy : t.strategyName = s := by
    have hmem := (T.getTrades_perm s).mem_iff.mp ht
    simpa using (List.mem_filter.mp hmem).2
  exact ⟨hstrategy ▸ t.paperPrefix, hrole ▸ t.legRole_ne, hkey, hopen⟩

/-! ### Average prices of open positions -/

/-- Every purchase is paid for, and every sale. -/
theorem values_bookOf_pos (ts : List PaperTrade) :
    (0 < (bookOf ts).buyQty → 0 < (bookOf ts).buyValue) ∧
      (0 < (bookOf ts).sellQty → 0 < (bookOf ts).sellValue) ∧
      0 ≤ (bookOf ts).buyValue ∧ 0 ≤ (bookOf ts).sellValue := by
  induction ts with
  | nil => simp
  | cons t ts ih =>
    obtain ⟨hbuy, hsell, hbuy0, hsell0⟩ := ih
    have hqty : (0 : ℚ) < t.quantity := by exact_mod_cast t.quantity_pos
    have hval : 0 < t.price * t.quantity := mul_pos t.price_pos hqty
    rw [bookOf_cons]
    unfold PaperTrade.book
    cases t.action with
    | buy =>
      refine ⟨fun _ => add_pos_of_pos_of_nonneg hval hbuy0, fun h => ?_, add_nonneg hval.le hbuy0, ?_⟩
      · simpa [Book.buy] using hsell (by simpa [Book.buy] using h)
      · simpa [Book.buy] using hsell0
    | sell =>
      refine ⟨fun h => ?_, fun _ => add_pos_of_pos_of_nonneg hval hsell0, ?_, add_nonneg hval.le hsell0⟩
      · simpa [Book.sell] using hbuy (by simpa [Book.sell] using h)
      · simpa [Book.sell] using hbuy0

/-- A long position has an average cost, and a short one an average sell price. -/
theorem avg_pos_of_mem {T : PaperTrades} {lookup : Option InstrumentLookup} {s : String} {p : PaperPosition}
    (h : p ∈ T.getPositions lookup s) :
    (0 < p.netQty → 0 < p.avgCost) ∧ (p.netQty < 0 → 0 < p.avgSellPrice) := by
  obtain ⟨k, -, hp⟩ := mem_getPositions.mp h
  rw [groupPosition_eq] at hp
  split at hp
  next => exact absurd hp (by simp)
  next =>
    obtain rfl := Option.some.inj hp
    have hnet := net_bookOf (sinceFlat PaperTrade.signedQty (legInstrumentTrades (T.getTrades s) k))
    rw [netOf_sinceFlat, Book.net] at hnet
    obtain ⟨hbuy, hsell, -, -⟩ := values_bookOf_pos
      (sinceFlat PaperTrade.signedQty (legInstrumentTrades (T.getTrades s) k))
    refine ⟨fun hlong => ?_, fun hshort => ?_⟩
    · have hqty : 0 < (bookOf (sinceFlat PaperTrade.signedQty
          (legInstrumentTrades (T.getTrades s) k))).buyQty := by
        simp only at hlong
        omega
      simp only [Book.buyAvg, hqty, if_true]
      exact div_pos (hbuy hqty) (by exact_mod_cast hqty)
    · have hqty : 0 < (bookOf (sinceFlat PaperTrade.signedQty
          (legInstrumentTrades (T.getTrades s) k))).sellQty := by
        simp only at hshort
        omega
      simp only [Book.sellAvg, hqty, if_true]
      exact div_pos (hsell hqty) (by exact_mod_cast hqty)

end NiftyShield.Paper
