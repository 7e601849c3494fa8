import NiftyShield.Lib.Raising
import NiftyShield.Lib.Slots
import NiftyShield.Paper.Writes

/-!
# Batches of trades

`record_trades` inserts a list of trades in one transaction and skips the trades whose
unique key is taken. What it inserts is `fresh`: the trades whose key is neither in the
table nor that of an earlier trade of the batch (`inserted_recordTrades`). The rows grow by
exactly these (`rows_recordTrades`), so the net quantity of any set of legs grows by what they add
to it (`legsQty_recordTrades`), and the table is unchanged only if none is fresh
(`recordTrades_eq_self_iff`).

`markAllClosed` is the loop of `mark_trade_closed` calls that follows a batch;
`markClosedEach` is the same loop where a call may raise.
-/

namespace NiftyShield.Paper

open NiftyShield.Instruments NiftyShield.Lib NiftyShield.Lib.Raising

/-- The trades of a batch that are inserted when these keys are taken. -/
def fresh (taken : PaperTrade.UniqueKey → Bool) : List PaperTrade → List PaperTrade
  | [] => []
  | t :: ts =>
    if taken t.uniqueKey then fresh taken ts
    else t :: fresh (fun k => taken k || decide (k = t.uniqueKey)) ts

/-- A batch with no duplicate, in itself or with the table. -/
def AllFresh (taken : PaperTrade.UniqueKey → Bool) (ts : List PaperTrade) : Prop :=
  (∀ t ∈ ts, taken t.uniqueKey = false) ∧ ts.Pairwise fun t u => t.uniqueKey ≠ u.uniqueKey

instance (taken : PaperTrade.UniqueKey → Bool) (ts : List PaperTrade) : Decidable (AllFresh taken ts) :=
  inferInstanceAs (Decidable (_ ∧ _))

/-- What is inserted is what finds its key free when its turn comes. -/
theorem fresh_eq_served (ts : List PaperTrade) : ∀ taken,
    fresh taken ts = Slots.served PaperTrade.uniqueKey taken ts := by
  induction ts with
  | nil => exact fun _ => rfl
  | cons t ts ih =>
    intro taken
    rw [fresh, Slots.served, ih, ih]

theorem fresh_sublist (ts : List PaperTrade) (taken : PaperTrade.UniqueKey → Bool) :
    (fresh taken ts).Sublist ts := by
  rw [fresh_eq_served]
  exact Slots.served_sublist _ ts taken

/-- Nothing is skipped exactly when there is no duplicate. -/
theorem fresh_eq_self_iff {ts : List PaperTrade} {taken : PaperTrade.UniqueKey → Bool} :
    fresh taken ts = ts ↔ AllFresh taken ts := by
  rw [fresh_eq_served, Slots.served_eq_self_iff, AllFresh, List.Nodup, List.pairwise_map]

/-- In a batch whose keys are different, only the table can hold a duplicate. -/
theorem fresh_eq_filter {ts : List PaperTrade} {taken : PaperTrade.UniqueKey → Bool}
    (hkeys : ts.Pairwise fun t u => t.uniqueKey ≠ u.uniqueKey) :
    fresh taken ts = ts.filter fun t => !taken t.uniqueKey := by
  rw [fresh_eq_served]
  exact Slots.served_eq_filter (List.pairwise_map.mpr hkeys)

/-- Everything is skipped exactly when every key is taken. -/
theorem fresh_eq_nil_iff {ts : List PaperTrade} {taken : PaperTrade.UniqueKey → Bool} :
    fresh taken ts = [] ↔ ∀ t ∈ ts, taken t.uniqueKey = true := by
  rw [fresh_eq_served, Slots.served_eq_nil_iff]

theorem fresh_append (ts us : List PaperTrade) (taken : PaperTrade.UniqueKey → Bool) :
    fresh taken (ts ++ us) = fresh taken ts ++
      fresh (fun k => taken k || decide (k ∈ ts.map PaperTrade.uniqueKey)) us := by
  rw [fresh_eq_served, fresh_eq_served, fresh_eq_served, Slots.served_append]

namespace PaperTrades

/-! ### What a batch inserts -/

theorem hasKey_recordTrade (T : PaperTrades) (t : PaperTrade) (k : PaperTrade.UniqueKey) :
    (T.recordTrade t).1.hasKey k = (T.hasKey k || decide (k = t.uniqueKey)) := by
  by_cases hk : k = t.uniqueKey
  · rw [hk, hasKey_recordTrade_self]
    simp
  · rw [hasKey_recordTrade_of_ne T fun htk => hk htk.symm]
    simp [hk]

/-- After a batch the keys of its trades are taken, and those that were. -/
theorem hasKey_recordTrades (ts : List PaperTrade) : ∀ (T : PaperTrades) (k : PaperTrade.UniqueKey),
    (T.recordTrades ts).1.hasKey k = (T.hasKey k || decide (k ∈ ts.map PaperTrade.uniqueKey)) := by
  induction ts with
  | nil => simp [recordTrades]
  | cons t ts ih =>
    intro T k
    have hrest : (T.recordTrades (t :: ts)).1 = ((T.recordTrade t).1.recordTrades ts).1 := by
      rw [recordTrades]
      split <;> rfl
    rw [hrest, ih, hasKey_recordTrade, Bool.or_assoc, List.map_cons]
    simp

/-- The inserted trades are the fresh ones. -/
theorem inserted_recordTrades (ts : List PaperTrade) : ∀ T :
    PaperTrades, (T.recordTrades ts).2.1 = fresh T.hasKey ts := by
  induction ts with
  | nil => exact fun _ => rfl
  | cons t ts ih =>
    intro T
    rw [recordTrades, fresh]
    cases ht : T.hasKey t.uniqueKey with
    | true =>
      rw [recordTrade_duplicate ht]
      simpa using ih T
    | false =>
      have htaken : (T.recordTrade t).1.hasKey = fun k => T.hasKey k || decide (k = t.uniqueKey) :=
        funext fun k => hasKey_recordTrade T t k
      simp only [(recordTrade_fresh ht).1, if_true, ih, htaken]
      rfl

/-- Some trade is skipped exactly when the batch has a duplicate. -/
theorem skipped_eq_nil_iff (ts : List PaperTrade) : ∀ T : PaperTrades,
    (T.recordTrades ts).2.2 = [] ↔ AllFresh T.hasKey ts := by
  induction ts with
  | nil => simp [recordTrades, AllFresh]
  | cons t ts ih =>
    intro T
    rw [recordTrades, ← fresh_eq_self_iff, fresh]
    cases ht : T.hasKey t.uniqueKey with
    | true =>
      have hne : fresh T.hasKey ts ≠ t :: ts := fun h => by
        have hlen := (fresh_sublist ts T.hasKey).length_le
        rw [h, List.length_cons] at hlen
        omega
      rw [recordTrade_duplicate ht]
      simp [hne]
    | false =>
      have htaken : (T.recordTrade t).1.hasKey = fun k => T.hasKey k || decide (k = t.uniqueKey) :=
        funext fun k => hasKey_recordTrade T t k
      simp only [(recordTrade_fresh ht).1, if_true, ih, htaken, Bool.false_eq_true, if_false,
        List.cons_inj_right,
        fresh_eq_self_iff]

/-- The rows grow by one for each inserted trade, with ids not handed out before. -/
theorem rows_recordTrades (ts : List PaperTrade) : ∀ T : PaperTrades,
    ∃ new : List TradeRow, (T.recordTrades ts).1.rows = T.rows ++ new ∧
      new.map (·.trade) = fresh T.hasKey ts ∧ ∀ r ∈ new, T.nextId ≤ r.id := by
  induction ts with
  | nil => exact fun T => ⟨[], by simp [recordTrades], rfl, by simp⟩
  | cons t ts ih =>
    intro T
    rw [fresh]
    cases ht : T.hasKey t.uniqueKey with
    | true =>
      obtain ⟨new, hrows, hmap, hid⟩ := ih T
      refine ⟨new, ?_, by simpa using hmap, hid⟩
      rw [recordTrades, recordTrade_duplicate ht]
      simpa using hrows
    | false =>
      have htaken : (T.recordTrade t).1.hasKey = fun k => T.hasKey k || decide (k = t.uniqueKey) :=
        funext fun k => hasKey_recordTrade T t k
      have hnext : (T.recordTrade t).1.nextId = T.nextId + 1 := by simp [recordTrade, ht, insertRow]
      obtain ⟨new, hrows, hmap, hid⟩ := ih (T.recordTrade t).1
      rw [(recordTrade_fresh ht).2] at hrows
      rw [htaken] at hmap
      refine ⟨⟨T.nextId, t⟩ :: new, ?_, by simp [hmap], ?_⟩
      · rw [recordTrades]
        simp only [(recordTrade_fresh ht).1, if_true]
        rw [hrows, List.append_assoc, List.singleton_append]
      · rintro r hr
        rcases List.mem_cons.mp hr with rfl | hr
        · exact le_rfl
        · have := hid r hr
          omega

/-- A batch leaves the table as it was exactly when every key is taken. -/
theorem recordTrades_eq_self_iff (ts : List PaperTrade) (T : PaperTrades) :
    (T.recordTrades ts).1 = T ↔ ∀ t ∈ ts, T.hasKey t.uniqueKey = true := by
  constructor
  · intro h
    obtain ⟨new, hrows, hmap, -⟩ := rows_recordTrades ts T
    rw [h] at hrows
    obtain rfl := List.self_eq_append_right.mp hrows
    exact fresh_eq_nil_iff.mp hmap.symm
  · intro h
    induction ts with
    | nil => rfl
    | cons t ts ih =>
      rw [recordTrades, recordTrade_duplicate (h t List.mem_cons_self)]
      simpa using ih fun u hu => h u (List.mem_cons_of_mem t hu)

/-! ### Net quantities after a batch -/

/-- Whether a trade of the strategy is of one of these (leg, instrument) pairs. -/
def ofLegs (s : String) (P : String × String → Bool) (t : PaperTrade) : Bool :=
  t.strategyName = s && P t.legInstrument

/-- The net quantity of a set of pairs of a strategy. -/
def legsQty (T : PaperTrades) (s : String) (P : String × String → Bool) : ℤ :=
  netOf PaperTrade.signedQty ((T.rows.map (·.trade)).filter (ofLegs s P))

/-- The net quantity of a leg role of a strategy, over all instruments. -/
def roleQty (T : PaperTrades) (s role : String) : ℤ := T.legsQty s fun k => k.1 = role

theorem netQty_eq_legsQty (T : PaperTrades) (s : String) (k : String × String) :
    T.netQty s k = T.legsQty s fun l => l = k := rfl

/-- A batch adds to a set of pairs what its fresh trades add. -/
theorem legsQty_recordTrades (T : PaperTrades) (ts : List PaperTrade) (s : String)
    (P : String × String → Bool) :
    (T.recordTrades ts).1.legsQty s P =
      T.legsQty s P + netOf PaperTrade.signedQty ((fresh T.hasKey ts).filter (ofLegs s P)) := by
  obtain ⟨new, hrows, hmap, -⟩ := rows_recordTrades ts T
  rw [legsQty, legsQty, hrows, List.map_append, List.filter_append, netOf_append, hmap]

/-- A state change moves no quantity. -/
@[simp] theorem legsQty_updateState (T : PaperTrades) (p : PaperTrade → Bool) (state : TradeState)
    (s : String)
    (P : String × String → Bool) : (T.updateState p state).legsQty s P = T.legsQty s P :=
  netOf_updateState T p state fun _ => rfl

/-- A trade adds to its leg role its quantity, unless its key is taken. -/
theorem roleQty_recordTrade (T : PaperTrades) (t : PaperTrade) (s role : String) :
    (T.recordTrade t).1.roleQty s role = T.roleQty s role +
      if T.hasKey t.uniqueKey = false ∧ t.strategyName = s ∧ t.legRole = role then t.signedQty else 0 := by
  cases ht : T.hasKey t.uniqueKey with
  | true => simp [recordTrade_duplicate ht]
  | false =>
    have hleg : ofLegs s (fun k => k.1 = role) t = true ↔ t.strategyName = s ∧ t.legRole = role := by
      rw [ofLegs, Bool.and_eq_true, decide_eq_true_iff]
      exact and_congr_right fun _ => decide_eq_true_iff
    rw [roleQty, legsQty, netOf_recordTrade ht, roleQty, legsQty]
    simp only [hleg, true_and]

/-- A batch of other strategies changes no position of a strategy. -/
theorem getPositions_recordTrades_of_ne {ts : List PaperTrade} {s : String} (h : ∀ t ∈ ts, t.strategyName ≠ s)
    (T : PaperTrades) (lookup : Option InstrumentLookup) :
    (T.recordTrades ts).1.getPositions lookup s = T.getPositions lookup s := by
  obtain ⟨new, hrows, hmap, -⟩ := rows_recordTrades ts T
  have hnew : new.filter (fun r => decide (r.trade.strategyName = s)) = [] :=
    List.filter_eq_nil_iff.mpr fun r hr => by
      have hmem : r.trade ∈ ts := (fresh_sublist ts T.hasKey).subset (hmap ▸ List.mem_map_of_mem hr)
      simpa using h _ hmem
  have htrades : (T.recordTrades ts).1.getTrades s = T.getTrades s := by
    rw [getTrades, hrows, List.filter_append, hnew, List.append_nil, getTrades]
  rw [getPositions, htrades, getPositions]

/-! ### Marking the closed legs -/

/-- One call of `mark_trade_closed` for each trade. -/
def markAllClosed (T : PaperTrades) (ts : List PaperTrade) : PaperTrades :=
  ts.foldl (fun T t => T.markTradeClosed t.strategyName t.legRole t.instrumentKey) T

@[simp] theorem hasKey_markAllClosed (ts : List PaperTrade) (k : PaperTrade.UniqueKey) :
    ∀ T : PaperTrades, (T.markAllClosed ts).hasKey k = T.hasKey k := by
  induction ts with
  | nil => exact fun _ => rfl
  | cons t ts ih =>
    intro T
    rw [markAllClosed, List.foldl_cons]
    exact (ih _).trans (hasKey_updateState ..)

@[simp] theorem legsQty_markAllClosed (ts : List PaperTrade) (s : String) (P : String × String → Bool) :
    ∀ T : PaperTrades, (T.markAllClosed ts).legsQty s P = T.legsQty s P := by
  induction ts with
  | nil => exact fun _ => rfl
  | cons t ts ih =>
    intro T
    rw [markAllClosed, List.foldl_cons]
    exact (ih _).trans (legsQty_updateState ..)

/-- Whether two trades are of one leg: strategy, role and instrument. -/
def sameLeg (t u : PaperTrade) : Bool :=
  t.strategyName = u.strategyName && t.legRole = u.legRole && t.instrumentKey = u.instrumentKey

/-- OPEN or DEFENDED. -/
def isLive (u : PaperTrade) : Bool := u.state = .open || u.state = .defended

theorem isActive_eq (t u : PaperTrade) :
    isActive t.strategyName t.legRole t.instrumentKey u = (sameLeg t u && isLive u) := by
  simp only [isActive, sameLeg, isLive, eq_comm]

/-- A trade after the marking: CLOSED if its leg is marked and it was OPEN or DEFENDED. -/
def afterMarks (ts : List PaperTrade) (u : PaperTrade) : PaperTrade :=
  if (ts.any fun t => sameLeg t u) && isLive u then { u with state := .closed } else u

/-- **The rows after the marking**: the OPEN and DEFENDED rows of the marked legs are
CLOSED, all others are as they were. -/
theorem rows_markAllClosed (ts : List PaperTrade) : ∀ T : PaperTrades,
    (T.markAllClosed ts).rows = T.rows.map fun r => { r with trade := afterMarks ts r.trade } := by
  induction ts with
  | nil =>
    intro T
    refine (List.map_id'' (fun r => ?_) T.rows).symm
    simp [afterMarks]
  | cons t ts ih =>
    intro T
    rw [markAllClosed, List.foldl_cons]
    refine (ih _).trans ?_
    rw [markTradeClosed, rows_updateState, List.map_map]
    refine List.map_congr_left fun r _ => ?_
    simp only [Function.comp, isActive_eq]
    by_cases h : (sameLeg t r.trade && isLive r.trade) = true
    · -- this call closes the row, and no later one touches a CLOSED row
      obtain ⟨hleg, hlive⟩ := Bool.and_eq_true_iff.mp h
      have hclosed : isLive { r.trade with state := .closed } = false := rfl
      rw [if_pos h]
      simp [afterMarks, hleg, hlive, hclosed]
    · rw [if_neg h]
      cases hleg : sameLeg t r.trade with
      | false => simp [afterMarks, hleg]
      | true =>
        rw [hleg, Bool.true_and] at h
        simp [afterMarks, h]

@[simp] theorem sameLeg_setState (t u : PaperTrade) (state : TradeState) :
    sameLeg t { u with state } = sameLeg t u := rfl

@[simp] theorem sameLeg_afterMarks (t u : PaperTrade) (ts : List PaperTrade) :
    sameLeg t (afterMarks ts u) = sameLeg t u := by
  unfold afterMarks
  split <;> rfl

/-- A trade is CLOSED after the marking if it was before, or was live and marked. -/
theorem state_afterMarks_eq_closed_iff {ts : List PaperTrade} {u : PaperTrade} :
    (afterMarks ts u).state = .closed ↔ u.state = .closed ∨
      (isLive u = true ∧ ∃ t ∈ ts, sameLeg t u = true) := by
  unfold afterMarks
  split
  next h =>
    obtain ⟨hleg, hlive⟩ := Bool.and_eq_true_iff.mp h
    obtain ⟨t, ht, htu⟩ := List.any_eq_true.mp hleg
    exact ⟨fun _ => Or.inr ⟨hlive, t, ht, htu⟩, fun _ => rfl⟩
  next h =>
    constructor
    · exact Or.inl
    · rintro (hclosed | ⟨hlive, t, ht, htu⟩)
      · exact hclosed
      · exact absurd (Bool.and_eq_true_iff.mpr ⟨List.any_eq_true.mpr ⟨t, ht, htu⟩, hlive⟩) h

/-- An OPEN trade stays OPEN exactly when its leg is not marked. -/
theorem state_afterMarks_eq_open_iff {ts : List PaperTrade} {u : PaperTrade} (hu : u.state = .open) :
    (afterMarks ts u).state = .open ↔ ∀ t ∈ ts, sameLeg t u = false := by
  have hlive : isLive u = true := by simp [isLive, hu]
  unfold afterMarks
  rw [hlive, Bool.and_true]
  split
  next h =>
    obtain ⟨t, ht, htu⟩ := List.any_eq_true.mp h
    constructor
    · intro hopen
      exact absurd hopen (by simp)
    · intro hall
      exact absurd (htu.symm.trans (hall t ht)) (by decide)
  next h =>
    simp only [List.any_eq_true, not_exists, not_and, Bool.not_eq_true] at h
    exact ⟨fun _ => h, fun _ => hu⟩

/-! ### What is new in a table -/

/-- The rows of a later table whose ids had not been handed out. -/
def newRows (T T' : PaperTrades) : List TradeRow := T'.rows.filter fun r => T.nextId ≤ r.id

theorem newRows_self (T : PaperTrades) : newRows T T = [] :=
  List.filter_eq_nil_iff.mpr fun r hr => by
    have := T.ids_lt r hr
    simpa using this

/-- The new rows after a batch and a marking are the fresh trades. -/
theorem newRows_batch (T : PaperTrades) (ts ms : List PaperTrade) :
    (newRows T ((T.recordTrades ts).1.markAllClosed ms)).map (·.trade) = (fresh T.hasKey ts).map
      (afterMarks ms) := by
  obtain ⟨new, hrows, hmap, hid⟩ := rows_recordTrades ts T
  have hold : T.rows.filter (fun r => decide (T.nextId ≤ r.id)) = [] := newRows_self T
  have hnew : new.filter (fun r => decide (T.nextId ≤ r.id)) = new :=
    List.filter_eq_self.mpr fun r hr => decide_eq_true (hid r hr)
  rw [newRows, rows_markAllClosed, hrows, List.filter_map, List.filter_append]
  simp only [Function.comp_def]
  rw [hold, hnew, List.nil_append, List.map_map, ← hmap, List.map_map]
  rfl

/-- The old rows after a batch and a marking are the rows of the table, marked. -/
theorem mem_old_batch {T : PaperTrades} {ts ms : List PaperTrade} {r : TradeRow} :
    (r ∈ ((T.recordTrades ts).1.markAllClosed ms).rows ∧ r.id < T.nextId) ↔
      ∃ r₀ ∈ T.rows, r = { r₀ with trade := afterMarks ms r₀.trade } := by
  obtain ⟨new, hrows, -, hid⟩ := rows_recordTrades ts T
  rw [rows_markAllClosed, hrows, List.mem_map]
  constructor
  · rintro ⟨⟨r₀, hr₀, rfl⟩, hlt⟩
    rcases List.mem_append.mp hr₀ with hr₀ | hr₀
    · exact ⟨r₀, hr₀, rfl⟩
    · exact absurd (hid r₀ hr₀) (not_le.mpr hlt)
  · rintro ⟨r₀, hr₀, rfl⟩
    exact ⟨⟨r₀, List.mem_append_left _ hr₀, rfl⟩, T.ids_lt r₀ hr₀⟩

/-- A batch and a marking of some of its fresh trades leave the table as it was exactly
when every key is taken. -/
theorem batch_eq_self_iff {T : PaperTrades} {ts ms : List PaperTrade} (hms : ms ⊆ fresh T.hasKey ts) :
    (T.recordTrades ts).1.markAllClosed ms = T ↔ ∀ t ∈ ts, T.hasKey t.uniqueKey = true := by
  constructor
  · intro h
    have hnew := newRows_batch T ts ms
    rw [h, newRows_self, List.map_nil] at hnew
    exact fresh_eq_nil_iff.mp (List.map_eq_nil_iff.mp hnew.symm)
  · intro h
    have hfresh := fresh_eq_nil_iff.mpr h
    rw [hfresh, List.subset_nil] at hms
    rw [hms, (recordTrades_eq_self_iff ts T).mpr h]
    rfl

/-! ### Batches that close open pairs -/

/-- The units a list of trades adds to a (leg, instrument) pair. -/
def unitsAt (ts : List PaperTrade) (k : String × String) : ℤ :=
  netOf PaperTrade.signedQty (ts.filter fun t => t.legInstrument = k)

theorem unitsAt_eq_zero {ts : List PaperTrade} {k : String × String} (h : ∀ t ∈ ts, t.legInstrument ≠ k) :
    unitsAt ts k = 0 := by
  have hnil : ts.filter (fun t => decide (t.legInstrument = k)) = [] :=
    List.filter_eq_nil_iff.mpr fun t ht => by simpa using h t ht
  rw [unitsAt, hnil, netOf_nil]

/-- A batch whose keys are different adds to each pair the units of the trades whose key is
free. -/
theorem netQty_recordTrades {T : PaperTrades} {ts : List PaperTrade} {s : String}
    (hkeys : ts.Pairwise fun t u => t.uniqueKey ≠ u.uniqueKey) (hs : ∀ t ∈ ts, t.strategyName = s)
    (k : String × String) :
    (T.recordTrades ts).1.netQty s k =
      T.netQty s k + unitsAt (ts.filter fun t => !T.hasKey t.uniqueKey) k := by
  rw [netQty_eq_legsQty, legsQty_recordTrades, fresh_eq_filter hkeys, ← netQty_eq_legsQty, unitsAt]
  congr 2
  refine List.filter_congr fun t ht => ?_
  rw [ofLegs, hs t (List.mem_of_mem_filter ht)]
  simp

/-- Two trades of different legs each add their quantity to their pair, unless their key is
taken. -/
theorem netQty_recordTrades_two {T : PaperTrades} {t u : PaperTrade} {s : String} (hrole : t.legRole ≠ u.legRole)
    (ht : t.strategyName = s) (hu : u.strategyName = s) (k : String × String) :
    (T.recordTrades [t, u]).1.netQty s k =
      T.netQty s k + (if T.hasKey t.uniqueKey = false ∧ t.legInstrument = k then t.signedQty else 0) +
        (if T.hasKey u.uniqueKey = false ∧ u.legInstrument = k then u.signedQty else 0) := by
  have hkeys : [t, u].Pairwise fun t u => t.uniqueKey ≠ u.uniqueKey :=
    List.pairwise_pair.mpr fun h => hrole (congrArg PaperTrade.UniqueKey.legRole h)
  rw [netQty_recordTrades hkeys (by simp [ht, hu]), unitsAt, add_assoc]
  congr 1
  cases hft : T.hasKey t.uniqueKey <;> cases hfu : T.hasKey u.uniqueKey <;>
    by_cases htk : t.legInstrument = k <;> by_cases huk : u.legInstrument = k <;>
      simp [hft, hfu, htk, huk, netOf]

/-- A batch without duplicates adds its units to each pair. -/
theorem netQty_batch {T : PaperTrades} {ts ms : List PaperTrade} {s : String}
    (hfresh : AllFresh T.hasKey ts)
    (hs : ∀ t ∈ ts, t.strategyName = s) (k : String × String) :
    ((T.recordTrades ts).1.markAllClosed ms).netQty s k = T.netQty s k + unitsAt ts k := by
  rw [netQty_eq_legsQty, legsQty_markAllClosed, legsQty_recordTrades, fresh_eq_self_iff.mpr hfresh,
    ← netQty_eq_legsQty,
    unitsAt]
  congr 2
  refine List.filter_congr fun t ht => ?_
  rw [ofLegs, hs t ht]
  simp

section ClosingBatch

variable {T : PaperTrades} {lookup : Option InstrumentLookup} {ts ms : List PaperTrade} {s : String}
  (hfresh : AllFresh T.hasKey ts) (hs : ∀ t ∈ ts, t.strategyName = s)
  (hopen : ∀ t ∈ ts, ∃ p ∈ T.getPositions lookup s, p.pair = t.legInstrument)

include hfresh hs hopen

/-- A pair that holds something after a batch on open pairs had a position before. -/
theorem exists_position_of_batch {k : String × String}
    (h : ((T.recordTrades ts).1.markAllClosed ms).netQty s k ≠ 0) :
    ∃ p ∈ T.getPositions lookup s, p.pair = k := by
  by_contra hnone
  have hnet : T.netQty s k = 0 := by
    by_contra hnet
    exact hnone (exists_position_iff.mpr hnet)
  have hunits : unitsAt ts k = 0 := by
    refine unitsAt_eq_zero fun t ht htk => ?_
    obtain ⟨p, hp, hpair⟩ := hopen t ht
    exact hnone ⟨p, hp, hpair.trans htk⟩
  rw [netQty_batch hfresh hs, hnet, hunits] at h
  exact h rfl

/-- **Which batches flatten a role**: those that take each of its positions to zero. -/
theorem flat_batch_iff {role : String} :
    (∀ i, ((T.recordTrades ts).1.markAllClosed ms).netQty s (role, i) = 0) ↔
      ∀ p ∈ T.getPositions lookup s, p.legRole = role → p.netQty + unitsAt ts p.pair = 0 := by
  constructor
  · rintro hflat p hp rfl
    have hzero := hflat p.instrumentKey
    rw [netQty_batch hfresh hs] at hzero
    rw [netQty_of_mem hp]
    exact hzero
  · intro hall i
    by_contra hne
    obtain ⟨p, hp, hpair⟩ := exists_position_of_batch hfresh hs hopen hne
    have hzero := hall p hp (congrArg Prod.fst hpair)
    rw [netQty_of_mem hp, hpair] at hzero
    rw [netQty_batch hfresh hs] at hne
    exact hne hzero

/-- Which batches leave a role short: those that leave one of its positions short. -/
theorem short_batch_iff {role : String} :
    (∃ i, ((T.recordTrades ts).1.markAllClosed ms).netQty s (role, i) < 0) ↔
      ∃ p ∈ T.getPositions lookup s, p.legRole = role ∧ p.netQty + unitsAt ts p.pair < 0 := by
  constructor
  · rintro ⟨i, hneg⟩
    obtain ⟨p, hp, hpair⟩ := exists_position_of_batch hfresh hs hopen hneg.ne
    refine ⟨p, hp, congrArg Prod.fst hpair, ?_⟩
    rw [netQty_of_mem hp, hpair]
    rw [netQty_batch hfresh hs] at hneg
    exact hneg
  · rintro ⟨p, hp, rfl, hneg⟩
    refine ⟨p.instrumentKey, ?_⟩
    rw [netQty_batch hfresh hs]
    rw [netQty_of_mem hp] at hneg
    exact hneg

end ClosingBatch

/-- A trade is live after the marking if it was before and its leg is not marked. -/
theorem isLive_afterMarks {ts : List PaperTrade} {u : PaperTrade} :
    isLive (afterMarks ts u) = true ↔ isLive u = true ∧ ∀ t ∈ ts, sameLeg t u = false := by
  unfold afterMarks
  split
  next h =>
    obtain ⟨hleg, hlive⟩ := Bool.and_eq_true_iff.mp h
    obtain ⟨t, ht, htu⟩ := List.any_eq_true.mp hleg
    constructor
    · intro hclosed
      exact absurd hclosed (by simp [isLive])
    · rintro ⟨-, hall⟩
      exact absurd (htu.symm.trans (hall t ht)) (by decide)
  next h =>
    refine ⟨fun hlive => ⟨hlive, fun t ht => ?_⟩, fun hlive => hlive.1⟩
    by_contra htu
    rw [hlive, Bool.and_true] at h
    exact h (List.any_eq_true.mpr ⟨t, ht, by simpa using htu⟩)

@[simp] theorem legRole_afterMarks (ts : List PaperTrade) (u : PaperTrade) :
    (afterMarks ts u).legRole = u.legRole := by
  unfold afterMarks
  split <;> rfl

@[simp] theorem strategyName_afterMarks (ts : List PaperTrade) (u : PaperTrade) :
    (afterMarks ts u).strategyName = u.strategyName := by
  unfold afterMarks
  split <;> rfl

/-- **When a role has no live row left** after a batch and the marking of all its legs:
when the live rows it had are all of the marked legs. -/
theorem live_batch_iff {T : PaperTrades} {ts : List PaperTrade} {s role : String} :
    (∀ r ∈ ((T.recordTrades ts).1.markAllClosed ts).rows, r.trade.strategyName = s →
      r.trade.legRole = role →
        isLive r.trade = false) ↔
      ∀ r ∈ T.rows, r.trade.strategyName = s → r.trade.legRole = role → isLive r.trade = true →
        ∃ t ∈ ts, sameLeg t r.trade = true := by
  obtain ⟨new, hrows, hmap, -⟩ := rows_recordTrades ts T
  rw [rows_markAllClosed, hrows]
  constructor
  · intro h r hr hs hrole hlive
    by_contra hnone
    have hdead := h { r with trade := afterMarks ts r.trade }
      (List.mem_map.mpr ⟨r, List.mem_append_left _ hr, rfl⟩) (by simpa using hs) (by simpa using hrole)
    have hlive' : isLive (afterMarks ts r.trade) = true := isLive_afterMarks.mpr ⟨hlive, fun t ht => by
      by_contra htr
      exact hnone ⟨t, ht, by simpa using htr⟩⟩
    exact absurd (hlive'.symm.trans hdead) (by decide)
  · intro h r' hr' hs hrole
    obtain ⟨r, hr, rfl⟩ := List.mem_map.mp hr'
    by_contra hlive
    obtain ⟨hlive, hnone⟩ := isLive_afterMarks.mp (Bool.not_eq_false _ ▸ hlive)
    rcases List.mem_append.mp hr with hr | hr
    · obtain ⟨t, ht, htr⟩ := h r hr (by simpa using hs) (by simpa using hrole) hlive
      exact absurd (htr.symm.trans (hnone t ht)) (by decide)
    · -- a new row is that of a trade of the batch, whose leg is marked
      have hmem : r.trade ∈ ts := by
        have hfresh : r.trade ∈ fresh T.hasKey ts := hmap ▸ List.mem_map_of_mem hr
        exact (fresh_sublist ts _).subset hfresh
      exact absurd (hnone r.trade hmem) (by simp [sameLeg])

end PaperTrades

/-! ### The marking loop of a caller -/

variable {ε : Type}

/-- One `mark_trade_closed` for each trade, until one raises. -/
def markClosedEach (raised : ε) : Option ℕ → List PaperTrade → EStateM ε PaperTrades Unit
  | _, [] => pure ()
  | some 0, _ :: _ => throw raised
  | some (n + 1), t :: ts => do
    updates fun T => (T.markTradeClosed t.strategyName t.legRole t.instrumentKey, ())
    markClosedEach raised (some n) ts
  | none, t :: ts => do
    updates fun T => (T.markTradeClosed t.strategyName t.legRole t.instrumentKey, ())
    markClosedEach raised none ts

/-- The trades that are marked before a marking raises. -/
def markedBefore (fault : Option ℕ) (ts : List PaperTrade) : List PaperTrade :=
  match fault with
  | none => ts
  | some n => ts.take n

theorem markedBefore_subset (fault : Option ℕ) (ts : List PaperTrade) : markedBefore fault ts ⊆ ts := by
  cases fault with
  | none => exact List.Subset.refl ts
  | some n => exact List.take_subset n ts

theorem finalState_markClosedEach (raised : ε) (ts : List PaperTrade) :
    ∀ (fault : Option ℕ) (T : PaperTrades),
    finalState (markClosedEach raised fault ts T) = T.markAllClosed (markedBefore fault ts) := by
  induction ts with
  | nil =>
    intro fault T
    cases fault <;> simp [markClosedEach, markedBefore, PaperTrades.markAllClosed, pure_run]
  | cons t ts ih =>
    intro fault T
    rcases fault with _ | _ | n
    · rw [markClosedEach, bind_run, updates_run]
      exact ih none _
    · rfl
    · rw [markClosedEach, bind_run, updates_run]
      exact ih (some n) _

theorem markClosedEach_ok {raised : ε} (ts : List PaperTrade) : ∀ {fault : Option ℕ} {T T' : PaperTrades},
    markClosedEach raised fault ts T = .ok () T' → T' = T.markAllClosed ts := by
  induction ts with
  | nil =>
    intro fault T T' h
    rw [markClosedEach, pure_ok_iff] at h
    exact h.2.symm
  | cons t ts ih =>
    intro fault T T' h
    rcases fault with _ | _ | n
    · rw [markClosedEach, bind_run, updates_run] at h
      exact ih h
    · exact absurd h throw_ne_ok
    · rw [markClosedEach, bind_run, updates_run] at h
      exact ih h

/-- A marking of a list this long raises. -/
def marksRaise (fault : Option ℕ) (ts : List PaperTrade) : Prop := ∃ n, fault = some n ∧ n < ts.length

/-- **How the marking loop ends**: with every leg marked, unless one call raises. -/
theorem markClosedEach_run (raised : ε) (ts : List PaperTrade) : ∀ (fault : Option ℕ) (T : PaperTrades),
    (marksRaise fault ts ∧ ∃ T', markClosedEach raised fault ts T = .error raised T') ∨
      (¬marksRaise fault ts ∧ markClosedEach raised fault ts T = .ok () (T.markAllClosed ts)) := by
  induction ts with
  | nil =>
    intro fault T
    refine Or.inr ⟨?_, by rw [markClosedEach]; rfl⟩
    rintro ⟨n, -, hn⟩
    exact absurd hn (by simp)
  | cons t ts ih =>
    intro fault T
    rcases fault with _ | _ | n
    · rw [markClosedEach, bind_run, updates_run]
      refine Or.inr ⟨by simp [marksRaise], ?_⟩
      rcases ih none (T.markTradeClosed t.strategyName t.legRole t.instrumentKey) with
        ⟨⟨n, hn, -⟩, -⟩ | ⟨-, h⟩
      · exact absurd hn (by simp)
      · exact h
    · exact Or.inl ⟨⟨0, rfl, by simp⟩, T, rfl⟩
    · rw [markClosedEach, bind_run, updates_run]
      have hiff : marksRaise (some (n + 1)) (t :: ts) ↔ marksRaise (some n) ts := by
        simp [marksRaise]
      rw [hiff]
      exact ih (some n) (T.markTradeClosed t.strategyName t.legRole t.instrumentKey)

end NiftyShield.Paper
