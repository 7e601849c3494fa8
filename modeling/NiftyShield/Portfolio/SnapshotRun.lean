import NiftyShield.Portfolio.LegStore

/-!
# Recording the daily snapshots

`PortfolioTracker.record_all_strategies` (`src/portfolio/tracker.py`) overlays the trades on each
strategy, has `SnapshotService.persist_snapshots` (`src/portfolio/service.py`) write one snapshot
for each leg, and values the legs at the fetched prices. A leg without a fetched price is valued at
its entry price and written with the price 0.

## What is proved

`recordEach_spec`: a run over strategies of the tables does not raise, adds to each strategy one leg
for each text of its trade-only legs, and leaves every leg that the trades have not closed with a
row of the day.

## Honest scope

The counts of recorded snapshots, which are only printed, are left out, and so are the greeks.
-/

namespace NiftyShield.Portfolio

open NiftyShield.Lib

/-! ### The run -/

/-- `prices.get(leg.instrument_key, Decimal("0.0"))`. -/
def snapshotLtp (prices : Prices) (key : String) : ℚ := (prices.get? key).getD 0

namespace PortfolioTables

/-- The exponent of the decimal a trade-only leg has as its entry price, by strategy and leg. -/
abbrev Exponents := String → Leg → ℤ

/-- `positions` of a strategy. -/
def positions (t : PortfolioTables) (strategyName : String) : Dict String Position :=
  t.trades.getAllPositionsForStrategy strategyName

/-- The trades laid over a loaded strategy, if there are any. -/
def overlay (t : PortfolioTables) (today : Date) (strategy : Strategy) : Strategy :=
  if (t.positions strategy.name).entries = [] then strategy
  else applyTradePositions strategy (t.positions strategy.name) today

/-- `_get_overlaid_strategy`. -/
def getOverlaidStrategy (t : PortfolioTables) (today : Date) (strategyName : String) : Option Strategy :=
  (t.getStrategy strategyName).map (t.overlay today)

/-- `_get_all_overlaid_strategies`. -/
def getAllOverlaidStrategies (t : PortfolioTables) (today : Date) : List Strategy :=
  t.getAllStrategies.map (t.overlay today)

/-- The loop of `persist_snapshots`: the rows to write, by leg id. -/
def persistLegs (exponents : Exponents) (strategyName : String) (prices : Prices) :
    List Leg → PortfolioTables → Option (PortfolioTables × List (ℕ × DailySnapshot))
  | [], t => some (t, [])
  | leg :: legs, t =>
    (t.ensureLeg strategyName leg (exponents strategyName leg)).bind fun (t, id) =>
      (persistLegs exponents strategyName prices legs t).map fun (t, snapshots) =>
        (t, (id, { ltp := snapshotLtp prices leg.instrumentKey }) :: snapshots)

/-- `persist_snapshots`. -/
def persistSnapshots (exponents : Exponents) (strategyName : String) (strategy : Strategy) (snapDate : Date)
    (prices : Prices) (t : PortfolioTables) : Option PortfolioTables :=
  (persistLegs exponents strategyName prices strategy.legs t).map fun (t, snapshots) =>
    t.recordSnapshotsBulk snapDate snapshots

variable (exponents : Exponents) (today snapDate : Date) (prices : Prices)

/-- `record_daily_snapshot`. -/
def recordDailySnapshot (strategyName : String) (t : PortfolioTables) : Option (PortfolioTables × Option StrategyPnL) :=
  match t.getOverlaidStrategy today strategyName with
  | none => some (t, none)
  | some strategy =>
    (persistSnapshots exponents strategyName strategy snapDate prices t).map fun t =>
      (t, some (buildStrategyPnl strategy prices))

/-- The loop of `record_all_strategies`. -/
def recordEach : List String → PortfolioTables × Dict String (Option StrategyPnL) →
    Option (PortfolioTables × Dict String (Option StrategyPnL))
  | [], s => some s
  | name :: names, (t, pnls) =>
    (recordDailySnapshot exponents today snapDate prices name t).bind fun (t, pnl) => recordEach names (t, pnls.set name pnl)

/-- `record_all_strategies`. -/
def recordAllStrategies (t : PortfolioTables) : Option (PortfolioTables × Dict String (Option StrategyPnL)) :=
  recordEach exponents today snapDate prices ((t.getAllOverlaidStrategies today).map Strategy.name) (t, Dict.empty)

/-! ### The legs of one strategy -/

/-- The snapshots made for legs of a strategy. -/
structure SnapshotsOf (prices : Prices) (t : PortfolioTables) (legs : List Leg) (added : List LegRow)
    (snapshots : List (ℕ × DailySnapshot)) : Prop where
  /-- Each is of a leg of the tables, at the price of its instrument. -/
  sound : ∀ s ∈ snapshots, ∃ row ∈ t.legs, row.id = s.1 ∧ s.2 = ⟨snapshotLtp prices row.columns.instrumentKey⟩
  /-- Each leg with a row has one. -/
  ofIds : ∀ leg ∈ legs, ∀ i, leg.id = some i → i ∈ snapshots.map Prod.fst
  /-- So has each added leg. -/
  ofAdded : ∀ row ∈ added, row.id ∈ snapshots.map Prod.fst
  /-- There are as many as legs. -/
  length_eq : snapshots.length = legs.length

/-- The texts of the trade-only legs, each once. -/
def tradeOnlyTexts (strategyName : String) (legs : List Leg) : List LegText :=
  Grouping.keys (fun leg => leg.text (exponents strategyName leg)) (legs.filter fun leg => leg.id = none)

variable {exponents} in
theorem tradeOnlyTexts_cons_of_id {strategyName : String} {leg : Leg} {legs : List Leg} {i : ℕ}
    (h : leg.id = some i) :
    tradeOnlyTexts exponents strategyName (leg :: legs) = tradeOnlyTexts exponents strategyName legs := by
  rw [tradeOnlyTexts, List.filter_cons_of_neg (by simp [h]), tradeOnlyTexts]

variable {exponents} in
theorem tradeOnlyTexts_cons_of_none {strategyName : String} {leg : Leg} {legs : List Leg} (h : leg.id = none) :
    tradeOnlyTexts exponents strategyName (leg :: legs) = leg.text (exponents strategyName leg) ::
      (tradeOnlyTexts exponents strategyName legs).filter fun x =>
        x ≠ leg.text (exponents strategyName leg) := by
  rw [tradeOnlyTexts, List.filter_cons_of_pos (by simp [h]), Grouping.keys_cons, tradeOnlyTexts]

/-- One more leg, with the row of its snapshot and the rows that were added for it. -/
theorem SnapshotsOf.cons {prices : Prices} {t : PortfolioTables} {leg : Leg} {legs : List Leg}
    {first added : List LegRow}
    {snapshots : List (ℕ × DailySnapshot)} {r : LegRow} (h : SnapshotsOf prices t legs added snapshots)
    (hr : r ∈ t.legs) (hkey : r.columns.instrumentKey = leg.instrumentKey)
    (hid : ∀ j, leg.id = some j → j = r.id)
    (hfirst : ∀ r' ∈ first, r'.id = r.id) :
    SnapshotsOf prices t (leg :: legs) (first ++ added)
    ((r.id, ⟨snapshotLtp prices leg.instrumentKey⟩) :: snapshots) := by
  refine ⟨?_, ?_, ?_, ?_⟩
  · rintro s hs
    rcases List.mem_cons.mp hs with rfl | hs
    · exact ⟨r, hr, rfl, by rw [hkey]⟩
    · exact h.sound s hs
  · rintro l hl j hj
    rcases List.mem_cons.mp hl with rfl | hl
    · exact hid j hj ▸ List.mem_cons_self
    · exact List.mem_cons_of_mem _ (h.ofIds l hl j hj)
  · rintro r' hr'
    rcases List.mem_append.mp hr' with hr' | hr'
    · exact hfirst r' hr' ▸ List.mem_cons_self
    · exact List.mem_cons_of_mem _ (h.ofAdded r' hr')
  · rw [List.length_cons, List.length_cons, h.length_eq]

/-- What a leg and then the rest add is what is not in the tables before, each text once. -/
theorem newTexts_cons {t t₁ : PortfolioTables} {strategyId : ℕ} {first : List LegRow} {x : LegText}
    (h : LegsAdded t t₁ strategyId first)
    (hfirst : first.map LegRow.text = if t.findLeg strategyId x = none then [x] else []) (xs : List LegText) :
    first.map LegRow.text ++ xs.filter (fun y => t₁.findLeg strategyId y = none) =
      (x :: xs.filter fun y => y ≠ x).filter fun y => t.findLeg strategyId y = none := by
  rw [List.filter_cons, List.filter_filter, hfirst]
  by_cases hfound : t.findLeg strategyId x = none
  · simp only [hfound, decide_true, if_true, List.singleton_append, List.cons.injEq, true_and]
    refine List.filter_congr fun y _ => ?_
    rw [Bool.eq_iff_iff]
    simp [h.findLeg_eq_none_iff, hfirst, hfound]
  · simp only [hfound, decide_false, Bool.false_eq_true, if_false, List.nil_append]
    refine List.filter_congr fun y _ => ?_
    rw [Bool.eq_iff_iff]
    simp only [decide_eq_true_eq, h.findLeg_eq_none_iff, hfirst, if_neg hfound, List.not_mem_nil,
      not_false_eq_true, and_true, Bool.and_eq_true]
    refine ⟨fun hy => ⟨hy, ?_⟩, And.left⟩
    rintro rfl
    exact hfound hy

/-- **The legs of one strategy**: one leg is added for each text of a trade-only leg that is not
there yet, and there is a snapshot for each leg. -/
theorem persistLegs_spec {row : StrategyRow} {name : String} : ∀ (legs : List Leg) (t : PortfolioTables),
    t.strategyRow? name = some row →
    (∀ leg ∈ legs, ∀ i, leg.id = some i → ∃ r ∈ t.legs, r.id = i ∧
      r.columns.instrumentKey = leg.instrumentKey) →
    ∃ t' snapshots added, persistLegs exponents name prices legs t = some (t', snapshots) ∧
      LegsAdded t t' row.id added ∧
      added.map LegRow.text = ((tradeOnlyTexts exponents name legs).filter fun x => t.findLeg row.id x = none) ∧
      SnapshotsOf prices t' legs added snapshots
  | [], t, _, _ => ⟨t, [], [], rfl, .refl _ _, by simp [tradeOnlyTexts, Grouping.keys], by constructor <;> simp⟩
  | leg :: legs, t, hrow, hids => by
    have hrest : ∀ l ∈ legs, ∀ i, l.id = some i → ∃ r ∈ t.legs, r.id = i ∧
      r.columns.instrumentKey = l.instrumentKey :=
      fun l hl => hids l (List.mem_cons_of_mem _ hl)
    cases hid : leg.id with
    | some i =>
      obtain ⟨t', snapshots, added, hrun, hadded, htexts, hsnaps⟩ := persistLegs_spec legs t hrow hrest
      obtain ⟨r, hr, rfl, hkey⟩ := hids leg List.mem_cons_self i hid
      have hown : ∀ j, leg.id = some j → j = r.id := fun j hj => Option.some.inj (hj.symm.trans hid)
      refine ⟨t', _, added, by simp [persistLegs, ensureLeg, hid, hrun], hadded, ?_,
        @SnapshotsOf.cons prices t' leg legs [] added snapshots r hsnaps (hadded.mem_of_mem hr) hkey hown
          (List.forall_mem_nil _)⟩
      rw [htexts, tradeOnlyTexts_cons_of_id hid]
    | none =>
      obtain ⟨first, hfirst, hfirstTexts, hfirstIds, r, hr, hri, hrtext⟩ :=
        upsertLeg_spec t row.id leg (exponents name leg)
      generalize hupsert : t.upsertLeg row.id leg (exponents name leg) = u at *
      obtain ⟨t₁, i⟩ := u
      obtain rfl : r.id = i := hri
      obtain ⟨t', snapshots, added, hrun, hadded, htexts, hsnaps⟩ :=
        persistLegs_spec legs t₁ ((hfirst.strategyRow? name).trans hrow) fun l hl j hj => by
          obtain ⟨r', hr', hrj⟩ := hrest l hl j hj
          exact ⟨r', hfirst.mem_of_mem hr', hrj⟩
      have hkey : r.columns.instrumentKey = leg.instrumentKey := congrArg LegText.instrumentKey hrtext
      have hown : ∀ j, leg.id = some j → j = r.id := fun j hj => absurd (hid.symm.trans hj) (by simp)
      refine ⟨t', _, first ++ added, by simp [persistLegs, ensureLeg, hid, hrow, hupsert, hrun],
        hfirst.trans hadded, ?_,
        hsnaps.cons (hadded.mem_of_mem hr) hkey hown hfirstIds⟩
      rw [List.map_append, htexts, newTexts_cons hfirst hfirstTexts, tradeOnlyTexts_cons_of_none hid]

end PortfolioTables

/-! ### The legs of an overlay -/

/-- The positions of a strategy by instrument. -/
def byInstrumentKey (positions : Dict String Position) : Dict String Position :=
  Dict.index Position.instrumentKey positions.values

/-- The legs that `apply_trade_positions` appends. -/
def appendedLegs (strategy : Strategy) (positions : Dict String Position) (today : Date) : List Leg :=
  positions.entries.filterMap fun (legRole, pos) =>
    if pos.instrumentKey ∈ (strategy.legs.map (·.instrumentKey)).filter fun k => ((byInstrumentKey positions).get? k).isSome
    then none
    else if pos.quantity = 0 then none
    else some (appendedLeg ((strategy.legs.head?.map (·.entryDate)).getD today) legRole pos)

theorem legs_applyTradePositions (strategy : Strategy) (positions : Dict String Position) (today : Date) :
    (applyTradePositions strategy positions today).legs =
      strategy.legs.filterMap (overlayLeg (byInstrumentKey positions)) ++ appendedLegs strategy
        positions today := rfl

theorem isSome_byInstrumentKey {positions : Dict String Position} {key : String} :
    ((byInstrumentKey positions).get? key).isSome = true ↔ key ∈ positions.values.map (·.instrumentKey) := by
  rw [← usedPosition_isSome_iff, byInstrumentKey, Dict.get?_index]
  rfl

theorem mem_appendedLegs {strategy : Strategy} {positions : Dict String Position} {today : Date} {leg : Leg} :
    leg ∈ appendedLegs strategy positions today ↔
      ∃ legRole pos, (legRole, pos) ∈ positions.entries ∧ pos.instrumentKey ∉ strategy.legs.map
        (·.instrumentKey) ∧
        pos.quantity ≠ 0 ∧
        leg = appendedLeg ((strategy.legs.head?.map (·.entryDate)).getD today) legRole pos := by
  rw [appendedLegs, List.mem_filterMap, Prod.exists]
  refine exists₂_congr fun legRole pos => and_congr_right fun hpos => ?_
  have htraded : pos.instrumentKey ∈ positions.values.map (·.instrumentKey) :=
    List.mem_map_of_mem (List.mem_map.mpr ⟨_, hpos, rfl⟩)
  simp only [Option.ite_none_left_eq_some, Option.some.injEq, List.mem_filter, isSome_byInstrumentKey,
    htraded, and_true]
  exact and_congr_right fun _ => and_congr_right fun _ => eq_comm

/-- An appended leg is of an instrument that was traded and that the strategy has no leg on. -/
theorem of_mem_appendedLegs {strategy : Strategy} {positions : Dict String Position} {today : Date} {leg : Leg}
    (h : leg ∈ appendedLegs strategy positions today) :
    leg.id = none ∧ leg.instrumentKey ∈ positions.values.map (·.instrumentKey) ∧
      leg.instrumentKey ∉ strategy.legs.map (·.instrumentKey) := by
  obtain ⟨legRole, pos, hpos, hout, -, rfl⟩ := mem_appendedLegs.mp h
  exact ⟨rfl, List.mem_map_of_mem (List.mem_map.mpr ⟨_, hpos, rfl⟩), hout⟩

/-- An overlaid leg keeps its row and its instrument. -/
theorem of_overlayLeg_eq_some {positions : Dict String Position} {leg leg' : Leg}
    (h : overlayLeg positions leg = some leg') :
    leg'.id = leg.id ∧ leg'.instrumentKey = leg.instrumentKey := by
  rw [overlayLeg] at h
  cases hpos : positions.get? leg.instrumentKey with
  | none =>
    rw [hpos] at h
    obtain rfl := Option.some.inj h
    exact ⟨rfl, rfl⟩
  | some pos =>
    simp only [hpos, Option.ite_none_left_eq_some, Option.some.injEq] at h
    obtain ⟨-, rfl⟩ := h
    exact ⟨rfl, rfl⟩

namespace PortfolioTables

variable (exponents : Exponents) (today snapDate : Date) (prices : Prices)

/-- The strategy of a row with the trades laid over it. -/
def overlaid (t : PortfolioTables) (row : StrategyRow) : Strategy := t.overlay today (t.load row)

@[simp] theorem name_overlay (t : PortfolioTables) (strategy : Strategy) :
    (t.overlay today strategy).name = strategy.name := by
  unfold overlay
  split <;> rfl

/-- Without trades the overlay changes no leg, so the guard of it makes no difference. -/
theorem legs_overlay (t : PortfolioTables) (strategy : Strategy) :
    (t.overlay today strategy).legs = (applyTradePositions strategy
      (t.positions strategy.name) today).legs := by
  unfold overlay
  split
  next hempty =>
    have hvalues : (t.positions strategy.name).values = [] := by rw [Dict.values, hempty, List.map_nil]
    have hkeep : strategy.legs.filterMap (overlayLeg (byInstrumentKey (t.positions strategy.name))) =
        strategy.legs := by
      refine (List.filterMap_congr fun leg _ => ?_).trans List.filterMap_some
      rw [overlayLeg, byInstrumentKey, hvalues]
      rfl
    rw [legs_applyTradePositions, hkeep, appendedLegs, hempty, List.filterMap_nil, List.append_nil]
  next => rfl

theorem legs_overlaid (t : PortfolioTables) (row : StrategyRow) :
    (t.overlaid today row).legs =
      (t.getLegs row.id).filterMap (overlayLeg (byInstrumentKey (t.positions row.name))) ++
        appendedLegs (t.load row) (t.positions row.name) today := by
  rw [overlaid, legs_overlay, legs_applyTradePositions]
  rfl

/-- The legs of the overlay without a row are the appended ones. -/
theorem tradeOnly_overlaid (t : PortfolioTables) (row : StrategyRow) :
    ((t.overlaid today row).legs.filter fun leg => leg.id = none) =
      appendedLegs (t.load row) (t.positions row.name) today := by
  have hloaded : (((t.getLegs row.id).filterMap (overlayLeg (byInstrumentKey (t.positions row.name)))).filter
      fun leg => leg.id = none) = [] := by
    refine List.filter_eq_nil_iff.mpr fun leg hleg hid => ?_
    obtain ⟨leg', hleg', hover⟩ := List.mem_filterMap.mp hleg
    obtain ⟨r, -, rfl⟩ := List.mem_map.mp hleg'
    have hsome := (of_overlayLeg_eq_some hover).1
    simp [of_decide_eq_true hid] at hsome
  rw [legs_overlaid, List.filter_append, hloaded, List.nil_append]
  exact List.filter_eq_self.mpr fun leg hleg => decide_eq_true (of_mem_appendedLegs hleg).1

/-! ### The rows of a day -/

/-- A leg has a row of the day, at the price of its instrument. -/
def PricedAt (t : PortfolioTables) (r : LegRow) : Prop :=
  t.dailySnapshots.get? (r.id, snapDate) = some ⟨snapshotLtp prices r.columns.instrumentKey⟩

/-- There are rows of the day. -/
def HasSnapshots (t : PortfolioTables) : Prop := ∃ i s, t.dailySnapshots.get? (i, snapDate) = some s

variable {exponents today snapDate prices} {t : PortfolioTables}

private theorem get?_bulk_of_not_mem {snapshots : List (ℕ × DailySnapshot)} {i : ℕ}
    (h : i ∉ snapshots.map Prod.fst) :
    (t.recordSnapshotsBulk snapDate snapshots).dailySnapshots.get? (i, snapDate) =
      t.dailySnapshots.get? (i, snapDate) :=
  Dict.get?_foldl_set_of_ne (fun s : ℕ × DailySnapshot => some (s.1, snapDate)) Prod.snd (fun s hs hkey => by
    obtain ⟨rfl, -⟩ := Prod.mk.inj (Option.some.inj hkey)
    exact h (List.mem_map_of_mem hs)) t.dailySnapshots

private theorem get?_bulk_of_mem {snapshots : List (ℕ × DailySnapshot)} {i : ℕ}
    (h : i ∈ snapshots.map Prod.fst) :
    ∃ s, (t.recordSnapshotsBulk snapDate snapshots).dailySnapshots.get? (i, snapDate) = some s := by
  obtain ⟨s, hs, rfl⟩ := List.mem_map.mp h
  have hget := Dict.get?_foldl_set_some (fun s : ℕ × DailySnapshot => some (s.1, snapDate)) Prod.snd
    (s.1, snapDate)
    snapshots t.dailySnapshots
  have hne : (snapshots.filter fun s' => decide (some (s'.1, snapDate) = some (s.1, snapDate))) ≠ [] :=
    List.ne_nil_of_mem (List.mem_filter.mpr ⟨hs, decide_eq_true rfl⟩)
  exact ⟨_, hget.trans (by rw [List.getLast?_eq_getLast_of_ne_nil hne]; rfl)⟩

theorem hasSnapshots_recordSnapshotsBulk {snapshots : List (ℕ × DailySnapshot)} :
    (t.recordSnapshotsBulk snapDate snapshots).HasSnapshots snapDate ↔ t.HasSnapshots snapDate ∨
      snapshots ≠ [] := by
  constructor
  · rintro ⟨i, s, hs⟩
    by_cases hi : i ∈ snapshots.map Prod.fst
    · exact .inr (List.map_eq_nil_iff.not.mp (List.ne_nil_of_mem hi))
    · exact .inl ⟨i, s, (get?_bulk_of_not_mem hi).symm.trans hs⟩
  · rintro (⟨i, s, hs⟩ | hne)
    · by_cases hi : i ∈ snapshots.map Prod.fst
      · exact ⟨i, get?_bulk_of_mem hi⟩
      · exact ⟨i, s, (get?_bulk_of_not_mem hi).trans hs⟩
    · obtain ⟨s, hs⟩ := List.exists_mem_of_ne_nil _ hne
      exact ⟨s.1, get?_bulk_of_mem (List.mem_map_of_mem hs)⟩

/-- A leg with a snapshot has a row of the day afterwards, at the price of its instrument. -/
theorem SnapshotsOf.pricedAt {legs : List Leg} {added : List LegRow} {snapshots : List (ℕ × DailySnapshot)}
    (h : SnapshotsOf prices t legs added snapshots) {r : LegRow} (hr : r ∈ t.legs)
    (hi : r.id ∈ snapshots.map Prod.fst) :
    (t.recordSnapshotsBulk snapDate snapshots).PricedAt snapDate prices r := by
  obtain ⟨s, hs, hsi⟩ := List.mem_map.mp hi
  refine Dict.get?_foldl_set_of_agree (fun s : ℕ × DailySnapshot => some (s.1, snapDate)) Prod.snd
    ⟨s, hs, by rw [hsi]⟩ (fun s hs hkey => ?_) t.dailySnapshots
  obtain ⟨hsi, -⟩ := Prod.mk.inj (Option.some.inj hkey)
  obtain ⟨r', hr', hri, hltp⟩ := h.sound s hs
  rw [hltp, leg_eq_of_id hr' hr (hri.trans hsi)]

/-! ### What a run leaves -/

variable (exponents today snapDate prices) in
/-- The second tables are the first after the snapshots of some strategies. -/
structure Recorded (t t' : PortfolioTables) (done : List StrategyRow) : Prop where
  /-- The strategies stay. -/
  strategies : t'.strategies = t.strategies
  /-- And the trades. -/
  trades : t'.trades = t.trades
  /-- And the legs. -/
  mem_of_mem : ∀ r ∈ t.legs, r ∈ t'.legs
  /-- Other strategies get no legs. -/
  untouched : ∀ strategyId, (∀ row ∈ done, row.id ≠ strategyId) → t'.legRows strategyId = t.legRows strategyId
  /-- These get one for each text of their trade-only legs. -/
  added : ∀ row ∈ done, ∃ added : List LegRow, t'.legRows row.id = t.legRows row.id ++ added ∧
    added.map LegRow.text = tradeOnlyTexts exponents row.name (t.overlaid today row).legs
  /-- Rows of the day at the price of the instrument stay so. -/
  pricedAt_mono : ∀ r ∈ t.legs, t.PricedAt snapDate prices r → t'.PricedAt snapDate prices r
  /-- Every leg that the trades have not closed has one. -/
  pricedAt : ∀ row ∈ done, ∀ r ∈ t'.legRows row.id,
    overlayLeg (byInstrumentKey (t.positions row.name)) r.toLeg ≠ none → t'.PricedAt snapDate prices r
  /-- There are rows of the day if there were or a strategy has a leg. -/
  hasSnapshots : t'.HasSnapshots snapDate ↔
    t.HasSnapshots snapDate ∨ ∃ row ∈ done, (t.overlaid today row).legs ≠ []

namespace Recorded

variable {t' t'' : PortfolioTables} {row : StrategyRow} {rows : List StrategyRow}

theorem nil : Recorded exponents today snapDate prices t t [] :=
  ⟨rfl, rfl, fun _ h => h, fun _ _ => rfl, by simp, fun _ _ h => h, by simp, by simp⟩

theorem positions_eq (h : Recorded exponents today snapDate prices t t' rows) (name : String) :
    t'.positions name = t.positions name := by
  rw [positions, h.trades]
  rfl

theorem overlaid_eq (h : Recorded exponents today snapDate prices t t' rows) {row : StrategyRow}
    (hrow : ∀ row' ∈ rows, row'.id ≠ row.id) : t'.overlaid today row = t.overlaid today row := by
  have hload : t'.load row = t.load row := by rw [load, getLegs, h.untouched row.id hrow, load, getLegs]
  rw [overlaid, overlay, hload, h.positions_eq, overlaid, overlay]

/-- One strategy, then others. -/
theorem cons (h : Recorded exponents today snapDate prices t t' [row])
    (h' : Recorded exponents today snapDate prices t' t'' rows)
    (hrow : ∀ row' ∈ rows, row'.id ≠ row.id) :
      Recorded exponents today snapDate prices t t'' (row :: rows) := by
  have hover : ∀ row' ∈ rows, t'.overlaid today row' = t.overlaid today row' := fun row' hrow' =>
    h.overlaid_eq fun r hr => by
      rw [List.mem_singleton.mp hr]
      exact (hrow row' hrow').symm
  refine ⟨h'.strategies.trans h.strategies, h'.trades.trans h.trades, fun r hr =>
    h'.mem_of_mem r (h.mem_of_mem r hr), ?_, ?_, ?_,
    ?_, ?_⟩
  · rintro sid hsid
    rw [h'.untouched sid fun row' hrow' => hsid row' (List.mem_cons_of_mem _ hrow'),
      h.untouched sid fun row' hrow' => hsid row' (List.mem_singleton.mp hrow' ▸ List.mem_cons_self)]
  · rintro row' hrow'
    rcases List.mem_cons.mp hrow' with rfl | hrow'
    · obtain ⟨added, hlegs, htexts⟩ := h.added row' (List.mem_singleton_self _)
      exact ⟨added, (h'.untouched row'.id hrow).trans hlegs, htexts⟩
    · obtain ⟨added, hlegs, htexts⟩ := h'.added row' hrow'
      refine ⟨added, ?_, hover row' hrow' ▸ htexts⟩
      rw [hlegs, h.untouched row'.id fun r hr => ?_]
      rw [List.mem_singleton.mp hr]
      exact (hrow row' hrow').symm
  · exact fun r hr hpriced => h'.pricedAt_mono r (h.mem_of_mem r hr) (h.pricedAt_mono r hr hpriced)
  · rintro row' hrow' r hr hopen
    rcases List.mem_cons.mp hrow' with rfl | hrow'
    · rw [h'.untouched row'.id hrow] at hr
      exact h'.pricedAt_mono r (mem_legRows.mp hr).1 (h.pricedAt row' (List.mem_singleton_self _) r hr hopen)
    · exact h'.pricedAt row' hrow' r hr (h.positions_eq row'.name ▸ hopen)
  · rw [h'.hasSnapshots, h.hasSnapshots, or_assoc]
    refine or_congr_right ?_
    have hone : (∃ r ∈ [row], (t.overlaid today r).legs ≠ []) ↔ (t.overlaid today row).legs ≠ [] := by simp
    rw [hone, List.exists_mem_cons_iff]
    refine or_congr_right (exists_congr fun row' => and_congr_right fun hrow' => ?_)
    rw [hover row' hrow']

end Recorded

/-- A leg of the strategy that the trades have not closed is a leg of the overlay. -/
theorem exists_overlaid {row : StrategyRow} {r : LegRow} (hr : r ∈ t.legRows row.id)
    (hopen : overlayLeg (byInstrumentKey (t.positions row.name)) r.toLeg ≠ none) :
    ∃ leg ∈ (t.overlaid today row).legs, leg.id = some r.id := by
  obtain ⟨leg, hleg⟩ := Option.ne_none_iff_exists'.mp hopen
  refine ⟨leg, ?_, (of_overlayLeg_eq_some hleg).1⟩
  rw [legs_overlaid]
  exact List.mem_append_left _ (List.mem_filterMap.mpr ⟨r.toLeg, List.mem_map_of_mem hr, hleg⟩)

/-- A leg of the overlay that has a row is of that row's instrument. -/
theorem row_of_overlaid {row : StrategyRow} {leg : Leg} (hleg : leg ∈ (t.overlaid today row).legs)
    {i : ℕ} (hi : leg.id = some i) :
    ∃ r ∈ t.legs, r.id = i ∧ r.columns.instrumentKey = leg.instrumentKey := by
  rw [legs_overlaid] at hleg
  rcases List.mem_append.mp hleg with hleg | hleg
  · obtain ⟨leg', hleg', hover⟩ := List.mem_filterMap.mp hleg
    obtain ⟨r, hr, rfl⟩ := List.mem_map.mp hleg'
    obtain ⟨hid, hkey⟩ := of_overlayLeg_eq_some hover
    exact ⟨r, (mem_legRows.mp hr).1, Option.some.inj (hid.symm.trans hi), hkey.symm⟩
  · exact absurd ((of_mem_appendedLegs hleg).1.symm.trans hi) (by simp)

/-- A trade-only leg is not among the rows of the strategy. -/
theorem findLeg_tradeOnly {row : StrategyRow} {x : LegText}
    (hx : x ∈ tradeOnlyTexts exponents row.name (t.overlaid today row).legs) : t.findLeg row.id x = none := by
  rw [tradeOnlyTexts, tradeOnly_overlaid] at hx
  obtain ⟨leg, hleg, rfl⟩ := Grouping.mem_keys.mp hx
  rw [findLeg_eq_none_iff]
  intro r hr hsid htext
  refine (of_mem_appendedLegs hleg).2.2 (List.mem_map.mpr ⟨r.toLeg, ?_, congrArg LegText.instrumentKey htext⟩)
  exact List.mem_map_of_mem (mem_legRows.mpr ⟨hr, hsid⟩)

/-- **The snapshot of one strategy** does not raise. -/
theorem recordDailySnapshot_spec {row : StrategyRow} (hrow : row ∈ t.strategies) :
    ∃ t', recordDailySnapshot exponents today snapDate prices row.name t =
        some (t', some (buildStrategyPnl (t.overlaid today row) prices)) ∧
      Recorded exponents today snapDate prices t t' [row] := by
  have hfind := strategyRow?_eq_some hrow
  have hover : t.getOverlaidStrategy today row.name = some (t.overlaid today row) := by
    rw [getOverlaidStrategy, getStrategy, hfind]
    rfl
  obtain ⟨t₁, snapshots, added, hrun, hadded, htexts, hsnaps⟩ := persistLegs_spec exponents prices
    (t.overlaid today row).legs t hfind fun leg hleg i hi => row_of_overlaid hleg hi
  have hnew : added.map LegRow.text = tradeOnlyTexts exponents row.name (t.overlaid today row).legs := by
    rw [htexts]
    exact List.filter_eq_self.mpr fun x hx => decide_eq_true (findLeg_tradeOnly hx)
  have hsaved : t₁.legRows row.id = t.legRows row.id ++ added := by rw [hadded.legRows, if_pos rfl]
  refine ⟨t₁.recordSnapshotsBulk snapDate snapshots, by
    simp [recordDailySnapshot, hover, persistSnapshots, hrun],
    hadded.strategies, hadded.trades, fun r hr => hadded.mem_of_mem hr, ?_, ?_, ?_, ?_, ?_⟩
  · rintro sid hsid
    have hne : sid ≠ row.id := (hsid row (List.mem_singleton_self _)).symm
    exact (hadded.legRows sid).trans (by rw [if_neg hne, List.append_nil])
  · rintro row' hrow'
    rw [List.mem_singleton.mp hrow']
    exact ⟨added, hsaved, hnew⟩
  · rintro r hr hpriced
    by_cases hi : r.id ∈ snapshots.map Prod.fst
    · exact hsnaps.pricedAt (hadded.mem_of_mem hr) hi
    · rw [PricedAt, get?_bulk_of_not_mem hi, hadded.dailySnapshots]
      exact hpriced
  · rintro row' hrow' r hr hopen
    obtain rfl := List.mem_singleton.mp hrow'
    have hr' : r ∈ t.legRows row'.id ++ added := hsaved ▸ hr
    refine hsnaps.pricedAt (mem_legRows.mp hr).1 ?_
    rcases List.mem_append.mp hr' with hr' | hr'
    · obtain ⟨leg, hleg, hid⟩ : ∃ leg ∈ (t.overlaid today row').legs, leg.id = some r.id :=
        exists_overlaid hr' hopen
      exact hsnaps.ofIds leg hleg r.id hid
    · exact hsnaps.ofAdded r hr'
  · have hlegs : snapshots ≠ [] ↔ (t.overlaid today row).legs ≠ [] := by
      rw [← List.length_pos_iff, hsnaps.length_eq, List.length_pos_iff]
    have hbefore : t₁.HasSnapshots snapDate ↔ t.HasSnapshots snapDate := by
      rw [HasSnapshots, hadded.dailySnapshots]
      rfl
    rw [hasSnapshots_recordSnapshotsBulk, hbefore, hlegs]
    simp

/-- **A run over strategies** does not raise, and values each as the trades leave it. -/
theorem recordEach_spec : ∀ (rows : List StrategyRow) (t : PortfolioTables)
    (pnls : Dict String (Option StrategyPnL)),
    (∀ row ∈ rows, row ∈ t.strategies) → rows.Nodup →
      ∃ t' pnls', recordEach exponents today snapDate prices (rows.map StrategyRow.name) (t, pnls) =
        some (t', pnls') ∧
        Recorded exponents today snapDate prices t t' rows ∧
        (∀ row ∈ rows, pnls'.get? row.name = some (some (buildStrategyPnl (t.overlaid today row) prices))) ∧
        ∀ name ∉ rows.map StrategyRow.name, pnls'.get? name = pnls.get? name
  | [], t, pnls, _, _ => ⟨t, pnls, rfl, .nil, by simp, fun _ _ => rfl⟩
  | row :: rows, t, pnls, hmem, hnodup => by
    obtain ⟨hnew, hrows⟩ := List.nodup_cons.mp hnodup
    have hrow := hmem row List.mem_cons_self
    have hrest : ∀ row' ∈ rows, row' ∈ t.strategies := fun row' h => hmem row' (List.mem_cons_of_mem _ h)
    have hid : ∀ row' ∈ rows, row'.id ≠ row.id := by
      rintro row' h heq
      exact hnew (List.inj_on_of_nodup_map t.nodup_ids (hrest row' h) hrow heq ▸ h)
    have hname : row.name ∉ rows.map StrategyRow.name := by
      rintro h
      obtain ⟨row', h, heq⟩ := List.mem_map.mp h
      exact hnew (List.inj_on_of_nodup_map t.nodup_names (hrest row' h) hrow heq ▸ h)
    obtain ⟨t₁, hrun, hone⟩ : ∃ t₁, recordDailySnapshot exponents today snapDate prices row.name t =
        some (t₁, some (buildStrategyPnl (t.overlaid today row) prices)) ∧
          Recorded exponents today snapDate prices t t₁ [row] := recordDailySnapshot_spec hrow
    obtain ⟨t', pnls', hrun', hothers, hvalues, hkept⟩ := recordEach_spec rows t₁
      (pnls.set row.name (some (buildStrategyPnl (t.overlaid today row) prices)))
      (fun row' h => hone.strategies ▸ hrest row' h) hrows
    refine ⟨t', pnls', by simp [recordEach, hrun, hrun'], hone.cons hothers hid, ?_, ?_⟩
    · rintro row' h
      rcases List.mem_cons.mp h with rfl | h
      · rw [hkept _ hname, Dict.get?_set, if_pos rfl]
      · rw [hvalues row' h, hone.overlaid_eq fun r hr => ?_]
        rw [List.mem_singleton.mp hr]
        exact (hid row' h).symm
    · rintro name hout
      rw [List.map_cons, List.mem_cons, not_or] at hout
      obtain ⟨hne, hout⟩ := hout
      rw [hkept name hout, Dict.get?_set, if_neg hne]

/-- **The run over all strategies** does not raise. -/
theorem recordAllStrategies_spec (t : PortfolioTables) :
    ∃ t' pnls, recordAllStrategies exponents today snapDate prices t = some (t', pnls) ∧
      Recorded exponents today snapDate prices t t' t.byName ∧
      (∀ row ∈ t.strategies, pnls.get? row.name =
        some (some (buildStrategyPnl (t.overlaid today row) prices))) ∧
      ∀ name ∉ t.strategies.map StrategyRow.name, pnls.get? name = none := by
  have hnames : (t.getAllOverlaidStrategies today).map Strategy.name = t.byName.map StrategyRow.name := by
    rw [getAllOverlaidStrategies, getAllStrategies, List.map_map, List.map_map]
    exact List.map_congr_left fun row _ => name_overlay today t _
  obtain ⟨t', pnls, hrun, hrecorded, hvalues, hkept⟩ :=
    recordEach_spec t.byName t Dict.empty (fun row h => mem_byName.mp h) t.nodup_byName
  refine ⟨t', pnls, by rw [recordAllStrategies, hnames, hrun], hrecorded, fun row h =>
    hvalues row (mem_byName.mpr h), ?_⟩
  intro name hout
  refine hkept name fun hin => hout ?_
  obtain ⟨row, h, rfl⟩ := List.mem_map.mp hin
  exact List.mem_map_of_mem (mem_byName.mp h)

end PortfolioTables

end NiftyShield.Portfolio
