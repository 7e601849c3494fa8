import NiftyShield.Gamma.Store
import NiftyShield.Lib.Cache
import NiftyShield.Lib.Rounding
import Mathlib.Data.List.Dedup

/-!
# The daily calibration

`_run_calibration` of `scripts/pipeline/gamma_daily_watch.py` ranks the implied volatility of each of
the day's snapshots among the latest twenty days of its strike, and its gearing among the latest
sixty days of its time to expiry, and writes the two percentiles (`update_percentiles` of
`src/gamma/store.py`). What is read of the history is kept for the other snapshots.

## What is proved

* `runCalibration_eq`, `get?_runCalibration`: the run writes what the plain computation gives for
  each snapshot on any table with the same rows before the day. Neither the caches nor the writes
  of the run, nor any row of the day itself, make a difference;
* `runCalibration_twice`: a second run of the day changes nothing;
* `ivPercentile_eq_some_iff`, `gearingPercentile_eq_some_iff`: a percentile is written exactly when
  there are twenty earlier days with a value, and for the volatility each day counts once;
* `percentile_mono`, `percentile_mem`: a percentile grows with its value, from zero to one.

## Honest scope

`Decimal` is exact rational. Of the columns there are those of a snapshot that other functions
read, the volatility and the percentiles. A database error ends the run, whose writes are rolled
back.
-/

namespace NiftyShield.Gamma

open NiftyShield.Lib

/-- A row of `gamma_chain_snapshots` with the columns of the calibration. -/
structure CalibratedRow extends GammaChainSnapshot where
  /-- `iv_val`. -/
  ivVal : Option ℚ
  /-- `strike_iv_pctile_20d`. -/
  strikeIvPctile20d : Option ℚ
  /-- `gamma_gearing_pctile_dte`. -/
  gammaGearingPctileDte : Option ℚ
  deriving DecidableEq

/-- The key of a row. -/
def CalibratedRow.key (r : CalibratedRow) : Date × ℕ × Contract := (r.snapshotDate, r.snapshotTime, r.contract)

/-- The row without its percentiles. -/
def CalibratedRow.bare (r : CalibratedRow) : CalibratedRow :=
  { r with strikeIvPctile20d := none, gammaGearingPctileDte := none }

/-- The row with new percentiles; what is `none` stays. -/
def CalibratedRow.ranked (ivPctile gearingPctile : Option ℚ) (r : CalibratedRow) : CalibratedRow :=
  { r with
    strikeIvPctile20d := ivPctile.or r.strikeIvPctile20d
    gammaGearingPctileDte := gearingPctile.or r.gammaGearingPctileDte }

/-- `gamma_chain_snapshots`, by snapshot date, snapshot time and option. -/
abbrev CalibrationTable := Dict (Date × ℕ × Contract) CalibratedRow

/-- `_MIN_HISTORY_DAYS`. -/
def minHistoryDays : ℕ := 20

/-- `_GEARING_WINDOW_DAYS`. -/
def gearingWindowDays : ℕ := 60

/-- The distinct dates of some rows, the latest first. -/
def datesOf (rows : List CalibratedRow) : List Date := historyDates (rows.map (·.toGammaChainSnapshot))

/-! ### What is read -/

/-- The rows of a strike and type that have a volatility. -/
def hasIv (strike : ℤ) (optionType : OptionType) (r : CalibratedRow) : Bool :=
  r.contract.strike = strike && r.contract.optionType = optionType && r.ivVal.isSome

/-- The rows of a time to expiry that have a gearing. -/
def hasGearing (dte : ℤ) (r : CalibratedRow) : Bool := r.dteCalendar = dte && r.gammaGearing.isSome

/-- `ORDER BY snapshot_time DESC, expiry_date ASC`. -/
def ivOrder (r r' : CalibratedRow) : Prop :=
  r'.snapshotTime < r.snapshotTime ∨
    r'.snapshotTime = r.snapshotTime ∧ r.contract.expiryDate ≤ r'.contract.expiryDate

instance : DecidableRel ivOrder := fun _ _ => inferInstanceAs (Decidable (_ ∨ _))

/-- The volatility of the row that a day ranks first. -/
def ivOfDay (rows : List CalibratedRow) (day : Date) : Option ℚ :=
  ((rows.filter fun r => r.snapshotDate = day).insertionSort ivOrder).head?.bind (·.ivVal)

/-- `ORDER BY snapshot_date DESC, snapshot_time DESC`. -/
def gearingOrder (r r' : CalibratedRow) : Prop :=
  SnapshotTable.notBefore r.toGammaChainSnapshot r'.toGammaChainSnapshot

instance : DecidableRel gearingOrder := fun _ _ => inferInstanceAs (Decidable (SnapshotTable.notBefore _ _))

/-- The gearings of the latest days of some rows. -/
def gearingsOf (rows : List CalibratedRow) (limitDays : ℕ) : List ℚ :=
  ((rows.filter fun r => r.snapshotDate ∈ (datesOf rows).take limitDays).insertionSort gearingOrder).filterMap
    (·.gammaGearing)

namespace CalibrationTable

variable (T : CalibrationTable)

/-- The rows before a day. -/
def prior (today : Date) : List CalibratedRow := T.values.filter fun r => r.snapshotDate < today

/-- `get_iv_history` before a day: one value of each of the latest days, the oldest first. -/
def getIvHistory (strike : ℤ) (optionType : OptionType) (limitDays : ℕ) (before : Date) : List ℚ :=
  let rows := (prior T before).filter (hasIv strike optionType)
  (((datesOf rows).take limitDays).filterMap (ivOfDay rows)).reverse

/-- `count_prior_gearing_days`. -/
def countPriorGearingDays (dte : ℤ) (before : Date) : ℕ :=
  (datesOf ((prior T before).filter (hasGearing dte))).length

/-- `get_gearing_by_dte`. -/
def getGearingByDte (dte : ℤ) (limitDays : ℕ) (before : Date) : List ℚ :=
  gearingsOf ((prior T before).filter (hasGearing dte)) limitDays

/-- `update_percentiles`. -/
def updatePercentiles (key : Date × ℕ × Contract) (ivPctile gearingPctile : Option ℚ) : CalibrationTable :=
  match T.get? key with
  | none => T
  | some r => T.set key (r.ranked ivPctile gearingPctile)

end CalibrationTable

/-! ### The run -/

/-- `bisect_right` in a sorted list. -/
def bisectRight (sorted : List ℚ) (x : ℚ) : ℕ := (sorted.takeWhile (· ≤ x)).length

/-- `quantize(Decimal("0.0001"))`. -/
def quantizePctile (q : ℚ) : ℚ := roundHalfEven (q * 10000) / 10000

/-- `_percentile`. -/
def percentile (value : ℚ) (history : List ℚ) : ℚ :=
  quantizePctile (bisectRight (history.insertionSort (· ≤ ·)) value / history.length)

/-- The two caches. -/
structure Caches where
  /-- `iv_cache`. -/
  iv : Dict (ℤ × OptionType) (List ℚ)
  /-- `gearing_cache`; `none` where the days are too few. -/
  gearing : Dict ℤ (Option (List ℚ))

/-- What `iv_cache` holds of a table. -/
def ivHistoryOf (T : CalibrationTable) (today : Date) (key : ℤ × OptionType) : List ℚ :=
  CalibrationTable.getIvHistory T key.1 key.2 minHistoryDays today

/-- What `gearing_cache` holds of a table. -/
def gearingBucketOf (T : CalibrationTable) (today : Date) (dte : ℤ) : Option (List ℚ) :=
  if CalibrationTable.countPriorGearingDays T dte today < minHistoryDays then none
  else some (CalibrationTable.getGearingByDte T dte gearingWindowDays today)

/-- The rank of a volatility in its history. -/
def rankIv (history : List ℚ) (iv : ℚ) : Option ℚ :=
  if minHistoryDays ≤ history.length then some (percentile iv history) else none

/-- The rank of a gearing in its bucket, unless that is missing or empty. -/
def rankGearing (bucket : Option (List ℚ)) (gearing : ℚ) : Option ℚ :=
  bucket.bind fun history => if history.isEmpty then none else some (percentile gearing history)

/-- `_calibrate_snap`. -/
def calibrateSnap (T : CalibrationTable) (today : Date) (caches : Caches) (snap : CalibratedRow) :
    (Option ℚ × Option ℚ) × Caches :=
  let (ivPct, iv) :=
    match snap.ivVal with
    | none => (none, caches.iv)
    | some value =>
      let (history, iv) := Cache.read (ivHistoryOf T today) caches.iv (snap.contract.strike, snap.contract.optionType)
      (rankIv history value, iv)
  let (gearingPct, gearing) :=
    match snap.gammaGearing with
    | none => (none, caches.gearing)
    | some value =>
      let (bucket, gearing) := Cache.read (gearingBucketOf T today) caches.gearing snap.dteCalendar
      (rankGearing bucket value, gearing)
  ((ivPct, gearingPct), ⟨iv, gearing⟩)

/-- The write for a snapshot, if there is anything to write. -/
def writePercentiles (T : CalibrationTable) (snap : CalibratedRow) (pcts : Option ℚ × Option ℚ) : CalibrationTable :=
  if pcts.1.isNone ∧ pcts.2.isNone then T else CalibrationTable.updatePercentiles T snap.key pcts.1 pcts.2

/-- One snapshot of the loop. -/
def calibrateNext (today : Date) (s : CalibrationTable × Caches) (snap : CalibratedRow) : CalibrationTable × Caches :=
  let (pcts, caches) := calibrateSnap s.1 today s.2 snap
  (writePercentiles s.1 snap pcts, caches)

/-- `_run_calibration`. -/
def runCalibration (T : CalibrationTable) (today : Date) (todaySnaps : List CalibratedRow) : CalibrationTable :=
  (todaySnaps.foldl (calibrateNext today) (T, ⟨Dict.empty, Dict.empty⟩)).1

/-! ### The plain computation -/

/-- The percentile of a snapshot's volatility on a table. -/
def ivPercentile (T : CalibrationTable) (today : Date) (snap : CalibratedRow) : Option ℚ :=
  snap.ivVal.bind (rankIv (ivHistoryOf T today (snap.contract.strike, snap.contract.optionType)))

/-- The percentile of its gearing. -/
def gearingPercentile (T : CalibrationTable) (today : Date) (snap : CalibratedRow) : Option ℚ :=
  snap.gammaGearing.bind (rankGearing (gearingBucketOf T today snap.dteCalendar))

/-! ### Rows before the day -/

/-- Two tables have the same rows before a day, but for the percentiles. -/
def SamePrior (today : Date) (T T' : CalibrationTable) : Prop :=
  (CalibrationTable.prior T today).map CalibratedRow.bare = (CalibrationTable.prior T' today).map CalibratedRow.bare

section Prior

variable {T T' : CalibrationTable} {today : Date}

/-- A selection of rows that does not look at the percentiles. -/
theorem filter_map_bare {p : CalibratedRow → Bool} (hp : ∀ r, p r.bare = p r) (rows : List CalibratedRow) :
    (rows.map CalibratedRow.bare).filter p = (rows.filter p).map CalibratedRow.bare := by
  rw [List.filter_map]
  exact congrArg _ (List.filter_congr fun r _ => hp r)

theorem datesOf_map_bare (rows : List CalibratedRow) : datesOf (rows.map CalibratedRow.bare) = datesOf rows := by
  rw [datesOf, List.map_map]
  rfl

theorem ivOfDay_map_bare (rows : List CalibratedRow) (day : Date) :
    ivOfDay (rows.map CalibratedRow.bare) day = ivOfDay rows day := by
  rw [ivOfDay, filter_map_bare (fun r => rfl), ← List.map_insertionSort ivOrder ivOrder CalibratedRow.bare _
    fun _ _ _ _ => Iff.rfl, List.head?_map, Option.bind_map, ivOfDay]
  rfl

theorem gearingsOf_map_bare (rows : List CalibratedRow) (limitDays : ℕ) :
    gearingsOf (rows.map CalibratedRow.bare) limitDays = gearingsOf rows limitDays := by
  rw [gearingsOf, datesOf_map_bare, filter_map_bare (fun r => rfl), ← List.map_insertionSort gearingOrder gearingOrder
    CalibratedRow.bare _ fun _ _ _ _ => Iff.rfl, List.filterMap_map, gearingsOf]
  rfl

/-- The volatilities read depend on the rows before the day only. -/
theorem ivHistoryOf_congr (h : SamePrior today T T') (key : ℤ × OptionType) :
    ivHistoryOf T today key = ivHistoryOf T' today key := by
  have hrows : ∀ T : CalibrationTable, ivHistoryOf T today key =
      (((datesOf (((CalibrationTable.prior T today).map CalibratedRow.bare).filter (hasIv key.1 key.2))).take
        minHistoryDays).filterMap
          (ivOfDay (((CalibrationTable.prior T today).map CalibratedRow.bare).filter (hasIv key.1 key.2)))).reverse := by
    intro T
    rw [filter_map_bare fun r => rfl, datesOf_map_bare, funext (ivOfDay_map_bare _)]
    rfl
  rw [hrows T, hrows T', h]

/-- So do the gearings. -/
theorem gearingBucketOf_congr (h : SamePrior today T T') (dte : ℤ) :
    gearingBucketOf T today dte = gearingBucketOf T' today dte := by
  have hcount : ∀ T : CalibrationTable, CalibrationTable.countPriorGearingDays T dte today =
      (datesOf (((CalibrationTable.prior T today).map CalibratedRow.bare).filter (hasGearing dte))).length := by
    intro T
    rw [filter_map_bare fun r => rfl, datesOf_map_bare]
    rfl
  have hvalues : ∀ T : CalibrationTable, CalibrationTable.getGearingByDte T dte gearingWindowDays today =
      gearingsOf (((CalibrationTable.prior T today).map CalibratedRow.bare).filter (hasGearing dte)) gearingWindowDays := by
    intro T
    rw [filter_map_bare fun r => rfl, gearingsOf_map_bare]
    rfl
  rw [gearingBucketOf, gearingBucketOf, hcount, hcount, hvalues, hvalues, h]

/-- Writing percentiles changes no other column. -/
theorem samePrior_updatePercentiles (T : CalibrationTable) (today : Date) (key : Date × ℕ × Contract)
    (ivPctile gearingPctile : Option ℚ) : SamePrior today (CalibrationTable.updatePercentiles T key ivPctile gearingPctile) T := by
  have hread : ∀ T : CalibrationTable, (CalibrationTable.prior T today).map CalibratedRow.bare =
      T.values.filterMap fun r => if r.snapshotDate < today then some r.bare else none := by
    intro T
    rw [CalibrationTable.prior, ← List.filterMap_eq_map, List.filterMap_filter]
    exact List.filterMap_congr fun r _ => by by_cases hr : r.snapshotDate < today <;> simp [hr]
  unfold CalibrationTable.updatePercentiles
  split
  · rfl
  next r hr =>
    rw [SamePrior, hread, hread, Dict.filterMap_values_set hr]
    rfl

theorem SamePrior.refl (T : CalibrationTable) : SamePrior today T T := rfl

theorem SamePrior.trans {T'' : CalibrationTable} (h : SamePrior today T T') (h' : SamePrior today T' T'') :
    SamePrior today T T'' := Eq.trans h h'

theorem samePrior_writePercentiles (T : CalibrationTable) (today : Date) (snap : CalibratedRow)
    (pcts : Option ℚ × Option ℚ) : SamePrior today (writePercentiles T snap pcts) T := by
  unfold writePercentiles
  split
  · rfl
  · exact samePrior_updatePercentiles T today _ _ _

end Prior

/-! ### The run and the plain computation -/

section Run

variable {T T' : CalibrationTable} {today : Date}

/-- The caches hold what is read of a table. -/
structure Caches.Agree (T : CalibrationTable) (today : Date) (caches : Caches) : Prop where
  /-- The volatilities. -/
  iv : Cache.Agrees (ivHistoryOf T today) caches.iv
  /-- The gearings. -/
  gearing : Cache.Agrees (gearingBucketOf T today) caches.gearing

/-- One snapshot gets its plain percentiles, and the caches go on agreeing. -/
theorem calibrateSnap_eq (h : SamePrior today T T') {caches : Caches} (hcaches : caches.Agree T' today) (snap : CalibratedRow) :
    (calibrateSnap T today caches snap).1 = (ivPercentile T' today snap, gearingPercentile T' today snap) ∧
      (calibrateSnap T today caches snap).2.Agree T' today := by
  have hiv : ivHistoryOf T today = ivHistoryOf T' today := funext (ivHistoryOf_congr h)
  have hgearing : gearingBucketOf T today = gearingBucketOf T' today := funext (gearingBucketOf_congr h)
  unfold calibrateSnap ivPercentile gearingPercentile
  rw [hiv, hgearing]
  cases snap.ivVal <;> cases snap.gammaGearing <;>
    simp only [Cache.read_fst hcaches.iv, Cache.read_fst hcaches.gearing, Option.bind_some, Option.bind_none, true_and]
  · exact hcaches
  · exact ⟨hcaches.iv, Cache.agrees_read hcaches.gearing _⟩
  · exact ⟨Cache.agrees_read hcaches.iv _, hcaches.gearing⟩
  · exact ⟨Cache.agrees_read hcaches.iv _, Cache.agrees_read hcaches.gearing _⟩

/-- **The run is the plain computation** on any table with the same rows before the day. -/
theorem runCalibration_eq (h : SamePrior today T T') (todaySnaps : List CalibratedRow) :
    runCalibration T today todaySnaps = todaySnaps.foldl
      (fun T snap => writePercentiles T snap (ivPercentile T' today snap, gearingPercentile T' today snap)) T := by
  have hrun : ∀ (snaps : List CalibratedRow) (T : CalibrationTable) (caches : Caches), SamePrior today T T' →
      caches.Agree T' today → (snaps.foldl (calibrateNext today) (T, caches)).1 = snaps.foldl
        (fun T snap => writePercentiles T snap (ivPercentile T' today snap, gearingPercentile T' today snap)) T := by
    intro snaps
    induction snaps with
    | nil => exact fun _ _ _ _ => rfl
    | cons snap snaps ih =>
      intro T caches hprior hcaches
      obtain ⟨hpcts, hagree⟩ := calibrateSnap_eq hprior hcaches snap
      rw [List.foldl_cons, List.foldl_cons, ← hpcts]
      exact ih _ _ ((samePrior_writePercentiles T today snap _).trans hprior) hagree
  exact hrun todaySnaps T _ h ⟨Cache.agrees_empty _, Cache.agrees_empty _⟩

theorem get?_updatePercentiles (T : CalibrationTable) (written key : Date × ℕ × Contract) (ivPctile gearingPctile : Option ℚ) :
    (CalibrationTable.updatePercentiles T written ivPctile gearingPctile).get? key =
      if written = key then (T.get? key).map (CalibratedRow.ranked ivPctile gearingPctile) else T.get? key := by
  unfold CalibrationTable.updatePercentiles
  split
  next hnone =>
    split
    next h => rw [← h, hnone, Option.map_none]
    · rfl
  next r hr =>
    rw [Dict.get?_set]
    by_cases h : written = key
    · rw [if_pos h.symm, if_pos h, ← h, hr, Option.map_some]
    · rw [if_neg (Ne.symm h), if_neg h]

theorem get?_writePercentiles (T : CalibrationTable) (snap : CalibratedRow) (pcts : Option ℚ × Option ℚ)
    (key : Date × ℕ × Contract) : (writePercentiles T snap pcts).get? key =
      if snap.key = key then (T.get? key).map (CalibratedRow.ranked pcts.1 pcts.2) else T.get? key := by
  unfold writePercentiles
  split
  next h =>
    -- Nothing is written where the write would change nothing.
    have hsame : CalibratedRow.ranked pcts.1 pcts.2 = id := by
      rw [Option.isNone_iff_eq_none, Option.isNone_iff_eq_none] at h
      rw [h.1, h.2]
      rfl
    rw [hsame, Option.map_id, id, ite_self]
  · exact get?_updatePercentiles T _ key _ _

/-- What writes of a day leave. -/
theorem get?_foldl_writePercentiles (pcts : CalibratedRow → Option ℚ × Option ℚ) (snaps : List CalibratedRow)
    (T : CalibrationTable) (key : Date × ℕ × Contract) :
    (snaps.foldl (fun T snap => writePercentiles T snap (pcts snap)) T).get? key = (T.get? key).map fun r =>
      (snaps.filter fun snap => snap.key = key).foldl (fun r snap => r.ranked (pcts snap).1 (pcts snap).2) r := by
  induction snaps generalizing T with
  | nil => simp
  | cons snap snaps ih =>
    rw [List.foldl_cons, ih, get?_writePercentiles]
    by_cases hkey : snap.key = key
    · rw [if_pos hkey, List.filter_cons_of_pos (by simpa using hkey), Option.map_map]
      rfl
    · rw [if_neg hkey, List.filter_cons_of_neg (by simpa using hkey)]

/-- **What a run leaves**: each row with the percentiles that its snapshots get on any table with the
same rows before the day, the last of them where a row is captured twice. -/
theorem get?_runCalibration (h : SamePrior today T T') (todaySnaps : List CalibratedRow) (key : Date × ℕ × Contract) :
    (runCalibration T today todaySnaps).get? key = (T.get? key).map fun r =>
      (todaySnaps.filter fun snap => snap.key = key).foldl
        (fun r snap => r.ranked (ivPercentile T' today snap) (gearingPercentile T' today snap)) r := by
  rw [runCalibration_eq h]
  exact get?_foldl_writePercentiles (fun snap => (ivPercentile T' today snap, gearingPercentile T' today snap)) _ T key

/-- A row of one put. -/
def putRow (day : Date) (iv : ℚ) : CalibratedRow where
  snapshotDate := day
  snapshotTime := 930
  contract := ⟨60, 24000, .pe⟩
  dteCalendar := 60 - day
  niftySpot := 25000
  gammaVal := none
  gammaGearing := none
  distancePct := none
  bestBid := none
  bestAsk := none
  bidAskSpread := none
  oi := none
  oiChange1d := none
  ivVal := some iv
  strikeIvPctile20d := none
  gammaGearingPctileDte := none

/-- Its rows of the first days. -/
def putRows (days : ℕ) : CalibrationTable :=
  (List.range days).foldl (fun T day => T.set (putRow day day).key (putRow day day)) Dict.empty

/-- The day's own row is not in the history that the day is ranked against. -/
theorem get?_runCalibration_putRows :
    (runCalibration ((putRows 20).set (putRow 20 15).key (putRow 20 15)) 20 [putRow 20 15]).get? (putRow 20 15).key =
      some ((putRow 20 15).ranked (some (4 / 5)) none) := by
  have hprior : SamePrior 20 ((putRows 20).set (putRow 20 15).key (putRow 20 15)) (putRows 20) := by
    unfold SamePrior
    decide +kernel
  rw [get?_runCalibration hprior]
  decide +kernel

/-- A run changes nothing that later runs read. -/
theorem samePrior_runCalibration (T : CalibrationTable) (today : Date) (todaySnaps : List CalibratedRow) :
    SamePrior today (runCalibration T today todaySnaps) T := by
  rw [runCalibration_eq (SamePrior.refl T)]
  generalize hpcts : (fun snap => (ivPercentile T today snap, gearingPercentile T today snap)) = pcts
  have hfold : ∀ (snaps : List CalibratedRow) (U : CalibrationTable), SamePrior today U T →
      SamePrior today (snaps.foldl (fun U snap => writePercentiles U snap (pcts snap)) U) T := by
    intro snaps
    induction snaps with
    | nil => exact fun _ hU => hU
    | cons snap snaps ih => exact fun U hU => ih _ ((samePrior_writePercentiles U today snap _).trans hU)
  rw [← hpcts] at hfold
  exact hfold todaySnaps T (SamePrior.refl T)

/-- What the writes of a row come to. -/
theorem foldl_ranked (pcts : CalibratedRow → Option ℚ × Option ℚ) (snaps : List CalibratedRow) (r : CalibratedRow) :
    snaps.foldl (fun r snap => r.ranked (pcts snap).1 (pcts snap).2) r =
      r.ranked (snaps.reverse.findSome? fun snap => (pcts snap).1) (snaps.reverse.findSome? fun snap => (pcts snap).2) := by
  induction snaps generalizing r with
  | nil => rfl
  | cons snap snaps ih =>
    rw [List.foldl_cons, ih, List.reverse_cons, List.findSome?_append, List.findSome?_append]
    simp only [List.findSome?_singleton, CalibratedRow.ranked, Option.or_assoc]

theorem ranked_ranked (ivPctile gearingPctile : Option ℚ) (r : CalibratedRow) :
    (r.ranked ivPctile gearingPctile).ranked ivPctile gearingPctile = r.ranked ivPctile gearingPctile := by
  cases ivPctile <;> cases gearingPctile <;> rfl

/-- **A second run of the day changes nothing.** -/
theorem runCalibration_twice (T : CalibrationTable) (today : Date) (todaySnaps : List CalibratedRow)
    (key : Date × ℕ × Contract) :
    (runCalibration (runCalibration T today todaySnaps) today todaySnaps).get? key =
      (runCalibration T today todaySnaps).get? key := by
  let pcts := fun snap => (ivPercentile T today snap, gearingPercentile T today snap)
  have hwrites := get?_foldl_writePercentiles pcts todaySnaps
  have hranked := foldl_ranked pcts (todaySnaps.filter fun snap => snap.key = key)
  rw [runCalibration_eq (samePrior_runCalibration T today todaySnaps), runCalibration_eq (SamePrior.refl T), hwrites,
    hwrites, Option.map_map]
  refine congrArg (Option.map · (T.get? key)) (funext fun r => ?_)
  rw [Function.comp_apply, hranked, hranked, ranked_ranked]

end Run

/-! ### When a percentile is written -/

section Written

variable {T : CalibrationTable} {today : Date} {snap : CalibratedRow} {p : ℚ}

theorem mem_datesOf {rows : List CalibratedRow} {day : Date} : day ∈ datesOf rows ↔ ∃ r ∈ rows, r.snapshotDate = day := by
  rw [datesOf, historyDates, List.mem_insertionSort, List.mem_dedup, List.map_map, List.mem_map]
  rfl

/-- A day with a row that has a volatility gives one. -/
theorem ivOfDay_isSome {rows : List CalibratedRow} (hrows : ∀ r ∈ rows, r.ivVal.isSome = true) {day : Date}
    (h : day ∈ datesOf rows) : (ivOfDay rows day).isSome = true := by
  obtain ⟨r, hr, hday⟩ := mem_datesOf.mp h
  unfold ivOfDay
  cases hsort : (rows.filter fun r => r.snapshotDate = day).insertionSort ivOrder with
  | nil =>
    have hmem : r ∈ (rows.filter fun r => r.snapshotDate = day).insertionSort ivOrder :=
      (List.mem_insertionSort _).mpr (List.mem_filter.mpr ⟨hr, decide_eq_true hday⟩)
    rw [hsort] at hmem
    exact absurd hmem (by simp)
  | cons first rest =>
    have hmem : first ∈ (rows.filter fun r => r.snapshotDate = day).insertionSort ivOrder := by
      rw [hsort]
      exact List.mem_cons_self
    exact hrows first (List.mem_filter.mp ((List.mem_insertionSort _).mp hmem)).1

/-- **The volatilities read**: one for each of the latest days that have one. -/
theorem length_ivHistoryOf (T : CalibrationTable) (today : Date) (key : ℤ × OptionType) :
    (ivHistoryOf T today key).length =
      min minHistoryDays (datesOf ((CalibrationTable.prior T today).filter (hasIv key.1 key.2))).length := by
  rw [ivHistoryOf, CalibrationTable.getIvHistory, List.length_reverse, ← List.length_take,
    List.length_filterMap_eq_countP, List.countP_eq_length]
  intro day hday
  refine ivOfDay_isSome (fun r hr => ?_) (List.mem_of_mem_take hday)
  have := (List.mem_filter.mp hr).2
  simp only [hasIv, Bool.and_eq_true] at this
  exact this.2

/-- **A volatility gets a percentile** exactly with twenty earlier days that have one. -/
theorem ivPercentile_eq_some_iff : ivPercentile T today snap = some p ↔
    minHistoryDays ≤ (datesOf ((CalibrationTable.prior T today).filter
      (hasIv snap.contract.strike snap.contract.optionType))).length ∧
      ∃ value ∈ snap.ivVal, p = percentile value (ivHistoryOf T today (snap.contract.strike, snap.contract.optionType)) := by
  have hdays : minHistoryDays ≤ (ivHistoryOf T today (snap.contract.strike, snap.contract.optionType)).length ↔
      minHistoryDays ≤ (datesOf ((CalibrationTable.prior T today).filter
        (hasIv snap.contract.strike snap.contract.optionType))).length := by
    rw [length_ivHistoryOf, le_min_iff]
    exact and_iff_right le_rfl
  rw [ivPercentile, Option.bind_eq_some_iff, ← hdays]
  simp only [rankIv, Option.ite_none_right_eq_some, Option.some.injEq, Option.mem_def]
  constructor
  · rintro ⟨value, hvalue, hlen, rfl⟩
    exact ⟨hlen, value, hvalue, rfl⟩
  · rintro ⟨hlen, value, hvalue, rfl⟩
    exact ⟨value, hvalue, hlen, rfl⟩

/-- A bucket of some days is not empty. -/
theorem getGearingByDte_ne_nil {dte : ℤ} (h : minHistoryDays ≤ CalibrationTable.countPriorGearingDays T dte today) :
    CalibrationTable.getGearingByDte T dte gearingWindowDays today ≠ [] := by
  rw [CalibrationTable.countPriorGearingDays] at h
  rw [CalibrationTable.getGearingByDte]
  generalize hrows : (CalibrationTable.prior T today).filter (hasGearing dte) = rows at h
  obtain ⟨day, hday⟩ : ∃ day, day ∈ (datesOf rows).take gearingWindowDays := by
    cases hdates : datesOf rows with
    | nil => exact absurd h (by simp [hdates, minHistoryDays])
    | cons day days => exact ⟨day, List.mem_cons_self⟩
  obtain ⟨r, hr, rfl⟩ := mem_datesOf.mp (List.mem_of_mem_take hday)
  have hgearing : hasGearing dte r = true := (List.mem_filter.mp (hrows ▸ hr)).2
  simp only [hasGearing, Bool.and_eq_true] at hgearing
  obtain ⟨value, hvalue⟩ := Option.isSome_iff_exists.mp hgearing.2
  refine List.ne_nil_of_mem (a := value) (List.mem_filterMap.mpr ⟨r, (List.mem_insertionSort _).mpr ?_, hvalue⟩)
  exact List.mem_filter.mpr ⟨hr, decide_eq_true hday⟩

/-- **A gearing gets a percentile** exactly with twenty earlier days of its time to expiry that have
one. -/
theorem gearingPercentile_eq_some_iff : gearingPercentile T today snap = some p ↔
    minHistoryDays ≤ CalibrationTable.countPriorGearingDays T snap.dteCalendar today ∧
      ∃ value ∈ snap.gammaGearing,
        p = percentile value (CalibrationTable.getGearingByDte T snap.dteCalendar gearingWindowDays today) := by
  rw [gearingPercentile, gearingBucketOf, Option.bind_eq_some_iff]
  simp only [rankGearing, Option.mem_def]
  by_cases hdays : CalibrationTable.countPriorGearingDays T snap.dteCalendar today < minHistoryDays
  · rw [if_pos hdays]
    simp [not_le.mpr hdays]
  · have hne := getGearingByDte_ne_nil (not_lt.mp hdays)
    rw [if_neg hdays]
    simp only [Option.bind_some, List.isEmpty_iff, hne, if_false, Option.some.injEq]
    constructor
    · rintro ⟨value, hvalue, rfl⟩
      exact ⟨not_lt.mp hdays, value, hvalue, rfl⟩
    · rintro ⟨-, value, hvalue, rfl⟩
      exact ⟨value, hvalue, rfl⟩

end Written

/-! ### Percentiles -/

/-- In a sorted list the first values up to a bound are all of them. -/
theorem bisectRight_eq_countP {x : ℚ} : ∀ {l : List ℚ}, l.Pairwise (· ≤ ·) → bisectRight l x = l.countP (· ≤ x)
  | [], _ => rfl
  | y :: l, h => by
    obtain ⟨hy, hl⟩ := List.pairwise_cons.mp h
    have ih := bisectRight_eq_countP (x := x) hl
    unfold bisectRight at ih ⊢
    by_cases hxy : y ≤ x
    · rw [List.takeWhile_cons_of_pos (by simpa using hxy), List.countP_cons_of_pos (by simpa using hxy),
        List.length_cons, ih]
    · have hnone : l.countP (· ≤ x) = 0 := List.countP_eq_zero.mpr fun z hz => by
        simpa using lt_of_lt_of_le (not_le.mp hxy) (hy z hz)
      rw [List.takeWhile_cons_of_neg (by simpa using hxy), List.countP_cons_of_neg (by simpa using hxy), hnone,
        List.length_nil]

/-- **The percentile** is the share of the history up to the value. -/
theorem percentile_eq (value : ℚ) (history : List ℚ) :
    percentile value history = quantizePctile (history.countP (· ≤ value) / history.length) := by
  rw [percentile, bisectRight_eq_countP (List.pairwise_insertionSort _ _),
    (List.perm_insertionSort (· ≤ ·) history).countP_eq]

theorem quantizePctile_mono {p q : ℚ} (h : p ≤ q) : quantizePctile p ≤ quantizePctile q := by
  have hround : roundHalfEven (p * 10000) ≤ roundHalfEven (q * 10000) := roundHalfEven_mono (by linarith)
  unfold quantizePctile
  gcongr

/-- A higher value has no lower percentile. -/
theorem percentile_mono {v w : ℚ} (h : v ≤ w) (history : List ℚ) : percentile v history ≤ percentile w history := by
  rw [percentile_eq, percentile_eq]
  refine quantizePctile_mono ?_
  have hcount : history.countP (· ≤ v) ≤ history.countP (· ≤ w) :=
    List.countP_mono_left fun x _ hx => by simpa using (of_decide_eq_true hx).trans h
  gcongr

/-- Percentiles are from zero to one. -/
theorem percentile_mem (value : ℚ) (history : List ℚ) : 0 ≤ percentile value history ∧ percentile value history ≤ 1 := by
  rw [percentile_eq]
  have hshare : (history.countP (· ≤ value) / history.length : ℚ) ≤ 1 :=
    div_le_one_of_le₀ (by exact_mod_cast List.countP_le_length) (by positivity)
  have hone : quantizePctile 1 = 1 := by
    rw [quantizePctile, one_mul, show roundHalfEven 10000 = 10000 by decide +kernel]
    norm_num
  have hzero : quantizePctile 0 = 0 := by
    rw [quantizePctile, zero_mul, show roundHalfEven 0 = 0 by decide +kernel]
    norm_num
  exact ⟨hzero ▸ quantizePctile_mono (by positivity), hone ▸ quantizePctile_mono hshare⟩

end NiftyShield.Gamma
