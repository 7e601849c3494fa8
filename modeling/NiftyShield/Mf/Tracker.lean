import NiftyShield.Lib.Rounding
import NiftyShield.Mf.Store
import Mathlib.Algebra.BigOperators.Group.List.Basic

/-!
# The daily mutual fund snapshot

`MFTracker.record_snapshot` (`src/mf/tracker.py`) writes the fetched NAV of every scheme held
under the day of the run and values the schemes; `_compute_prev_mf_pnl`
(`src/portfolio/summary.py`) values the present holdings at the NAVs of an earlier day.

## What is proved

* `recordSnapshot_spec`: the run leaves the transactions and the NAVs of earlier days, and which
  days have a NAV after it;
* `raises_iff`: when it raises;
* `prev_value_eq`: what the holdings are worth at the NAVs of the last recorded day before a day.
-/

namespace NiftyShield.Mf

open NiftyShield.Lib

/-! ### P&L -/

/-- `SchemePnL`. -/
structure SchemePnL where
  /-- AMFI scheme code. -/
  amfiCode : String
  /-- Name of the fund. -/
  schemeName : String
  /-- NAV it is valued at. -/
  currentNav : ℚ
  /-- Net units. -/
  totalUnits : ℚ
  /-- Net amount invested. -/
  totalInvested : ℚ
  /-- Units at the NAV, to the paisa. -/
  currentValue : ℚ
  /-- Value less investment. -/
  pnl : ℚ
  /-- In percent of the investment. -/
  pnlPct : ℚ
  deriving DecidableEq

/-- `PortfolioPnL`. -/
structure PortfolioPnL where
  /-- The day. -/
  snapshotDate : Date
  /-- The schemes. -/
  schemes : List SchemePnL
  /-- Sum of the investments. -/
  totalInvested : ℚ
  /-- Sum of the values. -/
  totalCurrentValue : ℚ
  /-- Value less investment. -/
  totalPnl : ℚ
  /-- In percent of the investment. -/
  totalPnlPct : ℚ
  deriving DecidableEq

/-- A gain in percent of what was invested. -/
private def pct (pnl invested : ℚ) : ℚ := if invested = 0 then 0 else quantizeHalfUp (pnl / invested * 100)

/-- `compute_scheme_pnl`. -/
def computeSchemePnl (holding : MfHolding) (nav : ℚ) : SchemePnL :=
  let currentValue := quantizeHalfUp (holding.totalUnits * nav)
  let pnl := currentValue - holding.totalInvested
  { amfiCode := holding.amfiCode
    schemeName := holding.schemeName
    currentNav := nav
    totalUnits := holding.totalUnits
    totalInvested := holding.totalInvested
    currentValue
    pnl
    pnlPct := pct pnl holding.totalInvested }

/-- `aggregate_mf_pnl`. -/
def aggregateMfPnl (snapshotDate : Date) (schemes : List SchemePnL) : PortfolioPnL :=
  let totalInvested := (schemes.map SchemePnL.totalInvested).sum
  let totalCurrentValue := (schemes.map SchemePnL.currentValue).sum
  let totalPnl := totalCurrentValue - totalInvested
  { snapshotDate, schemes, totalInvested, totalCurrentValue, totalPnl, totalPnlPct := pct totalPnl totalInvested }

/-- `_empty_portfolio`. -/
def emptyPortfolio (snapshotDate : Date) : PortfolioPnL := ⟨snapshotDate, [], 0, 0, 0, 0⟩

/-- `_compute_prev_mf_pnl`. -/
def computePrevMfPnl (prevNavSnaps : List MfNavSnapshot) (holdings : Dict String MfHolding) : Option PortfolioPnL :=
  match prevNavSnaps with
  | [] => none
  | first :: _ =>
    if holdings.entries = [] then none
    else
      let schemes := prevNavSnaps.filterMap fun s => (holdings.get? s.amfiCode).map fun h => computeSchemePnl h s.nav
      if schemes = [] then none else some (aggregateMfPnl first.snapshotDate schemes)

/-! ### The run -/

/-- The loop of `record_snapshot` over the holdings. It raises, by returning no schemes, at a NAV
the snapshot does not accept, and keeps what it has written. -/
def recordNavs (today : Date) (navs : Dict String ℚ) :
    List (String × MfHolding) → MfTables → MfTables × Option (List SchemePnL)
  | [], T => (T, some [])
  | (amfiCode, holding) :: hs, T =>
    match navs.get? amfiCode with
    | none => recordNavs today navs hs T
    | some nav =>
      if h : 0 < nav then
        let r := recordNavs today navs hs (T.upsertNavSnapshot ⟨today, amfiCode, holding.schemeName, nav, h⟩)
        (r.1, r.2.map (computeSchemePnl holding nav :: ·))
      else (T, none)

/-- `record_snapshot`, with the NAVs that `fetch_navs` returns for the scheme codes, if it does. -/
def recordSnapshot (fetchNavs : List String → Option (Dict String ℚ)) (today : Date) (T : MfTables) :
    MfTables × Option PortfolioPnL :=
  let holdings := T.getHoldings
  if holdings.entries = [] then (T, some (emptyPortfolio today))
  else
    match fetchNavs holdings.keys with
    | none => (T, none)
    | some navs =>
      let r := recordNavs today navs holdings.entries T
      (r.1, r.2.map (aggregateMfPnl today))

/-! ### What the run writes -/

/-- A holding whose fetched NAV is not positive. -/
def Refused (navs : Dict String ℚ) (e : String × MfHolding) : Prop := ∃ nav, navs.get? e.1 = some nav ∧ nav ≤ 0

/-- A holding with a NAV, ahead of the first that is not positive. -/
def Valued (navs : Dict String ℚ) : List (String × MfHolding) → Prop
  | [] => False
  | e :: hs => ¬Refused navs e ∧ ((navs.get? e.1).isSome = true ∨ Valued navs hs)

/-- The tables after a run on a day: new NAVs of that day only. -/
structure NavsWritten (today : Date) (T T' : MfTables) : Prop where
  /-- The transactions stay. -/
  transactions : T'.transactions = T.transactions
  /-- And the NAVs of earlier days. -/
  before : ∀ d ≤ today, T'.navs.before d = T.navs.before d

theorem NavsWritten.refl (today : Date) (T : MfTables) : NavsWritten today T T := ⟨rfl, fun _ _ => rfl⟩

theorem NavsWritten.trans {today : Date} {T T' T'' : MfTables} (h : NavsWritten today T T') (h' : NavsWritten today T' T'') :
    NavsWritten today T T'' :=
  ⟨h'.transactions.trans h.transactions, fun d hd => (h'.before d hd).trans (h.before d hd)⟩

theorem NavsWritten.getHoldings {today : Date} {T T' : MfTables} (h : NavsWritten today T T') :
    T'.getHoldings = T.getHoldings := by
  simp only [MfTables.getHoldings, MfTables.getTransactions, h.transactions]

/-- There are NAVs of a day. -/
def MfTables.HasNavs (T : MfTables) (d : Date) : Prop := ∃ code row, T.navs.get? (code, d) = some row

theorem MfTables.hasNavs_upsertNavSnapshot (T : MfTables) (snap : MfNavSnapshot) :
    (T.upsertNavSnapshot snap).HasNavs snap.snapshotDate :=
  ⟨snap.amfiCode, _, by rw [MfTables.upsertNavSnapshot, Dict.get?_set, if_pos rfl]⟩

/-- **The loop**: what it writes, when there are NAVs of the day after it, and when it raises. -/
theorem recordNavs_spec (today : Date) (navs : Dict String ℚ) : ∀ (hs : List (String × MfHolding)) (T : MfTables),
    NavsWritten today T (recordNavs today navs hs T).1 ∧
      ((recordNavs today navs hs T).1.HasNavs today ↔ T.HasNavs today ∨ Valued navs hs) ∧
      ((recordNavs today navs hs T).2 = none ↔ ∃ e ∈ hs, Refused navs e)
  | [], T => ⟨.refl _ _, by simp [recordNavs, Valued], by simp [recordNavs]⟩
  | (amfiCode, holding) :: hs, T => by
    rw [recordNavs]
    cases hnav : navs.get? amfiCode with
    | none =>
      have hgood : ¬Refused navs (amfiCode, holding) := by simp [Refused, hnav]
      obtain ⟨hwritten, hrows, hraise⟩ := recordNavs_spec today navs hs T
      refine ⟨hwritten, ?_, ?_⟩
      · simpa [Valued, hgood, hnav] using hrows
      · simpa [hgood] using hraise
    | some nav =>
      by_cases hpos : 0 < nav
      · have hgood : ¬Refused navs (amfiCode, holding) := by simpa [Refused, hnav] using hpos
        let snap : MfNavSnapshot := ⟨today, amfiCode, holding.schemeName, nav, hpos⟩
        obtain ⟨hwritten, hrows, hraise⟩ := recordNavs_spec today navs hs (T.upsertNavSnapshot snap)
        have hfirst : NavsWritten today T (T.upsertNavSnapshot snap) :=
          ⟨rfl, fun d hd => T.before_upsertNavSnapshot hd⟩
        simp only [dif_pos hpos]
        refine ⟨hfirst.trans hwritten, ?_, ?_⟩
        · have hnow : Valued navs ((amfiCode, holding) :: hs) := ⟨hgood, .inl (by simp [hnav])⟩
          exact iff_of_true (hrows.mpr (.inl (T.hasNavs_upsertNavSnapshot snap))) (.inr hnow)
        · simpa [hgood] using hraise
      · have hbad : Refused navs (amfiCode, holding) := ⟨nav, hnav, not_lt.mp hpos⟩
        simp only [dif_neg hpos]
        exact ⟨.refl _ _, by simp [Valued, hbad], by simp [hbad]⟩

/-- The run raises: the NAVs cannot be fetched, or one of them is not positive. -/
def NavRunFails (fetchNavs : List String → Option (Dict String ℚ)) (T : MfTables) : Prop :=
  T.getHoldings.entries ≠ [] ∧ ∀ navs, fetchNavs T.getHoldings.keys = some navs → ∃ e ∈ T.getHoldings.entries, Refused navs e

/-- The run writes a NAV. -/
def NavRunWrites (fetchNavs : List String → Option (Dict String ℚ)) (T : MfTables) : Prop :=
  ∃ navs, fetchNavs T.getHoldings.keys = some navs ∧ Valued navs T.getHoldings.entries

/-- **The run**: what it leaves, when there are NAVs of the day after it, and when it raises. -/
theorem recordSnapshot_spec (fetchNavs : List String → Option (Dict String ℚ)) (today : Date) (T : MfTables) :
    NavsWritten today T (recordSnapshot fetchNavs today T).1 ∧
      ((recordSnapshot fetchNavs today T).1.HasNavs today ↔ T.HasNavs today ∨ NavRunWrites fetchNavs T) ∧
      ((recordSnapshot fetchNavs today T).2 = none ↔ NavRunFails fetchNavs T) := by
  simp only [recordSnapshot]
  by_cases hempty : T.getHoldings.entries = []
  · simp [hempty, NavsWritten.refl, NavRunWrites, NavRunFails, Valued]
  · simp only [if_neg hempty]
    cases hfetch : fetchNavs T.getHoldings.keys with
    | none => simp [hempty, hfetch, NavsWritten.refl, NavRunWrites, NavRunFails]
    | some navs =>
      obtain ⟨hwritten, hrows, hraise⟩ := recordNavs_spec today navs T.getHoldings.entries T
      refine ⟨hwritten, ?_, ?_⟩
      · simpa [NavRunWrites, hfetch] using hrows
      · simpa [NavRunFails, hempty, hfetch] using hraise

/-! ### The value on an earlier day -/

/-- What the holdings are worth at the NAVs of the last recorded day before a day, if a scheme held
has one. -/
def MfTables.worthBefore (T : MfTables) (d : Date) : Option ℚ :=
  let values := ((T.navs.before d).map fun (_, rows) => rows.entries.filterMap fun (code, row) =>
    (T.getHoldings.get? code).map fun h => quantizeHalfUp (h.totalUnits * row.nav)).getD []
  if values = [] then none else some values.sum

theorem NavsWritten.worthBefore {today d : Date} {T T' : MfTables} (h : NavsWritten today T T') (hd : d ≤ today) :
    T'.worthBefore d = T.worthBefore d := by
  rw [MfTables.worthBefore, h.getHoldings, h.before d hd, MfTables.worthBefore]

/-- Of `_compute_prev_mf_pnl` the value is the sum over the schemes held. -/
theorem value_computePrevMfPnl (snaps : List MfNavSnapshot) (holdings : Dict String MfHolding) :
    (computePrevMfPnl snaps holdings).map PortfolioPnL.totalCurrentValue =
      let values := snaps.filterMap fun s => (holdings.get? s.amfiCode).map fun h => quantizeHalfUp (h.totalUnits * s.nav)
      if values = [] then none else some values.sum := by
  have hvalues : (snaps.filterMap fun s => (holdings.get? s.amfiCode).map fun h => computeSchemePnl h s.nav).map
      SchemePnL.currentValue =
      snaps.filterMap fun s => (holdings.get? s.amfiCode).map fun h => quantizeHalfUp (h.totalUnits * s.nav) := by
    rw [List.map_filterMap]
    refine List.filterMap_congr fun s _ => ?_
    rw [Option.map_map]
    rfl
  cases snaps with
  | nil => simp [computePrevMfPnl]
  | cons s snaps =>
    rw [computePrevMfPnl]
    by_cases hempty : holdings.entries = []
    · have hnone : ∀ code, holdings.get? code = none := by
        intro code
        rw [Option.eq_none_iff_forall_not_mem]
        intro h hget
        have hmem := Dict.mem_entries_iff.mpr hget
        rw [hempty] at hmem
        exact List.not_mem_nil hmem
      simp [hempty, hnone]
    · rw [if_neg hempty, ← hvalues]
      simp only [List.map_eq_nil_iff]
      split
      · rfl
      · rfl

/-- **The previous value**: what the holdings are worth at the NAVs of the last recorded day. -/
theorem prev_value_eq (T : MfTables) (d : Date) :
    (computePrevMfPnl (T.getPrevNavSnapshots d) T.getHoldings).map PortfolioPnL.totalCurrentValue = T.worthBefore d := by
  rw [value_computePrevMfPnl, MfTables.worthBefore, MfTables.getPrevNavSnapshots]
  cases T.navs.before d with
  | none => rfl
  | some u =>
    obtain ⟨u, rows⟩ := u
    let value : String × NavRow → Option ℚ := fun e =>
      (T.getHoldings.get? e.1).map fun h => quantizeHalfUp (h.totalUnits * e.2.nav)
    have hperm : ((rows.entries.insertionSort fun e e' => e.1 ≤ e'.1).filterMap value).Perm
        (rows.entries.filterMap value) :=
      (List.perm_insertionSort _ rows.entries).filterMap value
    have hlist : (MfTables.snapshotsOf u rows).filterMap (fun s =>
        (T.getHoldings.get? s.amfiCode).map fun h => quantizeHalfUp (h.totalUnits * s.nav)) =
        (rows.entries.insertionSort fun e e' => e.1 ≤ e'.1).filterMap value := by
      rw [MfTables.snapshotsOf, List.filterMap_map]
      rfl
    simp only [Option.map_some, Option.getD_some, hlist]
    rw [hperm.sum_eq]
    by_cases hnil : rows.entries.filterMap value = []
    · have hnil' : (rows.entries.insertionSort fun e e' => e.1 ≤ e'.1).filterMap value = [] :=
        (hnil ▸ hperm).eq_nil
      rw [if_pos hnil']
      exact (if_pos hnil).symm
    · have hnil' : (rows.entries.insertionSort fun e e' => e.1 ≤ e'.1).filterMap value ≠ [] :=
        fun h => hnil (h ▸ hperm).symm.eq_nil
      rw [if_neg hnil']
      exact (if_neg hnil).symm

end NiftyShield.Mf
