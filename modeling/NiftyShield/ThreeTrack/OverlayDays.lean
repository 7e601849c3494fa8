import NiftyShield.Lib.Run
import NiftyShield.ThreeTrack.OverlayPnl
import Mathlib.Data.List.Flatten

/-!
# The overlay book from day to day

Each day the rows of the roles that can be priced are saved, and the groups that are reported
say what has changed since the last row of each of their roles
(`_save_overlay_leg_snapshots`, `_compute_overlay_pnl_snapshots`,
`scripts/strategies/three_track/paper_3track_snapshot.py`). A role can have a row and be in no
group that is reported; what has changed is then in its next row's past.

## What is proved

* `mem_reportedRoles`: the roles that are reported are those with a row that are not left out;
* `change_add_lost`: the rows of a day say what has changed in the book, but for the roles left
  out;
* `days_telescope_iff`: so the reported changes add up, after each day of a run, exactly when on
  no day something has changed in the roles left out.

## Honest scope

A day has any ledger and any prices, whatever they were the day before. Rows of other books and
a second run on one day are left out.
-/

namespace NiftyShield.ThreeTrack.OverlayDays

open NiftyShield.Instruments NiftyShield.Lib NiftyShield.Paper OverlayPnl

/-! ### A run of days -/

/-- What the snapshot of a day meets. -/
structure SnapshotDay where
  /-- The days without a snapshot since the last one. -/
  skipped : ℕ := 0
  /-- The ledger of the day. -/
  trades : PaperTrades
  /-- The prices of the day. -/
  prices : String → Option ℚ

/-- The rows of a book, and what has been reported of it. -/
structure BookDays (s : String) where
  /-- `paper_leg_snapshots`. -/
  rows : LegSnapshots
  /-- The day of the last snapshot. -/
  lastDay : Date
  /-- The sum of `pnl_1d_abs` over all rows of all days. -/
  reported : ℚ
  /-- No row of the book is newer. -/
  rows_le : ∀ role u row, rows.get? ((s, role), u) = some row → u ≤ lastDay

section Day

variable (lookup : Option InstrumentLookup) {s : String} (B : BookDays s) (ev : SnapshotDay)

/-- The day of the snapshot. -/
def BookDays.day : Date := B.lastDay + ev.skipped + 1

theorem BookDays.lastDay_lt_day : B.lastDay < B.day ev := Nat.lt_succ_of_le (Nat.le_add_right _ _)

/-- The totals of the day. -/
def BookDays.totals (_ : BookDays s) : List (String × PaperLegSnapshot) :=
  computeOverlayLegTotals ev.trades lookup s ev.prices

/-- The rows with those of the day. -/
def BookDays.saved : LegSnapshots := saveOverlayLegSnapshots s (B.totals lookup ev) (B.day ev) B.rows

/-- The sum of `pnl_1d_abs` over the rows of the day. -/
def BookDays.change : ℚ :=
  ((computeOverlayPnlSnapshots ev.trades lookup s (B.saved lookup ev) (B.day ev)).map (·.pnl1dAbs)).sum

variable {lookup B ev} in
/-- Saving keeps the days. -/
theorem rows_le_save {totals : List (String × PaperLegSnapshot)} (h : (totals.map Prod.fst).Nodup) (role : String)
    (u : Date) (row : PaperLegSnapshot)
    (hrow : (saveOverlayLegSnapshots s totals (B.day ev) B.rows).get? ((s, role), u) = some row) : u ≤ B.day ev := by
  rw [get?_save role u h] at hrow
  split at hrow
  next heq => exact heq.le
  next => exact (B.rows_le role u row hrow).trans (B.lastDay_lt_day ev).le

/-- The snapshot of a day. -/
def BookDays.next : BookDays s where
  rows := B.saved lookup ev
  lastDay := B.day ev
  reported := B.reported + B.change lookup ev
  rows_le := rows_le_save (nodup_totals ev.trades lookup s ev.prices)

end Day

/-- The total that was last saved of a role. -/
def lastTotal (L : LegSnapshots) (s role : String) : ℚ := totalOf ((Dated.latest L (s, role)).map Prod.snd)

/-- The overlay leg totals last saved. -/
def bookTotal (L : LegSnapshots) (s : String) : ℚ := (overlayRoles.map (lastTotal L s)).sum

/-- What has been reported since some day is what has changed since then. -/
def Telescopes {s : String} (start B : BookDays s) : Prop :=
  B.reported - start.reported = bookTotal B.rows s - bookTotal start.rows s

instance {s : String} (start B : BookDays s) : Decidable (Telescopes start B) := inferInstanceAs (Decidable (_ = _))

/-! ### The roles left out -/

section LeftOut

variable (lookup : Option InstrumentLookup) {s : String} (B : BookDays s) (ev : SnapshotDay)

/-- The roles with a row of the day. -/
def BookDays.present : List String := rolesOf (B.totals lookup ev)

/-- The role was open at its last row. -/
def BookDays.wasOpen (role : String) : Bool :=
  ((Dated.latest B.rows (s, role)).map Prod.snd).any fun row => row.netQty.any (· ≠ 0)

/-- A displaced short call, or a leg of a collar whose other leg was open and has no price. -/
def LeftOut (role : String) : Prop :=
  Displaced (B.present lookup ev) role ∨
    role ∈ collarRoles ∧ ∃ other ∈ collarRoles, other ∉ B.present lookup ev ∧ B.wasOpen other = true

instance (role : String) : Decidable (LeftOut lookup B ev role) := inferInstanceAs (Decidable (_ ∨ _ ∧ ∃ _ ∈ _, _))

/-- What has changed in the roles left out. -/
def BookDays.lost : ℚ :=
  (((B.present lookup ev).filter fun role => LeftOut lookup B ev role).map fun role =>
    totalOf ((B.totals lookup ev).lookup role) - lastTotal B.rows s role).sum

end LeftOut

/-! ### A day -/

section Day

variable {lookup : Option InstrumentLookup} {s : String} {B : BookDays s} {ev : SnapshotDay}

theorem nodup_dayTotals : ((B.totals lookup ev).map Prod.fst).Nodup := nodup_totals ev.trades lookup s ev.prices

/-- The row of the day is what was computed. -/
theorem getLegSnapshot_saved (role : String) :
    getLegSnapshot (B.saved lookup ev) s role (B.day ev) = (B.totals lookup ev).lookup role := by
  rw [BookDays.saved, getLegSnapshot_save role nodup_dayTotals]
  have hnone : getLegSnapshot B.rows s role (B.day ev) = none := by
    cases hrow : getLegSnapshot B.rows s role (B.day ev) with
    | none => rfl
    | some row => exact absurd (B.rows_le role _ row hrow) (not_le.mpr (B.lastDay_lt_day ev))
  rw [hnone, Option.or_none]

/-- The row before it is the last of the state before. -/
theorem getPrevLegSnapshot_saved (role : String) :
    getPrevLegSnapshot (B.saved lookup ev) s role (B.day ev) = (Dated.latest B.rows (s, role)).map Prod.snd := by
  rw [BookDays.saved, getPrevLegSnapshot_save role nodup_dayTotals, getPrevLegSnapshot, Dated.latestBefore_eq_latest fun u row hrow =>
    lt_of_le_of_lt (B.rows_le role u row hrow) (B.lastDay_lt_day ev)]

/-- The last row of a role, after a save. -/
theorem latest_saved (role : String) :
    Dated.latest (B.saved lookup ev) (s, role) =
      (((B.totals lookup ev).lookup role).map fun total => (B.day ev, total)).or (Dated.latest B.rows (s, role)) := by
  have hget : ∀ u, (B.saved lookup ev).get? ((s, role), u) =
      if u = B.day ev then ((B.totals lookup ev).lookup role).or (B.rows.get? ((s, role), u))
      else B.rows.get? ((s, role), u) := fun u => get?_save role u nodup_dayTotals
  cases htotal : (B.totals lookup ev).lookup role with
  | none =>
    show Dated.latest (B.saved lookup ev) (s, role) = Dated.latest B.rows (s, role)
    refine Dated.newest_congr fun u row => ?_
    rw [hget, htotal, Option.none_or, ite_self]
  | some total =>
    show Dated.latest (B.saved lookup ev) (s, role) = some (B.day ev, total)
    rw [Dated.latest, Dated.newest_eq_some_iff, hget, if_pos rfl, htotal]
    exact ⟨rfl, rfl, fun u row hrow _ => rows_le_save nodup_dayTotals role u row hrow⟩

theorem lastTotal_saved (role : String) :
    lastTotal (B.saved lookup ev) s role =
      match (B.totals lookup ev).lookup role with
      | some total => total.totalPnl
      | none => lastTotal B.rows s role := by
  rw [lastTotal, latest_saved]
  cases (B.totals lookup ev).lookup role <;> rfl

variable (lookup B ev) in
theorem mem_present (role : String) :
    role ∈ B.present lookup ev ↔ role ∈ overlayRoles ∧ ((B.totals lookup ev).lookup role).isSome = true := by
  rw [BookDays.present, rolesOf, List.mem_filter, decide_eq_true_iff, List.lookup_isSome_iff]
  refine and_congr_right fun _ => ?_
  rw [List.mem_map]
  exact exists_congr fun p => and_congr_right fun _ => by rw [beq_iff_eq, eq_comm]

theorem presentRoles_saved : presentRoles s (B.saved lookup ev) (B.day ev) = B.present lookup ev := by
  unfold presentRoles BookDays.present rolesOf
  refine List.filter_congr fun role hrole => ?_
  have hmem := mem_present lookup B ev role
  rw [BookDays.present, rolesOf, List.mem_filter, and_congr_right_iff] at hmem
  rw [getLegSnapshot_saved, Bool.eq_iff_iff, hmem hrole]

theorem isMissing_saved (role : String) :
    isMissing s (B.saved lookup ev) (B.day ev) role =
      (((B.totals lookup ev).lookup role).isNone && B.wasOpen role) := by
  rw [isMissing, getLegSnapshot_saved, getPrevLegSnapshot_saved, BookDays.wasOpen]

/-- The roles of a group are all of the collar, or none is. -/
theorem collar_of_group {present : List String} {group : String × List String}
    (hgroup : group ∈ (overlayTypeGroups present).entries) {role other : String} (hrole : role ∈ group.2)
    (hother : other ∈ group.2) : role ∈ collarRoles ↔ other ∈ collarRoles := by
  have hall : ∀ group ∈ (overlayTypeGroups present).entries, ∀ role ∈ group.2, ∀ other ∈ group.2,
      (role ∈ collarRoles ↔ other ∈ collarRoles) := by
    unfold overlayTypeGroups
    by_cases hcall : "overlay_collar_call" ∈ present <;> by_cases hput : "overlay_collar_put" ∈ present <;>
      by_cases hcc : "overlay_cc" ∈ present <;> by_cases hpp : "overlay_pp" ∈ present <;>
      simp only [hcall, hput, hcc, hpp, and_self, and_true, and_false, if_true, if_false] <;> decide
  exact hall group hgroup role hrole other hother

theorem mem_group_present {present : List String} {group : String × List String}
    (hgroup : group ∈ (overlayTypeGroups present).entries) {role : String} (hrole : role ∈ group.2) :
    role ∈ overlayRoles ∧ role ∈ present ∧ ¬Displaced present role := by
  have hgrouped : role ∈ groupedRoles present := by
    rw [← flatMap_entries]
    exact List.mem_flatMap.mpr ⟨group, hgroup, hrole⟩
  simpa using (groupedRoles_perm present).mem_iff.mp hgrouped

/-- A role that has a row is unpriced as a leg of a collar whose other leg is missing. -/
theorem isUnpriced_of_present {role : String} (hrole : role ∈ B.present lookup ev) :
    isUnpriced s (B.saved lookup ev) (B.day ev) role = true ↔
      role ∈ collarRoles ∧ ∃ other ∈ collarRoles, other ∉ B.present lookup ev ∧ B.wasOpen other = true := by
  have hmissing : isMissing s (B.saved lookup ev) (B.day ev) role = false := by
    rw [isMissing_saved, ← Option.not_isSome, ((mem_present lookup B ev role).mp hrole).2]
    rfl
  rw [isUnpriced, hmissing, Bool.false_or, Bool.and_eq_true, decide_eq_true_iff, List.any_eq_true]
  refine and_congr_right fun _ => exists_congr fun other => and_congr_right fun hother => ?_
  have hoverlay : other ∈ overlayRoles := by
    have hsub : ∀ r ∈ collarRoles, r ∈ overlayRoles := by decide
    exact hsub other hother
  have hrow : other ∉ B.present lookup ev ↔ ((B.totals lookup ev).lookup other).isNone = true := by
    rw [mem_present, and_iff_right hoverlay, ← Option.not_isSome, Bool.not_eq_true', Bool.not_eq_true]
  rw [isMissing_saved, Bool.and_eq_true, hrow]

/-- **The roles that are reported** are those with a row that are not left out. -/
theorem mem_reportedRoles {role : String} :
    role ∈ (reportedGroups s (B.saved lookup ev) (B.day ev)).flatMap Prod.snd ↔
      role ∈ B.present lookup ev ∧ ¬LeftOut lookup B ev role := by
  rw [reportedGroups, presentRoles_saved]
  constructor
  · intro h
    obtain ⟨group, hgroup, hrole⟩ := List.mem_flatMap.mp h
    obtain ⟨hmem, hpriced⟩ := List.mem_filter.mp hgroup
    obtain ⟨-, hpresent, hdisplaced⟩ := mem_group_present hmem hrole
    refine ⟨hpresent, fun hleft => hleft.elim hdisplaced fun hsibling => ?_⟩
    have hany : group.2.any (isUnpriced s (B.saved lookup ev) (B.day ev)) = true :=
      List.any_eq_true.mpr ⟨role, hrole, (isUnpriced_of_present hpresent).mpr hsibling⟩
    rw [hany] at hpriced
    exact absurd hpriced (by decide)
  · rintro ⟨hpresent, hleft⟩
    obtain ⟨hdisplaced, hsibling⟩ := not_or.mp hleft
    have hgrouped : role ∈ groupedRoles (B.present lookup ev) := by
      rw [(groupedRoles_perm _).mem_iff, List.mem_filter, decide_eq_true_iff]
      exact ⟨((mem_present lookup B ev role).mp hpresent).1, hpresent, hdisplaced⟩
    rw [← flatMap_entries] at hgrouped
    obtain ⟨group, hgroup, hrole⟩ := List.mem_flatMap.mp hgrouped
    refine List.mem_flatMap.mpr ⟨group, List.mem_filter.mpr ⟨hgroup, ?_⟩, hrole⟩
    rw [Bool.not_eq_true', List.any_eq_false]
    intro other hother hunpriced
    obtain ⟨hcollar, hmissing⟩ := (isUnpriced_of_present (mem_group_present hgroup hother).2.1).mp hunpriced
    exact hsibling ⟨(collar_of_group hgroup hrole hother).mpr hcollar, hmissing⟩

theorem nodup_reportedRoles : ((reportedGroups s (B.saved lookup ev) (B.day ev)).flatMap Prod.snd).Nodup := by
  have hsub : ((reportedGroups s (B.saved lookup ev) (B.day ev)).flatMap Prod.snd).Sublist
      (groupedRoles (B.present lookup ev)) := by
    rw [← flatMap_entries, reportedGroups, presentRoles_saved]
    exact List.filter_sublist.flatMap Prod.snd
  exact hsub.nodup ((groupedRoles_perm _).nodup_iff.mpr (nodup_overlayRoles.filter _))

/-- What a role has changed by. -/
def BookDays.moved (lookup : Option InstrumentLookup) (B : BookDays s) (ev : SnapshotDay) (role : String) : ℚ :=
  totalOf ((B.totals lookup ev).lookup role) - lastTotal B.rows s role

/-- The rows of the day say what has changed in their roles. -/
theorem change_eq_reported :
    B.change lookup ev =
      (((reportedGroups s (B.saved lookup ev) (B.day ev)).flatMap Prod.snd).map (B.moved lookup ev)).sum := by
  rw [← sum_flatMap_snd, BookDays.change, computeOverlayPnlSnapshots, List.map_map]
  congr 1
  refine List.map_congr_left fun group _ => ?_
  have hprev : (group.2.map fun role => totalOf (getPrevLegSnapshot (B.saved lookup ev) s role (B.day ev))) =
      group.2.map (lastTotal B.rows s) :=
    List.map_congr_left fun role _ => by rw [getPrevLegSnapshot_saved, lastTotal]
  have htoday : (group.2.map fun role => totalOf (getLegSnapshot (B.saved lookup ev) s role (B.day ev))) =
      group.2.map fun role => totalOf ((B.totals lookup ev).lookup role) :=
    List.map_congr_left fun role _ => by rw [getLegSnapshot_saved]
  have hmoved : (group.2.map (B.moved lookup ev)).sum =
      (group.2.map fun role => totalOf ((B.totals lookup ev).lookup role)).sum -
        (group.2.map (lastTotal B.rows s)).sum := by
    rw [eq_sub_iff_add_eq, ← List.sum_map_add]
    congr 1
    exact List.map_congr_left fun role _ => sub_add_cancel _ _
  simp only [Function.comp_apply, overlayRow, htoday, hprev, hmoved]
  split
  next hfirst =>
    -- no role of the group has a row before
    have hzero : (group.2.map (lastTotal B.rows s)).sum = 0 := by
      refine List.sum_eq_zero fun x hx => ?_
      obtain ⟨role, hrole, rfl⟩ := List.mem_map.mp hx
      have hnone := List.all_eq_true.mp hfirst role hrole
      rw [getPrevLegSnapshot_saved] at hnone
      rw [lastTotal, Option.isNone_iff_eq_none.mp hnone]
      rfl
    rw [hzero, sub_zero]
  next => rfl

theorem sum_map_ite {α : Type*} (p : α → Bool) (f : α → ℚ) (l : List α) :
    (l.map fun x => if p x = true then f x else 0).sum = ((l.filter p).map f).sum := by
  induction l with
  | nil => rfl
  | cons x l ih =>
    rw [List.map_cons, List.sum_cons, ih]
    cases h : p x with
    | true => rw [List.filter_cons_of_pos h, List.map_cons, List.sum_cons, if_pos rfl]
    | false => rw [List.filter_cons_of_neg (by simp [h]), if_neg Bool.false_ne_true, zero_add]

/-- What has changed in the book has changed in the roles with a row. -/
theorem bookTotal_saved :
    bookTotal (B.saved lookup ev) s - bookTotal B.rows s = ((B.present lookup ev).map (B.moved lookup ev)).sum := by
  have hmoved : ∀ role, lastTotal (B.saved lookup ev) s role =
      (if ((B.totals lookup ev).lookup role).isSome = true then B.moved lookup ev role else 0) +
        lastTotal B.rows s role := by
    intro role
    rw [lastTotal_saved, BookDays.moved]
    cases (B.totals lookup ev).lookup role with
    | none => simp
    | some total => simp [totalOf]
  have hpresent : B.present lookup ev = overlayRoles.filter fun role => ((B.totals lookup ev).lookup role).isSome := by
    rw [← presentRoles_saved]
    exact List.filter_congr fun role _ => by rw [getLegSnapshot_saved]
  rw [bookTotal, bookTotal, sub_eq_iff_eq_add, hpresent, ← sum_map_ite, ← List.sum_map_add]
  exact congrArg List.sum (List.map_congr_left fun role _ => hmoved role)

variable (lookup B ev) in
/-- **What a day reports**: the change of the book, but for the roles left out. -/
theorem change_add_lost :
    B.change lookup ev + B.lost lookup ev = bookTotal (B.saved lookup ev) s - bookTotal B.rows s := by
  have hpresent : (B.present lookup ev).Nodup := by
    unfold BookDays.present rolesOf
    exact nodup_overlayRoles.filter _
  have hreported : ((reportedGroups s (B.saved lookup ev) (B.day ev)).flatMap Prod.snd).Perm
      ((B.present lookup ev).filter fun role => !decide (LeftOut lookup B ev role)) := by
    refine (List.perm_ext_iff_of_nodup nodup_reportedRoles (hpresent.filter _)).mpr fun role => ?_
    rw [mem_reportedRoles, List.mem_filter, Bool.not_eq_true', decide_eq_false_iff_not]
  rw [bookTotal_saved, change_eq_reported, (hreported.map _).sum_eq, add_comm]
  have hsplit := List.filter_append_perm (fun role => decide (LeftOut lookup B ev role)) (B.present lookup ev)
  rw [← (hsplit.map (B.moved lookup ev)).sum_eq, List.map_append, List.sum_append]
  rfl

end Day

/-! ### A run -/

/-- Nothing has changed in the roles left out. -/
def LosesNothing (lookup : Option InstrumentLookup) {s : String} (B : BookDays s) (ev : SnapshotDay) : Prop :=
  B.lost lookup ev = 0

/-- **The reported changes telescope** exactly while nothing changes in a role that is left out. -/
theorem days_telescope_iff (lookup : Option InstrumentLookup) {s : String} (start : BookDays s)
    (evs : List SnapshotDay) :
    Run.Along (BookDays.next lookup) (Telescopes start) start evs ↔
      Run.EachStep (BookDays.next lookup) (LosesNothing lookup) start evs := by
  refine Run.along_iff_eachStep (I := fun _ => True) (fun _ _ _ => trivial) (fun B ev _ h => ?_) trivial ?_
  · unfold Telescopes at h ⊢
    have hday := change_add_lost lookup B ev
    simp only [BookDays.next, LosesNothing]
    constructor
    · intro h'
      linarith
    · intro hlost
      linarith
  · simp [Telescopes]

/-! ### A day on which the put has no price -/

/-- A leg of a collar of 65 units. -/
private def collarLeg (role key : String) (action : TradeAction) (price : ℚ) (hrole : role ≠ "") (hkey : key ≠ "")
    (hprice : 0 < price) : PaperTrade where
  strategyName := "paper_nifty_overlay"
  legRole := role
  instrumentKey := key
  tradeDate := 739780
  action := action
  quantity := 65
  price := price
  paperPrefix := hasPaperPrefix_overlay
  legRole_ne := hrole
  instrumentKey_ne := hkey
  quantity_pos := lot_pos
  price_pos := hprice

/-- A call sold at 100 and a put bought at 40. -/
private def collarTrades : PaperTrades :=
  let sold := collarLeg "overlay_collar_call" "NSE_FO|65900" .sell 100 overlayCollarCall_ne key65900_ne price100_pos
  let bought := collarLeg "overlay_collar_put" "NSE_FO|65800" .buy 40 overlayCollarPut_ne key65800_ne price40_pos
  ((PaperTrades.empty.recordTrade sold).1.recordTrade bought).1

/-- A day of the collar. -/
private def collarDay (call : ℚ) (put : Option ℚ) : SnapshotDay where
  trades := collarTrades
  prices key := if key = "NSE_FO|65900" then some call else put

/-- Before the first day. -/
def noDays (s : String) : BookDays s where
  rows := Dict.empty
  lastDay := 739780
  reported := 0
  rows_le _ _ _ h := absurd h (by simp)

/-- The call falls from 90 to 80 on a day on which the put has no price; the 650 are in no row. -/
theorem collar_day_lost : ¬Run.Along (BookDays.next none) (Telescopes (noDays "paper_nifty_overlay")) (noDays _)
    [collarDay 90 (some 50), collarDay 80 none, collarDay 80 (some 50)] := by
  rw [Run.along_iff_final]
  exact fun h => absurd (h _ List.prefix_rfl) (by decide +kernel)

end NiftyShield.ThreeTrack.OverlayDays
