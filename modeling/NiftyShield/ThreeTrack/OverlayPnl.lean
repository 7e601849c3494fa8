import NiftyShield.Lib.Dated
import NiftyShield.Paper.TrackSnapshot

/-!
# The profit of the overlay book

An overlay book is valued role by role (`_compute_overlay_leg_totals`), a row is saved for each
role that can be priced (`_save_overlay_leg_snapshots`), and the roles are then put together as
covered call, protective put and collar (`_overlay_type_groups`), in the rows of
`_compute_overlay_pnl_snapshots` and in the one that is printed
(`_overlay_summary_row`; all in `scripts/strategies/three_track/paper_3track_snapshot.py`).

## What is proved

* `mem_groupedRoles`: which roles a grouping has, and that none is there twice;
* `book_accounted_iff`: the rows account for the whole book, and add up to what
  `PaperTracker.compute_pnl` says, unless a short call of a collar has lost its put and there is
  a covered call.

## Honest scope

A request for prices is answered by one map, whatever is asked for. The alerts about a role with
several instruments are those of `OverlayAlerts`.
-/

namespace NiftyShield.ThreeTrack.OverlayPnl

open NiftyShield.Instruments NiftyShield.Lib NiftyShield.Paper

/-! ### The code -/

/-- `PaperLegSnapshot`, without the columns of its key. -/
structure PaperLegSnapshot where
  /-- `unrealized_pnl`. -/
  unrealizedPnl : ℚ
  /-- `realized_pnl`. -/
  realizedPnl : ℚ
  /-- `total_pnl`. -/
  totalPnl : ℚ
  /-- `ltp`. -/
  ltp : Option ℚ
  /-- `net_qty`. -/
  netQty : Option ℤ
  /-- `record_leg_snapshot` refuses any other. -/
  total_eq : totalPnl = unrealizedPnl + realizedPnl
  deriving DecidableEq

/-- `paper_leg_snapshots`, by strategy and role and by day. -/
abbrev LegSnapshots := Dated (String × String) Date PaperLegSnapshot

/-- `get_leg_snapshot`. -/
def getLegSnapshot (L : LegSnapshots) (strategyName legRole : String) (day : Date) : Option PaperLegSnapshot :=
  L.get? ((strategyName, legRole), day)

/-- `get_prev_leg_snapshot`. -/
def getPrevLegSnapshot (L : LegSnapshots) (strategyName legRole : String) (day : Date) : Option PaperLegSnapshot :=
  (Dated.latestBefore L (strategyName, legRole) day).map Prod.snd

/-- `_OVERLAY_ROLES`. -/
def overlayRoles : List String := ["overlay_cc", "overlay_pp", "overlay_collar_call", "overlay_collar_put"]

/-- `_COLLAR_ROLES`. -/
def collarRoles : List String := ["overlay_collar_call", "overlay_collar_put"]

/-- `_overlay_type_groups`. A group that is there already is replaced. -/
def overlayTypeGroups (present : List String) : Dict String (List String) :=
  let groups :=
    if "overlay_collar_call" ∈ present ∧ "overlay_collar_put" ∈ present then
      Dict.empty.set "collar" ["overlay_collar_call", "overlay_collar_put"]
    else if "overlay_collar_call" ∈ present then Dict.empty.set "cc" ["overlay_collar_call"]
    else if "overlay_collar_put" ∈ present then Dict.empty.set "collar" ["overlay_collar_put"]
    else Dict.empty
  let groups := if "overlay_cc" ∈ present then groups.set "cc" ["overlay_cc"] else groups
  if "overlay_pp" ∈ present then groups.set "pp" ["overlay_pp"] else groups

/-- A role's entry in the totals, and its row. -/
def legTotal (unrealized realized : ℚ) (ltp : Option ℚ) (netQty : ℤ) : PaperLegSnapshot where
  unrealizedPnl := unrealized
  realizedPnl := realized
  totalPnl := unrealized + realized
  ltp := ltp
  netQty := some netQty
  total_eq := rfl

section Book

variable (T : PaperTrades) (lookup : Option InstrumentLookup) (s : String) (prices : String → Option ℚ)

/-- `ltp_map`: a price of zero is none. -/
def ltpMap (instrumentKey : String) : Option ℚ := (prices instrumentKey).filter fun ltp => ltp ≠ 0

/-- The open positions of a role. -/
def positionsOf (role : String) : List PaperPosition := (T.getPositions lookup s).filter fun p => p.legRole = role

/-- The entry of a role, unless an open instrument of it has no price. -/
def roleTotal (role : String) : Option PaperLegSnapshot :=
  let realized := realizedOfRole (T.getTrades s) role
  match positionsOf T lookup s role with
  | [] => some (legTotal 0 realized none 0)
  | [pos] => (ltpMap prices pos.instrumentKey).map fun ltp =>
    legTotal (computeLegUnrealizedPnl pos ltp) realized (some ltp) pos.netQty
  | found =>
    if found.all fun p => (ltpMap prices p.instrumentKey).isSome then
      some (legTotal (found.map (unrealizedOf (ltpMap prices))).sum realized none (found.map (·.netQty)).sum)
    else none

/-- `_compute_overlay_leg_totals`. -/
def computeOverlayLegTotals : List (String × PaperLegSnapshot) :=
  (sortedRoles (T.getTrades s)).filterMap fun role => (roleTotal T lookup s prices role).map fun total => (role, total)

/-- `_save_overlay_leg_snapshots`. -/
def saveOverlayLegSnapshots (totals : List (String × PaperLegSnapshot)) (day : Date) (L : LegSnapshots) : LegSnapshots :=
  totals.foldl (fun L t => L.set ((s, t.1), day) t.2) L

/-- `_leg_entry_basis`. -/
def legEntryBasis (role : String) : Option ℚ :=
  let total := ((positionsOf T lookup s role).map fun p =>
    ((if p.netQty < 0 then p.avgSellPrice else p.avgCost) * |p.netQty| : ℚ)).sum
  if positionsOf T lookup s role = [] ∨ total = 0 then none else some total

/-- `_position_qty`. -/
def positionQty (role : String) : ℤ := ((positionsOf T lookup s role).map (·.netQty)).sum

/-- `_mark_value`. -/
def markValue (ltp : Option ℚ) (netQty : ℤ) : Option ℚ := ltp.map fun price => (price * |netQty| : ℚ)

/-- `_safe_pct`; a denominator that is missing is zero. -/
def safePct (numerator denominator : ℚ) : ℚ := if denominator = 0 then 0 else numerator / denominator

variable (L : LegSnapshots) (day : Date)

/-- The roles of `today_by_role`. -/
def presentRoles : List String := overlayRoles.filter fun role => (getLegSnapshot L s role day).isSome

/-- A role that was open at its last row and has none today. -/
def isMissing (role : String) : Bool :=
  (getLegSnapshot L s role day).isNone && (getPrevLegSnapshot L s role day).any fun p => p.netQty.any (· ≠ 0)

/-- `unpriced`: the missing roles, both of the collar if one of them is. -/
def isUnpriced (role : String) : Bool :=
  isMissing s L day role || (role ∈ collarRoles && collarRoles.any (isMissing s L day))

/-- The groups that are reported. -/
def reportedGroups : List (String × List String) :=
  (overlayTypeGroups (presentRoles s L day)).entries.filter fun group => !group.2.any (isUnpriced s L day)

/-- `OverlayPnLSnapshot`. -/
structure OverlayPnLSnapshot where
  /-- `strategy_name`. -/
  strategyName : String
  /-- `overlay_type`. -/
  overlayType : String
  /-- `snapshot_date`. -/
  snapshotDate : Date
  /-- `pnl_1d_abs`. -/
  pnl1dAbs : ℚ
  /-- `pnl_1d_pct`. -/
  pnl1dPct : ℚ
  /-- `pnl_inception_abs`. -/
  pnlInceptionAbs : ℚ
  /-- `pnl_inception_pct`. -/
  pnlInceptionPct : ℚ
  deriving DecidableEq

/-- The total of a row, zero if there is none. -/
def totalOf (row : Option PaperLegSnapshot) : ℚ := (row.map (·.totalPnl)).getD 0

/-- The row of a group. -/
def overlayRow (group : String × List String) : OverlayPnLSnapshot :=
  let roles := group.2
  let prev (role : String) := getPrevLegSnapshot L s role day
  let inception := (roles.map fun role => totalOf (getLegSnapshot L s role day)).sum
  let change := inception - (roles.map fun role => totalOf (prev role)).sum
  let prevMark := (roles.map fun role => ((prev role).bind fun p =>
    markValue p.ltp (p.netQty.getD (positionQty T lookup s role))).getD 0).sum
  -- without a row of any role before, all of it is today's
  let first := roles.all fun role => (prev role).isNone
  { strategyName := s
    overlayType := group.1
    snapshotDate := day
    pnl1dAbs := if first then inception else change
    pnl1dPct := if first then 0 else safePct change prevMark
    pnlInceptionAbs := inception
    pnlInceptionPct := safePct inception (roles.map fun role => (legEntryBasis T lookup s role).getD 0).sum }

/-- `_compute_overlay_pnl_snapshots`. -/
def computeOverlayPnlSnapshots : List OverlayPnLSnapshot := (reportedGroups s L day).map (overlayRow T lookup s L day)

end Book

/-- `_overlay_summary_row`. -/
structure OverlaySummary where
  /-- `overlay_pnl`. -/
  overlayPnl : ℚ
  /-- `cc_pnl`. -/
  ccPnl : ℚ
  /-- `collar_pnl`. -/
  collarPnl : ℚ
  /-- `pp_pnl`. -/
  ppPnl : ℚ
  /-- `net_pnl`. -/
  netPnl : ℚ
  deriving DecidableEq

/-- The roles of the totals, without others than those of an overlay. -/
def rolesOf (totals : List (String × PaperLegSnapshot)) : List String := overlayRoles.filter fun role =>
  role ∈ totals.map Prod.fst

/-- `_overlay_summary_row`; `none` for a book never entered. -/
def overlaySummaryRow (totals : List (String × PaperLegSnapshot)) : Option OverlaySummary :=
  if totals = [] then none
  else
    let groups := overlayTypeGroups (rolesOf totals)
    let sum (roles : List String) : ℚ := (roles.map fun role => totalOf (totals.lookup role)).sum
    let byType (overlayType : String) : ℚ := ((groups.get? overlayType).map sum).getD 0
    let overlayTotal := (groups.values.map sum).sum
    some
      { overlayPnl := overlayTotal
        ccPnl := byType "cc"
        collarPnl := byType "collar"
        ppPnl := byType "pp"
        netPnl := overlayTotal }

/-! ### Which roles a grouping has -/

/-- The roles of all groups. -/
def groupedRoles (present : List String) : List String := (overlayTypeGroups present).values.flatten

/-- The short call of a collar that has lost its put, next to a covered call. -/
def Displaced (present : List String) (role : String) : Prop :=
  role = "overlay_collar_call" ∧ "overlay_cc" ∈ present ∧ "overlay_collar_put" ∉ present

instance (present : List String) (role : String) : Decidable (Displaced present role) :=
  inferInstanceAs (Decidable (_ ∧ _ ∧ _))

/-- **Which roles a grouping has**: those that are there, each once, but for a displaced short
call. -/
theorem groupedRoles_perm (present : List String) :
    (groupedRoles present).Perm (overlayRoles.filter fun role => role ∈ present ∧ ¬Displaced present role) := by
  unfold groupedRoles overlayTypeGroups overlayRoles Displaced
  by_cases hcall : "overlay_collar_call" ∈ present <;> by_cases hput : "overlay_collar_put" ∈ present <;>
    by_cases hcc : "overlay_cc" ∈ present <;> by_cases hpp : "overlay_pp" ∈ present <;>
    simp only [hcall, hput, hcc, hpp, List.filter_cons, List.filter_nil, and_self, and_true,
      and_false, true_and,
      false_and, if_true, if_false, not_true_eq_false, not_false_eq_true] <;> decide

theorem nodup_overlayRoles : overlayRoles.Nodup := by decide

/-- The roles that are there are all grouped, unless a short call is displaced. -/
theorem groupedRoles_perm_iff {present : List String} (hroles : ∀ role ∈ present, role ∈ overlayRoles)
    (hnodup : present.Nodup) :
    (groupedRoles present).Perm present ↔ ∀ role ∈ present, ¬Displaced present role := by
  have hmem : ∀ role, role ∈ groupedRoles present ↔ role ∈ present ∧ ¬Displaced present role := by
    intro role
    rw [(groupedRoles_perm present).mem_iff, List.mem_filter, decide_eq_true_iff]
    exact and_iff_right_of_imp fun h => hroles role h.1
  have hgrouped : (groupedRoles present).Nodup :=
    (groupedRoles_perm present).nodup_iff.mpr (nodup_overlayRoles.filter _)
  rw [List.perm_ext_iff_of_nodup hgrouped hnodup]
  constructor
  · exact fun h role hrole => ((hmem role).mp ((h role).mpr hrole)).2
  · exact fun h role => (hmem role).trans (and_iff_left_of_imp (h role))

/-! ### The rows of a day -/

section Rows

variable {T : PaperTrades} {lookup : Option InstrumentLookup} {s : String} {prices : String → Option ℚ}
  {L : LegSnapshots} {day : Date}

theorem fst_mem_totals {role : String} {total : PaperLegSnapshot}
    (h : (role, total) ∈ computeOverlayLegTotals T lookup s prices) :
    role ∈ sortedRoles (T.getTrades s) ∧ roleTotal T lookup s prices role = some total := by
  obtain ⟨role', hrole', hmap⟩ := List.mem_filterMap.mp h
  obtain ⟨total', htotal, heq⟩ := Option.map_eq_some_iff.mp hmap
  obtain ⟨rfl, rfl⟩ := Prod.mk.inj heq
  exact ⟨hrole', htotal⟩

theorem nodup_totals (T : PaperTrades) (lookup : Option InstrumentLookup) (s : String)
    (prices : String → Option ℚ) :
    ((computeOverlayLegTotals T lookup s prices).map Prod.fst).Nodup := by
  have hsub : ((computeOverlayLegTotals T lookup s prices).map Prod.fst).Sublist
      (sortedRoles (T.getTrades s)) := by
    rw [computeOverlayLegTotals, List.map_filterMap]
    have hfilter : ∀ roles : List String, (roles.filterMap fun role =>
        ((roleTotal T lookup s prices role).map fun total => (role, total)).map Prod.fst).Sublist roles := by
      intro roles
      induction roles with
      | nil => exact List.Sublist.slnil
      | cons role roles ih =>
        cases h : roleTotal T lookup s prices role with
        | none => simpa [h] using ih.cons role
        | some total => simpa [h] using ih.cons_cons role
    exact hfilter _
  exact hsub.nodup (nodup_sortedRoles _)

theorem lookup_eq_none_of_not_mem {role : String} {totals : List (String × PaperLegSnapshot)}
    (h : role ∉ totals.map Prod.fst) : totals.lookup role = none := by
  refine List.lookup_eq_none_iff.mpr fun p hp => ?_
  have hmem : p.1 ∈ totals.map Prod.fst := List.mem_map_of_mem hp
  have hne : role ≠ p.1 := fun heq => h (heq ▸ hmem)
  simpa using hne

/-- **What is saved**: the totals, one for each role, on their day; all other rows stay. -/
theorem get?_save (role : String) (u : Date) : ∀ {totals : List (String × PaperLegSnapshot)} {L : LegSnapshots},
    (totals.map Prod.fst).Nodup →
    (saveOverlayLegSnapshots s totals day L).get? ((s, role), u) =
      if u = day then (totals.lookup role).or (L.get? ((s, role), u)) else L.get? ((s, role), u)
  | [], L, _ => by
    rw [List.lookup_nil, Option.none_or, ite_self]
    rfl
  | (role', total) :: totals, L, h => by
    obtain ⟨hfresh, hnodup⟩ := List.nodup_cons.mp h
    rw [saveOverlayLegSnapshots, List.foldl_cons]
    refine (get?_save role u (L := L.set ((s, role'), day) total) hnodup).trans ?_
    rw [Dict.get?_set, List.lookup_cons]
    by_cases heq : role = role'
    · subst heq
      by_cases hday : u = day
      · simp [hday, lookup_eq_none_of_not_mem hfresh]
      · simp [hday]
    · have hbeq : (role == role') = false := by simpa using heq
      rw [hbeq, if_neg fun h => heq (Prod.mk.inj (Prod.mk.inj h).1).2]

theorem getLegSnapshot_save (role : String) {totals : List (String × PaperLegSnapshot)}
    (h : (totals.map Prod.fst).Nodup) :
    getLegSnapshot (saveOverlayLegSnapshots s totals day L) s role day =
      (totals.lookup role).or (getLegSnapshot L s role day) := by
  rw [getLegSnapshot, get?_save role day h, if_pos rfl]
  rfl

/-- What is saved today does not change what was there before. -/
theorem getPrevLegSnapshot_save (role : String) {totals : List (String × PaperLegSnapshot)}
    (h : (totals.map Prod.fst).Nodup) :
    getPrevLegSnapshot (saveOverlayLegSnapshots s totals day L) s role day =
      getPrevLegSnapshot L s role day := by
  rw [getPrevLegSnapshot, getPrevLegSnapshot]
  refine congrArg (Option.map Prod.snd) (Dated.newest_congr fun u row => and_congr_left fun hbefore => ?_)
  rw [get?_save role u h, if_neg (of_decide_eq_true hbefore).ne]

theorem lookup_totals (role : String) :
    (computeOverlayLegTotals T lookup s prices).lookup role =
      if role ∈ sortedRoles (T.getTrades s) then roleTotal T lookup s prices role else none := by
  cases hlookup : (computeOverlayLegTotals T lookup s prices).lookup role with
  | some total =>
    obtain ⟨before, after, hsplit, -⟩ := List.lookup_eq_some_iff.mp hlookup
    obtain ⟨hrole, htotal⟩ := fst_mem_totals (hsplit ▸ List.mem_append_right before List.mem_cons_self)
    rw [if_pos hrole, htotal]
  | none =>
    split
    next hrole =>
      cases htotal : roleTotal T lookup s prices role with
      | none => rfl
      | some total =>
        have hmem : (role, total) ∈ computeOverlayLegTotals T lookup s prices :=
          List.mem_filterMap.mpr ⟨role, hrole, by rw [htotal]; rfl⟩
        have hne := List.lookup_eq_none_iff.mp hlookup _ hmem
        simp at hne
    next => rfl

/-- The rows of the table are of roles that the book has traded. -/
def RowsTraded (T : PaperTrades) (s : String) (L : LegSnapshots) : Prop :=
  ∀ role day row, L.get? ((s, role), day) = some row → role ∈ sortedRoles (T.getTrades s)

/-- Every open instrument has a positive price. -/
def PositivelyPriced (T : PaperTrades) (lookup : Option InstrumentLookup) (s : String) (prices : String → Option ℚ) : Prop :=
  ∀ p ∈ T.getPositions lookup s, ∃ ltp, prices p.instrumentKey = some ltp ∧ 0 < ltp

theorem PositivelyPriced.ltpMap (h : PositivelyPriced T lookup s prices) {p : PaperPosition}
    (hp : p ∈ T.getPositions lookup s) : ltpMap prices p.instrumentKey = prices p.instrumentKey := by
  obtain ⟨ltp, hltp, hpos⟩ := h p hp
  rw [OverlayPnl.ltpMap, hltp, Option.filter_some, if_pos (by simpa using hpos.ne')]

theorem PositivelyPriced.allPriced (h : PositivelyPriced T lookup s prices) : AllPriced T lookup s prices := by
  intro p hp
  obtain ⟨ltp, hltp, -⟩ := h p hp
  rw [hltp]
  rfl

/-- A role whose instruments all have a price has an entry, of all its profit. -/
theorem roleTotal_of_priced (h : PositivelyPriced T lookup s prices) (role : String) :
    ∃ total, roleTotal T lookup s prices role = some total ∧ total.totalPnl =
      ((positionsOf T lookup s role).map (unrealizedOf prices)).sum + realizedOfRole (T.getTrades s) role := by
  have hmem : ∀ p ∈ positionsOf T lookup s role, p ∈ T.getPositions lookup s := fun p hp =>
    List.mem_of_mem_filter hp
  unfold roleTotal
  match hfound : positionsOf T lookup s role with
  | [] => exact ⟨_, rfl, by simp [legTotal]⟩
  | [p] =>
    have hp := hmem p (hfound ▸ List.mem_singleton_self p)
    obtain ⟨ltp, hltp, -⟩ := h p hp
    simp only [h.ltpMap hp, hltp, Option.map_some]
    exact ⟨_, rfl, by simp [legTotal, unrealizedOf, hltp]⟩
  | p :: q :: ps =>
    rw [hfound] at hmem
    have hall : (p :: q :: ps).all (fun p => (ltpMap prices p.instrumentKey).isSome) = true := by
      refine List.all_eq_true.mpr fun r hr => ?_
      rw [h.ltpMap (hmem r hr)]
      exact h.allPriced r (hmem r hr)
    have hsum : (p :: q :: ps).map (unrealizedOf (ltpMap prices)) = (p :: q :: ps).map (unrealizedOf prices) :=
      List.map_congr_left fun r hr => by rw [unrealizedOf, unrealizedOf, h.ltpMap (hmem r hr)]
    simp only [if_pos hall, hsum]
    exact ⟨_, rfl, rfl⟩

/-- Role by role, the profit is that of the tracker. -/
theorem sum_roleTotals (T : PaperTrades) (lookup : Option InstrumentLookup) (s : String)
    (prices : String → Option ℚ) :
    ((sortedRoles (T.getTrades s)).map fun role =>
      ((positionsOf T lookup s role).map (unrealizedOf prices)).sum + realizedOfRole (T.getTrades s) role).sum =
      ((T.getPositions lookup s).map (unrealizedOf prices)).sum +
        ((sortedRoles (T.getTrades s)).map (realizedOfRole (T.getTrades s))).sum := by
  rw [List.sum_map_add]
  congr 1
  exact Grouping.sum_groups PaperPosition.legRole (unrealizedOf prices) (nodup_sortedRoles _)
    fun p hp => legRole_mem_sortedRoles hp

/-! ### The whole book -/

/-- The rows of the day and the printed row: every role that the book has traded is in them
once, and they add up to the profit that the tracker computes. -/
structure AccountsForBook (T : PaperTrades) (lookup : Option InstrumentLookup) (s : String) (prices : String → Option ℚ)
    (L : LegSnapshots) (day : Date) : Prop where
  /-- The roles of the rows. -/
  rows : ((reportedGroups s (saveOverlayLegSnapshots s (computeOverlayLegTotals T lookup s prices) day L) day).flatMap
    Prod.snd).Perm (sortedRoles (T.getTrades s))
  /-- The roles of the printed row. -/
  printed : (groupedRoles (rolesOf (computeOverlayLegTotals T lookup s prices))).Perm (sortedRoles (T.getTrades s))
  /-- What the rows add up to. -/
  inception : ∀ unrealized realized total,
    computePnl T lookup (fun _ => prices) s = some (unrealized, realized, total) →
    ((computeOverlayPnlSnapshots T lookup s
      (saveOverlayLegSnapshots s (computeOverlayLegTotals T lookup s prices) day L) day).map (·.pnlInceptionAbs)).sum =
        total
  /-- What the printed row says. -/
  overlay : ∀ unrealized realized total,
    computePnl T lookup (fun _ => prices) s = some (unrealized, realized, total) →
    ∃ row, overlaySummaryRow (computeOverlayLegTotals T lookup s prices) = some row ∧ row.overlayPnl = total

variable (hroles : ∀ t ∈ T.getTrades s, t.legRole ∈ overlayRoles) (hpriced : PositivelyPriced T lookup s prices)
  (hrows : RowsTraded T s L)

include hpriced in
theorem lookup_totals_of_priced {role : String} (hrole : role ∈ sortedRoles (T.getTrades s)) :
    ∃ total, (computeOverlayLegTotals T lookup s prices).lookup role = some total ∧ total.totalPnl =
      ((positionsOf T lookup s role).map (unrealizedOf prices)).sum + realizedOfRole (T.getTrades s) role := by
  rw [lookup_totals, if_pos hrole]
  exact roleTotal_of_priced hpriced role

include hpriced in
theorem mem_fst_totals {role : String} :
    role ∈ (computeOverlayLegTotals T lookup s prices).map Prod.fst ↔ role ∈ sortedRoles (T.getTrades s) := by
  constructor
  · intro h
    obtain ⟨⟨role', total⟩, hmem, rfl⟩ := List.mem_map.mp h
    exact (fst_mem_totals hmem).1
  · intro hrole
    obtain ⟨total, hlookup, -⟩ := lookup_totals_of_priced hpriced hrole
    obtain ⟨before, after, hsplit, -⟩ := List.lookup_eq_some_iff.mp hlookup
    rw [hsplit, List.map_append]
    exact List.mem_append_right _ List.mem_cons_self

include hrows in
/-- The row of today is what was computed, and there is no other. -/
theorem getLegSnapshot_today (role : String) :
    getLegSnapshot (saveOverlayLegSnapshots s (computeOverlayLegTotals T lookup s prices) day L) s role day =
      if role ∈ sortedRoles (T.getTrades s) then
        ((computeOverlayLegTotals T lookup s prices).lookup role).or (getLegSnapshot L s role day)
      else none := by
  rw [getLegSnapshot_save role (nodup_totals T lookup s prices)]
  split
  next => rfl
  next huntraded =>
    rw [lookup_totals, if_neg huntraded, Option.none_or]
    cases hrow : getLegSnapshot L s role day with
    | none => rfl
    | some row => exact absurd (hrows role day row hrow) huntraded

include hpriced hrows in
theorem isUnpriced_today (role : String) :
    isUnpriced s (saveOverlayLegSnapshots s (computeOverlayLegTotals T lookup s prices) day L) day
      role = false := by
  have hmissing : ∀ role,
      isMissing s (saveOverlayLegSnapshots s (computeOverlayLegTotals T lookup s prices) day L) day
        role = false := by
    intro role
    rw [isMissing, getLegSnapshot_today hrows, getPrevLegSnapshot_save role (nodup_totals T lookup s prices)]
    split
    next hrole =>
      obtain ⟨total, hlookup, -⟩ := lookup_totals_of_priced hpriced hrole
      rw [hlookup]
      rfl
    next huntraded =>
      rw [getPrevLegSnapshot]
      cases hprev : Dated.latestBefore L (s, role) day with
      | none => rfl
      | some row => exact absurd (hrows role row.1 row.2 (Dated.newest_eq_some_iff.mp hprev).1) huntraded
  rw [isUnpriced, hmissing, Bool.false_or, List.any_eq_false.mpr fun role _ => by
    rw [hmissing]; simp, Bool.and_false]

include hpriced hrows in
theorem reportedGroups_today :
    reportedGroups s (saveOverlayLegSnapshots s (computeOverlayLegTotals T lookup s prices) day L) day =
      (overlayTypeGroups (rolesOf (computeOverlayLegTotals T lookup s prices))).entries := by
  have hpresent : presentRoles s (saveOverlayLegSnapshots s
    (computeOverlayLegTotals T lookup s prices) day L) day =
      rolesOf (computeOverlayLegTotals T lookup s prices) := by
    refine List.filter_congr fun role _ => ?_
    rw [getLegSnapshot_today hrows]
    by_cases hrole : role ∈ sortedRoles (T.getTrades s)
    · obtain ⟨total, hlookup, -⟩ := lookup_totals_of_priced hpriced hrole
      rw [if_pos hrole, hlookup, decide_eq_true ((mem_fst_totals hpriced).mpr hrole)]
      rfl
    · rw [if_neg hrole, decide_eq_false (mt (mem_fst_totals hpriced).mp hrole)]
      rfl
  rw [reportedGroups, hpresent]
  refine List.filter_eq_self.mpr fun group _ => ?_
  rw [Bool.not_eq_true', List.any_eq_false]
  intro role _
  rw [isUnpriced_today hpriced hrows]
  exact Bool.false_ne_true

include hroles hpriced in
theorem rolesOf_perm :
    (rolesOf (computeOverlayLegTotals T lookup s prices)).Perm (sortedRoles (T.getTrades s)) := by
  refine (List.perm_ext_iff_of_nodup (nodup_overlayRoles.filter _) (nodup_sortedRoles _)).mpr fun role => ?_
  rw [List.mem_filter, decide_eq_true_iff, mem_fst_totals hpriced]
  refine and_iff_right_of_imp fun hrole => ?_
  obtain ⟨t, ht, rfl⟩ := mem_sortedRoles.mp hrole
  exact hroles t ht

theorem sum_flatMap_snd (groups : List (String × List String)) (f : String → ℚ) :
    (groups.map fun group => (group.2.map f).sum).sum = ((groups.flatMap Prod.snd).map f).sum := by
  induction groups with
  | nil => rfl
  | cons group groups ih =>
    rw [List.map_cons, List.sum_cons, ih, List.flatMap_cons, List.map_append, List.sum_append]

theorem flatMap_entries (present : List String) :
    (overlayTypeGroups present).entries.flatMap Prod.snd = groupedRoles present := by
  rw [groupedRoles, Dict.values, List.flatMap_def]

include hpriced in
/-- Over the roles that the book has traded, the totals are the tracker's. -/
theorem sum_totals_eq_tracker {roles : List String} (hperm : roles.Perm (sortedRoles (T.getTrades s)))
    {unrealized realized total : ℚ}
    (h : computePnl T lookup (fun _ => prices) s = some (unrealized, realized, total)) :
    (roles.map fun role => totalOf ((computeOverlayLegTotals T lookup s prices).lookup role)).sum = total := by
  have htrades : T.getTrades s ≠ [] := fun hnone => absurd h (by rw [computePnl, if_pos hnone]; simp)
  obtain ⟨-, -, rfl⟩ := by
    simpa only [Option.some.injEq, Prod.mk.injEq] using
      (computePnl_of_priced hpriced.allPriced htrades).symm.trans h
  rw [← sum_roleTotals, (hperm.map _).sum_eq]
  congr 1
  refine List.map_congr_left fun role hrole => ?_
  obtain ⟨total, hlookup, htotal⟩ := lookup_totals_of_priced hpriced hrole
  rw [hlookup, ← htotal]
  rfl

include hroles hpriced hrows in
theorem accountsForBook_iff :
    AccountsForBook T lookup s prices L day ↔
      ¬("overlay_collar_call" ∈ sortedRoles (T.getTrades s) ∧ "overlay_cc" ∈ sortedRoles (T.getTrades s) ∧
        "overlay_collar_put" ∉ sortedRoles (T.getTrades s)) := by
  have hpresent := rolesOf_perm hroles hpriced
  have hiff : (groupedRoles (rolesOf (computeOverlayLegTotals T lookup s prices))).Perm
    (sortedRoles (T.getTrades s)) ↔
      ¬("overlay_collar_call" ∈ sortedRoles (T.getTrades s) ∧ "overlay_cc" ∈ sortedRoles (T.getTrades s) ∧
        "overlay_collar_put" ∉ sortedRoles (T.getTrades s)) := by
    have hgrouped := groupedRoles_perm_iff
      (fun role (hrole : role ∈ rolesOf (computeOverlayLegTotals T lookup s prices)) =>
        (List.mem_filter.mp hrole).1) (nodup_overlayRoles.filter _)
    rw [← (hpresent.congr_right _), hgrouped]
    simp only [Displaced, hpresent.mem_iff]
    constructor
    · exact fun h hall => h _ hall.1 ⟨rfl, hall.2⟩
    · rintro h role hrole ⟨rfl, hrest⟩
      exact h ⟨hrole, hrest⟩
  rw [← hiff]
  refine ⟨fun h => h.printed, fun hperm => ?_⟩
  have hrowsPerm : ((reportedGroups s (saveOverlayLegSnapshots s
    (computeOverlayLegTotals T lookup s prices) day L)
      day).flatMap Prod.snd).Perm (sortedRoles (T.getTrades s)) := by
    rw [reportedGroups_today hpriced hrows, flatMap_entries]
    exact hperm
  refine ⟨hrowsPerm, hperm, fun unrealized realized total h => ?_, fun unrealized realized total h => ?_⟩
  · rw [← sum_totals_eq_tracker hpriced hrowsPerm h, computeOverlayPnlSnapshots, List.map_map]
    refine (sum_flatMap_snd _ fun role => totalOf (getLegSnapshot _ s role day)).trans ?_
    refine congrArg List.sum (List.map_congr_left fun role hrole => ?_)
    have htraded := hrowsPerm.mem_iff.mp hrole
    obtain ⟨entry, hlookup, -⟩ := lookup_totals_of_priced hpriced htraded
    rw [getLegSnapshot_today hrows, if_pos htraded, hlookup]
    rfl
  · have htotals : computeOverlayLegTotals T lookup s prices ≠ [] := by
      intro hnil
      have hnone : sortedRoles (T.getTrades s) = [] :=
        List.eq_nil_iff_forall_not_mem.mpr fun role hrole => by
          have hmem := (mem_fst_totals hpriced).mpr hrole
          rw [hnil] at hmem
          exact absurd hmem List.not_mem_nil
      have htrades : T.getTrades s = [] := List.eq_nil_iff_forall_not_mem.mpr fun t ht => by
        have hmem := mem_sortedRoles.mpr ⟨t, ht, rfl⟩
        rw [hnone] at hmem
        exact absurd hmem List.not_mem_nil
      exact absurd h (by rw [computePnl, if_pos htrades]; simp)
    refine ⟨_, if_neg htotals, ?_⟩
    rw [← sum_totals_eq_tracker hpriced hperm h, ← flatMap_entries, ← sum_flatMap_snd, Dict.values,
      List.map_map]
    rfl

end Rows

/-! ### Books -/

/-- A role has been traded if some key of the ledger is of it. -/
theorem mem_sortedRoles_iff_hasKey {T : PaperTrades} {s role : String} :
    role ∈ sortedRoles (T.getTrades s) ↔ ∃ k, T.hasKey k = true ∧ k.strategyName = s ∧ k.legRole = role := by
  rw [mem_sortedRoles]
  constructor
  · rintro ⟨t, ht, rfl⟩
    obtain ⟨hrow, hname⟩ := List.mem_filter.mp ((T.getTrades_perm s).mem_iff.mp ht)
    obtain ⟨r, hr, rfl⟩ := List.mem_map.mp hrow
    exact ⟨r.trade.uniqueKey, PaperTrades.hasKey_iff.mpr ⟨r, hr, rfl⟩, of_decide_eq_true hname, rfl⟩
  · rintro ⟨k, hkey, hname, hrole⟩
    obtain ⟨r, hr, rfl⟩ := PaperTrades.hasKey_iff.mp hkey
    refine ⟨r.trade, (T.getTrades_perm s).mem_iff.mpr (List.mem_filter.mpr ⟨List.mem_map_of_mem hr, ?_⟩), hrole⟩
    exact decide_eq_true hname

/-- A ledger and the rows that have been saved of a book: only of roles that it has traded. -/
structure OverlayBook (s : String) where
  /-- `paper_trades`. -/
  trades : PaperTrades
  /-- `paper_leg_snapshots`. -/
  rows : LegSnapshots
  /-- The rows are of what has been traded. -/
  rows_traded : RowsTraded trades s rows

namespace OverlayBook

variable {s : String}

theorem RowsTraded.mono {T T' : PaperTrades} {L : LegSnapshots} (h : RowsTraded T s L)
    (hkeys : ∀ k, T.hasKey k = true → T'.hasKey k = true) : RowsTraded T' s L := by
  intro role day row hrow
  obtain ⟨k, hkey, hk⟩ := mem_sortedRoles_iff_hasKey.mp (h role day row hrow)
  exact mem_sortedRoles_iff_hasKey.mpr ⟨k, hkeys k hkey, hk⟩

/-- Before the first trade. -/
def empty (s : String) : OverlayBook s := ⟨PaperTrades.empty, Dict.empty, fun _ _ _ h => absurd h (by simp)⟩

/-- A trade is recorded. -/
def recordTrade (B : OverlayBook s) (t : PaperTrade) : OverlayBook s where
  trades := (B.trades.recordTrade t).1
  rows := B.rows
  rows_traded := RowsTraded.mono B.rows_traded fun k hkey => by
    obtain ⟨r, hr, hk⟩ := PaperTrades.hasKey_iff.mp hkey
    exact PaperTrades.hasKey_iff.mpr ⟨r, PaperTrades.mem_recordTrade t hr, hk⟩

/-- The trades of a closed position are marked. -/
def markTradeClosed (B : OverlayBook s) (legRole instrumentKey : String) : OverlayBook s where
  trades := B.trades.markTradeClosed s legRole instrumentKey
  rows := B.rows
  rows_traded := RowsTraded.mono B.rows_traded fun k hkey => by
    rw [PaperTrades.markTradeClosed, PaperTrades.hasKey_updateState, hkey]

/-- The rows of a day are saved. -/
def saveDay (B : OverlayBook s) (lookup : Option InstrumentLookup) (prices : String → Option ℚ) (day : Date) :
    OverlayBook s where
  trades := B.trades
  rows := saveOverlayLegSnapshots s (computeOverlayLegTotals B.trades lookup s prices) day B.rows
  rows_traded role day' row hrow := by
    rw [get?_save role day' (nodup_totals B.trades lookup s prices)] at hrow
    split at hrow
    next =>
      cases htotal : (computeOverlayLegTotals B.trades lookup s prices).lookup role with
      | none =>
        rw [htotal, Option.none_or] at hrow
        exact B.rows_traded role day' row hrow
      | some total =>
        obtain ⟨before, after, hsplit, -⟩ := List.lookup_eq_some_iff.mp htotal
        exact (fst_mem_totals (hsplit ▸ List.mem_append_right before List.mem_cons_self)).1
    next => exact B.rows_traded role day' row hrow

end OverlayBook

/-- **The rows account for the whole book** unless both short calls have been traded and the
long put of a collar has not. -/
theorem book_accounted_iff {s : String} (B : OverlayBook s) (lookup : Option InstrumentLookup)
    {prices : String → Option ℚ} (day : Date) (hroles : ∀ t ∈ B.trades.getTrades s, t.legRole ∈ overlayRoles)
    (hpriced : PositivelyPriced B.trades lookup s prices) :
    AccountsForBook B.trades lookup s prices B.rows day ↔
      ¬("overlay_collar_call" ∈ sortedRoles (B.trades.getTrades s) ∧
        "overlay_cc" ∈ sortedRoles (B.trades.getTrades s) ∧
        "overlay_collar_put" ∉ sortedRoles (B.trades.getTrades s)) :=
  accountsForBook_iff hroles hpriced B.rows_traded

/-! ### A covered call and a short call without a put -/

/-- 65 units sold at 100 in the monthly book. -/
private def soldCall (role key : String) (hrole : role ≠ "") (hkey : key ≠ "") : PaperTrade where
  strategyName := "paper_nifty_overlay"
  legRole := role
  instrumentKey := key
  tradeDate := 739780
  action := .sell
  quantity := 65
  price := 100
  paperPrefix := hasPaperPrefix_overlay
  legRole_ne := hrole
  instrumentKey_ne := hkey
  quantity_pos := lot_pos
  price_pos := price100_pos

/-- The short call of a collar. -/
def shortCallBook : OverlayBook "paper_nifty_overlay" :=
  (OverlayBook.empty _).recordTrade (soldCall "overlay_collar_call" "NSE_FO|65900" overlayCollarCall_ne key65900_ne)

/-- And a covered call. -/
def twoCallsBook : OverlayBook "paper_nifty_overlay" :=
  shortCallBook.recordTrade (soldCall "overlay_cc" "NSE_FO|65910" overlayCc_ne (by decide))

private theorem priced_sixty (B : OverlayBook "paper_nifty_overlay") :
    PositivelyPriced B.trades none "paper_nifty_overlay" fun _ => some 60 := fun _ _ => ⟨60, rfl, by norm_num⟩

/-- The rows and the printed row have 2600 of the 5200 that the tracker reports. -/
theorem twoCallsBook_not_accounted :
    (∀ t ∈ twoCallsBook.trades.getTrades "paper_nifty_overlay", t.legRole ∈ overlayRoles) ∧
      PositivelyPriced twoCallsBook.trades none "paper_nifty_overlay" (fun _ => some 60) ∧
      ¬AccountsForBook twoCallsBook.trades none "paper_nifty_overlay" (fun _ => some 60) twoCallsBook.rows 739791 := by
  refine ⟨by decide +kernel, priced_sixty _, fun h => ?_⟩
  have hpnl : computePnl twoCallsBook.trades none (fun _ _ => some 60) "paper_nifty_overlay" =
      some (5200, 0, 5200) := by decide +kernel
  have hprinted : (overlaySummaryRow (computeOverlayLegTotals twoCallsBook.trades none "paper_nifty_overlay"
      fun _ => some 60)).map (·.overlayPnl) = some 2600 := by decide +kernel
  obtain ⟨row, hrow, htotal⟩ := h.overlay _ _ _ hpnl
  rw [hrow] at hprinted
  exact absurd (htotal.symm.trans (Option.some.inj hprinted)) (by norm_num)

/-- The equivalence with the short call alone. -/
theorem book_accounted_iff_shortCallBook :
    AccountsForBook shortCallBook.trades none "paper_nifty_overlay" (fun _ => some 60) shortCallBook.rows 739791 ↔
      ¬("overlay_collar_call" ∈ sortedRoles (shortCallBook.trades.getTrades "paper_nifty_overlay") ∧
        "overlay_cc" ∈ sortedRoles (shortCallBook.trades.getTrades "paper_nifty_overlay") ∧
        "overlay_collar_put" ∉ sortedRoles (shortCallBook.trades.getTrades "paper_nifty_overlay")) :=
  book_accounted_iff shortCallBook none 739791 (by decide +kernel) (priced_sixty _)

end NiftyShield.ThreeTrack.OverlayPnl
