import Mathlib.Data.Prod.Lex
import Mathlib.Tactic.NormNum
import NiftyShield.Lib.LatestFirst
import NiftyShield.Mvp.Backfill

/-!
# Overnight gaps

`match_split_factor` and `detect_overnight_gap` (`src/mvp/detection.py`): the first price of a day
is compared with the last price of the session before, and a ratio close to that of a usual split,
bonus or consolidation is reported. The watch calls it on the latest fifty snapshots of a pick
(`get_snapshots` of `src/mvp/store.py`).

## What is proved

* `matchSplitFactor_eq_some_iff`: the search for the closest factor finds the factor within the
  tolerance, of which there is at most one;
* `detectOvernightGap_getSnapshots`: on the latest snapshots the verdict is that on all of them
  as long as fewer than the limit are of the day itself, and `none` from then on;
* `detectOvernightGap_recorded`: once the price of a tick is recorded, the verdict of the day is
  the one of that tick, whatever the price is then.

## Honest scope

`Decimal` is exact rational, also in the targets `1 / factor`. A snapshot is stamped by its day
and the time of the day.
-/

namespace NiftyShield.Mvp

open NiftyShield.Lib

/-! ### The factor -/

/-- `GapMatch`. -/
structure GapMatch where
  /-- Old shares to new, or new to old. -/
  factor : ℚ
  /-- The price rose. -/
  reverse : Bool
  deriving DecidableEq

/-- `STANDARD_FACTORS`. -/
def standardFactors : List ℚ := [2, 3, 4, 5, 10, 3 / 2, 5 / 2]

/-- `TOLERANCE`. -/
def gapTolerance : ℚ := 3 / 100

/-- The ratio of a match. -/
def GapMatch.target (m : GapMatch) : ℚ := if m.reverse then m.factor else 1 / m.factor

/-- What is searched, in this order. -/
def gapCandidates : List GapMatch := standardFactors.flatMap fun f => [⟨f, false⟩, ⟨f, true⟩]

/-- How far a ratio is from that of a match. -/
def deviation (ratio : ℚ) (m : GapMatch) : ℚ := |ratio - m.target| / m.target

/-- One round of the search: a closer match within the tolerance replaces the best so far. -/
def closer (tolerance ratio : ℚ) (best : Option (ℚ × GapMatch)) (m : GapMatch) : Option (ℚ × GapMatch) :=
  if deviation ratio m ≤ tolerance ∧ best.all (fun b => deviation ratio m < b.1) then some (deviation ratio m, m) else best

/-- `match_split_factor`. -/
def matchSplitFactor (prevClose ltp tolerance : ℚ) : Option GapMatch :=
  if prevClose ≤ 0 ∨ ltp ≤ 0 then none
  else (gapCandidates.foldl (closer tolerance (ltp / prevClose)) none).map Prod.snd

/-- The ratio is that of the match, within the tolerance. -/
def Matches (ratio : ℚ) (m : GapMatch) : Prop :=
  m ∈ gapCandidates ∧ m.target * (1 - gapTolerance) ≤ ratio ∧ ratio ≤ m.target * (1 + gapTolerance)

theorem target_pos : ∀ m ∈ gapCandidates, 0 < m.target := by
  norm_num [gapCandidates, standardFactors, GapMatch.target]

theorem deviation_le_iff {ratio : ℚ} {m : GapMatch} (hm : m ∈ gapCandidates) :
    deviation ratio m ≤ gapTolerance ↔ Matches ratio m := by
  rw [deviation, div_le_iff₀ (target_pos m hm), abs_le, Matches]
  constructor
  · rintro ⟨hlow, hhigh⟩
    exact ⟨hm, by linarith, by linarith⟩
  · rintro ⟨-, hlow, hhigh⟩
    exact ⟨by linarith, by linarith⟩

/-- The bands around two targets are apart. -/
def Apart (m m' : GapMatch) : Prop :=
  m.target * (1 + gapTolerance) < m'.target * (1 - gapTolerance) ∨
    m'.target * (1 + gapTolerance) < m.target * (1 - gapTolerance)

instance : Std.Symm Apart := ⟨fun _ _ => Or.symm⟩

theorem gapCandidates_apart : gapCandidates.Pairwise Apart := by
  norm_num [gapCandidates, standardFactors, GapMatch.target, gapTolerance, Apart]

/-- No ratio matches two factors. -/
theorem matches_unique {ratio : ℚ} {m m' : GapMatch} (h : Matches ratio m) (h' : Matches ratio m') : m = m' := by
  by_contra hne
  obtain ⟨hm, hlow, hhigh⟩ := h
  obtain ⟨hm', hlow', hhigh'⟩ := h'
  rcases gapCandidates_apart.forall hm hm' hne with hlt | hlt
  · exact absurd (hlow'.trans hhigh) (not_le.mpr hlt)
  · exact absurd (hlow.trans hhigh') (not_le.mpr hlt)

/-- The search over some candidates finds the one that matches. -/
private theorem foldl_closer_eq_some_iff {ratio : ℚ} {m : GapMatch} : ∀ {l : List GapMatch}, l ⊆ gapCandidates →
    ((l.foldl (closer gapTolerance ratio) none).map Prod.snd = some m ↔ m ∈ l ∧ Matches ratio m) := by
  intro l
  induction l using List.reverseRecOn generalizing m with
  | nil => simp
  | append_singleton l last ih =>
    intro hsub
    have hlast : last ∈ gapCandidates := hsub (List.mem_append_right _ (List.mem_singleton_self _))
    have ih {m} := ih (m := m) fun x hx => hsub (List.mem_append_left _ hx)
    rw [List.foldl_append, List.foldl_cons, List.foldl_nil, closer, List.mem_append, List.mem_singleton]
    split
    next hcloser =>
      have hmatches := (deviation_le_iff hlast).mp hcloser.1
      rw [Option.map_some, Option.some.injEq]
      exact ⟨fun h => h ▸ ⟨Or.inr rfl, hmatches⟩, fun h => matches_unique hmatches h.2⟩
    next hnot =>
      rw [ih]
      refine ⟨fun h => ⟨Or.inl h.1, h.2⟩, fun ⟨hmem, hmatches⟩ => ⟨hmem.elim id fun heq => ?_, hmatches⟩⟩
      -- a match that is not taken up has been found before
      subst heq
      cases hbest : l.foldl (closer gapTolerance ratio) none with
      | none => exact absurd ⟨(deviation_le_iff hlast).mpr hmatches, by rw [hbest]; rfl⟩ hnot
      | some best =>
        have hfound := ih.mp (congrArg (Option.map Prod.snd) hbest)
        exact matches_unique hfound.2 hmatches ▸ hfound.1

/-- **The factor found** is the one that the ratio matches, of which there is at most one. -/
theorem matchSplitFactor_eq_some_iff {prevClose ltp : ℚ} {m : GapMatch} :
    matchSplitFactor prevClose ltp gapTolerance = some m ↔ 0 < prevClose ∧ 0 < ltp ∧ Matches (ltp / prevClose) m := by
  unfold matchSplitFactor
  split
  next hzero =>
    refine iff_of_false (by simp) fun ⟨hprev, hltp, _⟩ => ?_
    rcases hzero with hzero | hzero
    · exact absurd hzero (not_le.mpr hprev)
    · exact absurd hzero (not_le.mpr hltp)
  next hpos =>
    rw [not_or, not_le, not_le] at hpos
    rw [foldl_closer_eq_some_iff (List.Subset.refl _)]
    exact ⟨fun h => ⟨hpos.1, hpos.2, h.2⟩, fun h => ⟨h.2.2.1, h.2.2⟩⟩

/-! ### The verdict -/

/-- `captured_at`. -/
def MVPSnapshot.capturedAt (s : MVPSnapshot) : ℕ ×ₗ ℕ := toLex (s.day, s.time)

/-- The last snapshot of an earlier day. -/
def priorSnapshot (snapshots : List StoredSnapshot) (today : ℕ) : Option StoredSnapshot :=
  (snapshots.filter fun s => s.day < today).argmax fun s => s.capturedAt

/-- The action explains a gap since a day. -/
def CorporateAction.covers (a : CorporateAction) (prevDay today : ℕ) : Bool := prevDay < a.exDate ∧ a.exDate ≤ today

/-- `detect_overnight_gap`. -/
def detectOvernightGap (snapshots : List StoredSnapshot) (today : ℕ) (currentLtp : ℚ) (actions : List CorporateAction) :
    Option GapMatch :=
  match priorSnapshot snapshots today with
  | none => none
  | some prev =>
    if actions.any fun a => a.covers prev.day today then none
    else
      let openLtp := ((snapshots.filter fun s => s.day = today).argmin fun s => s.capturedAt).elim currentLtp (·.ltp)
      matchSplitFactor prev.ltp openLtp gapTolerance

namespace BackfillStore

variable (S : BackfillStore)

/-- The snapshots of a pick, latest first. -/
def history (pickId : String) : List StoredSnapshot :=
  (S.snapshots.filter fun s => s.pickId = pickId).insertionSort fun s s' =>
    s'.day < s.day ∨ (s'.day = s.day ∧ s'.time ≤ s.time)

/-- How many of them are of a day or later. -/
def countFrom (pickId : String) (day : ℕ) : ℕ := ((S.history pickId).filter fun s => day ≤ s.day).length

theorem getSnapshots_eq (pickId : String) (limit : ℕ) : S.getSnapshots pickId limit = (S.history pickId).take limit := rfl

end BackfillStore

theorem capturedAt_le_iff {s s' : StoredSnapshot} :
    s'.capturedAt ≤ s.capturedAt ↔ s'.day < s.day ∨ (s'.day = s.day ∧ s'.time ≤ s.time) := Prod.Lex.toLex_le_toLex

variable {S : BackfillStore} {pickId : String}

theorem latestFirst_history (S : BackfillStore) (pickId : String) :
    LatestFirst (fun s : StoredSnapshot => s.capturedAt) (S.history pickId) := by
  unfold LatestFirst BackfillStore.history
  simp only [← capturedAt_le_iff]
  have : Std.Total fun s s' : StoredSnapshot => s'.capturedAt ≤ s.capturedAt := ⟨fun s s' => le_total _ _⟩
  have : IsTrans StoredSnapshot fun s s' => s'.capturedAt ≤ s.capturedAt := ⟨fun _ _ _ h h' => h'.trans h⟩
  exact List.pairwise_insertionSort _ _

/-- The snapshots of earlier days are before a bound. -/
theorem isBefore_day (today : ℕ) :
    IsBefore (fun s : StoredSnapshot => s.capturedAt) fun s => decide (s.day < today) := by
  intro s s' hs hle
  rw [decide_eq_true_eq] at hs ⊢
  rcases capturedAt_le_iff.mp hle with hlt | ⟨heq, -⟩
  · exact hlt.trans hs
  · exact heq ▸ hs

theorem not_day_lt (today : ℕ) (s : StoredSnapshot) : (!decide (s.day < today)) = decide (today ≤ s.day) := by
  rw [← decide_not, decide_eq_decide]
  exact not_lt

section Latest

variable {S : BackfillStore} {pickId : String} {limit today : ℕ}

/-- The latest snapshots give the verdict of the history while they reach back to an earlier day. -/
theorem detectOvernightGap_of_countFrom_lt (hlt : S.countFrom pickId today < limit) (currentLtp : ℚ)
    (actions : List CorporateAction) :
    detectOvernightGap (S.getSnapshots pickId limit) today currentLtp actions =
      detectOvernightGap (S.history pickId) today currentLtp actions := by
  have hlatest := latestFirst_history S pickId
  rw [BackfillStore.countFrom] at hlt
  simp only [← not_day_lt today] at hlt
  obtain ⟨hprior, hfrom⟩ := hlatest.filter_take (isBefore_day today) hlt
  -- the last snapshot of an earlier day is still there, and all of the day
  have hprev : priorSnapshot ((S.history pickId).take limit) today = priorSnapshot (S.history pickId) today := by
    rw [priorSnapshot, hprior, ((hlatest.filter _).take _).argmax_eq_head?, List.head?_take,
      if_neg (Nat.sub_ne_zero_of_lt hlt), priorSnapshot, (hlatest.filter _).argmax_eq_head?]
  have hday : ∀ l : List StoredSnapshot, (l.filter fun s => s.day = today) =
      (l.filter fun s => !decide (s.day < today)).filter fun s => s.day = today := by
    intro l
    rw [List.filter_filter]
    exact List.filter_congr fun s _ => by by_cases h : s.day = today <;> simp [h]
  rw [BackfillStore.getSnapshots_eq]
  unfold detectOvernightGap
  rw [hprev, hday, hfrom, ← hday]

/-- From the limit on they are all of the day, and there is nothing to compare with. -/
theorem detectOvernightGap_of_le_countFrom (hle : limit ≤ S.countFrom pickId today) (currentLtp : ℚ)
    (actions : List CorporateAction) :
    detectOvernightGap (S.getSnapshots pickId limit) today currentLtp actions = none := by
  rw [BackfillStore.countFrom] at hle
  simp only [← not_day_lt today] at hle
  rw [BackfillStore.getSnapshots_eq, detectOvernightGap, priorSnapshot,
    (latestFirst_history S pickId).filter_take_of_le (isBefore_day today) hle]
  rfl

end Latest

/-- **The verdict on the latest snapshots** of a pick. -/
theorem detectOvernightGap_getSnapshots (S : BackfillStore) (pickId : String) (limit today : ℕ) (currentLtp : ℚ)
    (actions : List CorporateAction) :
    detectOvernightGap (S.getSnapshots pickId limit) today currentLtp actions =
      if S.countFrom pickId today < limit then detectOvernightGap (S.history pickId) today currentLtp actions else none := by
  split
  next hlt => exact detectOvernightGap_of_countFrom_lt hlt currentLtp actions
  next hle => exact detectOvernightGap_of_le_countFrom (not_lt.mp hle) currentLtp actions

/-- **The verdict of the day** once a price of the day is recorded. -/
theorem detectOvernightGap_recorded {s : StoredSnapshot} {l : List StoredSnapshot}
    (hlater : ∀ s' ∈ l, s'.capturedAt < s.capturedAt) (currentLtp : ℚ) (actions : List CorporateAction) :
    detectOvernightGap (s :: l) s.day currentLtp actions = detectOvernightGap l s.day s.ltp actions := by
  unfold detectOvernightGap priorSnapshot
  rw [List.filter_cons_of_neg (by simp), List.filter_cons_of_pos (by simp), List.argmin_cons]
  cases hmin : (l.filter fun s' => s'.day = s.day).argmin fun s' => s'.capturedAt with
  | none => rfl
  | some first =>
    have hfirst : first ∈ l := List.mem_of_mem_filter (List.argmin_mem hmin)
    simp only [if_pos (hlater first hfirst), Option.elim_some]

/-- An action that does not explain the gap changes nothing. -/
theorem detectOvernightGap_append {l : List StoredSnapshot} {today : ℕ} {actions : List CorporateAction} {a : CorporateAction}
    (h : ∀ prev ∈ priorSnapshot l today, a.covers prev.day today = false) (currentLtp : ℚ) :
    detectOvernightGap l today currentLtp (actions ++ [a]) = detectOvernightGap l today currentLtp actions := by
  unfold detectOvernightGap
  cases hprev : priorSnapshot l today with
  | none => rfl
  | some prev => simp [h prev hprev]

namespace BackfillStore

theorem history_recordSnapshot_of_ne {s : StoredSnapshot} (h : s.pickId ≠ pickId) :
    (S.recordSnapshot s).history pickId = S.history pickId := by
  rw [history, recordSnapshot, List.filter_append, List.filter_cons_of_neg (by simpa using h), List.filter_nil,
    List.append_nil, history]

/-- The latest snapshot of a pick. -/
theorem history_recordSnapshot {s : StoredSnapshot} (hlater : ∀ s' ∈ S.history s.pickId, s'.capturedAt < s.capturedAt) :
    (S.recordSnapshot s).history s.pickId = s :: S.history s.pickId := by
  rw [history, recordSnapshot, List.filter_append, List.filter_cons_of_pos (by simp), List.filter_nil]
  refine insertionSort_append_latest fun s' hs' hle => ?_
  have hlt := hlater s' ((List.mem_insertionSort _).mpr hs')
  exact absurd (capturedAt_le_iff.mpr hle) (not_le.mpr hlt)

end BackfillStore

end NiftyShield.Mvp
