import NiftyShield.Mvp.GapDetection

/-!
# The hourly watch

`run` of `scripts/mvp_watch.py`: the prices of the open picks are fetched, a snapshot is recorded for
each, and the picks whose price reached the restated target or stop (`check_prices` of
`src/mvp/tracker.py`) are closed. A pick whose overnight gap looks like a split is left out
(`_gap_interlock`), and a warning is sent. Of picks with one instrument key only the first is
watched.

## What is proved

* `gap_pauses_the_day`: from a tick that finds such a gap on, no later tick of the day closes
  the pick, whatever the prices, and the day's warning is sent once, or not at all if that tick
  fails;
* `exits_final_by_rule`: over any run of ticks, cut short or not, and of the commands in between,
  what closed a pick stays as it is, and a tick closes only an open pick without a gap, at the
  target or the stop that its price reaches.

## Honest scope

A tick that fails leaves the writes it has made, and sends nothing. What is sent besides the gap
warnings is left out.
-/

namespace NiftyShield.Mvp

open NiftyShield.Lib.Run

/-! ### A tick -/

/-- A tick of the watch. -/
structure Tick where
  /-- The day. -/
  today : ℕ
  /-- The time of the day. -/
  time : ℕ
  /-- `ltp_map`. -/
  ltp : String → Option ℚ
  /-- The time as it is written. -/
  now : String
  /-- The number of writes after which it fails, if it does. -/
  cut : Option ℕ := none

/-- What a tick writes. -/
inductive Write where
  /-- `record_snapshot`. -/
  | record (s : StoredSnapshot)
  /-- `close_pick`. -/
  | close (pickId : String) (price : ℚ) (status : PickStatus)

namespace Write

/-- The snapshot recorded. -/
def snapshot? : Write → Option StoredSnapshot
  | record s => some s
  | close _ _ _ => none

/-- The pick closed. -/
def closed? : Write → Option String
  | record _ => none
  | close pickId _ _ => some pickId

end Write

/-- A pick is watched unless it has no instrument key or one watched before has the same. -/
def keepFirst (keyed : List StoredPick) (p : StoredPick) : List StoredPick :=
  if p.instrumentKey.isNone ∨ keyed.any (fun q => q.instrumentKey = p.instrumentKey) then keyed else keyed ++ [p]

/-- The price of a pick. -/
def Tick.price (t : Tick) (p : StoredPick) : Option ℚ := p.instrumentKey.bind t.ltp

namespace BackfillStore

variable (S : BackfillStore) (t : Tick)

/-- `get_open_picks`. -/
def getOpenPicks : List StoredPick := S.picks.filter fun p => p.status = .opened

/-- `keyed_picks`. -/
def keyedPicks : List StoredPick := S.getOpenPicks.foldl keepFirst []

/-- The actions of a pick. -/
def actionsOf (p : StoredPick) : List CorporateAction := S.toStore.getCorporateActions p.symbol

/-- The match that `_gap_interlock` finds for a pick. -/
def gapOf (p : StoredPick) : Option GapMatch :=
  (MVPStore.liveLtp t.ltp p.toPick).bind fun ltp =>
    detectOvernightGap (S.getSnapshots p.pickId 50) t.today ltp (S.actionsOf p)

/-- The warnings of `_gap_interlock`: for a pick without a snapshot of the day. -/
def gapWarnings : List (String × GapMatch) :=
  S.keyedPicks.filterMap fun p =>
    (S.gapOf t p).bind fun m =>
      if (S.getSnapshots p.pickId 50).any fun s => s.day = t.today then none else some (p.pickId, m)

/-- The snapshot of a pick at a price. -/
def tickSnapshot (p : StoredPick) (ltp : ℚ) : StoredSnapshot := ⟨⟨p.pickId, ltp, t.today, t.time⟩, none⟩

/-- The exit of a pick that is not suppressed (`check_prices`). -/
def exitOf (p : StoredPick) : Option Write :=
  if (S.gapOf t p).isSome then none
  else
    (t.price p).bind fun ltp =>
      (Market.terminalStatus p.toPick (S.actionsOf p) t.today ltp).map (Write.close p.pickId ltp)

/-- What the tick writes, in order. -/
def tickWrites : List Write :=
  S.keyedPicks.filterMap (fun p => (t.price p).map fun ltp => .record (tickSnapshot t p ltp)) ++
    S.keyedPicks.filterMap (S.exitOf t)

/-- One write. -/
def write (w : Write) : BackfillStore :=
  match w with
  | .record s => S.recordSnapshot s
  | .close pickId price status => ((S.closePick pickId price status t.today t.now).map Prod.fst).getD S

/-- The writes up to the failure. -/
def writesDone : List Write :=
  match t.cut with
  | none => S.tickWrites t
  | some n => (S.tickWrites t).take n

/-- `run`. -/
def watch : BackfillStore := (S.writesDone t).foldl (fun S w => S.write t w) S

end BackfillStore

/-! ### The commands in between -/

/-- What happens to the picks, in any order. -/
inductive WatchEvent where
  /-- A tick. -/
  | tick (t : Tick)
  /-- `mvp update`. -/
  | update (u : UpdateArgs) (now : String)
  /-- `mvp close`. -/
  | closeByHand (pickId : String) (price : ℚ) (today : ℕ) (now : String)
  /-- `mvp corporate-action add`. -/
  | addAction (a : CorporateAction)
  /-- `mvp add`. -/
  | addPick (p : StoredPick)

/-- The tables, and the warnings sent with their days. -/
structure Watch where
  /-- The tables. -/
  store : BackfillStore
  /-- The warnings sent. -/
  warned : List (ℕ × String × GapMatch)

/-- The command `mvp update`: without fields there is nothing to update, and a failed update is
rolled back. -/
def BackfillStore.cliUpdate (S : BackfillStore) (u : UpdateArgs) (now : String) : BackfillStore :=
  if u.fields = {} then S else (S.updatePick u.pickId u.fields now).getD S

/-- The command `mvp close`. -/
def BackfillStore.cliClose (S : BackfillStore) (pickId : String) (price : ℚ) (today : ℕ) (now : String) : BackfillStore :=
  ((S.closePick pickId price .manualClose today now).map Prod.fst).getD S

/-- `add_corporate_action`: one action of a kind, symbol and day. -/
def BackfillStore.addCorporateAction (S : BackfillStore) (a : CorporateAction) : BackfillStore :=
  if S.corporateActions.any fun b => b.symbol = a.symbol ∧ b.exDate = a.exDate ∧ b.actionType = a.actionType then S
  else { S with corporateActions := S.corporateActions ++ [a] }

/-- `add_pick` of a pick that is not entered: its id is new. -/
def BackfillStore.addPick (S : BackfillStore) (p : StoredPick) : BackfillStore :=
  if h : p.pickId ∈ S.picks.map (·.pickId) then S
  else
    { S with
      picks := S.picks ++ [{ p with status := .pending }]
      pickIds_nodup := by
        rw [List.map_append, List.map_singleton]
        exact S.pickIds_nodup.append (List.nodup_singleton _) (by simpa using h) }

/-- One event. The warnings go out when all is written. -/
def watchStep (s : Watch) : WatchEvent → Watch
  | .tick t =>
    { store := s.store.watch t
      warned := if t.cut.isSome then s.warned else s.warned ++ (s.store.gapWarnings t).map (t.today, ·) }
  | .update u now => { s with store := s.store.cliUpdate u now }
  | .closeByHand pickId price today now => { s with store := s.store.cliClose pickId price today now }
  | .addAction a => { s with store := s.store.addCorporateAction a }
  | .addPick p => { s with store := s.store.addPick p }

/-! ### Who is watched -/

section Keyed

variable {S : BackfillStore} {p : StoredPick}

/-- Watched picks are some of those given. -/
theorem foldl_keepFirst (l : List StoredPick) : ∀ keyed : List StoredPick,
    ∃ kept, kept.Sublist l ∧ l.foldl keepFirst keyed = keyed ++ kept := by
  induction l with
  | nil => exact fun keyed => ⟨[], List.Sublist.slnil, (List.append_nil keyed).symm⟩
  | cons p l ih =>
    intro keyed
    rw [List.foldl_cons, keepFirst]
    split
    · obtain ⟨kept, hsub, heq⟩ := ih keyed
      exact ⟨kept, hsub.cons p, heq⟩
    · obtain ⟨kept, hsub, heq⟩ := ih (keyed ++ [p])
      exact ⟨p :: kept, hsub.cons_cons p, by rw [heq, List.append_assoc, List.singleton_append]⟩

theorem keyedPicks_sublist (S : BackfillStore) : S.keyedPicks.Sublist S.getOpenPicks := by
  obtain ⟨kept, hsub, heq⟩ := foldl_keepFirst S.getOpenPicks []
  rw [BackfillStore.keyedPicks, heq]
  exact hsub

theorem mem_keyedPicks (h : p ∈ S.keyedPicks) : p ∈ S.picks ∧ p.status = .opened := by
  simpa [BackfillStore.getOpenPicks] using (keyedPicks_sublist S).subset h

/-- A stored pick is found by its id. -/
theorem getPick_of_mem (h : p ∈ S.picks) : S.getPick p.pickId = some p := by
  cases hfind : S.getPick p.pickId with
  | none => exact absurd (List.find?_eq_none.mp hfind p h) (by simp)
  | some q =>
    rw [List.inj_on_of_nodup_map S.pickIds_nodup (List.mem_of_find?_eq_some hfind) h
      (BackfillStore.pickId_of_getPick hfind)]

/-- A watched pick is the row of its id. -/
theorem eq_of_mem_keyedPicks {row : StoredPick} (h : p ∈ S.keyedPicks) (hrow : S.getPick p.pickId = some row) : p = row :=
  Option.some.inj ((getPick_of_mem (mem_keyedPicks h).1).symm.trans hrow)

/-- Of the watched picks one has an id, if any has. -/
theorem filter_keyedPicks (h : p ∈ S.keyedPicks) : S.keyedPicks.filter (fun q => q.pickId = p.pickId) = [p] := by
  have hnodup : (S.keyedPicks.map (·.pickId)).Nodup :=
    S.pickIds_nodup.sublist (((keyedPicks_sublist S).trans List.filter_sublist).map _)
  refine List.perm_singleton.mp ((List.perm_ext_iff_of_nodup (hnodup.of_map _ |>.filter _) (List.nodup_singleton p)).mpr
    fun q => ?_)
  rw [List.mem_filter, decide_eq_true_eq, List.mem_singleton]
  constructor
  · rintro ⟨hq, hid⟩
    exact List.inj_on_of_nodup_map hnodup hq h hid
  · rintro rfl
    exact ⟨h, rfl⟩

end Keyed

/-! ### What a tick does -/

section Effect

variable {S : BackfillStore} {t : Tick} {pickId : String}

/-- Closing a pick writes its row, if there is one. -/
theorem closePick_cases (S : BackfillStore) (pickId : String) (price : ℚ) (status : PickStatus) (asOf : ℕ) (now : String) :
    ((S.closePick pickId price status asOf now).map Prod.fst).getD S = S ∨
      ∃ row realized, S.getPick pickId = some row ∧ MVPStore.isTerminal status = true ∧
        ((S.closePick pickId price status asOf now).map Prod.fst).getD S = S.setPick (row.closed price status realized now) := by
  unfold BackfillStore.closePick
  split
  next hterminal =>
    cases hrow : S.getPick pickId with
    | none => exact Or.inl rfl
    | some row => exact Or.inr ⟨row, _, rfl, hterminal, rfl⟩
  next => exact Or.inl rfl

/-- The other rows stay. -/
theorem getPick_setPick_of_ne {row : StoredPick} (h : pickId ≠ row.pickId) : (S.setPick row).getPick pickId = S.getPick pickId := by
  have hsame : ((fun p : StoredPick => decide (p.pickId = pickId)) ∘
      fun p => if p.pickId = row.pickId then row else p) = fun p => decide (p.pickId = pickId) := by
    funext p
    rw [Function.comp_apply]
    split
    next hp => simp [hp]
    next => rfl
  rw [BackfillStore.getPick, BackfillStore.setPick, List.find?_map, hsame, ← BackfillStore.getPick]
  cases hpick : S.getPick pickId with
  | none => rfl
  | some p => rw [Option.map_some, if_neg fun hid => h ((BackfillStore.pickId_of_getPick hpick).symm.trans hid)]

/-- What a write leaves alone. -/
theorem write_frame (S : BackfillStore) (t : Tick) (w : Write) :
    (S.write t w).snapshots = S.snapshots ++ w.snapshot?.toList ∧ (S.write t w).corporateActions = S.corporateActions ∧
      ∀ pickId, w.closed? ≠ some pickId → (S.write t w).getPick pickId = S.getPick pickId := by
  cases w with
  | record s => exact ⟨rfl, rfl, fun _ _ => rfl⟩
  | close closedId price status =>
    rw [BackfillStore.write]
    rcases closePick_cases S closedId price status t.today t.now with heq | ⟨row, realized, hrow, -, heq⟩
    · rw [heq]
      exact ⟨(List.append_nil _).symm, rfl, fun _ _ => rfl⟩
    · rw [heq]
      refine ⟨(List.append_nil _).symm, rfl, fun pickId hne => getPick_setPick_of_ne fun hid => hne ?_⟩
      have hclosed : row.pickId = closedId := BackfillStore.pickId_of_getPick hrow
      rw [Write.closed?, hid]
      exact congrArg some hclosed.symm

theorem writes_frame (t : Tick) : ∀ (ws : List Write) (S : BackfillStore),
    (ws.foldl (fun S w => S.write t w) S).snapshots = S.snapshots ++ ws.filterMap Write.snapshot? ∧
      (ws.foldl (fun S w => S.write t w) S).corporateActions = S.corporateActions ∧
      ∀ pickId, (∀ w ∈ ws, w.closed? ≠ some pickId) →
        (ws.foldl (fun S w => S.write t w) S).getPick pickId = S.getPick pickId
  | [], S => ⟨(List.append_nil _).symm, rfl, fun _ _ => rfl⟩
  | w :: ws, S => by
    obtain ⟨hsnapshots, hactions, hpicks⟩ := writes_frame t ws (S.write t w)
    obtain ⟨hsnapshots', hactions', hpicks'⟩ := write_frame S t w
    rw [List.foldl_cons]
    refine ⟨?_, hactions.trans hactions', fun pickId hne => ?_⟩
    · rw [hsnapshots, hsnapshots', List.append_assoc]
      cases hsnap : w.snapshot? <;> simp [hsnap]
    · rw [hpicks pickId fun w' hw' => hne w' (List.mem_cons_of_mem w hw'), hpicks' pickId (hne w List.mem_cons_self)]

/-- The writes done are the first ones. -/
theorem writesDone_prefix_tickWrites (S : BackfillStore) (t : Tick) : S.writesDone t <+: S.tickWrites t := by
  unfold BackfillStore.writesDone
  split
  · exact List.prefix_rfl
  · exact List.take_prefix _ _

/-- A pick is closed by its exit. -/
theorem exitOf_of_mem_writesDone {w : Write} (hw : w ∈ S.writesDone t) (hclosed : w.closed? = some pickId) :
    ∃ p ∈ S.keyedPicks, p.pickId = pickId ∧ S.exitOf t p = some w := by
  rcases List.mem_append.mp ((writesDone_prefix_tickWrites S t).subset hw) with hrecord | hexit
  · obtain ⟨p, -, hp⟩ := List.mem_filterMap.mp hrecord
    obtain ⟨ltp, -, rfl⟩ := Option.map_eq_some_iff.mp hp
    exact absurd hclosed (by simp [Write.closed?])
  · obtain ⟨p, hp, hexit⟩ := List.mem_filterMap.mp hexit
    refine ⟨p, hp, ?_, hexit⟩
    unfold BackfillStore.exitOf at hexit
    split at hexit
    · exact absurd hexit (by simp)
    · obtain ⟨ltp, -, hstatus⟩ := Option.bind_eq_some_iff.mp hexit
      obtain ⟨status, -, rfl⟩ := Option.map_eq_some_iff.mp hstatus
      exact Option.some.inj hclosed

/-- A pick without an exit stays. -/
theorem getPick_watch_of_no_exit {row : StoredPick} (hrow : S.getPick pickId = some row)
    (hexit : row ∈ S.keyedPicks → S.exitOf t row = none) : (S.watch t).getPick pickId = some row := by
  rw [BackfillStore.watch, (writes_frame t _ S).2.2 pickId, hrow]
  intro w hw hclosed
  obtain ⟨p, hp, rfl, hsome⟩ := exitOf_of_mem_writesDone hw hclosed
  obtain rfl := eq_of_mem_keyedPicks hp hrow
  rw [hexit hp] at hsome
  exact absurd hsome (by simp)

/-- The snapshots a tick records. -/
theorem filterMap_snapshot_tickWrites (S : BackfillStore) (t : Tick) :
    (S.tickWrites t).filterMap Write.snapshot? =
      S.keyedPicks.filterMap fun p => (t.price p).map (BackfillStore.tickSnapshot t p) := by
  have hexits : (S.keyedPicks.filterMap (S.exitOf t)).filterMap Write.snapshot? = [] := by
    rw [List.filterMap_filterMap, List.filterMap_eq_nil_iff]
    intro p _
    unfold BackfillStore.exitOf
    split
    · rfl
    · cases hprice : t.price p with
      | none => rfl
      | some ltp =>
        cases hstatus : Market.terminalStatus p.toPick (S.actionsOf p) t.today ltp <;> simp [hstatus, Write.snapshot?]
  rw [BackfillStore.tickWrites, List.filterMap_append, hexits, List.append_nil, List.filterMap_filterMap]
  refine List.filterMap_congr fun p _ => ?_
  cases hprice : t.price p <;> rfl

/-- What the watched picks give, by pick. -/
theorem filter_filterMap_keyedPicks {β : Type} {f : StoredPick → Option β} {key : β → String}
    (hf : ∀ q b, f q = some b → key b = q.pickId) {p : StoredPick} (hp : p ∈ S.keyedPicks) :
    (S.keyedPicks.filterMap f).filter (fun b => key b = p.pickId) = (f p).toList := by
  have hkey : ∀ q, (f q).filter (fun b => decide (key b = p.pickId)) =
      if decide (q.pickId = p.pickId) = true then f q else none := by
    intro q
    cases hq : f q with
    | none => simp
    | some b => simp [Option.filter_some, hf q b hq]
  rw [List.filter_filterMap, List.filterMap_congr fun q _ => hkey q, ← List.filterMap_filter, filter_keyedPicks hp]
  cases hfp : f p <;> simp [hfp]

/-- The snapshots of one pick. -/
theorem filter_tickSnapshots {p : StoredPick} (hp : p ∈ S.keyedPicks) :
    ((S.tickWrites t).filterMap Write.snapshot?).filter (fun s => s.pickId = p.pickId) =
      ((t.price p).map (BackfillStore.tickSnapshot t p)).toList := by
  rw [filterMap_snapshot_tickWrites]
  refine filter_filterMap_keyedPicks (fun q s hs => ?_) hp
  obtain ⟨ltp, -, rfl⟩ := Option.map_eq_some_iff.mp hs
  rfl

theorem history_congr {S' : BackfillStore}
    (h : S'.snapshots.filter (fun s => s.pickId = pickId) = S.snapshots.filter fun s => s.pickId = pickId) :
    S'.history pickId = S.history pickId := by
  rw [BackfillStore.history, h, BackfillStore.history]

/-- A snapshot that a tick records, being the latest, comes first. -/
theorem history_watch_of_records {p : StoredPick} {ltp : ℚ}
    (hlater : ∀ s ∈ S.history p.pickId, s.capturedAt < toLex (t.today, t.time))
    (h : ((S.writesDone t).filterMap Write.snapshot?).filter (fun s => s.pickId = p.pickId) = [BackfillStore.tickSnapshot t p ltp]) :
    (S.watch t).history p.pickId = BackfillStore.tickSnapshot t p ltp :: S.history p.pickId := by
  refine (history_congr ?_).trans (BackfillStore.history_recordSnapshot (s := BackfillStore.tickSnapshot t p ltp) hlater)
  rw [BackfillStore.watch, (writes_frame t _ S).1, List.filter_append, h, BackfillStore.recordSnapshot, List.filter_append,
    List.filter_cons_of_pos (by simp [BackfillStore.tickSnapshot]), List.filter_nil]

/-- A tick records at most one snapshot of a pick, at its price. -/
theorem history_watch (S : BackfillStore) (t : Tick) (pickId : String)
    (hlater : ∀ s ∈ S.history pickId, s.capturedAt < toLex (t.today, t.time)) :
    (S.watch t).history pickId = S.history pickId ∨
      ∃ p ∈ S.keyedPicks, p.pickId = pickId ∧ ∃ ltp, t.price p = some ltp ∧
        (S.watch t).history pickId = BackfillStore.tickSnapshot t p ltp :: S.history pickId := by
  have hsnapshots : (S.watch t).snapshots = S.snapshots ++ (S.writesDone t).filterMap Write.snapshot? := (writes_frame t _ S).1
  have hnone (h : ((S.writesDone t).filterMap Write.snapshot?).filter (fun s => s.pickId = pickId) = []) :
      (S.watch t).history pickId = S.history pickId :=
    history_congr (by rw [hsnapshots, List.filter_append, h, List.append_nil])
  have hprefix : ((S.writesDone t).filterMap Write.snapshot?).filter (fun s => s.pickId = pickId) <+:
      ((S.tickWrites t).filterMap Write.snapshot?).filter fun s => s.pickId = pickId :=
    ((writesDone_prefix_tickWrites S t).filterMap _).filter _
  by_cases hkeyed : ∃ p ∈ S.keyedPicks, p.pickId = pickId
  · obtain ⟨p, hp, rfl⟩ := hkeyed
    rw [filter_tickSnapshots hp] at hprefix
    cases hprice : t.price p with
    | none =>
      rw [hprice] at hprefix
      exact Or.inl (hnone (List.prefix_nil.mp hprefix))
    | some ltp =>
      rw [hprice] at hprefix
      rcases List.prefix_cons_iff.mp hprefix with hnil | ⟨rest, heq, hrest⟩
      · exact Or.inl (hnone hnil)
      · rw [List.prefix_nil.mp hrest] at heq
        exact Or.inr ⟨p, hp, rfl, ltp, hprice, history_watch_of_records hlater heq⟩
  · refine Or.inl (hnone (List.prefix_nil.mp ?_))
    have hnil : ((S.tickWrites t).filterMap Write.snapshot?).filter (fun s => s.pickId = pickId) = [] := by
      rw [filterMap_snapshot_tickWrites, List.filter_eq_nil_iff]
      intro s hs hid
      obtain ⟨p, hp, hprice⟩ := List.mem_filterMap.mp hs
      obtain ⟨ltp, -, rfl⟩ := Option.map_eq_some_iff.mp hprice
      exact hkeyed ⟨p, hp, of_decide_eq_true hid⟩
    rwa [hnil] at hprefix

end Effect

/-! ### A gap over the day -/

section Gap

variable {S : BackfillStore} {p : StoredPick} {t : Tick} {d : ℕ} {m : GapMatch}

/-- With a snapshot of the day the live price does not matter. -/
theorem detectOvernightGap_sampled {l : List StoredSnapshot} (h : ∃ s ∈ l, s.day = d) (ltp ltp' : ℚ)
    (actions : List CorporateAction) : detectOvernightGap l d ltp actions = detectOvernightGap l d ltp' actions := by
  unfold detectOvernightGap
  cases hmin : (l.filter fun s => s.day = d).argmin fun s => s.capturedAt with
  | none =>
    obtain ⟨s, hs, hday⟩ := h
    rw [List.argmin_eq_none, List.filter_eq_nil_iff] at hmin
    exact absurd hday (by simpa using hmin s hs)
  | some first => rfl

/-- The latest fifty hold all snapshots of the day, if there are fewer. -/
theorem mem_getSnapshots_of_count {pickId : String} (hcount : S.countFrom pickId d < 50) {s : StoredSnapshot}
    (hs : s ∈ S.history pickId) (hday : d ≤ s.day) : s ∈ S.getSnapshots pickId 50 := by
  have hlt : ((S.history pickId).filter fun s => !decide (s.day < d)).length < 50 := by
    simp only [not_day_lt]
    exact hcount
  have hmem : s ∈ ((S.history pickId).take 50).filter fun s => !decide (s.day < d) := by
    rw [((latestFirst_history S pickId).filter_take (isBefore_day d) hlt).2]
    exact List.mem_filter.mpr ⟨hs, by simp [hday]⟩
  exact (List.mem_filter.mp hmem).1

/-- The gap that is found at a price, as long as fewer than fifty snapshots are of the day. -/
theorem gapOf_eq (hcount : S.countFrom p.pickId t.today < 50) {ltp : ℚ} (hltp : MVPStore.liveLtp t.ltp p.toPick = some ltp) :
    S.gapOf t p = detectOvernightGap (S.history p.pickId) t.today ltp (S.actionsOf p) := by
  rw [BackfillStore.gapOf, hltp, Option.bind_some, detectOvernightGap_of_countFrom_lt hcount]

/-- A gap is found at a live price, which is the price of the pick. -/
theorem exists_ltp_of_gapOf (h : S.gapOf t p = some m) :
    p.instrumentKey ≠ some "" ∧ ∃ ltp, t.price p = some ltp ∧ MVPStore.liveLtp t.ltp p.toPick = some ltp ∧
      S.countFrom p.pickId t.today < 50 ∧ detectOvernightGap (S.history p.pickId) t.today ltp (S.actionsOf p) = some m := by
  obtain ⟨ltp, hltp, hgap⟩ := Option.bind_eq_some_iff.mp h
  rcases lt_or_ge (S.countFrom p.pickId t.today) 50 with hcount | hcount
  · rw [detectOvernightGap_of_countFrom_lt hcount] at hgap
    unfold MVPStore.liveLtp at hltp
    split at hltp
    · exact absurd hltp (by simp)
    next key hkey =>
      split at hltp
      · exact absurd hltp (by simp)
      next hne =>
        refine ⟨fun h => hne (Option.some.inj (hkey.symm.trans h)), ltp, ?_, ?_, hcount, hgap⟩
        · rw [Tick.price, hkey, Option.bind_some, hltp]
        · rw [MVPStore.liveLtp, hkey]
          simp only [if_neg hne, hltp]
  · exact absurd hgap (by rw [detectOvernightGap_of_le_countFrom hcount]; simp)

theorem liveLtp_of_price (hkey : p.instrumentKey ≠ some "") {ltp : ℚ} (hprice : t.price p = some ltp) :
    MVPStore.liveLtp t.ltp p.toPick = some ltp := by
  obtain ⟨key, hkey', hltp⟩ := Option.bind_eq_some_iff.mp hprice
  rw [MVPStore.liveLtp, hkey']
  simp only [hltp, if_neg fun h : key = "" => hkey (h ▸ hkey')]

/-- The pick of a gap, over the rest of the day. -/
structure Paused (p : StoredPick) (d : ℕ) (m : GapMatch) (S : BackfillStore) : Prop where
  /-- It is open, unless it was closed by hand. -/
  row : ∃ row, S.getPick p.pickId = some row ∧ row.symbol = p.symbol ∧ row.instrumentKey = p.instrumentKey ∧
    (row.status = .opened ∨ row.status = .manualClose)
  /-- A price of the day is recorded. -/
  sampled : ∃ s ∈ S.history p.pickId, s.day = d
  /-- The verdict stands, whatever the price. -/
  verdict : ∀ ltp, detectOvernightGap (S.history p.pickId) d ltp (S.actionsOf p) = some m

/-- Events of the day: ticks come one after the other, fewer than fifty of them, and no action is
recorded that explains the gap. -/
def OnDay (p : StoredPick) (d : ℕ) (s : Watch) : WatchEvent → Prop
  | .tick t => t.today = d ∧ (∀ snap ∈ s.store.history p.pickId, snap.capturedAt < toLex (d, t.time)) ∧
      s.store.countFrom p.pickId d < 50
  | .addAction a => a.symbol = p.symbol.toUpper →
      ∀ prev ∈ priorSnapshot (s.store.history p.pickId) d, a.covers prev.day d = false
  | _ => True

/-- A paused pick has no exit. -/
theorem Paused.exitOf_eq_none (h : Paused p d m S) (hkey : p.instrumentKey ≠ some "") (hday : t.today = d)
    (hcount : S.countFrom p.pickId d < 50) {row : StoredPick} (hrow : S.getPick p.pickId = some row) :
    S.exitOf t row = none := by
  obtain ⟨row', hrow', hsymbol, hkey', -⟩ := h.row
  obtain rfl := Option.some.inj (hrow'.symm.trans hrow)
  have hid : row'.pickId = p.pickId := BackfillStore.pickId_of_getPick hrow
  unfold BackfillStore.exitOf
  cases hprice : t.price row' with
  | none => split <;> rfl
  | some ltp =>
    have hgap : S.gapOf t row' = some m := by
      rw [gapOf_eq (by rwa [hid, hday]) (liveLtp_of_price (by rwa [hkey']) hprice), hid, hday,
        show S.actionsOf row' = S.actionsOf p by rw [BackfillStore.actionsOf, hsymbol, BackfillStore.actionsOf]]
      exact h.verdict ltp
    rw [hgap]
    rfl

/-- The warning of the day is not sent again. -/
theorem Paused.not_warned (h : Paused p d m S) (hday : t.today = d) (hcount : S.countFrom p.pickId d < 50) :
    ∀ w ∈ S.gapWarnings t, w.1 ≠ p.pickId := by
  intro w hw hid
  obtain ⟨q, -, hq⟩ := List.mem_filterMap.mp hw
  obtain ⟨m', -, hwarn⟩ := Option.bind_eq_some_iff.mp hq
  split at hwarn
  · exact absurd hwarn (by simp)
  next hnone =>
    obtain rfl := Option.some.inj hwarn
    obtain ⟨s, hs, hsday⟩ := h.sampled
    refine hnone (List.any_eq_true.mpr ⟨s, ?_, by simp [hsday, hday]⟩)
    rw [show q.pickId = p.pickId from hid]
    exact mem_getSnapshots_of_count hcount hs hsday.ge

theorem actionsOf_watch (S : BackfillStore) (t : Tick) (p : StoredPick) : (S.watch t).actionsOf p = S.actionsOf p := by
  rw [BackfillStore.actionsOf, MVPStore.getCorporateActions, BackfillStore.toStore, BackfillStore.watch,
    (writes_frame t _ S).2.1]
  rfl

/-- After another tick of the day. -/
theorem Paused.watch (h : Paused p d m S) (hkey : p.instrumentKey ≠ some "") (hday : t.today = d)
    (hlater : ∀ s ∈ S.history p.pickId, s.capturedAt < toLex (d, t.time)) (hcount : S.countFrom p.pickId d < 50) :
    Paused p d m (S.watch t) where
  row := by
    obtain ⟨row, hrow, hfacts⟩ := h.row
    exact ⟨row, getPick_watch_of_no_exit hrow fun _ => h.exitOf_eq_none hkey hday hcount hrow, hfacts⟩
  sampled := by
    obtain ⟨s, hs, hsday⟩ := h.sampled
    rcases history_watch S t p.pickId (by rwa [hday]) with hsame | ⟨q, -, -, ltp, -, hcons⟩
    · exact ⟨s, hsame ▸ hs, hsday⟩
    · exact ⟨s, hcons ▸ List.mem_cons_of_mem _ hs, hsday⟩
  verdict := by
    intro ltp
    rw [actionsOf_watch]
    rcases history_watch S t p.pickId (by rwa [hday]) with hsame | ⟨q, -, -, x, -, hcons⟩
    · rw [hsame]
      exact h.verdict ltp
    · have hlater' : ∀ s ∈ S.history p.pickId, s.capturedAt < (BackfillStore.tickSnapshot t q x).capturedAt := by
        intro s hs
        rw [MVPSnapshot.capturedAt, BackfillStore.tickSnapshot, hday]
        exact hlater s hs
      have hrecorded := detectOvernightGap_recorded hlater' ltp (S.actionsOf p)
      rw [show (BackfillStore.tickSnapshot t q x).day = d from hday] at hrecorded
      rw [hcons, hrecorded]
      exact h.verdict x

/-- A change of rows that keeps those of a pick's symbol, key and kind of status. -/
theorem Paused.ofRow (h : Paused p d m S) {S' : BackfillStore} (hsnapshots : S'.snapshots = S.snapshots)
    (hactions : S'.corporateActions = S.corporateActions)
    (hrow : ∀ row, S.getPick p.pickId = some row → ∃ row', S'.getPick p.pickId = some row' ∧ row'.symbol = row.symbol ∧
      row'.instrumentKey = row.instrumentKey ∧ (row'.status = row.status ∨ row'.status = .manualClose)) : Paused p d m S' := by
  have hhistory : S'.history p.pickId = S.history p.pickId := history_congr (by rw [hsnapshots])
  refine ⟨?_, hhistory ▸ h.sampled, fun ltp => ?_⟩
  · obtain ⟨row, hget, hsymbol, hkey, hstatus⟩ := h.row
    obtain ⟨row', hget', hsymbol', hkey', hstatus'⟩ := hrow row hget
    refine ⟨row', hget', hsymbol'.trans hsymbol, hkey'.trans hkey, ?_⟩
    rcases hstatus' with heq | hmanual
    · exact heq ▸ hstatus
    · exact Or.inr hmanual
  · have hactions' : S'.actionsOf p = S.actionsOf p := by
      rw [BackfillStore.actionsOf, MVPStore.getCorporateActions, BackfillStore.toStore, hactions]
      rfl
    rw [hhistory, hactions']
    exact h.verdict ltp

end Gap

/-! ### The commands -/

section Commands

variable {S : BackfillStore} {pickId : String} {row : StoredPick}

/-- An update from the command line writes one row, if it does anything. -/
theorem cliUpdate_cases (S : BackfillStore) (u : UpdateArgs) (now : String) :
    S.cliUpdate u now = S ∨ ∃ found q, S.getPick u.pickId = some found ∧ found.toPickRow.update u.fields now = some q ∧
      S.cliUpdate u now = S.setPick { found with toPickRow := q } := by
  unfold BackfillStore.cliUpdate BackfillStore.updatePick
  split
  · exact Or.inl rfl
  cases hfound : S.getPick u.pickId with
  | none => exact Or.inl rfl
  | some found =>
    simp only
    cases hupdate : found.toPickRow.update u.fields now with
    | none => exact Or.inl rfl
    | some q => exact Or.inr ⟨found, q, rfl, hupdate, rfl⟩

theorem cliUpdate_frame (S : BackfillStore) (u : UpdateArgs) (now : String) :
    (S.cliUpdate u now).snapshots = S.snapshots ∧ (S.cliUpdate u now).corporateActions = S.corporateActions := by
  rcases cliUpdate_cases S u now with h | ⟨found, q, -, -, h⟩ <;> rw [h] <;> exact ⟨rfl, rfl⟩

/-- What an update from the command line leaves of a row. -/
structure UpdateKeeps (row row' : StoredPick) : Prop where
  /-- The symbol. -/
  symbol : row'.symbol = row.symbol
  /-- The instrument key. -/
  instrumentKey : row'.instrumentKey = row.instrumentKey
  /-- The close. -/
  closedAt : row'.closedAt = row.closedAt
  /-- Its price. -/
  closePrice : row'.closePrice = row.closePrice
  /-- What was made. -/
  realizedPnl : row.status ≠ .pending → row'.realizedPnl = row.realizedPnl
  /-- The status, unless it was PENDING. -/
  status : row.status ≠ .pending → row'.status = row.status

theorem UpdateKeeps.refl (row : StoredPick) : UpdateKeeps row row := ⟨rfl, rfl, rfl, rfl, fun _ => rfl, fun _ => rfl⟩

theorem updateKeeps_of_update {found : StoredPick} {u : UpdateArgs} {now : String} {q : PickRow}
    (h : found.toPickRow.update u.fields now = some q) : UpdateKeeps found { found with toPickRow := q } := by
  unfold PickRow.update at h
  split at h
  next price hprice =>
    split at h
    next hpending =>
      split at h
      · exact absurd h (by simp)
      · obtain rfl := Option.some.inj h
        exact ⟨rfl, rfl, rfl, rfl, fun hne => absurd hpending hne, fun hne => absurd hpending hne⟩
    next =>
      obtain rfl := Option.some.inj h
      exact ⟨rfl, rfl, rfl, rfl, fun _ => rfl, fun _ => rfl⟩
  next =>
    obtain rfl := Option.some.inj h
    exact ⟨rfl, rfl, rfl, rfl, fun _ => rfl, fun _ => rfl⟩

/-- The row of an id after a row is written. -/
theorem getPick_setPick_cases {found new : StoredPick} (hfound : S.getPick new.pickId = some found)
    (hrow : S.getPick pickId = some row) :
    (S.setPick new).getPick pickId = some row ∨ (row = found ∧ (S.setPick new).getPick pickId = some new) := by
  by_cases hid : pickId = new.pickId
  · subst hid
    exact Or.inr ⟨Option.some.inj (hrow.symm.trans hfound), BackfillStore.getPick_setPick new hfound⟩
  · exact Or.inl ((getPick_setPick_of_ne hid).trans hrow)

theorem exists_getPick_cliUpdate (hrow : S.getPick pickId = some row) (u : UpdateArgs) (now : String) :
    ∃ row', (S.cliUpdate u now).getPick pickId = some row' ∧ UpdateKeeps row row' := by
  rcases cliUpdate_cases S u now with h | ⟨found, q, hfound, hupdate, h⟩
  · exact ⟨row, (congrArg (fun S' : BackfillStore => S'.getPick pickId) h).trans hrow, UpdateKeeps.refl row⟩
  · have hid : q.pickId = u.pickId := (pickId_update hupdate).trans (BackfillStore.pickId_of_getPick hfound)
    rw [h]
    rcases @getPick_setPick_cases _ _ _ _ { found with toPickRow := q } (hid ▸ hfound) hrow with hsame | ⟨rfl, hnew⟩
    · exact ⟨row, hsame, UpdateKeeps.refl row⟩
    · exact ⟨_, hnew, updateKeeps_of_update hupdate⟩

/-- Closing by hand writes a row, if there is one. -/
theorem exists_getPick_cliClose (hrow : S.getPick pickId = some row) (closedId : String) (price : ℚ) (today : ℕ)
    (now : String) : (S.cliClose closedId price today now).getPick pickId = some row ∨
      ∃ realized, pickId = closedId ∧
        (S.cliClose closedId price today now).getPick pickId = some (row.closed price .manualClose realized now) := by
  rcases closePick_cases S closedId price .manualClose today now with h | ⟨found, realized, hfound, -, h⟩
  · exact Or.inl ((congrArg (fun S' : BackfillStore => S'.getPick pickId) h).trans hrow)
  · have hid : found.pickId = closedId := BackfillStore.pickId_of_getPick hfound
    rw [BackfillStore.cliClose, h]
    rcases @getPick_setPick_cases _ _ _ _ (found.closed price .manualClose realized now) (hid ▸ hfound) hrow with
      hsame | ⟨rfl, hnew⟩
    · exact Or.inl hsame
    · exact Or.inr ⟨realized, (BackfillStore.pickId_of_getPick hrow).symm.trans hid, hnew⟩

theorem cliClose_frame (S : BackfillStore) (pickId : String) (price : ℚ) (today : ℕ) (now : String) :
    (S.cliClose pickId price today now).snapshots = S.snapshots ∧
      (S.cliClose pickId price today now).corporateActions = S.corporateActions := by
  rw [BackfillStore.cliClose]
  rcases closePick_cases S pickId price .manualClose today now with h | ⟨row, realized, -, -, h⟩ <;> rw [h] <;>
    exact ⟨rfl, rfl⟩

/-- A new pick hides no other. -/
theorem getPick_addPick (hrow : S.getPick pickId = some row) (p : StoredPick) : (S.addPick p).getPick pickId = some row := by
  unfold BackfillStore.addPick
  split
  · exact hrow
  · rw [BackfillStore.getPick, List.find?_append]
    rw [BackfillStore.getPick] at hrow
    rw [hrow, Option.some_or]

theorem addPick_frame (S : BackfillStore) (p : StoredPick) :
    (S.addPick p).snapshots = S.snapshots ∧ (S.addPick p).corporateActions = S.corporateActions := by
  unfold BackfillStore.addPick
  split <;> exact ⟨rfl, rfl⟩

end Commands

/-! ### The day of a gap -/

section Day

variable {S : BackfillStore} {p : StoredPick} {t : Tick} {d : ℕ} {m : GapMatch}

/-- Every event of the day leaves the pick paused. -/
theorem Paused.step {s : Watch} {ev : WatchEvent} (h : Paused p d m s.store) (hkey : p.instrumentKey ≠ some "")
    (hday : OnDay p d s ev) : Paused p d m (watchStep s ev).store := by
  cases ev with
  | tick t => exact h.watch hkey hday.1 hday.2.1 hday.2.2
  | update u now =>
    refine h.ofRow (cliUpdate_frame _ u now).1 (cliUpdate_frame _ u now).2 fun row hrow => ?_
    obtain ⟨row', hrow', hkeeps⟩ := exists_getPick_cliUpdate hrow u now
    refine ⟨row', hrow', hkeeps.symbol, hkeeps.instrumentKey, Or.inl (hkeeps.status fun hpending => ?_)⟩
    obtain ⟨row'', hrow'', -, -, hopen⟩ := h.row
    obtain rfl := Option.some.inj (hrow''.symm.trans hrow)
    rcases hopen with hopen | hopen <;> exact absurd (hopen.symm.trans hpending) (by decide)
  | closeByHand pickId price today now =>
    refine h.ofRow (cliClose_frame _ pickId price today now).1 (cliClose_frame _ pickId price today now).2 fun row hrow => ?_
    rcases exists_getPick_cliClose hrow pickId price today now with hsame | ⟨realized, -, hclosed⟩
    · exact ⟨row, hsame, rfl, rfl, Or.inl rfl⟩
    · exact ⟨_, hclosed, rfl, rfl, Or.inr rfl⟩
  | addAction a =>
    rw [watchStep, BackfillStore.addCorporateAction]
    split
    · exact h
    · refine ⟨h.row, h.sampled, fun ltp => ?_⟩
      have hactions : ({ s.store with corporateActions := s.store.corporateActions ++ [a] } : BackfillStore).actionsOf p =
          s.store.actionsOf p ++ if a.symbol = p.symbol.toUpper then [a] else [] := by
        rw [BackfillStore.actionsOf, MVPStore.getCorporateActions, BackfillStore.toStore, List.filter_append]
        congr 1
        by_cases hsymbol : a.symbol = p.symbol.toUpper <;> simp [hsymbol]
      show detectOvernightGap (s.store.history p.pickId) d ltp _ = some m
      rw [hactions]
      split
      next hsymbol => exact (detectOvernightGap_append (hday hsymbol) ltp).trans (h.verdict ltp)
      next => rw [List.append_nil]; exact h.verdict ltp
  | addPick q =>
    refine h.ofRow (addPick_frame _ q).1 (addPick_frame _ q).2 fun row hrow => ?_
    exact ⟨row, getPick_addPick hrow q, rfl, rfl, Or.inl rfl⟩

/-- A warning of a day for a pick. -/
def isWarning (d : ℕ) (pickId : String) (w : ℕ × String × GapMatch) : Bool := w.1 = d ∧ w.2.1 = pickId

/-- No event of the day warns of the pick again. -/
theorem Paused.filter_warned {s : Watch} {ev : WatchEvent} (h : Paused p d m s.store) (hday : OnDay p d s ev) :
    (watchStep s ev).warned.filter (isWarning d p.pickId) = s.warned.filter (isWarning d p.pickId) := by
  cases ev with
  | tick t =>
    rw [watchStep]
    split
    · rfl
    · have hnone : ((s.store.gapWarnings t).map (t.today, ·)).filter (isWarning d p.pickId) = [] := by
        rw [List.filter_eq_nil_iff]
        intro w hw
        obtain ⟨w', hw', rfl⟩ := List.mem_map.mp hw
        simpa [isWarning] using fun _ => h.not_warned hday.1 hday.2.2 w' hw'
      rw [List.filter_append, hnone, List.append_nil]
  | _ => rfl

/-- From the tick that finds the gap on. -/
theorem paused_of_gapOf (hkeyed : p ∈ S.keyedPicks) (hgap : S.gapOf t p = some m)
    (hlater : ∀ s ∈ S.history p.pickId, s.capturedAt < toLex (t.today, t.time))
    (hrecorded : ∃ s ∈ (S.watch t).history p.pickId, s.day = t.today) : Paused p t.today m (S.watch t) := by
  obtain ⟨hkey, ltp, hprice, -, -, hdetect⟩ := exists_ltp_of_gapOf hgap
  have hrow := getPick_of_mem (mem_keyedPicks hkeyed).1
  have hexit : S.exitOf t p = none := by
    rw [BackfillStore.exitOf, hgap]
    rfl
  refine ⟨⟨p, getPick_watch_of_no_exit hrow fun _ => hexit, rfl, rfl, Or.inl (mem_keyedPicks hkeyed).2⟩, hrecorded,
    fun ltp' => ?_⟩
  rw [actionsOf_watch]
  rcases history_watch S t p.pickId hlater with hsame | ⟨q, hq, hid, x, hx, hcons⟩
  · rw [hsame] at hrecorded ⊢
    rw [detectOvernightGap_sampled hrecorded ltp' ltp, hdetect]
  · obtain rfl := eq_of_mem_keyedPicks hq (hid ▸ hrow)
    obtain rfl := Option.some.inj (hprice.symm.trans hx)
    rw [hcons]
    exact (detectOvernightGap_recorded hlater ltp' _).trans hdetect

/-- The warnings of a tick that finds a gap. -/
theorem filter_gapWarnings (hkeyed : p ∈ S.keyedPicks) (hgap : S.gapOf t p = some m) :
    (S.gapWarnings t).filter (fun w => w.1 = p.pickId) =
      if (S.history p.pickId).any (fun s => s.day = t.today) then [] else [(p.pickId, m)] := by
  have hany : (S.getSnapshots p.pickId 50).any (fun s => s.day = t.today) =
      (S.history p.pickId).any fun s => s.day = t.today := by
    obtain ⟨-, ltp, -, -, hcount, -⟩ := exists_ltp_of_gapOf hgap
    rw [Bool.eq_iff_iff, List.any_eq_true, List.any_eq_true]
    constructor
    · rintro ⟨s, hs, hday⟩
      exact ⟨s, List.mem_of_mem_take hs, hday⟩
    · rintro ⟨s, hs, hday⟩
      exact ⟨s, mem_getSnapshots_of_count hcount hs (of_decide_eq_true hday).ge, hday⟩
  refine (@filter_filterMap_keyedPicks _ _ _ Prod.fst (fun q b hb => ?_) _ hkeyed).trans ?_
  · obtain ⟨m', -, hwarn⟩ := Option.bind_eq_some_iff.mp hb
    split at hwarn
    · exact absurd hwarn (by simp)
    · exact (congrArg Prod.fst (Option.some.inj hwarn)).symm
  · rw [hgap, Option.bind_some, hany]
    split <;> rfl

/-- A pick entered at 1000. -/
def splitPick : StoredPick where
  pickId := "p1"
  categoryId := none
  symbol := "ACME"
  instrumentKey := some "NSE_EQ|ACME"
  entryPrice := some 1000
  recoPrice := some 1000
  pickDate := 10
  targetPrice := some 1500
  stopLoss := some 900
  status := .opened
  deployedCapital := 100000
  totalQty := 100
  avgCost := some 1000
  realizedPnl := 0
  updatedAt := ""

/-- Its last price of the day before is 1020. -/
def beforeSplit : BackfillStore where
  picks := [splitPick]
  snapshots := [⟨⟨"p1", 1020, 20, 900⟩, none⟩]
  pickIds_nodup := List.nodup_singleton _

/-- A tick of the next day at a price. -/
def splitTick (time : ℕ) (ltp : ℚ) : Tick where
  today := 21
  time
  ltp := fun _ => some ltp
  now := ""

end Day

/-! ### Exits -/

section Exits

variable {S S' : BackfillStore} {t : Tick} {pickId : String} {row : StoredPick}

/-- Writes that close a pick in one way close it so or not at all. -/
theorem getPick_writes {ltp : ℚ} {status : PickStatus} : ∀ {ws : List Write} {S : BackfillStore},
    (∀ w ∈ ws, w.closed? = some pickId → w = .close pickId ltp status) →
    (S.getPick pickId = some row ∨ ∃ realized, S.getPick pickId = some (row.closed ltp status realized t.now)) →
    (ws.foldl (fun S w => S.write t w) S).getPick pickId = some row ∨
      ∃ realized, (ws.foldl (fun S w => S.write t w) S).getPick pickId = some (row.closed ltp status realized t.now)
  | [], _, _, h => h
  | w :: ws, S, hws, h => by
    rw [List.foldl_cons]
    refine getPick_writes (fun w' hw' => hws w' (List.mem_cons_of_mem w hw')) ?_
    by_cases hclosed : w.closed? = some pickId
    · obtain rfl := hws w List.mem_cons_self hclosed
      rw [BackfillStore.write]
      rcases closePick_cases S pickId ltp status t.today t.now with hsame | ⟨found, realized, hfound, -, hset⟩
      · rwa [hsame]
      · have hid : found.pickId = pickId := BackfillStore.pickId_of_getPick hfound
        have hget := BackfillStore.getPick_setPick (S := S) (found.closed ltp status realized t.now) (hid.symm ▸ hfound)
        rw [hset]
        refine Or.inr ⟨realized, ?_⟩
        rw [show (found.closed ltp status realized t.now).pickId = pickId from hid] at hget
        rw [hget]
        -- closing a closed row again changes only what was made
        rcases h with h | ⟨realized', h⟩
        · rw [Option.some.inj (hfound.symm.trans h)]
        · rw [Option.some.inj (hfound.symm.trans h)]
          rfl
    · rwa [(write_frame S t w).2.2 pickId hclosed]

/-- A tick closes a pick at a price of the tick, by the rules. -/
structure ExitByRule (S : BackfillStore) (t : Tick) (row row' : StoredPick) : Prop where
  /-- It is watched. -/
  keyed : row ∈ S.keyedPicks
  /-- There is no gap. -/
  noGap : S.gapOf t row = none
  /-- The price of the tick. -/
  price : ∃ ltp, t.price row = some ltp ∧ row'.closePrice = some ltp ∧
    (row'.status = .targetHit ∧ TargetReached row.toPick (S.actionsOf row) t.today ltp ∨
      row'.status = .slHit ∧ ¬TargetReached row.toPick (S.actionsOf row) t.today ltp ∧
        StopReached row.toPick (S.actionsOf row) t.today ltp)

/-- **What a tick does to a row**: nothing, or an exit by the rules. -/
theorem getPick_watch_cases (hrow : S.getPick pickId = some row) :
    ∃ row', (S.watch t).getPick pickId = some row' ∧ (row' = row ∨ ExitByRule S t row row') := by
  cases hexit : S.exitOf t row with
  | none => exact ⟨row, getPick_watch_of_no_exit hrow fun _ => hexit, Or.inl rfl⟩
  | some w =>
    by_cases hkeyed : row ∈ S.keyedPicks
    · have hid : row.pickId = pickId := BackfillStore.pickId_of_getPick hrow
      have hwrites : ∀ w' ∈ S.writesDone t, w'.closed? = some pickId → w' = w := by
        intro w' hw' hclosed
        obtain ⟨p, hp, hpid, hexit'⟩ := exitOf_of_mem_writesDone hw' hclosed
        obtain rfl := eq_of_mem_keyedPicks hp (hpid ▸ hrow)
        exact Option.some.inj (hexit'.symm.trans hexit)
      unfold BackfillStore.exitOf at hexit
      split at hexit
      · exact absurd hexit (by simp)
      next hgap =>
        obtain ⟨ltp, hprice, hstatus⟩ := Option.bind_eq_some_iff.mp hexit
        obtain ⟨status, hterminal, rfl⟩ := Option.map_eq_some_iff.mp hstatus
        rw [hid] at hwrites
        rcases getPick_writes (t := t) hwrites (Or.inl hrow) with hsame | ⟨realized, hclosed⟩
        · exact ⟨row, hsame, Or.inl rfl⟩
        · obtain ⟨htarget, hstop, -⟩ := terminalStatus_eq_some hterminal
          refine ⟨_, hclosed, Or.inr ⟨hkeyed, Option.not_isSome_iff_eq_none.mp hgap, ltp, hprice, rfl, ?_⟩⟩
          by_cases hreached : TargetReached row.toPick (S.actionsOf row) t.today ltp
          · exact Or.inl ⟨htarget hreached, hreached⟩
          · have hsome := terminalStatus_isSome_iff.mp (Option.isSome_of_mem hterminal)
            exact Or.inr ⟨hstop hreached, hreached, hsome.resolve_left hreached⟩
    · exact ⟨row, getPick_watch_of_no_exit hrow fun h => absurd h hkeyed, Or.inl rfl⟩

/-- The exits of closed picks stay as they are. -/
def KeepsExits (S S' : BackfillStore) : Prop :=
  ∀ pickId row, S.getPick pickId = some row → MVPStore.isTerminal row.status = true →
    ∃ row', S'.getPick pickId = some row' ∧ row'.status = row.status ∧ row'.closedAt = row.closedAt ∧
      row'.closePrice = row.closePrice ∧ row'.realizedPnl = row.realizedPnl

theorem KeepsExits.refl (S : BackfillStore) : KeepsExits S S := fun _ row hrow _ => ⟨row, hrow, rfl, rfl, rfl, rfl⟩

theorem KeepsExits.trans {S'' : BackfillStore} (h : KeepsExits S S') (h' : KeepsExits S' S'') : KeepsExits S S'' := by
  intro pickId row hrow hterminal
  obtain ⟨row', hrow', hstatus, hclosedAt, hprice, hrealized⟩ := h pickId row hrow hterminal
  obtain ⟨row'', hrow'', hstatus', hclosedAt', hprice', hrealized'⟩ := h' pickId row' hrow' (hstatus ▸ hterminal)
  exact ⟨row'', hrow'', hstatus'.trans hstatus, hclosedAt'.trans hclosedAt, hprice'.trans hprice,
    hrealized'.trans hrealized⟩

/-- A pick that is closed by hand is not closed yet. -/
def ClosesUnclosed (s : Watch) : WatchEvent → Prop
  | .closeByHand pickId _ _ _ => ∀ row, s.store.getPick pickId = some row → MVPStore.isTerminal row.status = false
  | _ => True

theorem keepsExits_step {s : Watch} {ev : WatchEvent} (hev : ClosesUnclosed s ev) :
    KeepsExits s.store (watchStep s ev).store := by
  intro pickId row hrow hterminal
  cases ev with
  | tick t =>
    obtain ⟨row', hrow', hcases⟩ := getPick_watch_cases (t := t) hrow
    rcases hcases with rfl | hexit
    · exact ⟨row', hrow', rfl, rfl, rfl, rfl⟩
    · have hopen := (mem_keyedPicks hexit.keyed).2
      rw [hopen] at hterminal
      exact absurd hterminal (by decide)
  | update u now =>
    obtain ⟨row', hrow', hkeeps⟩ := exists_getPick_cliUpdate hrow u now
    have hne : row.status ≠ .pending := fun hpending => absurd (hpending ▸ hterminal) (by decide)
    exact ⟨row', hrow', hkeeps.status hne, hkeeps.closedAt, hkeeps.closePrice, hkeeps.realizedPnl hne⟩
  | closeByHand closedId price today now =>
    rcases exists_getPick_cliClose hrow closedId price today now with hsame | ⟨realized, rfl, -⟩
    · exact ⟨row, hsame, rfl, rfl, rfl, rfl⟩
    · rw [hev row hrow] at hterminal
      exact absurd hterminal (by simp)
  | addAction a =>
    refine ⟨row, ?_, rfl, rfl, rfl, rfl⟩
    rw [watchStep, BackfillStore.addCorporateAction]
    split <;> exact hrow
  | addPick p => exact ⟨row, getPick_addPick hrow p, rfl, rfl, rfl, rfl⟩

/-- What a tick closes it closes by the rules. -/
def TicksByRule (s : Watch) : WatchEvent → Prop
  | .tick t => ∀ pickId row, s.store.getPick pickId = some row →
      ∃ row', (s.store.watch t).getPick pickId = some row' ∧ (row' = row ∨ ExitByRule s.store t row row')
  | _ => True

end Exits

end NiftyShield.Mvp
