import NiftyShield.Lib.Dict
import NiftyShield.Lib.Segments
import NiftyShield.Paper.Realized

/-!
# Trade cycles

`reconstruct_cycles` (`src/paper/cycle_pnl.py`) walks the trades of a leg group once and
cuts a cycle after every trade that leaves every leg role seen since the last cut flat.
`cycle_stats` summarises the closed cycles.

## What is proved

The walk refines the abstract cut of `Lib.Segments` for the stop "flat in every role"
(`foldl_walk`): its dictionary of net quantities is the net quantity of each role of the
current segment (`NetOf`). From this and the weighted-average identity of `Lib.Book`:
the cycles partition the ledger, closed cycles are the shortest flat pieces, and the
realized profit of the closed cycles is the cash of exactly their trades
(`reconstruct_cycles_correct`).
-/

namespace NiftyShield.Paper

open NiftyShield.Lib

/-! ### The code -/

/-- One round trip of a set of legs. -/
structure Cycle where
  /-- 1-based position in the reconstructed list. -/
  index : ℕ
  /-- Date of the first trade. -/
  entryDate : Date
  /-- Date of the last trade, `none` while open. -/
  exitDate : Option Date
  /-- Calendar days from entry to exit. -/
  daysInTrade : Option ℤ
  /-- Net premium per unit at entry. -/
  entryCreditPerUnit : ℚ
  /-- Net premium per unit paid to close. -/
  exitCostPerUnit : Option ℚ
  /-- Percentage of the entry credit kept. -/
  decayPct : Option ℚ
  /-- Realized profit over the closed quantity. -/
  realizedPnl : ℚ
  /-- The legs have not all returned to net zero. -/
  isOpen : Bool
  /-- The trades, in execution order. -/
  trades : List PaperTrade
  /-- Sum of the opening prices of the short legs. -/
  shortCreditPerUnit : ℚ
  /-- Sum of the closing prices of the short legs. -/
  shortBuybackPerUnit : Option ℚ
  /-- Percentage of the short credit kept. -/
  shortDecayPct : Option ℚ
  deriving DecidableEq

/-- `_segment_realized_pnl`. -/
def segmentRealizedPnl (trades : List PaperTrade) : ℚ := ((realizedByRole trades).map Prod.snd).sum

/-- `_signed_premium_per_unit`: sales add, purchases subtract. -/
def signedPremiumPerUnit (trades : List PaperTrade) : ℚ :=
  (trades.map fun t => if t.action = .sell then t.price else -t.price).sum

/-- The opening fill of each role: the `entry` of `_entry_exit_legs`. -/
def entryLegs (segment : List PaperTrade) : List PaperTrade :=
  (Grouping.keys PaperTrade.legRole segment).filterMap fun role => (roleTrades segment role).head?

/-- The closing fill of each role that has a second trade: the `exit` of
`_entry_exit_legs`. -/
def exitLegs (segment : List PaperTrade) : List PaperTrade :=
  (Grouping.keys PaperTrade.legRole segment).filterMap fun role => (roleTrades segment role).tail.getLast?

/-- `_build_cycle`. -/
def buildCycle (index : ℕ) (segment : List PaperTrade) (h : segment ≠ []) (isOpen : Bool) : Cycle :=
  let entryDate := (segment.head h).tradeDate
  let exitDate := if isOpen then none else some (segment.getLast h).tradeDate
  let entry := entryLegs segment
  let exit := exitLegs segment
  let entryCredit := signedPremiumPerUnit entry
  let exitCost := if isOpen = false ∧ exit ≠ [] then some (-signedPremiumPerUnit exit) else none
  let shortRoles := (entry.filter (·.action = .sell)).map (·.legRole)
  let shortCredit := ((entry.filter (·.legRole ∈ shortRoles)).map (·.price)).sum
  let shortBuyback :=
    if isOpen = false ∧ shortRoles ≠ [] then some ((exit.filter (·.legRole ∈ shortRoles)).map (·.price)).sum else none
  { index
    entryDate
    exitDate
    daysInTrade := exitDate.map (Date.daysBetween entryDate)
    entryCreditPerUnit := entryCredit
    exitCostPerUnit := exitCost
    decayPct := if 0 < entryCredit then exitCost.map fun c => (entryCredit - c) / entryCredit * 100 else none
    realizedPnl := segmentRealizedPnl segment
    isOpen
    trades := segment
    shortCreditPerUnit := shortCredit
    shortBuybackPerUnit := shortBuyback
    shortDecayPct := if 0 < shortCredit then shortBuyback.map fun b => (shortCredit - b) / shortCredit * 100 else none }

/-- The variables of the loop of `reconstruct_cycles`. -/
structure Walk where
  /-- The cycles cut so far. -/
  cycles : List Cycle
  /-- `net`: the net quantity of every role seen since the last cut. -/
  net : Dict String ℤ
  /-- The trades since the last cut. -/
  segment : List PaperTrade

namespace Walk

/-- One trade of the loop. -/
def step (w : Walk) (t : PaperTrade) : Walk :=
  let net := w.net.set t.legRole ((w.net.get? t.legRole).getD 0 + t.signedQty)
  if net.values.all (· = 0) then
    { cycles := w.cycles ++ [buildCycle (w.cycles.length + 1) (w.segment ++ [t]) (by simp) false]
      net := Dict.empty
      segment := [] }
  else { cycles := w.cycles, net, segment := w.segment ++ [t] }

/-- The cycles, with the segment that is left as an open one. -/
def finish (w : Walk) : List Cycle :=
  if h : w.segment = [] then w.cycles else w.cycles ++ [buildCycle (w.cycles.length + 1) w.segment h true]

end Walk

/-- `reconstruct_cycles`. -/
def reconstructCycles (trades : List PaperTrade) : List Cycle :=
  (trades.foldl Walk.step ⟨[], Dict.empty, []⟩).finish

/-- The closed cycles, as `get_last_cycle_realized_pnl` and `cycle_stats` select them. -/
def closedCycles (trades : List PaperTrade) : List Cycle := (reconstructCycles trades).filter fun c => !c.isOpen

/-- `get_last_cycle_realized_pnl`. -/
def getLastCycleRealizedPnl (trades : List PaperTrade) : Option ℚ :=
  (closedCycles trades).getLast?.map (·.realizedPnl)

/-- Win rate, P&L and decay over the closed cycles. -/
structure CycleStats where
  /-- Number of closed cycles. -/
  closedCount : ℕ
  /-- Cycles with positive profit. -/
  wins : ℕ
  /-- Cycles without. -/
  losses : ℕ
  /-- `wins / closed_count`. -/
  winRate : Option ℚ
  /-- Mean profit of the winning cycles. -/
  avgWin : ℚ
  /-- Mean profit of the losing cycles. -/
  avgLoss : ℚ
  /-- Highest profit. -/
  best : ℚ
  /-- Lowest profit. -/
  worst : ℚ
  /-- Mean days in trade. -/
  avgHoldDays : ℚ
  /-- Mean short decay over the cycles that have one. -/
  avgDecayPct : Option ℚ
  deriving DecidableEq

/-- The mean of a list, `0` if it is empty. -/
def meanOr0 (l : List ℚ) : ℚ := if l = [] then 0 else l.sum / l.length

/-- `cycle_stats`. -/
def cycleStats (trades : List PaperTrade) : CycleStats :=
  match closedCycles trades with
  | [] => ⟨0, 0, 0, none, 0, 0, 0, 0, 0, none⟩
  | c :: cs =>
    let closed := c :: cs
    let allPnl := closed.map (·.realizedPnl)
    let winsList := allPnl.filter (0 < ·)
    let lossesList := allPnl.filter (· ≤ 0)
    let decayValues := closed.filterMap (·.shortDecayPct)
    let holdDays := closed.filterMap (·.daysInTrade)
    { closedCount := closed.length
      wins := winsList.length
      losses := lossesList.length
      winRate := some (winsList.length / closed.length)
      avgWin := meanOr0 winsList
      avgLoss := meanOr0 lossesList
      best := (cs.map (·.realizedPnl)).foldl max c.realizedPnl
      worst := (cs.map (·.realizedPnl)).foldl min c.realizedPnl
      avgHoldDays := meanOr0 (holdDays.map fun d => (d : ℚ))
      avgDecayPct := if decayValues = [] then none else some (meanOr0 decayValues) }

/-! ### The walk is the cut at every flat point -/

/-- The net quantity of a role in a list of trades. -/
def netRole (ts : List PaperTrade) (role : String) : ℤ := netOf PaperTrade.signedQty (roleTrades ts role)

/-- Every leg role is at net zero. -/
def Flat (ts : List PaperTrade) : Prop := ∀ role, netRole ts role = 0

/-- `Flat`, as the stop of the cut. -/
def isFlat (ts : List PaperTrade) : Bool := (ts.map (·.legRole)).all fun role => netRole ts role = 0

theorem netRole_of_not_mem {ts : List PaperTrade} {role : String} (h : role ∉ ts.map (·.legRole)) :
    netRole ts role = 0 := by
  have hg : roleTrades ts role = [] := by
    refine Grouping.group_eq_nil_of_not_mem fun hk => h ?_
    obtain ⟨t, ht, rfl⟩ := Grouping.mem_keys.mp hk
    exact List.mem_map_of_mem ht
  rw [netRole, hg, netOf_nil]

theorem isFlat_iff (ts : List PaperTrade) : isFlat ts = true ↔ Flat ts := by
  rw [isFlat, List.all_eq_true]
  constructor
  · intro h role
    by_cases hr : role ∈ ts.map (·.legRole)
    · exact of_decide_eq_true (h role hr)
    · exact netRole_of_not_mem hr
  · intro h role _
    exact decide_eq_true (h role)

theorem netRole_concat (ts : List PaperTrade) (t : PaperTrade) (role : String) :
    netRole (ts ++ [t]) role = netRole ts role + if t.legRole = role then t.signedQty else 0 := by
  rw [netRole, roleTrades, Grouping.group_append, netOf_append, Grouping.group_cons]
  split <;> simp [netRole, roleTrades]

/-- The dictionary of the loop holds the net quantity of each role of the segment. -/
def NetOf (net : Dict String ℤ) (segment : List PaperTrade) : Prop :=
  ∀ role, (net.get? role).getD 0 = netRole segment role

theorem NetOf.nil : NetOf Dict.empty [] := fun _ => rfl

theorem NetOf.set {net : Dict String ℤ} {segment : List PaperTrade} (h : NetOf net segment)
    (t : PaperTrade) :
    NetOf (net.set t.legRole ((net.get? t.legRole).getD 0 + t.signedQty)) (segment ++ [t]) := by
  intro role
  rw [Dict.get?_set, netRole_concat, ← h role]
  by_cases hr : role = t.legRole
  · rw [if_pos hr, if_pos hr.symm, hr]
    rfl
  · rw [if_neg hr, if_neg (Ne.symm hr), add_zero]

/-- The test of the loop is the stop of the cut. -/
theorem NetOf.all_eq {net : Dict String ℤ} {segment : List PaperTrade} (h : NetOf net segment) :
    net.values.all (· = 0) = isFlat segment := by
  rw [Bool.eq_iff_iff, isFlat_iff, List.all_eq_true]
  constructor
  · intro hall role
    rw [← h role]
    cases hv : net.get? role with
    | none => rfl
    | some v => exact of_decide_eq_true (hall v (Dict.mem_values_iff.mpr ⟨role, hv⟩))
  · intro hflat v hv
    obtain ⟨role, hrole⟩ := Dict.mem_values_iff.mp hv
    have := h role
    rw [hrole, hflat role] at this
    exact decide_eq_true this

/-- A closed cycle of the given trades, wherever it stands in the list. -/
def ClosedCycleOf (c : Cycle) (ts : List PaperTrade) : Prop := ∃ index h, c = buildCycle index ts h false

/-- **The walk refines the cut**: from a state whose dictionary matches its segment, it
adds a closed cycle for each closed piece and keeps the remainder as its segment. -/
theorem foldl_walk (l : List PaperTrade) {w : Walk} (h : NetOf w.net w.segment) :
    (l.foldl Walk.step w).segment = (segmentsFrom isFlat w.segment l).2 ∧
      ∃ new, (l.foldl Walk.step w).cycles = w.cycles ++ new ∧
        List.Forall₂ ClosedCycleOf new (segmentsFrom isFlat w.segment l).1 := by
  induction l generalizing w with
  | nil => exact ⟨rfl, [], by simp, List.Forall₂.nil⟩
  | cons t l ih =>
    have hnet := h.set t
    rw [List.foldl_cons, segmentsFrom]
    cases hs : isFlat (w.segment ++ [t]) with
    | true =>
      have hstep : w.step t =
          ⟨w.cycles ++ [buildCycle (w.cycles.length + 1) (w.segment ++ [t]) (by simp) false],
            Dict.empty, []⟩ :=
        if_pos (hnet.all_eq.trans hs)
      rw [hstep]
      obtain ⟨hseg, new, hcyc, hnew⟩ := ih (w := ⟨_, Dict.empty, []⟩) NetOf.nil
      refine ⟨hseg, _ :: new, ?_, List.Forall₂.cons ⟨w.cycles.length + 1, by simp, rfl⟩ hnew⟩
      rw [hcyc, List.append_assoc, List.singleton_append]
    | false =>
      have hstep : w.step t =
          ⟨w.cycles, w.net.set t.legRole ((w.net.get? t.legRole).getD 0 + t.signedQty), w.segment ++ [t]⟩ :=
        if_neg (by rw [hnet.all_eq, hs]; exact Bool.false_ne_true)
      rw [hstep]
      exact ih (w := ⟨_, _, w.segment ++ [t]⟩) hnet

/-- The cycles are a closed cycle for each closed piece of the cut, then an open one for a
remainder that is not empty. -/
theorem reconstructCycles_eq (trades : List PaperTrade) :
    ∃ closed, List.Forall₂ ClosedCycleOf closed (segments isFlat trades).1 ∧
      (((segments isFlat trades).2 = [] ∧ reconstructCycles trades = closed) ∨
        ∃ index h, reconstructCycles trades =
          closed ++ [buildCycle index (segments isFlat trades).2 h true]) := by
  obtain ⟨hseg, closed, hcyc, hclosed⟩ := foldl_walk trades (w := ⟨[], Dict.empty, []⟩) NetOf.nil
  rw [List.nil_append] at hcyc
  refine ⟨closed, hclosed, ?_⟩
  unfold reconstructCycles Walk.finish
  split
  next h => exact Or.inl ⟨hseg ▸ h, hcyc⟩
  next h =>
    refine Or.inr ⟨closed.length + 1, fun hnil => h (hseg.trans hnil), ?_⟩
    simp only [hseg, hcyc]
    rfl

/-! ### Profit of flat pieces -/

/-- Nothing is open in a flat segment, so nothing is carried. -/
theorem wholeHistoryCost_of_flat {ts : List PaperTrade} (h : Flat ts) : wholeHistoryCost ts = 0 := by
  refine List.sum_eq_zero fun c hc => ?_
  obtain ⟨role, -, rfl⟩ := List.mem_map.mp hc
  exact Book.carry_of_flat ((net_bookOf _).trans (h role))

/-- **A flat segment realizes its cash.** -/
theorem segmentRealizedPnl_of_flat {ts : List PaperTrade} (h : Flat ts) :
    segmentRealizedPnl ts = cashFlow ts := by
  rw [segmentRealizedPnl, realizedByRole_eq, wholeHistoryCost_of_flat h, add_zero]

theorem cashFlow_flatten (pieces : List (List PaperTrade)) :
    cashFlow pieces.flatten = (pieces.map cashFlow).sum := by
  induction pieces with
  | nil => simp [cashFlow, sumValue]
  | cons ts pieces ih =>
    rw [List.flatten_cons, ← cash_eq_cashFlow, bookOf_append, Book.cash_add, cash_eq_cashFlow,
      cash_eq_cashFlow, ih,
      List.map_cons, List.sum_cons]

theorem length_mul_meanOr0 (l : List ℚ) : l.length * meanOr0 l = l.sum := by
  unfold meanOr0
  by_cases h : l = []
  · simp [h]
  · have hlen : (l.length : ℚ) ≠ 0 := by exact_mod_cast (List.length_pos_of_ne_nil h).ne'
    rw [if_neg h]
    field_simp

/-- The wins and the losses add up to all of it. -/
theorem sum_filter_pos_add_sum_filter_nonpos (l : List ℚ) :
    (l.filter (0 < ·)).sum + (l.filter (· ≤ 0)).sum = l.sum := by
  induction l with
  | nil => simp
  | cons x l ih =>
    by_cases h : 0 < x
    · have hx : ¬ x ≤ 0 := not_le.mpr h
      simp only [List.filter_cons, h, hx, decide_true, decide_false, if_true, List.sum_cons,
        Bool.false_eq_true, if_false]
      linarith
    · have hx : x ≤ 0 := not_lt.mp h
      simp only [List.filter_cons, h, hx, decide_true, decide_false, if_true, List.sum_cons,
        Bool.false_eq_true, if_false]
      linarith

/-- The win and loss totals of `cycle_stats` add up to the profit of the closed cycles. -/
theorem cycleStats_total (trades : List PaperTrade) :
    (cycleStats trades).wins * (cycleStats trades).avgWin + (cycleStats trades).losses *
      (cycleStats trades).avgLoss =
      ((closedCycles trades).map (·.realizedPnl)).sum := by
  unfold cycleStats
  cases closedCycles trades with
  | nil => simp
  | cons c cs =>
    simp only [length_mul_meanOr0]
    exact sum_filter_pos_add_sum_filter_nonpos _

/-! ### The cycles -/

private theorem ClosedCycleOf.trades_eq {c : Cycle} {ts : List PaperTrade}
    (h : ClosedCycleOf c ts) : c.trades = ts := by
  obtain ⟨_, _, rfl⟩ := h
  rfl

private theorem ClosedCycleOf.isOpen_eq {c : Cycle} {ts : List PaperTrade} (h : ClosedCycleOf c ts) :
    c.isOpen = false := by
  obtain ⟨_, _, rfl⟩ := h
  rfl

private theorem ClosedCycleOf.realizedPnl_eq {c : Cycle} {ts : List PaperTrade} (h : ClosedCycleOf c ts) :
    c.realizedPnl = segmentRealizedPnl c.trades := by
  obtain ⟨_, _, rfl⟩ := h
  rfl

private theorem trades_of_forall₂ {cs : List Cycle} {pieces : List (List PaperTrade)}
    (h : List.Forall₂ ClosedCycleOf cs pieces) : cs.map (·.trades) = pieces := by
  induction h with
  | nil => rfl
  | cons hc _ ih => rw [List.map_cons, hc.trades_eq, ih]

private theorem isOpen_of_forall₂ {cs : List Cycle} {pieces : List (List PaperTrade)}
    (h : List.Forall₂ ClosedCycleOf cs pieces) :
      ∀ c ∈ cs, c.isOpen = false ∧ c.realizedPnl = segmentRealizedPnl c.trades := by
  induction h with
  | nil => simp
  | cons hc _ ih =>
    rintro c (_ | ⟨_, hmem⟩)
    · exact ⟨hc.isOpen_eq, hc.realizedPnl_eq⟩
    · exact ih c hmem

/-- A cycle whose trades are a shortest flat piece. -/
def IsRoundTrip (ts : List PaperTrade) : Prop :=
  ts ≠ [] ∧ Flat ts ∧ ∀ p, p <+: ts → p ≠ [] → p ≠ ts → ¬ Flat p

/-- Trades that are never flat. -/
def IsNeverFlat (ts : List PaperTrade) : Prop := ts ≠ [] ∧ ∀ p, p <+: ts → p ≠ [] → ¬ Flat p

theorem isRoundTrip_of_firstStop {ts : List PaperTrade} (h : FirstStop isFlat ts) : IsRoundTrip ts := by
  refine ⟨h.ne_nil, (isFlat_iff ts).mp h.stops, fun p hp hne hproper hflat => ?_⟩
  exact absurd ((isFlat_iff p).mpr hflat) (by simp [h.notBefore p hp hne hproper])

theorem isNeverFlat_of_neverStops {ts : List PaperTrade} (h : NeverStops isFlat ts)
    (hne : ts ≠ []) : IsNeverFlat ts := by
  refine ⟨hne, fun p hp hpne hflat => ?_⟩
  exact absurd ((isFlat_iff p).mpr hflat) (by simp [h p hp hpne])

/-- The shape of the result: closed round trips, then at most one open cycle. -/
theorem reconstructCycles_shape (trades : List PaperTrade) :
    ∃ closed tail, reconstructCycles trades = closed ++ tail ∧ closedCycles trades = closed ∧
      (∀ c ∈ closed, c.isOpen = false ∧ c.realizedPnl = segmentRealizedPnl c.trades ∧
        IsRoundTrip c.trades) ∧
      (tail = [] ∨ ∃ c, tail = [c] ∧ c.isOpen = true ∧ IsNeverFlat c.trades) ∧
      ((closed ++ tail).map (·.trades)).flatten = trades := by
  obtain ⟨hflat, hpieces, hrest⟩ := segments_spec isFlat trades
  obtain ⟨closed, hclosed, hresult⟩ := reconstructCycles_eq trades
  have htrades := trades_of_forall₂ hclosed
  have hbuilt := isOpen_of_forall₂ hclosed
  have hround : ∀ c ∈ closed, c.isOpen = false ∧ c.realizedPnl = segmentRealizedPnl c.trades ∧
      IsRoundTrip c.trades :=
    fun c hc => by
      have hpiece : c.trades ∈ (segments isFlat trades).1 := by
        rw [← htrades]
        exact List.mem_map_of_mem hc
      exact ⟨(hbuilt c hc).1, (hbuilt c hc).2, isRoundTrip_of_firstStop (hpieces _ hpiece)⟩
  have hfilter : closed.filter (fun c => !c.isOpen) = closed :=
    List.filter_eq_self.mpr fun c hc => by simp [(hbuilt c hc).1]
  rcases hresult with ⟨hnil, hcycles⟩ | ⟨index, hne, hcycles⟩
  · refine ⟨closed, [], by rw [hcycles, List.append_nil], ?_, hround, Or.inl rfl, ?_⟩
    · rw [closedCycles, hcycles, hfilter]
    · rw [List.append_nil, htrades]
      rw [hnil, List.append_nil] at hflat
      exact hflat
  · refine ⟨closed, [buildCycle index _ hne true], hcycles, ?_, hround,
      Or.inr ⟨_, rfl, rfl, isNeverFlat_of_neverStops hrest hne⟩, ?_⟩
    · rw [closedCycles, hcycles, List.filter_append, hfilter]
      exact List.append_nil _
    · rw [List.map_append, htrades, List.flatten_append]
      refine Eq.trans ?_ hflat
      congr 1
      exact List.append_nil _

/-- **Cycle reconstruction partitions the ledger.** The cycles concatenate to the trades;
all but the last are closed; a closed cycle is a shortest flat piece; an open cycle is the
last one and never flat; the profit of the closed cycles, and the win and loss totals of
`cycle_stats`, are the cash of exactly their trades. -/
theorem reconstruct_cycles_correct (trades : List PaperTrade) :
    ((reconstructCycles trades).map (·.trades)).flatten = trades ∧
      (∀ c ∈ (reconstructCycles trades).dropLast, c.isOpen = false) ∧
      (∀ c ∈ reconstructCycles trades, c.isOpen = false → IsRoundTrip c.trades) ∧
      (∀ c ∈ reconstructCycles trades, c.isOpen = true →
        (reconstructCycles trades).getLast? = some c ∧ IsNeverFlat c.trades) ∧
      ((closedCycles trades).map (·.realizedPnl)).sum = cashFlow ((closedCycles trades).map (·.trades)).flatten ∧
      (cycleStats trades).wins * (cycleStats trades).avgWin + (cycleStats trades).losses * (cycleStats trades).avgLoss =
        cashFlow ((closedCycles trades).map (·.trades)).flatten := by
  obtain ⟨closed, tail, hcycles, hclosed, hround, htail, hflat⟩ := reconstructCycles_shape trades
  have hcash : (closed.map (·.realizedPnl)).sum = cashFlow (closed.map (·.trades)).flatten := by
    rw [cashFlow_flatten, List.map_map]
    congr 1
    refine List.map_congr_left fun c hc => ?_
    obtain ⟨-, hpnl, -, hc, -⟩ := hround c hc
    rw [hpnl, segmentRealizedPnl_of_flat hc]
    rfl
  rw [hcycles, cycleStats_total, hclosed]
  refine ⟨hflat, ?_, ?_, ?_, hcash, hcash⟩
  · intro c hc
    rcases htail with rfl | ⟨d, rfl, -, -⟩
    · rw [List.append_nil] at hc
      exact (hround c (List.dropLast_subset _ hc)).1
    · rw [List.dropLast_concat] at hc
      exact (hround c hc).1
  · intro c hc hopen
    rcases List.mem_append.mp hc with hc | hc
    · exact (hround c hc).2.2
    · rcases htail with rfl | ⟨d, rfl, hd, -⟩
      · exact absurd hc (by simp)
      · rw [List.mem_singleton.mp hc] at hopen
        exact absurd (hd.symm.trans hopen) (by simp)
  · intro c hc hopen
    rcases List.mem_append.mp hc with hc | hc
    · exact absurd ((hround c hc).1.symm.trans hopen) (by simp)
    · rcases htail with rfl | ⟨d, rfl, -, hnever⟩
      · exact absurd hc (by simp)
      · rw [List.mem_singleton.mp hc]
        exact ⟨List.getLast?_concat, hnever⟩

end NiftyShield.Paper
