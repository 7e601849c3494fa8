import NiftyShield.Lib.Basket
import NiftyShield.Strategy.IcCloseExecutor
import NiftyShield.Strategy.OverlayCloser

/-!
# Entering an Iron Condor

The entry scripts (`scripts/strategies/ic/paper_ic_entry.py` and `paper_ic_entry_v2.py`) record the
four legs of a condor by four calls of `record_paper_trade`, processes without a transaction in
common. After the first call that fails they read the ledger, and a leg that is found there is
reversed by one more call (`_compensate_legs`). What is left is told to the operator.

A call may stop before its write, for any reason, or die after it; other strategies write to the
ledger at any time between the calls.

## What is proved

* `runEntry_report`: the report of a run is right, whatever becomes of its calls. The condor is entered
  whole, or the strategy holds nothing, or what it still holds is of the roles for which a manual
  intervention is asked;
* `runEntry_entered_iff`: when the condor is entered;
* `runEntry_again`: no run of the same day enters a leg of an instrument that was reversed.

## Honest scope

The gates before the legs are left out: a run begins at the guard against an open position. All
processes use one database, and the calls of a run have one date. Nothing else writes to the strategy
during the run. The exit event of a forced entry, the margin and the entry credit are left out.
-/

namespace NiftyShield.Strategy.IcEntry

open NiftyShield.Instruments NiftyShield.Lib NiftyShield.Paper

/-! ### The legs -/

/-- One entry of `legs`. -/
structure EntryLeg where
  /-- The role. -/
  role : String
  /-- `BUY` or `SELL`. -/
  action : TradeAction
  /-- The instrument key. -/
  instrumentKey : String
  /-- The mid price. -/
  price : ℚ
  deriving DecidableEq

/-- What is selected of the chain for a leg. -/
structure Selected where
  /-- `instrument_key`. -/
  instrumentKey : String
  /-- `mid`. -/
  mid : ℚ

/-- The four selections. -/
structure Selection where
  /-- `short_put`. -/
  shortPut : Selected
  /-- `long_put`. -/
  longPut : Selected
  /-- `short_call`. -/
  shortCall : Selected
  /-- `long_call`. -/
  longCall : Selected

/-- `legs`. -/
def Selection.legs (c : Selection) : List EntryLeg :=
  [⟨"short_put", .sell, c.shortPut.instrumentKey, c.shortPut.mid⟩,
    ⟨"long_put_hedge", .buy, c.longPut.instrumentKey, c.longPut.mid⟩,
    ⟨"short_call", .sell, c.shortCall.instrumentKey, c.shortCall.mid⟩,
    ⟨"long_call_hedge", .buy, c.longCall.instrumentKey, c.longCall.mid⟩]

/-- The role and instrument of a leg. -/
def EntryLeg.pair (l : EntryLeg) : String × String := (l.role, l.instrumentKey)

/-- `reverse_action`. -/
def reverseAction : TradeAction → TradeAction
  | .sell => .buy
  | .buy => .sell

/-- The leg that compensates a leg. -/
def EntryLeg.reversed (l : EntryLeg) : EntryLeg := { l with action := reverseAction l.action }

/-- The units that a leg adds to its pair. -/
def EntryLeg.units (l : EntryLeg) : ℤ :=
  match l.action with
  | .buy => IronCondor.lotSize
  | .sell => -IronCondor.lotSize

/-! ### The calls -/

/-- What becomes of a process. -/
inductive Fate where
  /-- It stops before its write: a gate, a check of its arguments, a crash. -/
  | stopped
  /-- It dies after its write, with the leg marked or not. -/
  | died (marked : Bool)
  /-- It runs to its end. -/
  | finished
  deriving DecidableEq

/-- A call of `record_paper_trade` for a strategy. -/
structure Call (strategyName : String) where
  /-- What other strategies write before it. -/
  others : List PaperTrade
  /-- They are of other strategies. -/
  others_ne : ∀ t ∈ others, t.strategyName ≠ strategyName
  /-- `ivr_at_entry`. -/
  ivrAtEntry : Option ℚ
  /-- What becomes of it. -/
  fate : Fate

section Entry

variable (lookup : Option InstrumentLookup) {s : String} (today : Date)

/-- `record_paper_trade` with `--key`, `--price` and `--no-dry-run`, and whether it exits with 0. -/
def recordPaperTrade (call : EntryLeg → Call s) (T : PaperTrades) (l : EntryLeg) : PaperTrades × Bool :=
  let T := (T.recordTrades (call l).others).1
  if (call l).fate = .stopped then (T, false)
  else
    match PaperTrade.validate s l.role l.instrumentKey today l.action IronCondor.lotSize l.price ""
        (call l).ivrAtEntry .open with
    | none => (T, false)
    | some t =>
      let (T, inserted) := T.recordTrade t
      -- a duplicate is `SKIPPED`
      if !inserted then (T, false)
      else if (call l).fate = .died false then (T, false)
      else
        let flat := (T.getPosition lookup s l.role (some l.instrumentKey)).netQty = 0
        (if flat then T.markTradeClosed s l.role l.instrumentKey else T, (call l).fate = .finished)

/-- The two scripts. -/
inductive Script where
  /-- `paper_ic_entry.py`. -/
  | v1
  /-- `paper_ic_entry_v2.py`. -/
  | v2
  deriving DecidableEq

/-- The instrument for which the position of a leg is read: the first script names it. -/
def Script.verifiedKey (l : EntryLeg) : Script → Option String
  | .v1 => some l.instrumentKey
  | .v2 => none

/-- `missing_legs`. -/
def missingLegs (script : Script) (T : PaperTrades) (legs : List EntryLeg) : List String :=
  (legs.filter fun l => (T.getPosition lookup s l.role (script.verifiedKey l)).netQty = 0).map (·.role)

/-- `_compensate_legs`: the legs for which the reversing call exits with 0, and the others. -/
def compensateLegs (call : EntryLeg → Call s) (T : PaperTrades) (persisted : List EntryLeg) :
    PaperTrades × List EntryLeg × List EntryLeg :=
  Basket.undo (fun T l => recordPaperTrade lookup today (fun _ => call l) T l.reversed) T persisted

/-- What a run tells the operator. -/
inductive Report where
  /-- An active position already exists. -/
  | duplicate
  /-- The entry card. -/
  | entered
  /-- The verification itself failed; nothing is compensated. -/
  | unverified
  /-- No open legs, nothing to compensate. -/
  | nothingOpen
  /-- All legs that were open are compensated, no naked exposure remains. -/
  | compensated (roles : List String)
  /-- Manual intervention is required for these roles. -/
  | compensationFailed (failed compensated : List String)
  deriving DecidableEq

/-- The calls of a run, and whether the ledger can be read between them. -/
structure EntryRun (s : String) where
  /-- The calls for the legs. -/
  opening : EntryLeg → Call s
  /-- The calls that compensate. -/
  undoing : EntryLeg → Call s
  /-- The positions can be read. -/
  readable : Bool

/-- `_run_entry` from the guard against an open position on. -/
def runEntry (script : Script) (T : PaperTrades) (c : Selection) (run : EntryRun s) : PaperTrades × Report :=
  if (T.getPositions lookup s).any fun p => p.netQty ≠ 0 then (T, .duplicate)
  else
    let (T, ok) := Basket.enter (recordPaperTrade lookup today run.opening) T c.legs
    if !run.readable then (T, .unverified)
    else
      let missing := missingLegs lookup (s := s) script T c.legs
      if missing = [] ∧ ok then (T, .entered)
      else
        let persisted := c.legs.filter fun l => l.role ∉ missing
        let (T, compensated, failed) := compensateLegs lookup today run.undoing T persisted
        (T, if persisted = [] then .nothingOpen
          else if failed ≠ [] then .compensationFailed (failed.map (·.role)) (compensated.map (·.role))
          else .compensated (compensated.map (·.role)))

end Entry

/-! ### One call -/

section Calls

variable {lookup : Option InstrumentLookup} {s : String} {today : Date} {call : EntryLeg → Call s} {T : PaperTrades}
  {l : EntryLeg}

/-- The unique key of the trade of a leg. -/
def EntryLeg.key (l : EntryLeg) (s : String) (today : Date) : PaperTrade.UniqueKey :=
  ⟨s, l.role, l.instrumentKey, today, l.action⟩

/-- The trade of a leg is valid. -/
def EntryLeg.Valid (l : EntryLeg) (s : String) : Prop :=
  hasPaperPrefix s = true ∧ l.role ≠ "" ∧ l.instrumentKey ≠ "" ∧ 0 < l.price

theorem netQty_others {ts : List PaperTrade} (h : ∀ t ∈ ts, t.strategyName ≠ s) (T : PaperTrades) (k : String × String) :
    (T.recordTrades ts).1.netQty s k = T.netQty s k := by
  have hnone : (fresh T.hasKey ts).filter (PaperTrades.ofLegs s fun j => j = k) = [] :=
    List.filter_eq_nil_iff.mpr fun t ht => by
      simp [PaperTrades.ofLegs, h t ((fresh_sublist ts T.hasKey).subset ht)]
  rw [PaperTrades.netQty_eq_legsQty, PaperTrades.legsQty_recordTrades, hnone, netOf_nil, add_zero,
    ← PaperTrades.netQty_eq_legsQty]

theorem hasKey_others {ts : List PaperTrade} (h : ∀ t ∈ ts, t.strategyName ≠ s) (T : PaperTrades)
    {k : PaperTrade.UniqueKey} (hk : k.strategyName = s) : (T.recordTrades ts).1.hasKey k = T.hasKey k := by
  have hnot : k ∉ ts.map PaperTrade.uniqueKey := by
    rw [List.mem_map]
    rintro ⟨t, ht, rfl⟩
    exact h t ht hk
  rw [PaperTrades.hasKey_recordTrades, decide_eq_false hnot, Bool.or_false]

/-- The units of a valid trade of a leg. -/
theorem signedQty_validate {ivr : Option ℚ} {t : PaperTrade}
    (h : PaperTrade.validate s l.role l.instrumentKey today l.action IronCondor.lotSize l.price "" ivr .open = some t) :
    PaperTrades.inPair s l.pair t = true ∧ t.legInstrument = l.pair ∧ t.signedQty = l.units := by
  obtain ⟨hkey, hqty⟩ := validate_eq_some h
  obtain ⟨hname, hrole, hinst, -, haction⟩ := PaperTrade.UniqueKey.mk.inj hkey
  have hpair : t.legInstrument = l.pair := Prod.ext hrole hinst
  refine ⟨by simp [PaperTrades.inPair, hname, hpair], hpair, ?_⟩
  rw [PaperTrade.signedQty, EntryLeg.units, ← haction]
  cases t.action <;> simp [hqty]

/-- **One call** adds its units to the pair of its leg or changes nothing of the strategy. -/
theorem recordPaperTrade_adds (T : PaperTrades) (l : EntryLeg) :
    Basket.Adds (fun T k => T.netQty s k) l.pair l.units T (recordPaperTrade lookup today call T l) := by
  have hothers := netQty_others (call l).others_ne T
  have hnothing : Basket.Adds (fun T k => T.netQty s k) l.pair l.units T ((T.recordTrades (call l).others).1, false) :=
    ⟨fun j _ => hothers j, Or.inl (hothers _), fun h => absurd h Bool.false_ne_true⟩
  unfold recordPaperTrade
  simp only
  split
  · exact hnothing
  · split
    · exact hnothing
    next t ht =>
      obtain ⟨hin, hpair, hunits⟩ := signedQty_validate ht
      cases hkey : (T.recordTrades (call l).others).1.hasKey t.uniqueKey with
      | true =>
        rw [PaperTrades.recordTrade_duplicate hkey]
        exact hnothing
      | false =>
        -- The trade is inserted: what comes after it moves no quantity.
        have hadded : ∀ (T' : PaperTrades) (ok : Bool),
            (∀ k, T'.netQty s k = (((T.recordTrades (call l).others).1.recordTrade t).1).netQty s k) →
            Basket.Adds (fun T k => T.netQty s k) l.pair l.units T (T', ok) := by
          intro T' ok hsame
          have hslot : T'.netQty s l.pair = T.netQty s l.pair + l.units := by
            rw [hsame, PaperTrades.netQty_recordTrade hkey, if_pos hin, hothers, hunits]
          exact ⟨fun j hj => by
            rw [hsame, PaperTrades.netQty_recordTrade_of_ne (hpair ▸ hj.symm), hothers], Or.inr hslot, fun _ => hslot⟩
        simp only [(PaperTrades.recordTrade_fresh hkey).1, Bool.not_true, Bool.false_eq_true, if_false]
        split
        · exact hadded _ _ fun _ => rfl
        · refine hadded _ _ fun k => ?_
          split
          · rw [PaperTrades.markTradeClosed, PaperTrades.netQty_updateState]
          · rfl

/-- **A call exits with 0** exactly when it runs to its end, its trade is valid and new. -/
theorem recordPaperTrade_ok_iff : (recordPaperTrade lookup today call T l).2 = true ↔
    (call l).fate = .finished ∧ l.Valid s ∧ T.hasKey (l.key s today) = false := by
  have hothers : (T.recordTrades (call l).others).1.hasKey (l.key s today) = T.hasKey (l.key s today) :=
    hasKey_others (call l).others_ne T rfl
  unfold recordPaperTrade
  simp only
  split
  next hstopped => simp [hstopped]
  · split
    next hinvalid =>
      refine iff_of_false Bool.false_ne_true fun ⟨_, hvalid, _⟩ => ?_
      obtain ⟨t, ht⟩ : ∃ t, PaperTrade.validate s l.role l.instrumentKey today l.action IronCondor.lotSize l.price ""
          (call l).ivrAtEntry .open = some t :=
        exists_validate_iff.mpr ⟨hvalid.1, hvalid.2.1, hvalid.2.2.1, by decide, hvalid.2.2.2⟩
      rw [hinvalid] at ht
      exact absurd ht (by simp)
    next t ht =>
      have hvalid : l.Valid s := by
        obtain ⟨hpaper, hrole, hkey, -, hprice⟩ := exists_validate_iff.mp ⟨t, ht⟩
        exact ⟨hpaper, hrole, hkey, hprice⟩
      have hkeyeq : t.uniqueKey = l.key s today := (validate_eq_some ht).1
      rw [← hothers, ← hkeyeq]
      cases hkey : (T.recordTrades (call l).others).1.hasKey t.uniqueKey with
      | true =>
        rw [PaperTrades.recordTrade_duplicate hkey]
        simp
      | false =>
        simp only [(PaperTrades.recordTrade_fresh hkey).1, Bool.not_true, Bool.false_eq_true, if_false]
        split
        next hdied => simp [hdied]
        · simp [hvalid]

end Calls

/-! ### What the strategy holds -/

section Holdings

variable {lookup : Option InstrumentLookup} {s : String} {T : PaperTrades} {c : Selection}

theorem getPositions_eq_nil_iff : T.getPositions lookup s = [] ↔ ∀ k, T.netQty s k = 0 := by
  rw [List.eq_nil_iff_forall_not_mem]
  constructor
  · intro h k
    by_contra hk
    obtain ⟨p, hp, -⟩ : ∃ p ∈ T.getPositions lookup s, p.pair = k := PaperTrades.exists_position_iff.mpr hk
    exact h p hp
  · intro h p hp
    exact PaperTrades.exists_position_iff.mp ⟨p, hp, rfl⟩ (h p.pair)

theorem nodup_roles (c : Selection) : (c.legs.map (·.role)).Nodup := by
  show ["short_put", "long_put_hedge", "short_call", "long_call_hedge"].Nodup
  decide

theorem nodup_pairs (c : Selection) : (c.legs.map EntryLeg.pair).Nodup := by
  refine List.Nodup.of_map Prod.fst ?_
  rw [List.map_map]
  exact nodup_roles c

theorem units_ne (l : EntryLeg) : l.units ≠ 0 := by
  unfold EntryLeg.units
  split <;> decide

theorem units_reversed (l : EntryLeg) : l.reversed.units = -l.units := by
  unfold EntryLeg.units EntryLeg.reversed
  cases l.action <;> rfl

/-- The strategy holds some of the legs, each whole, and nothing else. -/
structure Part (s : String) (c : Selection) (T : PaperTrades) : Prop where
  /-- Nothing else. -/
  others : ∀ k ∉ c.legs.map EntryLeg.pair, T.netQty s k = 0
  /-- A leg is there or it is not. -/
  legs : ∀ l ∈ c.legs, T.netQty s l.pair = 0 ∨ T.netQty s l.pair = l.units

/-- An open position is one of the legs. -/
theorem Part.exists_leg (h : Part s c T) {p : PaperPosition} (hp : p ∈ T.getPositions lookup s) :
    ∃ l ∈ c.legs, l.pair = p.pair ∧ p.netQty = l.units := by
  have hopen : T.netQty s p.pair ≠ 0 := PaperTrades.exists_position_iff.mp ⟨p, hp, rfl⟩
  have hmem : p.pair ∈ c.legs.map EntryLeg.pair := by
    by_contra hnot
    exact hopen (h.others _ hnot)
  obtain ⟨l, hl, hpair⟩ := List.mem_map.mp hmem
  refine ⟨l, hl, hpair, ?_⟩
  rw [PaperTrades.netQty_of_mem hp, ← hpair]
  exact (h.legs l hl).resolve_left (hpair ▸ hopen)

/-- All four legs are there. -/
theorem Part.getPositions_perm (h : Part s c T) (hall : ∀ l ∈ c.legs, T.netQty s l.pair = l.units) :
    ((T.getPositions lookup s).map fun p => (p.pair, p.netQty)).Perm (c.legs.map fun l => (l.pair, l.units)) := by
  refine (List.perm_ext_iff_of_nodup ?_ ?_).mpr fun kq => ?_
  · refine List.Nodup.of_map Prod.fst ?_
    rw [List.map_map]
    exact PaperTrades.nodup_pairs T lookup s
  · refine List.Nodup.of_map Prod.fst ?_
    rw [List.map_map]
    exact nodup_pairs c
  · rw [List.mem_map, List.mem_map]
    constructor
    · rintro ⟨p, hp, rfl⟩
      obtain ⟨l, hl, hpair, hunits⟩ := h.exists_leg hp
      exact ⟨l, hl, by rw [hpair, hunits]⟩
    · rintro ⟨l, hl, rfl⟩
      obtain ⟨p, hp, hpair⟩ : ∃ p ∈ T.getPositions lookup s, p.pair = l.pair := by
        rw [PaperTrades.exists_position_iff, hall l hl]
        exact units_ne l
      exact ⟨p, hp, by rw [PaperTrades.netQty_of_mem hp, hpair, hall l hl]⟩

/-- `get_position` with a key reads the quantity of the pair. -/
theorem getPosition_key_flat_iff {role key : String} :
    (T.getPosition lookup s role (some key)).netQty = 0 ↔ T.netQty s (role, key) = 0 := by
  rw [PaperTrades.getPosition]
  cases hpick : PaperTrades.pickPosition (T.getPositions lookup s) role (some key) with
  | none =>
    refine iff_of_true rfl ?_
    by_contra hopen
    obtain ⟨p, hp, hpair⟩ : ∃ p ∈ T.getPositions lookup s, p.pair = (role, key) :=
      PaperTrades.exists_position_iff.mpr hopen
    obtain ⟨hrole, hkey⟩ := Prod.mk.inj hpair
    have hfound : p ∈ (T.getPositions lookup s).filter fun q => q.legRole = role :=
      List.mem_filter.mpr ⟨hp, by simpa using hrole⟩
    have := List.find?_eq_none.mp hpick p hfound
    simp [hkey] at this
  | some q =>
    obtain ⟨hq, hrole, hkey⟩ := mem_of_pickPosition hpick
    have hpair : q.pair = (role, key) := Prod.ext hrole (hkey key rfl)
    rw [Option.getD_some, PaperTrades.netQty_of_mem hq, hpair]

/-- **The verification** finds the legs that are there, by the instrument or by the role alone. -/
theorem verification_iff (h : Part s c T) (script : Script) {l : EntryLeg} (hl : l ∈ c.legs) :
    (T.getPosition lookup s l.role (script.verifiedKey l)).netQty = 0 ↔ T.netQty s l.pair = 0 := by
  cases script with
  | v1 => exact getPosition_key_flat_iff
  | v2 =>
    rw [Script.verifiedKey, OverlayCloser.getPosition_flat_iff]
    constructor
    · intro hnone
      by_contra hopen
      obtain ⟨p, hp, hpair⟩ : ∃ p ∈ T.getPositions lookup s, p.pair = l.pair :=
        PaperTrades.exists_position_iff.mpr hopen
      exact hnone p hp (congrArg Prod.fst hpair)
    · intro hflat p hp hrole
      -- The role has one instrument among the legs.
      obtain ⟨m, hm, hpair, -⟩ := h.exists_leg hp
      have hmrole : m.role = l.role := (congrArg Prod.fst hpair).trans hrole
      have hml : m = l := List.inj_on_of_nodup_map (nodup_roles c) hm hl hmrole
      subst hml
      exact PaperTrades.exists_position_iff.mp ⟨p, hp, rfl⟩ (hpair ▸ hflat)

theorem mem_missingLegs (h : Part s c T) (script : Script) {l : EntryLeg} (hl : l ∈ c.legs) :
    l.role ∈ missingLegs lookup (s := s) script T c.legs ↔ T.netQty s l.pair = 0 := by
  have hread : (T.getPosition lookup s l.role (script.verifiedKey l)).netQty = 0 ↔ T.netQty s l.pair = 0 :=
    verification_iff h script hl
  rw [← hread, missingLegs, List.mem_map]
  constructor
  · rintro ⟨m, hm, hrole⟩
    obtain ⟨hmem, hflat⟩ := List.mem_filter.mp hm
    have hml : m = l := List.inj_on_of_nodup_map (nodup_roles c) hmem hl hrole
    rw [← hml]
    exact of_decide_eq_true hflat
  · exact fun hflat => ⟨l, List.mem_filter.mpr ⟨hl, decide_eq_true hflat⟩, rfl⟩

end Holdings

/-! ### The report of a run -/

/-- What a report says of the ledgers before and after the run. -/
def Report.Right (lookup : Option InstrumentLookup) (s : String) (c : Selection) (T T' : PaperTrades) : Report → Prop
  | .duplicate => T.getPositions lookup s ≠ [] ∧ T' = T
  | .entered =>
    ((T'.getPositions lookup s).map fun p => (p.pair, p.netQty)).Perm (c.legs.map fun l => (l.pair, l.units))
  | .unverified => ∀ p ∈ T'.getPositions lookup s, ∃ l ∈ c.legs, l.pair = p.pair ∧ p.netQty = l.units
  | .nothingOpen => T'.getPositions lookup s = []
  | .compensated _ => T'.getPositions lookup s = []
  | .compensationFailed failed _ => ∀ p ∈ T'.getPositions lookup s,
    p.legRole ∈ failed ∧ ∃ l ∈ c.legs, l.pair = p.pair ∧ p.netQty = l.units

section Runs

variable {lookup : Option InstrumentLookup} {s : String} {today : Date} {T : PaperTrades} {c : Selection}

/-- The guard passes exactly when nothing is open. -/
theorem guard_iff : ((T.getPositions lookup s).any fun p => p.netQty ≠ 0) = true ↔ T.getPositions lookup s ≠ [] := by
  rw [List.any_eq_true]
  constructor
  · rintro ⟨p, hp, -⟩
    exact List.ne_nil_of_mem hp
  · intro h
    obtain ⟨p, hp⟩ := List.exists_mem_of_ne_nil _ h
    exact ⟨p, hp, decide_eq_true (getPositions_open hp).2.1⟩

/-- After the calls for the legs some of them are there, and all if every call exited with 0. -/
theorem part_enter (hflat : T.getPositions lookup s = []) (call : EntryLeg → Call s) :
    Part s c (Basket.enter (recordPaperTrade lookup today call) T c.legs).1 ∧
      ((Basket.enter (recordPaperTrade lookup today call) T c.legs).2 = true → ∀ l ∈ c.legs,
        (Basket.enter (recordPaperTrade lookup today call) T c.legs).1.netQty s l.pair = l.units) := by
  have hzero := getPositions_eq_nil_iff.mp hflat
  have hadds : ∀ (T : PaperTrades) (l : EntryLeg), Basket.Adds (fun T k => T.netQty s k) l.pair l.units T
      (recordPaperTrade lookup today call T l) := recordPaperTrade_adds
  obtain ⟨hothers, hlegs, hall⟩ := Basket.enter_spec hadds c.legs T (nodup_pairs c)
  refine ⟨⟨fun k hk => (hothers k hk).trans (hzero k), fun l hl => ?_⟩, fun hok l hl => ?_⟩
  · have := hlegs l hl
    simpa only [hzero, zero_add] using this
  · have := hall hok l hl
    simpa only [hzero, zero_add] using this

/-- After the compensation some of the legs are there, all of them of calls that failed. -/
theorem part_compensate (h : Part s c T) (call : EntryLeg → Call s) {persisted : List EntryLeg}
    (hsub : persisted.Sublist c.legs) (hmem : ∀ l ∈ c.legs, l ∈ persisted ↔ T.netQty s l.pair ≠ 0) :
    Part s c (compensateLegs lookup today call T persisted).1 ∧
      ∀ l ∈ c.legs, l ∉ (compensateLegs lookup today call T persisted).2.2 →
        (compensateLegs lookup today call T persisted).1.netQty s l.pair = 0 := by
  have hadds : ∀ (T : PaperTrades) (l : EntryLeg), Basket.Adds (fun T k => T.netQty s k) l.pair (-l.units) T
      (recordPaperTrade lookup today (fun _ => call l) T l.reversed) := by
    intro T l
    rw [← units_reversed]
    exact recordPaperTrade_adds T l.reversed
  obtain ⟨hothers, hlegs, hdone⟩ := Basket.undo_spec hadds persisted T ((nodup_pairs c).sublist (hsub.map _))
  -- A leg that was not there is not reversed.
  have habsent : ∀ l ∈ c.legs, T.netQty s l.pair = 0 →
      (compensateLegs lookup today call T persisted).1.netQty s l.pair = 0 := by
    intro l hl hzero
    refine (hothers l.pair fun hpair => ?_).trans hzero
    obtain ⟨m, hm, hmpair⟩ := List.mem_map.mp hpair
    rw [List.inj_on_of_nodup_map (nodup_pairs c) (hsub.subset hm) hl hmpair] at hm
    exact (hmem l hl).mp hm hzero
  refine ⟨⟨fun k hk => ?_, fun l hl => ?_⟩, fun l hl hnot => ?_⟩
  · exact (hothers k fun hpair => hk ((hsub.map _).subset hpair)).trans (h.others k hk)
  · by_cases hzero : T.netQty s l.pair = 0
    · exact Or.inl (habsent l hl hzero)
    · have hunits := (h.legs l hl).resolve_left hzero
      rcases hlegs l ((hmem l hl).mpr hzero) with hstays | hgone
      · exact Or.inr (hstays.trans hunits)
      · exact Or.inl (hgone.trans (by rw [hunits, add_neg_cancel]))
  · by_cases hzero : T.netQty s l.pair = 0
    · exact habsent l hl hzero
    · have hgone := hdone l ((hmem l hl).mpr hzero) hnot
      exact hgone.trans (by rw [(h.legs l hl).resolve_left hzero, add_neg_cancel])

/-- **The report of a run is right**, whatever becomes of its calls. -/
theorem runEntry_report (lookup : Option InstrumentLookup) (today : Date) (script : Script) (T : PaperTrades)
    (c : Selection) (run : EntryRun s) :
    (runEntry lookup today script T c run).2.Right lookup s c T (runEntry lookup today script T c run).1 := by
  unfold runEntry
  split
  next hguard => exact ⟨guard_iff.mp hguard, rfl⟩
  next hguard =>
    have hflat : T.getPositions lookup s = [] := by_contra fun hopen => hguard (guard_iff.mpr hopen)
    obtain ⟨hpart, hall⟩ := part_enter hflat run.opening
    generalize Basket.enter (recordPaperTrade lookup today run.opening) T c.legs = r at hpart hall
    obtain ⟨T₁, ok⟩ := r
    simp only at hpart hall ⊢
    split
    · exact fun p hp => hpart.exists_leg hp
    · split
      next hok => exact hpart.getPositions_perm (hall hok.2)
      next hbad =>
        set persisted := c.legs.filter fun l => l.role ∉ missingLegs lookup (s := s) script T₁ c.legs with hpersisted
        have hmem : ∀ l ∈ c.legs, l ∈ persisted ↔ T₁.netQty s l.pair ≠ 0 := by
          intro l hl
          rw [hpersisted, List.mem_filter, and_iff_right hl, decide_eq_true_iff, mem_missingLegs hpart script hl]
        obtain ⟨hrest, hgone⟩ := part_compensate hpart run.undoing
          List.filter_sublist hmem
        have hnil : (compensateLegs lookup today run.undoing T₁ persisted).2.2 = [] →
            (compensateLegs lookup today run.undoing T₁ persisted).1.getPositions lookup s = [] := by
          intro hfailed
          refine List.eq_nil_iff_forall_not_mem.mpr fun p hp => ?_
          obtain ⟨l, hl, hpair, -⟩ := hrest.exists_leg hp
          refine PaperTrades.exists_position_iff.mp ⟨p, hp, rfl⟩ (hpair ▸ hgone l hl ?_)
          rw [hfailed]
          exact List.not_mem_nil
        split
        next hempty => exact hnil (by rw [hempty]; rfl)
        · split
          next hfailed =>
            intro p hp
            obtain ⟨l, hl, hpair, hunits⟩ := hrest.exists_leg hp
            refine ⟨?_, l, hl, hpair, hunits⟩
            have hlfailed : l ∈ (compensateLegs lookup today run.undoing T₁ persisted).2.2 := by
              by_contra hnot
              exact PaperTrades.exists_position_iff.mp ⟨p, hp, rfl⟩ (hpair ▸ hgone l hl hnot)
            rw [show p.legRole = l.role from (congrArg Prod.fst hpair).symm]
            exact List.mem_map_of_mem hlfailed
          next hfailed => exact hnil (not_not.mp hfailed)

/-! ### When the condor is entered -/

/-- A call writes the key of its own trade only. -/
theorem hasKey_recordPaperTrade (call : EntryLeg → Call s) (T : PaperTrades) (l : EntryLeg) {k : PaperTrade.UniqueKey}
    (hs : k.strategyName = s) (hk : k ≠ l.key s today) :
    (recordPaperTrade lookup today call T l).1.hasKey k = T.hasKey k := by
  have hothers := hasKey_others (call l).others_ne T hs
  unfold recordPaperTrade
  simp only
  split
  · exact hothers
  · split
    · exact hothers
    next t ht =>
      have hkey : t.uniqueKey ≠ k := fun heq => hk (heq ▸ (validate_eq_some ht).1)
      have hrecord := PaperTrades.hasKey_recordTrade_of_ne (T.recordTrades (call l).others).1 hkey
      rw [hothers] at hrecord
      split
      · exact hrecord
      · split
        · exact hrecord
        · show PaperTrades.hasKey (if _ then _ else _) k = _
          split
          · rw [PaperTrades.markTradeClosed, PaperTrades.hasKey_updateState, hrecord]
          · exact hrecord

/-- All four calls are good exactly when each runs to its end with a valid trade that is not in the ledger
yet: no call is in the way of the next. -/
theorem enter_ok_iff (opening : EntryLeg → Call s) (T : PaperTrades) (c : Selection) :
    (Basket.enter (recordPaperTrade lookup today opening) T c.legs).2 = true ↔
      ∀ l ∈ c.legs, (opening l).fate = .finished ∧ l.Valid s ∧ T.hasKey (l.key s today) = false := by
  refine Basket.enter_ok_iff (fun T l => recordPaperTrade_ok_iff) c.legs T ?_
  refine (List.pairwise_map.mp (nodup_roles c)).imp fun {l m} hroles T => ?_
  have hne : m.key s today ≠ l.key s today := fun hkey =>
    hroles (congrArg PaperTrade.UniqueKey.legRole hkey).symm
  have hname : (m.key s today).strategyName = s := rfl
  rw [hasKey_recordPaperTrade opening T l hname hne]

/-- The report says entered when the calls were good and the ledger says so too. -/
theorem runEntry_eq_entered_iff (script : Script) (T : PaperTrades) (c : Selection) (run : EntryRun s) :
    (runEntry lookup today script T c run).2 = .entered ↔
      T.getPositions lookup s = [] ∧ run.readable = true ∧
        (Basket.enter (recordPaperTrade lookup today run.opening) T c.legs).2 = true := by
  unfold runEntry
  split
  next hguard => exact iff_of_false (by simp) fun h => guard_iff.mp hguard h.1
  next hguard =>
    have hflat : T.getPositions lookup s = [] := by_contra fun hopen => hguard (guard_iff.mpr hopen)
    obtain ⟨hpart, hall⟩ := part_enter hflat run.opening
    rw [and_iff_right hflat]
    generalize Basket.enter (recordPaperTrade lookup today run.opening) T c.legs = r at hpart hall ⊢
    obtain ⟨T₁, ok⟩ := r
    simp only at hpart hall ⊢
    cases hread : run.readable with
    | false => simp
    | true =>
      simp only [Bool.not_true, Bool.false_eq_true, if_false, true_and]
      split
      next h => exact iff_of_true rfl h.2
      next h =>
        refine iff_of_false ?_ fun hend => h ⟨?_, hend⟩
        · simp only
          split
          · simp
          · split <;> simp
        · -- Every leg is there, so none is missing.
          refine List.eq_nil_iff_forall_not_mem.mpr fun role hrole => ?_
          obtain ⟨l, hl, rfl⟩ := List.mem_map.mp hrole
          have hmem := (List.mem_filter.mp hl).1
          exact units_ne l ((hall hend l hmem).symm.trans ((mem_missingLegs hpart script hmem).mp hrole))

/-- **The condor is entered** exactly when nothing is open, every call runs to its end with a valid
trade that is not in the ledger yet, and the ledger can be read. -/
theorem runEntry_entered_iff (lookup : Option InstrumentLookup) (today : Date) (script : Script) (T : PaperTrades)
    (c : Selection) (run : EntryRun s) :
    (runEntry lookup today script T c run).2 = .entered ↔
      T.getPositions lookup s = [] ∧ run.readable = true ∧
        ∀ l ∈ c.legs, (run.opening l).fate = .finished ∧ l.Valid s ∧ T.hasKey (l.key s today) = false := by
  rw [runEntry_eq_entered_iff, enter_ok_iff]

/-! ### A second run of the day -/

/-- A call takes no row away. -/
theorem hasKey_recordPaperTrade_of_hasKey (call : EntryLeg → Call s) (T : PaperTrades) (l : EntryLeg)
    {k : PaperTrade.UniqueKey} (hk : T.hasKey k = true) : (recordPaperTrade lookup today call T l).1.hasKey k = true := by
  have hothers : (T.recordTrades (call l).others).1.hasKey k = true := by rw [PaperTrades.hasKey_recordTrades, hk, Bool.true_or]
  unfold recordPaperTrade
  simp only
  split
  · exact hothers
  · split
    · exact hothers
    next t _ =>
      have hrecord : ((T.recordTrades (call l).others).1.recordTrade t).1.hasKey k = true := by
        rw [PaperTrades.hasKey_recordTrade, hothers, Bool.true_or]
      split
      · exact hrecord
      · split
        · exact hrecord
        · show PaperTrades.hasKey (if _ then _ else _) k = true
          split
          · rw [PaperTrades.markTradeClosed, PaperTrades.hasKey_updateState, hrecord]
          · exact hrecord

/-- A call that has added its units has written its key. -/
theorem hasKey_recordPaperTrade_self (call : EntryLeg → Call s) (T : PaperTrades) (l : EntryLeg)
    (h : (recordPaperTrade lookup today call T l).1.netQty s l.pair ≠ T.netQty s l.pair) :
    (recordPaperTrade lookup today call T l).1.hasKey (l.key s today) = true := by
  have hothers := netQty_others (call l).others_ne T l.pair
  unfold recordPaperTrade at h ⊢
  simp only at h ⊢
  split at h
  · exact absurd hothers h
  next hfate =>
    rw [if_neg hfate]
    split at h
    · exact absurd hothers h
    next t ht =>
      have hkey : ((T.recordTrades (call l).others).1.recordTrade t).1.hasKey (l.key s today) = true := by
        rw [show l.key s today = t.uniqueKey from (validate_eq_some ht).1.symm]
        exact PaperTrades.hasKey_recordTrade_self _ t
      split
      · exact hkey
      · split
        · exact hkey
        · show PaperTrades.hasKey (if _ then _ else _) _ = true
          split
          · rw [PaperTrades.markTradeClosed, PaperTrades.hasKey_updateState, hkey]
          · exact hkey

/-- A leg that is there has been written. -/
theorem hasKey_enter (call : EntryLeg → Call s) : ∀ (legs : List EntryLeg) (T : PaperTrades), (legs.map EntryLeg.pair).Nodup →
    ∀ l ∈ legs, (Basket.enter (recordPaperTrade lookup today call) T legs).1.netQty s l.pair ≠ T.netQty s l.pair →
      (Basket.enter (recordPaperTrade lookup today call) T legs).1.hasKey (l.key s today) = true
  | [], _, _, _, hl, _ => absurd hl List.not_mem_nil
  | m :: legs, T, hnodup, l, hl, h => by
    rw [List.map_cons, List.nodup_cons] at hnodup
    obtain ⟨hfresh, hlegs⟩ := hnodup
    have hadds : ∀ (T : PaperTrades) (l : EntryLeg), Basket.Adds (fun T k => T.netQty s k) l.pair l.units T
        (recordPaperTrade lookup today call T l) := recordPaperTrade_adds
    rw [Basket.enter] at h ⊢
    split at h
    next hok =>
      rw [if_pos hok]
      rcases List.mem_cons.mp hl with rfl | hl
      · have hrest := (Basket.enter_spec hadds legs (recordPaperTrade lookup today call T l).1 hlegs).1 l.pair hfresh
        exact Basket.enter_keeps (P := fun T => T.hasKey (l.key s today) = true)
          (fun T m => hasKey_recordPaperTrade_of_hasKey call T m) legs _ (hasKey_recordPaperTrade_self call T l (hrest ▸ h))
      · have hne : l.pair ≠ m.pair := fun heq => hfresh (heq ▸ List.mem_map_of_mem hl)
        refine hasKey_enter call legs _ hlegs l hl ?_
        rwa [(hadds T m).others l.pair hne]
    next hbad =>
      rw [if_neg hbad]
      rcases List.mem_cons.mp hl with rfl | hl
      · exact hasKey_recordPaperTrade_self call T l h
      · have hne : l.pair ≠ m.pair := fun heq => hfresh (heq ▸ List.mem_map_of_mem hl)
        exact absurd ((hadds T m).others l.pair hne) h

/-- The roles for which a run has called for a reversal. -/
def Report.reversed : Report → List String
  | .compensated done => done
  | .compensationFailed failed done => failed ++ done
  | _ => []

/-- A leg that was reversed is in the ledger. -/
theorem hasKey_runEntry (lookup : Option InstrumentLookup) (today : Date) (script : Script) (T : PaperTrades)
    (c : Selection) (run : EntryRun s) {l : EntryLeg} (hl : l ∈ c.legs)
    (hrole : l.role ∈ (runEntry lookup today script T c run).2.reversed) :
    (runEntry lookup today script T c run).1.hasKey (l.key s today) = true := by
  unfold runEntry at hrole ⊢
  split at hrole
  · exact absurd hrole List.not_mem_nil
  next hguard =>
    have hflat : T.getPositions lookup s = [] := by_contra fun hopen => hguard (guard_iff.mpr hopen)
    rw [if_neg hguard]
    have hpart : Part s c (Basket.enter (recordPaperTrade lookup today run.opening) T c.legs).1 :=
      (part_enter hflat run.opening).1
    have hwritten : (Basket.enter (recordPaperTrade lookup today run.opening) T c.legs).1.netQty s l.pair ≠
          T.netQty s l.pair →
        (Basket.enter (recordPaperTrade lookup today run.opening) T c.legs).1.hasKey (l.key s today) = true :=
      hasKey_enter run.opening c.legs T (nodup_pairs c) l hl
    rw [getPositions_eq_nil_iff.mp hflat] at hwritten
    generalize Basket.enter (recordPaperTrade lookup today run.opening) T c.legs = r at hpart hwritten hrole ⊢
    obtain ⟨T₁, ok⟩ := r
    simp only at hpart hwritten hrole ⊢
    split at hrole
    · exact absurd hrole List.not_mem_nil
    next hread =>
      rw [if_neg hread]
      split at hrole
      · exact absurd hrole List.not_mem_nil
      next hbad =>
        rw [if_neg hbad]
        set persisted := c.legs.filter fun l => l.role ∉ missingLegs lookup (s := s) script T₁ c.legs with hpersisted
        refine Basket.undo_keeps (P := fun T => T.hasKey (l.key s today) = true)
          (fun T m => hasKey_recordPaperTrade_of_hasKey _ T m.reversed) persisted T₁ (hwritten ?_)
        have htold : ∃ m, (m ∈ (compensateLegs lookup today run.undoing T₁ persisted).2.1 ∨
            m ∈ (compensateLegs lookup today run.undoing T₁ persisted).2.2) ∧ m.role = l.role := by
          split at hrole
          · exact absurd hrole List.not_mem_nil
          · split at hrole
            · rcases List.mem_append.mp hrole with hrole | hrole
              · obtain ⟨m, hm, hmrole⟩ := List.mem_map.mp hrole
                exact ⟨m, Or.inr hm, hmrole⟩
              · obtain ⟨m, hm, hmrole⟩ := List.mem_map.mp hrole
                exact ⟨m, Or.inl hm, hmrole⟩
            · obtain ⟨m, hm, hmrole⟩ := List.mem_map.mp hrole
              exact ⟨m, Or.inl hm, hmrole⟩
        obtain ⟨m, hm, hmrole⟩ := htold
        have hmem : l ∈ persisted := by
          have hmpersisted : m ∈ persisted := Basket.mem_of_mem_undo persisted T₁ hm
          rwa [List.inj_on_of_nodup_map (nodup_roles c) (List.mem_of_mem_filter hmpersisted) hl hmrole] at hmpersisted
        rw [hpersisted, List.mem_filter] at hmem
        exact fun hzero => of_decide_eq_true hmem.2 ((mem_missingLegs hpart script hl).mpr hzero)

/-- The action of a leg goes with its role. -/
theorem action_eq_sell_iff {c : Selection} {l : EntryLeg} (hl : l ∈ c.legs) :
    l.action = .sell ↔ l.role = "short_put" ∨ l.role = "short_call" := by
  simp only [Selection.legs, List.mem_cons, List.not_mem_nil, or_false] at hl
  rcases hl with rfl | rfl | rfl | rfl <;> simp

theorem action_eq {c c' : Selection} {l l' : EntryLeg} (hl : l ∈ c.legs) (hl' : l' ∈ c'.legs) (h : l'.role = l.role) :
    l'.action = l.action := by
  have hsell : l'.action = .sell ↔ l.action = .sell := by
    rw [action_eq_sell_iff hl, action_eq_sell_iff hl', h]
  cases haction : l.action <;> cases haction' : l'.action <;> simp_all

/-- **A second run of the day**: once a leg was reversed, no run enters a condor with its instrument, on
any ledger that still has the rows. -/
theorem runEntry_again {T' : PaperTrades} {script script' : Script} {c' : Selection} {run run' : EntryRun s}
    {l l' : EntryLeg} (hl : l ∈ c.legs) (hrole : l.role ∈ (runEntry lookup today script T c run).2.reversed)
    (hl' : l' ∈ c'.legs) (hpair : l'.pair = l.pair)
    (hrows : ∀ k, (runEntry lookup today script T c run).1.hasKey k = true → T'.hasKey k = true) :
    (runEntry lookup today script' T' c' run').2 ≠ .entered := by
  intro hentered
  have hlegs := (enter_ok_iff run'.opening T' c').mp ((runEntry_eq_entered_iff script' T' c' run').mp hentered).2.2
  have hkey : l'.key s today = l.key s today := by
    obtain ⟨hr, hk⟩ := Prod.mk.inj hpair
    rw [EntryLeg.key, EntryLeg.key, hr, hk, action_eq hl hl' hr]
  have htaken := hrows _ (hasKey_runEntry lookup today script T c run hl hrole)
  rw [← hkey, (hlegs l' hl').2.2] at htaken
  exact absurd htaken Bool.false_ne_true

/-- Four selections. -/
def sampleSelection : Selection :=
  ⟨⟨"NSE_FO|65800", 120⟩, ⟨"NSE_FO|65900", 40⟩, ⟨"NSE_FO|65901", 110⟩, ⟨"NSE_FO|65902", 20⟩⟩

/-- A call with nothing between it and the one before. -/
def quietCall (s : String) (fate : Fate) : Call s := ⟨[], fun _ ht => absurd ht List.not_mem_nil, none, fate⟩

/-- A run whose call for the short call stops before its write. -/
def brokenRun (s : String) : EntryRun s :=
  ⟨fun l => quietCall s (if l.role = "short_call" then .stopped else .finished), fun _ => quietCall s .finished, true⟩

/-- A run all of whose calls run to their end. -/
def quietRun (s : String) : EntryRun s := ⟨fun _ => quietCall s .finished, fun _ => quietCall s .finished, true⟩

/-- The put spread of the first run is reversed, and the second run finds its rows. -/
theorem runEntry_again_sample :
    (runEntry none 0 .v2 (runEntry none 0 .v2 .empty sampleSelection (brokenRun "paper_ic_nifty_v2_monthly")).1
      sampleSelection (quietRun "paper_ic_nifty_v2_monthly")).2 ≠ .entered :=
  runEntry_again (l := sampleSelection.legs.head (by decide)) (List.head_mem _) (by decide +kernel) (List.head_mem _) rfl
    fun _ hk => hk

end Runs

end NiftyShield.Strategy.IcEntry
