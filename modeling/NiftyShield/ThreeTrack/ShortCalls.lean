import NiftyShield.Lib.Run
import NiftyShield.ThreeTrack.OverlayEntry
import Mathlib.Algebra.Order.BigOperators.Group.List

/-!
# One short call per contract

A call of the overlay is sold as a covered call (`overlay_cc`) or as the call of a collar
(`overlay_collar_call`), by runs of `paper_3track_overlay_entry.py`, which ask whether it is sold
already (`_query_open_call_role`), and by the re-entry of `CollarOverlayV1`, which does not
(`_reenter_collar`, `src/strategy/collar_overlay_v1.py`).

## What is proved

* `query_finds`: a query that does not fail finds a call that is sold under one role;
* `step_oneRole`: what a step must not sell;
* `calls_oneRole`: along a run of entries, closes and re-entries no call is sold under both
  roles, if no entry whose query fails and no re-entry sells a call that is sold under the other.

## Honest scope

A call is held short under a role if the quantities of the ledgers that are searched together
are, together. As in `OverlayEntry` and `CollarOverlay`.
-/

namespace NiftyShield.ThreeTrack.ShortCalls

open NiftyShield.Instruments NiftyShield.Lib NiftyShield.Paper NiftyShield.Strategy OverlayEntry
open CollarOverlay (CollarAction closeBothLegs reenterCollar closingTrades entryTrades shortCallPos longPutPos)

/-! ### The steps -/

/-- The ledgers in which a book holds its calls. -/
def callLedgers : ExpiryType → List String
  | .monthly => ["paper_nifty_overlay"]
  | .yearly => ["paper_nifty_overlay_yearly_cc", "paper_nifty_overlay_yearly_collar"]

/-- A write to the ledgers. -/
inductive CallStep where
  /-- A run of the entry script. -/
  | entry (today : Date) (run : EntryRun)
  /-- A `CLOSE_CC` action. -/
  | closeCc (today : Date) (lookup : Option InstrumentLookup) (a : LegAction)
  /-- A `CLOSE_COLLAR` or `CLOSE_AND_REENTER_COLLAR` action. -/
  | collar (lookup : Option InstrumentLookup) (e : CollarAction)

variable (expiryType : ExpiryType)

/-- A step. -/
def next (T : PaperTrades) : CallStep → PaperTrades
  | .entry today run => (run.main expiryType today T).2
  | .closeCc today lookup a => a.applyCc lookup expiryType.policy.ccStrategyName today T
  | .collar lookup e => CollarOverlay.applyAction lookup expiryType.policy.collarStrategyName T e

/-- A call is held short under a role. -/
def HeldShort (T : PaperTrades) (role key : String) : Prop :=
  ((callLedgers expiryType).map fun s => T.netQty s (role, key)).sum < 0

instance (T : PaperTrades) (role key : String) : Decidable (HeldShort expiryType T role key) :=
  inferInstanceAs (Decidable (_ < _))

/-- No call is held short under both roles. -/
def OneRole (T : PaperTrades) : Prop :=
  ∀ key, ¬(HeldShort expiryType T "overlay_cc" key ∧ HeldShort expiryType T "overlay_collar_call" key)

/-- The role under which an overlay sells its call, and the other. -/
def callRoles : OverlayType → Option (String × String)
  | .pp => none
  | .cc => some ("overlay_cc", "overlay_collar_call")
  | .collar => some ("overlay_collar_call", "overlay_cc")

/-- An entry that records although its query has failed, and a collar that is re-entered, sell
no call that is held short under the other role, but for one sold that day already. -/
def SellsFree (T : PaperTrades) : CallStep → Prop
  | .entry today run => run.roleQueryFails = true → run.recordFails = false →
      ∀ cfg, Records expiryType today run T cfg → ∀ roles ∈ callRoles cfg.overlayType,
        T.hasKey ⟨run.ledger expiryType, roles.1, cfg.callInstrumentKey, cfg.entryDate, .sell⟩ = false →
          ¬HeldShort expiryType T roles.2 cfg.callInstrumentKey
  | .closeCc .. => True
  | .collar lookup e => e.actionType = .closeAndReenterCollar →
      (shortCallPos lookup expiryType.policy.collarStrategyName T e ≠ none ∨
        longPutPos lookup expiryType.policy.collarStrategyName T e ≠ none) →
        ∀ trades ∈ entryTrades expiryType.policy.collarStrategyName e, T.hasKey trades.2.uniqueKey = false →
          ¬HeldShort expiryType T "overlay_cc" trades.2.instrumentKey

/-! ### What a batch sells -/

section Batch

variable {expiryType} {T : PaperTrades} {role key : String}

/-- What is held short was so before, if no quantity has been lowered. -/
theorem HeldShort.of_le {T' : PaperTrades}
    (hle : ∀ s ∈ callLedgers expiryType, T.netQty s (role, key) ≤ T'.netQty s (role, key))
    (h : HeldShort expiryType T' role key) : HeldShort expiryType T role key :=
  lt_of_le_of_lt (List.sum_le_sum hle) h

/-- The same after a batch that sells nothing of it. -/
theorem HeldShort.of_recordTrades {ts : List PaperTrade}
    (hbuys : ∀ t ∈ ts, T.hasKey t.uniqueKey = false → t.strategyName ∈ callLedgers expiryType →
      t.legInstrument = (role, key) → t.action = .buy)
    (h : HeldShort expiryType (T.recordTrades ts).1 role key) : HeldShort expiryType T role key :=
  h.of_le fun _ hs => PaperTrades.netQty_le_recordTrades fun t ht hfree hname hpair => hbuys t ht hfree (hname ▸ hs) hpair

/-- Nothing is held under both roles after a step that sells no call. -/
theorem OneRole.of_buys {T' : PaperTrades} (h : OneRole expiryType T)
    (hback : ∀ role ∈ shortCallRoles, ∀ key, HeldShort expiryType T' role key → HeldShort expiryType T role key) :
    OneRole expiryType T' := fun key hboth =>
  h key ⟨hback _ (by decide) key hboth.1, hback _ (by decide) key hboth.2⟩

/-- Nor after one that sells a call that is not held under the other role. -/
theorem OneRole.of_sale {T' : PaperTrades} {overlayType : OverlayType} {roles : String × String} (h : OneRole expiryType T)
    (hroles : roles ∈ callRoles overlayType) (hfree : ¬HeldShort expiryType T roles.2 key)
    (hother : ∀ key', HeldShort expiryType T' roles.2 key' → HeldShort expiryType T roles.2 key')
    (hsold : ∀ key', key' ≠ key → HeldShort expiryType T' roles.1 key' → HeldShort expiryType T roles.1 key') :
    OneRole expiryType T' := by
  rintro key' ⟨hcc, hcollar⟩
  have hne : ∀ {key'}, HeldShort expiryType T' roles.2 key' → key' ≠ key := fun hshort heq =>
    hfree (heq ▸ hother _ hshort)
  cases overlayType with
  | pp => exact absurd hroles (by simp [callRoles])
  | cc =>
    obtain rfl : roles = ("overlay_cc", "overlay_collar_call") := (Option.some.inj hroles).symm
    exact h key' ⟨hsold key' (hne hcollar) hcc, hother key' hcollar⟩
  | collar =>
    obtain rfl : roles = ("overlay_collar_call", "overlay_cc") := (Option.some.inj hroles).symm
    exact h key' ⟨hother key' hcc, hsold key' (hne hcc) hcollar⟩

end Batch

/-! ### An entry -/

section Entry

variable {expiryType} {today : Date} {run : EntryRun} {T : PaperTrades}

/-- **The query** finds a call that is held short under one role. -/
theorem query_finds {role key : String} (h : OneRole expiryType T) (hrole : role ∈ shortCallRoles)
    (hshort : HeldShort expiryType T role key) :
    queryOpenCallRole T key (callLedgers expiryType) false = some role := by
  have hfind : queryOpenCallRole T key (callLedgers expiryType) false =
      shortCallRoles.find? fun role => decide (HeldShort expiryType T role key) := rfl
  rw [hfind, shortCallRoles]
  have hcases : role = "overlay_cc" ∨ role = "overlay_collar_call" := by simpa [shortCallRoles] using hrole
  rcases hcases with rfl | rfl
  · simp [hshort]
  · have hcc : ¬HeldShort expiryType T "overlay_cc" key := fun hcc => h key ⟨hcc, hshort⟩
    simp [hcc, hshort]

/-- An entry asks in the ledgers that it writes to. -/
theorem dedupLedgers_eq (h : run.ledger expiryType ∈ callLedgers expiryType) :
    run.dedupLedgers expiryType = callLedgers expiryType := by
  cases expiryType with
  | monthly =>
    have hledger : run.ledger .monthly = "paper_nifty_overlay" := List.mem_singleton.mp h
    rw [EntryRun.dedupLedgers, hledger]
    rfl
  | yearly =>
    have hledger : run.ledger .yearly ∈ ["paper_nifty_overlay_yearly_cc", "paper_nifty_overlay_yearly_collar"] := h
    rw [EntryRun.dedupLedgers, if_pos hledger]
    rfl

/-- **What an entry sells**: the call of its config, unless it has found it under the other
role. -/
theorem sells_of_built {text : EntryText} {cfg : OverlayConfig} {s : String} {existing : Option String}
    {trades : List PaperTrade} {warnings : List String}
    (h : buildOverlayTrades text cfg s existing = some (trades, warnings)) {t : PaperTrade} (ht : t ∈ trades) :
    t.action = .buy ∨ ∃ roles ∈ callRoles cfg.overlayType, existing ≠ some roles.2 ∧
      t.uniqueKey = ⟨s, roles.1, cfg.callInstrumentKey, cfg.entryDate, .sell⟩ := by
  have hput : ∀ {legRole leg put}, putTrade text cfg s legRole leg = some put → put.action = .buy := fun hput =>
    congrArg PaperTrade.UniqueKey.action (validate_eq_some hput).1
  have hcall : ∀ {legRole leg call}, callTrade text cfg s legRole leg = some call →
      call.uniqueKey = ⟨s, legRole, cfg.callInstrumentKey, cfg.entryDate, .sell⟩ := fun hcall =>
    (validate_eq_some hcall).1
  unfold buildOverlayTrades at h
  cases htype : cfg.overlayType with
  | pp =>
    rw [htype] at h
    obtain ⟨put, hputs, hsome⟩ := Option.bind_eq_some_iff.mp h
    obtain ⟨rfl, -⟩ := Prod.mk.inj (Option.some.inj hsome)
    obtain rfl := List.mem_singleton.mp ht
    exact Or.inl (hput hputs)
  | cc =>
    rw [htype] at h
    simp only at h
    split at h
    next =>
      obtain ⟨rfl, -⟩ := Prod.mk.inj (Option.some.inj h)
      exact absurd ht List.not_mem_nil
    next hrole =>
      obtain ⟨call, hcalls, hsome⟩ := Option.bind_eq_some_iff.mp h
      obtain ⟨rfl, -⟩ := Prod.mk.inj (Option.some.inj hsome)
      obtain rfl := List.mem_singleton.mp ht
      exact Or.inr ⟨_, rfl, hrole, hcall hcalls⟩
  | collar =>
    rw [htype] at h
    obtain ⟨put, hputs, h⟩ := Option.bind_eq_some_iff.mp h
    split at h
    next =>
      obtain ⟨rfl, -⟩ := Prod.mk.inj (Option.some.inj h)
      obtain rfl := List.mem_singleton.mp ht
      exact Or.inl (hput hputs)
    next hrole =>
      obtain ⟨call, hcalls, hsome⟩ := Option.bind_eq_some_iff.mp h
      obtain ⟨rfl, -⟩ := Prod.mk.inj (Option.some.inj hsome)
      rcases List.mem_pair.mp ht with rfl | rfl
      · exact Or.inl (hput hputs)
      · exact Or.inr ⟨_, rfl, hrole, hcall hcalls⟩

theorem callRoles_spec {overlayType : OverlayType} {roles : String × String} (h : roles ∈ callRoles overlayType) :
    roles.1 ≠ roles.2 ∧ roles.2 ∈ shortCallRoles ∧ overlayType ≠ .pp := by
  cases overlayType with
  | pp => exact absurd h (by simp [callRoles])
  | cc =>
    obtain rfl : roles = ("overlay_cc", "overlay_collar_call") := (Option.some.inj h).symm
    decide
  | collar =>
    obtain rfl : roles = ("overlay_collar_call", "overlay_cc") := (Option.some.inj h).symm
    decide

/-- An entry that sells a call has not found it under the other role. -/
theorem other_free_of_sale {cfg : OverlayConfig} {roles : String × String} (h : OneRole expiryType T)
    (hfree : SellsFree expiryType T (.entry today run)) (hrecords : Records expiryType today run T cfg)
    (hwrites : run.recordFails = false) (hroles : roles ∈ callRoles cfg.overlayType)
    (hledger : run.ledger expiryType ∈ callLedgers expiryType) (hkey : cfg.callInstrumentKey ≠ "")
    (hnew : T.hasKey ⟨run.ledger expiryType, roles.1, cfg.callInstrumentKey, cfg.entryDate, .sell⟩ = false)
    (hfound : run.existingCallRole expiryType T cfg ≠ some roles.2) :
    ¬HeldShort expiryType T roles.2 cfg.callInstrumentKey := by
  intro hshort
  obtain ⟨-, hrole, htype⟩ := callRoles_spec hroles
  rw [EntryRun.existingCallRole, if_pos ⟨htype, hkey⟩, dedupLedgers_eq hledger] at hfound
  cases hfails : run.roleQueryFails with
  | true => exact hfree hfails hwrites cfg hrecords roles hroles hnew hshort
  | false =>
    rw [hfails] at hfound
    exact hfound (query_finds h hrole hshort)

/-- **An entry** keeps each call under one role. -/
theorem oneRole_main (h : OneRole expiryType T) (hfree : SellsFree expiryType T (.entry today run)) :
    OneRole expiryType (run.main expiryType today T).2 := by
  unfold EntryRun.main
  cases hplan : run.plan expiryType today T with
  | error stop => exact h
  | ok trades =>
    obtain ⟨cfg, hrecords, warnings, hbuilt⟩ := plan_ok hplan
    simp only
    split
    next => exact h
    next hwrites =>
      by_cases hsale : ∃ t ∈ trades, T.hasKey t.uniqueKey = false ∧ t.strategyName ∈ callLedgers expiryType ∧ t.action ≠ .buy
      · obtain ⟨t, ht, hnew, hledger, hsell⟩ := hsale
        obtain hbuy | ⟨roles, hroles, hfound, hkeys⟩ := sells_of_built hbuilt ht
        · exact absurd hbuy hsell
        obtain ⟨hname, -, hcall, -, -⟩ := PaperTrade.UniqueKey.mk.inj hkeys
        have hkey : cfg.callInstrumentKey ≠ "" := hcall ▸ t.instrumentKey_ne
        have hother := other_free_of_sale h hfree hrecords (Bool.eq_false_iff.mpr hwrites) hroles (hname ▸ hledger) hkey
          (hkeys ▸ hnew) hfound
        -- all that is sold is this call, under this role
        have hsells : ∀ {pair : String × String}, pair ≠ (roles.1, cfg.callInstrumentKey) → ∀ u ∈ trades,
            T.hasKey u.uniqueKey = false → u.strategyName ∈ callLedgers expiryType → u.legInstrument = pair →
              u.action = .buy := by
          intro pair hne u hu _ _ hpair
          obtain hbuy | ⟨roles', hroles', -, hkeys'⟩ := sells_of_built hbuilt hu
          · exact hbuy
          · obtain rfl : roles = roles' := Option.some.inj (hroles.symm.trans hroles')
            obtain ⟨-, hrole, hcall, -, -⟩ := PaperTrade.UniqueKey.mk.inj hkeys'
            have hsold : u.legInstrument = (roles.1, cfg.callInstrumentKey) := Prod.ext hrole hcall
            exact absurd (hpair.symm.trans hsold) hne
        refine h.of_sale hroles hother (fun key hshort => hshort.of_recordTrades (hsells ?_)) fun key hne hshort =>
          hshort.of_recordTrades (hsells ?_)
        · exact fun heq => (callRoles_spec hroles).1 (Prod.mk.inj heq).1.symm
        · exact fun heq => hne (Prod.mk.inj heq).2
      · refine h.of_buys fun role _ key hshort => hshort.of_recordTrades fun t ht hnew hledger _ => ?_
        by_contra hsell
        exact hsale ⟨t, ht, hnew, hledger, hsell⟩

end Entry

/-! ### A close and a re-entry -/

section Closes

variable {expiryType} {T : PaperTrades} {lookup : Option InstrumentLookup} {s : String}

/-- A `CLOSE_CC` sells nothing. -/
theorem oneRole_closeCc (h : OneRole expiryType T) (a : LegAction) (today : Date) :
    OneRole expiryType (a.applyCc lookup s today T) := by
  rcases netQty_applyAction a lookup s .buy today T with hsame | ⟨p, hp, hside, hnet⟩
  · rw [LegAction.applyCc, hsame]
    exact h
  · refine h.of_buys fun role _ key hshort => hshort.of_le fun s' _ => ?_
    rw [LegAction.applyCc, hnet]
    split
    next heq =>
      obtain ⟨rfl, hpair⟩ := heq
      rw [hpair, ← PaperTrades.netQty_of_mem hp]
      exact (of_decide_eq_true hside).le
    next => exact le_rfl

theorem netQty_closeBothLegs' (e : CollarAction) (s' : String) (k : String × String) :
    (closeBothLegs lookup s T e).netQty s' k = (T.recordTrades (closingTrades lookup s T e)).1.netQty s' k := by
  rw [closeBothLegs, PaperTrades.netQty_eq_legsQty, PaperTrades.legsQty_markAllClosed, ← PaperTrades.netQty_eq_legsQty]

theorem HeldShort.of_closeBothLegs {e : CollarAction} {role key : String} (hrole : role ∈ shortCallRoles)
    (h : HeldShort expiryType (closeBothLegs lookup s T e) role key) : HeldShort expiryType T role key :=
  h.of_le fun s' _ => by
    rw [netQty_closeBothLegs']
    refine PaperTrades.netQty_le_recordTrades fun t ht _ _ hpair => ?_
    rcases CollarOverlay.closingTrades_spec ht with ⟨-, hbuy⟩ | ⟨hput, -⟩
    · exact hbuy
    · have hleg : t.legRole = role := congrArg Prod.fst hpair
      rw [← hleg, hput] at hrole
      exact absurd hrole (by decide)

/-- **A re-entry** keeps each call under one role, if the call it sells is not a covered one. -/
theorem oneRole_reenterCollar {e : CollarAction} (h : OneRole expiryType T)
    (hfree : ∀ trades ∈ entryTrades s e, T.hasKey trades.2.uniqueKey = false →
      ¬HeldShort expiryType T "overlay_cc" trades.2.instrumentKey) :
    OneRole expiryType (reenterCollar s T e) := by
  unfold reenterCollar
  cases htrades : entryTrades s e with
  | none => exact h
  | some trades =>
    obtain ⟨⟨-, -, -, hput⟩, -, hcrole, -, -⟩ := CollarOverlay.entryTrades_spec htrades
    have hbuys : ∀ {pair : String × String}, (T.hasKey trades.2.uniqueKey = false →
        pair ≠ ("overlay_collar_call", trades.2.instrumentKey)) → ∀ t ∈ [trades.1, trades.2],
          T.hasKey t.uniqueKey = false → t.strategyName ∈ callLedgers expiryType → t.legInstrument = pair →
            t.action = .buy := by
      intro pair hne t ht hnew _ hpair
      rcases List.mem_pair.mp ht with rfl | rfl
      · exact hput
      · have hsold : trades.2.legInstrument = ("overlay_collar_call", trades.2.instrumentKey) := Prod.ext hcrole rfl
        exact absurd (hpair.symm.trans hsold) (hne hnew)
    cases hnew : T.hasKey trades.2.uniqueKey with
    | true =>
      have hdup : T.hasKey trades.2.uniqueKey = false → ∀ pair : String × String,
          pair ≠ ("overlay_collar_call", trades.2.instrumentKey) := fun hno => absurd (hnew.symm.trans hno) (by decide)
      exact h.of_buys fun role _ key hshort => hshort.of_recordTrades (hbuys fun hno => hdup hno _)
    | false =>
      have hroles : ("overlay_collar_call", "overlay_cc") ∈ callRoles .collar := rfl
      refine h.of_sale hroles (hfree trades htrades hnew)
        (fun key hshort => hshort.of_recordTrades (hbuys fun _ => ?_))
        fun key hne hshort => hshort.of_recordTrades (hbuys fun _ => ?_)
      · exact fun heq => absurd (Prod.mk.inj heq).1 (by decide)
      · exact fun heq => hne (Prod.mk.inj heq).2

end Closes

/-! ### A run -/

/-- **A step** keeps each call under one role. -/
theorem step_oneRole {T : PaperTrades} (step : CallStep) (h : OneRole expiryType T)
    (hfree : SellsFree expiryType T step) : OneRole expiryType (next expiryType T step) := by
  cases step with
  | entry today run => exact oneRole_main h hfree
  | closeCc today lookup a => exact oneRole_closeCc h a today
  | collar lookup e =>
    simp only [next, CollarOverlay.applyAction]
    split
    next => exact h
    next hfound =>
      have hclosed : OneRole expiryType (closeBothLegs lookup expiryType.policy.collarStrategyName T e) :=
        h.of_buys fun role hrole key hshort => hshort.of_closeBothLegs hrole
      cases htype : e.actionType with
      | closeCollar => exact hclosed
      | closeAndReenterCollar =>
        have hlegs := not_and_or.mp hfound
        refine oneRole_reenterCollar hclosed fun trades htrades hnew hshort => ?_
        rw [(CollarOverlay.hasKey_closeBothLegs htrades).2] at hnew
        exact hfree htype hlegs trades htrades hnew (hshort.of_closeBothLegs (by decide))

/-- **One role for each call**, along a run whose entries and re-entries sell no call that is
held short under the other role. -/
theorem calls_oneRole {start : PaperTrades} {steps : List CallStep} (hstart : OneRole expiryType start)
    (hfree : Run.EachStep (next expiryType) (SellsFree expiryType) start steps) :
    Run.Along (next expiryType) (OneRole expiryType) start steps :=
  Run.along_of_invariant (fun _ step h hstep => step_oneRole expiryType step h hstep) (fun _ => id) hstart hfree

/-! ### A collar re-entered on the covered call -/

/-- An option in the BOD file, of 30 June 2026. -/
private def listedOption (key optionType : String) : Instrument where
  instrumentKey := key
  instrumentType := some optionType
  underlyingSymbol := "NIFTY"
  expiry := some 739797
  lotSize := some 65

/-- The options that are selected. -/
private def listedOptions : InstrumentLookup :=
  ⟨[listedOption "NSE_FO|65800" "PE", listedOption "NSE_FO|65900" "CE", listedOption "NSE_FO|65910" "CE"]⟩

/-- A row of the chain. -/
private def chainRow (key : String) : SelectedRow where
  strike := 25000
  instrumentKey := key
  mid := 100
  ltp := 100
  gateSpread := none
  oi := 1000

/-- `--auto-cc`. -/
private def sellsCc : EntryRun where
  autoCc := true
  bod := some listedOptions
  selectCall _ := some (chainRow "NSE_FO|65900")
  text := { strike := toString, spreadPct := fun _ => "None", oi := toString }

/-- `--auto-collar`. -/
private def sellsCollar : EntryRun where
  autoCollar := true
  bod := some listedOptions
  selectPair _ := some (chainRow "NSE_FO|65910", chainRow "NSE_FO|65800")
  text := { strike := toString, spreadPct := fun _ => "None", oi := toString }

/-- A collar that is re-entered with the call of the covered call. -/
private def reenters : CollarAction where
  actionType := .closeAndReenterCollar
  today := 739775
  triggeringSignal := some "PROFIT_TARGET"
  choice := some
    { putKey := "NSE_FO|65800"
      putPrice := 90
      callKey := "NSE_FO|65900"
      callPrice := 80
      expiry := "2026-06-30"
      dte := 22 }

/-- The call is then held short under both roles. -/
theorem reentry_sells_coveredCall : ¬Run.Along (next .monthly) (OneRole .monthly) PaperTrades.empty
    [.entry 739770 sellsCc, .entry 739770 sellsCollar, .collar none reenters] := by
  rw [Run.along_iff_final]
  exact fun h => h _ List.prefix_rfl "NSE_FO|65900" ⟨by decide +kernel, by decide +kernel⟩

/-- Without the re-entry there is one role for each call. -/
theorem calls_oneRole_entries : Run.Along (next .monthly) (OneRole .monthly) PaperTrades.empty
    [.entry 739770 sellsCc, .entry 739770 sellsCollar] :=
  calls_oneRole .monthly (fun _ hboth => absurd hboth.1 (lt_irrefl (0 : ℤ)))
    ⟨fun hfails => absurd hfails (by decide), fun hfails => absurd hfails (by decide), trivial⟩

end NiftyShield.ThreeTrack.ShortCalls
