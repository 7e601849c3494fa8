import NiftyShield.Strategy.Executor

/-!
# When the paper executor raises

`PaperExecutor.apply` (`src/strategy/executor.py`) resolves the price of each leg after it has
written the legs before it, and every write is committed at once. A leg without a price in the
chain ends the call with an exception, and what was written stays.

## What is proved

* `fillAll_returns_iff`: the call returns exactly when every position it picks in turn has a
  price and every leg to open can be filled (`AllFillable`).
* `apply_unchanged_iff`: an exception leaves the ledger as it was if and only if there is none,
  or the first leg that is not idle is the one that cannot be filled (`FailsFirst`).
-/

namespace NiftyShield.Strategy

open NiftyShield.Instruments NiftyShield.Lib NiftyShield.Lib.Raising NiftyShield.Paper

/-! ### Legs that can be filled -/

/-- The chain has a positive price for the instrument. -/
def Priced (ctx : ExecContext) (instrumentKey : String) : Prop :=
  ∃ leg price, findOptionLeg instrumentKey ctx.market ctx.instrumentLookup = some leg ∧ resolvePrice leg = some price

/-- The leg can be opened: its direction is one, it has a price, and its trade passes the
validators. -/
structure Fillable (ctx : ExecContext) (spec : LegSpec) : Prop where
  /-- `"BUY"` or `"SELL"`. -/
  action : (TradeAction.ofValue spec.action).isSome
  /-- It is in the chain at a price. -/
  priced : Priced ctx spec.instrumentKey
  /-- The `paper_` prefix. -/
  paperPrefix : hasPaperPrefix ctx.strategyName = true
  /-- `min_length=1`. -/
  legRole_ne : spec.legRole ≠ ""
  /-- `min_length=1`. -/
  instrumentKey_ne : spec.instrumentKey ≠ ""
  /-- `gt=0`. -/
  quantity_pos : 0 < spec.quantity

/-- The positions that the closing phase picks in turn, by the positions before the call and the
keys already taken. A position that was closed is out. -/
def pickedInTurn (ctx : ExecContext) (taken : PaperTrade.UniqueKey → Bool) :
    List PaperPosition → List LegClose → List PaperPosition
  | _, [] => []
  | ps, leg :: legs =>
    match PaperTrades.pickPosition ps leg.legRole leg.instrumentKey with
    | none => pickedInTurn ctx taken ps legs
    | some p =>
      p :: pickedInTurn ctx taken (if taken (closeKey ctx p) then ps else ps.filter fun q => q.pair ≠ p.pair) legs

/-- Every leg can be filled. -/
def AllFillable (ctx : ExecContext) (T : PaperTrades) (legs : List LegClose) (specs : List LegSpec) : Prop :=
  (∀ p ∈ pickedInTurn ctx T.hasKey (positions ctx T) legs, Priced ctx p.instrumentKey) ∧
    ∀ spec ∈ specs, Fillable ctx spec

/-- A leg to close that writes nothing: it is flat, or it has a price and its closing key is taken. -/
def IdleClose (ctx : ExecContext) (T : PaperTrades) (leg : LegClose) : Prop :=
  ∀ p, PaperTrades.pickPosition (positions ctx T) leg.legRole leg.instrumentKey = some p →
    Priced ctx p.instrumentKey ∧ T.hasKey (closeKey ctx p) = true

/-- A leg to open that writes nothing: its opening key is taken. -/
def IdleOpen (ctx : ExecContext) (T : PaperTrades) (spec : LegSpec) : Prop :=
  Fillable ctx spec ∧ ∃ a, TradeAction.ofValue spec.action = some a ∧ T.hasKey (openKey ctx spec a) = true

/-- The first leg that is not idle, by the ledger before the call, is one that cannot be filled. -/
inductive FailsFirst (ctx : ExecContext) (T : PaperTrades) : List LegClose → List LegSpec → Prop where
  /-- A leg to close has no price. -/
  | unpriced {leg : LegClose} {legs specs p}
      (pick : PaperTrades.pickPosition (positions ctx T) leg.legRole leg.instrumentKey = some p)
      (noPrice : ¬ Priced ctx p.instrumentKey) : FailsFirst ctx T (leg :: legs) specs
  /-- A leg to close is idle. -/
  | idleClose {leg legs specs} (idle : IdleClose ctx T leg) (rest : FailsFirst ctx T legs specs) :
      FailsFirst ctx T (leg :: legs) specs
  /-- A leg to open cannot be filled. -/
  | unfillable {spec specs} (unfillable : ¬ Fillable ctx spec) : FailsFirst ctx T [] (spec :: specs)
  /-- A leg to open is idle. -/
  | idleOpen {spec specs} (idle : IdleOpen ctx T spec) (rest : FailsFirst ctx T [] specs) :
      FailsFirst ctx T [] (spec :: specs)

/-! ### What one leg does -/

section Steps

variable {ctx : ExecContext} {T : PaperTrades}

theorem resolveMidPrice_priced {key : String} (h : Priced ctx key) :
    ∃ m, resolveMidPrice ctx key T = .ok m T := by
  obtain ⟨leg, m, hleg, hm⟩ := h
  refine ⟨m, ?_⟩
  unfold resolveMidPrice
  rw [hleg]
  exact fromOption_of_some hm T

theorem resolveMidPrice_unpriced {key : String} (h : ¬ Priced ctx key) :
    ∃ e, resolveMidPrice ctx key T = .error e T := by
  unfold resolveMidPrice
  cases hleg : findOptionLeg key ctx.market ctx.instrumentLookup with
  | none => exact ⟨_, rfl⟩
  | some leg =>
    cases hm : resolvePrice leg with
    | none => exact ⟨.noValidPrice leg.bid leg.ask leg.ltp, fromOption_of_none hm T⟩
    | some m => exact absurd ⟨leg, m, hleg, hm⟩ h

theorem closeLeg_of_pick {leg : LegClose} {p : PaperPosition}
    (h : PaperTrades.pickPosition (positions ctx T) leg.legRole leg.instrumentKey = some p) :
    closeLeg ctx leg T = (do
      let midPrice ← resolveMidPrice ctx p.instrumentKey
      let fill := simulateFill p.instrumentKey (closeAction p).value |p.netQty| midPrice ctx.vix
      let trade ← fromOption .invalidTrade
        (PaperTrade.validate ctx.strategyName leg.legRole p.instrumentKey ctx.today (closeAction p)
          fill.quantity fill.fillPrice ("executor_close approval_id=" ++ toString ctx.approvalId) none .open)
      let inserted ← updates fun T => T.recordTrade trade
      if inserted then updates fun T => (T.markTradeClosed ctx.strategyName leg.legRole p.instrumentKey, ())
      else pure ()) T := by
  have hopen := (getPositions_open (mem_of_pickPosition h).1).2.1
  rw [positions] at h
  rw [closeLeg, bind_of_ok (reads_run _ T)]
  simp only [PaperTrades.getPosition, h, Option.getD_some, if_neg hopen]

/-- **A leg to close**: an open one without a price raises before anything is written, any other
returns. -/
theorem closeLeg_unpriced {leg : LegClose} {p : PaperPosition}
    (h : PaperTrades.pickPosition (positions ctx T) leg.legRole leg.instrumentKey = some p)
    (hp : ¬ Priced ctx p.instrumentKey) : ∃ e, closeLeg ctx leg T = .error e T := by
  obtain ⟨e, he⟩ := resolveMidPrice_unpriced (T := T) hp
  exact ⟨e, by rw [closeLeg_of_pick h, bind_of_error he]⟩

theorem closeLeg_returns {leg : LegClose}
    (h : ∀ p, PaperTrades.pickPosition (positions ctx T) leg.legRole leg.instrumentKey = some p →
      Priced ctx p.instrumentKey) : ∃ T', closeLeg ctx leg T = .ok () T' := by
  cases hpick : PaperTrades.pickPosition (positions ctx T) leg.legRole leg.instrumentKey with
  | none =>
    rw [positions] at hpick
    refine ⟨T, ?_⟩
    rw [closeLeg, bind_of_ok (reads_run _ T)]
    simp only [PaperTrades.getPosition, hpick, Option.getD_none]
    rfl
  | some p =>
    obtain ⟨hmem, hrole, -⟩ := mem_of_pickPosition hpick
    obtain ⟨hpaper, hroleNe, hkeyNe, hopen⟩ := getPositions_valid hmem
    obtain ⟨m, hm⟩ := resolveMidPrice_priced (T := T) (h p hpick)
    obtain ⟨t, ht⟩ := (exists_validate_iff
      (q := (simulateFill p.instrumentKey (closeAction p).value |p.netQty| m ctx.vix).quantity)).mpr
      ⟨hpaper, hrole ▸ hroleNe, hkeyNe, abs_pos.mpr hopen,
        fillPrice_pos p.instrumentKey (closeAction p).value |p.netQty| m ctx.vix⟩
    rw [closeLeg_of_pick hpick, bind_of_ok hm, bind_of_ok (fromOption_of_some ht T), bind_of_ok (updates_run _ T)]
    cases (T.recordTrade t).2 with
    | true => exact ⟨_, rfl⟩
    | false => exact ⟨_, rfl⟩

/-- **A leg to open**: it returns if it can be filled, and else raises before anything is written. -/
theorem openLeg_returns {spec : LegSpec} (h : Fillable ctx spec) : ∃ T', openLeg ctx spec T = .ok () T' := by
  obtain ⟨a, ha⟩ := Option.isSome_iff_exists.mp h.action
  obtain ⟨m, hm⟩ := resolveMidPrice_priced (T := T) h.priced
  obtain ⟨t, ht⟩ := (exists_validate_iff
    (q := (simulateFill spec.instrumentKey spec.action spec.quantity m ctx.vix).quantity)).mpr
    ⟨h.paperPrefix, h.legRole_ne, h.instrumentKey_ne, h.quantity_pos,
      fillPrice_pos spec.instrumentKey spec.action spec.quantity m ctx.vix⟩
  refine ⟨(T.recordTrade t).1, ?_⟩
  rw [openLeg, bind_of_ok (fromOption_of_some ha T), bind_of_ok hm, bind_of_ok (fromOption_of_some ht T),
    bind_of_ok (updates_run _ T), pure_run]

theorem openLeg_unfillable {spec : LegSpec} (h : ¬ Fillable ctx spec) : ∃ e, openLeg ctx spec T = .error e T := by
  cases ha : TradeAction.ofValue spec.action with
  | none => exact ⟨_, by rw [openLeg, bind_of_error (fromOption_of_none ha T)]⟩
  | some a =>
    by_cases hp : Priced ctx spec.instrumentKey
    · obtain ⟨m, hm⟩ := resolveMidPrice_priced (T := T) hp
      refine ⟨.invalidTrade, ?_⟩
      rw [openLeg, bind_of_ok (fromOption_of_some ha T), bind_of_ok hm, bind_of_error (fromOption_of_none ?_ T)]
      refine Option.eq_none_iff_forall_ne_some.mpr fun t ht => h ?_
      obtain ⟨hpaper, hrole, hkey, hqty, -⟩ := exists_validate_iff.mp ⟨t, ht⟩
      exact ⟨by simp [ha], hp, hpaper, hrole, hkey, hqty⟩
    · obtain ⟨e, he⟩ := resolveMidPrice_unpriced (T := T) hp
      exact ⟨e, by rw [openLeg, bind_of_ok (fromOption_of_some ha T), bind_of_error he]⟩

end Steps

/-! ### No write is undone -/

/-- No key that is taken becomes free. -/
def KeysKept (T T' : PaperTrades) : Prop := ∀ k, T.hasKey k = true → T'.hasKey k = true

theorem KeysKept.refl (T : PaperTrades) : KeysKept T T := fun _ h => h

theorem KeysKept.trans (T U V : PaperTrades) (h : KeysKept T U) (h' : KeysKept U V) : KeysKept T V :=
  fun k hk => h' k (h k hk)

theorem keysKept_recordTrade (T : PaperTrades) (t : PaperTrade) : KeysKept T (T.recordTrade t).1 := fun k hk => by
  by_cases hkey : t.uniqueKey = k
  · exact hkey ▸ T.hasKey_recordTrade_self t
  · rwa [T.hasKey_recordTrade_of_ne hkey]

theorem keeps_resolveMidPrice (ctx : ExecContext) (key : String) : Keeps KeysKept (resolveMidPrice ctx key) := by
  unfold resolveMidPrice
  cases findOptionLeg key ctx.market ctx.instrumentLookup with
  | none => exact KeysKept.refl
  | some leg => exact keeps_fromOption KeysKept.refl _ _

theorem keeps_closeLeg (ctx : ExecContext) (leg : LegClose) : Keeps KeysKept (closeLeg ctx leg) := by
  refine keeps_bind KeysKept.trans (keeps_reads KeysKept.refl _) fun position => ?_
  by_cases hflat : position.netQty = 0
  · rw [if_pos hflat]
    exact keeps_pure KeysKept.refl ()
  rw [if_neg hflat]
  refine keeps_bind KeysKept.trans (keeps_resolveMidPrice ctx _) fun midPrice => ?_
  refine keeps_bind KeysKept.trans (keeps_fromOption KeysKept.refl _ _) fun trade => ?_
  refine keeps_bind KeysKept.trans (keeps_updates fun T => keysKept_recordTrade T trade) fun inserted => ?_
  cases inserted with
  | true =>
    exact keeps_updates fun T k hk => by rwa [PaperTrades.markTradeClosed, PaperTrades.hasKey_updateState]
  | false => exact keeps_pure KeysKept.refl ()

theorem keeps_openLeg (ctx : ExecContext) (spec : LegSpec) : Keeps KeysKept (openLeg ctx spec) := by
  refine keeps_bind KeysKept.trans (keeps_fromOption KeysKept.refl _ _) fun a => ?_
  refine keeps_bind KeysKept.trans (keeps_resolveMidPrice ctx _) fun midPrice => ?_
  refine keeps_bind KeysKept.trans (keeps_fromOption KeysKept.refl _ _) fun trade => ?_
  exact keeps_bind KeysKept.trans (keeps_updates fun T => keysKept_recordTrade T trade) fun _ =>
    keeps_pure KeysKept.refl ()

theorem keeps_openLegs (ctx : ExecContext) : ∀ specs : List LegSpec, Keeps KeysKept (openLegs ctx specs)
  | [] => keeps_pure KeysKept.refl ()
  | spec :: specs => keeps_bind KeysKept.trans (keeps_openLeg ctx spec) fun _ => keeps_openLegs ctx specs

/-- Everything `apply` writes. -/
def fillAll (ctx : ExecContext) (legs : List LegClose) (specs : List LegSpec) : Exec Unit :=
  closeLegs ctx legs >>= fun _ => openLegs ctx specs

theorem fillAll_nil (ctx : ExecContext) (specs : List LegSpec) : fillAll ctx [] specs = openLegs ctx specs := rfl

theorem fillAll_cons (ctx : ExecContext) (leg : LegClose) (legs : List LegClose) (specs : List LegSpec)
    (T : PaperTrades) :
    fillAll ctx (leg :: legs) specs T = (closeLeg ctx leg >>= fun _ => fillAll ctx legs specs) T := by
  show (closeLegs ctx (leg :: legs) >>= fun _ => openLegs ctx specs) T = _
  rw [closeLegs, bind_run, bind_run, bind_run]
  cases closeLeg ctx leg T with
  | ok a U => rfl
  | error e U => rfl

theorem keeps_fillAll (ctx : ExecContext) (specs : List LegSpec) :
    ∀ legs : List LegClose, Keeps KeysKept (fillAll ctx legs specs)
  | [] => keeps_openLegs ctx specs
  | leg :: legs => fun T => by
    rw [fillAll_cons]
    exact keeps_bind KeysKept.trans (keeps_closeLeg ctx leg) (fun _ => keeps_fillAll ctx specs legs) T

/-- `apply` raises as its writes do. -/
theorem apply_error_iff {ctx : ExecContext} {action : ApprovedAction} {T T' : PaperTrades} {e : ExecError} :
    apply ctx action T = .error e T' ↔ fillAll ctx action.legsToClose action.legsToOpen T = .error e T' := by
  unfold apply fillAll
  rw [bind_run, bind_run]
  cases closeLegs ctx action.legsToClose T with
  | error e U => simp
  | ok a U =>
    simp only
    rw [bind_run]
    cases openLegs ctx action.legsToOpen U with
    | error e V => simp
    | ok b V => simp [reads_run]

/-! ### When the call returns -/

section Runs

variable {ctx : ExecContext}

theorem pickedInTurn_congr {taken taken' : PaperTrade.UniqueKey → Bool} (legs : List LegClose) :
    ∀ {ps : List PaperPosition}, (∀ p ∈ ps, taken (closeKey ctx p) = taken' (closeKey ctx p)) →
      pickedInTurn ctx taken ps legs = pickedInTurn ctx taken' ps legs := by
  induction legs with
  | nil => exact fun _ => rfl
  | cons leg legs ih =>
    intro ps h
    rw [pickedInTurn, pickedInTurn]
    cases hpick : PaperTrades.pickPosition ps leg.legRole leg.instrumentKey with
    | none => exact ih h
    | some q =>
      simp only [h q (mem_of_pickPosition hpick).1]
      rw [ih fun p hp => h p (by split at hp; exacts [hp, (List.mem_filter.mp hp).1])]

/-- The state that a closing leg leaves has the positions left for the legs after it. -/
theorem pickedInTurn_cons {T T₁ : PaperTrades} {leg : LegClose} (h : closeLeg ctx leg T = .ok () T₁)
    (legs : List LegClose) :
    pickedInTurn ctx T.hasKey (positions ctx T) (leg :: legs) =
      (PaperTrades.pickPosition (positions ctx T) leg.legRole leg.instrumentKey).toList ++
        pickedInTurn ctx T₁.hasKey (positions ctx T₁) legs := by
  rw [pickedInTurn]
  rcases closeLeg_cases h with ⟨hpick, rfl⟩ | ⟨p, hpick, ⟨hdup, rfl⟩ | ⟨t, hfree, hkey, hqty, rfl⟩⟩
  · simp [hpick]
  · simp [hpick, hdup]
  · have hfree' : T.hasKey (closeKey ctx p) = false := hkey ▸ hfree
    rw [positions_close (mem_of_pickPosition hpick).1 hfree hkey hqty,
      pickedInTurn_congr legs fun q hq =>
        hasKey_close hkey (by simpa using (List.mem_filter.mp hq).2) leg.legRole]
    simp [hpick, hfree']

theorem openLegs_returns_iff {specs : List LegSpec} : ∀ {T : PaperTrades},
    (∃ T', openLegs ctx specs T = .ok () T') ↔ ∀ spec ∈ specs, Fillable ctx spec := by
  induction specs with
  | nil => exact fun {T} => iff_of_true ⟨T, rfl⟩ (by simp)
  | cons spec specs ih =>
    intro T
    rw [List.forall_mem_cons]
    by_cases h : Fillable ctx spec
    · obtain ⟨T₁, h₁⟩ := openLeg_returns (T := T) h
      rw [openLegs, bind_of_ok h₁, ih, and_iff_right h]
    · obtain ⟨e, he⟩ := openLeg_unfillable (T := T) h
      rw [openLegs, bind_of_error he]
      simp [h]

theorem allFillable_cons {T T₁ : PaperTrades} {leg : LegClose} (legs : List LegClose) (specs : List LegSpec)
    (h : ∀ p, PaperTrades.pickPosition (positions ctx T) leg.legRole leg.instrumentKey = some p →
      Priced ctx p.instrumentKey) (h₁ : closeLeg ctx leg T = .ok () T₁) :
    AllFillable ctx T (leg :: legs) specs ↔ AllFillable ctx T₁ legs specs := by
  rw [AllFillable, AllFillable, pickedInTurn_cons h₁, List.forall_mem_append, and_assoc, and_iff_right]
  exact fun p hp => h p (Option.mem_toList.mp hp)

/-- **The call returns** exactly when every leg can be filled. -/
theorem fillAll_returns_iff {legs : List LegClose} {specs : List LegSpec} : ∀ {T : PaperTrades},
    (∃ T', fillAll ctx legs specs T = .ok () T') ↔ AllFillable ctx T legs specs := by
  induction legs with
  | nil =>
    intro T
    rw [fillAll_nil, openLegs_returns_iff, AllFillable, pickedInTurn]
    simp
  | cons leg legs ih =>
    intro T
    by_cases h : ∀ p, PaperTrades.pickPosition (positions ctx T) leg.legRole leg.instrumentKey = some p →
        Priced ctx p.instrumentKey
    · obtain ⟨T₁, h₁⟩ := closeLeg_returns h
      rw [fillAll_cons, bind_of_ok h₁, ih, allFillable_cons legs specs h h₁]
    · obtain ⟨p, h⟩ := not_forall.mp h
      obtain ⟨hpick, hp⟩ := Classical.not_imp.mp h
      obtain ⟨e, he⟩ := closeLeg_unpriced hpick hp
      rw [fillAll_cons, bind_of_error he]
      refine iff_of_false (by simp) fun hall => hp (hall.1 p ?_)
      rw [pickedInTurn, hpick]
      exact List.mem_cons_self

/-! ### When it leaves the ledger as it was -/

/-- An exception leaves the ledger as it was. -/
def Unchanged (ctx : ExecContext) (legs : List LegClose) (specs : List LegSpec) (T : PaperTrades) : Prop :=
  ∀ e T', fillAll ctx legs specs T = .error e T' → T' = T

/-- After a write, an exception is too late. -/
theorem unchanged_after_write {T T₁ : PaperTrades} {legs : List LegClose} {specs : List LegSpec}
    {k : PaperTrade.UniqueKey} (hfree : T.hasKey k = false) (htaken : T₁.hasKey k = true) :
    (∀ e T', fillAll ctx legs specs T₁ = .error e T' → T' = T) ↔ AllFillable ctx T₁ legs specs := by
  rw [← fillAll_returns_iff]
  have hkept := keeps_fillAll ctx specs legs T₁ k htaken
  cases hrun : fillAll ctx legs specs T₁ with
  | ok a T' => simp
  | error e T' =>
    rw [hrun, finalState_error] at hkept
    refine iff_of_false (fun h => ?_) (by simp)
    rw [h e T' rfl, hfree] at hkept
    exact Bool.false_ne_true hkept

/-- Behind a leg to close that has a price, one fails first when that leg is idle. -/
theorem failsFirst_close_iff {T : PaperTrades} {leg : LegClose} {legs : List LegClose} {specs : List LegSpec}
    (h : ∀ p, PaperTrades.pickPosition (positions ctx T) leg.legRole leg.instrumentKey = some p →
      Priced ctx p.instrumentKey) :
    FailsFirst ctx T (leg :: legs) specs ↔ IdleClose ctx T leg ∧ FailsFirst ctx T legs specs := by
  constructor
  · intro hfails
    cases hfails with
    | unpriced hpick hp => exact absurd (h _ hpick) hp
    | idleClose hidle hrest => exact ⟨hidle, hrest⟩
  · exact fun hfails => .idleClose hfails.1 hfails.2

/-- Behind a leg to open that can be filled, one fails first when that leg is idle. -/
theorem failsFirst_open_iff {T : PaperTrades} {spec : LegSpec} {specs : List LegSpec} (h : Fillable ctx spec) :
    FailsFirst ctx T [] (spec :: specs) ↔ IdleOpen ctx T spec ∧ FailsFirst ctx T [] specs := by
  constructor
  · intro hfails
    cases hfails with
    | unfillable hun => exact absurd h hun
    | idleOpen hidle hrest => exact ⟨hidle, hrest⟩
  · exact fun hfails => .idleOpen hfails.1 hfails.2

/-- A leg to close that has a price is idle and writes nothing, or it writes a key. -/
theorem closeLeg_idle_or_writes {T T₁ : PaperTrades} {leg : LegClose}
    (h : ∀ p, PaperTrades.pickPosition (positions ctx T) leg.legRole leg.instrumentKey = some p →
      Priced ctx p.instrumentKey) (h₁ : closeLeg ctx leg T = .ok () T₁) :
    (IdleClose ctx T leg ∧ T₁ = T) ∨
      (¬ IdleClose ctx T leg ∧ ∃ k, T.hasKey k = false ∧ T₁.hasKey k = true) := by
  rcases closeLeg_cases h₁ with ⟨hpick, hsame⟩ | ⟨p, hpick, ⟨hdup, hsame⟩ | ⟨t, hfree, hkey, -, rfl⟩⟩
  · exact Or.inl ⟨fun p hp => absurd (hpick.symm.trans hp) (by simp), hsame⟩
  · refine Or.inl ⟨fun q hq => ?_, hsame⟩
    obtain rfl := Option.some.inj (hpick.symm.trans hq)
    exact ⟨h p hpick, hdup⟩
  · refine Or.inr ⟨fun hidle => ?_, t.uniqueKey, hfree, ?_⟩
    · have htaken := (hidle p hpick).2
      rw [← hkey, hfree] at htaken
      exact Bool.false_ne_true htaken
    · rw [PaperTrades.markTradeClosed, PaperTrades.hasKey_updateState, PaperTrades.hasKey_recordTrade_self]

/-- An exception in the opening phase. -/
theorem unchanged_nil_iff {T : PaperTrades} : ∀ {specs : List LegSpec},
    Unchanged ctx [] specs T ↔ AllFillable ctx T [] specs ∨ FailsFirst ctx T [] specs
  | [] => iff_of_true (fun e T' h => absurd h pure_ne_error) (Or.inl ⟨by simp [pickedInTurn], by simp⟩)
  | spec :: specs => by
    by_cases hfill : Fillable ctx spec
    · obtain ⟨T₁, h₁⟩ := openLeg_returns (T := T) hfill
      obtain ⟨a, t, ha, hkey, -, rfl⟩ := openLeg_ok h₁
      have hrun : fillAll ctx [] (spec :: specs) T = fillAll ctx [] specs (T.recordTrade t).1 := by
        rw [fillAll_nil, openLegs, bind_of_ok h₁, fillAll_nil]
      have hall : ∀ U, AllFillable ctx U [] (spec :: specs) ↔ AllFillable ctx T [] specs := fun U => by
        simp [AllFillable, pickedInTurn, hfill]
      rw [Unchanged, hrun, hall, failsFirst_open_iff hfill]
      cases hdup : T.hasKey t.uniqueKey with
      | true =>
        -- the leg writes nothing: the rest of the legs find the same ledger
        have hidle : IdleOpen ctx T spec := ⟨hfill, a, ha, hkey ▸ hdup⟩
        rw [PaperTrades.recordTrade_duplicate hdup, and_iff_right hidle]
        exact unchanged_nil_iff
      | false =>
        have hbusy : ¬ IdleOpen ctx T spec := by
          rintro ⟨-, b, hb, htaken⟩
          obtain rfl := Option.some.inj (ha.symm.trans hb)
          rw [← hkey, hdup] at htaken
          exact Bool.false_ne_true htaken
        rw [unchanged_after_write hdup (T.hasKey_recordTrade_self t), or_iff_left fun hfails => hbusy hfails.1]
        simp [AllFillable, pickedInTurn]
    · obtain ⟨e, he⟩ := openLeg_unfillable (T := T) hfill
      refine iff_of_true (fun e' T' h => ?_) (Or.inr (FailsFirst.unfillable hfill))
      rw [fillAll_nil, openLegs, bind_of_error he] at h
      exact (EStateM.Result.error.inj h).2.symm

/-- An exception in either phase. -/
theorem unchanged_iff {T : PaperTrades} {specs : List LegSpec} : ∀ {legs : List LegClose},
    Unchanged ctx legs specs T ↔ AllFillable ctx T legs specs ∨ FailsFirst ctx T legs specs
  | [] => unchanged_nil_iff
  | leg :: legs => by
    by_cases h : ∀ p, PaperTrades.pickPosition (positions ctx T) leg.legRole leg.instrumentKey = some p →
        Priced ctx p.instrumentKey
    · obtain ⟨T₁, h₁⟩ := closeLeg_returns h
      have hrun : fillAll ctx (leg :: legs) specs T = fillAll ctx legs specs T₁ := by
        rw [fillAll_cons, bind_of_ok h₁]
      rw [Unchanged, hrun, allFillable_cons legs specs h h₁, failsFirst_close_iff h]
      rcases closeLeg_idle_or_writes h h₁ with ⟨hidle, rfl⟩ | ⟨hbusy, k, hfree, htaken⟩
      · rw [and_iff_right hidle]
        exact unchanged_iff
      · rw [unchanged_after_write hfree htaken, or_iff_left fun hfails => hbusy hfails.1]
    · obtain ⟨p, h⟩ := not_forall.mp h
      obtain ⟨hpick, hp⟩ := Classical.not_imp.mp h
      obtain ⟨e, he⟩ := closeLeg_unpriced hpick hp
      refine iff_of_true (fun e' T' h => ?_) (Or.inr (FailsFirst.unpriced hpick hp))
      rw [fillAll_cons, bind_of_error he] at h
      exact (EStateM.Result.error.inj h).2.symm

end Runs

/-- **An exception leaves the ledger as it was** if and only if there is none, or the first leg
that is not idle is the one that cannot be filled. -/
theorem apply_unchanged_iff (ctx : ExecContext) (action : ApprovedAction) (T : PaperTrades) :
    (∀ e T', apply ctx action T = .error e T' → T' = T) ↔
      AllFillable ctx T action.legsToClose action.legsToOpen ∨
        FailsFirst ctx T action.legsToClose action.legsToOpen := by
  rw [← unchanged_iff]
  exact forall₂_congr fun e T' => by rw [apply_error_iff]

/-! ### Half a spread -/

/-- A leg of the spread of `paper_ic_nifty_v2`, sold or bought at 120. -/
private def spreadTrade (role key : String) (a : TradeAction) (hrole : role ≠ "") (hkey : key ≠ "") : PaperTrade where
  strategyName := "paper_ic_nifty_v2"
  legRole := role
  instrumentKey := key
  tradeDate := 739790
  action := a
  quantity := 65
  price := 120
  paperPrefix := by decide
  legRole_ne := hrole
  instrumentKey_ne := hkey
  quantity_pos := lot_pos
  price_pos := price120_pos

/-- A put spread: the 22500 put bought, the 23000 put sold. -/
def putSpreadLedger : PaperTrades :=
  ((PaperTrades.empty.recordTrade
    (spreadTrade "long_put" "NSE_FO|NIFTY22500PE" .buy (by decide) (by decide))).1.recordTrade
    (spreadTrade "short_put" "NSE_FO|NIFTY23000PE" .sell shortPut_ne key23000Put_ne)).1

/-- A chain without the 23000 put. -/
def thinContext : ExecContext where
  strategyName := "paper_ic_nifty_v2"
  market :=
    { underlyingSpot := 24000
      expiry := 739797
      strikes := Dict.empty.set 22500 { pe := some { ltp := 41, bid := 40, ask := 42, strike := 22500 } } }
  today := 739791

/-- Close both legs, the long one first. -/
def closePutSpread : ApprovedAction where
  actionType := "CLOSE_FULL"
  legsToClose := [{ legRole := "long_put" }, { legRole := "short_put" }]
  legsToOpen := []
  rationale := "hard stop"
  councilRank := 1

/-- The long put is sold before the short put is found to have no price: the short is naked. -/
theorem putSpread_half_closed :
    ¬ ∀ (ctx : ExecContext) (action : ApprovedAction) (T : PaperTrades) (e : ExecError) (T' : PaperTrades),
      apply ctx action T = .error e T' → T' = T := by
  intro h
  have hrun : raisesWith (fun _ T' => decide (T'.rows.length = 3))
      (apply thinContext closePutSpread putSpreadLedger) = true := by decide +kernel
  obtain ⟨e, T', hraise, hlen⟩ := raisesWith_iff.mp hrun
  rw [h _ _ _ e T' hraise] at hlen
  exact absurd (of_decide_eq_true hlen) (by decide +kernel)

end NiftyShield.Strategy
