import NiftyShield.Lib.Run
import NiftyShield.Strategy.OverlayCloser

/-!
# The collar overlay

`CollarOverlayV1.apply_action` (`src/strategy/collar_overlay_v1.py`): close the short call
and the long put in one batch of `record_trades`, then, for `CLOSE_AND_REENTER_COLLAR`,
select a new pair (`src/strategy/collar_entry.py`) and write it in a second batch. A trade
whose unique key is taken is dropped from its batch, and the second batch does not look at
what the first one wrote.

## What is proved

* `buildCloseTrade_of_mem`: a position of the ledger always has a closing trade;
* `netQty_closeBothLegs`, `netQty_reenterCollar`: what each batch does to the net
  quantities, with the dropped trades;
* `collar_whole_iff`: along a run from a ledger with no collar leg or one whole pair, every
  action leaves such a ledger and really closes the pair it found exactly when each action
  finds both legs or none, no closing trade is a duplicate, and the two new legs are both
  duplicates or neither is.

## Honest scope

The selection of the new pair is a parameter of each action: the two instruments and their
prices, or nothing when a gate, the chain or the broker fails. The positions an action
acts on are any part of what the store returns at that moment. The notifications and the
re-entry notice that is logged between the two batches write no trade.
-/

namespace NiftyShield.Strategy.CollarOverlay

open NiftyShield.Instruments NiftyShield.Lib NiftyShield.Lib.Run NiftyShield.Paper
open OverlayCloser (shortCallRole longPutRole collarRoles)

/-! ### The action -/

/-- `_leg_close_matches`: the role, and the instrument if the leg names one. -/
def legCloseMatches (pos : PaperPosition) (leg : LegClose) : Bool :=
  if pos.legRole ≠ leg.legRole then false
  else
    match leg.instrumentKey with
    | some key => pos.instrumentKey = key
    | none => true

/-- The two action types the strategy accepts. -/
inductive CollarActionType where
  /-- `CLOSE_COLLAR`. -/
  | closeCollar
  /-- `CLOSE_AND_REENTER_COLLAR`. -/
  | closeAndReenterCollar
  deriving DecidableEq

/-- What `select_and_build_collar_entry` selects from the chain. -/
structure CollarChoice where
  /-- `put_row["instrument_key"]`. -/
  putKey : String
  /-- `put_price`. -/
  putPrice : ℚ
  /-- `call_row["instrument_key"]`. -/
  callKey : String
  /-- `call_price`. -/
  callPrice : ℚ
  /-- `expiry_str`. -/
  expiry : String
  /-- `dte`. -/
  dte : ℤ

/-- One call of `apply_action`, with what it reads besides the ledger. -/
structure CollarAction where
  /-- `action_type`. -/
  actionType : CollarActionType
  /-- `market_today()`. -/
  today : Date
  /-- `legs_to_close`. -/
  legsToClose : List LegClose := []
  /-- The positions of the store that the caller passes. -/
  passed : PaperPosition → Bool := fun _ => true
  /-- The mark in the metadata, if it is a number. -/
  mark : Option ℚ := none
  /-- The triggering signal in the metadata. -/
  triggeringSignal : Option String := none
  /-- The new pair, if one can be selected. -/
  choice : Option CollarChoice := none

/-- The price a leg is closed at: the mark, else the average price it was opened at. -/
def closePrice (pos : PaperPosition) (action : TradeAction) (mark : Option ℚ) : ℚ :=
  if mark.getD 0 ≤ 0 then
    match action with
    | .buy => pos.avgSellPrice
    | .sell => pos.avgCost
  else mark.getD 0

/-- `_build_close_trade`. -/
def buildCloseTrade (today : Date) (pos : PaperPosition) (action : TradeAction) (mark : Option ℚ) :
    Option PaperTrade :=
  let price := closePrice pos action mark
  if price ≤ 0 then none
  else PaperTrade.validate pos.strategyName pos.legRole pos.instrumentKey today action |pos.netQty| price
    "close via apply_action" none .open

/-- `LOT_SIZE`. -/
def lotSize : ℤ := 65

/-- The two trades of a new pair, the put first; `none` when there is no selection or a
trade does not validate. -/
def entryTrades (s : String) (e : CollarAction) : Option (PaperTrade × PaperTrade) := do
  let choice ← e.choice
  let notes := "Collar reentry via " ++ (e.triggeringSignal.filter (· ≠ "")).getD "UNKNOWN" ++ ". Expiry=" ++ choice.expiry ++
    " (DTE=" ++ toString choice.dte ++ ")."
  let put ← PaperTrade.validate s longPutRole choice.putKey e.today .buy lotSize choice.putPrice notes none
    .open
  let call ← PaperTrade.validate s shortCallRole choice.callKey e.today .sell lotSize choice.callPrice notes
    none .open
  some (put, call)

section Action

variable (lookup : Option InstrumentLookup) (s : String)

/-- The first passed position of a role on its side of the market that the action's leg of
the role, if there is one, matches. -/
def findLeg (role : String) (side : ℤ → Bool) (T : PaperTrades) (e : CollarAction) : Option PaperPosition :=
  ((T.getPositions lookup s).filter e.passed).find? fun p =>
    p.legRole = role && side p.netQty && (e.legsToClose.find? fun leg => leg.legRole = role).all (legCloseMatches p)

/-- `short_call_pos`. -/
def shortCallPos : PaperTrades → CollarAction → Option PaperPosition :=
  findLeg lookup s shortCallRole fun q => decide (q < 0)

/-- `long_put_pos`. -/
def longPutPos : PaperTrades → CollarAction → Option PaperPosition :=
  findLeg lookup s longPutRole fun q => decide (0 < q)

/-- `trades_to_record`. -/
def closingTrades (T : PaperTrades) (e : CollarAction) : List PaperTrade :=
  ((shortCallPos lookup s T e).bind fun p => buildCloseTrade e.today p .buy e.mark).toList ++
    ((longPutPos lookup s T e).bind fun p => buildCloseTrade e.today p .sell none).toList

/-- `_close_both_legs`: the batch, then `mark_trade_closed` for each trade inserted. -/
def closeBothLegs (T : PaperTrades) (e : CollarAction) : PaperTrades :=
  (T.recordTrades (closingTrades lookup s T e)).1.markAllClosed
    (T.recordTrades (closingTrades lookup s T e)).2.1

/-- `_reenter_collar`. -/
def reenterCollar (T : PaperTrades) (e : CollarAction) : PaperTrades :=
  match entryTrades s e with
  | some trades => (T.recordTrades [trades.1, trades.2]).1
  | none => T

/-- `apply_action`. -/
def applyAction (T : PaperTrades) (e : CollarAction) : PaperTrades :=
  if shortCallPos lookup s T e = none ∧ longPutPos lookup s T e = none then T
  else
    match e.actionType with
    | .closeCollar => closeBothLegs lookup s T e
    | .closeAndReenterCollar => reenterCollar s (closeBothLegs lookup s T e) e

/-- The open legs of the collar. -/
def collarLegs (T : PaperTrades) : List PaperPosition :=
  (T.getPositions lookup s).filter fun p => p.legRole ∈ collarRoles

/-- No open leg, or one short call and one long put of equal quantity. -/
def CollarWhole (T : PaperTrades) : Prop :=
  collarLegs lookup s T = [] ∨ ∃ call put, (collarLegs lookup s T).Perm [call, put] ∧
    call.legRole = shortCallRole ∧ put.legRole = longPutRole ∧ call.netQty < 0 ∧ 0 < put.netQty ∧
      |call.netQty| = |put.netQty|

/-- An action that finds a leg leaves none open before it re-enters. -/
def ReallyCloses (T : PaperTrades) (e : CollarAction) : Prop :=
  (shortCallPos lookup s T e ≠ none ∨ longPutPos lookup s T e ≠ none →
      collarLegs lookup s (closeBothLegs lookup s T e) = []) ∧
    (applyAction lookup s T e ≠ closeBothLegs lookup s T e →
      collarLegs lookup s (closeBothLegs lookup s T e) = [])

/-- The action finds both legs or none; if it finds them, their closing keys are free and
the keys of the two new legs are both free or both taken. -/
def NoLegDropped (T : PaperTrades) (e : CollarAction) : Prop :=
  (shortCallPos lookup s T e = none ∧ longPutPos lookup s T e = none) ∨
    ((shortCallPos lookup s T e).isSome = true ∧ (longPutPos lookup s T e).isSome = true ∧
      (∀ p ∈ shortCallPos lookup s T e, T.hasKey ⟨s, shortCallRole, p.instrumentKey, e.today, .buy⟩ = false) ∧
      (∀ p ∈ longPutPos lookup s T e, T.hasKey ⟨s, longPutRole, p.instrumentKey, e.today, .sell⟩ = false) ∧
      (e.actionType = .closeAndReenterCollar → ∀ trades ∈ entryTrades s e,
        T.hasKey trades.1.uniqueKey = T.hasKey trades.2.uniqueKey))

instance (T : PaperTrades) (e : CollarAction) : Decidable (NoLegDropped lookup s T e) :=
  inferInstanceAs (Decidable (_ ∨ _))

end Action

variable {lookup : Option InstrumentLookup} {s : String} {T : PaperTrades} {e : CollarAction}

/-! ### The legs that are found -/

theorem findLeg_spec {role : String} {side : ℤ → Bool} {p : PaperPosition}
    (h : findLeg lookup s role side T e = some p) :
    p ∈ T.getPositions lookup s ∧ p.legRole = role ∧ side p.netQty = true := by
  have hmem := (List.mem_filter.mp (List.mem_of_find?_eq_some h)).1
  have hp := List.find?_some h
  simp only [Bool.and_eq_true, decide_eq_true_eq] at hp
  exact ⟨hmem, hp.1.1, hp.1.2⟩

/-- A position of the ledger that is open on the side the action closes always has a
closing trade, of its whole quantity. -/
theorem buildCloseTrade_of_mem {p : PaperPosition} {action : TradeAction} (hp : p ∈ T.getPositions lookup s)
    (hside : match action with | .buy => p.netQty < 0 | .sell => 0 < p.netQty) (today : Date) (mark : Option ℚ) :
    ∃ t, buildCloseTrade today p action mark = some t ∧
      t.uniqueKey = ⟨s, p.legRole, p.instrumentKey, today, action⟩ ∧ t.signedQty = -p.netQty := by
  obtain ⟨hname, hne, hkey⟩ := getPositions_open hp
  obtain ⟨hlong, hshort⟩ := avg_pos_of_mem hp
  have hprice : 0 < closePrice p action mark := by
    unfold closePrice
    split
    · cases action with
      | buy => exact hshort hside
      | sell => exact hlong hside
    next hmark => exact not_le.mp hmark
  obtain ⟨u, hu, hrole⟩ : ∃ u : PaperTrade, u.strategyName = s ∧ u.legRole = p.legRole := by
    obtain ⟨k, hk, hpos⟩ := mem_getPositions.mp hp
    obtain ⟨u, hu, hleg⟩ := Grouping.mem_keys.mp hk
    have hmem := ((PaperTrades.getTrades_perm T s).mem_iff.mp hu)
    refine ⟨u, by simpa using (List.mem_filter.mp hmem).2, ?_⟩
    exact congrArg Prod.fst (hleg.trans (pair_of_groupPosition hpos).symm)
  have hvalid : ∃ t, PaperTrade.validate p.strategyName p.legRole p.instrumentKey today action |p.netQty|
      (closePrice p action mark) "close via apply_action" none .open = some t := by
    have hpre : hasPaperPrefix p.strategyName = true := by
      rw [hname, ← hu]
      exact u.paperPrefix
    have hqty : 0 < |p.netQty|.toNat := by
      have := abs_pos.mpr hne
      omega
    rw [PaperTrade.validate, dif_pos ⟨hpre, hrole ▸ u.legRole_ne, hkey, hqty, hprice⟩]
    exact ⟨_, rfl⟩
  obtain ⟨t, ht⟩ := hvalid
  obtain ⟨hukey, hqty⟩ := validate_eq_some ht
  rw [hname] at hukey
  refine ⟨t, by rw [buildCloseTrade, if_neg (not_le.mpr hprice), ht], hukey, ?_⟩
  have haction : t.action = action := congrArg PaperTrade.UniqueKey.action hukey
  rw [PaperTrade.signedQty, haction]
  cases action with
  | buy => simpa [abs_of_neg hside] using hqty
  | sell => simpa [abs_of_pos hside] using hqty

/-! ### The legs as net quantities -/

/-- The collar's roles hold nothing. -/
def NetFlat (s : String) (T : PaperTrades) : Prop := ∀ role ∈ collarRoles, ∀ key, T.netQty s (role, key) = 0

/-- The collar's roles hold one short call and one long put of the same quantity. -/
structure HoldsPair (s : String) (T : PaperTrades) (callKey putKey : String) (q : ℤ) : Prop where
  /-- Something is held. -/
  pos : 0 < q
  /-- The call is short, and no other. -/
  call : ∀ key, T.netQty s (shortCallRole, key) = if key = callKey then -q else 0
  /-- The put is long, and no other. -/
  put : ∀ key, T.netQty s (longPutRole, key) = if key = putKey then q else 0

theorem roles_ne : shortCallRole ≠ longPutRole := by decide

theorem collarLegs_eq_nil_iff : collarLegs lookup s T = [] ↔ NetFlat s T := by
  rw [collarLegs, List.filter_eq_nil_iff]
  constructor
  · intro h role hrole key
    by_contra hne
    obtain ⟨p, hp, hpair⟩ := PaperTrades.exists_position_iff.mpr hne
    obtain ⟨rfl, -⟩ := Prod.mk.inj hpair
    exact h p hp (by simpa using hrole)
  · intro h p hp hrole
    have hzero := h p.legRole (by simpa using hrole) p.instrumentKey
    exact (getPositions_open hp).2.1 ((PaperTrades.netQty_of_mem hp).trans hzero)

/-- The open legs are one short call and one long put of equal quantity exactly when the
net quantities are those of a pair. -/
theorem exists_pair_iff :
    (∃ call put, (collarLegs lookup s T).Perm [call, put] ∧ call.legRole = shortCallRole ∧
      put.legRole = longPutRole ∧ call.netQty < 0 ∧ 0 < put.netQty ∧ |call.netQty| = |put.netQty|) ↔
      ∃ callKey putKey q, HoldsPair s T callKey putKey q := by
  constructor
  · rintro ⟨c, p, hperm, hc, hp, hshort, hlong, habs⟩
    rw [abs_of_neg hshort, abs_of_pos hlong] at habs
    have hmem : ∀ x, (x ∈ T.getPositions lookup s ∧ x.legRole ∈ collarRoles) ↔ x = c ∨ x = p := by
      intro x
      have := hperm.mem_iff (a := x)
      simpa [collarLegs] using this
    -- a pair that holds something has a position, which is one of the two
    have hnet : ∀ role ∈ collarRoles, ∀ key, T.netQty s (role, key) ≠ 0 →
        ∃ x, (x = c ∨ x = p) ∧ x.pair = (role, key) := by
      intro role hrole key hne
      obtain ⟨x, hx, hpair⟩ := PaperTrades.exists_position_iff.mpr hne
      have hxrole : x.legRole = role := congrArg Prod.fst hpair
      exact ⟨x, (hmem x).mp ⟨hx, hxrole.symm ▸ hrole⟩, hpair⟩
    have hcnet := PaperTrades.netQty_of_mem ((hmem c).mpr (Or.inl rfl)).1
    have hpnet := PaperTrades.netQty_of_mem ((hmem p).mpr (Or.inr rfl)).1
    refine ⟨c.instrumentKey, p.instrumentKey, p.netQty, hlong, fun key => ?_, fun key => ?_⟩
    · by_cases hkey : key = c.instrumentKey
      · rw [if_pos hkey, hkey, ← habs, neg_neg, hcnet, PaperPosition.pair, hc]
      · rw [if_neg hkey]
        by_contra hne
        obtain ⟨x, rfl | rfl, hpair⟩ := hnet _ (by simp [collarRoles]) key hne
        · exact hkey (congrArg Prod.snd hpair).symm
        · exact roles_ne ((congrArg Prod.fst hpair).symm.trans hp)
    · by_cases hkey : key = p.instrumentKey
      · rw [if_pos hkey, hkey, hpnet, PaperPosition.pair, hp]
      · rw [if_neg hkey]
        by_contra hne
        obtain ⟨x, rfl | rfl, hpair⟩ := hnet _ (by simp [collarRoles]) key hne
        · exact roles_ne (hc.symm.trans (congrArg Prod.fst hpair))
        · exact hkey (congrArg Prod.snd hpair).symm
  · rintro ⟨i, j, q, h⟩
    have hq := h.pos
    obtain ⟨c, hc, hcpair⟩ : ∃ c ∈ T.getPositions lookup s, c.pair = (shortCallRole, i) := by
      rw [PaperTrades.exists_position_iff, h.call, if_pos rfl]
      omega
    obtain ⟨p, hp, hppair⟩ : ∃ p ∈ T.getPositions lookup s, p.pair = (longPutRole, j) := by
      rw [PaperTrades.exists_position_iff, h.put, if_pos rfl]
      omega
    have hcnet : c.netQty = -q := by rw [PaperTrades.netQty_of_mem hc, hcpair, h.call, if_pos rfl]
    have hpnet : p.netQty = q := by rw [PaperTrades.netQty_of_mem hp, hppair, h.put, if_pos rfl]
    have hcrole : c.legRole = shortCallRole := congrArg Prod.fst hcpair
    have hprole : p.legRole = longPutRole := congrArg Prod.fst hppair
    have hne : c ≠ p := fun heq => roles_ne (hcrole.symm.trans (heq ▸ hprole))
    have hnodup : (collarLegs lookup s T).Nodup :=
      ((PaperTrades.nodup_pairs T lookup s).of_map _).filter _
    refine ⟨c, p, (List.perm_ext_iff_of_nodup hnodup (by simp [hne])).mpr fun x => ?_, hcrole, hprole,
      by omega, by omega, by rw [hcnet, hpnet, abs_neg]⟩
    simp only [collarLegs, List.mem_filter, decide_eq_true_eq, List.mem_cons, List.not_mem_nil, or_false]
    constructor
    · rintro ⟨hx, hrole⟩
      have hxnet := PaperTrades.netQty_of_mem hx
      have hxne := (getPositions_open hx).2.1
      rcases (by simpa [collarRoles] using hrole : x.legRole = shortCallRole ∨ x.legRole = longPutRole) with
        hrole | hrole
      · rw [PaperPosition.pair, hrole, h.call] at hxnet
        have hkey : x.instrumentKey = i := by
          by_contra hkey
          exact hxne (hxnet.trans (if_neg hkey))
        exact Or.inl (PaperTrades.pair_injOn hx hc (by rw [hcpair, PaperPosition.pair, hrole, hkey]))
      · rw [PaperPosition.pair, hrole, h.put] at hxnet
        have hkey : x.instrumentKey = j := by
          by_contra hkey
          exact hxne (hxnet.trans (if_neg hkey))
        exact Or.inr (PaperTrades.pair_injOn hx hp (by rw [hppair, PaperPosition.pair, hrole, hkey]))
    · rintro (rfl | rfl)
      · exact ⟨hc, by simp [collarRoles, hcrole]⟩
      · exact ⟨hp, by simp [collarRoles, hprole]⟩

theorem collarWhole_iff :
    CollarWhole lookup s T ↔ NetFlat s T ∨ ∃ callKey putKey q, HoldsPair s T callKey putKey q := by
  rw [CollarWhole, collarLegs_eq_nil_iff, exists_pair_iff]

/-! ### What an action finds -/

theorem findLeg_of_flat {role : String} {side : ℤ → Bool} (hrole : role ∈ collarRoles) (h : NetFlat s T) :
    findLeg lookup s role side T e = none := by
  cases hfind : findLeg lookup s role side T e with
  | none => rfl
  | some p =>
    obtain ⟨hp, rfl, -⟩ := findLeg_spec hfind
    exact absurd ((PaperTrades.netQty_of_mem hp).trans (h _ hrole _)) (getPositions_open hp).2.1

namespace HoldsPair

variable {i j : String} {q : ℤ}

/-- The call that is found is the one of the pair. -/
theorem call_found (h : HoldsPair s T i j q) {c : PaperPosition} (hc : shortCallPos lookup s T e = some c) :
    c.instrumentKey = i ∧ c.netQty = -q := by
  obtain ⟨hmem, hrole, -⟩ := findLeg_spec hc
  have hnet := PaperTrades.netQty_of_mem hmem
  rw [PaperPosition.pair, hrole, h.call] at hnet
  by_cases hkey : c.instrumentKey = i
  · exact ⟨hkey, hnet.trans (if_pos hkey)⟩
  · exact absurd (hnet.trans (if_neg hkey)) (getPositions_open hmem).2.1

/-- The put that is found is the one of the pair. -/
theorem put_found (h : HoldsPair s T i j q) {p : PaperPosition} (hp : longPutPos lookup s T e = some p) :
    p.instrumentKey = j ∧ p.netQty = q := by
  obtain ⟨hmem, hrole, -⟩ := findLeg_spec hp
  have hnet := PaperTrades.netQty_of_mem hmem
  rw [PaperPosition.pair, hrole, h.put] at hnet
  by_cases hkey : p.instrumentKey = j
  · exact ⟨hkey, hnet.trans (if_pos hkey)⟩
  · exact absurd (hnet.trans (if_neg hkey)) (getPositions_open hmem).2.1

end HoldsPair

/-! ### What the two batches do -/

/-- The trade of the call that is found. -/
theorem closeTrade_call {c : PaperPosition} (hc : shortCallPos lookup s T e = some c) :
    ∃ t, buildCloseTrade e.today c .buy e.mark = some t ∧
      t.uniqueKey = ⟨s, shortCallRole, c.instrumentKey, e.today, .buy⟩ ∧ t.signedQty = -c.netQty := by
  obtain ⟨hmem, hrole, hside⟩ := findLeg_spec hc
  obtain ⟨t, ht, hkey, hqty⟩ :=
    @buildCloseTrade_of_mem lookup s T c .buy hmem (of_decide_eq_true hside) e.today e.mark
  exact ⟨t, ht, hrole ▸ hkey, hqty⟩

/-- The trade of the put that is found. -/
theorem closeTrade_put {p : PaperPosition} (hp : longPutPos lookup s T e = some p) :
    ∃ t, buildCloseTrade e.today p .sell none = some t ∧
      t.uniqueKey = ⟨s, longPutRole, p.instrumentKey, e.today, .sell⟩ ∧ t.signedQty = -p.netQty := by
  obtain ⟨hmem, hrole, hside⟩ := findLeg_spec hp
  obtain ⟨t, ht, hkey, hqty⟩ :=
    @buildCloseTrade_of_mem lookup s T p .sell hmem (of_decide_eq_true hside) e.today none
  exact ⟨t, ht, hrole ▸ hkey, hqty⟩

theorem netQty_closeBothLegs_eq (k : String × String) :
    (closeBothLegs lookup s T e).netQty s k = (T.recordTrades (closingTrades lookup s T e)).1.netQty s k := by
  rw [closeBothLegs, PaperTrades.netQty_eq_legsQty, PaperTrades.legsQty_markAllClosed,
    ← PaperTrades.netQty_eq_legsQty]

/-- The quantity of a closing trade, if its key is free and it is of this pair. -/
def closeUnits (T : PaperTrades) (key : PaperTrade.UniqueKey) (net : ℤ) (k : String × String) : ℤ :=
  if T.hasKey key = false ∧ (key.legRole, key.instrumentKey) = k then -net else 0

/-- The first batch takes each leg that is found to zero, unless its key is taken. -/
theorem netQty_closeBothLegs {c p : PaperPosition} (hc : shortCallPos lookup s T e = some c)
    (hp : longPutPos lookup s T e = some p) (k : String × String) :
    (closeBothLegs lookup s T e).netQty s k = T.netQty s k +
      closeUnits T ⟨s, shortCallRole, c.instrumentKey, e.today, .buy⟩ c.netQty k +
      closeUnits T ⟨s, longPutRole, p.instrumentKey, e.today, .sell⟩ p.netQty k := by
  obtain ⟨t, ht, htkey, htqty⟩ := closeTrade_call hc
  obtain ⟨u, hu, hukey, huqty⟩ := closeTrade_put hp
  obtain ⟨hts, htrole, htinst, -, -⟩ := PaperTrade.UniqueKey.mk.inj htkey
  obtain ⟨hus, hurole, huinst, -, -⟩ := PaperTrade.UniqueKey.mk.inj hukey
  have htrades : closingTrades lookup s T e = [t, u] := by
    simp [closingTrades, hc, hp, ht, hu]
  rw [netQty_closeBothLegs_eq, htrades,
    PaperTrades.netQty_recordTrades_two (by rw [htrole, hurole]; exact roles_ne) hts hus, htkey, hukey, htqty,
    huqty, PaperTrade.legInstrument, PaperTrade.legInstrument, htrole, htinst, hurole, huinst]
  rfl

/-- A trade of one role leaves the other as it is. -/
theorem netQty_recordTrades_other {t : PaperTrade} (hs : t.strategyName = s) {role : String} (hrole : t.legRole ≠ role)
    (key : String) : (T.recordTrades [t]).1.netQty s (role, key) = T.netQty s (role, key) := by
  rw [PaperTrades.netQty_recordTrades (List.pairwise_singleton _ _) (by simpa using hs), PaperTrades.unitsAt_eq_zero,
    add_zero]
  intro u hu
  obtain rfl := List.mem_singleton.mp (List.mem_of_mem_filter hu)
  exact fun hleg => hrole (congrArg Prod.fst hleg)

/-- A put that is not found is not closed. -/
theorem netQty_put_of_not_found (hp : longPutPos lookup s T e = none) (key : String) :
    (closeBothLegs lookup s T e).netQty s (longPutRole, key) = T.netQty s (longPutRole, key) := by
  rw [netQty_closeBothLegs_eq]
  cases hc : shortCallPos lookup s T e with
  | none => simp [closingTrades, hc, hp, PaperTrades.recordTrades]
  | some c =>
    obtain ⟨t, ht, htkey, -⟩ := closeTrade_call hc
    obtain ⟨hts, htrole, -, -, -⟩ := PaperTrade.UniqueKey.mk.inj htkey
    have htrades : closingTrades lookup s T e = [t] := by simp [closingTrades, hc, hp, ht]
    rw [htrades]
    exact netQty_recordTrades_other hts (htrole.trans_ne roles_ne) key

/-- A put that is found is closed, unless the key of its trade is taken, and no other put. -/
theorem netQty_put_closeBothLegs {p : PaperPosition} (hp : longPutPos lookup s T e = some p) (key : String) :
    (closeBothLegs lookup s T e).netQty s (longPutRole, key) = T.netQty s (longPutRole, key) +
      closeUnits T ⟨s, longPutRole, p.instrumentKey, e.today, .sell⟩ p.netQty (longPutRole, key) := by
  cases hc : shortCallPos lookup s T e with
  | some c =>
    rw [netQty_closeBothLegs hc hp]
    simp [closeUnits, roles_ne]
  | none =>
    obtain ⟨u, hu, hukey, huqty⟩ := closeTrade_put hp
    obtain ⟨hus, hurole, huinst, -, -⟩ := PaperTrade.UniqueKey.mk.inj hukey
    have htrades : closingTrades lookup s T e = [u] := by simp [closingTrades, hc, hp, hu]
    have hpair : u.legInstrument = (longPutRole, p.instrumentKey) := Prod.ext hurole huinst
    rw [netQty_closeBothLegs_eq, htrades,
      PaperTrades.netQty_recordTrades (List.pairwise_singleton _ _) (by simpa using hus), closeUnits]
    congr 1
    by_cases hkey : key = p.instrumentKey
    · subst hkey
      cases htaken : T.hasKey u.uniqueKey with
      | true =>
        rw [hukey] at htaken
        simp [PaperTrades.unitsAt, netOf, hukey, htaken]
      | false =>
        rw [hukey] at htaken
        simp [PaperTrades.unitsAt, netOf, hukey, htaken, hpair, huqty]
    · simp [PaperTrades.unitsAt, netOf, hpair, Ne.symm hkey]

/-- A call that is not found is not closed. -/
theorem netQty_call_of_not_found (hc : shortCallPos lookup s T e = none) (key : String) :
    (closeBothLegs lookup s T e).netQty s (shortCallRole, key) = T.netQty s (shortCallRole, key) := by
  rw [netQty_closeBothLegs_eq]
  cases hp : longPutPos lookup s T e with
  | none => simp [closingTrades, hc, hp, PaperTrades.recordTrades]
  | some p =>
    obtain ⟨t, ht, htkey, -⟩ := closeTrade_put hp
    obtain ⟨hts, htrole, -, -, -⟩ := PaperTrade.UniqueKey.mk.inj htkey
    have htrades : closingTrades lookup s T e = [t] := by simp [closingTrades, hc, hp, ht]
    rw [htrades]
    exact netQty_recordTrades_other hts (htrole.trans_ne roles_ne.symm) key

/-- **When the first batch flattens a pair**: when both legs are found and neither closing
trade is a duplicate. -/
theorem HoldsPair.netFlat_closeBothLegs_iff {i j : String} {q : ℤ} (h : HoldsPair s T i j q) :
    NetFlat s (closeBothLegs lookup s T e) ↔
      (shortCallPos lookup s T e).isSome = true ∧ (longPutPos lookup s T e).isSome = true ∧
        (∀ p ∈ shortCallPos lookup s T e, T.hasKey ⟨s, shortCallRole, p.instrumentKey, e.today, .buy⟩ = false) ∧
        ∀ p ∈ longPutPos lookup s T e, T.hasKey ⟨s, longPutRole, p.instrumentKey, e.today, .sell⟩ = false := by
  have hq := h.pos
  cases hc : shortCallPos lookup s T e with
  | none =>
    refine ⟨fun hflat => ?_, fun hfound => absurd hfound.1 (by simp)⟩
    have hzero := hflat shortCallRole (by simp [collarRoles]) i
    rw [netQty_call_of_not_found hc, h.call, if_pos rfl] at hzero
    omega
  | some c =>
    cases hp : longPutPos lookup s T e with
    | none =>
      refine ⟨fun hflat => ?_, fun hfound => absurd hfound.2.1 (by simp)⟩
      have hzero := hflat longPutRole (by simp [collarRoles]) j
      rw [netQty_put_of_not_found hp, h.put, if_pos rfl] at hzero
      omega
    | some p =>
      obtain ⟨rfl, hcnet⟩ := h.call_found hc
      obtain ⟨rfl, hpnet⟩ := h.put_found hp
      have hnet := netQty_closeBothLegs hc hp
      simp only [Option.isSome_some, Option.mem_def, Option.some.injEq, forall_eq', true_and]
      constructor
      · intro hflat
        have hzero := hflat shortCallRole (by simp [collarRoles]) c.instrumentKey
        have hzero' := hflat longPutRole (by simp [collarRoles]) p.instrumentKey
        rw [hnet, h.call, if_pos rfl] at hzero
        rw [hnet, h.put, if_pos rfl] at hzero'
        constructor
        · by_contra htaken
          simp [closeUnits, htaken, roles_ne.symm] at hzero
          omega
        · by_contra htaken
          simp [closeUnits, htaken, roles_ne] at hzero'
          omega
      · rintro ⟨hcfree, hpfree⟩ role hrole key
        rw [hnet]
        rcases (by simpa [collarRoles] using hrole : role = shortCallRole ∨ role = longPutRole) with rfl | rfl
        · by_cases hkey : key = c.instrumentKey
          · simp [closeUnits, hcfree, h.call, hkey, hcnet, roles_ne.symm]
          · simp [closeUnits, h.call, hkey, Ne.symm hkey, roles_ne.symm]
        · by_cases hkey : key = p.instrumentKey
          · simp [closeUnits, hpfree, h.put, hkey, hpnet, roles_ne]
          · simp [closeUnits, h.put, hkey, Ne.symm hkey, roles_ne]

theorem entryTrades_spec {trades : PaperTrade × PaperTrade} (h : entryTrades s e = some trades) :
    (trades.1.strategyName = s ∧ trades.1.legRole = longPutRole ∧ trades.1.signedQty = 65 ∧
      trades.1.action = .buy) ∧
    trades.2.strategyName = s ∧ trades.2.legRole = shortCallRole ∧ trades.2.signedQty = -65 ∧
      trades.2.action = .sell := by
  simp only [entryTrades, Option.bind_eq_bind, Option.bind_eq_some_iff, Option.some.injEq] at h
  obtain ⟨choice, -, put, hput, call, hcall, rfl⟩ := h
  obtain ⟨hpkey, hpqty⟩ := validate_eq_some hput
  obtain ⟨hckey, hcqty⟩ := validate_eq_some hcall
  obtain ⟨hps, hprole, -, -, hpact⟩ := PaperTrade.UniqueKey.mk.inj hpkey
  obtain ⟨hcs, hcrole, -, -, hcact⟩ := PaperTrade.UniqueKey.mk.inj hckey
  refine ⟨⟨hps, hprole, ?_, hpact⟩, hcs, hcrole, ?_, hcact⟩
  · rw [PaperTrade.signedQty, hpact]
    exact hpqty
  · rw [PaperTrade.signedQty, hcact]
    exact congrArg Neg.neg hcqty

/-- **When a re-entry of a flat collar leaves it whole**: when the two new trades are both
written or both dropped. -/
theorem whole_reenterCollar_iff (hflat : NetFlat s T) :
    CollarWhole lookup s (reenterCollar s T e) ↔
      ∀ trades ∈ entryTrades s e, T.hasKey trades.1.uniqueKey = T.hasKey trades.2.uniqueKey := by
  cases htrades : entryTrades s e with
  | none =>
    rw [reenterCollar, htrades]
    simp [collarWhole_iff, hflat]
  | some trades =>
    obtain ⟨⟨hps, hprole, hpqty, -⟩, hcs, hcrole, hcqty, -⟩ := entryTrades_spec htrades
    have hcall := fun key => hflat shortCallRole (by simp [collarRoles]) key
    have hput := fun key => hflat longPutRole (by simp [collarRoles]) key
    have hnet : ∀ k, (reenterCollar s T e).netQty s k = T.netQty s k +
        (if T.hasKey trades.1.uniqueKey = false ∧ (longPutRole, trades.1.instrumentKey) = k then 65 else 0) +
        (if T.hasKey trades.2.uniqueKey = false ∧ (shortCallRole, trades.2.instrumentKey) = k then -65 else 0) := by
      intro k
      rw [reenterCollar, htrades]
      simp only
      rw [PaperTrades.netQty_recordTrades_two (by rw [hprole, hcrole]; exact roles_ne.symm) hps hcs, hpqty,
        hcqty, PaperTrade.legInstrument, PaperTrade.legInstrument, hprole, hcrole]
    simp only [Option.mem_def, Option.some.injEq, forall_eq']
    rw [collarWhole_iff]
    cases hpfree : T.hasKey trades.1.uniqueKey <;> cases hcfree : T.hasKey trades.2.uniqueKey
    · refine iff_of_true (Or.inr ⟨trades.2.instrumentKey, trades.1.instrumentKey, 65, by omega, ?_, ?_⟩) rfl
      · intro key
        rw [hnet, hcall]
        by_cases hkey : key = trades.2.instrumentKey
        · simp [hcfree, hkey, roles_ne.symm]
        · simp [hkey, Ne.symm hkey, roles_ne.symm]
      · intro key
        rw [hnet, hput]
        by_cases hkey : key = trades.1.instrumentKey
        · simp [hpfree, hkey, roles_ne]
        · simp [hkey, Ne.symm hkey, roles_ne]
    · -- the put is written and the call is dropped
      refine iff_of_false ?_ (by simp)
      have hlong : (reenterCollar s T e).netQty s (longPutRole, trades.1.instrumentKey) = 65 := by
        simp [hnet, hput, hpfree, roles_ne]
      have hnone : ∀ key, (reenterCollar s T e).netQty s (shortCallRole, key) = 0 := by
        simp [hnet, hcall, hcfree, roles_ne.symm]
      rintro (hflat' | ⟨i, j, q, h⟩)
      · exact absurd (hlong.symm.trans (hflat' _ (by simp [collarRoles]) _)) (by decide)
      · have hshort := h.call i
        rw [hnone, if_pos rfl] at hshort
        exact h.pos.ne' (neg_eq_zero.mp hshort.symm)
    · -- the call is written and the put is dropped
      refine iff_of_false ?_ (by simp)
      have hshort : (reenterCollar s T e).netQty s (shortCallRole, trades.2.instrumentKey) = -65 := by
        simp [hnet, hcall, hcfree, roles_ne.symm]
      have hnone : ∀ key, (reenterCollar s T e).netQty s (longPutRole, key) = 0 := by
        simp [hnet, hput, hpfree, roles_ne]
      rintro (hflat' | ⟨i, j, q, h⟩)
      · exact absurd (hshort.symm.trans (hflat' _ (by simp [collarRoles]) _)) (by decide)
      · have hlong := h.put j
        rw [hnone, if_pos rfl] at hlong
        exact h.pos.ne' hlong.symm
    · refine iff_of_true (Or.inl fun role hrole key => ?_) rfl
      simp [hnet, hflat role hrole, hpfree, hcfree]

/-- The first batch buys the call and sells the put. -/
theorem closingTrades_spec {t : PaperTrade} (ht : t ∈ closingTrades lookup s T e) :
    (t.legRole = shortCallRole ∧ t.action = .buy) ∨ (t.legRole = longPutRole ∧ t.action = .sell) := by
  rcases List.mem_append.mp ht with ht | ht
  · obtain ⟨c, hc, hbuild⟩ := Option.bind_eq_some_iff.mp (Option.mem_toList.mp ht)
    obtain ⟨u, hu, hkey, -⟩ := closeTrade_call hc
    obtain rfl := Option.some.inj (hbuild.symm.trans hu)
    obtain ⟨-, hrole, -, -, haction⟩ := PaperTrade.UniqueKey.mk.inj hkey
    exact Or.inl ⟨hrole, haction⟩
  · obtain ⟨p, hp, hbuild⟩ := Option.bind_eq_some_iff.mp (Option.mem_toList.mp ht)
    obtain ⟨u, hu, hkey, -⟩ := closeTrade_put hp
    obtain rfl := Option.some.inj (hbuild.symm.trans hu)
    obtain ⟨-, hrole, -, -, haction⟩ := PaperTrade.UniqueKey.mk.inj hkey
    exact Or.inr ⟨hrole, haction⟩

/-- The first batch takes no key of the second. -/
theorem hasKey_closeBothLegs {trades : PaperTrade × PaperTrade} (h : entryTrades s e = some trades) :
    (closeBothLegs lookup s T e).hasKey trades.1.uniqueKey = T.hasKey trades.1.uniqueKey ∧
      (closeBothLegs lookup s T e).hasKey trades.2.uniqueKey = T.hasKey trades.2.uniqueKey := by
  obtain ⟨⟨-, hprole, -, hpact⟩, -, hcrole, -, hcact⟩ := entryTrades_spec h
  have hother : ∀ u : PaperTrade, (∀ t ∈ closingTrades lookup s T e, t.uniqueKey ≠ u.uniqueKey) →
      (closeBothLegs lookup s T e).hasKey u.uniqueKey = T.hasKey u.uniqueKey := by
    intro u hu
    have hmem : u.uniqueKey ∉ (closingTrades lookup s T e).map PaperTrade.uniqueKey := by
      rw [List.mem_map]
      rintro ⟨t, ht, heq⟩
      exact hu t ht heq
    rw [closeBothLegs, PaperTrades.hasKey_markAllClosed, PaperTrades.hasKey_recordTrades]
    simp [hmem]
  constructor
  · refine hother _ fun t ht heq => ?_
    have hrole := (congrArg PaperTrade.UniqueKey.legRole heq).trans hprole
    have haction := (congrArg PaperTrade.UniqueKey.action heq).trans hpact
    rcases closingTrades_spec ht with ⟨hrole', -⟩ | ⟨-, haction'⟩
    · exact roles_ne (hrole'.symm.trans hrole)
    · exact absurd (haction'.symm.trans haction) (by decide)
  · refine hother _ fun t ht heq => ?_
    have hrole := (congrArg PaperTrade.UniqueKey.legRole heq).trans hcrole
    have haction := (congrArg PaperTrade.UniqueKey.action heq).trans hcact
    rcases closingTrades_spec ht with ⟨-, haction'⟩ | ⟨hrole', -⟩
    · exact absurd (haction'.symm.trans haction) (by decide)
    · exact roles_ne (hrole.symm.trans hrole')

/-! ### Runs -/

theorem closeBothLegs_of_not_found (h : shortCallPos lookup s T e = none ∧ longPutPos lookup s T e = none) :
    closeBothLegs lookup s T e = T := by
  simp [closeBothLegs, closingTrades, h.1, h.2, PaperTrades.recordTrades, PaperTrades.markAllClosed]

/-- One action on a whole collar leaves it whole, and really closes what it found, exactly
when no leg is missed or dropped. -/
theorem collar_whole_step (hT : CollarWhole lookup s T) :
    (CollarWhole lookup s (applyAction lookup s T e) ∧ ReallyCloses lookup s T e) ↔ NoLegDropped lookup s T e := by
  by_cases hfound : shortCallPos lookup s T e = none ∧ longPutPos lookup s T e = none
  · have hsame : applyAction lookup s T e = T := if_pos hfound
    refine iff_of_true ⟨hsame.symm ▸ hT, fun hsome => ?_, fun hne => ?_⟩ (Or.inl hfound)
    · rcases hsome with hsome | hsome
      · exact absurd hfound.1 hsome
      · exact absurd hfound.2 hsome
    · exact absurd (hsame.trans (closeBothLegs_of_not_found hfound).symm) hne
  rcases collarWhole_iff.mp hT with hflat | ⟨i, j, q, hpair⟩
  · exact absurd ⟨findLeg_of_flat (by simp [collarRoles]) hflat, findLeg_of_flat (by simp [collarRoles]) hflat⟩
      hfound
  have hrun : applyAction lookup s T e =
      match e.actionType with
      | .closeCollar => closeBothLegs lookup s T e
      | .closeAndReenterCollar => reenterCollar s (closeBothLegs lookup s T e) e := if_neg hfound
  have hsome : shortCallPos lookup s T e ≠ none ∨ longPutPos lookup s T e ≠ none := not_and_or.mp hfound
  have hcloses : ReallyCloses lookup s T e ↔ NetFlat s (closeBothLegs lookup s T e) := by
    rw [ReallyCloses, collarLegs_eq_nil_iff]
    exact ⟨fun h => h.1 hsome, fun h => ⟨fun _ => h, fun _ => h⟩⟩
  rw [hcloses, NoLegDropped, or_iff_right hfound]
  constructor
  · rintro ⟨hwhole, hflat⟩
    obtain ⟨hcsome, hpsome, hcfree, hpfree⟩ := hpair.netFlat_closeBothLegs_iff.mp hflat
    refine ⟨hcsome, hpsome, hcfree, hpfree, fun hact trades htrades => ?_⟩
    rw [hrun, hact] at hwhole
    obtain ⟨hput, hcall⟩ := @hasKey_closeBothLegs lookup s T e trades htrades
    rw [← hput, ← hcall]
    exact (whole_reenterCollar_iff hflat).mp hwhole trades htrades
  · rintro ⟨hcsome, hpsome, hcfree, hpfree, hnew⟩
    have hflat : NetFlat s (closeBothLegs lookup s T e) :=
      hpair.netFlat_closeBothLegs_iff.mpr ⟨hcsome, hpsome, hcfree, hpfree⟩
    refine ⟨?_, hflat⟩
    rw [hrun]
    cases hact : e.actionType with
    | closeCollar => exact collarWhole_iff.mpr (Or.inl hflat)
    | closeAndReenterCollar =>
      refine (whole_reenterCollar_iff hflat).mpr fun trades htrades => ?_
      obtain ⟨hput, hcall⟩ := @hasKey_closeBothLegs lookup s T e trades htrades
      rw [hput, hcall]
      exact hnew hact trades htrades

/-- **When collar pairs stay whole.** A run of actions on a ledger with no collar leg or one
whole pair leaves such a ledger after each action, each close really closes the pair it found
and no pair is opened beside an open leg, exactly when no action of the run misses a leg or
drops a trade of one leg only. -/
theorem collar_whole_iff (lookup : Option InstrumentLookup) (s : String) (T : PaperTrades)
    (actions : List CollarAction) (hT : CollarWhole lookup s T) :
    (Along (applyAction lookup s) (CollarWhole lookup s) T actions ∧
        EachStep (applyAction lookup s) (ReallyCloses lookup s) T actions) ↔
      EachStep (applyAction lookup s) (NoLegDropped lookup s) T actions :=
  along_and_eachStep_iff (I := fun _ => True) (fun _ _ _ => trivial) (fun _ _ _ h => collar_whole_step h) trivial hT

/-! ### A pair of the day before -/

/-- `STRATEGY_OVERLAY`. -/
def strategyOverlay : String := "paper_nifty_overlay"

/-- A close with re-entry into the put and the call of these keys. -/
private def reenterInto (today : Date) (putKey callKey : String) : CollarAction :=
  { actionType := .closeAndReenterCollar, today
    choice := some { putKey, putPrice := 80, callKey, callPrice := 90, expiry := "2026-07-28", dte := 28 } }

/-- The ledger after the pair was opened on 29 June 2026. -/
private def opened : PaperTrades :=
  reenterCollar strategyOverlay PaperTrades.empty (reenterInto 739796 "NSE_FO|41" "NSE_FO|51")

private theorem opened_whole : CollarWhole none strategyOverlay opened :=
  (whole_reenterCollar_iff fun _ _ _ => rfl).mpr fun _ _ => rfl

/-- A re-entry into other strikes and a close on the next day. -/
theorem collar_whole_iff_reentry :
    Along (applyAction none strategyOverlay) (CollarWhole none strategyOverlay) opened
        [reenterInto 739797 "NSE_FO|42" "NSE_FO|52", { actionType := .closeCollar, today := 739798 }] ∧
      EachStep (applyAction none strategyOverlay) (ReallyCloses none strategyOverlay) opened
        [reenterInto 739797 "NSE_FO|42" "NSE_FO|52", { actionType := .closeCollar, today := 739798 }] :=
  (collar_whole_iff none strategyOverlay opened _ opened_whole).mpr (by decide +kernel)

/-- Two re-entries on one day, the first into the strikes it closed: both closing trades of
the second are duplicates, and its new pair is opened beside the old one. -/
theorem second_reentry_doubles :
    CollarWhole none strategyOverlay opened ∧
      ¬(Along (applyAction none strategyOverlay) (CollarWhole none strategyOverlay) opened
          [reenterInto 739797 "NSE_FO|41" "NSE_FO|51", reenterInto 739797 "NSE_FO|42" "NSE_FO|52"] ∧
        EachStep (applyAction none strategyOverlay) (ReallyCloses none strategyOverlay) opened
          [reenterInto 739797 "NSE_FO|41" "NSE_FO|51", reenterInto 739797 "NSE_FO|42" "NSE_FO|52"]) ∧
      (collarLegs none strategyOverlay (final (applyAction none strategyOverlay) opened
        [reenterInto 739797 "NSE_FO|41" "NSE_FO|51", reenterInto 739797 "NSE_FO|42" "NSE_FO|52"])).length = 4 := by
  have hfour : (collarLegs none strategyOverlay (final (applyAction none strategyOverlay) opened
      [reenterInto 739797 "NSE_FO|41" "NSE_FO|51", reenterInto 739797 "NSE_FO|42" "NSE_FO|52"])).length = 4 := by
    decide +kernel
  refine ⟨opened_whole, fun h => ?_, hfour⟩
  rcases along_iff_final.mp h.1 _ List.prefix_rfl with hnil | ⟨call, put, hperm, -⟩
  · rw [hnil] at hfour
    exact absurd hfour (by decide)
  · exact absurd (hfour.symm.trans hperm.length_eq) (by simp)

end NiftyShield.Strategy.CollarOverlay
