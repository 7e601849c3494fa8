import NiftyShield.Paper.Writes
import Mathlib.Data.List.Pairwise

/-!
# Runs of writes

A program that trades writes to the ledger through `record_trade` and state changes only.
`Wrote T W T'` says that `T'` came out of `T` so, with `W` the unique keys and quantities
passed to `record_trade`, in order. The UNIQUE constraint decides what remains of such a
run: a key is taken afterwards if it was before or was written (`Wrote.hasKey`), and the
row under it is new, with a given quantity, exactly when the key was free and its first
write had that quantity (`Wrote.newRow_iff`): every later one was dropped.
-/

namespace NiftyShield.Paper

open NiftyShield.Lib

/-- `T'` came out of `T` by recording trades with these unique keys and quantities, in
this order, and by state changes. -/
inductive Wrote (T : PaperTrades) : List (PaperTrade.UniqueKey × ℕ) → PaperTrades → Prop where
  /-- Nothing written. -/
  | nil : Wrote T [] T
  /-- One more trade. -/
  | record {W : List (PaperTrade.UniqueKey × ℕ)} {T' : PaperTrades} (t : PaperTrade) :
      Wrote T W T' → Wrote T (W ++ [(t.uniqueKey, t.quantity)]) (T'.recordTrade t).1
  /-- A state change. -/
  | state {W : List (PaperTrade.UniqueKey × ℕ)} {T' : PaperTrades} (p : PaperTrade → Bool) (state : TradeState) :
      Wrote T W T' → Wrote T W (T'.updateState p state)

namespace Wrote

variable {T T' T'' : PaperTrades} {W W' : List (PaperTrade.UniqueKey × ℕ)}

theorem trans (h : Wrote T W T') (h' : Wrote T' W' T'') : Wrote T (W ++ W') T'' := by
  induction h' with
  | nil => rwa [List.append_nil]
  | record t _ ih =>
    rw [← List.append_assoc]
    exact ih.record t
  | state p st _ ih => exact ih.state p st

/-- A key is taken afterwards if it was before or was written. -/
theorem hasKey (h : Wrote T W T') (k : PaperTrade.UniqueKey) :
    T'.hasKey k = (T.hasKey k || (W.map Prod.fst).contains k) := by
  induction h with
  | nil => simp
  | @record W T' t _ ih =>
    by_cases hk : t.uniqueKey = k
    · rw [← hk, PaperTrades.hasKey_recordTrade_self]
      simp
    · have hk' : k ≠ t.uniqueKey := fun hkt => hk hkt.symm
      rw [PaperTrades.hasKey_recordTrade_of_ne _ hk, ih, List.map_append, Bool.eq_iff_iff]
      simp [hk']
  | state p st _ ih => rw [PaperTrades.hasKey_updateState, ih]

theorem nextId_le (h : Wrote T W T') : T.nextId ≤ T'.nextId := by
  induction h with
  | nil => exact le_rfl
  | @record W T' t _ ih =>
    refine ih.trans ?_
    unfold PaperTrades.recordTrade
    split
    · exact Nat.le_succ _
    · exact le_rfl
  | state _ _ _ ih => exact ih

/-- Every row stays, up to its state. -/
theorem keeps (h : Wrote T W T') {r : TradeRow} (hr : r ∈ T.rows) :
    ∃ r' ∈ T'.rows, r'.id = r.id ∧ r'.trade.uniqueKey = r.trade.uniqueKey := by
  induction h with
  | nil => exact ⟨r, hr, rfl, rfl⟩
  | record t _ ih =>
    obtain ⟨r', hr', hid, hkey⟩ := ih
    exact ⟨r', PaperTrades.mem_recordTrade t hr', hid, hkey⟩
  | state p st _ ih =>
    obtain ⟨r', hr', hid, hkey⟩ := ih
    refine ⟨_, List.mem_map_of_mem hr', ?_, ?_⟩
    · split <;> exact hid
    · split <;> exact hkey

end Wrote

/-- The row under this key has this quantity and was not in the table before. -/
def NewRow (T T' : PaperTrades) (k : PaperTrade.UniqueKey) (q : ℕ) : Prop :=
  ∃ r ∈ T'.rows, r.trade.uniqueKey = k ∧ r.trade.quantity = q ∧ ∀ r₀ ∈ T.rows, r₀.id ≠ r.id

/-- The quantity of the first write under a key. -/
def firstQty (W : List (PaperTrade.UniqueKey × ℕ)) (k : PaperTrade.UniqueKey) : Option ℕ :=
  (W.find? fun w => w.1 = k).map Prod.snd

theorem firstQty_concat (W : List (PaperTrade.UniqueKey × ℕ)) (k j : PaperTrade.UniqueKey) (q : ℕ) :
    firstQty (W ++ [(j, q)]) k = (firstQty W k).or (if j = k then some q else none) := by
  unfold firstQty
  rw [List.find?_append]
  cases W.find? fun w => decide (w.1 = k) with
  | some w => rfl
  | none => by_cases hj : j = k <;> simp [hj]

/-- A key that was free and has no row has not been written. -/
private theorem firstQty_eq_none {T T' : PaperTrades} {W : List (PaperTrade.UniqueKey × ℕ)}
    (h : Wrote T W T')
    {k : PaperTrade.UniqueKey} (hk : T'.hasKey k = false) : T.hasKey k = false ∧ firstQty W k = none := by
  rw [h.hasKey, Bool.or_eq_false_iff] at hk
  refine ⟨hk.1, ?_⟩
  rw [firstQty, List.find?_eq_none.mpr, Option.map_none]
  intro w hw hwk
  have hmem : k ∈ W.map Prod.fst := List.mem_map.mpr ⟨w, hw, of_decide_eq_true hwk⟩
  exact absurd (List.contains_iff_mem.mpr hmem) (by rw [hk.2]; exact Bool.false_ne_true)

/-- **What the constraint leaves of a run**: the row under a key is new, with this
quantity, exactly when the key was free and its first write had the quantity. -/
theorem Wrote.newRow_iff {T T' : PaperTrades} {W : List (PaperTrade.UniqueKey × ℕ)} (h : Wrote T W T')
    (k : PaperTrade.UniqueKey) (q : ℕ) :
    NewRow T T' k q ↔ T.hasKey k = false ∧ firstQty W k = some q := by
  induction h with
  | nil =>
    constructor
    · rintro ⟨r, hr, -, -, hnew⟩
      exact absurd rfl (hnew r hr)
    · rintro ⟨-, hq⟩
      exact absurd hq (by simp [firstQty])
  | @record W T' t hW ih =>
    rw [firstQty_concat]
    cases hdup : T'.hasKey t.uniqueKey with
    | true =>
      -- the trade is dropped: its key was taken before the run or written in it
      rw [PaperTrades.recordTrade_duplicate hdup, ih]
      by_cases hk : t.uniqueKey = k
      · subst hk
        rw [hW.hasKey] at hdup
        cases hT : T.hasKey t.uniqueKey with
        | true => simp
        | false =>
          rw [hT, Bool.false_or, List.contains_iff_mem, List.mem_map] at hdup
          obtain ⟨w, hw, hwk⟩ := hdup
          have hsome : (firstQty W t.uniqueKey).isSome := by
            rw [firstQty, Option.isSome_map, List.find?_isSome]
            exact ⟨w, hw, decide_eq_true hwk⟩
          obtain ⟨q', hq'⟩ := Option.isSome_iff_exists.mp hsome
          simp [hq']
      · simp [hk]
    | false =>
      obtain ⟨-, hrows⟩ := PaperTrades.recordTrade_fresh hdup
      by_cases hk : t.uniqueKey = k
      · subst hk
        obtain ⟨hfree, hnone⟩ := firstQty_eq_none hW hdup
        simp only [hfree, hnone, Option.none_or, if_true, true_and, Option.some.injEq]
        constructor
        · rintro ⟨r, hr, hkey, rfl, -⟩
          rw [hrows] at hr
          rcases List.mem_append.mp hr with hr | hr
          · exact absurd hkey (PaperTrades.hasKey_eq_false_iff.mp hdup r hr)
          · rw [List.mem_singleton.mp hr]
        · rintro rfl
          refine ⟨⟨T'.nextId, t⟩, ?_, rfl, rfl, fun r₀ hr₀ => ?_⟩
          · rw [hrows]
            exact List.mem_append_right _ (List.mem_singleton_self _)
          · exact ((T.ids_lt r₀ hr₀).trans_le hW.nextId_le).ne
      · rw [if_neg hk, Option.or_none, ← ih, NewRow, NewRow, hrows]
        constructor
        · rintro ⟨r, hr, hkey, hrest⟩
          rcases List.mem_append.mp hr with hr | hr
          · exact ⟨r, hr, hkey, hrest⟩
          · rw [List.mem_singleton.mp hr] at hkey
            exact absurd hkey hk
        · rintro ⟨r, hr, hrest⟩
          exact ⟨r, List.mem_append_left _ hr, hrest⟩
  | @state W T' p st hW ih =>
    rw [← ih, NewRow, NewRow, PaperTrades.rows_updateState]
    constructor
    · rintro ⟨r, hr, hkey, hqty, hnew⟩
      obtain ⟨r', hr', rfl⟩ := List.mem_map.mp hr
      refine ⟨r', hr', ?_⟩
      split at hkey
      · next hp =>
        rw [if_pos hp] at hqty hnew
        exact ⟨hkey, hqty, hnew⟩
      · next hp =>
        rw [if_neg hp] at hqty hnew
        exact ⟨hkey, hqty, hnew⟩
    · rintro ⟨r, hr, hkey, hqty, hnew⟩
      refine ⟨_, List.mem_map_of_mem hr, ?_⟩
      split <;> exact ⟨hkey, hqty, hnew⟩

/-- A row that was not there before came from one of the writes. -/
theorem Wrote.mem_of_new {T T' : PaperTrades} {W : List (PaperTrade.UniqueKey × ℕ)}
    (h : Wrote T W T') {r : TradeRow}
    (hr : r ∈ T'.rows) (hnew : ∀ r₀ ∈ T.rows, r₀.id ≠ r.id) :
      (r.trade.uniqueKey, r.trade.quantity) ∈ W := by
  obtain ⟨-, hfirst⟩ := (h.newRow_iff r.trade.uniqueKey r.trade.quantity).mp ⟨r, hr, rfl, rfl, hnew⟩
  obtain ⟨w, hw, hq⟩ := Option.map_eq_some_iff.mp hfirst
  have hkey : w.1 = r.trade.uniqueKey := by simpa using List.find?_some hw
  have hwr : w = (r.trade.uniqueKey, r.trade.quantity) := Prod.ext hkey hq
  exact hwr ▸ List.mem_of_find?_eq_some hw

end NiftyShield.Paper
