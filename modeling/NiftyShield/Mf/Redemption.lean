import NiftyShield.Lib.Selection
import NiftyShield.Mf.Tracker

/-!
# Redeeming units

A redemption (`MFStore.insert_transaction`, `src/mf/store.py`) takes its units and its amount
off what `get_holdings` has for the scheme; a scheme without units is no longer a holding, and
what was made on it leaves the report of `MFTracker` with it.

## What is proved

`redemption_pnl`: at the current NAV, redeeming some of the units of a scheme leaves the total
P&L, exactly so or, with values to the paisa, within one paisa; redeeming all of them lowers it by
what the scheme reported; the other schemes report what they did.
-/

namespace NiftyShield.Mf

open NiftyShield.Lib

/-! ### Recording a transaction -/

/-- `insert_transaction`: a duplicate is skipped. -/
def MfTables.insertTransaction (T : MfTables) (tx : MfTransaction) : MfTables :=
  if h : tx.uniqueKey ∈ T.transactions.map MfTransaction.uniqueKey then T
  else
    { T with
      transactions := T.transactions ++ [tx]
      keys_unique := by
        rw [List.map_append]
        exact T.keys_unique.append (List.nodup_singleton _) (by simpa using h) }

/-! ### The tally of a scheme -/

/-- Units in, negative for units out. -/
def MfTransaction.signedUnits (tx : MfTransaction) : ℚ :=
  match tx.transactionType with
  | .initial | .sip => tx.units
  | .redemption => -tx.units

/-- Amount in, negative for an amount out. -/
def MfTransaction.signedAmount (tx : MfTransaction) : ℚ :=
  match tx.transactionType with
  | .initial | .sip => tx.amount
  | .redemption => -tx.amount

theorem units_add (s : SchemeTally) (tx : MfTransaction) : (s.add tx).units = s.units + tx.signedUnits := by
  unfold SchemeTally.add MfTransaction.signedUnits
  cases tx.transactionType <;> simp [sub_eq_add_neg]

theorem invested_add (s : SchemeTally) (tx : MfTransaction) : (s.add tx).invested = s.invested + tx.signedAmount := by
  unfold SchemeTally.add MfTransaction.signedAmount
  cases tx.transactionType <;> simp [sub_eq_add_neg]

theorem tally_sums : ∀ (txs : List MfTransaction) (s : SchemeTally),
    (txs.foldl SchemeTally.add s).units = s.units + (txs.map MfTransaction.signedUnits).sum ∧
      (txs.foldl SchemeTally.add s).invested = s.invested + (txs.map MfTransaction.signedAmount).sum
  | [], s => by simp
  | tx :: txs, s => by
    obtain ⟨hunits, hinvested⟩ := tally_sums txs (s.add tx)
    rw [List.foldl_cons, hunits, hinvested, units_add, invested_add]
    constructor <;> simp [add_assoc]

/-- The transactions of a scheme, by date. -/
def MfTables.schemeTransactions (T : MfTables) (code : String) : List MfTransaction :=
  T.getTransactions.filter fun tx => tx.amfiCode = code

/-- The holding of a scheme, from its transactions. -/
theorem get?_getHoldings (T : MfTables) (code : String) :
    T.getHoldings.get? code =
      let s := (T.schemeTransactions code).foldl SchemeTally.add {}
      if 0 < s.units then
        some { amfiCode := code, schemeName := s.name, totalUnits := s.units, totalInvested := s.invested }
      else none := by
  have htally : (tallies T.getTransactions).get? code = if T.schemeTransactions code = [] then none
      else some ((T.schemeTransactions code).foldl SchemeTally.add {}) :=
    Dict.get?_foldl_accumulate MfTransaction.amfiCode SchemeTally.add {} code T.getTransactions Dict.empty
  refine Option.ext fun h => ?_
  rw [← Dict.mem_entries_iff, MfTables.getHoldings]
  simp only [List.mem_map, List.mem_filter, decide_eq_true_eq, Prod.exists, Prod.mk.injEq]
  constructor
  · rintro ⟨c, s, ⟨hs, hpos⟩, rfl, rfl⟩
    rw [Dict.mem_entries_iff, htally] at hs
    split at hs
    next => exact absurd hs (by simp)
    next =>
      obtain rfl := Option.some.inj hs
      rw [if_pos hpos]
  · intro hh
    split at hh
    next hpos =>
      have hne : T.schemeTransactions code ≠ [] := fun hnil => by
        rw [hnil] at hpos
        exact absurd hpos (lt_irrefl 0)
      refine ⟨code, _, ⟨?_, hpos⟩, rfl, Option.some.inj hh⟩
      rw [Dict.mem_entries_iff, htally, if_neg hne]
    next => exact absurd hh (by simp)

section Insert

variable {T : MfTables} {tx : MfTransaction}

theorem insertTransaction_duplicate (h : tx.uniqueKey ∈ T.transactions.map MfTransaction.uniqueKey) :
    T.insertTransaction tx = T := dif_pos h

theorem transactions_insertTransaction (h : tx.uniqueKey ∉ T.transactions.map MfTransaction.uniqueKey) :
    (T.insertTransaction tx).transactions = T.transactions ++ [tx] := by
  rw [MfTables.insertTransaction, dif_neg h]

theorem schemeTransactions_eq (T : MfTables) (code : String) :
    T.schemeTransactions code = (T.transactions.filter fun tx => tx.amfiCode = code).insertionSort
      fun tx tx' => tx.transactionDate ≤ tx'.transactionDate := by
  have : IsTrans MfTransaction fun tx tx' => tx.transactionDate ≤ tx'.transactionDate := ⟨fun _ _ _ => le_trans⟩
  have : Std.Total fun tx tx' : MfTransaction => tx.transactionDate ≤ tx'.transactionDate := ⟨fun _ _ => le_total _ _⟩
  exact Selection.filter_insertionSort _ _ _

/-- A transaction of one scheme touches no other holding. -/
theorem getHoldings_insertTransaction_of_ne {code : String} (h : code ≠ tx.amfiCode) :
    (T.insertTransaction tx).getHoldings.get? code = T.getHoldings.get? code := by
  by_cases hdup : tx.uniqueKey ∈ T.transactions.map MfTransaction.uniqueKey
  · rw [insertTransaction_duplicate hdup]
  · have hsame : (T.insertTransaction tx).schemeTransactions code = T.schemeTransactions code := by
      rw [schemeTransactions_eq, schemeTransactions_eq, transactions_insertTransaction hdup, List.filter_append,
        List.filter_cons_of_neg (by simpa using Ne.symm h), List.filter_nil, List.append_nil]
    rw [get?_getHoldings, get?_getHoldings, hsame]

/-- Its own scheme has its units and amount more. -/
theorem tally_insertTransaction (hnew : tx.uniqueKey ∉ T.transactions.map MfTransaction.uniqueKey) :
    (((T.insertTransaction tx).schemeTransactions tx.amfiCode).foldl SchemeTally.add {}).units =
      ((T.schemeTransactions tx.amfiCode).foldl SchemeTally.add {}).units + tx.signedUnits ∧
    (((T.insertTransaction tx).schemeTransactions tx.amfiCode).foldl SchemeTally.add {}).invested =
      ((T.schemeTransactions tx.amfiCode).foldl SchemeTally.add {}).invested + tx.signedAmount := by
  have hperm : ((T.insertTransaction tx).schemeTransactions tx.amfiCode).Perm
      (T.schemeTransactions tx.amfiCode ++ [tx]) := by
    rw [schemeTransactions_eq, schemeTransactions_eq, transactions_insertTransaction hnew, List.filter_append,
      List.filter_cons_of_pos (by simp), List.filter_nil]
    exact (List.perm_insertionSort _ _).trans ((List.perm_insertionSort _ _).symm.append_right _)
  rw [(tally_sums _ _).1, (tally_sums _ _).2, (tally_sums _ _).1, (tally_sums _ _).2, (hperm.map _).sum_eq,
    (hperm.map _).sum_eq]
  constructor <;> simp

end Insert

/-! ### The report -/

/-- How the value of a scheme is rounded. -/
inductive Arithmetic where
  /-- Not at all. -/
  | exact
  /-- To the paisa, as `compute_scheme_pnl` does. -/
  | paise
  deriving DecidableEq

/-- The rounding of a value. -/
def Arithmetic.round : Arithmetic → ℚ → ℚ
  | .exact, q => q
  | .paise, q => quantizeHalfUp q

/-- The P&L of a holding. -/
def holdingPnl (a : Arithmetic) (holding : MfHolding) (nav : ℚ) : ℚ :=
  a.round (holding.totalUnits * nav) - holding.totalInvested

/-- What a holding adds to the report; a scheme without NAV is skipped. -/
def entryPnl (a : Arithmetic) (navs : Dict String ℚ) (e : String × MfHolding) : ℚ :=
  ((navs.get? e.1).map (holdingPnl a e.2)).getD 0

/-- The total P&L of the holdings. -/
def MfTables.totalPnl (T : MfTables) (a : Arithmetic) (navs : Dict String ℚ) : ℚ :=
  (T.getHoldings.entries.map (entryPnl a navs)).sum

/-- The loop of `record_snapshot` values every holding that has a NAV. -/
theorem recordNavs_totals {navs : Dict String ℚ} (hpos : ∀ code nav, navs.get? code = some nav → 0 < nav)
    (today : Date) : ∀ (hs : List (String × MfHolding)) (T : MfTables), ∃ schemes,
      (recordNavs today navs hs T).2 = some schemes ∧
        (aggregateMfPnl today schemes).totalPnl = (hs.map (entryPnl .paise navs)).sum
  | [], T => ⟨[], rfl, by simp [aggregateMfPnl]⟩
  | (code, holding) :: hs, T => by
    rw [recordNavs]
    cases hnav : navs.get? code with
    | none =>
      obtain ⟨schemes, hrun, htotal⟩ := recordNavs_totals hpos today hs T
      refine ⟨schemes, hrun, ?_⟩
      rw [htotal, List.map_cons, List.sum_cons]
      simp [entryPnl, hnav]
    | some nav =>
      simp only [dif_pos (hpos code nav hnav)]
      obtain ⟨schemes, hrun, htotal⟩ := recordNavs_totals hpos today hs
        (T.upsertNavSnapshot ⟨today, code, holding.schemeName, nav, hpos code nav hnav⟩)
      refine ⟨computeSchemePnl holding nav :: schemes, by rw [hrun, Option.map_some], ?_⟩
      rw [List.map_cons, List.sum_cons, ← htotal]
      simp only [aggregateMfPnl, List.map_cons, List.sum_cons, entryPnl, hnav, Option.map_some, Option.getD_some,
        holdingPnl, Arithmetic.round, computeSchemePnl]
      ring

/-- **The report**: `record_snapshot` returns this total. -/
theorem recordSnapshot_totalPnl (T : MfTables) {navs : Dict String ℚ}
    (hpos : ∀ code nav, navs.get? code = some nav → 0 < nav) (today : Date) :
    (recordSnapshot (fun _ => some navs) today T).2.map PortfolioPnL.totalPnl = some (T.totalPnl .paise navs) := by
  rw [recordSnapshot]
  by_cases hempty : T.getHoldings.entries = []
  · simp [hempty, emptyPortfolio, MfTables.totalPnl]
  · obtain ⟨schemes, hrun, htotal⟩ := recordNavs_totals hpos today T.getHoldings.entries T
    simp only [if_neg hempty]
    rw [hrun, Option.map_some, Option.map_some, htotal]
    rfl

/-! ### A redemption -/

/-- A redemption of units that the scheme holds, at its NAV. -/
structure RedeemsAtNav (T : MfTables) (navs : Dict String ℚ) (tx : MfTransaction) (holding : MfHolding) (nav : ℚ) :
    Prop where
  /-- It is a redemption. -/
  type : tx.transactionType = .redemption
  /-- The scheme is held. -/
  held : T.getHoldings.get? tx.amfiCode = some holding
  /-- It has the units. -/
  units_le : tx.units ≤ holding.totalUnits
  /-- This is its NAV. -/
  current : navs.get? tx.amfiCode = some nav
  /-- The units are paid out at it. -/
  amount : tx.amount = tx.units * nav

section Redemption

variable {T : MfTables} {navs : Dict String ℚ} {tx : MfTransaction} {holding : MfHolding} {nav : ℚ}

/-- The holding after the redemption, under whatever name. -/
theorem RedeemsAtNav.after (h : RedeemsAtNav T navs tx holding nav)
    (hnew : tx.uniqueKey ∉ T.transactions.map MfTransaction.uniqueKey) :
    (tx.units < holding.totalUnits → ∃ left, (T.insertTransaction tx).getHoldings.get? tx.amfiCode = some left ∧
        left.totalUnits = holding.totalUnits - tx.units ∧
        left.totalInvested = holding.totalInvested - tx.units * nav) ∧
      (tx.units = holding.totalUnits → (T.insertTransaction tx).getHoldings.get? tx.amfiCode = none) := by
  have hheld := h.held
  rw [get?_getHoldings] at hheld ⊢
  obtain ⟨hunits, hinvested⟩ := tally_insertTransaction hnew
  have hsigned : tx.signedUnits = -tx.units ∧ tx.signedAmount = -(tx.units * nav) := by
    simp [MfTransaction.signedUnits, MfTransaction.signedAmount, h.type, h.amount]
  rw [hsigned.1] at hunits
  rw [hsigned.2] at hinvested
  simp only at hheld ⊢
  split at hheld
  next hpos =>
    obtain rfl := Option.some.inj hheld
    refine ⟨fun hpart => ⟨_, if_pos ?_, ?_, ?_⟩, fun hall => if_neg ?_⟩
    · rw [hunits]
      simp only at hpart
      linarith
    · simp only [hunits]
      ring
    · simp only [hinvested]
      ring
    · rw [hunits]
      simp only at hall
      linarith
  next => exact absurd hheld (by simp)

/-- The change of the total is that of the scheme. -/
theorem totalPnl_insertTransaction (a : Arithmetic) :
    (T.insertTransaction tx).totalPnl a navs - T.totalPnl a navs =
      (((T.insertTransaction tx).getHoldings.get? tx.amfiCode).map fun left =>
        entryPnl a navs (tx.amfiCode, left)).getD 0 -
      ((T.getHoldings.get? tx.amfiCode).map fun held => entryPnl a navs (tx.amfiCode, held)).getD 0 := by
  have hrest : ((T.insertTransaction tx).getHoldings.erase tx.amfiCode).entries.Perm
      (T.getHoldings.erase tx.amfiCode).entries := by
    refine Dict.entries_perm fun code => ?_
    rw [Dict.get?_erase, Dict.get?_erase]
    split
    next => rfl
    next hne => exact getHoldings_insertTransaction_of_ne hne
  rw [MfTables.totalPnl, MfTables.totalPnl, Dict.sum_entries _ _ tx.amfiCode,
    Dict.sum_entries _ T.getHoldings tx.amfiCode, (hrest.map _).sum_eq]
  ring

/-- **Redeeming units** at the current NAV. -/
theorem redemption_pnl (h : RedeemsAtNav T navs tx holding nav) :
    (tx.units < holding.totalUnits →
      (T.insertTransaction tx).totalPnl .exact navs = T.totalPnl .exact navs ∧
        |(T.insertTransaction tx).totalPnl .paise navs - T.totalPnl .paise navs| ≤ 1 / 100) ∧
    (tx.units = holding.totalUnits → tx.uniqueKey ∉ T.transactions.map MfTransaction.uniqueKey → ∀ a,
      (T.insertTransaction tx).totalPnl a navs = T.totalPnl a navs - holdingPnl a holding nav) ∧
    ∀ code, code ≠ tx.amfiCode → (T.insertTransaction tx).getHoldings.get? code = T.getHoldings.get? code := by
  have hentry : ∀ a (held : MfHolding), entryPnl a navs (tx.amfiCode, held) = holdingPnl a held nav := fun a held => by
    rw [entryPnl, h.current, Option.map_some, Option.getD_some]
  refine ⟨fun hpart => ?_, fun hall hnew a => ?_, fun code => getHoldings_insertTransaction_of_ne⟩
  · by_cases hdup : tx.uniqueKey ∈ T.transactions.map MfTransaction.uniqueKey
    · rw [insertTransaction_duplicate hdup]
      exact ⟨rfl, by norm_num⟩
    obtain ⟨left, hleft, hunits, hinvested⟩ := (h.after hdup).1 hpart
    have hchange : ∀ a, (T.insertTransaction tx).totalPnl a navs - T.totalPnl a navs =
        a.round ((holding.totalUnits - tx.units) * nav) + tx.units * nav - a.round (holding.totalUnits * nav) := by
      intro a
      rw [totalPnl_insertTransaction, hleft, h.held, Option.map_some, Option.map_some, Option.getD_some,
        Option.getD_some, hentry, hentry, holdingPnl, holdingPnl, hunits, hinvested]
      ring
    constructor
    · have hexact := hchange .exact
      simp only [Arithmetic.round] at hexact
      linarith
    · rw [hchange]
      have hafter := abs_le.mp (abs_quantizeHalfUp_sub_le ((holding.totalUnits - tx.units) * nav))
      have hbefore := abs_le.mp (abs_quantizeHalfUp_sub_le (holding.totalUnits * nav))
      simp only [Arithmetic.round]
      exact abs_le.mpr ⟨by linarith [hafter.1, hbefore.2], by linarith [hafter.2, hbefore.1]⟩
  · have hchange := @totalPnl_insertTransaction T navs tx a
    rw [(h.after hnew).2 hall, h.held, Option.map_none, Option.map_some, Option.getD_none, Option.getD_some,
      hentry] at hchange
    linarith

end Redemption

/-! ### A scheme with a gain -/

/-- A transaction of the flexi cap fund. -/
def flexiCapTx (transactionType : TransactionType) (transactionDate : Date) (units amount : ℚ)
    (h : 0 < units ∧ 0 < amount) : MfTransaction where
  schemeName := "Parag Parikh Flexi Cap Fund - Reg Gr"
  amfiCode := "101281"
  transactionDate := transactionDate
  units := units
  amount := amount
  transactionType := transactionType
  schemeName_ne := flexiCapName_ne
  units_pos := h.1
  amount_pos := h.2

/-- 500 units bought for 50000. -/
def flexiCap : MfTables :=
  MfTables.insertTransaction ⟨[], Dict.empty, nodup_noKeys⟩ (flexiCapTx .initial 738900 500 50000 (by norm_num))

/-- They are worth 120 each. -/
def flexiCapNav : Dict String ℚ := Dict.empty.set "101281" 120

/-- The holding. -/
def flexiCapHolding : MfHolding where
  amfiCode := "101281"
  schemeName := "Parag Parikh Flexi Cap Fund - Reg Gr"
  totalUnits := 500
  totalInvested := 50000

/-- 100 of them are redeemed. -/
def somePaidOut : MfTransaction := flexiCapTx .redemption 738946 100 12000 (by norm_num)

/-- All are. -/
def allPaidOut : MfTransaction := flexiCapTx .redemption 738946 500 60000 (by norm_num)

theorem allPaidOut_redeems : RedeemsAtNav flexiCap flexiCapNav allPaidOut flexiCapHolding 120 where
  type := rfl
  held := by decide +kernel
  units_le := by decide +kernel
  current := by decide +kernel
  amount := by decide +kernel

theorem somePaidOut_redeems : RedeemsAtNav flexiCap flexiCapNav somePaidOut flexiCapHolding 120 where
  type := rfl
  held := by decide +kernel
  units_le := by decide +kernel
  current := by decide +kernel
  amount := by decide +kernel

/-- With the last units the gain of 10000 is gone. -/
theorem allPaidOut_loses_gain : ¬ ∀ T navs tx holding nav, RedeemsAtNav T navs tx holding nav →
    (T.insertTransaction tx).totalPnl .exact navs = T.totalPnl .exact navs := by
  intro h
  have hgain : flexiCap.totalPnl .exact flexiCapNav = 10000 := by decide +kernel
  have hnone : (flexiCap.insertTransaction allPaidOut).totalPnl .exact flexiCapNav = 0 := by decide +kernel
  exact absurd (hnone.symm.trans ((h _ _ _ _ _ allPaidOut_redeems).trans hgain)) (by norm_num)

/-- Some of them, and all of them. -/
theorem redemption_pnl_flexiCap :
    (flexiCap.insertTransaction somePaidOut).totalPnl .exact flexiCapNav = flexiCap.totalPnl .exact flexiCapNav ∧
      (flexiCap.insertTransaction allPaidOut).totalPnl .paise flexiCapNav =
        flexiCap.totalPnl .paise flexiCapNav - holdingPnl .paise flexiCapHolding 120 :=
  ⟨((redemption_pnl somePaidOut_redeems).1 (by decide +kernel)).1,
    (redemption_pnl allPaidOut_redeems).2.1 (by decide +kernel) (by decide +kernel) .paise⟩

end NiftyShield.Mf
