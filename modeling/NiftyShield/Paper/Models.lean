import NiftyShield.Models.Common
import Mathlib.Data.Rat.Defs
import Mathlib.Algebra.Order.Ring.Rat

/-!
# Paper trades and positions

The records of the paper ledger (`src/paper/models.py`). A `PaperTrade` carries what its
validators enforce, so an invalid trade cannot be built: the strategy name starts with
`paper_`, no identifier is empty, quantity and price are positive. `PaperTrade.validate`
is the constructor of the source, with its `ValidationError`.

## Honest scope

`Decimal` prices and the `float` IV rank are exact rationals. `is_paper` is the constant
`True` and is left out.
-/

namespace NiftyShield.Paper

/-- Lifecycle state of a paper trade. -/
inductive TradeState where
  /-- No defensive action taken yet. -/
  | «open»
  /-- One defensive roll consumed. -/
  | defended
  /-- Closed, waiting for the re-entry conditions. -/
  | reEntryPending
  /-- Fully exited. -/
  | closed
  deriving DecidableEq, Repr

/-- `v.startswith("paper_")`. -/
def hasPaperPrefix (v : String) : Bool := "paper_".toList.isPrefixOf v.toList

/-- A single simulated trade execution. -/
@[ext] structure PaperTrade where
  /-- The strategy that owns the trade. -/
  strategyName : String
  /-- Human label of the position, e.g. `short_put`. -/
  legRole : String
  /-- Instrument key, e.g. `NSE_FO|12345`. -/
  instrumentKey : String
  /-- Simulated execution date. -/
  tradeDate : Date
  /-- Direction. -/
  action : TradeAction
  /-- Units transacted. -/
  quantity : ℕ
  /-- Price per unit. -/
  price : ℚ
  /-- Optional annotation. -/
  notes : String := ""
  /-- IV rank at entry. -/
  ivrAtEntry : Option ℚ := none
  /-- Lifecycle state. -/
  state : TradeState := .open
  /-- The `paper_` prefix. -/
  paperPrefix : hasPaperPrefix strategyName = true
  /-- `min_length=1`. -/
  legRole_ne : legRole ≠ ""
  /-- `min_length=1`. -/
  instrumentKey_ne : instrumentKey ≠ ""
  /-- `gt=0`. -/
  quantity_pos : 0 < quantity
  /-- `gt=0`. -/
  price_pos : 0 < price

instance : DecidableEq PaperTrade := fun _ _ => decidable_of_iff' _ PaperTrade.ext_iff

namespace PaperTrade

/-- The columns of the UNIQUE constraint of `paper_trades`. -/
structure UniqueKey where
  /-- `strategy_name`. -/
  strategyName : String
  /-- `leg_role`. -/
  legRole : String
  /-- `instrument_key`. -/
  instrumentKey : String
  /-- `trade_date`. -/
  tradeDate : Date
  /-- `action`. -/
  action : TradeAction
  deriving DecidableEq

/-- The unique key of a trade. -/
def uniqueKey (t : PaperTrade) : UniqueKey :=
  ⟨t.strategyName, t.legRole, t.instrumentKey, t.tradeDate, t.action⟩

/-- The quantity with the sign of the action. -/
def signedQty (t : PaperTrade) : ℤ :=
  match t.action with
  | .buy => t.quantity
  | .sell => -t.quantity

/-- `PaperTrade(...)`: the trade if every validator accepts, else `none`
(pydantic's `ValidationError`). -/
def validate (strategyName legRole instrumentKey : String) (tradeDate : Date) (action : TradeAction)
    (quantity : ℤ) (price : ℚ) (notes : String) (ivrAtEntry : Option ℚ) (state : TradeState) :
    Option PaperTrade :=
  if h : hasPaperPrefix strategyName = true ∧ legRole ≠ "" ∧ instrumentKey ≠ "" ∧ 0 < quantity.toNat ∧ 0 < price then
    some
      { strategyName, legRole, instrumentKey, tradeDate, action, price, notes, ivrAtEntry, state
        quantity := quantity.toNat
        paperPrefix := h.1
        legRole_ne := h.2.1
        instrumentKey_ne := h.2.2.1
        quantity_pos := h.2.2.2.1
        price_pos := h.2.2.2.2 }
  else none

end PaperTrade

/-- A validated trade has the key and the quantity given. -/
theorem validate_eq_some {s role key : String} {d : Date} {a : TradeAction} {q : ℤ} {p : ℚ} {notes : String}
    {ivr : Option ℚ} {st : TradeState} {t : PaperTrade}
    (h : PaperTrade.validate s role key d a q p notes ivr st = some t) :
    t.uniqueKey = ⟨s, role, key, d, a⟩ ∧ (t.quantity : ℤ) = q := by
  unfold PaperTrade.validate at h
  split at h
  next hv =>
    obtain rfl := Option.some.inj h
    refine ⟨rfl, ?_⟩
    simp only
    omega
  next => exact absurd h (by simp)

/-- What a trade is accepted for. -/
theorem exists_validate_iff {s role key : String} {d : Date} {a : TradeAction} {q : ℤ} {p : ℚ} {notes : String}
    {ivr : Option ℚ} {st : TradeState} :
    (∃ t, PaperTrade.validate s role key d a q p notes ivr st = some t) ↔
      hasPaperPrefix s = true ∧ role ≠ "" ∧ key ≠ "" ∧ 0 < q ∧ 0 < p := by
  have hqty : 0 < q.toNat ↔ 0 < q := by omega
  unfold PaperTrade.validate
  rw [← hqty]
  split
  next h => exact iff_of_true ⟨_, rfl⟩ h
  next h => exact iff_of_false (by simp) h

theorem validate_state {s role key : String} {d : Date} {a : TradeAction} {q : ℤ} {p : ℚ} {notes : String}
    {ivr : Option ℚ} {st : TradeState} {t : PaperTrade}
    (h : PaperTrade.validate s role key d a q p notes ivr st = some t) :
    t.state = st := by
  unfold PaperTrade.validate at h
  split at h
  next =>
    obtain rfl := Option.some.inj h
    rfl
  next => exact absurd h (by simp)

/-- Derived position of one leg within a paper strategy; computed, never stored. -/
structure PaperPosition where
  /-- Parent strategy. -/
  strategyName : String
  /-- Leg identifier. -/
  legRole : String
  /-- Net open quantity, negative when short. -/
  netQty : ℤ
  /-- Average price of the purchases. -/
  avgCost : ℚ
  /-- Average price of the sales. -/
  avgSellPrice : ℚ
  /-- Instrument key of the open position. -/
  instrumentKey : String
  /-- Date of the trade that opened the position. -/
  entryDate : Option Date := none
  /-- Classification of the instrument. -/
  optionType : Option OptionType := none
  deriving DecidableEq

/-! ### Values of the sample ledgers

The strategies, legs, instruments, prices and sizes that the concrete ledgers of the
development share pass the checks of a trade.
-/

theorem hasPaperPrefix_overlay : hasPaperPrefix "paper_nifty_overlay" = true := by decide

theorem hasPaperPrefix_spot : hasPaperPrefix "paper_nifty_spot" = true := by decide

theorem hasPaperPrefix_csp : hasPaperPrefix "paper_csp_nifty_v1" = true := by decide

theorem hasPaperPrefix_icMonthly : hasPaperPrefix "paper_ic_nifty_v2_monthly" = true := by decide

theorem shortPut_ne : "short_put" ≠ "" := by decide

theorem shortCall_ne : "short_call" ≠ "" := by decide

theorem longPutHedge_ne : "long_put_hedge" ≠ "" := by decide

theorem longCallHedge_ne : "long_call_hedge" ≠ "" := by decide

theorem overlayPp_ne : "overlay_pp" ≠ "" := by decide

theorem overlayCc_ne : "overlay_cc" ≠ "" := by decide

theorem overlayCollarCall_ne : "overlay_collar_call" ≠ "" := by decide

theorem overlayCollarPut_ne : "overlay_collar_put" ≠ "" := by decide

theorem key65800_ne : "NSE_FO|65800" ≠ "" := by decide

theorem key65900_ne : "NSE_FO|65900" ≠ "" := by decide

theorem key65901_ne : "NSE_FO|65901" ≠ "" := by decide

theorem key65902_ne : "NSE_FO|65902" ≠ "" := by decide

theorem key65911_ne : "NSE_FO|65911" ≠ "" := by decide

theorem key65912_ne : "NSE_FO|65912" ≠ "" := by decide

theorem keyJunePut_ne : "NSE_FO|NIFTY30JUN2026PE" ≠ "" := by decide

theorem key23000Put_ne : "NSE_FO|NIFTY23000PE" ≠ "" := by decide

theorem key24000Put_ne : "NSE_FO|NIFTY24000PE" ≠ "" := by decide

theorem price20_pos : (0 : ℚ) < 20 := by decide

theorem price40_pos : (0 : ℚ) < 40 := by decide

theorem price90_pos : (0 : ℚ) < 90 := by decide

theorem price100_pos : (0 : ℚ) < 100 := by decide

theorem price110_pos : (0 : ℚ) < 110 := by decide

theorem price120_pos : (0 : ℚ) < 120 := by decide

theorem tenUnits_pos : 0 < 10 := by decide

end NiftyShield.Paper
