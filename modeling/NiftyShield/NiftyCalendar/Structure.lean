import NiftyShield.Models.Common
import Mathlib.Data.Rat.Defs
import Mathlib.Algebra.Order.Ring.Rat

/-!
# Calendar structures

`CalendarLeg` and `CalendarStructure` (`src/nifty_calendar/models.py`): a short straddle in
the near expiry and two long wings in the far one, with the constraints their constructors
check.

## Honest scope

`Direction` is the trade direction it stands for. The placeholder instrument key, the Greeks
and the derived credits of a leg are left out: nothing modelled reads them.
-/

namespace NiftyShield.NiftyCalendar

/-- One leg of a structure. -/
structure CalendarLeg where
  /-- Strike price. -/
  strike : ℚ
  /-- Call or put. -/
  optionType : OptionType
  /-- Expiry date. -/
  expiry : Date
  /-- Sold or bought. -/
  side : TradeAction
  /-- Lots. -/
  qtyLots : ℕ
  /-- The mid at entry. -/
  entryPrice : ℚ
  /-- An option. -/
  isOption : optionType = .ce ∨ optionType = .pe
  /-- At least one lot. -/
  qtyLots_pos : 0 < qtyLots

/-- A call is an option. -/
theorem ce_isOption : OptionType.ce = .ce ∨ OptionType.ce = .pe := Or.inl rfl

/-- So is a put. -/
theorem pe_isOption : OptionType.pe = .ce ∨ OptionType.pe = .pe := Or.inr rfl

/-- A four-leg calendar structure. -/
structure CalendarStructure where
  /-- Short call. -/
  shortCe : CalendarLeg
  /-- Short put. -/
  shortPe : CalendarLeg
  /-- Long call wing. -/
  longCeWing : CalendarLeg
  /-- Long put wing. -/
  longPeWing : CalendarLeg
  /-- The near legs are sold. -/
  shorts : shortCe.side = .sell ∧ shortPe.side = .sell
  /-- The wings are bought. -/
  longs : longCeWing.side = .buy ∧ longPeWing.side = .buy
  /-- The near legs share an expiry and a strike. -/
  straddle : shortCe.expiry = shortPe.expiry ∧ shortCe.strike = shortPe.strike
  /-- The wings share an expiry. -/
  wings : longCeWing.expiry = longPeWing.expiry
  /-- The near expiry comes first. -/
  nearBeforeFar : shortCe.expiry < longCeWing.expiry
  /-- All legs have the same lots. -/
  lots : shortPe.qtyLots = shortCe.qtyLots ∧ longCeWing.qtyLots = shortCe.qtyLots ∧
    longPeWing.qtyLots = shortCe.qtyLots
  /-- Calls on one side, puts on the other. -/
  types : shortCe.optionType = .ce ∧ longCeWing.optionType = .ce ∧ shortPe.optionType = .pe ∧
    longPeWing.optionType = .pe
  /-- The wings are out of the money. -/
  otm : shortCe.strike < longCeWing.strike ∧ longPeWing.strike < shortPe.strike

/-- `NoEntry`: why no structure was selected. -/
structure NoEntry where
  /-- `reason`. -/
  reason : String
  /-- `failed_filter`. -/
  failedFilter : Option String := none

end NiftyShield.NiftyCalendar
