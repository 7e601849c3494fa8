import NiftyShield.NiftyCalendar.Cycle
import NiftyShield.NiftyCalendar.Structure
import NiftyShield.Paper.Store
import NiftyShield.Strategy.PriceUtils
import NiftyShield.Strategy.Protocol

/-!
# The state of a calendar cycle

What `NiftyCalendarV1` reads off its ledger (`src/strategy/nifty_calendar_state.py`): the
four legs of the open structure, which trades are closes and re-centre closes, the day the
original cycle began, and what may not be traded again today.
-/

namespace NiftyShield.Strategy.NiftyCalendarV1

open NiftyShield.Instruments NiftyShield.Lib NiftyShield.NiftyCalendar NiftyShield.Paper

/-! ### Roles -/

/-- `SHORT_CALL`. -/
def shortCall : String := "short_call"

/-- `SHORT_PUT`. -/
def shortPut : String := "short_put"

/-- `LONG_CALL_WING`. -/
def longCallWing : String := "long_call_wing"

/-- `LONG_PUT_WING`. -/
def longPutWing : String := "long_put_wing"

/-- `ROLES`. -/
def roles : List String := [shortCall, shortPut, longCallWing, longPutWing]

/-- `_SHORT_ROLES`. -/
def shortRoles : List String := [shortCall, shortPut]

/-! ### Decisions and closes -/

/-- `ExitDecision.value`. -/
def decisionText : ExitDecision → String
  | .hold => "HOLD"
  | .target => "TARGET"
  | .recentre => "RECENTRE"
  | .closeBreachLate => "CLOSE_BREACH_LATE"
  | .timeExit => "TIME_EXIT"
  | .dteGuard => "DTE_GUARD"
  | .redeploySamePair => "REDEPLOY_SAME_PAIR"
  | .recentreOffCentre => "RECENTRE_OFF_CENTRE"

/-- The decisions after which the cycle goes on. -/
def recentreDecisions : List ExitDecision := [.recentre, .recentreOffCentre, .redeploySamePair]

/-- `is_recentre_close`: the note begins with such a decision. -/
def isRecentreClose (t : PaperTrade) : Bool :=
  recentreDecisions.any fun d => (decisionText d).toList.isPrefixOf t.notes.toList

/-- `is_close_trade`: a short leg bought or a wing sold. -/
def isCloseTrade (t : PaperTrade) : Bool :=
  if t.legRole ∈ shortRoles then t.action = .buy else t.action = .sell

/-- `cycle_origin_date`: the first sale of a short call after the last close that ended a
cycle, if it was on a day of entry. -/
def cycleOriginDate (trades : List PaperTrade) (entryDate : Date) (hasWindow : Date → Bool) : Option Date :=
  let closes := (trades.filter fun t => t.legRole = shortCall ∧ t.action = .buy ∧ isRecentreClose t = false ∧
    t.tradeDate ≤ entryDate).map (·.tradeDate)
  let sells := (trades.filter fun t => t.legRole = shortCall ∧ t.action = .sell ∧ t.tradeDate ≤ entryDate ∧
    ∀ close ∈ closes, close < t.tradeDate).map (·.tradeDate)
  sells.min?.filter hasWindow

/-! ### What may not be traded again -/

/-- `sold_short_strikes_on`: the strikes of the short legs sold on a day. -/
def soldShortStrikesOn (trades : List PaperTrade) (lookup : InstrumentLookup) (day : Date) : List ℚ :=
  (trades.filter fun t => t.tradeDate = day ∧ t.action = .sell ∧ t.legRole ∈ shortRoles).filterMap fun t =>
    (lookup.getByKey t.instrumentKey).bind (·.strikePrice)

/-- `ledger_collisions`: the roles whose opening trade already exists on the day. -/
def ledgerCollisions (specs : List LegSpec) (trades : List PaperTrade) (day : Date) : List String :=
  (specs.filter fun spec => trades.any fun t => t.tradeDate = day ∧ t.legRole = spec.legRole ∧
    t.instrumentKey = spec.instrumentKey ∧ t.action.value = spec.action).map (·.legRole)

/-! ### The legs of a structure -/

/-- The four legs with their roles, in the order they are traded. -/
def legsWithRoles (st : CalendarStructure) : List (String × CalendarLeg) :=
  [(shortCall, st.shortCe), (shortPut, st.shortPe), (longCallWing, st.longCeWing), (longPutWing, st.longPeWing)]

/-- The text of an option type in the instrument file. -/
def optionTypeText : OptionType → String
  | .ce => "CE"
  | .pe => "PE"
  | .fut => "FUT"
  | .eq => "EQ"

/-- The opening leg of a role; `none` is the `InvalidStructureError` of a leg without a
contract. -/
def entryLegSpec (lookup : InstrumentLookup) (lotSize : ℕ) (role : String) (leg : CalendarLeg) : Option LegSpec :=
  (lookup.searchOptions "NIFTY" (some leg.strike) (some (optionTypeText leg.optionType)) (some leg.expiry) 1).head?.map
    fun found =>
      { instrumentKey := found.instrumentKey
        action := leg.side.value
        quantity := leg.qtyLots * lotSize
        legRole := role
        price := some leg.entryPrice }

/-- `entry_leg_specs`. -/
def entryLegSpecs (st : CalendarStructure) (lookup : InstrumentLookup) (lotSize : ℕ) : Option (List LegSpec) :=
  (legsWithRoles st).mapM fun rl => entryLegSpec lookup lotSize rl.1 rl.2

/-- An open leg with its contract. -/
structure OpenLeg where
  /-- The position. -/
  position : PaperPosition
  /-- Strike of the contract. -/
  strike : ℚ
  /-- Expiry of the contract. -/
  expiry : Date
  /-- Call or put. -/
  optionType : OptionType

/-- `by_role`: the last open position of each role of the structure, in order of first
appearance. -/
def byRole (positions : List PaperPosition) : List PaperPosition :=
  let held := positions.filter fun p => p.netQty ≠ 0 ∧ p.legRole ∈ roles
  (Grouping.keys PaperPosition.legRole held).filterMap fun role =>
    (Grouping.group PaperPosition.legRole held role).getLast?

/-- The option type of a contract of the instrument file. -/
def optionTypeOf (inst : Instrument) : Option OptionType :=
  match inst.instrumentType with
  | some "CE" => some .ce
  | some "PE" => some .pe
  | _ => none

/-- The contract of a position. -/
def openLeg (lookup : InstrumentLookup) (p : PaperPosition) : Option OpenLeg := do
  let inst ← lookup.getByKey p.instrumentKey
  let expiry ← resolveOptionExpiry p.instrumentKey (some lookup)
  let optionType ← optionTypeOf inst
  let strike ← inst.strikePrice
  some { position := p, strike, expiry, optionType }

/-- `resolve_open_legs`: the legs of a complete structure; `none` is the
`InvalidStructureError` of a missing role or an unknown contract. -/
def resolveOpenLegs (positions : List PaperPosition) (lookup : InstrumentLookup) : Option (List OpenLeg) :=
  if ∀ role ∈ roles, role ∈ (byRole positions).map PaperPosition.legRole then
    (byRole positions).mapM (openLeg lookup)
  else none

end NiftyShield.Strategy.NiftyCalendarV1
