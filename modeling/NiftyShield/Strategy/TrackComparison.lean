import NiftyShield.Strategy.ExitSignals
import NiftyShield.Strategy.MonitorCoverage
import NiftyShield.Strategy.PriceUtils
import NiftyShield.Strategy.RollUtils

/-!
# The three tracks

`NiftyTrackComparisonV1.check_signals` (`src/strategy/nifty_track_comparison_v1.py`) looks at
the overlays and the proxy call of three tracks, each under a strategy name of its own. The
strategy itself is registered under a fourth.

## What is proved

`overlay_warned_if_passed`: given an overlay five days or less from its expiry,
`check_signals` emits an event about it. `overlay_not_evaluated`: no tick of the monitor ever
gives it one, and on what it is given it emits nothing.

## Honest scope

`str` of a decimal and the `.3f` format are parameters. The clock, the lookup and the answer
of the broker to the request for the next chain are those of one call. Reading and writing
the breach counts succeeds.
-/

namespace NiftyShield.Strategy.TrackComparison

open NiftyShield.Instruments NiftyShield.Lib NiftyShield.Lib.Raising NiftyShield.Paper
    NiftyShield.Strategy.Monitor

/-! ### What a call meets -/

/-- `strategy_name`. -/
def strategyName : String := "paper_nifty_3track_v1"

/-- `TRACK_STRATEGY_NAMES`. -/
def trackStrategyNames : List String := ["paper_nifty_spot", "paper_nifty_futures", "paper_nifty_proxy"]

/-- `_ROLL_ELIGIBLE_DTE`. -/
def rollEligibleDte : ℤ := 5

/-- `_ROLL_DUE_DTE_MAX`. -/
def rollDueDteMax : ℤ := 10

/-- `_DECAY_WARN_PCT`. -/
def decayWarnPct : ℚ := 25 / 100

/-- `_NIFTY_LOT_SIZE_FALLBACK`. -/
def niftyLotSizeFallback : ℤ := 65

/-- What one call of `check_signals` meets besides its arguments. -/
structure World where
  /-- `market_today()`. -/
  today : Date
  /-- The BOD lookup, if it loads. -/
  lookup : Option InstrumentLookup := none
  /-- What `_fetch_next_chain` returns; `none` also without a broker. -/
  nextChain : Option OptionChain := none
  /-- How numbers are printed. -/
  text : NumberText

/-- The `proxy_delta_breach_count` column; `none` without a store. -/
abbrev BreachCounts := Option (Dict String ℕ)

/-! ### Helpers -/

/-- `_parse_expiry`. -/
def parseExpiry (instrumentKey : String) : Option Date :=
  (searchFrom (fun s => do
    let s ← stripPrefixCI "NSE_FO|NIFTY".toList s
    let (day, month, year, rest) ← takeDayMonthYear s
    let _ ← optionSuffix rest
    some (day, month, year)) instrumentKey.toList).bind fun (day, month, year) => dateOfParts day month year

/-- `leg_role.startswith("overlay_")`. -/
def isOverlay (pos : PaperPosition) : Bool := "overlay_".toList.isPrefixOf pos.legRole.toList

/-- `leg_role == "base_ditm_call"`. -/
def isProxyBase (pos : PaperPosition) : Bool := pos.legRole = "base_ditm_call"

/-- `_get_base_dte`. -/
def getBaseDte (positions : List PaperPosition) (strategyName : String) (today : Date) : ℤ :=
  ((positions.filter fun pos => pos.strategyName = strategyName && !isOverlay pos).findSome? fun pos =>
    (parseExpiry pos.instrumentKey).map (today.daysBetween ·)).getD 999

/-- `_resolve_lot_size`. -/
def World.resolveLotSize (w : World) (instrumentKey : String) : ℤ :=
  match (w.lookup.bind (·.getByKey instrumentKey)).bind (·.lotSize) with
  | none => niftyLotSizeFallback
  | some lotSize => if lotSize ≤ 0 then niftyLotSizeFallback else lotSize

/-- Option type and side of the replacement of an overlay. The two delta bands are the same. -/
def rollSide (legRole : String) : Option (OptionType × TradeAction) :=
  if legRole = "overlay_pp" ∨ legRole = "overlay_collar_put" then some (.pe, .buy)
  else if legRole = "overlay_cc" ∨ legRole = "overlay_collar_call" then some (.ce, .sell) else none

/-- `"CE"` or `"PE"`. -/
def optionTypeText : OptionType → String
  | .ce => "CE"
  | .pe => "PE"
  | .fut => "FUT"
  | .eq => "EQ"

/-- `_select_overlay_roll_target`. -/
def World.selectOverlayRollTarget (w : World) (legRole : String) : Option LegSpec := do
  let (optionType, legAction) ← rollSide legRole
  let nextChain ← w.nextChain
  let leg ← findStrikeByDelta nextChain optionType (15 / 100, 25 / 100) (20 / 100)
  let instrumentKey :=
    s!"NSE_FO|NIFTY{expiryText nextChain.expiry}{truncate leg.strike}{optionTypeText optionType}"
  some
    { instrumentKey
      action := legAction.value
      quantity := w.resolveLotSize instrumentKey
      legRole
      notes := w.text.decimal leg.strike
      price := some leg.ltp }

/-! ### Events -/

/-- `payload_base`. -/
def payloadBase (pos : PaperPosition) (dte : Option ℤ) : Payload :=
  [("track", .str pos.strategyName), ("leg_role", .str pos.legRole), ("dte", (dte.map PyValue.int).getD .none)]

/-- A leg to open, as a payload holds it. -/
def LegSpec.toPyValue (leg : LegSpec) : PyValue :=
  .legSpec leg.instrumentKey leg.action leg.quantity leg.legRole leg.notes leg.price

/-- What a payload says of the replacement leg. -/
def rollEntries (pos : PaperPosition) (target : LegSpec) : Payload :=
  [("auto_execute", .bool true), ("auto_action", .str "ROLL_OVERLAY"), ("strategy_name", .str pos.strategyName),
    ("suggested_instrument_key", .str target.instrumentKey), ("suggested_strike", .str target.notes)]

/-- Three empty entries that two of the payloads have. -/
def emptySuggestions : Payload :=
  [("suggested_expiry", .str ""), ("suggested_delta", .str ""), ("suggested_mid_price", .str "")]

/-- The events about the proxy's base leg, and the breach counts after it. -/
def proxyEvents (w : World) (market : OptionChain) (pos : PaperPosition) (dte : Option ℤ) (breaches : BreachCounts) :
    List SignalEvent × BreachCounts :=
  match (findOptionLeg pos.instrumentKey market w.lookup).bind fun leg => leg.delta.map fun delta => (leg, delta) with
  | none => ([], breaches)
  | some (optionLeg, currentDelta) =>
    let daysBelowCritical := (breaches.bind (·.get? pos.strategyName)).getD 0
    let results := evaluateProxyDelta w.text currentDelta optionLeg.ltp (dte.getD 999) daysBelowCritical
    let count := if currentDelta < proxyDeltaCritical then daysBelowCritical + 1 else 0
    let events := results.map fun res =>
      let payload := payloadBase pos dte ++
        [("delta", .str (w.text.decimal currentDelta)), ("mark", .str (w.text.decimal optionLeg.ltp))]
      { eventType := res.exitSignal
        severity := res.severity
        description := (res.notes.filter (· ≠ "")).getD res.exitSignal
        payload :=
          if res.severity = .action then payload ++ [("valid_actions", .list [.str "RECORD_REENTRY"])] else payload }
    (events, breaches.map (·.set pos.strategyName count))

/-- The event of an overlay that has expired. -/
def expiredEvent (pos : PaperPosition) (expiry : Date) (dte : Option ℤ) : SignalEvent where
  eventType := "OVERLAY_EXPIRED"
  severity := .warn
  description := s!"Overlay {pos.legRole} on {pos.strategyName} expired {expiry.isoformat} — roll not recorded"
  payload := payloadBase pos dte ++ [("expiry", .str expiry.isoformat)]

/-- The event of one result of `evaluate_roll_overlay`, if it is one of the two it gives. -/
def rollEvent (w : World) (market : OptionChain) (pos : PaperPosition) (dte baseDte : ℤ) (res : ExitSignalResult) :
    Option SignalEvent :=
  if res.exitSignal = "ROLL_ELIGIBLE" then
    let payload :=
      match w.selectOverlayRollTarget pos.legRole with
      | none => payloadBase pos (some dte) ++ [("valid_actions", .list [.str "RECORD_ROLL"])]
      | some target =>
        payloadBase pos (some dte) ++ [("valid_actions", .list [.str "ROLL_OVERLAY", .str "RECORD_ROLL"])] ++
          rollEntries pos target ++ [("legs_to_open", .list [LegSpec.toPyValue target])] ++
          ((findOptionLeg pos.instrumentKey market w.lookup).map fun leg =>
            ("mark", PyValue.str (w.text.decimal leg.ltp))).toList
    some
      { eventType := "ROLL_ELIGIBLE"
        severity := .action
        description := s!"Overlay {pos.legRole} on {pos.strategyName} DTE {dte} ≤ {rollEligibleDte} — roll eligible"
        payload }
  else if res.exitSignal = "ROLL_BASE_FIRST" then
    some
      { eventType := "ROLL_BASE_FIRST"
        severity := .warn
        description :=
          s!"Overlay {pos.legRole} on {pos.strategyName} DTE {dte} — roll base first (base DTE {baseDte} ≤ 10)"
        payload := payloadBase pos (some dte) }
  else none

/-- The events of an overlay five days or less from its expiry. -/
def rollEligibleEvents (w : World) (market : OptionChain) (positions : List PaperPosition) (pos : PaperPosition)
    (dte : ℤ) : List SignalEvent :=
  let baseDte := getBaseDte positions pos.strategyName w.today
  let atmStrike := roundHalfEven (market.underlyingSpot / 50) * 50
  match evaluateRollOverlay pos.legRole dte baseDte atmStrike with
  | none =>
    [{ eventType := "ROLL_DUE_DTE"
       severity := .warn
       description := s!"Overlay {pos.legRole} on {pos.strategyName} DTE {dte} ≤ {rollEligibleDte} — roll due"
       payload := payloadBase pos (some dte) }]
  | some results => results.filterMap (rollEvent w market pos dte baseDte)

/-- The event of an overlay six to ten days from its expiry. -/
def rollDueEvent (w : World) (market : OptionChain) (pos : PaperPosition) (dte : ℤ) : SignalEvent :=
  match w.selectOverlayRollTarget pos.legRole with
  | some target =>
    let mark := ((findOptionLeg pos.instrumentKey market w.lookup).map fun leg =>
      PyValue.str (w.text.decimal leg.ltp)).getD .none
    { eventType := "ROLL_DUE_DTE"
      severity := .action
      description := s!"Overlay {pos.legRole} on {pos.strategyName} DTE {dte} ≤ {rollDueDteMax} — roll target ready"
      payload := payloadBase pos (some dte) ++ rollEntries pos target ++ emptySuggestions ++
        [("mark", mark), ("valid_actions", .list [.str "ROLL_OVERLAY"]),
          ("legs_to_open", .list [LegSpec.toPyValue target])] }
  | none =>
    { eventType := "ROLL_DUE_DTE"
      severity := .warn
      description := s!"Overlay {pos.legRole} on {pos.strategyName} DTE {dte} ≤ {rollDueDteMax} — roll due soon"
      payload := payloadBase pos (some dte) }

/-- The event of a short overlay that has lost three quarters of its premium. -/
def decayEvent (w : World) (market : OptionChain) (pos : PaperPosition) (dte : Option ℤ) : Option SignalEvent := do
  if pos.netQty < 0 ∧ 0 < pos.avgSellPrice then
    let optionLeg ← findOptionLeg pos.instrumentKey market w.lookup
    let mark := optionLeg.ltp
    let pctRemaining := mark / pos.avgSellPrice
    if pctRemaining ≤ decayWarnPct then
      let payload := payloadBase pos dte ++
        [("mark", .str (w.text.decimal mark)), ("entry_credit", .str (w.text.decimal pos.avgSellPrice)),
          ("pct_remaining", .str (w.text.decimal (quantizePaise pctRemaining)))]
      let description := s!"Overlay {pos.legRole} on {pos.strategyName} mark {w.text.decimal mark} ≤ 25% " ++
        s!"of entry {w.text.decimal pos.avgSellPrice} — consider rolling"
      match w.selectOverlayRollTarget pos.legRole with
      | some target =>
        some
          { eventType := "ROLL_DUE_DECAY"
            severity := .action
            description
            payload := payload ++ rollEntries pos target ++ emptySuggestions ++
              [("valid_actions", .list [.str "ROLL_OVERLAY"]), ("legs_to_open", .list [LegSpec.toPyValue target])] }
      | none => some { eventType := "ROLL_DUE_DECAY", severity := .warn, description, payload }
    else none
  else none

/-- The events of an overlay. -/
def overlayEvents (w : World) (market : OptionChain) (positions : List PaperPosition) (pos : PaperPosition)
    (expiry : Option Date) : List SignalEvent :=
  let dte := expiry.map (w.today.daysBetween ·)
  let dteEvents :=
    match dte with
    | none => []
    | some dte =>
      if dte ≤ rollEligibleDte then rollEligibleEvents w market positions pos dte
      else if dte ≤ rollDueDteMax then [rollDueEvent w market pos dte] else []
  match expiry.filter (· < w.today) with
  | some expiry => [expiredEvent pos expiry dte]
  | none => dteEvents ++ (decayEvent w market pos dte).toList

/-- The body of the loop of `check_signals`. -/
def checkPosition (w : World) (market : OptionChain) (positions : List PaperPosition) (pos : PaperPosition)
    (breaches : BreachCounts) : List SignalEvent × BreachCounts :=
  if pos.strategyName ∉ trackStrategyNames then ([], breaches)
  else if !(isOverlay pos || isProxyBase pos) then ([], breaches)
  else
    let expiry := parseExpiry pos.instrumentKey
    if isProxyBase pos then proxyEvents w market pos (expiry.map (w.today.daysBetween ·)) breaches
    else (overlayEvents w market positions pos expiry, breaches)

/-- The loop of `check_signals`. -/
def checkFrom (w : World) (market : OptionChain) (positions : List PaperPosition) :
    List PaperPosition → BreachCounts → List SignalEvent × BreachCounts
  | [], breaches => ([], breaches)
  | pos :: rest, breaches =>
    let (events, breaches) := checkPosition w market positions pos breaches
    let (later, breaches) := checkFrom w market positions rest breaches
    (events ++ later, breaches)

/-- `check_signals`. -/
def checkSignals (w : World) (market : OptionChain) (positions : List PaperPosition) (breaches : BreachCounts) :
    List SignalEvent × BreachCounts :=
  checkFrom w market positions positions breaches

/-! ### What it does with what it is given -/

/-- A position of no track is passed over. -/
theorem checkFrom_of_no_track (w : World) (market : OptionChain) (positions : List PaperPosition)
    (breaches : BreachCounts) : ∀ {l : List PaperPosition},
      (∀ pos ∈ l, pos.strategyName ∉ trackStrategyNames) →
      checkFrom w market positions l breaches = ([], breaches)
  | [], _ => rfl
  | pos :: rest, h => by
    have hpos : checkPosition w market positions pos breaches = ([], breaches) :=
      if_pos (h pos List.mem_cons_self)
    have hrest := checkFrom_of_no_track w market positions breaches fun q hq =>
      h q (List.mem_cons_of_mem pos hq)
    rw [checkFrom, hpos]
    simp only [hrest, List.append_nil]

/-- What the loop finds at a position is among its events, whatever the breach counts are
by then. -/
theorem mem_checkFrom {w : World} {market : OptionChain} {positions : List PaperPosition}
    {pos : PaperPosition}
    {e : SignalEvent} (he : ∀ breaches, e ∈ (checkPosition w market positions pos breaches).1) :
    ∀ {l : List PaperPosition}, pos ∈ l → ∀ breaches, e ∈ (checkFrom w market positions l breaches).1
  | [], hpos, _ => absurd hpos (by simp)
  | q :: rest, hpos, breaches => by
    rw [checkFrom]
    rcases List.mem_cons.mp hpos with rfl | hrest
    · exact List.mem_append_left _ (he breaches)
    · exact List.mem_append_right _ (mem_checkFrom he hrest _)

/-- The payload names the position. -/
def AboutLeg (pos : PaperPosition) (e : SignalEvent) : Prop :=
  PyValue.lookup e.payload "track" = some (.str pos.strategyName) ∧
    PyValue.lookup e.payload "leg_role" = some (.str pos.legRole)

theorem aboutLeg_of_payload {pos : PaperPosition} {dte : Option ℤ} {e : SignalEvent} {rest : Payload}
    (h : e.payload = payloadBase pos dte ++ rest) : AboutLeg pos e := by
  constructor
  · rw [h]
    rfl
  · rw [h]
    rfl

theorem rollEvent_about {w : World} {market : OptionChain} {pos : PaperPosition} {dte baseDte : ℤ}
    {res : ExitSignalResult} (h : res.exitSignal = "ROLL_ELIGIBLE" ∨ res.exitSignal = "ROLL_BASE_FIRST") :
    ∃ e, rollEvent w market pos dte baseDte res = some e ∧ AboutLeg pos e := by
  unfold rollEvent
  split
  · refine ⟨_, rfl, ?_⟩
    cases w.selectOverlayRollTarget pos.legRole with
    | none => exact aboutLeg_of_payload rfl
    | some target => exact ⟨rfl, rfl⟩
  next hne =>
    rw [if_pos (h.resolve_left hne)]
    exact ⟨_, rfl, aboutLeg_of_payload (List.append_nil _).symm⟩

/-- The rule finds a reason to roll in every known overlay five days or less from expiry. -/
theorem evaluateRollOverlay_finds {legRole : String} {dte baseDte atmStrike : ℤ} (hdte : dte ≤ 5)
    {results : List ExitSignalResult} (h : evaluateRollOverlay legRole dte baseDte atmStrike =
      some results) :
    ∃ res ∈ results, res.exitSignal = "ROLL_ELIGIBLE" ∨ res.exitSignal = "ROLL_BASE_FIRST" := by
  unfold evaluateRollOverlay at h
  split at h
  · exact absurd h (by simp)
  rw [if_neg (by omega)] at h
  split at h
  · obtain rfl := Option.some.inj h
    exact ⟨_, List.mem_singleton_self _, Or.inr rfl⟩
  · obtain rfl := Option.some.inj h
    exact ⟨_, List.mem_singleton_self _, Or.inl rfl⟩

theorem rollEligibleEvents_about (w : World) (market : OptionChain) (positions : List PaperPosition)
    (pos : PaperPosition) {dte : ℤ} (hdte : dte ≤ 5) :
      ∃ e ∈ rollEligibleEvents w market positions pos dte, AboutLeg pos e := by
  unfold rollEligibleEvents
  simp only
  split
  · exact ⟨_, List.mem_singleton_self _, aboutLeg_of_payload (List.append_nil _).symm⟩
  next results hresults =>
    obtain ⟨res, hres, hsignal⟩ := evaluateRollOverlay_finds hdte hresults
    obtain ⟨e, he, habout⟩ := rollEvent_about hsignal
    exact ⟨e, List.mem_filterMap.mpr ⟨res, hres, he⟩, habout⟩

theorem overlayEvents_about (w : World) (market : OptionChain) (positions : List PaperPosition)
    (pos : PaperPosition)
    {expiry : Date} (hdte : w.today.daysBetween expiry ≤ 5) :
    ∃ e ∈ overlayEvents w market positions pos (some expiry), AboutLeg pos e := by
  unfold overlayEvents
  by_cases hexpired : expiry < w.today
  · rw [Option.filter_some_pos (by simpa using hexpired)]
    exact ⟨_, List.mem_singleton_self _, aboutLeg_of_payload rfl⟩
  · rw [Option.filter_some_neg (by simpa using hexpired)]
    obtain ⟨e, he, habout⟩ := rollEligibleEvents_about w market positions pos hdte
    refine ⟨e, List.mem_append_left _ ?_, habout⟩
    simp only [Option.map_some]
    rwa [if_pos (show w.today.daysBetween expiry ≤ rollEligibleDte from hdte)]

/-- **Given an overlay of a track five days or less from its expiry**, `check_signals` emits
an event about it. -/
theorem overlay_warned_if_passed (w : World) (market : OptionChain) {positions : List PaperPosition}
    {pos : PaperPosition} (hpos : pos ∈ positions) (htrack : pos.strategyName ∈ trackStrategyNames)
    (hoverlay : isOverlay pos = true) {expiry : Date}
    (hexpiry : parseExpiry pos.instrumentKey = some expiry)
    (hdte : w.today.daysBetween expiry ≤ 5) (breaches : BreachCounts) :
    ∃ e ∈ (checkSignals w market positions breaches).1, AboutLeg pos e := by
  obtain ⟨e, he, habout⟩ := overlayEvents_about w market positions pos hdte
  refine ⟨e, mem_checkFrom (fun breaches => ?_) hpos breaches, habout⟩
  have hbase : isProxyBase pos = false := by
    unfold isProxyBase
    unfold isOverlay at hoverlay
    refine decide_eq_false fun hrole => ?_
    rw [hrole] at hoverlay
    exact absurd hoverlay (by decide)
  simp only [checkPosition, htrack, not_true_eq_false, if_false, hoverlay, hbase, Bool.or_false,
    Bool.not_true,
    Bool.false_eq_true, hexpiry]
  exact he

/-! ### What it is given -/

/-- An open overlay, or the proxy's base leg, of a track. -/
def TrackLeg (env : TickEnv) (p : PaperPosition) : Prop :=
  (∃ name ∈ trackStrategyNames, p ∈ env.positionsOf name) ∧ (isOverlay p || isProxyBase p) = true

/-- The tick passes the position to the `check_signals` at a place of the registry. -/
def Evaluated (cfg : Config) (env : TickEnv) (n : ℕ) (s : TickState) (index : ℕ) (p : PaperPosition) : Prop :=
  ∃ c ∈ callsMade cfg env n s, c.index = index ∧ p ∈ c.positions

/-- A call of the strategy has positions of its own name only. -/
theorem strategyName_of_call {cfg : Config} {env : TickEnv} {n : ℕ} {s : TickState} {r : Registered × ℕ}
    (hr : r ∈ cfg.dueStrategies n) {c : Call} (hc : c ∈ callsMade cfg env n s) (hindex : c.index = r.2)
    {p : PaperPosition} (hp : p ∈ c.positions) : p.strategyName = r.1.strategyName := by
  rw [callsMade_eq] at hc
  obtain ⟨r', hr', hindex', hown⟩ := mem_plan ((takeThrough_sublist _ _).subset hc)
  obtain rfl : r' = r := dueStrategies_inj hr' hr (hindex'.symm.trans hindex)
  exact (getPositions_open (hown p hp)).1

theorem strategyName_not_track : strategyName ∉ trackStrategyNames := by decide

/-- **No overlay is evaluated.** A due tick passes no leg of a track to the strategy, and on
what it is passed the strategy emits nothing. -/
theorem overlay_not_evaluated {cfg : Config} {env : TickEnv} {n : ℕ} (s : TickState) {r : Registered × ℕ}
    (hr : r ∈ cfg.dueStrategies n) (hname : r.1.strategyName = strategyName) {p : PaperPosition}
    (hp : TrackLeg env p) :
    ¬ Evaluated cfg env n s r.2 p ∧
      ∀ c ∈ callsMade cfg env n s, c.index = r.2 → ∀ w breaches,
        checkSignals w c.chain c.positions breaches = ([], breaches) := by
  constructor
  · rintro ⟨c, hc, hindex, hpc⟩
    obtain ⟨⟨name, htrack, hown⟩, -⟩ := hp
    have hcall := strategyName_of_call hr hc hindex hpc
    rw [(getPositions_open hown).1, hname] at hcall
    exact strategyName_not_track (hcall ▸ htrack)
  · intro c hc hindex w breaches
    refine checkFrom_of_no_track w c.chain c.positions breaches fun q hq => ?_
    rw [strategyName_of_call hr hc hindex hq, hname]
    exact strategyName_not_track

/-! ### A put that expires in four days -/

/-- A monitor of the three tracks. -/
def threeTracks : Config where
  strategies := [{ strategyName, autoExecute := true }]

/-- A protective put on the spot track, bought on day 739790. -/
def spotPut : PaperTrade where
  strategyName := "paper_nifty_spot"
  legRole := "overlay_pp"
  instrumentKey := "NSE_FO|NIFTY30JUN2026PE"
  tradeDate := 739790
  action := .buy
  quantity := 65
  price := 100
  paperPrefix := hasPaperPrefix_spot
  legRole_ne := overlayPp_ne
  instrumentKey_ne := keyJunePut_ne
  quantity_pos := lot_pos
  price_pos := price100_pos

/-- A tick with that put, and a chain for any expiry. -/
def spotPutTick : TickEnv where
  ledger := (PaperTrades.empty.recordTrade spotPut).1
  fetchChain := fun exp => .chain ⟨24000, exp, Dict.empty⟩
  marketToday := 739793
  checkSignals := fun _ _ _ => .events []

/-- The position of the put. -/
def spotPutPosition : PaperPosition where
  strategyName := "paper_nifty_spot"
  legRole := "overlay_pp"
  netQty := 65
  avgCost := 100
  avgSellPrice := 0
  instrumentKey := "NSE_FO|NIFTY30JUN2026PE"
  entryDate := some 739790

theorem spotPutPosition_trackLeg : TrackLeg spotPutTick spotPutPosition :=
  ⟨⟨"paper_nifty_spot", by decide, by decide +kernel⟩, by decide⟩

/-- Four days from expiry on a market-hours tick with the chain there, the put is in no call
of `check_signals`. -/
theorem spotPut_not_evaluated :
    (spotPutTick.tradingDay = true ∧ spotPutTick.marketSession = true) ∧ TrackLeg spotPutTick spotPutPosition ∧
      (parseExpiry spotPutPosition.instrumentKey).map (spotPutTick.marketToday.daysBetween ·) = some 4 ∧
      (∀ exp, ∃ c, spotPutTick.fetchChain exp = .chain c) ∧
      ¬ Evaluated threeTracks spotPutTick 0 TickState.initial 0 spotPutPosition := by
  refine ⟨⟨rfl, rfl⟩, spotPutPosition_trackLeg, by decide +kernel, fun exp => ⟨_, rfl⟩, fun h => ?_⟩
  have hcall : ∃ c ∈ callsMade threeTracks spotPutTick 0 TickState.initial,
      c.index = 0 ∧ spotPutPosition ∈ c.positions := h
  exact absurd hcall (by decide +kernel)

/-- The general statement at that put. -/
theorem overlay_not_evaluated_spotPut :
    ¬ Evaluated threeTracks spotPutTick 0 TickState.initial 0 spotPutPosition ∧
      ∀ c ∈ callsMade threeTracks spotPutTick 0 TickState.initial, c.index = 0 → ∀ w breaches,
        checkSignals w c.chain c.positions breaches = ([], breaches) :=
  overlay_not_evaluated TickState.initial (r := (⟨strategyName, none, true⟩, 0)) (by decide +kernel) rfl
    spotPutPosition_trackLeg

end NiftyShield.Strategy.TrackComparison
