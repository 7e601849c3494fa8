import NiftyShield.Instruments.Expiries
import NiftyShield.Instruments.StrikeSelector
import NiftyShield.Lib.Raising
import NiftyShield.Paper.Journal
import NiftyShield.Strategy.PriceUtils

/-!
# Rolling a cash-secured put

`roll_csp` and `roll_down_and_out` (`src/strategy/csp_roll_executor.py`) close the short
put and open its replacement. If opening raises, the close trade is deleted again "to
restore the pre-roll position". The close step has by then also marked the leg's rows
CLOSED, and when today's closing trade was already in the ledger there is a row to delete
that the roll did not write.

## What is proved

Every run that raises is traced to its point of failure (`closeCspLeg_error`,
`closeCspLeg_ok`, `openOrRestore_error`), and `roll_failure_restores_iff` says exactly
when the rows are those before the call.

## Honest scope

The broker is any function of the arguments it is called with; each of its calls may
raise, also by cancellation, which `except Exception` does not catch. Every store
operation may fail and then leaves the table alone, as its transaction is rolled back.
The collateral gate writes no trade, its exceptions are swallowed, and it is left out; the
broker call before it is not. Expiries that are not ISO dates are ignored.
-/

namespace NiftyShield.Strategy.CspRoll

open NiftyShield.Instruments NiftyShield.Lib NiftyShield.Lib.Raising NiftyShield.Paper

/-! ### Collaborators -/

/-- What a roll can raise. -/
inductive RollError where
  /-- `No valid expiry candidates found in BOD instrument list.` -/
  | noExpiryCandidates
  /-- `No valid weekly expiry candidates found.` -/
  | noWeeklyExpiry
  /-- `Next weekly expiry exceeds 21 DTE (found DTE=…).` -/
  | weeklyTooFar (dte : ℤ)
  /-- `No option chain data returned for …`. -/
  | noChainData (expiry : Date)
  /-- `No PE strikes found in delta range […, …] for expiry …`, or `No strikes in range`. -/
  | noStrikes (deltaMin deltaMax : ℚ) (expiry : Date)
  /-- `No fallback weekly expiry candidate available.` -/
  | noFallback
  /-- `No option chain data returned for fallback …`. -/
  | noFallbackChainData (expiry : Date)
  /-- Chain data the selector cannot process; a `ValueError` or another exception. -/
  | badChainData (valueError : Bool)
  /-- `Decimal(str(raw))` of something that is no number. -/
  | badPrice
  /-- pydantic's `ValidationError`. -/
  | invalidTrade
  /-- An exception of the broker client. -/
  | broker (text : String)
  /-- An exception of the database. -/
  | database (text : String)
  /-- `asyncio.CancelledError`, which is not an `Exception`. -/
  | cancelled
  deriving DecidableEq

/-- Caught by `except Exception`. -/
def RollError.isException (e : RollError) : Bool := e ≠ .cancelled

/-- Caught by `except ValueError` around the strike selection. -/
def RollError.isSelectionValueError : RollError → Bool
  | .noStrikes .. => true
  | .badChainData valueError => valueError
  | _ => false

/-- An answer of `get_ltp` for one key. -/
inductive LtpValue where
  /-- A number. -/
  | number (q : ℚ)
  /-- Anything `Decimal(str(raw))` rejects. -/
  | notNumber
  deriving DecidableEq

/-- An answer of `get_option_chain`. -/
inductive RawChain where
  /-- The entries. -/
  | entries (es : List RawEntry)
  /-- Data the selector raises on. -/
  | malformed (valueError : Bool)
  deriving DecidableEq

/-- The broker client, as the roll calls it. -/
structure Broker where
  /-- `get_ltp`. -/
  getLtp : List String → Except RollError (String → Option LtpValue)
  /-- `get_option_chain` of the NIFTY underlying. -/
  getOptionChain : Date → Except RollError RawChain

/-- The store operations of the call that fail, with the text of the database's exception. -/
structure StoreFaults where
  /-- Recording the close trade. -/
  recordClose : Option String := none
  /-- Marking the leg closed. -/
  markClosed : Option String := none
  /-- Recording the open trade. -/
  recordOpen : Option String := none
  /-- Deleting the close trade. -/
  deleteClose : Option String := none

/-- The arguments shared by both rolls, apart from the ledger. -/
structure RollEnv where
  /-- Broker client. -/
  broker : Broker
  /-- BOD instruments. -/
  lookup : InstrumentLookup
  /-- The trade being closed. -/
  existing : PaperTrade
  /-- Date of the new trades. -/
  rollDate : Date
  /-- Simulate without writing. -/
  dryRun : Bool
  /-- Failing store operations. -/
  faults : StoreFaults := {}

/-- A program over the ledger. -/
abbrev Roll := EStateM RollError PaperTrades

/-- A store operation, which may fail and then changes nothing. -/
def storeOp {α : Type} (fault : Option String) (op : PaperTrades → PaperTrades × α) : Roll α :=
  match fault with
  | some text => throw (.database text)
  | none => updates op

/-- A value, or the error instead of it. -/
def ofExcept {α : Type} : Except RollError α → Roll α
  | .ok a => pure a
  | .error e => throw e

/-! ### Closing -/

/-- The price of the close trade: the last price to the paisa, or the entry price if that
is not positive. -/
def closePrice (env : RollEnv) : Except RollError { p : ℚ // 0 < p } := do
  let resp ← env.broker.getLtp [env.existing.instrumentKey]
  match (resp env.existing.instrumentKey).getD (.number 0) with
  | .notNumber => throw .badPrice
  | .number q =>
    if h : 0 < quantizePaise q then pure ⟨quantizePaise q, h⟩ else pure ⟨env.existing.price, env.existing.price_pos⟩

/-- The trade that closes the existing one. -/
def closeTrade (env : RollEnv) (price : { p : ℚ // 0 < p }) : PaperTrade :=
  { env.existing with
    tradeDate := env.rollDate
    action := env.existing.action.opposite
    price := price.1
    price_pos := price.2
    notes := "Roll close: expiring " ++ env.existing.instrumentKey
    ivrAtEntry := none
    state := .open }

/-- `close_csp_leg`. -/
def closeCspLeg (env : RollEnv) : Roll PaperTrade := do
  let price ← ofExcept (closePrice env)
  let trade := closeTrade env price
  if env.dryRun then pure trade
  else do
    let inserted ← storeOp env.faults.recordClose fun T => T.recordTrade trade
    if inserted then do
      storeOp env.faults.markClosed fun T =>
        (T.markTradeClosed env.existing.strategyName env.existing.legRole env.existing.instrumentKey, ())
      pure trade
    else pure trade

/-! ### Selecting the replacement -/

/-- `_ivr_to_delta_range`. -/
def ivrToDeltaRange : Option ℚ → ℚ × ℚ
  | none => (1 / 5, 27 / 100)
  | some ivr =>
    if 1 / 4 ≤ ivr ∧ ivr ≤ 1 / 2 then (1 / 5, 27 / 100)
    else if ivr < 1 / 4 then (18 / 100, 6 / 25) else (11 / 50, 3 / 10)

/-- The ranked put rows of a chain in the delta range. -/
def rankedPuts (chain : RawChain) (ivr : Option ℚ) (expiry : Date) : Except RollError (List StrikeRow) :=
  let (deltaMin, deltaMax) := ivrToDeltaRange ivr
  match chain with
  | .malformed valueError => throw (.badChainData valueError)
  | .entries es =>
    let rows := filterStrikesByDelta es "PE" deltaMin deltaMax
    if rows = [] then throw (.noStrikes deltaMin deltaMax expiry) else pure (rankStrikes rows)

/-- The row `open_new_csp_leg` selects. -/
def selectReplacement (env : RollEnv) (ivr : Option ℚ) (index : ℕ) (expiryOverride : Option Date) :
    Except RollError StrikeRow := do
  let expiry ←
    match expiryOverride with
    | some d => pure d
    | none =>
      let monthly := env.lookup.expiryCandidates "NIFTY" env.rollDate ["monthly"] none
      let candidates := if monthly = [] then env.lookup.expiryCandidates "NIFTY" env.rollDate [] none else monthly
      match candidates with
      | [] => throw .noExpiryCandidates
      | c :: _ => pure c.2
  let chain ← env.broker.getOptionChain expiry
  if chain = .entries [] then throw (.noChainData expiry)
  else do
    let ranked ← rankedPuts chain ivr expiry
    match ranked[min index (ranked.length - 1)]? with
    | some row => pure row
    | none => throw (.noChainData expiry)

/-- The row `roll_down_and_out` selects: from the next weekly expiry, else from the one
after it. -/
def selectDownAndOut (env : RollEnv) (ivr : Option ℚ) : Except RollError StrikeRow :=
  let valid := (env.lookup.allOptionExpiries "NIFTY").filter fun d => 7 ≤ Date.daysBetween env.rollDate d
  match valid with
  | [] => throw .noWeeklyExpiry
  | c1 :: rest =>
    if 21 < Date.daysBetween env.rollDate c1 then throw (.weeklyTooFar (Date.daysBetween env.rollDate c1))
    else do
      let chain ← env.broker.getOptionChain c1
      if chain = .entries [] then throw (.noChainData c1)
      else
        match rankedPuts chain ivr c1 with
        | .ok (row :: _) => pure row
        | .ok [] => throw (.noStrikes 0 0 c1)
        | .error e =>
          if e.isSelectionValueError = false then throw e
          else
            match rest with
            | [] => throw .noFallback
            | c2 :: _ => do
              let chain2 ← env.broker.getOptionChain c2
              if chain2 = .entries [] then throw (.noFallbackChainData c2)
              else do
                let ranked ← rankedPuts chain2 ivr c2
                match ranked with
                | row :: _ => pure row
                | [] => throw (.noStrikes 0 0 c2)

/-! ### Opening -/

/-- The trade that opens the selected row. -/
def replacementTrade (env : RollEnv) (row : StrikeRow) : Option PaperTrade :=
  PaperTrade.validate env.existing.strategyName "short_put" row.instrumentKey env.rollDate .sell
    env.existing.quantity (quantizePaise row.mid) ("Roll open: replacement " ++ row.instrumentKey) none .open

/-- The keys whose prices the advisory collateral gate wants. -/
def gateKeys : List String := ["NSE_INDEX|Nifty 50", niftybeesKey]

/-- `open_new_csp_leg`. -/
def openNewCspLeg (env : RollEnv) (ivr : Option ℚ) (index : ℕ) (expiryOverride : Option Date) : Roll PaperTrade := do
  let row ← ofExcept (selectReplacement env ivr index expiryOverride)
  let trade ← fromOption .invalidTrade (replacementTrade env row)
  if env.dryRun then pure trade
  else do
    let _ ← ofExcept (env.broker.getLtp gateKeys)
    let _ ← storeOp env.faults.recordOpen fun T => T.recordTrade trade
    pure trade

/-- The opening part of `roll_down_and_out`. -/
def openResolvedLeg (env : RollEnv) (row : StrikeRow) : Roll PaperTrade := do
  let trade ← fromOption .invalidTrade (replacementTrade env row)
  if env.dryRun then pure trade
  else do
    let _ ← storeOp env.faults.recordOpen fun T => T.recordTrade trade
    pure trade

/-- The condition under which a failing opening has its close trade deleted. -/
def Compensates (env : RollEnv) (e : RollError) : Prop :=
  e.isException = true ∧ env.dryRun = false ∧ env.faults.deleteClose = none

instance (env : RollEnv) (e : RollError) : Decidable (Compensates env e) := inferInstanceAs (Decidable (_ ∧ _ ∧ _))

/-- The `try … except Exception` around opening: delete the close trade and raise again. -/
def openOrRestore (env : RollEnv) (close : PaperTrade) (opening : Roll PaperTrade) : Roll PaperTrade := fun T =>
  match opening T with
  | .ok t T' => .ok t T'
  | .error e T' =>
    if Compensates env e then .error e (T'.deleteTrade close) else .error e T'

/-! ### The two rolls -/

/-- One completed roll. -/
structure RollResult where
  /-- Strategy. -/
  strategy : String
  /-- Leg role. -/
  legRole : String
  /-- Instrument closed. -/
  oldInstrumentKey : String
  /-- Price it was opened at. -/
  oldPrice : ℚ
  /-- Price it was closed at. -/
  closePrice : ℚ
  /-- Instrument opened. -/
  newInstrumentKey : String
  /-- Price it was opened at. -/
  newPrice : ℚ
  /-- Expiry of the new instrument, if its key resolves. -/
  newExpiry : Option Date
  /-- Days to that expiry, −1 if unknown. -/
  newDte : ℤ
  /-- Realized profit of the closed leg. -/
  cyclePnl : ℚ
  deriving DecidableEq

/-- `_parse_expiry_from_key`. -/
def parseExpiryFromKey (instrumentKey : String) (lookup : InstrumentLookup) : Option Date :=
  let m := searchFrom (fun s => do
    let s ← stripPrefixCI "NSE_FO|NIFTY".toList s
    let (day, month, year, rest) ← takeDayMonthYear s
    let _ ← optionSuffix rest
    some (day, month, year)) instrumentKey.toList
  match m with
  | some (day, month, year) => dateOfParts day month year
  | none => (lookup.getByKey instrumentKey).bind (·.expiry)

/-- The result both rolls build. -/
def rollResult (env : RollEnv) (close opened : PaperTrade) : RollResult :=
  let expiry := parseExpiryFromKey opened.instrumentKey env.lookup
  { strategy := env.existing.strategyName
    legRole := env.existing.legRole
    oldInstrumentKey := env.existing.instrumentKey
    oldPrice := env.existing.price
    closePrice := close.price
    newInstrumentKey := opened.instrumentKey
    newPrice := opened.price
    newExpiry := expiry
    newDte := expiry.elim (-1) (Date.daysBetween env.rollDate)
    cyclePnl := (env.existing.price - close.price) * env.existing.quantity }

/-- `roll_csp`. -/
def rollCsp (env : RollEnv) (index : ℕ) : Roll RollResult := do
  let close ← closeCspLeg env
  let opened ← openOrRestore env close (openNewCspLeg env none index none)
  pure (rollResult env close opened)

/-- `roll_down_and_out`. -/
def rollDownAndOut (env : RollEnv) (ivr : Option ℚ) : Roll RollResult := do
  let row ← ofExcept (selectDownAndOut env ivr)
  let close ← closeCspLeg env
  let opened ← openOrRestore env close (openResolvedLeg env row)
  pure (rollResult env close opened)

/-! ### Where a run can fail -/

@[simp] theorem ofExcept_ok_iff {α : Type} {x : Except RollError α} {a : α} {T T' : PaperTrades} :
    ofExcept x T = .ok a T' ↔ x = .ok a ∧ T = T' := by
  cases x with
  | ok b =>
    show EStateM.Result.ok b T = .ok a T' ↔ _
    simp
  | error e =>
    show EStateM.Result.error e T = .ok a T' ↔ _
    simp

@[simp] theorem ofExcept_error_iff {α : Type} {x : Except RollError α} {e : RollError}
    {T T' : PaperTrades} :
    ofExcept x T = .error e T' ↔ x = .error e ∧ T = T' := by
  cases x with
  | ok b =>
    show EStateM.Result.ok b T = .error e T' ↔ _
    simp
  | error e' =>
    show EStateM.Result.error e' T = .error e T' ↔ _
    simp

theorem storeOp_ok_iff {α : Type} {fault : Option String} {op : PaperTrades → PaperTrades × α} {a : α}
    {T T' : PaperTrades} : storeOp fault op T = .ok a T' ↔ fault = none ∧ op T = (T', a) := by
  cases fault with
  | none => simp [storeOp]
  | some e => simp [storeOp, throw_ne_ok]

theorem storeOp_error_iff {α : Type} {fault : Option String} {op : PaperTrades → PaperTrades × α}
    {e : RollError}
    {T T' : PaperTrades} : storeOp fault op T = .error e T' ↔
      (∃ text, fault = some text ∧ e = .database text) ∧ T = T' := by
  cases fault with
  | none => simp [storeOp, updates_ne_error]
  | some text =>
    simp only [storeOp, throw_error_iff]
    simp [eq_comm]

/-- A dry run of the close writes nothing. -/
theorem closeCspLeg_dryRun {env : RollEnv} (hdry : env.dryRun = true) {t : PaperTrade} {T T' : PaperTrades}
    (h : closeCspLeg env T = .ok t T') : T' = T := by
  obtain ⟨price, T₁, hprice, h⟩ := bind_ok_iff.mp h
  obtain ⟨-, rfl⟩ := ofExcept_ok_iff.mp hprice
  simp only [hdry, if_true, pure_ok_iff] at h
  exact h.2.symm

/-- The close step raises before it writes, or because marking the leg closed failed after
the close trade was recorded. -/
theorem closeCspLeg_error {env : RollEnv} {e : RollError} {T T' : PaperTrades}
    (h : closeCspLeg env T = .error e T') :
    (closePrice env = .error e ∧ T' = T) ∨
      (env.dryRun = false ∧ ∃ price, closePrice env = .ok price ∧
        ((env.faults.recordClose ≠ none ∧ T' = T) ∨
          (env.faults.recordClose = none ∧ env.faults.markClosed ≠ none ∧
            T.hasKey (closeTrade env price).uniqueKey = false ∧
              T' = (T.recordTrade (closeTrade env price)).1))) := by
  rcases bind_error_iff.mp h with hprice | ⟨price, T₁, hprice, h⟩
  · obtain ⟨hraised, hT⟩ := ofExcept_error_iff.mp hprice
    exact Or.inl ⟨hraised, hT.symm⟩
  · obtain ⟨hpriced, rfl⟩ := ofExcept_ok_iff.mp hprice
    right
    cases hdry : env.dryRun with
    | true =>
      simp only [hdry, if_true] at h
      exact (pure_ne_error h).elim
    | false =>
      simp only [hdry, Bool.false_eq_true, if_false] at h
      refine ⟨rfl, price, hpriced, ?_⟩
      rcases bind_error_iff.mp h with hrec | ⟨inserted, T₂, hrec, h⟩
      · obtain ⟨⟨_, hfault, -⟩, hT⟩ := storeOp_error_iff.mp hrec
        exact Or.inl ⟨by simp [hfault], hT.symm⟩
      · obtain ⟨hfault, hrec⟩ := storeOp_ok_iff.mp hrec
        obtain ⟨hT₂, hins⟩ := Prod.ext_iff.mp hrec
        simp only at hT₂ hins
        cases inserted with
        | false =>
          simp only [Bool.false_eq_true, if_false] at h
          exact (pure_ne_error h).elim
        | true =>
          have hfree : T.hasKey (closeTrade env price).uniqueKey = false := by
            by_contra hdup
            rw [PaperTrades.recordTrade_duplicate (by simpa using hdup)] at hins
            exact Bool.false_ne_true hins
          simp only [if_true] at h
          rcases bind_error_iff.mp h with hmark | ⟨_, T₃, hmark, h⟩
          · obtain ⟨⟨_, hmarked, -⟩, hT⟩ := storeOp_error_iff.mp hmark
            exact Or.inr ⟨hfault, by simp [hmarked], hfree, by rw [← hT, hT₂]⟩
          · exact (pure_ne_error h).elim

/-- A close step that returns found its key taken, or recorded the trade and marked the
leg closed. -/
theorem closeCspLeg_ok {env : RollEnv} (hdry : env.dryRun = false) {t : PaperTrade} {T T' : PaperTrades}
    (h : closeCspLeg env T = .ok t T') :
    ∃ price, closePrice env = .ok price ∧ t = closeTrade env price ∧ env.faults.recordClose = none ∧
      ((T.hasKey t.uniqueKey = true ∧ T' = T) ∨
        (T.hasKey t.uniqueKey = false ∧ env.faults.markClosed = none ∧
          T' = (T.recordTrade t).1.markTradeClosed env.existing.strategyName env.existing.legRole
            env.existing.instrumentKey)) := by
  obtain ⟨price, T₁, hget, h⟩ := bind_ok_iff.mp h
  obtain ⟨hprice, rfl⟩ := ofExcept_ok_iff.mp hget
  simp only [hdry, Bool.false_eq_true, if_false] at h
  obtain ⟨inserted, T₂, hrec, h⟩ := bind_ok_iff.mp h
  obtain ⟨hfault, hrec⟩ := storeOp_ok_iff.mp hrec
  obtain ⟨hT₂, hins⟩ := Prod.ext_iff.mp hrec
  simp only at hT₂ hins
  cases hkey : T.hasKey (closeTrade env price).uniqueKey with
  | true =>
    rw [PaperTrades.recordTrade_duplicate hkey] at hT₂ hins
    subst hins hT₂
    simp only [Bool.false_eq_true, if_false, pure_ok_iff] at h
    exact ⟨price, hprice, h.1.symm, hfault, Or.inl ⟨h.1 ▸ hkey, h.2.symm⟩⟩
  | false =>
    rw [(PaperTrades.recordTrade_fresh hkey).1] at hins
    subst hins hT₂
    simp only [if_true] at h
    obtain ⟨_, T₃, hmark, h⟩ := bind_ok_iff.mp h
    obtain ⟨hmark, hT₃⟩ := storeOp_ok_iff.mp hmark
    obtain ⟨rfl, rfl⟩ := pure_ok_iff.mp h
    exact ⟨price, hprice, rfl, hfault, Or.inr ⟨hkey, hmark, (Prod.mk.inj hT₃).1.symm⟩⟩

/-- The opening of `roll_csp` is cancelled while it waits for the broker. -/
def OpeningCancelled (env : RollEnv) (index : ℕ) : Prop :=
  selectReplacement env none index none = .error .cancelled ∨
    ∃ row, selectReplacement env none index none = .ok row ∧ (replacementTrade env row).isSome = true ∧
      env.broker.getLtp gateKeys = .error .cancelled

/-- Opening raises only before it has written. -/
theorem openNewCspLeg_error {env : RollEnv} {index : ℕ} {e : RollError} {T T' : PaperTrades}
    (h : openNewCspLeg env none index none T = .error e T') :
    T' = T ∧ (env.dryRun = false → (e = .cancelled ↔ OpeningCancelled env index)) := by
  unfold OpeningCancelled
  rcases bind_error_iff.mp h with hrow | ⟨row, T₁, hrow, h⟩
  · obtain ⟨hsel, hT⟩ := ofExcept_error_iff.mp hrow
    exact ⟨hT.symm, by simp [hsel]⟩
  obtain ⟨hsel, rfl⟩ := ofExcept_ok_iff.mp hrow
  rcases bind_error_iff.mp h with ht | ⟨t, T₂, ht, h⟩
  · obtain ⟨hbuilt, rfl, hT⟩ := fromOption_error_iff.mp ht
    exact ⟨hT.symm, by simp [hsel, hbuilt]⟩
  obtain ⟨hbuilt, rfl⟩ := fromOption_ok_iff.mp ht
  split at h
  · exact (pure_ne_error h).elim
  rcases bind_error_iff.mp h with hltp | ⟨_, T₃, hltp, h⟩
  · obtain ⟨hquotes, hT⟩ := ofExcept_error_iff.mp hltp
    exact ⟨hT.symm, by simp [hsel, hbuilt, hquotes]⟩
  obtain ⟨hquotes, rfl⟩ := ofExcept_ok_iff.mp hltp
  rcases bind_error_iff.mp h with hrec | ⟨_, T₄, -, h⟩
  · obtain ⟨⟨_, -, rfl⟩, hT⟩ := storeOp_error_iff.mp hrec
    exact ⟨hT.symm, by simp [hsel, hquotes]⟩
  · exact (pure_ne_error h).elim

/-- `roll_down_and_out` opens without waiting for anything. -/
theorem openResolvedLeg_error {env : RollEnv} {row : StrikeRow} {e : RollError} {T T' : PaperTrades}
    (h : openResolvedLeg env row T = .error e T') : T' = T ∧ e ≠ .cancelled := by
  rcases bind_error_iff.mp h with ht | ⟨t, T₁, ht, h⟩
  · obtain ⟨-, rfl, hT⟩ := fromOption_error_iff.mp ht
    exact ⟨hT.symm, by simp⟩
  obtain ⟨-, rfl⟩ := fromOption_ok_iff.mp ht
  split at h
  · exact (pure_ne_error h).elim
  rcases bind_error_iff.mp h with hrec | ⟨_, T₂, -, h⟩
  · obtain ⟨⟨_, -, rfl⟩, hT⟩ := storeOp_error_iff.mp hrec
    exact ⟨hT.symm, by simp⟩
  · exact (pure_ne_error h).elim

/-- A guarded opening that raises leaves the ledger as it found it, less the close trade
if that is deleted. -/
theorem openOrRestore_error {env : RollEnv} {close : PaperTrade} {opening : Roll PaperTrade} {e : RollError}
    {T T' : PaperTrades} (hopen : ∀ e T', opening T = .error e T' → T' = T)
    (h : openOrRestore env close opening T = .error e T') :
    T' = if Compensates env e then T.deleteTrade close else T := by
  unfold openOrRestore at h
  cases hrun : opening T with
  | ok t T₁ =>
    rw [hrun] at h
    exact absurd h (by simp)
  | error e₁ T₁ =>
    obtain rfl := hopen e₁ T₁ hrun
    rw [hrun] at h
    simp only at h
    by_cases hc : Compensates env e₁
    · rw [if_pos hc] at h
      obtain ⟨rfl, rfl⟩ := EStateM.Result.error.inj h
      rw [if_pos hc]
    · rw [if_neg hc] at h
      obtain ⟨rfl, rfl⟩ := EStateM.Result.error.inj h
      rw [if_neg hc]

/-- The error of a guarded opening is the opening's. -/
theorem openOrRestore_cause {env : RollEnv} {close : PaperTrade} {opening : Roll PaperTrade} {e : RollError}
    {T T' : PaperTrades} (h : openOrRestore env close opening T = .error e T') :
    ∃ T₁, opening T = .error e T₁ := by
  unfold openOrRestore at h
  cases hrun : opening T with
  | ok t T₁ =>
    rw [hrun] at h
    exact absurd h (by simp)
  | error e₁ T₁ =>
    rw [hrun] at h
    simp only at h
    split at h <;> exact ⟨T₁, by rw [(EStateM.Result.error.inj h).1]⟩

/-! ### What is left of the rows -/

/-- Recording a trade whose key is free changes the rows. -/
theorem rows_record_ne {T : PaperTrades} {t : PaperTrade} (h : T.hasKey t.uniqueKey = false) :
    (T.recordTrade t).1.rows ≠ T.rows := by
  intro heq
  have := congrArg List.length heq
  rw [(PaperTrades.recordTrade_fresh h).2, List.length_append] at this
  simp at this

theorem rows_record_mark_ne {T : PaperTrades} {t : PaperTrade} (h : T.hasKey t.uniqueKey = false)
    (s role key : String) :
    ((T.recordTrade t).1.markTradeClosed s role key).rows ≠ T.rows := by
  intro heq
  have := congrArg List.length heq
  rw [PaperTrades.markTradeClosed, PaperTrades.rows_updateState, List.length_map,
    (PaperTrades.recordTrade_fresh h).2,
    List.length_append] at this
  simp at this

/-- Deleting a trade whose key is taken changes the rows. -/
theorem rows_delete_ne {T : PaperTrades} {t : PaperTrade} (h : T.hasKey t.uniqueKey = true) :
    (T.deleteTrade t).rows ≠ T.rows := by
  intro heq
  obtain ⟨r, hr, hkey⟩ := PaperTrades.hasKey_iff.mp h
  rw [← heq] at hr
  exact absurd hkey (by simpa using (List.mem_filter.mp hr).2)

/-- **The compensation undoes the close** exactly when no row of the leg was active: the
close trade goes, the CLOSED marks stay. -/
theorem rows_record_mark_delete_iff {T : PaperTrades} {t : PaperTrade} (h : T.hasKey t.uniqueKey = false)
    (s role key : String) :
    (((T.recordTrade t).1.markTradeClosed s role key).deleteTrade t).rows = T.rows ↔
      ∀ r ∈ T.rows, PaperTrades.isActive s role key r.trade = false := by
  let f : TradeRow → TradeRow := fun r =>
    if PaperTrades.isActive s role key r.trade
      then { r with trade := { r.trade with state := .closed } } else r
  have hkey : ∀ r, (f r).trade.uniqueKey = r.trade.uniqueKey := fun r => by
    simp only [f]
    split <;> rfl
  have hrows : (((T.recordTrade t).1.markTradeClosed s role key).deleteTrade t).rows = T.rows.map f := by
    show List.filter _ (((T.recordTrade t).1.rows).map f) = _
    rw [(PaperTrades.recordTrade_fresh h).2, List.map_append, List.filter_append]
    have hkeep : (T.rows.map f).filter (fun r => r.trade.uniqueKey ≠ t.uniqueKey) = T.rows.map f := by
      refine List.filter_eq_self.mpr fun r hr => ?_
      obtain ⟨r', hr', rfl⟩ := List.mem_map.mp hr
      simpa [hkey] using PaperTrades.hasKey_eq_false_iff.mp h r' hr'
    rw [hkeep]
    simp [hkey]
  rw [hrows]
  constructor
  · intro heq r hr
    by_contra hactive
    have hmap : ∀ r ∈ T.rows, f r = r := List.map_inj_left.mp (heq.trans (List.map_id _).symm)
    have hr' := hmap r hr
    have hact : PaperTrades.isActive s role key r.trade = true := by simpa using hactive
    simp only [f, hact, if_true] at hr'
    have hstate : r.trade.state = .closed := by rw [← hr']
    simp [PaperTrades.isActive, hstate] at hact
  · intro hall
    refine (List.map_congr_left fun r hr => ?_).trans (List.map_id _)
    simp [f, hall r hr]

/-! ### A failed roll -/

/-- The unique key of the close trade, whatever its price. -/
def closeKey (env : RollEnv) : PaperTrade.UniqueKey :=
  ⟨env.existing.strategyName, env.existing.legRole, env.existing.instrumentKey, env.rollDate,
    env.existing.action.opposite⟩

@[simp] theorem closeTrade_uniqueKey (env : RollEnv) (price : { p : ℚ // 0 < p }) :
    (closeTrade env price).uniqueKey = closeKey env := rfl

/-- The two entry points. -/
inductive RollKind where
  /-- `roll_csp`, with the rank of the candidate. -/
  | csp (index : ℕ)
  /-- `roll_down_and_out`, with the IV rank. -/
  | downAndOut (ivr : Option ℚ)

/-- Either roll. -/
def roll (kind : RollKind) (env : RollEnv) : Roll RollResult :=
  match kind with
  | .csp index => rollCsp env index
  | .downAndOut ivr => rollDownAndOut env ivr

/-- The roll stops before it has written anything: the defensive roll finds no strike, the
close price cannot be had, or the close trade cannot be recorded. -/
def StopsBeforeClose (kind : RollKind) (env : RollEnv) : Prop :=
  (∃ ivr e, kind = .downAndOut ivr ∧ selectDownAndOut env ivr = .error e) ∨
    (∃ e, closePrice env = .error e) ∨ env.faults.recordClose ≠ none

/-- The opening is cancelled; only `roll_csp` waits for the broker there. -/
def OpeningIsCancelled (kind : RollKind) (env : RollEnv) : Prop :=
  ∃ index, kind = .csp index ∧ OpeningCancelled env index

/-- No row of the leg is OPEN or DEFENDED. -/
def NoActiveRow (env : RollEnv) (T : PaperTrades) : Prop :=
  ∀ r ∈ T.rows, PaperTrades.isActive env.existing.strategyName env.existing.legRole env.existing.instrumentKey
    r.trade = false

/-- **When a failing roll has left the rows alone**: nothing was written; or today's
closing trade was there before and its deletion was not reached or failed; or it was not,
and deleting it undid all the close step did, as no row of the leg was active. -/
def RollRestores (kind : RollKind) (env : RollEnv) (T : PaperTrades) : Prop :=
  env.dryRun = true ∨ StopsBeforeClose kind env ∨
    (T.hasKey (closeKey env) = true ∧ (OpeningIsCancelled kind env ∨ env.faults.deleteClose ≠ none)) ∨
    (T.hasKey (closeKey env) = false ∧ env.faults.markClosed = none ∧ ¬ OpeningIsCancelled kind env ∧
      env.faults.deleteClose = none ∧ NoActiveRow env T)

/-- The close and the guarded opening, as both rolls run them. -/
def closeThenOpen (env : RollEnv) (opening : Roll PaperTrade) : Roll RollResult := do
  let close ← closeCspLeg env
  let opened ← openOrRestore env close opening
  pure (rollResult env close opened)

/-- The part of a roll both kinds share. `cancelled` says when the opening is cancelled. -/
theorem closeThenOpen_error {env : RollEnv} {opening : Roll PaperTrade} {cancelled : Prop} {e : RollError}
    {T T' : PaperTrades}
    (hopen : ∀ e T T', opening T = .error e T' → T' = T ∧
      (env.dryRun = false → (e = .cancelled ↔ cancelled)))
    (h : closeThenOpen env opening T = .error e T') :
    T'.rows = T.rows ↔ env.dryRun = true ∨
      ((∃ e, closePrice env = .error e) ∨ env.faults.recordClose ≠ none) ∨
      (T.hasKey (closeKey env) = true ∧ (cancelled ∨ env.faults.deleteClose ≠ none)) ∨
      (T.hasKey (closeKey env) = false ∧ env.faults.markClosed = none ∧ ¬ cancelled ∧
        env.faults.deleteClose = none ∧ NoActiveRow env T) := by
  have hkeeps : ∀ e T T', opening T = .error e T' → T' = T := fun e T T' he => (hopen e T T' he).1
  cases hdry : env.dryRun with
  | true =>
    have hsame : T' = T := by
      rcases bind_error_iff.mp h with hclose | ⟨close, T₁, hclose, hrest⟩
      · rcases closeCspLeg_error hclose with ⟨-, hT⟩ | ⟨hwet, -⟩
        · exact hT
        · exact absurd hwet (by simp [hdry])
      · rw [closeCspLeg_dryRun hdry hclose] at hrest
        rcases bind_error_iff.mp hrest with hopened | ⟨_, T₂, -, hpure⟩
        · have hT' := openOrRestore_error (fun e T' => hkeeps e T T') hopened
          rwa [if_neg (by simp [Compensates, hdry])] at hT'
        · exact (pure_ne_error hpure).elim
    simp [hsame]
  | false =>
    rcases bind_error_iff.mp h with hclose | ⟨close, T₁, hclose, hrest⟩
    · -- the close step raised
      rcases closeCspLeg_error hclose with ⟨hprice, hT⟩ |
        ⟨-, price, hprice, ⟨hrec, hT⟩ | ⟨hrec, hmark, hfree, hT⟩⟩
      · simp [hT, hprice]
      · simp [hT, hrec]
      · have hne := rows_record_ne hfree
        rw [closeTrade_uniqueKey] at hfree
        simp [hT, hne, hprice, hrec, hmark, hfree]
    rcases bind_error_iff.mp hrest with hopened | ⟨_, T₂, -, hpure⟩
    · obtain ⟨T₂, hraised⟩ := openOrRestore_cause hopened
      have hcancelled : e = .cancelled ↔ cancelled := (hopen e T₁ T₂ hraised).2 hdry
      have hT' := openOrRestore_error (fun e T' => hkeeps e T₁ T') hopened
      have hcomp : Compensates env e ↔ ¬ cancelled ∧ env.faults.deleteClose = none := by
        simp [Compensates, RollError.isException, hdry, hcancelled]
      obtain ⟨price, hprice, rfl, hrec, ⟨htaken, hT₁⟩ | ⟨hfree, hmark, hT₁⟩⟩ := closeCspLeg_ok hdry hclose
      · -- today's closing trade was there before
        have hne := rows_delete_ne htaken
        rw [closeTrade_uniqueKey] at htaken
        by_cases hc : Compensates env e
        · rw [if_pos hc] at hT'
          have := hcomp.mp hc
          simp [hT', hT₁, hne, hprice, hrec, htaken, this.1, this.2]
        · rw [if_neg hc] at hT'
          have : cancelled ∨ env.faults.deleteClose ≠ none := by
            by_contra hnot
            exact hc (hcomp.mpr (by simpa [not_or] using hnot))
          simp [hT', hT₁, hprice, hrec, htaken, this]
      · -- the close step recorded its trade and marked the leg closed
        by_cases hc : Compensates env e
        · rw [if_pos hc] at hT'
          have hback := rows_record_mark_delete_iff hfree env.existing.strategyName env.existing.legRole
            env.existing.instrumentKey
          rw [← hT₁, ← hT'] at hback
          rw [closeTrade_uniqueKey] at hfree
          have := hcomp.mp hc
          simp [hback, hprice, hrec, hmark, hfree, this.1, this.2, NoActiveRow]
        · rw [if_neg hc] at hT'
          have hne := rows_record_mark_ne hfree env.existing.strategyName env.existing.legRole
            env.existing.instrumentKey
          rw [← hT₁, ← hT'] at hne
          rw [closeTrade_uniqueKey] at hfree
          refine iff_of_false hne ?_
          rintro (hdry' | (⟨_, herr⟩ | hfault) | ⟨htaken, -⟩ | ⟨-, -, hnot, hdel, -⟩)
          · exact absurd hdry' (by simp)
          · exact absurd (hprice.symm.trans herr) (by simp)
          · exact hfault hrec
          · exact absurd (hfree.symm.trans htaken) (by simp)
          · exact hc (hcomp.mpr ⟨hnot, hdel⟩)
    · exact (pure_ne_error hpure).elim

/-- **A roll that raises leaves the rows as they were exactly when** it stopped before it
wrote anything, or the deletion of the close trade undid just what the close step had done. -/
theorem roll_failure_restores_iff {kind : RollKind} {env : RollEnv} {e : RollError} {T T' : PaperTrades}
    (h : roll kind env T = .error e T') : T'.rows = T.rows ↔ RollRestores kind env T := by
  cases kind with
  | csp index =>
    have hopen : ∀ e T T', openNewCspLeg env none index none T = .error e T' →
        T' = T ∧ (env.dryRun = false → (e = .cancelled ↔ OpeningCancelled env index)) :=
      fun _ _ _ => openNewCspLeg_error
    have hshared := closeThenOpen_error hopen h
    simpa [RollRestores, StopsBeforeClose, OpeningIsCancelled] using hshared
  | downAndOut ivr =>
    rcases bind_error_iff.mp h with hrow | ⟨row, T₁, hrow, hrest⟩
    · obtain ⟨hsel, hT⟩ := ofExcept_error_iff.mp hrow
      simp [RollRestores, StopsBeforeClose, hsel, hT]
    · obtain ⟨hsel, hT⟩ := ofExcept_ok_iff.mp hrow
      rw [← hT] at hrest
      have hopen : ∀ e T T', openResolvedLeg env row T = .error e T' →
          T' = T ∧ (env.dryRun = false → (e = .cancelled ↔ False)) := fun _ _ _ he =>
        ⟨(openResolvedLeg_error he).1, fun _ => iff_false_intro (openResolvedLeg_error he).2⟩
      have hshared := closeThenOpen_error hopen hrest
      simpa [RollRestores, StopsBeforeClose, OpeningIsCancelled, hsel] using hshared

/-! ### A roll that loses its position -/

/-- A short put sold on day 739790. -/
def soldPut : PaperTrade where
  strategyName := "paper_csp_nifty_v1"
  legRole := "short_put"
  instrumentKey := "NSE_FO|NIFTY23000PE"
  tradeDate := 739790
  action := .sell
  quantity := 65
  price := 100
  paperPrefix := hasPaperPrefix_csp
  legRole_ne := shortPut_ne
  instrumentKey_ne := key23000Put_ne
  quantity_pos := lot_pos
  price_pos := price100_pos

/-- Its roll, with the put quoted at 90 and no expiry in the instrument file. -/
def noExpiryEnv : RollEnv where
  broker := ⟨fun _ => .ok fun _ => some (.number 90), fun _ => .ok (.entries [])⟩
  lookup := ⟨[]⟩
  existing := soldPut
  rollDate := 739797
  dryRun := false

/-- The put is in the ledger, open. -/
def soldPutLedger : PaperTrades := (PaperTrades.empty.recordTrade soldPut).1

/-- Opening raises, the close trade is deleted again, and the put's row stays CLOSED. -/
theorem soldPut_not_restored :
    ∃ T', roll (.csp 0) noExpiryEnv soldPutLedger = .error .noExpiryCandidates T' ∧ T'.rows ≠ soldPutLedger.rows := by
  have hrun : raisesWith (fun e T' => decide (e = .noExpiryCandidates ∧
    (T'.rows.map fun r => r.trade.state) = [.closed]))
      (roll (.csp 0) noExpiryEnv soldPutLedger) = true := by
    decide +kernel
  obtain ⟨e, T', h, hends⟩ := raisesWith_iff.mp hrun
  obtain ⟨rfl, hstates⟩ := of_decide_eq_true hends
  refine ⟨T', h, fun hrows => ?_⟩
  rw [hrows] at hstates
  exact absurd hstates (by decide +kernel)

/-- The equivalence at that roll. -/
theorem roll_failure_restores_iff_soldPut :
    ∃ e T', roll (.csp 0) noExpiryEnv soldPutLedger = .error e T' ∧
      (T'.rows = soldPutLedger.rows ↔ RollRestores (.csp 0) noExpiryEnv soldPutLedger) := by
  have hrun : raisesWith (fun _ _ => true) (roll (.csp 0) noExpiryEnv soldPutLedger) = true := by
    decide +kernel
  obtain ⟨e, T', h, -⟩ := raisesWith_iff.mp hrun
  exact ⟨e, T', h, roll_failure_restores_iff h⟩

end NiftyShield.Strategy.CspRoll
