import NiftyShield.Instruments.Lookup
import NiftyShield.Models.Calendar
import Mathlib.Data.List.Basic

/-!
# Exchange symbols

`parse_option_symbol` (`src/backtest/bhavcopy_ingest.py`) reads the underlying, the expiry, the
strike and the type of an option in its exchange symbol. A weekly symbol has the expiry as
`YYMDD`, with `O`, `N` and `D` for the last three months, a monthly one as `YYMON`, which stands
for the last expiry day of the month (`get_last_expiry_day`).

## What is proved

`option_symbols_parse`: a weekly and a monthly symbol parse to what they are made of, and none is
both; the last expiry day is the last Thursday of the month before April 2026 and the last
Tuesday from then on (`getLastExpiryDay_spec`).

## Honest scope

Text is ASCII (`\d` is an ASCII digit), and month names are those of the C locale.
-/

namespace NiftyShield.Backtest

open NiftyShield.Instruments Date

/-! ### The last expiry day -/

/-- `_NSE_TUESDAY_EXPIRY_CUTOFF`, 2026-04-01. -/
def nseTuesdayExpiryCutoff : ℕ := 739707

/-- `date(year, month, 1)`. -/
def firstOf (year month : ℕ) : ℕ := monthStart year month + 1

/-- `Calendar(firstweekday=MONDAY).monthdatescalendar(year, month)`: the weeks with a day of the
month. -/
def monthdatescalendar (year month : ℕ) : List (List Date) :=
  let day1 := weekday (firstOf year month)
  let ndays := daysInMonth year month
  let daysAfter := (7 - (day1 + ndays) % 7) % 7
  (List.range ((day1 + ndays + daysAfter) / 7)).map fun week =>
    (List.range 7).map fun day => firstOf year month - day1 + 7 * week + day

/-- The weekday of the last expiry: Tuesday from the cutoff on, Thursday before. -/
def expiryWeekday (year month : ℕ) : ℕ := if nseTuesdayExpiryCutoff ≤ firstOf year month then 1 else 3

/-- `get_last_expiry_day`. -/
def getLastExpiryDay (year month : ℕ) : Date :=
  ((monthdatescalendar year month).reverse.findSome? fun week =>
    week[expiryWeekday year month]?.filter fun day => day.month = month).getD (firstOf year month)

example : Date.ofYmd 2026 4 1 = some nseTuesdayExpiryCutoff := by decide
example : getLastExpiryDay 2026 3 = 739701 ∧ getLastExpiryDay 2026 6 = 739797 := by decide +kernel

/-- The last of a month's days that fall on a weekday. -/
structure IsLastWeekday (wd year month : ℕ) (d : Date) : Prop where
  /-- It is in the month. -/
  inMonth : InMonth year month d
  /-- It falls on the weekday. -/
  weekday_eq : weekday d = wd
  /-- No later day of the month does. -/
  last : ∀ e, InMonth year month e → weekday e = wd → e ≤ d

/-- A day on the weekday in the last week of the month is the last. -/
theorem isLastWeekday_of {y m d : ℕ} (hin : InMonth y m d) (hlate : monthEnd y m < d + 7) :
    IsLastWeekday (weekday d) y m d where
  inMonth := hin
  weekday_eq := rfl
  last e he hwd := by
    have hend := he.le_end
    unfold weekday at hwd
    omega

theorem month_eq {y m d : ℕ} (h : InMonth y m d) : month d = m :=
  ((year_month_iff (Nat.zero_lt_of_lt h.start_lt)).mpr h).2

/-- The days after the month are in another. -/
theorem month_ne_of_after {y m d : ℕ} (hy : 1 ≤ y) (hm : 1 ≤ m) (hm12 : m ≤ 12) (hlt : monthEnd y m < d)
    (hle : d ≤ monthEnd y m + 28) : month d ≠ m := by
  by_cases hlast : m = 12
  · subst hlast
    have hlong := daysInMonth_ge (y + 1) 1
    have hin : InMonth (y + 1) 1 d := by
      refine ⟨Nat.le_add_left _ _, le_rfl, by decide, ?_, ?_⟩
      · rwa [monthStart_january hy]
      · rw [monthEnd, monthStart_january hy]
        omega
    rw [month_eq hin]
    decide
  · have hlong := daysInMonth_ge y (m + 1)
    have hin : InMonth y (m + 1) d := by
      refine ⟨hy, by omega, by omega, ?_, ?_⟩
      · rwa [monthStart_succ y hm]
      · rw [monthEnd, monthStart_succ y hm]
        omega
    rw [month_eq hin]
    omega

/-- The weeks of a month, backwards: the last two come first. -/
theorem reverse_monthdatescalendar (y m : ℕ) : ∃ k rest,
    7 * (k + 2) = weekday (firstOf y m) + daysInMonth y m + (7 - (weekday (firstOf y m) + daysInMonth y m) % 7) % 7 ∧
      (monthdatescalendar y m).reverse =
        ((List.range 7).map fun day => firstOf y m - weekday (firstOf y m) + 7 * (k + 1) + day) ::
          ((List.range 7).map fun day => firstOf y m - weekday (firstOf y m) + 7 * k + day) :: rest := by
  have hlong := daysInMonth_ge y m
  obtain ⟨k, hk⟩ : ∃ k, weekday (firstOf y m) + daysInMonth y m +
      (7 - (weekday (firstOf y m) + daysInMonth y m) % 7) % 7 = 7 * (k + 2) :=
    ⟨(weekday (firstOf y m) + daysInMonth y m + (7 - (weekday (firstOf y m) + daysInMonth y m) % 7) % 7) / 7 - 2,
      by omega⟩
  refine ⟨k, ((List.range k).map fun week =>
    (List.range 7).map fun day => firstOf y m - weekday (firstOf y m) + 7 * week + day).reverse, hk.symm, ?_⟩
  have hrange : List.range (k + 2) = List.range k ++ [k, k + 1] := by
    rw [List.range_succ, List.range_succ, List.append_assoc]
    rfl
  rw [monthdatescalendar, hk, Nat.mul_div_cancel_left _ (by decide), hrange]
  simp only [List.map_append, List.map_cons, List.map_nil, List.reverse_append, List.reverse_cons, List.reverse_nil,
    List.nil_append, List.cons_append]

/-- The search of `get_last_expiry_day` finds the last of the weekday. -/
theorem getLastExpiryDay_isLast {y m : ℕ} (hy : 1 ≤ y) (hm : 1 ≤ m) (hm12 : m ≤ 12) :
    IsLastWeekday (expiryWeekday y m) y m (getLastExpiryDay y m) := by
  have hwd : expiryWeekday y m < 7 := by
    unfold expiryWeekday
    split <;> decide
  obtain ⟨k, rest, hk, hweeks⟩ := reverse_monthdatescalendar y m
  have hlong := daysInMonth_ge y m
  have hfirst : firstOf y m = monthStart y m + 1 := rfl
  have hend : monthEnd y m = monthStart y m + daysInMonth y m := rfl
  have hday : ∀ start, ((List.range 7).map fun day => start + day)[expiryWeekday y m]? =
      some (start + expiryWeekday y m) := fun start => by
    rw [List.getElem?_map, List.getElem?_range hwd, Option.map_some]
  have hday1 : weekday (firstOf y m) = (monthStart y m + 7) % 7 := rfl
  have hweekday : ∀ week, weekday (firstOf y m - weekday (firstOf y m) + 7 * week + expiryWeekday y m) =
      expiryWeekday y m := by
    intro week
    rw [hday1, hfirst, weekday]
    omega
  have hlast : ∀ week, monthStart y m < firstOf y m - weekday (firstOf y m) + 7 * week + expiryWeekday y m →
      firstOf y m - weekday (firstOf y m) + 7 * week + expiryWeekday y m ≤ monthEnd y m →
      monthEnd y m < firstOf y m - weekday (firstOf y m) + 7 * week + expiryWeekday y m + 7 →
      IsLastWeekday (expiryWeekday y m) y m
        (firstOf y m - weekday (firstOf y m) + 7 * week + expiryWeekday y m) := fun week hlt hle hlate => by
    have h := isLastWeekday_of ⟨hy, hm, hm12, hlt, hle⟩ hlate
    rwa [hweekday] at h
  rw [getLastExpiryDay, hweeks, List.findSome?_cons, List.findSome?_cons, hday, hday]
  by_cases hin : firstOf y m - weekday (firstOf y m) + 7 * (k + 1) + expiryWeekday y m ≤ monthEnd y m
  · have hres := hlast (k + 1) (by omega) hin (by omega)
    rw [Option.filter_some, if_pos (decide_eq_true (month_eq hres.inMonth))]
    exact hres
  · have hres := hlast k (by omega) (by omega) (by omega)
    have hne := month_ne_of_after hy hm hm12 (not_le.mp hin) (by omega)
    rw [Option.filter_some, if_neg (by simpa using hne), Option.filter_some,
      if_pos (decide_eq_true (month_eq hres.inMonth))]
    exact hres

/-- The cutoff is the first of April 2026. -/
theorem cutoff_le_firstOf_iff {y m : ℕ} (hy : 1 ≤ y) (hm : 1 ≤ m) (hm12 : m ≤ 12) :
    nseTuesdayExpiryCutoff ≤ firstOf y m ↔ ¬(y < 2026 ∨ y = 2026 ∧ m < 4) := by
  have hcut : monthStart 2026 4 = 739706 := by decide
  unfold nseTuesdayExpiryCutoff firstOf
  constructor
  · rintro hle hbefore
    have hlt : monthIndex y m < monthIndex 2026 4 := by
      unfold monthIndex
      omega
    have hend := monthEnd_le_monthStart hy hm hm12 (by decide) (by decide) hlt
    have hlong := daysInMonth_ge y m
    unfold monthEnd at hend
    omega
  · intro hafter
    by_cases heq : y = 2026 ∧ m = 4
    · rw [heq.1, heq.2, hcut]
    · have hlt : monthIndex 2026 4 < monthIndex y m := by
        unfold monthIndex
        omega
      have hstart := monthEnd_le_monthStart (by decide) (by decide) (by decide) hm hm12 hlt
      unfold monthEnd at hstart
      omega

/-- **The last expiry day**: the last Thursday before April 2026, the last Tuesday from then on. -/
theorem getLastExpiryDay_spec {y m : ℕ} (hy : 1 ≤ y) (hm : 1 ≤ m) (hm12 : m ≤ 12) :
    IsLastWeekday (if y < 2026 ∨ y = 2026 ∧ m < 4 then 3 else 1) y m (getLastExpiryDay y m) := by
  have hwd : expiryWeekday y m = if y < 2026 ∨ y = 2026 ∧ m < 4 then 3 else 1 := by
    rw [expiryWeekday]
    simp only [cutoff_le_firstOf_iff hy hm hm12, ite_not]
  rw [← hwd]
  exact getLastExpiryDay_isLast hy hm hm12

/-! ### Symbols -/

/-- What a symbol parses to. -/
structure OptionSymbol where
  /-- `underlying`. -/
  underlying : String
  /-- `expiry`. -/
  expiry : Date
  /-- `strike`. -/
  strike : ℚ
  /-- `option_type`. -/
  optionType : String
  deriving DecidableEq

/-- Why a symbol does not parse. -/
inductive SymbolError where
  /-- Shorter than six characters. -/
  | invalidFormat (symbol : String)
  /-- Not a call and not a put. -/
  | invalidOptionType (symbol : String)
  /-- Without a digit. -/
  | noExpiryToken (symbol : String)
  /-- Neither weekly nor monthly. -/
  | unrecognizedFormat (symbol : String)
  /-- `date` refuses the day. -/
  | dayOutOfRange
  /-- `strptime` does not know the month. -/
  | unknownMonth (month : String)
  deriving DecidableEq

/-- The text of the `ValueError`. -/
def SymbolError.message : SymbolError → String
  | .invalidFormat symbol => "Invalid symbol format: " ++ symbol
  | .invalidOptionType symbol => "Invalid option type in symbol: " ++ symbol
  | .noExpiryToken symbol => "No expiry token found in symbol: " ++ symbol
  | .unrecognizedFormat symbol => "Unrecognized expiry format in symbol: " ++ symbol
  | .dayOutOfRange => "day is out of range for month"
  | .unknownMonth month => "time data '" ++ month ++ "' does not match format '%b'"

/-- `(\d+)$`: digits up to the end, or up to a line feed there. -/
def digitsToEnd (s : List Char) : Option (List Char) :=
  let ds := if s.getLast? = some '\n' then s.dropLast else s
  if ds ≠ [] ∧ ds.all Char.isDigit then some ds else none

/-- `[1-9OND]`: the month it stands for. -/
def weeklyMonth (c : Char) : Option ℕ :=
  if c = 'O' then some 10
  else if c = 'N' then some 11
  else if c = 'D' then some 12
  else if c.isDigit && c != '0' then some (digitsValue [c]) else none

/-- `^(\d{2}[1-9OND]\d{2})(\d+)$`: year, month, day and strike. -/
def matchWeekly : List Char → Option (List Char × ℕ × List Char × List Char)
  | y₁ :: y₂ :: m :: d₁ :: d₂ :: strike =>
    if [y₁, y₂, d₁, d₂].all Char.isDigit then do
      let month ← weeklyMonth m
      let strike ← digitsToEnd strike
      return ([y₁, y₂], month, [d₁, d₂], strike)
    else none
  | _ => none

/-- `^(\d{2}[A-Z]{3})(\d+)$`: year, month and strike. -/
def matchMonthly : List Char → Option (List Char × List Char × List Char)
  | y₁ :: y₂ :: m₁ :: m₂ :: m₃ :: strike =>
    if [y₁, y₂].all Char.isDigit && [m₁, m₂, m₃].all Char.isUpper then do
      let strike ← digitsToEnd strike
      return ([y₁, y₂], [m₁, m₂, m₃], strike)
    else none
  | _ => none

/-- The expiry and the strike of a weekly token. -/
def weeklyExpiry : List Char × ℕ × List Char × List Char → Except SymbolError (Date × ℚ)
  | (yy, month, dd, strike) =>
    match Date.ofYmd (2000 + digitsValue yy) month (digitsValue dd) with
    | some expiry => .ok (expiry, digitsValue strike)
    | none => .error .dayOutOfRange

/-- The expiry and the strike of a monthly token. -/
def monthlyExpiry : List Char × List Char × List Char → Except SymbolError (Date × ℚ)
  | (yy, mon, strike) =>
    match monthOfAbbr mon with
    | some month => .ok (getLastExpiryDay (2000 + digitsValue yy) month, digitsValue strike)
    | none => .error (.unknownMonth (String.ofList mon))

/-- The end of `parse_option_symbol`: a weekly token, if its strike is positive, or a monthly one. -/
def parseToken (symbol underlying optionType : String) (rest : List Char) : Except SymbolError OptionSymbol :=
  match (matchWeekly rest).filter fun m => 0 < digitsValue m.2.2.2 with
  | some m => (weeklyExpiry m).map fun (expiry, strike) => ⟨underlying, expiry, strike, optionType⟩
  | none =>
    match matchMonthly rest with
    | some m => (monthlyExpiry m).map fun (expiry, strike) => ⟨underlying, expiry, strike, optionType⟩
    | none => .error (.unrecognizedFormat symbol)

/-- `parse_option_symbol`. -/
def parseOptionSymbol (symbol : String) : Except SymbolError OptionSymbol :=
  let text := symbol.toList
  if text.length < 6 then .error (.invalidFormat symbol)
  else
    let optionType := String.ofList (text.drop (text.length - 2))
    if ¬(optionType = "CE" ∨ optionType = "PE") then .error (.invalidOptionType symbol)
    else
      let core := text.take (text.length - 2)
      let underlying := String.ofList (core.takeWhile fun c => !c.isDigit)
      match core.dropWhile fun c => !c.isDigit with
      | [] => .error (.noExpiryToken symbol)
      | c :: rest => parseToken symbol underlying optionType (c :: rest)

/-! ### What symbols are made of -/

/-- The month in a weekly token. -/
def weeklyMonthCode (month : ℕ) : Char :=
  if month = 10 then 'O' else if month = 11 then 'N' else if month = 12 then 'D' else Nat.digitChar month

/-- `YYMDD`. -/
def weeklyToken (d : Date) : List Char :=
  twoDigits (year d % 100) ++ weeklyMonthCode (month d) :: twoDigits (toYmd d).2.2

/-- `YYMON`. -/
def monthlyToken (d : Date) : List Char := twoDigits (year d % 100) ++ (monthAbbrs.getD (month d - 1) "").toList

/-- The symbol with a token. -/
def optionSymbol (underlying : String) (token : List Char) (strike : ℕ) (optionType : String) : String :=
  underlying ++ String.ofList (token ++ Nat.toDigits 10 strike) ++ optionType

/-- The weekly symbol. -/
def weeklySymbol (underlying : String) (d : Date) (strike : ℕ) (optionType : String) : String :=
  optionSymbol underlying (weeklyToken d) strike optionType

/-- The monthly symbol of the month of a day. -/
def monthlySymbol (underlying : String) (d : Date) (strike : ℕ) (optionType : String) : String :=
  optionSymbol underlying (monthlyToken d) strike optionType

example : weeklySymbol "NIFTY" 739723 24000 "PE" = "NIFTY2641724000PE" := by decide +kernel
example : monthlySymbol "NIFTY" 739723 24000 "PE" = "NIFTY26APR24000PE" := by decide +kernel

/-- Without digits. -/
def NoDigits (underlying : String) : Prop := ∀ c ∈ underlying.toList, c.isDigit = false

/-- A call or a put. -/
def IsOptionType (optionType : String) : Prop := optionType = "CE" ∨ optionType = "PE"

theorem IsOptionType.length_eq {t : String} (h : IsOptionType t) : t.toList.length = 2 := by
  rcases h with rfl | rfl <;> rfl

section Parse

variable {u t : String} {token : List Char} {strike : ℕ}

theorem toList_optionSymbol : (optionSymbol u token strike t).toList =
    u.toList ++ (token ++ Nat.toDigits 10 strike) ++ t.toList := by
  simp [optionSymbol]

/-- The symbol without its type. -/
theorem core_optionSymbol (ht : IsOptionType t) :
    (optionSymbol u token strike t).toList.take ((optionSymbol u token strike t).toList.length - 2) =
      u.toList ++ (token ++ Nat.toDigits 10 strike) := by
  rw [toList_optionSymbol, List.length_append, ht.length_eq, Nat.add_sub_cancel, List.take_left]

theorem takeWhile_core (hu : NoDigits u) (htoken : token.head?.any Char.isDigit = true) (s : List Char) :
    (u.toList ++ (token ++ s)).takeWhile (fun c => !c.isDigit) = u.toList ∧
      (u.toList ++ (token ++ s)).dropWhile (fun c => !c.isDigit) = token ++ s := by
  have hall : ∀ c ∈ u.toList, (!c.isDigit) = true := fun c hc => by rw [hu c hc]; rfl
  cases token with
  | nil => simp at htoken
  | cons c token =>
    have hc : ¬(!c.isDigit) = true := by simpa using htoken
    rw [List.takeWhile_append_of_pos hall, List.dropWhile_append_of_pos hall, List.cons_append,
      List.takeWhile_cons_of_neg (p := fun c : Char => !c.isDigit) hc,
      List.dropWhile_cons_of_neg (p := fun c : Char => !c.isDigit) hc, List.append_nil]
    exact ⟨rfl, rfl⟩

/-- A symbol is split into its parts. -/
theorem parse_optionSymbol (hu : NoDigits u) (ht : IsOptionType t) (htoken : token.head?.any Char.isDigit = true)
    (hlength : 4 ≤ token.length) :
    parseOptionSymbol (optionSymbol u token strike t) =
      parseToken (optionSymbol u token strike t) u t (token ++ Nat.toDigits 10 strike) := by
  have hlong : ¬(optionSymbol u token strike t).toList.length < 6 := by
    rw [toList_optionSymbol]
    simp only [List.length_append, ht.length_eq]
    omega
  have htype : String.ofList ((optionSymbol u token strike t).toList.drop
      ((optionSymbol u token strike t).toList.length - 2)) = t := by
    rw [toList_optionSymbol, List.length_append, ht.length_eq, Nat.add_sub_cancel, List.drop_left, String.ofList_toList]
  have hrest := (takeWhile_core hu htoken (Nat.toDigits 10 strike)).2
  have ht' : t = "CE" ∨ t = "PE" := ht
  unfold parseOptionSymbol
  simp only [if_neg hlong, htype, core_optionSymbol ht, (takeWhile_core hu htoken _).1, String.ofList_toList]
  rw [if_neg (not_not.mpr ht'), hrest]
  cases token with
  | nil => simp at htoken
  | cons c token => rfl

/-- The digits of a number are all of the text after a token. -/
theorem digitsToEnd_toDigits (n : ℕ) : digitsToEnd (Nat.toDigits 10 n) = some (Nat.toDigits 10 n) := by
  have hdigits : ∀ c ∈ Nat.toDigits 10 n, c.isDigit = true := fun c hc =>
    Nat.isDigit_of_mem_toDigits (by decide) (by decide) hc
  have hne : Nat.toDigits 10 n ≠ [] := Nat.toDigits_ne_nil
  have hlast : ¬(Nat.toDigits 10 n).getLast? = some '\n' := fun h =>
    absurd (hdigits _ (List.mem_of_getLast? h)) (by decide)
  rw [digitsToEnd]
  simp only [if_neg hlast]
  rw [if_pos ⟨hne, List.all_eq_true.mpr hdigits⟩]

theorem weeklyMonth_code : ∀ m < 13, 1 ≤ m → weeklyMonth (weeklyMonthCode m) = some m := by decide

/-- The name of a month is three capitals, which are read back. -/
theorem monthAbbrs_letters : ∀ m < 13, 1 ≤ m → (monthAbbrs.getD (m - 1) "").toList.length = 3 ∧
    (monthAbbrs.getD (m - 1) "").toList.all Char.isUpper = true ∧
    monthOfAbbr (monthAbbrs.getD (m - 1) "").toList = some m := by decide

theorem isDigit_of_isUpper {c : Char} (h : c.isUpper = true) : c.isDigit = false := by
  have hupper : 65 ≤ c.val := (of_decide_eq_true h).1
  simp only [Char.isDigit, Bool.and_eq_false_iff, decide_eq_false_iff_not]
  exact Or.inr fun hdigit => absurd (UInt32.le_trans hupper hdigit) (by decide)

/-- No text has both a weekly and a monthly token: the fourth character is a digit, or a letter. -/
theorem matchMonthly_eq_none {s : List Char} (h : matchWeekly s ≠ none) : matchMonthly s = none := by
  unfold matchWeekly at h
  split at h
  · next y₁ y₂ m d₁ d₂ strike =>
    have hd₁ : d₁.isDigit = true := by
      by_contra hd₁
      simp [hd₁] at h
    rw [matchMonthly, if_neg]
    intro hletters
    simp only [List.all_cons, Bool.and_eq_true] at hletters
    rw [isDigit_of_isUpper hletters.2.2.1] at hd₁
    cases hd₁
  · exact absurd rfl h

theorem matchWeekly_weekly {yy dd month : ℕ} (hyy : yy < 100) (hdd : dd < 100) (hm : month < 13) (hpos : 1 ≤ month) :
    matchWeekly (twoDigits yy ++ weeklyMonthCode month :: twoDigits dd ++ Nat.toDigits 10 strike) =
      some (twoDigits yy, month, twoDigits dd, Nat.toDigits 10 strike) := by
  have hdigits : (twoDigits yy ++ twoDigits dd).all Char.isDigit = true :=
    List.all_eq_true.mpr fun c hc => (List.mem_append.mp hc).elim (isDigit_of_mem_twoDigits hyy)
      (isDigit_of_mem_twoDigits hdd)
  have heq : matchWeekly (twoDigits yy ++ weeklyMonthCode month :: twoDigits dd ++ Nat.toDigits 10 strike) =
      if (twoDigits yy ++ twoDigits dd).all Char.isDigit then do
        let month ← weeklyMonth (weeklyMonthCode month)
        let strike ← digitsToEnd (Nat.toDigits 10 strike)
        return (twoDigits yy, month, twoDigits dd, strike)
      else none := rfl
  rw [heq, if_pos hdigits, weeklyMonth_code month hm hpos, digitsToEnd_toDigits]
  rfl

theorem matchMonthly_monthly {yy : ℕ} {mon : List Char} (hyy : yy < 100) (hlength : mon.length = 3)
    (hmon : mon.all Char.isUpper = true) :
    matchMonthly (twoDigits yy ++ mon ++ Nat.toDigits 10 strike) = some (twoDigits yy, mon, Nat.toDigits 10 strike) := by
  obtain ⟨m₁, m₂, m₃, rfl⟩ := List.length_eq_three.mp hlength
  have hdigits : (twoDigits yy).all Char.isDigit = true :=
    List.all_eq_true.mpr fun c hc => isDigit_of_mem_twoDigits hyy hc
  have heq : matchMonthly (twoDigits yy ++ [m₁, m₂, m₃] ++ Nat.toDigits 10 strike) =
      if (twoDigits yy).all Char.isDigit && [m₁, m₂, m₃].all Char.isUpper then do
        let strike ← digitsToEnd (Nat.toDigits 10 strike)
        return (twoDigits yy, [m₁, m₂, m₃], strike)
      else none := rfl
  rw [heq, hdigits, hmon, digitsToEnd_toDigits]
  rfl

/-- A text with a monthly token has no weekly one. -/
theorem matchWeekly_eq_none {s : List Char} (h : matchMonthly s ≠ none) : matchWeekly s = none := by
  by_contra hweekly
  exact h (matchMonthly_eq_none hweekly)

end Parse

section Tokens

variable {symbol u t : String} {strike : ℕ} {d : Date}

theorem year_eq (hfirst : 2000 ≤ year d) (hlast : year d ≤ 2099) : 2000 + digitsValue (twoDigits (year d % 100)) = year d := by
  rw [digitsValue_twoDigits _ (Nat.mod_lt _ (by decide))]
  omega

/-- Day 0 is of year 0. -/
theorem pos_of_year (hfirst : 2000 ≤ year d) : 0 < d := by
  rcases Nat.eq_zero_or_pos d with rfl | hd
  · exact absurd hfirst (by decide)
  · exact hd

theorem isDigit_head_twoDigits {yy : ℕ} (hyy : yy < 100) (s : List Char) :
    (twoDigits yy ++ s).head?.any Char.isDigit = true :=
  isDigit_of_mem_twoDigits hyy (List.mem_cons_self ..)

theorem head_weeklyToken (d : Date) : (weeklyToken d).head?.any Char.isDigit = true :=
  isDigit_head_twoDigits (Nat.mod_lt _ (by decide)) _

theorem head_monthlyToken (d : Date) : (monthlyToken d).head?.any Char.isDigit = true :=
  isDigit_head_twoDigits (Nat.mod_lt _ (by decide)) _

theorem matchWeekly_token (hd : 0 < d) : matchWeekly (weeklyToken d ++ Nat.toDigits 10 strike) =
    some (twoDigits (year d % 100), month d, twoDigits (toYmd d).2.2, Nat.toDigits 10 strike) :=
  matchWeekly_weekly (Nat.mod_lt _ (by decide)) (day_lt hd) (month_lt hd) (month_pos hd)

theorem matchMonthly_token (hd : 0 < d) : matchMonthly (monthlyToken d ++ Nat.toDigits 10 strike) =
    some (twoDigits (year d % 100), (monthAbbrs.getD (month d - 1) "").toList, Nat.toDigits 10 strike) := by
  obtain ⟨hlength, hletters, -⟩ := monthAbbrs_letters (month d) (month_lt hd) (month_pos hd)
  exact matchMonthly_monthly (Nat.mod_lt _ (by decide)) hlength hletters

/-- A weekly token is read back. -/
theorem parse_weeklyToken (hd : 0 < d) (hfirst : 2000 ≤ year d) (hlast : year d ≤ 2099) (hstrike : 0 < strike) :
    parseToken symbol u t (weeklyToken d ++ Nat.toDigits 10 strike) = .ok ⟨u, d, strike, t⟩ := by
  have hday : ofYmd (2000 + digitsValue (twoDigits (year d % 100))) (month d)
      (digitsValue (twoDigits (toYmd d).2.2)) = some d := by
    rw [year_eq hfirst hlast, digitsValue_twoDigits _ (day_lt hd)]
    exact ofYmd_toYmd hd (hlast.trans (by decide))
  have hpos : 0 < digitsValue (Nat.toDigits 10 strike) := by rwa [digitsValue_toDigits]
  rw [parseToken, matchWeekly_token hd, Option.filter_some, if_pos (decide_eq_true hpos)]
  simp only [weeklyExpiry, hday, digitsValue_toDigits]
  rfl

/-- A monthly token is read back as the last expiry day of its month. -/
theorem parse_monthlyToken (hd : 0 < d) (hfirst : 2000 ≤ year d) (hlast : year d ≤ 2099) :
    parseToken symbol u t (monthlyToken d ++ Nat.toDigits 10 strike) =
      .ok ⟨u, getLastExpiryDay (year d) (month d), strike, t⟩ := by
  have hmonth := (monthAbbrs_letters (month d) (month_lt hd) (month_pos hd)).2.2
  have hnone : matchWeekly (monthlyToken d ++ Nat.toDigits 10 strike) = none :=
    matchWeekly_eq_none (by rw [matchMonthly_token hd]; exact Option.some_ne_none _)
  rw [parseToken, hnone, matchMonthly_token hd, Option.filter_none]
  simp only [monthlyExpiry, hmonth, year_eq hfirst hlast, digitsValue_toDigits]
  rfl

/-- A symbol with a token that starts with a digit has one such token. -/
theorem token_eq {u u' t t' : String} {token token' : List Char} {strike strike' : ℕ} (hu : NoDigits u)
    (hu' : NoDigits u') (ht : IsOptionType t) (ht' : IsOptionType t') (htoken : token.head?.any Char.isDigit = true)
    (htoken' : token'.head?.any Char.isDigit = true)
    (heq : optionSymbol u token strike t = optionSymbol u' token' strike' t') :
    token ++ Nat.toDigits 10 strike = token' ++ Nat.toDigits 10 strike' := by
  have hcore : (optionSymbol u token strike t).toList.take ((optionSymbol u token strike t).toList.length - 2) =
      u.toList ++ (token ++ Nat.toDigits 10 strike) := core_optionSymbol ht
  rw [heq, core_optionSymbol ht'] at hcore
  rw [← (takeWhile_core hu htoken _).2, ← hcore, (takeWhile_core hu' htoken' _).2]

/-- No symbol is both weekly and monthly. -/
theorem weeklySymbol_ne_monthlySymbol {u u' t t' : String} {strike strike' : ℕ} {d d' : Date} (hu : NoDigits u)
    (hu' : NoDigits u') (ht : IsOptionType t) (ht' : IsOptionType t') (hd : 0 < d) (hd' : 0 < d') :
    weeklySymbol u d strike t ≠ monthlySymbol u' d' strike' t' := by
  intro heq
  have htokens := token_eq hu hu' ht ht' (head_weeklyToken d) (head_monthlyToken d') heq
  have hnone : matchMonthly (weeklyToken d ++ Nat.toDigits 10 strike) = none :=
    matchMonthly_eq_none (by rw [matchWeekly_token hd]; exact Option.some_ne_none _)
  rw [htokens, matchMonthly_token hd'] at hnone
  cases hnone

end Tokens

/-- **Exchange symbols parse to their contract**, and the last expiry day is the last of its weekday. -/
theorem option_symbols_parse {u t : String} {strike : ℕ} {d : Date} (hu : NoDigits u) (ht : IsOptionType t)
    (hstrike : 0 < strike) (hfirst : 2000 ≤ year d) (hlast : year d ≤ 2099) :
    parseOptionSymbol (weeklySymbol u d strike t) = .ok ⟨u, d, strike, t⟩ ∧
      parseOptionSymbol (monthlySymbol u d strike t) = .ok ⟨u, getLastExpiryDay (year d) (month d), strike, t⟩ ∧
      (∀ u' t' strike' d', NoDigits u' → IsOptionType t' → 2000 ≤ year d' →
        weeklySymbol u d strike t ≠ monthlySymbol u' d' strike' t') ∧
      ∀ y m, 1 ≤ y → 1 ≤ m → m ≤ 12 →
        IsLastWeekday (if y < 2026 ∨ y = 2026 ∧ m < 4 then 3 else 1) y m (getLastExpiryDay y m) := by
  have hd := pos_of_year hfirst
  have hweekly : 4 ≤ (weeklyToken d).length := by
    rw [weeklyToken, List.length_append]
    exact Nat.le_add_right 4 1
  have hmonthly : 4 ≤ (monthlyToken d).length := by
    rw [monthlyToken, List.length_append, (monthAbbrs_letters (month d) (month_lt hd) (month_pos hd)).1]
    exact Nat.le_add_right 4 1
  refine ⟨?_, ?_, fun u' t' strike' d' hu' ht' hfirst' =>
    weeklySymbol_ne_monthlySymbol hu hu' ht ht' hd (pos_of_year hfirst'), fun y m => getLastExpiryDay_spec⟩
  · rw [weeklySymbol, parse_optionSymbol hu ht (head_weeklyToken d) hweekly,
      parse_weeklyToken hd hfirst hlast hstrike]
  · rw [monthlySymbol, parse_optionSymbol hu ht (head_monthlyToken d) hmonthly, parse_monthlyToken hd hfirst hlast]

theorem option_symbols_parse_nifty :
    parseOptionSymbol (weeklySymbol "NIFTY" 739723 24000 "PE") = .ok ⟨"NIFTY", 739723, 24000, "PE"⟩ :=
  (option_symbols_parse (u := "NIFTY") (t := "PE") (by simp [NoDigits]) (Or.inr rfl) (by decide) (by decide)
    (by decide)).1

example : parseOptionSymbol "NIFTY26O1524000CE" = .ok ⟨"NIFTY", 739904, 24000, "CE"⟩ := by decide +kernel
example : parseOptionSymbol "NIFTY26SEP24000CE" = .ok ⟨"NIFTY", 739888, 24000, "CE"⟩ := by decide +kernel

end NiftyShield.Backtest
