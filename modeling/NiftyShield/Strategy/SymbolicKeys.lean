import NiftyShield.Instruments.KeySearch
import NiftyShield.Strategy.CspNiftyV1
import NiftyShield.ThreeTrack.EodExits

/-!
# Keys that spell their contract

`CSPNiftyV1._build_roll_key` (`src/strategy/csp_nifty_v1.py`) writes the expiry and the strike of a
put in its key, `NSE_FO|NIFTY29MAY202623000PE`. The patterns that read a key each want something
else after `NIFTY`: `_EXPIRY_RE` the type right after the year, `_STRIKE_RE` the type right after
the first digits, `_KEY_DATE_STRIKE_RE` the strike after the type.

## What is proved

`roll_keys_and_decoders`: no key that `_build_roll_key` builds is read back by `_parse_expiry`, and
no leg is found by it; `resolve_option_expiry` reads its expiry. The expiries that
`parse_expiry_from_key`, `resolve_option_expiry` and `_get_expiry_date` read in a symbolic key are
the same exactly when the instrument file has no other.
-/

namespace NiftyShield.Strategy.SymbolicKeys

open NiftyShield.Instruments NiftyShield.Lib NiftyShield.Paper NiftyShield.ThreeTrack.EodExits CspNiftyV1 Date

/-! ### The keys that are built -/

/-- The key is read back as the put it was built for, by every reader and without a lookup. -/
structure DecodesBack (d : Date) (strike : ℚ) (market : OptionChain) (leg : OptionLeg) : Prop where
  /-- `_parse_expiry`. -/
  parse : parseExpiry (buildRollKey d strike) = some d
  /-- `resolve_option_expiry`. -/
  resolve : resolveOptionExpiry (buildRollKey d strike) none = some d
  /-- `_find_put_leg`. -/
  putLeg : findPutLeg none market (buildRollKey d strike) = some leg
  /-- `find_option_leg`. -/
  optionLeg : findOptionLeg (buildRollKey d strike) market none = some leg
  /-- `find_chain_leg`. -/
  chainLeg : findChainLeg market (buildRollKey d strike) .pe none = some leg

section Built

variable {d : Date} {strike : ℚ}

/-- What stands after the year. -/
def strikeText (strike : ℚ) : List Char := (toString (truncate strike)).toList ++ ['P', 'E']

/-- What stands after the month. -/
def yearText (d : Date) (strike : ℚ) : List Char := Nat.toDigits 10 (year d) ++ strikeText strike

/-- What stands after `NIFTY`. -/
def keyText (d : Date) (strike : ℚ) : List Char :=
  twoDigits (toYmd d).2.2 ++ (monthText (month d) ++ yearText d strike)

theorem toList_buildRollKey (hd : 0 < d) : (buildRollKey d strike).toList =
    "NSE_FO|NIFTY".toList ++ keyText d strike := by
  rw [buildRollKey, String.toList_append, String.toList_append, String.toList_append, toList_expiryText hd]
  simp only [keyText, yearText, strikeText, List.append_assoc]
  rfl

/-- Digits, with a sign if the strike is negative, then the type. -/
theorem strikeText_eq (strike : ℚ) : ∃ number, number ≠ [] ∧ (∀ c ∈ number, c.isDigit = true ∨ c = '-') ∧
    strikeText strike = number ++ ['P', 'E'] := by
  have hdigits : ∀ n, ∀ c ∈ Nat.toDigits 10 n, c.isDigit = true := fun n c hc =>
    Nat.isDigit_of_mem_toDigits (by decide) (by decide) hc
  unfold strikeText
  cases truncate strike with
  | ofNat n =>
    exact ⟨Nat.toDigits 10 n, Nat.toDigits_ne_nil, fun c hc => Or.inl (hdigits n c hc),
      congrArg (· ++ _) Nat.toList_repr⟩
  | negSucc n =>
    have htext : (toString (Int.negSucc n)).toList = '-' :: Nat.toDigits 10 (n + 1) := by
      rw [show toString (Int.negSucc n) = "-" ++ (n + 1).repr from rfl, String.toList_append, Nat.toList_repr]
      rfl
    refine ⟨'-' :: Nat.toDigits 10 (n + 1), List.cons_ne_nil _ _, fun c hc => ?_, by rw [htext]⟩
    rcases List.mem_cons.mp hc with rfl | hc
    · exact Or.inr rfl
    · exact Or.inl (hdigits (n + 1) c hc)

/-- The type is only at the end. -/
theorem optionSuffix_of_suffix {number rest : List Char} (hnumber : ∀ c ∈ number, c.isDigit = true ∨ c = '-')
    (h : rest <:+ number ++ ['P', 'E']) : optionSuffix rest = none ∨ rest = ['P', 'E'] := by
  induction number with
  | nil =>
    simp only [List.nil_append, List.suffix_cons_iff, List.suffix_nil] at h
    rcases h with rfl | rfl | rfl
    · exact Or.inr rfl
    · exact Or.inl rfl
    · exact Or.inl rfl
  | cons c number ih =>
    rcases List.suffix_cons_iff.mp h with rfl | h
    · refine Or.inl ?_
      rcases hnumber c (List.mem_cons_self ..) with hc | rfl
      · exact optionSuffix_cons (ne_toUpper_of_isDigit (by decide) hc) (ne_toUpper_of_isDigit (by decide) hc) _
      · exact optionSuffix_cons (by decide) (by decide) _
    · exact ih (fun c' hc' => hnumber c' (List.mem_cons_of_mem c hc')) h

/-- It is not right after the year. -/
theorem optionSuffix_strikeText (strike : ℚ) : optionSuffix (strikeText strike) = none := by
  obtain ⟨number, hne, hnumber, heq⟩ := strikeText_eq strike
  rw [heq]
  refine (optionSuffix_of_suffix hnumber List.suffix_rfl).resolve_right fun h => hne ?_
  simpa using h

/-- The four digits that are read as the year are the year, or run into the strike and make a
later one. -/
theorem year_read {ys rest : List Char} (hd : 0 < d) (hyear : year d ≤ 9999)
    (h : takeDigits 4 (yearText d strike) = some (ys, rest)) :
    rest <:+ strikeText strike ∧ (ys = Nat.toDigits 10 (year d) ∧ rest = strikeText strike ∨ year d < digitsValue ys) := by
  obtain ⟨heq, hlength⟩ := takeDigits_eq_some h
  have hshort : (Nat.toDigits 10 (year d)).length ≤ 4 :=
    (Nat.length_toDigits_le_iff (by decide) (by decide)).mpr (Nat.lt_succ_of_le hyear)
  have hpos : 0 < digitsValue (Nat.toDigits 10 (year d)) := by
    rw [digitsValue_toDigits]
    exact (inMonth_toYmd hd).year_pos
  obtain ⟨more, rfl, hmore⟩ | ⟨more, hys, rfl⟩ := List.append_eq_append_iff.mp heq
  · refine ⟨hmore ▸ List.suffix_append _ _, ?_⟩
    rcases eq_or_ne more [] with rfl | hne
    · exact Or.inl ⟨List.append_nil _, by simpa using hmore.symm⟩
    · refine Or.inr ?_
      have hlt := digitsValue_lt_append hpos hne
      rwa [digitsValue_toDigits] at hlt
  · have hnil : more = [] := by
      rw [hys, List.length_append] at hshort
      exact List.eq_nil_of_length_eq_zero (by omega)
    subst hnil
    exact ⟨List.suffix_rfl, Or.inl ⟨by rw [hys, List.append_nil], rfl⟩⟩

/-- There is no `I` after `NIFTY`. -/
theorem keyText_no_I (hd : 0 < d) : ∀ c ∈ keyText d strike, 'I' ≠ c.toUpper := by
  obtain ⟨number, -, hnumber, hstrike⟩ := strikeText_eq strike
  obtain ⟨-, -, hmonth⟩ := monthText_spec (month d) (month_lt hd) (month_pos hd)
  have hdigit : ∀ c : Char, c.isDigit = true → 'I' ≠ c.toUpper := fun c hc => ne_toUpper_of_isDigit (by decide) hc
  intro c hc
  simp only [keyText, yearText, hstrike, List.mem_append] at hc
  rcases hc with hc | hc | hc | hc | hc
  · exact hdigit c (isDigit_of_mem_twoDigits (day_lt hd) hc)
  · exact (hmonth c hc).2.1
  · exact hdigit c (Nat.isDigit_of_mem_toDigits (by decide) (by decide) hc)
  · rcases hnumber c hc with hc | rfl
    · exact hdigit c hc
    · decide
  · rcases List.mem_cons.mp hc with rfl | hc
    · decide
    · obtain rfl := List.mem_singleton.mp hc
      decide

theorem niftyAt_buildRollKey (hd : 0 < d) :
    NiftyAt (buildRollKey d strike).toList ("NIFTY".toList ++ keyText d strike) := by
  rw [toList_buildRollKey hd]
  exact niftyAt_of_tail (keyText_no_I hd)

/-- A pattern after `NSE_FO|NIFTY` is tried on the text of the key. -/
theorem search_exchange {β : Type} (strike : ℚ) (hd : 0 < d) (m : List Char → Option β) :
    searchFrom (fun s => (stripPrefixCI "NSE_FO|NIFTY".toList s).bind m) (buildRollKey d strike).toList =
      m (keyText d strike) := by
  have hpre : stripPrefixCI "NSE_FO|".toList (buildRollKey d strike).toList =
      some ("NIFTY".toList ++ keyText d strike) := by
    rw [toList_buildRollKey hd]
    exact stripPrefixCI_self "NSE_FO|".toList _
  rw [(niftyAt_buildRollKey hd).search_exchange_eq List.suffix_rfl hpre fun t hne hnone => hne (by rw [hnone]; rfl),
    toList_buildRollKey hd, stripPrefixCI_self]
  rfl

/-- A pattern after `NIFTY` is tried there too. -/
theorem search_nifty {β : Type} (strike : ℚ) (hd : 0 < d) (m : List Char → Option β) :
    searchFrom (fun s => (stripPrefixCI "NIFTY".toList s).bind m) (buildRollKey d strike).toList =
      m (keyText d strike) := by
  rw [(niftyAt_buildRollKey hd).search_eq fun t hne hnone => hne (by rw [hnone]; rfl), stripPrefixCI_self]
  rfl

theorem takeDayMonthYear_keyText (hd : 0 < d) : takeDayMonthYear (keyText d strike) =
    (takeDigits 4 (yearText d strike)).map fun (ys, rest) =>
      ((toYmd d).2.2, monthText (month d), digitsValue ys, rest) :=
  takeDayMonthYear_text (day_lt hd) (month_lt hd) (month_pos hd) _

/-- The date is in the year that was read. -/
theorem year_of_dateOfParts {day y : ℕ} {mon : List Char} {e : Date} (h : dateOfParts day mon y = some e) :
    year e = y := by
  obtain ⟨m, -, hm⟩ := Option.bind_eq_some_iff.mp h
  rw [ofYmd] at hm
  split at hm
  · next hvalid =>
    obtain rfl := Option.some.inj hm
    obtain ⟨hy, -, hm, hm12, hday, hlast⟩ := hvalid
    have hin : InMonth y m (monthStart y m + day) :=
      ⟨hy, hm, hm12, Nat.lt_add_of_pos_right hday, Nat.add_le_add_left hlast _⟩
    exact ((year_month_iff (Nat.add_pos_right _ hday)).mpr hin).1
  · cases hm

/-- **The key is not read back** by `_parse_expiry`. -/
theorem parseExpiry_buildRollKey (strike : ℚ) (hd : 0 < d) (hyear : year d ≤ 9999) :
    parseExpiry (buildRollKey d strike) ≠ some d := by
  intro h
  rw [parseExpiry, CspRoll.parseExpiryFromKey] at h
  simp only [Option.bind_eq_bind] at h
  rw [search_exchange strike hd, takeDayMonthYear_keyText hd] at h
  cases hread : takeDigits 4 (yearText d strike) with
  | none =>
    rw [hread] at h
    cases h
  | some read =>
    obtain ⟨ys, rest⟩ := read
    rw [hread] at h
    simp only [Option.map_some, Option.bind_some] at h
    rcases (year_read hd hyear hread).2 with ⟨-, rfl⟩ | hlater
    · rw [optionSuffix_strikeText] at h
      cases h
    · cases htype : optionSuffix rest with
      | none =>
        rw [htype] at h
        cases h
      | some optionType =>
        rw [htype] at h
        exact absurd (year_of_dateOfParts h) hlater.ne

/-- `_STRIKE_RE` finds nothing: the month is in its way. -/
theorem strikeOfKey_buildRollKey (strike : ℚ) (hd : 0 < d) : strikeOfKey (buildRollKey d strike) = none := by
  have hsearch := search_nifty strike hd fun s => do
    let ds := s.takeWhile Char.isDigit
    let optionType ← optionSuffix (s.dropWhile Char.isDigit)
    if ds = [] then none else some (digitsValue ds, optionType)
  rw [strikeOfKey]
  simp only [Option.bind_eq_bind] at hsearch ⊢
  rw [hsearch]
  have hday : ∀ c ∈ twoDigits (toYmd d).2.2, c.isDigit = true := fun c hc => isDigit_of_mem_twoDigits (day_lt hd) hc
  have hpos := month_pos hd
  obtain ⟨hlength, -, hletters⟩ := monthText_spec (month d) (month_lt hd) hpos
  have hsuffix := optionSuffix_monthText (month_lt hd) hpos (yearText d strike)
  obtain ⟨a, b, c, habc⟩ := List.length_eq_three.mp hlength
  have ha : ¬a.isDigit = true := by
    rw [(hletters a (habc ▸ List.mem_cons_self ..)).2.2]
    decide
  have hdrop : (keyText d strike).dropWhile Char.isDigit = monthText (month d) ++ yearText d strike := by
    rw [keyText, List.dropWhile_append_of_pos hday, habc, List.cons_append,
      List.dropWhile_cons_of_neg (p := Char.isDigit) ha]
  rw [hdrop, hsuffix]
  rfl

/-- `_KEY_DATE_STRIKE_RE` finds nothing: no digit follows the type. -/
theorem dateStrikeOfKey_buildRollKey (hd : 0 < d) (hyear : year d ≤ 9999) :
    dateStrikeOfKey (buildRollKey d strike) = none := by
  rw [dateStrikeOfKey]
  simp only [Option.bind_eq_bind, niftyDate, Option.bind_assoc]
  rw [search_nifty strike hd, takeDayMonthYear_keyText hd]
  cases hread : takeDigits 4 (yearText d strike) with
  | none => rfl
  | some read =>
    obtain ⟨ys, rest⟩ := read
    obtain ⟨number, -, hnumber, hstrike⟩ := strikeText_eq strike
    have hrest := (year_read hd hyear hread).1
    rw [hstrike] at hrest
    rw [Option.map_some, Option.bind_some]
    rcases optionSuffix_of_suffix hnumber hrest with hnone | rfl
    · simp only [hnone, Option.bind_none]
    · rfl

/-- `resolve_option_expiry` reads the expiry, whatever follows. -/
theorem resolveOptionExpiry_buildRollKey (hd : 0 < d) (hfirst : 1000 ≤ year d) (hyear : year d ≤ 9999)
    (lookup : Option InstrumentLookup) : resolveOptionExpiry (buildRollKey d strike) lookup = some d := by
  have hlength : (Nat.toDigits 10 (year d)).length = 4 := by
    have hle := (Nat.length_toDigits_le_iff (n := year d) (b := 10) (by decide) (show 0 < 4 by decide)).mpr
      (Nat.lt_succ_of_le hyear)
    have hgt := mt (Nat.length_toDigits_le_iff (n := year d) (b := 10) (by decide) (show 0 < 3 by decide)).mp
      (not_lt.mpr hfirst)
    omega
  have hdigits : takeDigits 4 (yearText d strike) = some (Nat.toDigits 10 (year d), strikeText strike) := by
    rw [← hlength]
    exact takeDigits_append (fun c hc => Nat.isDigit_of_mem_toDigits (by decide) (by decide) hc) _
  rw [resolveOptionExpiry, expiryTextOfKey]
  simp only [Option.bind_eq_bind]
  rw [search_exchange strike hd, takeDayMonthYear_keyText hd, hdigits]
  simp only [Option.map_some, Option.bind_some, digitsValue_toDigits, dateOfParts,
    (monthText_spec (month d) (month_lt hd) (month_pos hd)).2.1]
  exact ofYmd_toYmd hd hyear

variable {lookup : Option InstrumentLookup}

/-- No leg is found by the key, unless the instrument file has it. -/
theorem legs_buildRollKey (hd : 0 < d) (hyear : year d ≤ 9999) (market : OptionChain) (optionType : OptionType)
    (hlookup : (lookup.bind (·.getByKey (buildRollKey d strike))) = none) :
    findPutLeg lookup market (buildRollKey d strike) = none ∧
      findOptionLeg (buildRollKey d strike) market lookup = none ∧
      findChainLeg market (buildRollKey d strike) optionType lookup = none := by
  have hstrike := strikeOfKey_buildRollKey strike hd
  refine ⟨?_, ?_, ?_⟩
  · rw [findPutLeg, hstrike]
    cases lookup with
    | none => rfl
    | some bod =>
      have hrow : bod.getByKey (buildRollKey d strike) = none := hlookup
      simp only [Option.bind_eq_bind, Option.bind_some, hrow, Option.bind_none]
  · rw [findOptionLeg, resolveFromRegex, hstrike]
    cases lookup with
    | none => rfl
    | some bod =>
      have hrow : bod.getByKey (buildRollKey d strike) = none := hlookup
      simp only [Option.bind_eq_bind, Option.bind_none, Option.orElse_none, Option.bind_some, resolveViaBod, hrow]
  · rw [findChainLeg, chainStrike, parseStrikeFromKey, hstrike, dateStrikeOfKey_buildRollKey hd hyear, hlookup]
    rfl

end Built

/-! ### The decoders of a key -/

section Decoders

variable {key : String} {instruments : InstrumentLookup} {g : Date}

/-- Every expiry that a decoder reads, with the instrument file or without. -/
def decodedExpiries (key : String) (instruments : InstrumentLookup) : List (Option Date) :=
  [parseExpiryFromKey key, resolveOptionExpiry key none, resolveOptionExpiry key (some instruments),
    getExpiryDate key instruments]

/-- Those that return a date return the same one. -/
def DecodersAgree (key : String) (instruments : InstrumentLookup) : Prop :=
  ∀ d e, some d ∈ decodedExpiries key instruments → some e ∈ decodedExpiries key instruments → d = e

/-- The text of a key spells an expiry: day, month and year after `NIFTY`, with the exchange before
them or a type behind. -/
def SpellsExpiry (key : String) (g : Date) : Prop :=
  ∃ t day month year rest, t <:+ key.toList ∧ niftyDate t = some (day, month, year, rest) ∧
    dateOfParts day month year = some g ∧
    ((optionSuffix rest).isSome ∨ ∃ t', t' <:+ key.toList ∧ stripPrefixCI "NSE_FO|".toList t' = some t)

/-- The instrument file has no other expiry for the key than the one it spells. -/
def FileAgrees (key : String) (instruments : InstrumentLookup) : Prop :=
  ∀ e, (instruments.getByKey key).bind (·.expiry) = some e → ∀ g, SpellsExpiry key g → e = g

theorem nifty_of_niftyDate {t : List Char} (h : niftyDate t ≠ none) : stripPrefixCI "NIFTY".toList t ≠ none :=
  fun hnone => h (by rw [niftyDate, hnone]; rfl)

theorem spells_of_parse (h : parseExpiryFromKey key = some g) : SpellsExpiry key g := by
  obtain ⟨⟨day, month, year⟩, hsearch, hdate⟩ := Option.bind_eq_some_iff.mp h
  obtain ⟨t, ht, hm⟩ := exists_suffix_of_searchFrom hsearch
  simp only [Option.bind_eq_bind] at hm
  obtain ⟨⟨day', month', year', rest⟩, hread, hm⟩ := Option.bind_eq_some_iff.mp hm
  obtain ⟨optionType, htype, hm⟩ := Option.bind_eq_some_iff.mp hm
  cases hm
  exact ⟨t, _, _, _, rest, ht, hread, hdate, Or.inl (by rw [htype]; rfl)⟩

/-- What the pattern of `resolve_option_expiry` reads. -/
theorem of_expiryTextOfKey {day year : ℕ} {month : List Char} (h : expiryTextOfKey key = some (day, month, year)) :
    ∃ t rest, t <:+ key.toList ∧ niftyDate t = some (day, month, year, rest) ∧
      ∃ t', t' <:+ key.toList ∧ stripPrefixCI "NSE_FO|".toList t' = some t := by
  obtain ⟨t', ht', hm⟩ := exists_suffix_of_searchFrom h
  simp only [Option.bind_eq_bind] at hm
  obtain ⟨s, hpre, hm⟩ := Option.bind_eq_some_iff.mp hm
  obtain ⟨⟨day', month', year', rest⟩, hread, hm⟩ := Option.bind_eq_some_iff.mp hm
  cases hm
  rw [show "NSE_FO|NIFTY".toList = "NSE_FO|".toList ++ "NIFTY".toList from rfl, stripPrefixCI_append] at hpre
  obtain ⟨t, hexchange, hnifty⟩ := Option.bind_eq_some_iff.mp hpre
  refine ⟨t, rest, (suffix_of_stripPrefixCI hexchange).trans ht', ?_, t', ht', hexchange⟩
  rw [niftyDate, hnifty]
  exact hread

/-- A date is read in the text, or in the instrument file where the pattern does not match. -/
theorem resolve_cases {lookup : Option InstrumentLookup} (h : resolveOptionExpiry key lookup = some g) :
    SpellsExpiry key g ∨ (lookup.bind (·.getByKey key)).bind (·.expiry) = some g := by
  rw [resolveOptionExpiry] at h
  split at h
  · next day month year hread =>
    obtain ⟨t, rest, ht, hdate, hexchange⟩ := of_expiryTextOfKey hread
    exact Or.inl ⟨t, day, month, year, rest, ht, hdate, h, Or.inr hexchange⟩
  · exact Or.inr h

/-- The expiry that a symbolic key spells is read, with the exchange before it or a type behind. -/
theorem read_of_spells (hkey : SymbolicKey key) (h : SpellsExpiry key g) :
    datedKeyExpiry key = some g ∧
      (parseExpiryFromKey key = some g ∨ ∀ lookup, resolveOptionExpiry key lookup = some g) := by
  obtain ⟨t₀, hat⟩ := hkey
  obtain ⟨t, day, month, year, rest, ht, hread, hdate, hside⟩ := h
  obtain rfl : t = t₀ := hat.unique t ht (nifty_of_niftyDate (by rw [hread]; exact Option.some_ne_none _))
  constructor
  · rw [datedKeyExpiry, hat.search_eq fun t' => nifty_of_niftyDate, hread]
    exact hdate
  · rcases hside with htype | ⟨t', ht', hpre⟩
    · obtain ⟨optionType, htype⟩ := Option.isSome_iff_exists.mp htype
      refine Or.inl ?_
      rw [parseExpiryFromKey, hat.search_eq fun t' hne => nifty_of_niftyDate fun hnone => hne (by rw [hnone]; rfl), hread]
      simp only [Option.bind_eq_bind, Option.bind_some, htype]
      exact hdate
    · refine Or.inr fun lookup => ?_
      obtain ⟨s, hnifty, hs⟩ := Option.bind_eq_some_iff.mp hread
      have htext : expiryTextOfKey key = some (day, month, year) := by
        rw [expiryTextOfKey, hat.search_exchange_eq ht' hpre fun t hne hnone => hne (by rw [hnone]; rfl),
          show "NSE_FO|NIFTY".toList = "NSE_FO|".toList ++ "NIFTY".toList from rfl, stripPrefixCI_append, hpre]
        simp only [Option.bind_eq_bind, Option.bind_some, hnifty, hs]
      rw [resolveOptionExpiry, htext]
      exact hdate

/-- What a decoder reads is spelled by the key, is in the instrument file, or is what
`_get_expiry_date` reads. -/
theorem decoded_cases {d : Date} (h : some d ∈ decodedExpiries key instruments) :
    SpellsExpiry key d ∨ (instruments.getByKey key).bind (·.expiry) = some d ∨
      getExpiryDate key instruments = some d := by
  simp only [decodedExpiries, List.mem_cons, List.not_mem_nil, or_false] at h
  rcases h with h | h | h | h
  · exact Or.inl (spells_of_parse h.symm)
  · rcases resolve_cases h.symm with hspells | hfile
    · exact Or.inl hspells
    · cases hfile
  · rcases resolve_cases h.symm with hspells | hfile
    · exact Or.inl hspells
    · exact Or.inr (Or.inl hfile)
  · exact Or.inr (Or.inr h.symm)

theorem getExpiryDate_of_file {e : Date} (h : (instruments.getByKey key).bind (·.expiry) = some e) :
    getExpiryDate key instruments = some e := by
  rw [getExpiryDate, h, Option.orElse_some]

theorem getExpiryDate_of_spells (hkey : SymbolicKey key) (h : SpellsExpiry key g)
    (hfile : (instruments.getByKey key).bind (·.expiry) = none) : getExpiryDate key instruments = some g := by
  rw [getExpiryDate, hfile, Option.orElse_none, (read_of_spells hkey h).1, Option.orElse_some]

/-- **The decoders agree** on a symbolic key exactly when the instrument file agrees with it. -/
theorem decodersAgree_iff (hkey : SymbolicKey key) : DecodersAgree key instruments ↔ FileAgrees key instruments := by
  have hget : ∀ {e}, getExpiryDate key instruments = some e → some e ∈ decodedExpiries key instruments := by
    intro e he
    simp [decodedExpiries, he]
  constructor
  · intro hagree e hfile g hspells
    refine hagree e g (hget (getExpiryDate_of_file hfile)) ?_
    rcases (read_of_spells hkey hspells).2 with hread | hread
    · simp [decodedExpiries, hread]
    · simp [decodedExpiries, hread]
  · intro hagree
    -- whatever is read is what `_get_expiry_date` reads
    have hall : ∀ d, some d ∈ decodedExpiries key instruments → getExpiryDate key instruments = some d := by
      intro d hd
      rcases decoded_cases hd with hspells | hfile | hget
      · cases hfile : (instruments.getByKey key).bind (·.expiry) with
        | none => exact getExpiryDate_of_spells hkey hspells hfile
        | some e => rw [getExpiryDate_of_file hfile, hagree e hfile d hspells]
      · exact getExpiryDate_of_file hfile
      · exact hget
    intro d e hd he
    exact Option.some.inj ((hall d hd).symm.trans (hall e he))

end Decoders

/-- **Keys and decoders**: the keys that are built are not read back, whatever the chain, and no leg
is found by them; on a symbolic key the decoders agree exactly when the instrument file does. -/
theorem roll_keys_and_decoders {d : Date} {strike : ℚ} {market : OptionChain} {leg : OptionLeg}
    {lookup : Option InstrumentLookup} (hd : 0 < d) (hyear : year d ≤ 9999)
    (hlookup : (lookup.bind (·.getByKey (buildRollKey d strike))) = none) :
    (¬DecodesBack d strike market leg ∧ parseExpiry (buildRollKey d strike) ≠ some d ∧
        (findPutLeg lookup market (buildRollKey d strike) = none ∧
          findOptionLeg (buildRollKey d strike) market lookup = none ∧
          findChainLeg market (buildRollKey d strike) .pe lookup = none) ∧
        (1000 ≤ year d → resolveOptionExpiry (buildRollKey d strike) lookup = some d)) ∧
      ∀ key instruments, SymbolicKey key → (DecodersAgree key instruments ↔ FileAgrees key instruments) := by
  have hparse := parseExpiry_buildRollKey strike hd hyear
  exact ⟨⟨fun h => hparse h.parse, hparse, legs_buildRollKey hd hyear market .pe hlookup,
    fun hfirst => resolveOptionExpiry_buildRollKey hd hfirst hyear lookup⟩, fun _ _ => decodersAgree_iff⟩

/-- The put of strike 23000. -/
def mayPut : OptionLeg := { ltp := 100, bid := 99, ask := 101, strike := 23000, delta := some (-22 / 100) }

/-- The chain of 29 May 2026 with that put. -/
def mayChain : OptionChain := ⟨24000, 739765, ⟨[(23000, ⟨none, some mayPut⟩)], by decide⟩⟩

theorem symbolicKey_may : SymbolicKey "NSE_FO|NIFTY29MAY2026PE" :=
  ⟨_, niftyAt_of_tail (show ∀ c ∈ "29MAY2026PE".toList, 'I' ≠ c.toUpper by simp)⟩

theorem roll_keys_and_decoders_may :
    ¬DecodesBack 739765 23000 mayChain mayPut ∧ DecodersAgree "NSE_FO|NIFTY29MAY2026PE" ⟨[]⟩ := by
  have h := @roll_keys_and_decoders 739765 23000 mayChain mayPut none (by decide) (by decide) rfl
  exact ⟨h.1.1, (h.2 _ _ symbolicKey_may).mpr fun e he => by cases he⟩

/-- The key of a put that is in the chain is not read back. -/
theorem mayPut_not_decoded : buildRollKey 739765 23000 = "NSE_FO|NIFTY29MAY202623000PE" ∧
    (mayChain.strikes.get? 23000).bind (·.pe) = some mayPut ∧ ¬DecodesBack 739765 23000 mayChain mayPut := by
  refine ⟨by decide +kernel, by decide +kernel, fun h => ?_⟩
  exact absurd h.parse (by decide +kernel)

end NiftyShield.Strategy.SymbolicKeys
