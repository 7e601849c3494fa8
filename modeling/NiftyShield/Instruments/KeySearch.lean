import NiftyShield.Instruments.Lookup
import NiftyShield.Models.Calendar
import Mathlib.Data.List.Basic

/-!
# Searches in a key

What `re.search` finds in an instrument key (`searchFrom`): a match at some suffix of the text, if
there is one. A symbolic key has `NIFTY` in one place (`SymbolicKey`), so that every pattern that
starts with it is matched there or nowhere.
-/

namespace NiftyShield.Instruments

open Date

/-! ### Searches -/

section Search

variable {β : Type} {m : List Char → Option β} {s : List Char} {b : β}

theorem exists_suffix_of_searchFrom (h : searchFrom m s = some b) : ∃ t, t <:+ s ∧ m t = some b := by
  induction s with
  | nil => exact ⟨[], List.suffix_rfl, h⟩
  | cons c s ih =>
    rw [searchFrom] at h
    cases hhere : m (c :: s) with
    | some b' =>
      rw [hhere, Option.orElse_some] at h
      exact ⟨c :: s, List.suffix_rfl, hhere.trans h⟩
    | none =>
      rw [hhere, Option.orElse_none] at h
      obtain ⟨t, ht, hm⟩ := ih h
      exact ⟨t, ht.trans (List.suffix_cons c s), hm⟩

theorem searchFrom_eq_none_iff : searchFrom m s = none ↔ ∀ t, t <:+ s → m t = none := by
  induction s with
  | nil => simp [searchFrom]
  | cons c s ih =>
    rw [searchFrom]
    simp only [List.suffix_cons_iff, forall_eq_or_imp, ← ih]
    cases m (c :: s) with
    | some b => simp
    | none => simp

/-- A pattern that can only match in one place. -/
theorem searchFrom_of_unique {t : List Char} (ht : t <:+ s) (huniq : ∀ t', t' <:+ s → m t' ≠ none → t' = t) :
    searchFrom m s = m t := by
  cases h : searchFrom m s with
  | none => exact (searchFrom_eq_none_iff.mp h t ht).symm
  | some b =>
    obtain ⟨t', ht', hm⟩ := exists_suffix_of_searchFrom h
    rw [← huniq t' ht' (by rw [hm]; exact Option.some_ne_none b), hm]

end Search

/-! ### Prefixes -/

section Prefix

variable {p q s r : List Char}

theorem stripPrefixCI_append (p q s : List Char) :
    stripPrefixCI (p ++ q) s = (stripPrefixCI p s).bind (stripPrefixCI q) := by
  induction p generalizing s with
  | nil => rfl
  | cons a p ih =>
    cases s with
    | nil => rfl
    | cons c s =>
      simp only [List.cons_append, stripPrefixCI]
      split
      · exact ih s
      · rfl

theorem stripPrefixCI_self (p s : List Char) : stripPrefixCI p (p ++ s) = some s := by
  induction p with
  | nil => rfl
  | cons a p ih => rw [List.cons_append, stripPrefixCI, if_pos rfl, ih]

theorem suffix_of_stripPrefixCI (h : stripPrefixCI p s = some r) : r <:+ s := by
  induction p generalizing s with
  | nil =>
    obtain rfl := Option.some.inj h
    exact List.suffix_rfl
  | cons a p ih =>
    cases s with
    | nil => cases h
    | cons c s =>
      rw [stripPrefixCI] at h
      split at h
      · exact (ih h).trans (List.suffix_cons c s)
      · cases h

theorem length_of_stripPrefixCI (h : stripPrefixCI p s = some r) : s.length = p.length + r.length := by
  induction p generalizing s with
  | nil =>
    obtain rfl := Option.some.inj h
    exact (Nat.zero_add _).symm
  | cons a p ih =>
    cases s with
    | nil => cases h
    | cons c s =>
      rw [stripPrefixCI] at h
      split at h
      · rw [List.length_cons, List.length_cons, ih h]
        omega
      · cases h

/-- Every letter of the prefix is in the text, in one case or the other. -/
theorem exists_mem_of_stripPrefixCI (h : stripPrefixCI p s = some r) {a : Char} (ha : a ∈ p) :
    ∃ c ∈ s, a.toUpper = c.toUpper := by
  induction p generalizing s with
  | nil => cases ha
  | cons b p ih =>
    cases s with
    | nil => cases h
    | cons c s =>
      rw [stripPrefixCI] at h
      split at h
      · next hbc =>
        rcases List.mem_cons.mp ha with rfl | ha
        · exact ⟨c, List.mem_cons_self .., hbc⟩
        · obtain ⟨c', hc', hac⟩ := ih h ha
          exact ⟨c', List.mem_cons_of_mem c hc', hac⟩
      · cases h

end Prefix

/-! ### Digits and letters -/

section Digits

variable {ds ds' s r : List Char} {n : ℕ}

theorem takeDigits_append (h : ∀ c ∈ ds, c.isDigit = true) (s : List Char) :
    takeDigits ds.length (ds ++ s) = some (ds, s) := by
  induction ds with
  | nil => rfl
  | cons c ds ih =>
    rw [List.length_cons, List.cons_append, takeDigits, if_pos (h c (List.mem_cons_self ..)),
      ih fun c' hc' => h c' (List.mem_cons_of_mem c hc')]
    rfl

theorem takeDigits_eq_some (h : takeDigits n s = some (ds, r)) : s = ds ++ r ∧ ds.length = n := by
  induction n generalizing s ds with
  | zero =>
    obtain ⟨rfl, rfl⟩ := Prod.mk.inj (Option.some.inj h)
    exact ⟨rfl, rfl⟩
  | succ n ih =>
    cases s with
    | nil => cases h
    | cons c s =>
      rw [takeDigits] at h
      split at h
      · obtain ⟨⟨ds₀, r₀⟩, hrest, heq⟩ := Option.map_eq_some_iff.mp h
        obtain ⟨rfl, rfl⟩ := Prod.mk.inj heq
        obtain ⟨rfl, hlength⟩ := ih hrest
        exact ⟨rfl, by rw [List.length_cons, hlength]⟩
      · cases h

theorem takeLetters_append (h : ∀ c ∈ ds, c.isAlpha = true ∧ c.toUpper = c) (s : List Char) :
    takeLetters ds.length (ds ++ s) = some (ds, s) := by
  induction ds with
  | nil => rfl
  | cons c ds ih =>
    rw [List.length_cons, List.cons_append, takeLetters, if_pos (h c (List.mem_cons_self ..)).1,
      ih fun c' hc' => h c' (List.mem_cons_of_mem c hc'), (h c (List.mem_cons_self ..)).2]
    rfl

/-- More digits, a greater number. -/
theorem digitsValue_lt_append (hpos : 0 < digitsValue ds) (hne : ds' ≠ []) :
    digitsValue ds < digitsValue (ds ++ ds') := by
  have heq : digitsValue (ds ++ ds') = 10 ^ ds'.length * digitsValue ds + digitsValue ds' :=
    (Nat.ofDigitChars_append 0).trans Nat.ofDigitChars_eq_ofDigitChars_zero
  have hten : 10 ^ 1 ≤ 10 ^ ds'.length := Nat.pow_le_pow_right (by decide) (List.length_pos_of_ne_nil hne)
  calc digitsValue ds < 10 ^ 1 * digitsValue ds := by omega
    _ ≤ 10 ^ ds'.length * digitsValue ds := Nat.mul_le_mul_right _ hten
    _ ≤ digitsValue (ds ++ ds') := by rw [heq]; exact Nat.le_add_right _ _

end Digits

/-! ### Symbolic keys -/

/-- `NIFTY` is in a text at one suffix only. -/
structure NiftyAt (s t : List Char) : Prop where
  /-- The text there. -/
  suffix : t <:+ s
  /-- It starts with `NIFTY`. -/
  found : stripPrefixCI "NIFTY".toList t ≠ none
  /-- No other does. -/
  unique : ∀ t', t' <:+ s → stripPrefixCI "NIFTY".toList t' ≠ none → t' = t

/-- A key with `NIFTY` in one place. -/
def SymbolicKey (key : String) : Prop := ∃ t, NiftyAt key.toList t

namespace NiftyAt

variable {β : Type} {m : List Char → Option β} {s t t' : List Char}

/-- A pattern that starts with `NIFTY` is tried there only. -/
theorem search_eq (h : NiftyAt s t) (hm : ∀ t', m t' ≠ none → stripPrefixCI "NIFTY".toList t' ≠ none) :
    searchFrom m s = m t :=
  searchFrom_of_unique h.suffix fun t' ht' hne => h.unique t' ht' (hm t' hne)

/-- A pattern that starts with `NSE_FO|NIFTY` is tried where the exchange stands before it. -/
theorem search_exchange_eq (h : NiftyAt s t) (ht' : t' <:+ s) (hpre : stripPrefixCI "NSE_FO|".toList t' = some t)
    (hm : ∀ t', m t' ≠ none → stripPrefixCI "NSE_FO|NIFTY".toList t' ≠ none) : searchFrom m s = m t' := by
  refine searchFrom_of_unique ht' fun t₂ ht₂ hne => ?_
  obtain ⟨r, hr⟩ := Option.ne_none_iff_exists'.mp (hm t₂ hne)
  rw [show "NSE_FO|NIFTY".toList = "NSE_FO|".toList ++ "NIFTY".toList from rfl, stripPrefixCI_append] at hr
  obtain ⟨t₃, hpre₂, hnifty⟩ := Option.bind_eq_some_iff.mp hr
  have ht₃ : t₃ = t := h.unique t₃ ((suffix_of_stripPrefixCI hpre₂).trans ht₂) (by rw [hnifty]; exact Option.some_ne_none r)
  have hlength : t₂.length = t'.length := by
    rw [length_of_stripPrefixCI hpre₂, length_of_stripPrefixCI hpre, ht₃]
  exact (List.suffix_of_suffix_length_le ht₂ ht' hlength.le).eq_of_length hlength

end NiftyAt

/-- After `NSE_FO|NIFTY`, a text without an `I` keeps the key symbolic. -/
theorem niftyAt_of_tail {tail : List Char} (h : ∀ c ∈ tail, 'I' ≠ c.toUpper) :
    NiftyAt ("NSE_FO|NIFTY".toList ++ tail) ("NIFTY".toList ++ tail) where
  suffix := List.suffix_append "NSE_FO|".toList _
  found := by
    rw [stripPrefixCI_self]
    exact Option.some_ne_none _
  unique t' ht' hne := by
    have htail : ∀ t', t' <:+ tail → stripPrefixCI "NIFTY".toList t' ≠ none → t' = "NIFTY".toList ++ tail := by
      intro t' ht' hne
      obtain ⟨r, hr⟩ := Option.ne_none_iff_exists'.mp hne
      obtain ⟨c, hc, hI⟩ := exists_mem_of_stripPrefixCI hr (a := 'I') (by decide)
      exact absurd hI (h c (ht'.subset hc))
    -- of the places before the tail only one starts with `NI`
    have hcons : "NSE_FO|NIFTY".toList ++ tail =
        'N' :: 'S' :: 'E' :: '_' :: 'F' :: 'O' :: '|' :: 'N' :: 'I' :: 'F' :: 'T' :: 'Y' :: tail := rfl
    rw [hcons] at ht'
    simp only [List.suffix_cons_iff] at ht'
    rcases ht' with rfl | rfl | rfl | rfl | rfl | rfl | rfl | rfl | rfl | rfl | rfl | rfl | ht'
    case inr.inr.inr.inr.inr.inr.inr.inl => rfl
    case inr.inr.inr.inr.inr.inr.inr.inr.inr.inr.inr.inr => exact htail t' ht' hne
    all_goals exact absurd rfl hne

/-! ### Dates in a key -/

/-- The letters of a month. -/
def monthText (month : ℕ) : List Char := (monthAbbrs.getD (month - 1) "").toList

theorem monthText_spec : ∀ m < 13, 1 ≤ m → (monthText m).length = 3 ∧ monthOfAbbr (monthText m) = some m ∧
    ∀ c ∈ monthText m, (c.isAlpha = true ∧ c.toUpper = c) ∧ 'I' ≠ c.toUpper ∧ c.isDigit = false := by
  have htable : ∀ m < 13, 1 ≤ m → ((monthText m).length = 3 ∧ monthOfAbbr (monthText m) = some m) ∧
      (monthText m).all fun c => (c.isAlpha ∧ c.toUpper = c) ∧ 'I' ≠ c.toUpper ∧ c.isDigit = false := by decide
  intro m hm hpos
  obtain ⟨⟨hlength, habbr⟩, hletters⟩ := htable m hm hpos
  exact ⟨hlength, habbr, fun c hc => of_decide_eq_true (List.all_eq_true.mp hletters c hc)⟩

theorem toList_padded_two : ∀ n < 100, (padded 2 n).toList = twoDigits n := by decide +kernel

theorem toList_expiryText {d : Date} (hd : 0 < d) :
    (expiryText d).toList = twoDigits (toYmd d).2.2 ++ (monthText (month d) ++ Nat.toDigits 10 (year d)) := by
  rw [expiryText, String.toList_append, String.toList_append, List.append_assoc, toList_padded_two _ (day_lt hd)]
  exact congrArg _ (congrArg _ Nat.toList_repr)

/-- The day and the month are read; the year is whatever four digits follow. -/
theorem takeDayMonthYear_text {day month : ℕ} (hday : day < 100) (hm : month < 13) (hpos : 1 ≤ month) (s : List Char) :
    takeDayMonthYear (twoDigits day ++ (monthText month ++ s)) =
      (takeDigits 4 s).map fun (ys, rest) => (day, monthText month, digitsValue ys, rest) := by
  obtain ⟨hlength, -, hletters⟩ := monthText_spec month hm hpos
  have hdigits := takeDigits_append (show ∀ c ∈ twoDigits day, c.isDigit = true from
    fun c hc => isDigit_of_mem_twoDigits hday hc) (monthText month ++ s)
  have hmonth := takeLetters_append (fun c hc => (hletters c hc).1) s
  rw [hlength] at hmonth
  unfold takeDayMonthYear
  rw [show (2 : ℕ) = (twoDigits day).length from rfl, hdigits]
  simp only [Option.bind_eq_bind, Option.bind_some, hmonth, digitsValue_twoDigits day hday]
  cases takeDigits 4 s <;> rfl

/-- The type is two letters. -/
theorem optionSuffix_congr (a b : Char) (s s' : List Char) : optionSuffix (a :: b :: s) = optionSuffix (a :: b :: s') := by
  have hsome : ∀ p q : Char, (stripPrefixCI [p, q] (a :: b :: s)).isSome = (stripPrefixCI [p, q] (a :: b :: s')).isSome := by
    intro p q
    simp only [stripPrefixCI]
    by_cases hp : p.toUpper = a.toUpper
    · by_cases hq : q.toUpper = b.toUpper
      · simp only [if_pos hp, if_pos hq, Option.isSome_some]
      · simp only [if_pos hp, if_neg hq]
    · simp only [if_neg hp]
  rw [optionSuffix, optionSuffix, hsome, hsome]

theorem optionSuffix_monthText {month : ℕ} (hm : month < 13) (hpos : 1 ≤ month) (s : List Char) :
    optionSuffix (monthText month ++ s) = none := by
  have hall : ∀ m < 13, 1 ≤ m → optionSuffix (monthText m) = none := by decide
  have hnone := hall month hm hpos
  obtain ⟨a, b, c, habc⟩ := List.length_eq_three.mp (monthText_spec month hm hpos).1
  rw [habc] at hnone ⊢
  exact (optionSuffix_congr a b _ _).trans hnone

/-! ### Characters -/

theorem toUpper_of_isDigit {c : Char} (h : c.isDigit = true) : c.toUpper = c := by
  have hall : ∀ n < 58, 48 ≤ n → (Char.ofNat n).toUpper = Char.ofNat n := by decide
  have hbounds : 48 ≤ c.toNat ∧ c.toNat < 58 := by
    simp only [Char.isDigit, Bool.and_eq_true, decide_eq_true_eq] at h
    exact ⟨h.1, Nat.lt_succ_of_le h.2⟩
  have hc := hall c.toNat hbounds.2 hbounds.1
  rwa [Char.ofNat_toNat] at hc

/-- No digit is a letter. -/
theorem ne_toUpper_of_isDigit {a c : Char} (ha : a.isDigit = false) (hc : c.isDigit = true) : a ≠ c.toUpper := by
  rw [toUpper_of_isDigit hc]
  rintro rfl
  exact absurd hc (by rw [ha]; decide)

theorem optionSuffix_cons {c : Char} (hC : 'C' ≠ c.toUpper) (hP : 'P' ≠ c.toUpper) (s : List Char) :
    optionSuffix (c :: s) = none := by
  have hC' : ¬ 'C'.toUpper = c.toUpper := hC
  have hP' : ¬ 'P'.toUpper = c.toUpper := hP
  simp only [optionSuffix, stripPrefixCI, if_neg hC', if_neg hP', Option.isSome_none, Bool.false_eq_true, if_false]

end NiftyShield.Instruments
