import Mathlib.Data.List.Basic
import Mathlib.Logic.Function.Basic

/-!
# Markup with escapes

Text in which some characters are markup, unless an escape character stands before them or they are
within quotes. What a reader sees of a text is a list of tokens (`read`). A text is put together from
pieces (`Piece`): text that is escaped, text that is quoted, and markup.

The reader sees the pieces as they were meant (`read_write`): no character of a piece of text is
taken for markup, none is lost, and none changes what is read of another piece. So escaping is
injective too (`escape_injective`).
-/

namespace NiftyShield.Lib.Markup

variable {χ : Type*}

/-- The characters with a meaning of their own. -/
structure Alphabet (χ : Type*) where
  /-- The escape character. -/
  esc : χ
  /-- The character that begins and ends a quotation. -/
  quote : χ
  /-- The characters that must be escaped. -/
  special : χ → Bool
  /-- The escape character is one of them. -/
  special_esc : special esc = true
  /-- So is the quote. -/
  special_quote : special quote = true
  /-- They are not the same. -/
  quote_ne_esc : quote ≠ esc

/-- What is seen of a text. -/
inductive Token (χ : Type*) where
  /-- A character of the text. -/
  | plain (c : χ)
  /-- A character within quotes. -/
  | verbatim (c : χ)
  /-- Markup. -/
  | markup (c : χ)

variable [DecidableEq χ] (A : Alphabet χ)

/-- What is seen of the rest of a text, within quotes or not; `none` if it cannot be read. Three quotes
would begin a block, which is not read here. -/
def read : Bool → List χ → Option (List (Token χ))
  | inQuote, [] => if inQuote then none else some []
  | inQuote, c :: l =>
    if c = A.esc then
      match l with
      | [] => none
      | e :: l => (read inQuote l).map ((if inQuote then .verbatim e else .plain e) :: ·)
    else if c = A.quote then
      if inQuote then read false l
      else if [A.quote, A.quote].isPrefixOf l then none
      else read true l
    else (read inQuote l).map ((if inQuote then .verbatim c else if A.special c then .markup c else .plain c) :: ·)

/-- The text with its special characters escaped. -/
def escape (l : List χ) : List χ := l.flatMap fun c => if A.special c then [A.esc, c] else [c]

/-- The text in quotes. -/
def quoted (l : List χ) : List χ := A.quote :: l ++ [A.quote]

/-- A piece of a text. -/
inductive Piece (A : Alphabet χ) where
  /-- Escaped text. -/
  | text (l : List χ)
  /-- Quoted text: there is some, and nothing in it would have to be escaped. -/
  | quoted (l : List χ) (ne_nil : l ≠ []) (clean : ∀ c ∈ l, c ≠ A.esc ∧ c ≠ A.quote)
  /-- Markup. -/
  | markup (c : χ) (special : A.special c = true) (other : c ≠ A.esc ∧ c ≠ A.quote)

variable {A}

/-- The piece as it is written. -/
def Piece.write : Piece A → List χ
  | .text l => escape A l
  | .quoted l _ _ => Markup.quoted A l
  | .markup c _ _ => [c]

/-- What is meant by it. -/
def Piece.tokens : Piece A → List (Token χ)
  | .text l => l.map .plain
  | .quoted l _ _ => l.map .verbatim
  | .markup c _ _ => [.markup c]

/-! ### What is read of each piece -/

theorem read_other {inQuote : Bool} {c : χ} (hesc : c ≠ A.esc) (hquote : c ≠ A.quote) (l : List χ) :
    read A inQuote (c :: l) =
      (read A inQuote l).map ((if inQuote then .verbatim c else if A.special c then .markup c else .plain c) :: ·) := by
  rw [read.eq_def]
  simp only [hesc, hquote, if_false]

theorem read_esc (c : χ) (l : List χ) : read A false (A.esc :: c :: l) = (read A false l).map (.plain c :: ·) := by
  rw [read.eq_def]
  simp only [if_true, Bool.false_eq_true, if_false]

/-- A quotation ends. -/
theorem read_close (l : List χ) : read A true (A.quote :: l) = read A false l := by
  rw [read.eq_def]
  simp only [A.quote_ne_esc, if_false, if_true]

/-- A quotation begins, if no block does. -/
theorem read_open {l : List χ} (h : [A.quote, A.quote].isPrefixOf l = false) :
    read A false (A.quote :: l) = read A true l := by
  rw [read.eq_def]
  simp only [A.quote_ne_esc, h, if_false, if_true, Bool.false_eq_true]

theorem read_escape_append (l rest : List χ) :
    read A false (escape A l ++ rest) = (read A false rest).map (l.map .plain ++ ·) := by
  induction l with
  | nil => exact Option.map_id'.symm
  | cons c l ih =>
    have hcons : escape A (c :: l) ++ rest = (if A.special c then [A.esc, c] else [c]) ++ (escape A l ++ rest) := by
      rw [escape, List.flatMap_cons, List.append_assoc, ← escape]
    have hread : read A false (escape A (c :: l) ++ rest) = (read A false (escape A l ++ rest)).map (.plain c :: ·) := by
      rw [hcons]
      cases hc : A.special c with
      | true =>
        exact read_esc c _
      | false =>
        rw [if_neg Bool.false_ne_true, List.singleton_append, read_other, hc]
        · rfl
        · rintro rfl
          exact absurd hc (by simp [A.special_esc])
        · rintro rfl
          exact absurd hc (by simp [A.special_quote])
    rw [hread, ih, Option.map_map]
    rfl

theorem read_verbatim_append {l : List χ} (hclean : ∀ c ∈ l, c ≠ A.esc ∧ c ≠ A.quote) (rest : List χ) :
    read A true (l ++ A.quote :: rest) = (read A false rest).map (l.map .verbatim ++ ·) := by
  induction l with
  | nil =>
    rw [List.nil_append, read_close]
    exact Option.map_id'.symm
  | cons c l ih =>
    obtain ⟨⟨hesc, hquote⟩, hclean⟩ := List.forall_mem_cons.mp hclean
    rw [List.cons_append, read_other hesc hquote, ih hclean, Option.map_map]
    rfl

theorem read_quoted_append {l : List χ} (hne : l ≠ []) (hclean : ∀ c ∈ l, c ≠ A.esc ∧ c ≠ A.quote) (rest : List χ) :
    read A false (quoted A l ++ rest) = (read A false rest).map (l.map .verbatim ++ ·) := by
  obtain ⟨c, l', rfl⟩ := List.exists_cons_of_ne_nil hne
  -- The first character within the quotes is no quote, so that they begin no block.
  have hblock : ([A.quote, A.quote].isPrefixOf (c :: l' ++ [A.quote] ++ rest)) = false := by
    have hc : (A.quote == c) = false := beq_eq_false_iff_ne.mpr (hclean c List.mem_cons_self).2.symm
    rw [List.cons_append, List.cons_append, List.isPrefixOf, hc, Bool.false_and]
  rw [quoted, List.cons_append, List.cons_append, read_open hblock, List.append_assoc, List.singleton_append,
    read_verbatim_append hclean]

/-- **A piece is read as it was meant**, whatever comes after it. -/
theorem read_write_append (p : Piece A) (rest : List χ) :
    read A false (p.write ++ rest) = (read A false rest).map (p.tokens ++ ·) := by
  cases p with
  | text l => exact read_escape_append l rest
  | quoted l hne hclean => exact read_quoted_append hne hclean rest
  | markup c hspecial hother =>
    rw [Piece.write, List.singleton_append, read_other hother.1 hother.2, hspecial]
    rfl

theorem read_write (ps : List (Piece A)) : read A false (ps.flatMap Piece.write) = some (ps.flatMap Piece.tokens) := by
  induction ps with
  | nil => rfl
  | cons p ps ih =>
    rw [List.flatMap_cons, read_write_append, ih, List.flatMap_cons]
    rfl

variable (A) in
theorem escape_injective : Function.Injective (escape A) := by
  intro l m h
  have hl := read_escape_append (A := A) l []
  rw [h, read_escape_append] at hl
  have htokens : m.map (Token.plain (χ := χ)) = l.map Token.plain := by simpa [read] using hl
  exact (List.map_injective_iff.mpr (fun _ _ => Token.plain.inj) htokens).symm

end NiftyShield.Lib.Markup
