import LoxLexer.Symbol
import LoxLexer.Numeral
import LoxLexer.Token

/-!
# Lexical pieces

A source is made of pieces: blanks and comments, which mean nothing, and symbols, strings, numbers
and words, which become tokens. `Piece.first?` finds the longest piece at the front of a text. The
first character decides which class of piece it can be, but for a slash, which begins a comment if
another slash follows and is a symbol otherwise.

## Key results

- `Piece.text_ne_nil_of_first?`: a piece that is found is not empty
- `Piece.eq_text_append_of_first?`: a piece that is found stands at the front of the text
-/

namespace LoxLexer

/-- A lexical piece of a source. -/
inductive Piece where
  /-- A space, a tab, a carriage return or a line feed. -/
  | blank (c : Char)
  /-- Two slashes and the rest of the line. -/
  | comment (body : List Char)
  | symbol (s : Symbol)
  /-- Any characters between two quotes. -/
  | string (body : List Char)
  | number (n : Numeral)
  /-- A keyword or an identifier. -/
  | word (letters : List Char)

namespace Piece

/-! ## Text and meaning -/

/-- The characters of the piece. -/
def text : Piece → List Char
  | blank c => [c]
  | comment body => '/' :: '/' :: body
  | symbol s => s.text
  | string body => '"' :: body ++ ['"']
  | number n => n.text
  | word letters => letters

/-- The number of line feeds in the piece. -/
def lineFeeds (p : Piece) : Nat := p.text.count '\n'

/-- The kind of token that the piece becomes; blanks and comments become none. -/
def kind? : Piece → Option Kind
  | blank _ => none
  | comment _ => none
  | symbol s => some (.symbol s)
  | string _ => some .string
  | number _ => some .number
  | word letters => some (((Keyword.ofText? (String.ofList letters)).map .keyword).getD .identifier)

/-- What the piece denotes. -/
def literal : Piece → Option Literal
  | string body => some (.text (String.ofList body))
  | number n => some (.number n.value)
  | _ => none

/-- The token that the piece becomes on a line. -/
def token? (p : Piece) (line : Nat) : Option Token :=
  p.kind?.map (⟨·, String.ofList p.text, p.literal, line⟩)

/-! ## The piece at the front of a text -/

/-- Whether a word may begin with this character: a letter of ASCII or an underscore. -/
def beginsWord (c : Char) : Bool := c.isAlpha || c == '_'

/-- Whether a word may go on with this character. -/
def continuesWord (c : Char) : Bool := c.isAlphanum || c == '_'

/-- The longest piece at the front of a text. -/
def first? : List Char → Option Piece
  | [] => none
  | c :: rest =>
    if c.isWhitespace then some (blank c)
    else if c.isDigit then some (number (Numeral.span (c :: rest)))
    else if beginsWord c then some (word (c :: rest.takeWhile continuesWord))
    else if c = '"' then
      if '"' ∈ rest then some (string (rest.takeWhile (· ≠ '"'))) else none
    else if c = '/' ∧ rest.head? = some '/' then
      some (comment (rest.tail.takeWhile (· ≠ '\n')))
    else (Symbol.first? (c :: rest)).map symbol

/-- A piece that is found is not empty. -/
theorem text_ne_nil_of_first? {cs : List Char} {p : Piece} (h : first? cs = some p) :
    p.text ≠ [] := by
  -- Each branch that finds a piece puts the first character into it, or a symbol, which has text.
  unfold first? at h
  repeat' split at h
  all_goals first | cases h | skip
  · simp [text]
  · rename_i hdigit
    simp [text, Numeral.text, Numeral.span, hdigit]
  · simp [text]
  · simp [text]
  · simp [text]
  · obtain ⟨s, _, rfl⟩ := Option.map_eq_some_iff.1 h
    exact s.text_ne_nil

private theorem takeWhile_append_of_mem {a : Char} {l : List Char} (h : a ∈ l) :
    ∃ rest, l = l.takeWhile (· ≠ a) ++ a :: rest := by
  induction l with
  | nil => cases h
  | cons b l ih =>
    by_cases hb : b = a
    · exact ⟨l, by simp [hb]⟩
    · obtain ⟨rest, hrest⟩ := ih (by simpa [Ne.symm hb] using h)
      exact ⟨rest, by rw [List.takeWhile_cons_of_pos (by simpa using hb), List.cons_append,
        ← hrest]⟩

/-- A piece that is found stands at the front of the text. -/
theorem eq_text_append_of_first? {cs : List Char} {p : Piece} (h : first? cs = some p) :
    ∃ rest, cs = p.text ++ rest := by
  -- What is left behind a run is what the run did not take, and it follows the text of the piece.
  unfold first? at h
  repeat' split at h
  all_goals first | cases h | skip
  · exact ⟨_, rfl⟩
  · exact Numeral.span_eq_text_append _
  · rename_i c rest _ _ _
    exact ⟨rest.dropWhile continuesWord, by
      simp only [text, List.cons_append, List.takeWhile_append_dropWhile]⟩
  · rename_i hquote hmem
    -- The body ends before the first quote, and behind that quote the text goes on.
    obtain ⟨rest, hrest⟩ := takeWhile_append_of_mem hmem
    exact ⟨rest, by simp only [text, List.cons_append, List.append_assoc, List.nil_append, hquote,
      ← hrest]⟩
  · rename_i c rest _ _ _ _ hslash
    -- The second slash is the head of what follows the first.
    obtain ⟨rfl, hhead⟩ := hslash
    cases rest with
    | nil => cases hhead
    | cons d rest =>
      cases hhead
      exact ⟨rest.dropWhile (· ≠ '\n'), by
        simp only [text, List.tail_cons, List.cons_append, List.takeWhile_append_dropWhile]⟩
  · obtain ⟨s, hs, rfl⟩ := Option.map_eq_some_iff.1 h
    exact Symbol.first?_text_append hs

end Piece

end LoxLexer
