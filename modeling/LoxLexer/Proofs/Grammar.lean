import Mathlib.Data.List.TakeWhile
import LoxLexer.Numeral
import LoxLexer.Token

/-!
# The lexical grammar

The items of a source, told by their characters alone: trivia, which mean nothing, and the texts of
tokens, each with its kind and its literal. A source is cut from left to right so that each item is
the longest at the front of what remains.

This grammar does not say how an item is found. `LoxLexer.Proofs.LongestMatch` shows that cutting a
source into pieces finds the longest items, and that there is only one way to do so.
-/

namespace LoxLexer.Grammar

/-! ## Items -/

/-- A digit of a numeral. -/
def Digit (c : Char) : Prop := '0' ≤ c ∧ c ≤ '9'

/-- A character that a word may begin with. -/
def Letter (c : Char) : Prop := ('A' ≤ c ∧ c ≤ 'Z') ∨ ('a' ≤ c ∧ c ≤ 'z') ∨ c = '_'

/-- One digit or more. -/
def Digits (ds : List Char) : Prop := ds ≠ [] ∧ ∀ d ∈ ds, Digit d

/-- A letter, and then letters and digits. -/
def Word (w : List Char) : Prop := ∃ c cs, w = c :: cs ∧ Letter c ∧ ∀ d ∈ cs, Letter d ∨ Digit d

/-- A single blank, or two slashes and characters other than a line feed. -/
def Trivia (t : List Char) : Prop :=
  t ∈ [[' '], ['\r'], ['\t'], ['\n']] ∨ ['/', '/'] <+: t ∧ '\n' ∉ t

instance : DecidablePred Trivia := fun _ => inferInstanceAs (Decidable (_ ∨ _))

/-- The text of a token, with the kind and the literal that the token has. -/
inductive TokenText : List Char → Kind → Option Literal → Prop where
  | symbol (s : Symbol) : TokenText s.text (.symbol s) none
  | string {body : List Char} (hbody : '"' ∉ body) :
      TokenText ('"' :: body ++ ['"']) .string (some (.text (String.ofList body)))
  | integer {whole : List Char} (hwhole : Digits whole) :
      TokenText whole .number (some (.number (Numeral.value ⟨whole, []⟩)))
  | decimal {whole fraction : List Char} (hwhole : Digits whole) (hfraction : Digits fraction) :
      TokenText (whole ++ '.' :: fraction) .number
        (some (.number (Numeral.value ⟨whole, fraction⟩)))
  | keyword (k : Keyword) : TokenText k.text.toList (.keyword k) none
  | identifier {w : List Char} (hw : Word w) (hk : ∀ k : Keyword, k.text.toList ≠ w) :
      TokenText w .identifier none

/-- An item of a source: trivia or the text of a token. -/
def Item (t : List Char) : Prop := Trivia t ∨ ∃ kind literal, TokenText t kind literal

/-! ## Longest match -/

/-- The item is the longest at the front of a text. -/
structure LongestItem (t cs : List Char) : Prop where
  item : Item t
  isPrefix : t <+: cs
  length_le : ∀ u, Item u → u <+: cs → u.length ≤ t.length

/-- A text is cut from left to right into longest items, and a rest is left behind them. -/
inductive Cuts : List Char → List (List Char) → List Char → Prop where
  | nil (rest : List Char) : Cuts rest [] rest
  | cons {t cs rest : List Char} {items : List (List Char)} (ht : LongestItem t (t ++ cs))
      (h : Cuts cs items rest) : Cuts (t ++ cs) (t :: items) rest

/-- There is text left, and no item stands at the front of it. -/
def Stuck (rest : List Char) : Prop := rest ≠ [] ∧ ∀ t, Item t → ¬ t <+: rest

/-- The items that become tokens: all but trivia. -/
def tokenItems (items : List (List Char)) : List (List Char) := items.filter (¬ Trivia ·)

/-- The token has this text, and the kind and the literal that the grammar gives it. -/
def Spells (t : List Char) (token : Token) : Prop :=
  token.lexeme = String.ofList t ∧
    ∀ kind literal, TokenText t kind literal ↔ token.kind = kind ∧ token.literal = literal

/-- The items of a cut, put together, are the text before its rest. -/
theorem Cuts.flatten_append {cs rest : List Char} {items : List (List Char)}
    -- By induction on the cut: each item is put back in front of what is cut behind it.
    (h : Cuts cs items rest) : items.flatten ++ rest = cs := by
  induction h with
  | nil rest => rfl
  | cons ht h ih => rw [List.flatten_cons, List.append_assoc, ih]

end LoxLexer.Grammar
