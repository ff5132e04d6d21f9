import LoxLexer.Kind
import LoxLexer.Double.Style

/-!
# Tokens

A token is a kind, the exact text it was scanned from, the value that text denotes if it denotes
one, and the line it begins on, counted from zero. Tokens are compared field by field, and numbers
as numbers: a token that carries not-a-number differs from itself.
-/

namespace LoxLexer

/-- The value of a string or a number. -/
inductive Literal where
  | text (content : String)
  | number (value : Double)
deriving BEq

/-- A token of the source. -/
structure Token where
  kind : Kind
  /-- The characters of the token; none at the end of the input. -/
  lexeme : String
  /-- What a string or a number denotes. -/
  literal : Option Literal
  /-- The number of line feeds before the token. -/
  line : Nat
deriving BEq

/-- The text of a literal in listings: a string is written as it is. -/
def Literal.display : Literal → String
  | text content => content
  | number value => value.display

namespace Token

/-- The token that ends the input. -/
def eof (line : Nat) : Token := ⟨.eof, "", none, line⟩

/-- The literal of the token in listings. -/
def displayLiteral (t : Token) : String :=
  match t.literal with
  | none => "nil"
  | some literal => literal.display

/-- The token in listings: its kind, its text and its literal. -/
def display (t : Token) : String :=
  t.kind.name ++ " " ++ t.lexeme ++ " " ++ t.displayLiteral

end Token

end LoxLexer
