import LoxLexer.Token
import LoxLexer.ScanError
import LoxLexer.Json
import LoxLexer.Dump

/-!
# Tokens as records

The two record forms of tokens: JSON, with the labels of kinds in lower case with hyphens, and
dumps, with the labels as they are; and the dump of lexical errors.
-/

namespace LoxLexer

/-! ## JSON -/

/-- The literal of a token as JSON: strings and numbers stand for themselves. -/
def Literal.toJson : Literal → Json.Scalar
  | text content => .string content
  | number value => .double value

/-- A token as a JSON record. -/
def Token.toJson (t : Token) : Json.Record :=
  [("kind", .string t.kind.kebabLabel),
    ("lexeme", .string t.lexeme),
    ("literal", (t.literal.map Literal.toJson).getD .null),
    ("line", .natural t.line)]

/-- Tokens as an indented JSON array. -/
def tokensToJson (tokens : List Token) : String := Json.array (tokens.map Token.toJson)

/-! ## Dumps -/

/-- The literal of a token in a dump. -/
def Token.dumpLiteral (t : Token) : Dump.Value :=
  match t.literal with
  | none => .plain "None"
  | some (.text content) => .tagged "Text" (Dump.string content)
  | some (.number value) => .tagged "Number" value.display

/-- A token as a record to dump. -/
def Token.toDump (t : Token) : Dump.Record where
  name := "Token"
  fields :=
    [("kind", .plain t.kind.label),
      ("lexeme", .plain (Dump.string t.lexeme)),
      ("literal", t.dumpLiteral),
      ("line", .plain (toString t.line))]

/-- Tokens as an indented dump. -/
def dumpTokens (tokens : List Token) : String := Dump.list (tokens.map Token.toDump)

/-- A lexical error as a record to dump. -/
def ScanError.toDump : ScanError → Dump.Record
  | unexpectedCharacter line char =>
    ⟨"UnexpectedCharacter", [("line", .plain (toString line)), ("ch", .plain (Dump.char char))]⟩
  | unterminatedString line => ⟨"UnterminatedString", [("line", .plain (toString line))]⟩

end LoxLexer
