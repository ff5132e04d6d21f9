import LoxLexer.Double.Style

/-!
# JSON records

Records of scalar fields written as JSON, on one line or as an indented array. Fields keep their
order. JSON has no text for infinities and for not-a-number, so those are written as null.
-/

namespace LoxLexer.Json

/-! ## Scalars -/

/-- A value without parts. -/
inductive Scalar where
  | null
  | string (content : String)
  | natural (value : Nat)
  | double (value : Double)

/-- JSON writes numbers positionally from `0.00001` to below `1e16`, and a sign before each
    exponent. -/
def numberStyle : NumberStyle := ⟨.toEven, -5, 16, "+"⟩

/-- A character as it is written in a JSON string. -/
def escape (c : Char) : List Char :=
  if c = '"' then ['\\', '"']
  else if c = '\\' then ['\\', '\\']
  else if c = '\x08' then ['\\', 'b']
  else if c = '\x0c' then ['\\', 'f']
  else if c = '\n' then ['\\', 'n']
  else if c = '\r' then ['\\', 'r']
  else if c = '\t' then ['\\', 't']
  else if c.toNat < 32 then
    ['\\', 'u', '0', '0', Nat.digitChar (c.toNat / 16), Nat.digitChar (c.toNat % 16)]
  else [c]

/-- A JSON string. -/
def quote (content : String) : String :=
  String.ofList ('"' :: content.toList.flatMap escape ++ ['"'])

/-- The text of a scalar. -/
def Scalar.render : Scalar → String
  | null => "null"
  | string content => quote content
  | natural value => toString value
  | double value => if value.isFinite then numberStyle.render value else "null"

/-! ## Records -/

/-- Named scalars in order. -/
abbrev Record := List (String × Scalar)

/-- The record on one line, without spaces. -/
def Record.compact (r : Record) : String :=
  "\x7b" ++ ",".intercalate (r.map fun (name, value) => quote name ++ ":" ++ value.render) ++ "\x7d"

/-- The record as an item of an indented array, one field a line. -/
def Record.indented (r : Record) : String :=
  "  \x7b\n"
    ++ ",\n".intercalate (r.map fun (name, value) => "    " ++ quote name ++ ": " ++ value.render)
    ++ "\n  \x7d"

/-- The records as an indented array. -/
def array (records : List Record) : String :=
  if records.isEmpty then "[]"
  else "[\n" ++ ",\n".intercalate (records.map Record.indented) ++ "\n]"

end LoxLexer.Json
