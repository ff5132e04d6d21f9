import LoxLexer.Text.Escape

/-!
# Record dumps

Records written for a reader who wants to see every field, on one line or as an indented list with
one field a line. A field is plain text or a tag around a text; in the indented form a tag is opened
and closed on lines of its own. Line feeds do not occur in field texts, which hold escaped strings,
names and numbers, so the lines of an indented dump show its structure.
-/

namespace LoxLexer.Dump

/-- The value of a field. -/
inductive Value where
  | plain (text : String)
  | tagged (tag text : String)

/-- A named record. -/
structure Record where
  name : String
  fields : List (String × Value)

/-- A string in double quotes. -/
def string (content : String) : String := quotedBy '"' content.toList

/-- A character in single quotes. -/
def char (c : Char) : String := quotedBy '\x27' [c]

/-! ## On one line -/

/-- The value on one line. -/
def Value.compact : Value → String
  | plain text => text
  | tagged tag text => tag ++ "(" ++ text ++ ")"

/-- The record on one line. -/
def Record.compact (r : Record) : String :=
  r.name ++ " \x7b "
    ++ ", ".intercalate (r.fields.map fun (name, value) => name ++ ": " ++ value.compact) ++ " \x7d"

/-! ## Indented -/

/-- A line one level deeper. -/
def indent (line : String) : String := "    " ++ line

/-- The lines of a field, closed by a comma. -/
def fieldLines (name : String) : Value → List String
  | .plain text => [name ++ ": " ++ text ++ ","]
  | .tagged tag text => [name ++ ": " ++ tag ++ "(", indent (text ++ ","), "),"]

/-- The lines of a record, closed by a comma. -/
def Record.lines (r : Record) : List String :=
  [r.name ++ " \x7b"]
    ++ (r.fields.flatMap fun (name, value) => fieldLines name value).map indent
    ++ ["\x7d,"]

/-- The lines of a list of records. -/
def listLines (records : List Record) : List String :=
  if records.isEmpty then ["[]"] else ["["] ++ (records.flatMap Record.lines).map indent ++ ["]"]

/-- The records as an indented list. -/
def list (records : List Record) : String := "\n".intercalate (listLines records)

end LoxLexer.Dump
