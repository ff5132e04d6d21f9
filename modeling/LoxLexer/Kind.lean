import LoxLexer.Symbol
import LoxLexer.Keyword

/-!
# Kinds of tokens

A kind is a symbol, a keyword, one of the three open classes (identifier, string, number), or the
end of the input. Each of the thirty-nine kinds has a name in lower case with hyphens, for
listings, and a label in camel case, for records. The names and the labels are tables of their own.

## Key results

- `Kind.kebabLabel_eq_name`: the label in lower case with hyphens is the name
-/

namespace LoxLexer

/-- The lexical category of a token. -/
inductive Kind where
  | symbol (s : Symbol)
  | identifier
  | string
  | number
  | keyword (k : Keyword)
  | eof
deriving DecidableEq

namespace Kind

/-- Every kind, once. -/
def all : List Kind :=
  Symbol.all.map symbol ++ [identifier, string, number] ++ Keyword.all.map keyword ++ [eof]

/-- The name of the kind; a keyword is named by its spelling. -/
def name : Kind → String
  | symbol s => s.name
  | identifier => "identifier"
  | string => "string"
  | number => "number"
  | keyword k => k.text
  | eof => "eof"

/-- The kind with this name. -/
def ofName? (name : String) : Option Kind :=
  all.find? (·.name == name)

/-- Whether the kind is one of the sixteen reserved words. -/
def isKeyword : Kind → Bool
  | keyword _ => true
  | _ => false

/-- The label of the kind, in camel case. -/
def label : Kind → String
  | symbol s => s.label
  | identifier => "Identifier"
  | string => "String"
  | number => "Number"
  | keyword k => k.label
  | eof => "Eof"

/-- Writes a word in camel case in lower case, with a hyphen before each capital but the first. -/
def kebabCase : List Char → List Char
  | [] => []
  | c :: cs => c.toLower :: cs.flatMap fun c => if c.isUpper then ['-', c.toLower] else [c.toLower]

/-- The label of the kind in lower case with hyphens. -/
def kebabLabel (k : Kind) : String :=
  String.ofList (kebabCase k.label.toList)

/-- Names and labels say the same: the label in lower case with hyphens is the name. -/
theorem kebabLabel_eq_name (k : Kind) : k.kebabLabel = k.name := by
  -- Both tables are read for every kind, entry by entry.
  cases k with
  | symbol s => cases s <;> rfl
  | keyword w => cases w <;> rfl
  | _ => rfl

theorem mem_all (k : Kind) : k ∈ all := by
  cases k with
  | symbol s => cases s <;> decide
  | keyword w => cases w <;> decide
  | _ => decide

end Kind

end LoxLexer
