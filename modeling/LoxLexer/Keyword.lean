/-!
# Reserved words

The sixteen words that cannot be names in Lox, with a label for each, and `Keyword.ofText?`, which
recognises them by their exact spelling.

## Key results

- `Keyword.ofText?_eq_some_iff`: a word is recognised exactly when it is the text of a keyword
-/

namespace LoxLexer

/-- The reserved words. -/
inductive Keyword where
  | andWord
  | classWord
  | elseWord
  | falseWord
  | forWord
  | funWord
  | ifWord
  | nilWord
  | orWord
  | printWord
  | returnWord
  | superWord
  | thisWord
  | trueWord
  | varWord
  | whileWord
deriving DecidableEq

namespace Keyword

/-- Every keyword, once. -/
def all : List Keyword :=
  [andWord, classWord, elseWord, falseWord, forWord, funWord, ifWord, nilWord, orWord, printWord,
    returnWord, superWord, thisWord, trueWord, varWord, whileWord]

/-- The spelling of the keyword. -/
def text : Keyword → String
  | andWord => "and"
  | classWord => "class"
  | elseWord => "else"
  | falseWord => "false"
  | forWord => "for"
  | funWord => "fun"
  | ifWord => "if"
  | nilWord => "nil"
  | orWord => "or"
  | printWord => "print"
  | returnWord => "return"
  | superWord => "super"
  | thisWord => "this"
  | trueWord => "true"
  | varWord => "var"
  | whileWord => "while"

/-- The label of the keyword, in camel case. -/
def label : Keyword → String
  | andWord => "And"
  | classWord => "Class"
  | elseWord => "Else"
  | falseWord => "False"
  | forWord => "For"
  | funWord => "Fun"
  | ifWord => "If"
  | nilWord => "Nil"
  | orWord => "Or"
  | printWord => "Print"
  | returnWord => "Return"
  | superWord => "Super"
  | thisWord => "This"
  | trueWord => "True"
  | varWord => "Var"
  | whileWord => "While"

/-- The keyword with exactly this spelling. -/
def ofText? : String → Option Keyword
  | "and" => some andWord
  | "class" => some classWord
  | "else" => some elseWord
  | "false" => some falseWord
  | "for" => some forWord
  | "fun" => some funWord
  | "if" => some ifWord
  | "nil" => some nilWord
  | "or" => some orWord
  | "print" => some printWord
  | "return" => some returnWord
  | "super" => some superWord
  | "this" => some thisWord
  | "true" => some trueWord
  | "var" => some varWord
  | "while" => some whileWord
  | _ => none

/-- A word is recognised exactly when it is the spelling of a keyword. -/
theorem ofText?_eq_some_iff {w : String} {k : Keyword} : ofText? w = some k ↔ k.text = w := by
  constructor
  · intro h
    unfold ofText? at h
    split at h <;> cases h <;> rfl
  · rintro rfl
    cases k <;> rfl

end Keyword

end LoxLexer
