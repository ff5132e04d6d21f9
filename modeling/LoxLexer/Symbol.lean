/-!
# Punctuation and operators

The nineteen symbols of Lox, with the text, the name and the label of each, and `Symbol.first?`,
which finds the longest symbol at the front of a text.

## Key results

- `Symbol.first?_text_append`: the symbol that is found stands at the front of the text
- `Symbol.text_ne_nil`: no symbol is empty
-/

namespace LoxLexer

/-- The punctuation marks and operators. -/
inductive Symbol where
  | leftParen
  | rightParen
  | leftBrace
  | rightBrace
  | comma
  | dot
  | minus
  | plus
  | semicolon
  | slash
  | star
  | bang
  | bangEqual
  | equal
  | equalEqual
  | greater
  | greaterEqual
  | less
  | lessEqual
deriving DecidableEq

namespace Symbol

/-- Every symbol, once. -/
def all : List Symbol :=
  [leftParen, rightParen, leftBrace, rightBrace, comma, dot, minus, plus, semicolon, slash, star,
    bang, bangEqual, equal, equalEqual, greater, greaterEqual, less, lessEqual]

/-- The characters that spell the symbol. -/
def text : Symbol → List Char
  | leftParen => ['(']
  | rightParen => [')']
  | leftBrace => ['{']
  | rightBrace => ['}']
  | comma => [',']
  | dot => ['.']
  | minus => ['-']
  | plus => ['+']
  | semicolon => [';']
  | slash => ['/']
  | star => ['*']
  | bang => ['!']
  | bangEqual => ['!', '=']
  | equal => ['=']
  | equalEqual => ['=', '=']
  | greater => ['>']
  | greaterEqual => ['>', '=']
  | less => ['<']
  | lessEqual => ['<', '=']

/-- The name of the symbol, in words joined by hyphens. -/
def name : Symbol → String
  | leftParen => "left-paren"
  | rightParen => "right-paren"
  | leftBrace => "left-brace"
  | rightBrace => "right-brace"
  | comma => "comma"
  | dot => "dot"
  | minus => "minus"
  | plus => "plus"
  | semicolon => "semicolon"
  | slash => "slash"
  | star => "star"
  | bang => "bang"
  | bangEqual => "bang-equal"
  | equal => "equal"
  | equalEqual => "equal-equal"
  | greater => "greater"
  | greaterEqual => "greater-equal"
  | less => "less"
  | lessEqual => "less-equal"

/-- The label of the symbol, in camel case. -/
def label : Symbol → String
  | leftParen => "LeftParen"
  | rightParen => "RightParen"
  | leftBrace => "LeftBrace"
  | rightBrace => "RightBrace"
  | comma => "Comma"
  | dot => "Dot"
  | minus => "Minus"
  | plus => "Plus"
  | semicolon => "Semicolon"
  | slash => "Slash"
  | star => "Star"
  | bang => "Bang"
  | bangEqual => "BangEqual"
  | equal => "Equal"
  | equalEqual => "EqualEqual"
  | greater => "Greater"
  | greaterEqual => "GreaterEqual"
  | less => "Less"
  | lessEqual => "LessEqual"

/-- The longest symbol at the front of a text. -/
def first? : List Char → Option Symbol
  | '!' :: '=' :: _ => some bangEqual
  | '=' :: '=' :: _ => some equalEqual
  | '>' :: '=' :: _ => some greaterEqual
  | '<' :: '=' :: _ => some lessEqual
  | '!' :: _ => some bang
  | '=' :: _ => some equal
  | '>' :: _ => some greater
  | '<' :: _ => some less
  | '(' :: _ => some leftParen
  | ')' :: _ => some rightParen
  | '{' :: _ => some leftBrace
  | '}' :: _ => some rightBrace
  | ',' :: _ => some comma
  | '.' :: _ => some dot
  | '-' :: _ => some minus
  | '+' :: _ => some plus
  | ';' :: _ => some semicolon
  | '/' :: _ => some slash
  | '*' :: _ => some star
  | _ => none

theorem text_ne_nil (s : Symbol) : s.text ≠ [] := by
  cases s <;> simp [text]

/-- The symbol that is found stands at the front of the text. -/
theorem first?_text_append {cs : List Char} {s : Symbol} (h : first? cs = some s) :
    ∃ rest, cs = s.text ++ rest := by
  unfold first? at h
  split at h <;> cases h <;> exact ⟨_, rfl⟩

end Symbol

end LoxLexer
