/-!
# Lexical errors

A source cannot be scanned where a character begins no token, or where a string is never closed. An
error is displayed on a line of its own, or told by its line and its message to whoever reports it.
Each form has texts of its own.

## Key results

- `ScanError.display_eq`: an error is displayed as its line and its message are reported
-/

namespace LoxLexer

/-- Why a source cannot be scanned, and the line on which that shows. -/
inductive ScanError where
  /-- A character that begins no token. -/
  | unexpectedCharacter (line : Nat) (char : Char)
  /-- A string without its closing quote; its line is the last of the source. -/
  | unterminatedString (line : Nat)
deriving DecidableEq

namespace ScanError

/-- The line of the error, counted from zero. -/
def line : ScanError → Nat
  | unexpectedCharacter line _ => line
  | unterminatedString line => line

/-- What is wrong. -/
def message : ScanError → String
  | unexpectedCharacter _ char => "Unexpected character '" ++ char.toString ++ "'."
  | unterminatedString _ => "Unterminated string."

/-- The error as one line: where it is and what is wrong. -/
def display : ScanError → String
  | unexpectedCharacter line char =>
    "[line " ++ toString line ++ "] Error: Unexpected character '" ++ char.toString ++ "'."
  | unterminatedString line => "[line " ++ toString line ++ "] Error: Unterminated string."

/-- What is displayed is the line and the message. -/
theorem display_eq (e : ScanError) :
    e.display = "[line " ++ toString e.line ++ "] Error: " ++ e.message := by
  -- The two sides are put together of different parts, so their characters are compared.
  apply String.toList_inj.1
  cases e with
  | unexpectedCharacter line char =>
    show ("[line " ++ toString line ++ "] Error: Unexpected character '" ++ char.toString
      ++ "'.").toList = ("[line " ++ toString line ++ "] Error: "
      ++ ("Unexpected character '" ++ char.toString ++ "'.")).toList
    simp
  | unterminatedString line =>
    show ("[line " ++ toString line ++ "] Error: Unterminated string.").toList =
      ("[line " ++ toString line ++ "] Error: " ++ "Unterminated string.").toList
    simp

end ScanError

end LoxLexer
