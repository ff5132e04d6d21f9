import LoxLexer.Token
import LoxLexer.ScanError

/-!
# Log records

Scanning and running sessions leave records of what happened. Each has a level, the part of the
program that wrote it, and a message. A reader of the log asks for the records from some level on.
-/

namespace LoxLexer

/-- How severe a record is. -/
inductive LogLevel where
  | error
  | warn
  | info
  | debug
  | trace
deriving DecidableEq

/-- How many levels are more severe. -/
def LogLevel.rank : LogLevel → Nat
  | error => 0
  | warn => 1
  | info => 2
  | debug => 3
  | trace => 4

/-- The part of the program that wrote a record. -/
inductive LogOrigin where
  | scanner
  | session
deriving DecidableEq

/-- Something that happened. -/
inductive LogRecord where
  /-- A token was found. -/
  | token (t : Token)
  /-- A scan reached the end of the source. -/
  | scanned (tokens lines : Nat)
  /-- A scan stopped at an error. -/
  | aborted (tokens : Nat) (e : ScanError)
  /-- A file was read and is about to be scanned. -/
  | running (path : String) (size : Nat)
  /-- The input of a prompt ended. -/
  | inputEnded

namespace LogRecord

/-- The level of the record. -/
def level : LogRecord → LogLevel
  | token _ => .trace
  | running _ _ => .info
  | _ => .debug

/-- Who wrote the record. -/
def origin : LogRecord → LogOrigin
  | token _ => .scanner
  | scanned _ _ => .scanner
  | aborted _ _ => .scanner
  | running _ _ => .session
  | inputEnded => .session

/-- The text of the record. -/
def message : LogRecord → String
  | token t => "token " ++ t.display
  | scanned tokens lines =>
    "scanned " ++ toString tokens ++ " tokens over " ++ toString lines ++ " lines"
  | aborted tokens e => "scan aborted after " ++ toString tokens ++ " tokens: " ++ e.display
  | running path size => "running " ++ path ++ " (" ++ toString size ++ " bytes)"
  | inputEnded => "prompt reached end of input"

/-- The records that are at least as severe as a level, in order. -/
def atLeast (level : LogLevel) (records : List LogRecord) : List LogRecord :=
  records.filter (·.level.rank ≤ level.rank)

end LogRecord

end LoxLexer
