import LoxLexer.Cut
import LoxLexer.Log

/-!
# Scanning

`scan` cuts a source into pieces and gives its tokens, closed by the token for the end of the input,
or the error at the first place where no piece begins. `scanLog` tells what a scan did: a record for
each token that was found, and one for how the scan ended.
-/

namespace LoxLexer

namespace Cut

/-- Why the cut stopped before the end of the source. A quote begins no piece only if no quote
    follows, so the string it opens runs to the end. -/
def error? (c : Cut) : Option ScanError :=
  match c.rest with
  | [] => none
  | '"' :: body => some (.unterminatedString (c.line + body.count '\n'))
  | char :: _ => some (.unexpectedCharacter c.line char)

/-- The tokens of a source that has been cut, or the error that stopped the cut. -/
def scan (c : Cut) : Except ScanError (List Token) :=
  match c.error? with
  | none => .ok (c.tokens ++ [Token.eof c.line])
  | some e => .error e

/-- How a scan ended. The token for the end of the input counts, and so does the last line. -/
def summary (c : Cut) : LogRecord :=
  match c.error? with
  | none => .scanned (c.tokens.length + 1) (c.line + 1)
  | some e => .aborted c.tokens.length e

/-- The log of a scan: the tokens that were found, and how the scan ended. -/
def log (c : Cut) : List LogRecord := c.tokens.map LogRecord.token ++ [c.summary]

end Cut

/-- The tokens of a source, the end of the input last. -/
def scan (source : String) : Except ScanError (List Token) := (Cut.ofChars source.toList).scan

/-- The log of scanning a source. -/
def scanLog (source : String) : List LogRecord := (Cut.ofChars source.toList).log

end LoxLexer
