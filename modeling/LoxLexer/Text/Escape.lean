import LoxLexer.Text.Unprintable

/-!
# Escaped text

Text between quotes, with backslash escapes for the quote itself, for backslashes, for the common
control characters, and for every character that cannot be shown by itself.
-/

namespace LoxLexer

/-- A character as it is written between two `quote` characters. -/
def escapeIn (quote c : Char) : List Char :=
  if c = '\x00' then ['\\', '0']
  else if c = '\t' then ['\\', 't']
  else if c = '\n' then ['\\', 'n']
  else if c = '\r' then ['\\', 'r']
  else if c = '\\' then ['\\', '\\']
  else if c = quote then ['\\', c]
  else if isUnprintable c then
    '\\' :: 'u' :: '{' :: Nat.toDigits 16 c.toNat ++ ['}']
  else [c]

/-- Characters between two quotes. -/
def quotedBy (quote : Char) (cs : List Char) : String :=
  String.ofList (quote :: cs.flatMap (escapeIn quote) ++ [quote])

end LoxLexer
