import LoxLexer.Scan

/-!
# Walking over the bytes of a source

A scanner that reads a source byte by byte, with a cursor that it moves past one byte at a time. It
looks at no character until it takes bytes between two positions as a text, which has a result only
if both positions are boundaries of characters.

A walk notes everything it does that could go wrong: where the cursor moves, the sums that it counts
with, the bytes that it takes as texts, the texts that it reads as numbers, and the items that it
scans. It has no result if it takes bytes that are no text, or reads a text that is no number, or if
a loop goes round more often than the source has bytes. It also notes the records that it logs, each
where the log gets it: of a token when the token is found, of the end when the walk has ended.

`LoxLexer.Proofs.Bytewise.Safety` shows that a walk over any source has the result of `scan` and the
log of `scanLog`.
-/

namespace LoxLexer.Bytewise

/-! ## Walks -/

/-- Where a walk is in the bytes of a source. -/
structure Cursor where
  /-- The first byte of the item that is being scanned. -/
  start : Nat
  /-- The next byte. -/
  pos : Nat
  /-- The line on which the item begins. -/
  startLine : Nat
  /-- The line of the next byte. -/
  line : Nat

/-- The cursor in front of a source. -/
def Cursor.origin : Cursor := ⟨0, 0, 0, 0⟩

/-- What a walk does. -/
inductive Event where
  /-- The cursor moves. -/
  | moved (c : Cursor)
  /-- A position or a line is counted up. -/
  | counted (sum : Nat)
  /-- The bytes between two positions are taken as a text. -/
  | sliced (first last : Nat)
  /-- A text is read as a number. -/
  | parsed (text : List Char)
  /-- An item is scanned from one position to another. -/
  | scanned (before after : Nat)
  /-- A record is added to the log. -/
  | logged (r : LogRecord)

/-- The record that is added to the log, if one is. -/
def Event.record? : Event → Option LogRecord
  | .logged r => some r
  | _ => none

/-- The cursor of a walk and what the walk has done, the latest last. -/
structure Walker where
  cursor : Cursor
  events : List Event

/-- A walk that has begun. -/
def Walker.fresh : Walker := ⟨.origin, [.moved .origin]⟩

/-- A walk, which may have no result. -/
abbrev Walk := StateT Walker Option

/-- Notes what the walk does. -/
def note (e : Event) : Walk Unit :=
  modify fun ⟨cursor, events⟩ => ⟨cursor, events ++ [e]⟩

/-- The cursor of the walk. -/
def cursor : Walk Cursor := do
  return (← get).cursor

/-- Moves the cursor. -/
def moveTo (c : Cursor) : Walk Unit := do
  modify fun ⟨_, events⟩ => ⟨c, events⟩
  note (.moved c)

/-- Counts a position or a line up. -/
def next (n : Nat) : Walk Nat := do
  note (.counted (n + 1))
  return n + 1

/-- Moves the cursor past a byte. -/
def advance : Walk Unit := do
  let c ← cursor
  moveTo { c with pos := ← next c.pos }

/-- Counts a line feed. -/
def nextLine : Walk Unit := do
  let c ← cursor
  moveTo { c with line := ← next c.line }

/-- Takes a step again and again, as long as it says that there is more. It has no result if it goes
    round too often. -/
def loop : Nat → Walk Bool → Walk Unit
  | 0, _ => failure
  | rounds + 1, step => do
    if ← step then
      loop rounds step

/-! ## Reading bytes -/

section Source

variable (source : String)

/-- The byte at a position, unless that is the end. -/
def byteAt (i : Nat) : Option UInt8 := source.toUTF8.data.toList[i]?

/-- The next byte. -/
def peek : Walk (Option UInt8) := do
  return byteAt source (← cursor).pos

/-- The byte after the next. -/
def peekSecond : Walk (Option UInt8) := do
  return byteAt source (← next (← cursor).pos)

/-- Reads the next byte. -/
def bump : Walk (Option UInt8) := do
  match ← peek source with
  | none => return none
  | some b =>
    advance
    return some b

/-- Reads the next byte if it is one of certain characters, and says whether it is. -/
def eatIf (p : Char → Bool) : Walk Bool := do
  match ← peek source with
  | none => return false
  | some b =>
    if p (Char.ofUInt8 b) then
      advance
      return true
    else
      return false

/-- Reads the next byte if it is this character. -/
def eat (c : Char) : Walk Bool := eatIf source (· = c)

/-- A loop goes round once for each byte at most, and once more where it ends. -/
def rounds : Nat := source.utf8ByteSize + 1

/-- Reads bytes as long as they are certain characters. -/
def eatWhile (p : Char → Bool) : Walk Unit := loop (rounds source) (eatIf source p)

/-- The text between two positions, if they are in order and stand between characters. -/
def slice? (first last : Nat) : Option String :=
  if first ≤ last ∧ String.Pos.Raw.IsValid source ⟨first⟩ ∧
      -- Between two boundaries of characters the bytes are UTF-8, so that only the test can fail.
      String.Pos.Raw.IsValid source ⟨last⟩ then
    String.fromUTF8? (source.toUTF8.extract first last)
  else none

/-- Takes the bytes between two positions as a text. -/
def slice (first last : Nat) : Walk String := do
  note (.sliced first last)
  slice? source first last

/-- The text that the walk has read since the item began. -/
def lexeme : Walk String := do
  let c ← cursor
  slice source c.start c.pos

/-! ## Scanning items -/

/-- What becomes of an item: its token, nothing if it is trivia, or an error. -/
abbrev ItemResult := Except ScanError (Option Token)

/-- Makes a token of what the walk has read. -/
def token (kind : Kind) (literal : Option Literal) : Walk ItemResult := do
  let text ← lexeme source
  return .ok (some ⟨kind, text, literal, (← cursor).startLine⟩)

/-- A symbol that has been read. -/
def symbol (s : Symbol) : Walk ItemResult := token source (.symbol s) none

/-- A symbol that has been read, or a longer one if an equals sign follows. -/
def symbolBeforeEqual (s withEqual : Symbol) : Walk ItemResult := do
  if ← eat source '=' then
    symbol source withEqual
  else
    symbol source s

/-- A symbol for division, or a comment up to the end of its line. -/
def slash : Walk ItemResult := do
  if ← eat source '/' then
    eatWhile source (· ≠ '\n')
    return .ok none
  else
    symbol source .slash

/-- Counts a byte if it is a line feed. -/
def countLineFeed (b : UInt8) : Walk Unit :=
  if Char.ofUInt8 b = '\n' then nextLine else return

/-- Reads a byte of a string, if it is no quote, and counts it if it is a line feed. -/
def eatOfString : Walk Bool := do
  match ← peek source with
  | none => return false
  | some b =>
    if Char.ofUInt8 b = '"' then
      return false
    else
      countLineFeed b
      advance
      return true

/-- Reads up to a quote, and counts the line feeds. -/
def eatString : Walk Unit := loop (rounds source) (eatOfString source)

/-- A string whose opening quote has been read. -/
def string : Walk ItemResult := do
  eatString source
  if ← eat source '"' then
    let c ← cursor
    -- The quotes are not part of the value.
    let value ← slice source (← next c.start) (c.pos - 1)
    token source .string (some (.text value))
  else
    return .error (.unterminatedString (← cursor).line)

/-- The numeral that is written by a text: digits, or digits, a point and digits. -/
def numeral? (text : List Char) : Option Numeral :=
  let n := Numeral.span text
  -- The numeral has to be the whole text.
  if n.whole ≠ [] ∧ n.text = text then some n else none

/-- Reads a text as a number. -/
def parse (text : String) : Walk Double := do
  note (.parsed text.toList)
  let n ← numeral? text.toList
  return n.value

/-- Reads a point and the digits behind it. A point without a digit behind it is not read. -/
def eatFraction : Walk Unit := do
  if (← peek source) = some '.'.toUInt8 then
    -- The byte behind the point is looked at before the point is read.
    if ((← peekSecond source).any fun b => (Char.ofUInt8 b).isDigit) then
      advance
      eatWhile source Char.isDigit

/-- A number whose first digit has been read. -/
def number : Walk ItemResult := do
  eatWhile source Char.isDigit
  eatFraction source
  let value ← parse (← lexeme source)
  token source .number (some (.number value))

/-- A keyword or an identifier whose first letter has been read. -/
def word : Walk ItemResult := do
  eatWhile source Piece.continuesWord
  let kind := ((Keyword.ofText? (← lexeme source)).map Kind.keyword).getD .identifier
  token source kind none

/-- A character that begins no item. It is read as a whole, as only its first byte has been. -/
def unexpected : Walk ItemResult := do
  let c ← cursor
  -- How many bytes the character has is not known, so everything behind its first byte is taken.
  let rest ← slice source c.start source.utf8ByteSize
  return .error (.unexpectedCharacter c.line (rest.toList.head?.getD '\uFFFD'))

/-- An item whose first byte has been read. -/
def itemFrom (c : Char) : Walk ItemResult :=
  match c with
  | '(' => symbol source .leftParen
  | ')' => symbol source .rightParen
  | '{' => symbol source .leftBrace
  | '}' => symbol source .rightBrace
  | ',' => symbol source .comma
  | '.' => symbol source .dot
  | '-' => symbol source .minus
  | '+' => symbol source .plus
  | ';' => symbol source .semicolon
  | '*' => symbol source .star
  | '!' => symbolBeforeEqual source .bang .bangEqual
  | '=' => symbolBeforeEqual source .equal .equalEqual
  | '<' => symbolBeforeEqual source .less .lessEqual
  | '>' => symbolBeforeEqual source .greater .greaterEqual
  | '/' => slash source
  | ' ' | '\r' | '\t' => return .ok none
  | '\n' => do
    nextLine
    return .ok none
  | '"' => string source
  | c =>
    if c.isDigit then number source
    else if Piece.beginsWord c then word source
    else unexpected source

/-- Scans an item. -/
def item : Walk ItemResult := do
  match ← bump source with
  | none => return .ok none
  | some b => itemFrom source (Char.ofUInt8 b)

/-! ## Scanning a source -/

/-- Logs what became of an item, if that is a token or an error, behind so many tokens. -/
def logItem (found : Nat) : ItemResult → Walk Unit
  | .ok (some t) => note (.logged (.token t))
  | .ok none => return
  | .error e => note (.logged (.aborted found e))

/-- Scans items up to the end or an error, behind tokens that are already known. It has no result if
    it goes round too often. -/
def itemsAfter : Nat → List Token → Walk (Except ScanError (List Token))
  | 0, _ => failure
  | rounds + 1, tokens => do
    let c ← cursor
    if c.pos < source.utf8ByteSize then
      moveTo { c with start := c.pos, startLine := c.line }
      let result ← item source
      note (.scanned c.pos (← cursor).pos)
      logItem tokens.length result
      match result with
      | .ok t => itemsAfter rounds (tokens ++ t.toList)
      | .error e => return .error e
    else
      let all := tokens ++ [Token.eof c.line]
      -- The lines that were passed, and the last one, are counted for the log.
      note (.logged (.scanned all.length (← next c.line)))
      return .ok all

/-- Scans a source byte by byte, and tells everything that is done. -/
def walk : Option (Except ScanError (List Token) × List Event) :=
  ((itemsAfter source (rounds source) []).run .fresh).map fun (result, w) => (result, w.events)

end Source

end LoxLexer.Bytewise
