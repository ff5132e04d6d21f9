import LoxLexer.Double.Decimal

/-!
# Reading JSON

A reader of JSON texts: values with blanks between their parts, strings with their escapes, and
numbers as they are written, with what they denote. A text is read as a whole or not at all.

Nothing here knows how records are written. `LoxLexer.Proofs.Json.Roundtrip` shows that this reader
gives back what was written.
-/

namespace LoxLexer.Json

-- Powers of natural numbers are those of the core library, whatever else is imported.
attribute [local instance (high)] instPowNat

/-! ## Numbers -/

/-- A number as it is written. -/
structure Number where
  negative : Bool
  /-- The digits before the point. -/
  whole : List Char
  /-- The digits behind the point, if there is a point. -/
  fraction : Option (List Char)
  /-- The exponent, if there is one. -/
  exponent : Option Int

namespace Number

/-- Whether the number is written without a point and without an exponent. -/
def isInteger (n : Number) : Bool := n.fraction.isNone && n.exponent.isNone

/-- The natural number that is written as an integer without a sign. -/
def natural? (n : Number) : Option Nat :=
  if n.isInteger && !n.negative then some (Nat.ofDigitChars 10 n.whole 0) else none

/-- The number without its sign. -/
def decimal (n : Number) : Decimal :=
  let fraction := n.fraction.getD []
  ⟨Nat.ofDigitChars 10 (n.whole ++ fraction) 0, n.exponent.getD 0 - fraction.length⟩

/-- The double with the sign of the number that is nearest to it, ties to even. -/
def double (n : Number) : Double :=
  let magnitude := Double.nearestMagnitude n.decimal.num n.decimal.den
  ⟨UInt64.ofNat (if n.negative then 2 ^ Double.magnitudeBits + magnitude else magnitude)⟩

end Number

/-! ## Values -/

/-- A value. The members of an object are in order. -/
inductive Value where
  | null
  | bool (value : Bool)
  | number (n : Number)
  | string (content : String)
  | array (items : List Value)
  | object (members : List (String × Value))

namespace Read

/-! ## Reading numbers -/

/-- One digit or more. -/
def digits (cs : List Char) : Option (List Char × List Char) :=
  match cs.takeWhile Char.isDigit with
  | [] => none
  | ds@(_ :: _) => some (ds, cs.dropWhile Char.isDigit)

/-- The digits before the point. A zero is not followed by digits. -/
def whole : List Char → Option (List Char × List Char)
  | '0' :: cs => some (['0'], cs)
  | cs => digits cs

/-- The digits behind the point, if there is a point. -/
def fraction : List Char → Option (Option (List Char) × List Char)
  | '.' :: cs => do
    let (ds, cs) ← digits cs
    return (some ds, cs)
  | cs => some (none, cs)

/-- A whole number with a sign or without. -/
def integer : List Char → Option (Int × List Char)
  | '-' :: cs => do
    let (ds, cs) ← digits cs
    return (-(Nat.ofDigitChars 10 ds 0 : Int), cs)
  | '+' :: cs => do
    let (ds, cs) ← digits cs
    return ((Nat.ofDigitChars 10 ds 0 : Int), cs)
  | cs => do
    let (ds, cs) ← digits cs
    return ((Nat.ofDigitChars 10 ds 0 : Int), cs)

/-- The exponent, if there is one. -/
def exponent : List Char → Option (Option Int × List Char)
  | 'e' :: cs | 'E' :: cs => do
    let (e, cs) ← integer cs
    return (some e, cs)
  | cs => some (none, cs)

/-- A number without a sign. -/
def unsigned (negative : Bool) (cs : List Char) : Option (Number × List Char) := do
  let (whole, cs) ← whole cs
  let (fraction, cs) ← fraction cs
  let (exponent, cs) ← exponent cs
  return (⟨negative, whole, fraction, exponent⟩, cs)

/-- A number. -/
def number : List Char → Option (Number × List Char)
  | '-' :: cs => unsigned true cs
  | cs => unsigned false cs

/-! ## Reading strings -/

/-- The value of a hexadecimal digit. -/
def hexDigit (c : Char) : Option Nat :=
  if c.isDigit then some (c.toNat - '0'.toNat)
  else if 'a' ≤ c ∧ c ≤ 'f' then some (c.toNat - 'a'.toNat + 10)
  else if 'A' ≤ c ∧ c ≤ 'F' then some (c.toNat - 'A'.toNat + 10)
  else none

/-- Four hexadecimal digits. -/
def codeUnit : List Char → Option (Nat × List Char)
  | a :: b :: c :: d :: cs => do
    let high := 16 * (← hexDigit a) + (← hexDigit b)
    let low := 16 * (← hexDigit c) + (← hexDigit d)
    return (256 * high + low, cs)
  | _ => none

/-- A code unit behind its own backslash. -/
def escapedUnit : List Char → Option (Nat × List Char)
  | '\\' :: 'u' :: cs => codeUnit cs
  | _ => none

/-- Whether a code unit is the first half of a character. -/
def isFirstHalf (unit : Nat) : Bool := 0xD800 ≤ unit && unit < 0xDC00

/-- Whether a code unit is the second half of a character. -/
def isSecondHalf (unit : Nat) : Bool := 0xDC00 ≤ unit && unit < 0xE000

/-- A character by its code. Beyond the first `2 ^ 16` characters it is written in two halves. -/
def unicode (cs : List Char) : Option (Char × List Char) := do
  let (unit, cs) ← codeUnit cs
  if isFirstHalf unit then
    let (second, cs) ← escapedUnit cs
    if isSecondHalf second then
      return (Char.ofNat (0x10000 + (unit - 0xD800) * 0x400 + (second - 0xDC00)), cs)
    else none
  else if isSecondHalf unit then none
  else return (Char.ofNat unit, cs)

/-- A character behind a backslash. -/
def escaped : List Char → Option (Char × List Char)
  | '"' :: cs => some ('"', cs)
  | '\\' :: cs => some ('\\', cs)
  | '/' :: cs => some ('/', cs)
  | 'b' :: cs => some ('\x08', cs)
  | 'f' :: cs => some ('\x0c', cs)
  | 'n' :: cs => some ('\n', cs)
  | 'r' :: cs => some ('\r', cs)
  | 't' :: cs => some ('\t', cs)
  | 'u' :: cs => unicode cs
  | _ => none

theorem length_codeUnit_lt {cs rest : List Char} {unit : Nat}
    (h : codeUnit cs = some (unit, rest)) : rest.length < cs.length := by
  unfold codeUnit at h
  split at h
  -- Four characters are taken off.
  · simp only [Option.bind_eq_bind, Option.bind_eq_some_iff] at h
    obtain ⟨_, _, _, _, _, _, _, _, hrest⟩ := h
    cases hrest
    simp only [List.length_cons]
    omega
  · cases h

theorem length_escapedUnit_lt {cs rest : List Char} {unit : Nat}
    (h : escapedUnit cs = some (unit, rest)) : rest.length < cs.length := by
  unfold escapedUnit at h
  split at h
  · have hlt := length_codeUnit_lt h
    simp only [List.length_cons]
    omega
  · cases h

theorem length_unicode_lt {cs rest : List Char} {c : Char} (h : unicode cs = some (c, rest)) :
    rest.length < cs.length := by
  unfold unicode at h
  rw [Option.bind_eq_bind, Option.bind_eq_some_iff] at h
  obtain ⟨⟨unit, after⟩, hunit, h⟩ := h
  have hlt := length_codeUnit_lt hunit
  dsimp only at h
  -- A second half is read behind the first, and only if the first is one.
  cases hfirst : isFirstHalf unit with
  | true =>
    rw [hfirst, if_pos rfl, Option.bind_eq_some_iff] at h
    obtain ⟨⟨second, behind⟩, hsecond, h⟩ := h
    have hlt' := length_escapedUnit_lt hsecond
    cases hhalf : isSecondHalf second with
    | true =>
      rw [hhalf, if_pos rfl] at h
      obtain rfl := (Prod.mk.inj (Option.some.inj h)).2
      exact Nat.lt_trans hlt' hlt
    | false =>
      rw [hhalf] at h
      cases h
  | false =>
    cases hhalf : isSecondHalf unit with
    | true =>
      rw [hfirst, hhalf] at h
      cases h
    | false =>
      rw [hfirst, hhalf] at h
      obtain rfl := (Prod.mk.inj (Option.some.inj h)).2
      exact hlt

/-- What is left behind an escape is shorter. -/
theorem length_escaped_lt {cs rest : List Char} {c : Char} (h : escaped cs = some (c, rest)) :
    rest.length < cs.length := by
  unfold escaped at h
  split at h
  -- The eight short escapes take off one character each, and a code takes off more than that.
  case h_9 => exact Nat.lt_succ_of_lt (length_unicode_lt h)
  case h_10 => cases h
  all_goals
    cases h
    exact Nat.lt_succ_self _

/-- The characters up to a quote. Control characters have to be escaped. -/
def characters (cs : List Char) : Option (List Char × List Char) :=
  match cs with
  | [] => none
  | '"' :: cs => some ([], cs)
  | '\\' :: cs =>
    match _h : escaped cs with
    | none => none
    | some (c, rest) => do
      let (content, rest) ← characters rest
      return (c :: content, rest)
  | c :: cs =>
    if c.toNat < 32 then none
    else do
      let (content, rest) ← characters cs
      return (c :: content, rest)
termination_by cs.length
decreasing_by
  · have := length_escaped_lt _h
    simp only [List.length_cons]
    omega
  · simp

/-- A string behind its quote. -/
def string (cs : List Char) : Option (String × List Char) := do
  let (content, rest) ← characters cs
  return (String.ofList content, rest)

/-! ## Reading values -/

/-- Blanks are passed over. -/
def skip (cs : List Char) : List Char := cs.dropWhile Char.isWhitespace

mutual

/-- A value with blanks before it. The bound is on the parts that are begun one inside or behind
    another, of which a text has no more than characters. -/
def value (bound : Nat) (cs : List Char) : Option (Value × List Char) :=
  match bound with
  | 0 => none
  | bound + 1 =>
    match skip cs with
    | '{' :: cs =>
      match skip cs with
      | '}' :: cs => some (.object [], cs)
      | _ => do
        let (members, cs) ← members bound cs
        return (.object members, cs)
    | '[' :: cs =>
      match skip cs with
      | ']' :: cs => some (.array [], cs)
      | _ => do
        let (items, cs) ← items bound cs
        return (.array items, cs)
    | '"' :: cs => do
      let (content, cs) ← string cs
      return (.string content, cs)
    | 'n' :: 'u' :: 'l' :: 'l' :: cs => some (.null, cs)
    | 't' :: 'r' :: 'u' :: 'e' :: cs => some (.bool true, cs)
    | 'f' :: 'a' :: 'l' :: 's' :: 'e' :: cs => some (.bool false, cs)
    | cs => do
      let (n, cs) ← number cs
      return (.number n, cs)

/-- The items of an array, up to its end. -/
def items (bound : Nat) (cs : List Char) : Option (List Value × List Char) :=
  match bound with
  | 0 => none
  | bound + 1 => do
    let (item, cs) ← value bound cs
    match skip cs with
    | ',' :: cs =>
      let (others, cs) ← items bound cs
      return (item :: others, cs)
    | ']' :: cs => return ([item], cs)
    | _ => none

/-- The members of an object, up to its end. -/
def members (bound : Nat) (cs : List Char) : Option (List (String × Value) × List Char) :=
  match bound with
  | 0 => none
  | bound + 1 =>
    match skip cs with
    | '"' :: cs => do
      let (name, cs) ← string cs
      match skip cs with
      | ':' :: cs =>
        let (content, cs) ← value bound cs
        match skip cs with
        | ',' :: cs =>
          let (others, cs) ← members bound cs
          return ((name, content) :: others, cs)
        | '}' :: cs => return ([(name, content)], cs)
        | _ => none
      | _ => none
    | _ => none

end

end Read

/-- The value that a text writes. -/
def read? (text : String) : Option Value := do
  let (v, rest) ← Read.value (text.toList.length + 1) text.toList
  if Read.skip rest = [] then some v else none

end LoxLexer.Json
