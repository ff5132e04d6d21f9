import LoxLexer.Double.Decimal

/-!
# Writing doubles

A style says how the shortest decimal of a double is laid out: which leading exponents are written
positionally, what stands before a positive exponent, and how ties between digits are broken. A
positional number always has a fractional digit, and a number with an exponent has a point only
between its digits.
-/

namespace LoxLexer

/-- How finite numbers are written. -/
structure NumberStyle where
  /-- Which of two equally near decimals is written. -/
  tie : Tie
  /-- The least leading exponent that is written positionally. -/
  least : Int
  /-- The leading exponent from which numbers are no longer written positionally. -/
  bound : Int
  /-- The sign before an exponent that is not negative. -/
  plus : String

namespace NumberStyle

/-- Digits around a point, the first digit having the given exponent. -/
def positional (digits : List Char) (exponent : Int) : List Char :=
  if exponent < 0 then
    '0' :: '.' :: List.replicate (-exponent - 1).toNat '0' ++ digits
  else
    let whole := exponent.toNat + 1
    let padded := digits ++ List.replicate (whole - digits.length) '0'
    -- Where no digit is left for behind the point, a zero stands there.
    padded.take whole ++ '.' :: (if padded.length ≤ whole then ['0'] else padded.drop whole)

/-- One digit, the others behind a point, and the exponent of the first. -/
def scientific (plus : String) (digits : List Char) (exponent : Int) : List Char :=
  let mantissa := match digits with
    | first :: others@(_ :: _) => first :: '.' :: others
    | _ => digits
  mantissa ++ 'e' :: (if exponent < 0 then "-" else plus).toList
    ++ Nat.toDigits 10 exponent.natAbs

/-- The text of a decimal. -/
def layOut (style : NumberStyle) (d : Decimal) : List Char :=
  let exponent := d.leadingExponent
  if style.least ≤ exponent ∧ exponent < style.bound then positional d.digits exponent
  else scientific style.plus d.digits exponent

/-- The text of a finite double. -/
def render (style : NumberStyle) (x : Double) : String :=
  String.ofList ((if x.isNegative then ['-'] else [])
    ++ style.layOut (Double.shortest style.tie x.magnitude))

/-- The style of listings: numbers are positional from `0.0001` to below `1e16`. -/
def plain : NumberStyle := ⟨.up, -4, 16, ""⟩

end NumberStyle

/-- The text of a double in listings. -/
def Double.display (x : Double) : String :=
  if x.isNaN then "NaN"
  else if x.isFinite then NumberStyle.plain.render x
  else if x.isNegative then "-inf"
  else "inf"

end LoxLexer
