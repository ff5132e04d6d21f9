import LoxLexer.Double

/-!
# Decimal numerals

A numeral is a run of decimal digits, with or without a fraction behind a point. Its value is the
double nearest to the number it writes.

## Key results

- `Numeral.digitsValue_eq`: the value of a run of digits, summed by halves, is its usual value
- `Numeral.span_eq_text_append`: the numeral at the front of a text stands there
-/

namespace LoxLexer

-- Powers of natural numbers are those of the core library, whatever else is imported.
attribute [local instance (high)] instPowNat

/-- Digits before and after a point; without a point there are no digits after it. -/
structure Numeral where
  whole : List Char
  fraction : List Char

namespace Numeral

/-! ## Text -/

/-- The point and the digits behind it, or nothing. -/
def tail (n : Numeral) : List Char :=
  match n.fraction with
  | [] => []
  | digits@(_ :: _) => '.' :: digits

/-- The characters of the numeral. -/
def text (n : Numeral) : List Char := n.whole ++ n.tail

/-- The longest numeral at the front of a text: a point belongs to it only before a digit. -/
def span (cs : List Char) : Numeral where
  whole := cs.takeWhile Char.isDigit
  fraction := match cs.dropWhile Char.isDigit with
    | '.' :: rest => rest.takeWhile Char.isDigit
    | _ => []

/-- The numeral at the front of a text stands there. -/
theorem span_eq_text_append (cs : List Char) : ∃ rest, cs = (span cs).text ++ rest := by
  have hcut := List.takeWhile_append_dropWhile (p := Char.isDigit) (l := cs)
  -- With a fraction the digits are split twice, at the point and behind the fraction.
  simp only [text, tail, span]
  split
  · exact ⟨cs.dropWhile Char.isDigit, by rw [List.append_nil, hcut]⟩
  · rename_i digits d ds hdigits
    split at hdigits
    · rename_i rest hrest
      have hsplit := List.takeWhile_append_dropWhile (p := Char.isDigit) (l := rest)
      exact ⟨rest.dropWhile Char.isDigit, by
        rw [List.append_assoc, List.cons_append, ← hdigits, hsplit, ← hrest, hcut]⟩
    · cases hdigits

/-! ## Value -/

/-- The number that a run of digits writes, summed by halves, so that long runs cost little. -/
def digitsValue (digits : List Char) : Nat :=
  if digits.length ≤ 16 then Nat.ofDigitChars 10 digits 0
  else
    let middle := digits.length / 2
    digitsValue (digits.take middle) * 10 ^ (digits.length - middle)
      + digitsValue (digits.drop middle)
termination_by digits.length
decreasing_by all_goals simp only [List.length_take, List.length_drop]; omega

/-- Summing by halves gives the usual value. -/
theorem digitsValue_eq (digits : List Char) :
    digitsValue digits = Nat.ofDigitChars 10 digits 0 := by
  fun_induction digitsValue digits with
  | case1 digits _ => rfl
  | case2 digits _ middle ihFront ihBack =>
    -- The front half counts as often as there are numbers with the digits of the back half.
    conv => rhs; rw [← List.take_append_drop middle digits, Nat.ofDigitChars_append,
      Nat.ofDigitChars_eq_ofDigitChars_zero]
    rw [ihFront, ihBack, List.length_drop, Nat.mul_comm]

/-- The numerator of the number that the numeral writes. -/
def num (n : Numeral) : Nat := digitsValue (n.whole ++ n.fraction)

/-- The denominator of the number that the numeral writes. -/
def den (n : Numeral) : Nat := 10 ^ n.fraction.length

/-- The double nearest to the number that the numeral writes, ties to even. -/
def value (n : Numeral) : Double := Double.nearest n.num n.den

end Numeral

end LoxLexer
