import LoxLexer.Double

/-!
# Shortest decimals

The decimal that a double is written as: the fewest digits that read back to the same double, and
of those the nearest to its value. For a number of digits, `Double.onGrid?` tests the two neighbours
of the value on the grid of decimals with that many digits. If any decimal of the grid reads back,
so does one of the two, because the decimals that read back form an interval around the value. Each
grid lies within the next finer one, so `Double.shortest` finds the coarsest by halving.

## Key results

- `leastFound_eq_some`: what `leastFound` gives, the search found
- `Double.readsBack_of_shortestFound`: a decimal that is found reads back
-/

namespace LoxLexer

-- Powers of natural numbers are those of the core library, whatever else is imported.
attribute [local instance (high)] instPowNat

/-! ## Decimals -/

/-- The number `coefficient * 10 ^ exponent`. -/
structure Decimal where
  coefficient : Nat
  exponent : Int

namespace Decimal

/-- The numerator of the decimal as a fraction. -/
def num (d : Decimal) : Nat := d.coefficient * 10 ^ d.exponent.toNat

/-- The denominator of the decimal as a fraction. -/
def den (d : Decimal) : Nat := 10 ^ (-d.exponent).toNat

/-- The digits of the coefficient. -/
def digits (d : Decimal) : List Char := Nat.toDigits 10 d.coefficient

/-- The exponent of the first digit. -/
def leadingExponent (d : Decimal) : Int := d.exponent + d.digits.length - 1

/-- The same number without zeros at the end of the coefficient. -/
def stripZeros (d : Decimal) : Decimal :=
  if 0 < d.coefficient ∧ d.coefficient % 10 = 0 then
    stripZeros ⟨d.coefficient / 10, d.exponent + 1⟩
  else d
termination_by d.coefficient
decreasing_by omega

/-- Whether the decimal is rounded to the double of these magnitude bits. -/
def readsBack (magnitude : Nat) (d : Decimal) : Bool :=
  Double.nearestMagnitude d.num d.den == magnitude

end Decimal

/-! ## The shortest decimal -/

/-- What a search finds for the least argument from `low` to below `high`, or else `best`. Success
    for an argument has to bring success for all greater ones, so the arguments can be halved. -/
def leastFound (find? : Nat → Option α) (best : Option α) (low high : Nat) : Option α :=
  if low < high then
    let middle := (low + high) / 2
    match find? middle with
    | some found => leastFound find? (some found) low middle
    | none => leastFound find? best (middle + 1) high
  else best
termination_by high - low

/-- What is found was found for some argument. -/
theorem leastFound_eq_some {find? : Nat → Option α} {best : Option α} {low high : Nat} {found : α}
    (h : leastFound find? best low high = some found) :
    best = some found ∨ ∃ n, find? n = some found := by
  -- By the recursion of the search: each step keeps what it had, or takes what it has just found.
  fun_induction leastFound find? best low high with
  | case1 best low high _ middle first hfirst ih =>
    rcases ih h with heq | hn
    · exact .inr ⟨middle, hfirst.trans heq⟩
    · exact .inr hn
  | case2 best low high _ middle _ ih => exact ih h
  | case3 => exact .inl h

namespace Double

/-- Of the two decimals with exponent `e` around a magnitude, the nearer that reads back. -/
def onGrid? (tie : Tie) (magnitude : Nat) (e : Int) : Option Decimal :=
  let num := units magnitude * 10 ^ (-e).toNat
  let den := 2 ^ unitBits * 10 ^ e.toNat
  let below := num / den
  let near := roundDiv tie num den
  -- The nearer one is tried first, so that it is taken if both read back.
  let far := if near = below then below + 1 else below
  ([near, far].map (Decimal.mk · e)).find? (Decimal.readsBack magnitude)

/-- The exponent of the first digit of a positive magnitude. The logarithm of two to the base ten is
    0.30103, exactly enough for the exponents of doubles, so the power of two below the magnitude
    tells the exponent of its first digit or the one before it. -/
def leadingExponent (magnitude : Nat) : Int :=
  let value := units magnitude
  let guess := ((value.log2 : Int) - unitBits) * 30103 / 100000
  if 2 ^ unitBits * 10 ^ (guess + 1).toNat ≤ value * 10 ^ (-(guess + 1)).toNat then guess + 1
  else guess

/-- The magnitude itself as a decimal: `2 ^ -1074` is `5 ^ 1074 * 10 ^ -1074`. -/
def exactDecimal (magnitude : Nat) : Decimal := ⟨units magnitude * 5 ^ unitBits, -unitBits⟩

/-- The decimal with the fewest digits, seventeen at most, that reads back. A decimal with some
    number of digits is also one with a digit more. -/
def shortestFound? (tie : Tie) (magnitude : Nat) : Option Decimal :=
  let leading := leadingExponent magnitude
  leastFound (fun more => onGrid? tie magnitude (leading - more)) none 0 17

/-- The shortest decimal that reads back to a finite magnitude; `tie` decides between two decimals
    that are equally near. -/
def shortest (tie : Tie) (magnitude : Nat) : Decimal :=
  if magnitude = 0 then ⟨0, 0⟩
  else ((shortestFound? tie magnitude).getD (exactDecimal magnitude)).stripZeros

/-- A decimal that is found reads back. -/
theorem readsBack_of_shortestFound {tie : Tie} {magnitude : Nat} {d : Decimal}
    (h : shortestFound? tie magnitude = some d) : d.readsBack magnitude := by
  rcases leastFound_eq_some h with hnone | ⟨_, hfound⟩
  · cases hnone
  · exact List.find?_some hfound

end Double

end LoxLexer
