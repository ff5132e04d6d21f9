/-!
# Doubles

Floating-point numbers of sixty-four bits, kept as their bits. The magnitude of a finite double is
a whole number of units of `2 ^ -1074`, so all arithmetic on it is exact arithmetic on natural
numbers: `Double.nearest` rounds a quotient to the nearest double by integer division, and equality
is decided on the bits.

The bits below the sign order the magnitudes: a larger magnitude has larger bits, and the bits just
above those of the largest finite double are the bits of infinity. Rounding up to the next power of
two therefore carries into the exponent field by itself, and overflow is a minimum with the bits of
infinity.

## Key results

- `Double.magnitude_nearest`: the magnitude bits of a rounded quotient
-/

namespace LoxLexer

-- Powers of natural numbers are those of the core library, whatever else is imported.
attribute [local instance (high)] instPowNat

/-! ## Rounded division -/

/-- Where a value goes that lies halfway between its two neighbours. -/
inductive Tie where
  /-- To the greater neighbour. -/
  | up
  /-- To the even neighbour. -/
  | toEven
deriving DecidableEq

/-- The whole number nearest to `num / den`, for `den` positive. -/
def roundDiv (tie : Tie) (num den : Nat) : Nat :=
  let quotient := num / den
  let twice := 2 * (num % den)
  if twice < den then quotient
  else if den < twice then quotient + 1
  else match tie with
    | .up => quotient + 1
    | .toEven => quotient + quotient % 2

/-! ## Doubles and their parts -/

/-- A floating-point number: a sign bit, eleven bits of exponent, fifty-two bits of fraction. -/
structure Double where
  /-- The bits, the sign highest. -/
  bits : UInt64

namespace Double

/-- The number of bits below the sign. -/
abbrev magnitudeBits : Nat := 63

/-- The number of bits below the exponent. -/
abbrev fractionBits : Nat := 52

/-- How many times a unit has to be doubled to give one. -/
abbrev unitBits : Nat := 1074

/-- The magnitude bits of infinity: an exponent of ones over a zero fraction. -/
def infinityMagnitude : Nat := 2047 * 2 ^ fractionBits

/-- All bits but the sign. -/
def magnitude (x : Double) : Nat := x.bits.toNat % 2 ^ magnitudeBits

/-- Whether the sign bit is set. -/
def isNegative (x : Double) : Bool := 2 ^ magnitudeBits ≤ x.bits.toNat

/-- Whether the number is neither infinite nor not-a-number. -/
def isFinite (x : Double) : Bool := x.magnitude < infinityMagnitude

/-- Whether the bits stand for no number. -/
def isNaN (x : Double) : Bool := infinityMagnitude < x.magnitude

/-- Two doubles are equal as numbers: not-a-number differs from itself, and both zeros agree. -/
instance : BEq Double where
  beq x y := !x.isNaN && !y.isNaN && (x.bits == y.bits || (x.magnitude == 0 && y.magnitude == 0))

/-- The number of units of `2 ^ -1074` in a finite magnitude. -/
def units (magnitude : Nat) : Nat :=
  let exponent := magnitude / 2 ^ fractionBits
  let fraction := magnitude % 2 ^ fractionBits
  if exponent = 0 then fraction else (2 ^ fractionBits + fraction) * 2 ^ (exponent - 1)

/-! ## Rounding to the nearest double -/

/-- The magnitude bits of the double nearest to `num / den`, ties to even, for `den` positive. -/
def nearestMagnitude (num den : Nat) : Nat :=
  let scaled := num * 2 ^ unitBits
  -- Of the significant bits of the quotient only as many are kept as a significand has.
  let shift := (scaled / den).log2 - fractionBits
  min infinityMagnitude (shift * 2 ^ fractionBits + roundDiv .toEven scaled (den * 2 ^ shift))

/-- The double nearest to `num / den`, ties to even, for `den` positive. -/
def nearest (num den : Nat) : Double :=
  ⟨UInt64.ofNat (nearestMagnitude num den)⟩

theorem nearestMagnitude_le (num den : Nat) : nearestMagnitude num den ≤ infinityMagnitude :=
  Nat.min_le_left ..

/-- The magnitude bits of a rounded quotient. -/
@[simp] theorem magnitude_nearest (num den : Nat) :
    (nearest num den).magnitude = nearestMagnitude num den := by
  -- The rounded magnitude is no more than that of infinity, so no bit of it is cut off.
  have h := nearestMagnitude_le num den
  simp only [infinityMagnitude, fractionBits] at h
  simp only [magnitude, magnitudeBits, nearest, UInt64.toNat_ofNat']
  omega

end Double

end LoxLexer
