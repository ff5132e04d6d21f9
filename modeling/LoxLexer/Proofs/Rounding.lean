import LoxLexer.Double.Decimal
import LoxLexer.Proofs.Nearest

/-!
# Rounding to doubles

A quotient that is the magnitude of a double is rounded to this double: it passes the midpoints
below the magnitude and no others. The shortest decimal of a double is therefore rounded to the
double, however it is written: a decimal that was found reads back, the exact decimal is the value
of the double, and zeros at the end of the digits change no value.

## Key results

- `Double.nearestMagnitude_units`: every finite magnitude is rounded to itself
- `Double.nearestMagnitude_shortest`: the shortest decimal is rounded to its double
-/

namespace LoxLexer

-- Powers of natural numbers are those of the core library, whatever else is imported.
attribute [local instance (high)] instPowNat

namespace Double

/-! ## Magnitudes -/

/-- A double is its sign and its magnitude. -/
theorem bits_eq_ofNat (x : Double) :
    UInt64.ofNat (if x.isNegative then 2 ^ magnitudeBits + x.magnitude else x.magnitude) =
      x.bits := by
  -- The sign is the highest bit, and the magnitude is what the others make.
  have hlt := x.bits.toNat_lt
  rw [← UInt64.toNat_inj]
  simp only [isNegative, magnitude, magnitudeBits, decide_eq_true_eq, UInt64.toNat_ofNat']
  split <;> omega

/-- Doubles are equal if their signs and their magnitudes are. -/
theorem eq_of_magnitude_eq {x y : Double} (hsign : x.isNegative = y.isNegative)
    (hmagnitude : x.magnitude = y.magnitude) : x = y := by
  have hbits : x.bits = y.bits := by rw [← bits_eq_ofNat x, ← bits_eq_ofNat y, hsign, hmagnitude]
  exact congrArg Double.mk hbits

theorem nearestMagnitude_zero {den : Nat} (hden : 0 < den) : nearestMagnitude 0 den = 0 := by
  rw [nearestMagnitude_eq_zero_iff hden, Nat.zero_mul]
  exact Nat.zero_le den

/-- The units of a magnitude pass the midpoints below the magnitude. -/
theorem passesMidpoint_units_iff {m k : Nat} {scale : Nat} (hscale : 0 < scale) :
    PassesMidpoint (units m * scale) scale k ↔ k < m := by
  -- A magnitude lies between the midpoints on both of its sides.
  have hdouble : 2 * (units m * scale) = 2 * units m * scale := (Nat.mul_assoc ..).symm
  rw [PassesMidpoint, hdouble, midpoint]
  rcases Nat.lt_or_ge k m with hlt | hge
  · have hbelow := units_lt_units hlt
    have hnext : units (k + 1) ≤ units m := units_le_units hlt
    exact iff_of_true (.inl ((Nat.mul_lt_mul_right hscale).2 (by omega))) hlt
  · have hnext : units m < units (k + 1) := units_lt_units (Nat.lt_succ_of_le hge)
    have hsame := units_le_units hge
    have hmid : 2 * units m * scale < (units k + units (k + 1)) * scale :=
      (Nat.mul_lt_mul_right hscale).2 (by omega)
    exact iff_of_false (by omega) (Nat.not_lt.2 hge)

/-- Every finite magnitude is rounded to itself. -/
theorem nearestMagnitude_units {magnitude : Nat} (h : magnitude < infinityMagnitude) :
    nearestMagnitude (units magnitude) (2 ^ unitBits) = magnitude := by
  have hpos := Nat.two_pow_pos unitBits
  -- The midpoints below the magnitude are passed, and the one above it is not.
  apply Nat.le_antisymm
  · refine Nat.le_of_not_lt fun hlt => ?_
    have hpasses := ((lt_nearestMagnitude_iff hpos).1 hlt).2
    exact Nat.lt_irrefl _ ((passesMidpoint_units_iff hpos).1 hpasses)
  · refine Nat.le_of_not_lt fun hlt => ?_
    have hpasses := (passesMidpoint_units_iff hpos).2 hlt
    exact Nat.lt_irrefl _ ((lt_nearestMagnitude_iff hpos).2 ⟨Nat.lt_trans hlt h, hpasses⟩)

end Double

/-! ## Decimals -/

namespace Decimal

theorem den_pos (d : Decimal) : 0 < d.den := Nat.pow_pos (by decide)

/-- Two decimals write the same number. -/
def SameValue (d d' : Decimal) : Prop := d.num * d'.den = d'.num * d.den

theorem SameValue.nearestMagnitude_eq {d d' : Decimal} (h : d.SameValue d') :
    Double.nearestMagnitude d.num d.den = Double.nearestMagnitude d'.num d'.den :=
  Double.nearestMagnitude_eq_of_mul_eq d.den_pos d'.den_pos h

theorem SameValue.trans {d d' d'' : Decimal} (h : d.SameValue d') (h' : d'.SameValue d'') :
    d.SameValue d'' := by
  -- Crosswise over the denominator in the middle, which is then taken off again.
  have hpos := d'.den_pos
  have hcross : d.num * d''.den * d'.den = d''.num * d.den * d'.den := by
    calc d.num * d''.den * d'.den = d.num * d'.den * d''.den := Nat.mul_right_comm ..
      _ = d'.num * d''.den * d.den := by rw [h, Nat.mul_right_comm]
      _ = d''.num * d.den * d'.den := by rw [h', Nat.mul_right_comm]
  exact Nat.eq_of_mul_eq_mul_right hpos hcross

/-- Zeros at the end of the coefficient count in the exponent. -/
theorem sameValue_mul_ten_pow (c k : Nat) (e : Int) : SameValue ⟨c * 10 ^ k, e⟩ ⟨c, e + k⟩ := by
  -- Both products have the same power of ten beside the coefficient, whatever signs the exponents
  -- have.
  have hpowers : k + (e.toNat + (-(e + k)).toNat) = (e + k).toNat + (-e).toNat := by omega
  simp only [SameValue, num, den]
  rw [Nat.mul_assoc, Nat.mul_assoc, Nat.mul_assoc, ← Nat.pow_add, ← Nat.pow_add, ← Nat.pow_add,
    hpowers]

theorem sameValue_stripZeros (d : Decimal) : d.SameValue d.stripZeros := by
  -- By the recursion of the definition, one zero at a time.
  fun_induction stripZeros d with
  | case1 d h ih =>
    have hdigits := Nat.div_add_mod' d.coefficient 10
    rw [h.2, Nat.add_zero] at hdigits
    have hstep := sameValue_mul_ten_pow (d.coefficient / 10) 1 d.exponent
    rw [Nat.pow_one, hdigits] at hstep
    exact hstep.trans ih
  | case2 => rfl

end Decimal

namespace Double

/-- The exact decimal of a magnitude is the number of its units. -/
theorem nearestMagnitude_exactDecimal {magnitude : Nat} (h : magnitude < infinityMagnitude) :
    nearestMagnitude (exactDecimal magnitude).num (exactDecimal magnitude).den = magnitude := by
  -- The exponent of the decimal is that of the units in powers of ten, so fives make up for it.
  have hnum : (exactDecimal magnitude).num = units magnitude * 5 ^ unitBits := by
    rw [exactDecimal, Decimal.num, Int.toNat_neg_natCast, Nat.pow_zero, Nat.mul_one]
  have hden : (exactDecimal magnitude).den = 2 ^ unitBits * 5 ^ unitBits := by
    rw [exactDecimal, Decimal.den, Int.neg_neg, Int.toNat_natCast, ← Nat.mul_pow]
  have hpos : 0 < 2 ^ unitBits * 5 ^ unitBits :=
    Nat.mul_pos (Nat.two_pow_pos unitBits) (Nat.pow_pos (by decide))
  have hsame : units magnitude * 5 ^ unitBits * 2 ^ unitBits =
      units magnitude * (2 ^ unitBits * 5 ^ unitBits) := by
    rw [Nat.mul_assoc, Nat.mul_comm (5 ^ unitBits)]
  rw [hnum, hden, nearestMagnitude_eq_of_mul_eq hpos (Nat.two_pow_pos unitBits) hsame,
    nearestMagnitude_units h]

/-- The shortest decimal of a finite magnitude is rounded to it. -/
theorem nearestMagnitude_shortest (tie : Tie) {magnitude : Nat}
    (h : magnitude < infinityMagnitude) :
    nearestMagnitude (shortest tie magnitude).num (shortest tie magnitude).den = magnitude := by
  rw [shortest]
  by_cases hzero : magnitude = 0
  · rw [if_pos hzero, hzero]
    exact nearestMagnitude_zero (Decimal.den_pos _)
  · rw [if_neg hzero, ← (Decimal.sameValue_stripZeros _).nearestMagnitude_eq]
    -- What the search finds was tested already, and the exact decimal is taken if it finds nothing.
    cases hfound : shortestFound? tie magnitude with
    | none => exact nearestMagnitude_exactDecimal h
    | some d => exact eq_of_beq (readsBack_of_shortestFound hfound)

/-- Only zero has no digits but a zero. -/
theorem coefficient_shortest_pos {tie : Tie} {magnitude : Nat} (h : magnitude < infinityMagnitude)
    (hne : magnitude ≠ 0) : 0 < (shortest tie magnitude).coefficient := by
  -- With no digits it would be rounded to zero, but it is rounded to the magnitude.
  refine Nat.pos_of_ne_zero fun hzero => hne ?_
  have hmagnitude := nearestMagnitude_shortest tie h
  rw [Decimal.num, hzero, Nat.zero_mul, nearestMagnitude_zero (Decimal.den_pos _)] at hmagnitude
  exact hmagnitude.symm

/-- The digits of zero are not written with an exponent. -/
theorem coefficient_shortest_ne_zero {tie : Tie} {magnitude : Nat}
    (h : magnitude < infinityMagnitude) (hpos : 0 < (shortest tie magnitude).leadingExponent) :
    (shortest tie magnitude).coefficient ≠ 0 := by
  refine Nat.ne_of_gt (coefficient_shortest_pos h fun hzero => ?_)
  rw [hzero, shortest, if_pos rfl] at hpos
  exact absurd hpos (by decide)

end Double

end LoxLexer
