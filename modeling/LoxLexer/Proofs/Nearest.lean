import LoxLexer.Double

/-!
# Between the midpoints

Rounding to nearest is told by midpoints. A quotient passes the midpoint between two neighbouring
magnitudes if it is greater than the midpoint, or if it is the midpoint and the greater neighbour is
the even one. The magnitude that a quotient is rounded to is the number of midpoints it passes: it
passes those below the magnitude, and none of the others. All of this is said in units of
`2 ^ -1074`, so it is a matter of products of natural numbers.

The midpoints tell all about rounding: a greater quotient passes more of them, so it is not rounded
to a smaller magnitude, and no other magnitude is nearer than one between whose midpoints the
quotient lies.

## Key results

- `Double.units_lt_units`: greater magnitudes have more units
- `Double.PassesMidpoint.of_le`: a quotient that passes a midpoint passes those below it
- `Double.lt_nearestMagnitude_iff`: which midpoints a quotient passes
- `Double.nearestMagnitude_le_of_le`: rounding is monotone
- `Double.nearestMagnitude_eq_of_mul_eq`: equal quotients are rounded alike
- `Double.units_add_mul_le_of_lt_nearestMagnitude`,
  `Double.le_units_add_mul_of_nearestMagnitude_lt`: no other magnitude is nearer
- `Double.nearestMagnitude_eq_infinityMagnitude_iff`, `Double.nearestMagnitude_eq_zero_iff`: which
  quotients overflow and underflow
-/

namespace LoxLexer

-- Powers of natural numbers are those of the core library, whatever else is imported.
attribute [local instance (high)] instPowNat

/-! ## Rounded division -/

/-- A quotient is rounded down if the rest is less than half, and up if it is more than half. At a
    half, it is rounded up if it is odd. -/
theorem roundDiv_toEven_cases (num : Nat) {den : Nat} (hden : 0 < den) :
    ∃ quotient rest, num = quotient * den + rest ∧ rest < den ∧
      (roundDiv .toEven num den = quotient ∧
          (2 * rest < den ∨ 2 * rest = den ∧ quotient % 2 = 0) ∨
        roundDiv .toEven num den = quotient + 1 ∧
          (den < 2 * rest ∨ 2 * rest = den ∧ quotient % 2 = 1)) := by
  refine ⟨num / den, num % den, (Nat.div_add_mod' num den).symm, Nat.mod_lt num hden, ?_⟩
  -- Twice the rest is compared with the divisor, as the definition does.
  simp only [roundDiv]
  split
  · omega
  · split <;> omega

/-- A quotient is at most half above what it is rounded to, and not even that if this is odd. -/
theorem le_roundDiv_toEven (num : Nat) {den : Nat} (hden : 0 < den) :
    2 * num ≤ (2 * roundDiv .toEven num den + 1) * den ∧
      (2 * num = (2 * roundDiv .toEven num den + 1) * den → roundDiv .toEven num den % 2 = 0) := by
  obtain ⟨quotient, rest, rfl, hrest, hcases⟩ := roundDiv_toEven_cases num hden
  generalize roundDiv .toEven (quotient * den + rest) den = rounded at hcases ⊢
  -- The two sides of the middle are linear in the quotient, once its product is a variable.
  rw [Nat.add_mul, Nat.mul_assoc]
  obtain ⟨rfl, h⟩ | ⟨rfl, h⟩ := hcases
  · omega
  · rw [Nat.add_mul]
    omega

/-- A quotient is at most half below what it is rounded to, and not even that if this is odd. -/
theorem roundDiv_toEven_le (num : Nat) {den : Nat} (hden : 0 < den) :
    2 * roundDiv .toEven num den * den ≤ 2 * num + den ∧
      (2 * roundDiv .toEven num den * den = 2 * num + den → roundDiv .toEven num den % 2 = 0) := by
  obtain ⟨quotient, rest, rfl, hrest, hcases⟩ := roundDiv_toEven_cases num hden
  generalize roundDiv .toEven (quotient * den + rest) den = rounded at hcases ⊢
  rw [Nat.mul_assoc]
  obtain ⟨rfl, h⟩ | ⟨rfl, h⟩ := hcases
  · omega
  · rw [Nat.add_mul]
    omega

namespace Double

/-! ## Units -/

/-- Below all significands a magnitude is its number of units. -/
theorem units_fraction {fraction : Nat} (h : fraction < 2 ^ fractionBits) :
    units fraction = fraction := by
  rw [units, Nat.div_eq_of_lt h, Nat.mod_eq_of_lt h, if_pos rfl]

/-- The leading bit of a significand is not among the bits of the fraction. -/
theorem units_succ_exponent (e : Nat) {fraction : Nat} (h : fraction < 2 ^ fractionBits) :
    units ((e + 1) * 2 ^ fractionBits + fraction) = (2 ^ fractionBits + fraction) * 2 ^ e := by
  have hexponent : ((e + 1) * 2 ^ fractionBits + fraction) / 2 ^ fractionBits = e + 1 := by
    rw [Nat.mul_comm, Nat.mul_add_div (Nat.two_pow_pos fractionBits), Nat.div_eq_of_lt h,
      Nat.add_zero]
  have hfraction : ((e + 1) * 2 ^ fractionBits + fraction) % 2 ^ fractionBits = fraction := by
    rw [Nat.mul_comm, Nat.mul_add_mod, Nat.mod_eq_of_lt h]
  rw [units, hexponent, hfraction, if_neg (Nat.succ_ne_zero e), Nat.add_sub_cancel]

/-- A significand over an exponent; it may be the power of two behind all significands. -/
theorem units_significand {e a : Nat} (h : e = 0 ∨ 2 ^ fractionBits ≤ a)
    (ha : a ≤ 2 ^ (fractionBits + 1)) : units (e * 2 ^ fractionBits + a) = a * 2 ^ e := by
  have hdouble : 2 ^ (fractionBits + 1) = 2 * 2 ^ fractionBits := Nat.pow_succ'
  by_cases hfraction : a < 2 ^ fractionBits
  · obtain rfl : e = 0 := by omega
    rw [Nat.zero_mul, Nat.zero_add, units_fraction hfraction, Nat.pow_zero, Nat.mul_one]
  · obtain ⟨fraction, rfl⟩ := Nat.exists_eq_add_of_le (Nat.le_of_not_lt hfraction)
    rw [← Nat.add_assoc, ← Nat.succ_mul]
    by_cases hlt : fraction < 2 ^ fractionBits
    · exact units_succ_exponent e hlt
    · -- The next power of two has the next exponent and no fraction.
      obtain rfl : fraction = 2 ^ fractionBits := by omega
      have hcarry := units_succ_exponent (e + 1) (Nat.two_pow_pos fractionBits)
      rw [Nat.add_zero (_ * _), Nat.add_zero (2 ^ fractionBits)] at hcarry
      have hpow : 2 ^ (e + 1) = 2 * 2 ^ e := Nat.pow_succ'
      rw [← Nat.succ_mul, hcarry, hpow, ← Nat.mul_assoc, Nat.mul_two]

/-- Every magnitude is a significand over an exponent. -/
theorem exists_significand (m : Nat) :
    ∃ e a, m = e * 2 ^ fractionBits + a ∧ (e = 0 ∨ 2 ^ fractionBits ≤ a) ∧
      a < 2 ^ (fractionBits + 1) := by
  have hparts := Nat.div_add_mod' m (2 ^ fractionBits)
  have hfraction := Nat.mod_lt m (Nat.two_pow_pos fractionBits)
  have hdouble : 2 ^ (fractionBits + 1) = 2 * 2 ^ fractionBits := Nat.pow_succ'
  -- The leading bit of the significand counts as one in the exponent, if there is an exponent.
  cases hexponent : m / 2 ^ fractionBits with
  | zero =>
    rw [hexponent] at hparts
    exact ⟨0, m, by omega, .inl rfl, by omega⟩
  | succ e =>
    rw [hexponent, Nat.succ_mul, Nat.add_assoc] at hparts
    exact ⟨e, 2 ^ fractionBits + m % 2 ^ fractionBits, hparts.symm, .inr (Nat.le_add_right _ _),
      by omega⟩

theorem units_lt_units_succ (m : Nat) : units m < units (m + 1) := by
  obtain ⟨e, a, rfl, h, ha⟩ := exists_significand m
  rw [units_significand h (Nat.le_of_lt ha), Nat.add_assoc, units_significand (by omega) ha]
  exact (Nat.mul_lt_mul_right (Nat.two_pow_pos e)).2 (Nat.lt_succ_self a)

/-- Greater magnitudes have more units. -/
theorem units_lt_units {m n : Nat} (h : m < n) : units m < units n := by
  -- Step by step, as each magnitude has fewer units than the next.
  induction h with
  | refl => exact units_lt_units_succ m
  | step _ ih => exact Nat.lt_trans ih (units_lt_units_succ _)

theorem units_le_units {m n : Nat} (h : m ≤ n) : units m ≤ units n := by
  rcases Nat.eq_or_lt_of_le h with rfl | hlt
  · exact Nat.le_refl _
  · exact Nat.le_of_lt (units_lt_units hlt)

/-! ## Midpoints -/

/-- The midpoint between a magnitude and the next greater one, in halves of units. -/
def midpoint (m : Nat) : Nat := units m + units (m + 1)

theorem midpoint_lt_midpoint {m n : Nat} (h : m < n) : midpoint m < midpoint n :=
  Nat.add_lt_add (units_lt_units h) (units_lt_units (Nat.succ_lt_succ h))

theorem midpoint_significand {e a : Nat} (h : e = 0 ∨ 2 ^ fractionBits ≤ a)
    (ha : a < 2 ^ (fractionBits + 1)) :
    midpoint (e * 2 ^ fractionBits + a) = (2 * a + 1) * 2 ^ e := by
  -- The next magnitude is the next significand over the same exponent, even at a power of two.
  have hnext := units_significand (e := e) (a := a + 1) (by omega) ha
  rw [midpoint, units_significand h (Nat.le_of_lt ha), Nat.add_assoc, hnext, ← Nat.add_mul]
  congr 1
  omega

/-- Behind a power of two the significands go up in steps of two, so the midpoint is farther. -/
theorem le_midpoint_significand {e a : Nat} (h : e = 0 ∨ 2 ^ fractionBits ≤ a)
    (ha : a ≤ 2 ^ (fractionBits + 1)) :
    (2 * a + 1) * 2 ^ e ≤ midpoint (e * 2 ^ fractionBits + a) := by
  rcases Nat.lt_or_eq_of_le ha with hlt | rfl
  · exact Nat.le_of_eq (midpoint_significand h hlt).symm
  · have hdouble : 2 ^ (fractionBits + 1) = 2 * 2 ^ fractionBits := Nat.pow_succ'
    have hpow : 2 ^ (e + 1) = 2 * 2 ^ e := Nat.pow_succ'
    have hlt : 2 ^ fractionBits < 2 ^ (fractionBits + 1) := by
      have := Nat.two_pow_pos fractionBits
      omega
    have hnext := midpoint_significand (e := e + 1) (.inr (Nat.le_refl _)) hlt
    rw [Nat.succ_mul e, Nat.add_assoc, ← Nat.two_mul, ← hdouble] at hnext
    rw [hnext, hpow, ← Nat.mul_assoc]
    exact Nat.mul_le_mul_right _ (by omega)

/-- The quotient `num / den`, in units, is rounded to a magnitude beyond this one: it is above the
    midpoint, or it is the midpoint and the next magnitude is even. -/
def PassesMidpoint (num den m : Nat) : Prop :=
  midpoint m * den < 2 * num ∨ midpoint m * den = 2 * num ∧ m % 2 = 1

theorem PassesMidpoint.le {num den m : Nat} (h : PassesMidpoint num den m) :
    midpoint m * den ≤ 2 * num :=
  h.elim Nat.le_of_lt fun ⟨heq, _⟩ => Nat.le_of_eq heq

theorem le_of_not_passesMidpoint {num den m : Nat} (h : ¬ PassesMidpoint num den m) :
    2 * num ≤ midpoint m * den :=
  Nat.le_of_not_lt fun hlt => h (.inl hlt)

/-- A quotient that passes a midpoint passes those below it. -/
theorem PassesMidpoint.of_le {num den m n : Nat} (hden : 0 < den) (hle : m ≤ n)
    (h : PassesMidpoint num den n) : PassesMidpoint num den m := by
  rcases Nat.eq_or_lt_of_le hle with rfl | hlt
  · exact h
  · have hmid := (Nat.mul_lt_mul_right hden).2 (midpoint_lt_midpoint hlt)
    exact .inl (Nat.lt_of_lt_of_le hmid h.le)

/-- A greater quotient passes the midpoints that a smaller one passes. -/
theorem PassesMidpoint.mono {num den num' den' m : Nat} (hden : 0 < den) (hden' : 0 < den')
    (hle : num * den' ≤ num' * den) (h : PassesMidpoint num den m) :
    PassesMidpoint num' den' m := by
  -- Both sides of the comparison are taken over the product of the denominators.
  have hdouble : 2 * num * den' ≤ 2 * num' * den := by
    rw [Nat.mul_assoc, Nat.mul_assoc]
    exact Nat.mul_le_mul_left 2 hle
  have hcomm : midpoint m * den' * den = midpoint m * den * den' := Nat.mul_right_comm ..
  rcases h with hlt | ⟨heq, hodd⟩
  -- Above the midpoint the greater quotient is above it too, and on it both may be.
  · left
    have hcross := (Nat.mul_lt_mul_right hden').2 hlt
    exact (Nat.mul_lt_mul_right hden).1 (by omega)
  · have hcross : midpoint m * den * den' = 2 * num * den' := by rw [heq]
    have hmid : midpoint m * den' ≤ 2 * num' := Nat.le_of_mul_le_mul_right (by omega) hden
    rcases Nat.lt_or_eq_of_le hmid with hlt | heq'
    · exact .inl hlt
    · exact .inr ⟨heq', hodd⟩

/-! ## Rounding -/

/-- How many bits of a quotient of units have no place in a significand. -/
def shift (num den : Nat) : Nat := (num / den).log2 - fractionBits

/-- The bits of a quotient of units that have a place in a significand, rounded by the others. -/
def significand (num den : Nat) : Nat := roundDiv .toEven num (den * 2 ^ shift num den)

theorem nearestMagnitude_eq_min (num den : Nat) :
    nearestMagnitude num den = min infinityMagnitude
      (shift (num * 2 ^ unitBits) den * 2 ^ fractionBits + significand (num * 2 ^ unitBits) den) :=
  rfl

variable {num den : Nat}

/-- A shifted quotient is less than the power of two behind all significands. -/
theorem lt_mul_shifted (num : Nat) (hden : 0 < den) :
    num < 2 ^ (fractionBits + 1) * (den * 2 ^ shift num den) := by
  -- Whatever bits the quotient has, those that are shifted out and those of a significand suffice.
  have hlog : num / den < 2 ^ ((num / den).log2 + 1) := Nat.lt_log2_self
  have hbits : 2 ^ ((num / den).log2 + 1) ≤ 2 ^ (fractionBits + 1 + shift num den) :=
    Nat.pow_le_pow_right Nat.two_pos (by rw [shift]; omega)
  have hquotient := (Nat.div_lt_iff_lt_mul hden).1 (Nat.lt_of_lt_of_le hlog hbits)
  rwa [Nat.pow_add, Nat.mul_assoc, Nat.mul_comm _ den] at hquotient

/-- A quotient that is shifted at all has all the bits of a significand. -/
theorem mul_shifted_le (num : Nat) (hden : 0 < den) (h : 0 < shift num den) :
    2 ^ fractionBits * (den * 2 ^ shift num den) ≤ num := by
  have hlog : (num / den).log2 = fractionBits + shift num den := by
    rw [shift] at h ⊢
    omega
  -- A quotient of zero has no bits to shift.
  have hne : num / den ≠ 0 := by
    intro hzero
    rw [hzero, Nat.log2_zero] at hlog
    omega
  have hbits := Nat.log2_self_le hne
  rw [hlog, Nat.le_div_iff_mul_le hden, Nat.pow_add, Nat.mul_assoc, Nat.mul_comm _ den] at hbits
  exact hbits

theorem significand_le (num : Nat) (hden : 0 < den) :
    significand num den ≤ 2 ^ (fractionBits + 1) := by
  have hshifted : 0 < den * 2 ^ shift num den := Nat.mul_pos hden (Nat.two_pow_pos _)
  have hlt := lt_mul_shifted num hden
  -- Rounding adds at most a half, so it may reach the power of two but not go beyond.
  have hround := (roundDiv_toEven_le num hshifted).1
  refine Nat.le_of_lt_succ ((Nat.mul_lt_mul_right hshifted).1 ?_)
  rw [Nat.succ_mul]
  rw [Nat.mul_assoc] at hround
  show roundDiv .toEven num _ * _ < _
  omega

theorem le_significand (num : Nat) (hden : 0 < den) :
    shift num den = 0 ∨ 2 ^ fractionBits ≤ significand num den := by
  have hshifted : 0 < den * 2 ^ shift num den := Nat.mul_pos hden (Nat.two_pow_pos _)
  rcases Nat.eq_zero_or_pos (shift num den) with hzero | hpos
  · exact .inl hzero
  · have hle := mul_shifted_le num hden hpos
    have hround := (le_roundDiv_toEven num hshifted).1
    refine .inr (Nat.le_of_lt_succ ((Nat.mul_lt_mul_right hshifted).1 ?_))
    rw [Nat.add_mul, Nat.mul_assoc] at hround
    show _ < (roundDiv .toEven num _ + 1) * _
    rw [Nat.add_mul]
    omega

/-- The exponent leaves the last bit of the significand as it is. -/
theorem significand_mod_two (e a : Nat) : (e * 2 ^ fractionBits + a) % 2 = a % 2 := by
  rw [fractionBits]
  omega

/-- The rounded quotient is not beyond the midpoint above its magnitude. -/
theorem not_passesMidpoint_significand (hden : 0 < den) :
    ¬ PassesMidpoint num den (shift num den * 2 ^ fractionBits + significand num den) := by
  have hround := le_roundDiv_toEven num (Nat.mul_pos hden (Nat.two_pow_pos (shift num den)))
  rw [← significand, Nat.mul_comm den, ← Nat.mul_assoc] at hround
  have hmid := Nat.mul_le_mul_right den
    (le_midpoint_significand (le_significand num hden) (significand_le num hden))
  -- On the midpoint itself the significand is even, and with it the magnitude.
  rintro (hlt | ⟨heq, hodd⟩)
  · omega
  · rw [significand_mod_two] at hodd
    omega

/-- Below a power of two the midpoint is nearer, but the quotient is at least the power. -/
theorem passesMidpoint_of_power_le (hden : 0 < den) {e a : Nat}
    (ha : a + 1 = 2 ^ (fractionBits + 1)) (hle : 2 ^ fractionBits * (den * 2 ^ (e + 1)) ≤ num) :
    PassesMidpoint num den (e * 2 ^ fractionBits + a) := by
  have hdouble : 2 ^ (fractionBits + 1) = 2 * 2 ^ fractionBits := Nat.pow_succ'
  have hpos := Nat.two_pow_pos fractionBits
  have hmid := midpoint_significand (e := e) (a := a) (.inr (by omega)) (by omega)
  have hpower : 2 * (2 ^ fractionBits * (den * 2 ^ (e + 1))) = 2 * (a + 1) * 2 ^ e * den := by
    rw [ha, hdouble, Nat.pow_succ 2 e]
    ac_rfl
  have hlt : (2 * a + 1) * 2 ^ e * den < 2 * (a + 1) * 2 ^ e * den :=
    (Nat.mul_lt_mul_right hden).2 ((Nat.mul_lt_mul_right (Nat.two_pow_pos e)).2 (by omega))
  left
  rw [hmid]
  omega

/-- The rounded quotient is beyond the midpoint below its magnitude. -/
theorem passesMidpoint_of_succ_eq_significand (hden : 0 < den) {m : Nat}
    (h : m + 1 = shift num den * 2 ^ fractionBits + significand num den) :
    PassesMidpoint num den m := by
  -- The rest that was rounded off, in halves of the last place.
  have hround := roundDiv_toEven_le num (Nat.mul_pos hden (Nat.two_pow_pos (shift num den)))
  have hle := le_significand num hden
  have hge := significand_le num hden
  have hpower := mul_shifted_le num hden
  have hpos := Nat.two_pow_pos fractionBits
  rw [← significand] at hround
  generalize shift num den = e at *
  generalize significand num den = rounded at *
  -- The magnitude below has the next smaller significand, but for the least one over an exponent.
  by_cases hcarry : 0 < e ∧ rounded = 2 ^ fractionBits
  · obtain ⟨hshift, rfl⟩ := hcarry
    obtain ⟨e, rfl⟩ := Nat.exists_eq_succ_of_ne_zero (Nat.ne_zero_of_lt hshift)
    have hdouble : 2 ^ (fractionBits + 1) = 2 * 2 ^ fractionBits := Nat.pow_succ'
    obtain ⟨a, ha⟩ : ∃ a, a + 1 = 2 ^ (fractionBits + 1) := Nat.exists_add_one_eq.2 (by omega)
    obtain rfl : m = e * 2 ^ fractionBits + a := by
      rw [Nat.succ_mul] at h
      omega
    exact passesMidpoint_of_power_le hden ha (hpower hshift)
  · obtain ⟨a, rfl⟩ : ∃ a, rounded = a + 1 := Nat.exists_eq_succ_of_ne_zero (by
      rintro rfl
      obtain rfl : e = 0 := by omega
      omega)
    obtain rfl : m = e * 2 ^ fractionBits + a := by omega
    have hmid := midpoint_significand (e := e) (a := a) (by omega) (by omega)
    have hhalf : (2 * a + 1) * 2 ^ e * den + den * 2 ^ e = 2 * (a + 1) * (den * 2 ^ e) := by
      rw [Nat.mul_assoc, Nat.mul_comm den, ← Nat.succ_mul]
      rfl
    rw [PassesMidpoint, hmid, significand_mod_two]
    omega

/-- The midpoints that a quotient passes are those below the magnitude that it is rounded to. -/
theorem lt_significand_iff (hden : 0 < den) {m : Nat} :
    m < shift num den * 2 ^ fractionBits + significand num den ↔ PassesMidpoint num den m := by
  constructor
  · intro hlt
    obtain ⟨k, hk⟩ := Nat.exists_eq_succ_of_ne_zero (Nat.ne_zero_of_lt hlt)
    rw [hk] at hlt
    exact (passesMidpoint_of_succ_eq_significand hden hk.symm).of_le hden (Nat.le_of_lt_succ hlt)
  · intro hpasses
    refine Nat.lt_of_not_le fun hle => ?_
    exact not_passesMidpoint_significand hden (hpasses.of_le hden hle)

/-- The midpoints that a quotient passes are those below the magnitude that it is rounded to. -/
theorem lt_nearestMagnitude_iff (hden : 0 < den) {m : Nat} :
    m < nearestMagnitude num den ↔
      m < infinityMagnitude ∧ PassesMidpoint (num * 2 ^ unitBits) den m := by
  rw [nearestMagnitude_eq_min, Nat.lt_min, lt_significand_iff hden]

/-- A greater quotient is not rounded to a smaller magnitude. -/
theorem nearestMagnitude_le_of_le {num' den' : Nat} (hden : 0 < den) (hden' : 0 < den')
    (h : num * den' ≤ num' * den) : nearestMagnitude num den ≤ nearestMagnitude num' den' := by
  -- Otherwise the smaller quotient would pass a midpoint that the greater one does not pass.
  refine Nat.le_of_not_lt fun hlt => ?_
  obtain ⟨hfinite, hpasses⟩ := (lt_nearestMagnitude_iff hden).1 hlt
  have hscaled : num * 2 ^ unitBits * den' ≤ num' * 2 ^ unitBits * den := by
    rw [Nat.mul_right_comm, Nat.mul_right_comm num']
    exact Nat.mul_le_mul_right _ h
  have hpasses' := hpasses.mono hden hden' hscaled
  exact Nat.lt_irrefl _ ((lt_nearestMagnitude_iff hden').2 ⟨hfinite, hpasses'⟩)

/-- Equal quotients are rounded alike. -/
theorem nearestMagnitude_eq_of_mul_eq {num' den' : Nat} (hden : 0 < den) (hden' : 0 < den')
    (h : num * den' = num' * den) : nearestMagnitude num den = nearestMagnitude num' den' :=
  Nat.le_antisymm (nearestMagnitude_le_of_le hden hden' (Nat.le_of_eq h))
    (nearestMagnitude_le_of_le hden' hden (Nat.le_of_eq h.symm))

/-! ## No other magnitude is nearer -/

/-- A quotient is at least in the middle between a smaller magnitude and the one that it is rounded
    to, and above it if this is odd. -/
theorem units_add_mul_le_of_lt_nearestMagnitude (hden : 0 < den) {m : Nat}
    (h : m < nearestMagnitude num den) :
    (units m + units (nearestMagnitude num den)) * den ≤ 2 * (num * 2 ^ unitBits) ∧
      ((units m + units (nearestMagnitude num den)) * den = 2 * (num * 2 ^ unitBits) →
        nearestMagnitude num den % 2 = 0) := by
  -- The midpoint just below the magnitude is passed, and the other magnitude is no nearer than it.
  obtain ⟨k, hk⟩ : ∃ k, nearestMagnitude num den = k + 1 :=
    Nat.exists_eq_succ_of_ne_zero (Nat.ne_zero_of_lt h)
  have hlt : k < nearestMagnitude num den := by omega
  have hpasses := ((lt_nearestMagnitude_iff hden).1 hlt).2
  have hunits : units m ≤ units k := units_le_units (by omega)
  have hmid : (units m + units (k + 1)) * den ≤ midpoint k * den :=
    Nat.mul_le_mul_right den (Nat.add_le_add_right hunits _)
  rw [hk]
  refine ⟨Nat.le_trans hmid hpasses.le, fun heq => ?_⟩
  rcases hpasses with hlt | ⟨-, hodd⟩ <;> omega

/-- A quotient is at most in the middle between a greater finite magnitude and the one that it is
    rounded to, and below it if this is odd. -/
theorem le_units_add_mul_of_nearestMagnitude_lt (hden : 0 < den) {m : Nat}
    (h : nearestMagnitude num den < m) (hm : m < infinityMagnitude) :
    2 * (num * 2 ^ unitBits) ≤ (units m + units (nearestMagnitude num den)) * den ∧
      ((units m + units (nearestMagnitude num den)) * den = 2 * (num * 2 ^ unitBits) →
        nearestMagnitude num den % 2 = 0) := by
  -- The midpoint just above the magnitude is not passed, and the other is no nearer than it.
  have hpasses : ¬ PassesMidpoint (num * 2 ^ unitBits) den (nearestMagnitude num den) :=
    fun hpasses => Nat.lt_irrefl _
      ((lt_nearestMagnitude_iff hden).2 ⟨Nat.lt_trans h hm, hpasses⟩)
  have hunits : units (nearestMagnitude num den + 1) ≤ units m := units_le_units h
  have hmid : midpoint (nearestMagnitude num den) * den ≤
      (units m + units (nearestMagnitude num den)) * den := by
    rw [midpoint, Nat.add_comm]
    exact Nat.mul_le_mul_right den (Nat.add_le_add_right hunits _)
  have hle := le_of_not_passesMidpoint hpasses
  refine ⟨Nat.le_trans hle hmid, fun heq => ?_⟩
  have hodd : nearestMagnitude num den % 2 ≠ 1 := fun hodd => hpasses (.inr ⟨by omega, hodd⟩)
  omega

/-! ## Overflow and underflow -/

/-- The middle between the greatest finite double and the next power of two. -/
def overflowThreshold : Nat := (2 ^ (54 : Nat) - 1) * 2 ^ (970 : Nat)

theorem mul_two_pow_add (a b c : Nat) : a * 2 ^ (b + c) = a * 2 ^ b * 2 ^ c := by
  rw [Nat.pow_add, ← Nat.mul_assoc]

theorem two_mul_mul_two_pow (n bits : Nat) : 2 * (n * 2 ^ bits) = n * 2 ^ (bits + 1) := by
  rw [Nat.pow_succ', Nat.mul_left_comm]

/-- The midpoint between the greatest finite magnitude and infinity. -/
theorem midpoint_infinityMagnitude_pred :
    midpoint (infinityMagnitude - 1) = overflowThreshold * 2 ^ (unitBits + 1) := by
  have hgreatest : infinityMagnitude - 1 =
      (970 + (unitBits + 1)) * 2 ^ fractionBits + (2 ^ 53 - 1) := rfl
  have hodd : 2 * (2 ^ 53 - 1) + 1 = 2 ^ 54 - 1 := rfl
  rw [hgreatest, midpoint_significand (.inr (by decide)) (by decide), hodd, mul_two_pow_add,
    overflowThreshold]

/-- From half a step above the greatest finite magnitude on, a quotient is rounded to infinity. -/
theorem nearestMagnitude_eq_infinityMagnitude_iff (hden : 0 < den) :
    nearestMagnitude num den = infinityMagnitude ↔ overflowThreshold * den ≤ num := by
  have hle := nearestMagnitude_le num den
  have hpos : 0 < infinityMagnitude := by decide
  have hodd : (infinityMagnitude - 1) % 2 = 1 := rfl
  -- Only infinity is above the greatest finite magnitude, whose midpoint is the threshold.
  calc nearestMagnitude num den = infinityMagnitude
    _ ↔ infinityMagnitude - 1 < nearestMagnitude num den := by omega
    _ ↔ midpoint (infinityMagnitude - 1) * den ≤ 2 * (num * 2 ^ unitBits) := by
      rw [lt_nearestMagnitude_iff hden, PassesMidpoint]
      omega
    _ ↔ overflowThreshold * den * 2 ^ (unitBits + 1) ≤ num * 2 ^ (unitBits + 1) := by
      rw [midpoint_infinityMagnitude_pred, two_mul_mul_two_pow, Nat.mul_right_comm]
    _ ↔ overflowThreshold * den ≤ num := Nat.mul_le_mul_right_iff (Nat.two_pow_pos _)

/-- Up to half of the least positive magnitude, a quotient is rounded to zero. -/
theorem nearestMagnitude_eq_zero_iff (hden : 0 < den) :
    nearestMagnitude num den = 0 ↔ num * 2 ^ (unitBits + 1) ≤ den := by
  have hpos : 0 < infinityMagnitude := by decide
  have hmid : midpoint 0 = 1 := rfl
  -- Anything but zero is above the midpoint that zero has above it.
  calc nearestMagnitude num den = 0
    _ ↔ ¬ 0 < nearestMagnitude num den := by omega
    _ ↔ 2 * (num * 2 ^ unitBits) ≤ den := by
      rw [lt_nearestMagnitude_iff hden, PassesMidpoint, hmid]
      omega
    _ ↔ num * 2 ^ (unitBits + 1) ≤ den := by rw [two_mul_mul_two_pow]

end Double

end LoxLexer
