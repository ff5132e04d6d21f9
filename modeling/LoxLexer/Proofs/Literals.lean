import Mathlib.Algebra.Order.Field.Basic
import Mathlib.Algebra.Order.Field.Rat
import Mathlib.Tactic.Linarith
import Mathlib.Tactic.Ring
import LoxLexer.Proofs.Listing
import LoxLexer.Proofs.Nearest

/-!
# Numbers and their doubles

The literal of a number token is the double that the number denoted by its text is rounded to.
Doubles are taken as the rational numbers that they stand for, so that being nearest can be said by
distances, with no regard to how the double is found.

## Key results

- `Double.correctlyRounded_nearest`: dividing and rounding gives the nearest double
- `Double.atMost_nearest`: rounding is monotone
- `Grammar.exists_numeral_of_tokenText`: the text of a number token denotes the value of its numeral
- `number_literal_correctlyRounded`: number tokens have correctly rounded literals
-/

namespace LoxLexer

-- Powers of natural numbers are those of the core library, whatever else is imported.
attribute [local instance (high)] instPowNat

/-! ## Distances -/

theorem abs_sub_le_abs_sub_iff {a b q : ℚ} :
    |a - q| ≤ |b - q| ↔ (a - b) * (a + b - 2 * q) ≤ 0 := by
  -- Distances are compared by their squares, so that no case has to be made of their signs.
  have hsquares : (a - q) ^ 2 - (b - q) ^ 2 = (a - b) * (a + b - 2 * q) := by ring
  rw [← sq_le_sq, ← sub_nonpos, hsquares]

/-- Between two different numbers of the same distance a number is in the middle. -/
theorem add_eq_of_abs_sub_eq {a b q : ℚ} (hne : b ≠ a) (h : |b - q| = |a - q|) :
    a + b = 2 * q := by
  have hsquares : (a - b) * (a + b - 2 * q) = 0 := by
    rw [← sq_eq_sq_iff_abs_eq_abs] at h
    linarith
  rcases mul_eq_zero.1 hsquares with heq | heq
  · exact absurd (sub_eq_zero.1 heq).symm hne
  · exact sub_eq_zero.1 heq

namespace Double

/-! ## Doubles as numbers -/

/-- The number that a finite magnitude stands for. -/
def magnitudeValue (m : Nat) : ℚ := units m / 2 ^ unitBits

/-- The number that a finite double stands for. -/
def value (x : Double) : ℚ :=
  if x.isNegative then -magnitudeValue x.magnitude else magnitudeValue x.magnitude

/-- The positive zero. -/
def zero : Double := ⟨0⟩

/-- The positive infinity. -/
def infinity : Double := ⟨UInt64.ofNat infinityMagnitude⟩

/-- No finite double is nearer to a number, and only one with an even magnitude is as near as
    another. -/
structure IsNearest (x : Double) (q : ℚ) : Prop where
  isFinite : x.isFinite
  abs_sub_le : ∀ y : Double, y.isFinite → |x.value - q| ≤ |y.value - q|
  even_of_tie : ∀ y : Double, y.isFinite → y.value ≠ x.value → |y.value - q| = |x.value - q| →
    x.magnitude % 2 = 0

/-- The double that a number which is not negative is rounded to: infinity from the middle between
    the greatest finite double and the next power of two on, and the nearest double below. It is
    zero up to the half of the least positive double. -/
structure CorrectlyRounded (x : Double) (q : ℚ) : Prop where
  eq_infinity_iff : x = infinity ↔ 2 ^ 1024 - 2 ^ 970 ≤ q
  eq_zero_iff : x = zero ↔ q ≤ 1 / 2 ^ 1075
  isNearest : q < 2 ^ 1024 - 2 ^ 970 → x.IsNearest q
  value_pos : 1 / 2 ^ 1075 < q → q < 2 ^ 1024 - 2 ^ 970 → 0 < x.value
  isNaN_eq_false : x.isNaN = false
  isNegative_eq_false : x.isNegative = false

/-- The order of doubles that are not negative, with infinity at the top. -/
def AtMost (x y : Double) : Prop :=
  y = infinity ∨ x.isFinite ∧ y.isFinite ∧ x.value ≤ y.value

theorem two_pow_unitBits_pos : (0 : ℚ) < 2 ^ unitBits := pow_pos two_pos _

theorem magnitudeValue_zero : magnitudeValue 0 = 0 := by
  have hunits : units 0 = 0 := rfl
  rw [magnitudeValue, hunits, Nat.cast_zero, zero_div]

theorem magnitudeValue_le {m n : Nat} (h : m ≤ n) : magnitudeValue m ≤ magnitudeValue n :=
  (div_le_div_iff_of_pos_right two_pow_unitBits_pos).2 (Nat.cast_le.2 (units_le_units h))

theorem magnitudeValue_lt {m n : Nat} (h : m < n) : magnitudeValue m < magnitudeValue n :=
  (div_lt_div_iff_of_pos_right two_pow_unitBits_pos).2 (Nat.cast_lt.2 (units_lt_units h))

theorem magnitudeValue_le_iff {m n : Nat} : magnitudeValue m ≤ magnitudeValue n ↔ m ≤ n :=
  -- The values are in the order of the magnitudes, so either order gives the other.
  ⟨fun h => Nat.le_of_not_lt fun hlt => not_le.2 (magnitudeValue_lt hlt) h, magnitudeValue_le⟩

theorem magnitudeValue_nonneg (m : Nat) : 0 ≤ magnitudeValue m :=
  magnitudeValue_zero ▸ magnitudeValue_le (Nat.zero_le m)

theorem magnitudeValue_pos {m : Nat} (h : m ≠ 0) : 0 < magnitudeValue m :=
  div_pos (Nat.cast_pos.2 (Nat.zero_lt_of_lt (units_lt_units (Nat.pos_of_ne_zero h))))
    two_pow_unitBits_pos

theorem value_of_not_negative {x : Double} (h : x.isNegative = false) :
    x.value = magnitudeValue x.magnitude := by
  rw [value, h]
  rfl

/-! ## The nearest double -/

variable {num den : Nat}

theorem magnitudeValue_add (hden : 0 < den) (m n : Nat) :
    magnitudeValue m + magnitudeValue n =
      -- Both values are brought over the denominator of the quotient, which cancels there.
      ((units m + units n) * den : Nat) / (2 ^ unitBits * den) := by
  have hne : (den : ℚ) ≠ 0 := Nat.cast_ne_zero.2 hden.ne'
  rw [magnitudeValue, magnitudeValue, ← add_div, Nat.cast_mul, Nat.cast_add,
    mul_div_mul_right _ _ hne]

theorem two_mul_quotient (num den : Nat) :
    2 * (num / den : ℚ) = (2 * (num * 2 ^ unitBits) : Nat) / (2 ^ unitBits * den) := by
  rw [Nat.cast_mul, Nat.cast_mul, Nat.cast_pow, Nat.cast_ofNat, mul_comm (2 ^ unitBits) (den : ℚ),
    mul_div_assoc, mul_div_mul_right _ _ two_pow_unitBits_pos.ne']

theorem den_mul_pos (hden : 0 < den) : (0 : ℚ) < 2 ^ unitBits * den :=
  mul_pos two_pow_unitBits_pos (Nat.cast_pos.2 hden)

/-- A quotient is at least in the middle between a smaller magnitude and its own. -/
theorem magnitudeValue_add_le (hden : 0 < den) {m : Nat} (h : m < nearestMagnitude num den) :
    magnitudeValue m + magnitudeValue (nearestMagnitude num den) ≤ 2 * (num / den : ℚ) ∧
      (magnitudeValue m + magnitudeValue (nearestMagnitude num den) = 2 * (num / den : ℚ) →
        nearestMagnitude num den % 2 = 0) := by
  rw [magnitudeValue_add hden, two_mul_quotient, div_le_div_iff_of_pos_right (den_mul_pos hden),
    div_left_inj' (den_mul_pos hden).ne', Nat.cast_le, Nat.cast_inj]
  exact units_add_mul_le_of_lt_nearestMagnitude hden h

/-- A quotient is at most in the middle between a greater finite magnitude and its own. -/
theorem le_magnitudeValue_add (hden : 0 < den) {m : Nat} (h : nearestMagnitude num den < m)
    (hm : m < infinityMagnitude) :
    2 * (num / den : ℚ) ≤ magnitudeValue m + magnitudeValue (nearestMagnitude num den) ∧
      (magnitudeValue m + magnitudeValue (nearestMagnitude num den) = 2 * (num / den : ℚ) →
        nearestMagnitude num den % 2 = 0) := by
  rw [magnitudeValue_add hden, two_mul_quotient, div_le_div_iff_of_pos_right (den_mul_pos hden),
    div_left_inj' (den_mul_pos hden).ne', Nat.cast_le, Nat.cast_inj]
  exact le_units_add_mul_of_nearestMagnitude_lt hden h hm

theorem isNegative_nearest (num den : Nat) : (nearest num den).isNegative = false := by
  -- The magnitude is at most that of infinity, so it leaves the highest bit alone.
  have hle := nearestMagnitude_le num den
  simp only [infinityMagnitude, fractionBits] at hle
  simp only [isNegative, magnitudeBits, nearest, UInt64.toNat_ofNat', decide_eq_false_iff_not]
  omega

theorem isNaN_nearest (num den : Nat) : (nearest num den).isNaN = false := by
  rw [isNaN, magnitude_nearest]
  exact decide_eq_false (Nat.not_lt.2 (nearestMagnitude_le num den))

theorem value_nearest (num den : Nat) :
    (nearest num den).value = magnitudeValue (nearestMagnitude num den) := by
  rw [value, isNegative_nearest, magnitude_nearest]
  rfl

/-- Against a finite double that is not negative. -/
theorem distance_nearest_le (hden : 0 < den) {m : Nat} (hm : m < infinityMagnitude) :
    |magnitudeValue (nearestMagnitude num den) - num / den| ≤ |magnitudeValue m - num / den| ∧
      (m ≠ nearestMagnitude num den →
        magnitudeValue (nearestMagnitude num den) + magnitudeValue m = 2 * (num / den) →
        nearestMagnitude num den % 2 = 0) := by
  rw [abs_sub_le_abs_sub_iff, add_comm (magnitudeValue (nearestMagnitude num den))]
  -- The middle between both lies on that side of the quotient on which the other one is.
  rcases Nat.lt_trichotomy m (nearestMagnitude num den) with hlt | heq | hgt
  · obtain ⟨hmid, heven⟩ := magnitudeValue_add_le hden hlt
    have hvalue := magnitudeValue_le (Nat.le_of_lt hlt)
    exact ⟨mul_nonpos_of_nonneg_of_nonpos (sub_nonneg.2 hvalue) (sub_nonpos.2 hmid),
      fun _ => heven⟩
  · exact ⟨by rw [heq, sub_self, zero_mul], fun hne => absurd heq hne⟩
  · obtain ⟨hmid, heven⟩ := le_magnitudeValue_add hden hgt hm
    have hvalue := magnitudeValue_le (Nat.le_of_lt hgt)
    exact ⟨mul_nonpos_of_nonpos_of_nonneg (sub_nonpos.2 hvalue) (sub_nonneg.2 hmid),
      fun _ => heven⟩

/-- Against a finite double that is negative: zero is nearer already. -/
theorem distance_nearest_le_neg (hden : 0 < den) (m : Nat) :
    |magnitudeValue (nearestMagnitude num den) - num / den| ≤ |-magnitudeValue m - num / den| ∧
      (magnitudeValue (nearestMagnitude num den) + -magnitudeValue m = 2 * (num / den) →
        nearestMagnitude num den % 2 = 0) := by
  have hnonneg := magnitudeValue_nonneg m
  obtain ⟨hle, heven⟩ : magnitudeValue (nearestMagnitude num den) ≤ 2 * (num / den) ∧
      (magnitudeValue (nearestMagnitude num den) = 2 * (num / den) →
        nearestMagnitude num den % 2 = 0) := by
    -- Zero is even and is what such a quotient is rounded to, and any other magnitude is compared
    -- with zero.
    rcases Nat.eq_zero_or_pos (nearestMagnitude num den) with hzero | hpos
    · have hquotient : (0 : ℚ) ≤ num / den := div_nonneg (Nat.cast_nonneg _) (Nat.cast_nonneg _)
      rw [hzero, magnitudeValue_zero]
      exact ⟨by linarith, fun _ => rfl⟩
    · have hmid := magnitudeValue_add_le hden hpos
      rwa [magnitudeValue_zero, zero_add] at hmid
  rw [abs_sub_le_abs_sub_iff]
  have habove := magnitudeValue_nonneg (nearestMagnitude num den)
  exact ⟨mul_nonpos_of_nonneg_of_nonpos (by linarith) (by linarith),
    fun hmid => heven (by linarith)⟩

/-- No finite double is nearer to a quotient than the one that it is rounded to. -/
theorem isNearest_nearest (hden : 0 < den) (h : nearestMagnitude num den < infinityMagnitude) :
    (nearest num den).IsNearest (num / den) where
  isFinite := by
    rw [isFinite, magnitude_nearest]
    exact decide_eq_true h
  abs_sub_le y hy := by
    rw [value_nearest, value]
    -- The sign of the other double decides against which kind it is compared.
    split
    · exact (distance_nearest_le_neg hden _).1
    · exact (distance_nearest_le hden (of_decide_eq_true hy)).1
  even_of_tie y hy hne htie := by
    -- Two doubles of the same distance have the quotient in the middle.
    have hmid := add_eq_of_abs_sub_eq hne htie
    rw [value_nearest, value] at hmid hne
    rw [magnitude_nearest]
    split at hmid
    · exact (distance_nearest_le_neg hden _).2 hmid
    · rename_i hsign
      rw [if_neg hsign] at hne
      exact (distance_nearest_le hden (of_decide_eq_true hy)).2 (fun heq => hne (heq ▸ rfl)) hmid

theorem nearest_eq_infinity_iff :
    nearest num den = infinity ↔ nearestMagnitude num den = infinityMagnitude := by
  constructor
  · intro h
    have hmagnitude : infinity.magnitude = infinityMagnitude := rfl
    rw [← magnitude_nearest, h, hmagnitude]
  · intro h
    rw [nearest, h, infinity]

theorem nearest_eq_zero_iff : nearest num den = zero ↔ nearestMagnitude num den = 0 := by
  constructor
  · intro h
    have hmagnitude : zero.magnitude = 0 := rfl
    rw [← magnitude_nearest, h, hmagnitude]
  · intro h
    rw [nearest, h]
    rfl

theorem cast_mul_two_pow (a b : Nat) : ((a * 2 ^ b : Nat) : ℚ) = a * 2 ^ b := by
  rw [Nat.cast_mul, Nat.cast_pow, Nat.cast_ofNat]

theorem cast_overflowThreshold : (overflowThreshold : ℚ) = 2 ^ 1024 - 2 ^ 970 := by
  have hfactor : ((2 ^ 54 - 1 : Nat) : ℚ) = 2 ^ 54 - 1 := by norm_num
  have hpower : (2 : ℚ) ^ 1024 = 2 ^ 54 * 2 ^ 970 := by rw [← pow_add]
  -- The threshold is a half of the last place above the greatest significand.
  simp only [overflowThreshold, cast_mul_two_pow, hfactor, hpower, sub_mul, one_mul]

theorem overflowThreshold_mul_le_iff (hden : 0 < den) :
    overflowThreshold * den ≤ num ↔ 2 ^ 1024 - 2 ^ 970 ≤ (num / den : ℚ) := by
  rw [le_div_iff₀ (Nat.cast_pos.2 hden), ← cast_overflowThreshold, ← Nat.cast_mul, Nat.cast_le]

theorem mul_two_pow_le_iff (hden : 0 < den) (bits : Nat) :
    num * 2 ^ bits ≤ den ↔ (num / den : ℚ) ≤ 1 / 2 ^ bits := by
  rw [div_le_div_iff₀ (Nat.cast_pos.2 hden) (pow_pos two_pos _), one_mul, ← cast_mul_two_pow,
    Nat.cast_le]

/-- Dividing and rounding gives the correctly rounded double. -/
theorem correctlyRounded_nearest (hden : 0 < den) :
    (nearest num den).CorrectlyRounded (num / den) := by
  have hle := nearestMagnitude_le num den
  have hinfinity : nearest num den = infinity ↔ 2 ^ 1024 - 2 ^ 970 ≤ (num / den : ℚ) := by
    rw [nearest_eq_infinity_iff, nearestMagnitude_eq_infinityMagnitude_iff hden,
      overflowThreshold_mul_le_iff hden]
  have hzero : nearest num den = zero ↔ (num / den : ℚ) ≤ 1 / 2 ^ 1075 := by
    rw [nearest_eq_zero_iff, nearestMagnitude_eq_zero_iff hden, mul_two_pow_le_iff hden 1075]
  exact {
    eq_infinity_iff := hinfinity
    eq_zero_iff := hzero
    isNearest := fun hq => by
      -- Below the threshold the magnitude is not that of infinity, and so it is finite.
      have hne := mt nearest_eq_infinity_iff.2 (mt hinfinity.1 (not_le.2 hq))
      exact isNearest_nearest hden (Nat.lt_of_le_of_ne hle hne)
    value_pos := fun hq _ => by
      have hne := mt nearest_eq_zero_iff.2 (mt hzero.1 (not_le.2 hq))
      rw [value_nearest]
      exact magnitudeValue_pos hne
    isNaN_eq_false := isNaN_nearest num den
    isNegative_eq_false := isNegative_nearest num den }

theorem quotient_le_quotient_iff {num' den' : Nat} (hden : 0 < den) (hden' : 0 < den') :
    (num / den : ℚ) ≤ num' / den' ↔ num * den' ≤ num' * den := by
  rw [div_le_div_iff₀ (Nat.cast_pos.2 hden) (Nat.cast_pos.2 hden'), ← Nat.cast_mul,
    ← Nat.cast_mul, Nat.cast_le]

/-- A greater quotient is not rounded to a smaller double. -/
theorem atMost_nearest {num' den' : Nat} (hden : 0 < den) (hden' : 0 < den')
    (h : (num / den : ℚ) ≤ num' / den') : (nearest num den).AtMost (nearest num' den') := by
  have hle := nearestMagnitude_le_of_le hden hden' ((quotient_le_quotient_iff hden hden').1 h)
  -- The greater quotient may overflow alone. Otherwise both are finite.
  rcases Nat.lt_or_eq_of_le (nearestMagnitude_le num' den') with hlt | heq
  · right
    rw [isFinite, isFinite, magnitude_nearest, magnitude_nearest, value_nearest, value_nearest]
    exact ⟨decide_eq_true (Nat.lt_of_le_of_lt hle hlt), decide_eq_true hlt, magnitudeValue_le hle⟩
  · exact .inl (nearest_eq_infinity_iff.2 heq)

/-- Equal quotients are rounded to the same bits. -/
theorem nearest_eq_of_eq {num' den' : Nat} (hden : 0 < den) (hden' : 0 < den')
    (h : (num / den : ℚ) = num' / den') : nearest num den = nearest num' den' := by
  -- Each quotient is at most the other, so crosswise the products are equal.
  have hcross : num * den' = num' * den :=
    Nat.le_antisymm ((quotient_le_quotient_iff hden hden').1 h.le)
      ((quotient_le_quotient_iff hden' hden).1 h.ge)
  rw [nearest, nearest, nearestMagnitude_eq_of_mul_eq hden hden' hcross]

end Double

/-! ## The number that a text denotes -/

namespace Grammar

/-- The number that the text of a number token denotes: the digits before the point count as in a
    whole number, and those behind it as in a whole number that is divided by a power of ten. -/
inductive Denotes : List Char → ℚ → Prop where
  | integer {whole : List Char} (hwhole : Digits whole) :
      Denotes whole (Nat.ofDigitChars 10 whole 0)
  | decimal {whole fraction : List Char} (hwhole : Digits whole) (hfraction : Digits fraction) :
      Denotes (whole ++ '.' :: fraction)
        (Nat.ofDigitChars 10 whole 0 + Nat.ofDigitChars 10 fraction 0 / 10 ^ fraction.length)

theorem point_not_mem_of_digits {ds : List Char} (h : Digits ds) : '.' ∉ ds := by
  intro hmem
  have hdigit := digit_iff.1 (h.2 '.' hmem)
  cases hdigit

/-- A text denotes one number at most. -/
theorem Denotes.unique {t : List Char} {q r : ℚ} (hq : Denotes t q) (hr : Denotes t r) : q = r := by
  generalize ht : t = u at hr
  -- A point tells the two forms apart, and there is only one in a decimal.
  cases hq with
  | integer hwhole =>
    cases hr with
    | integer => rw [ht]
    | decimal =>
      rw [ht] at hwhole
      exact absurd (List.mem_append_right _ List.mem_cons_self) (point_not_mem_of_digits hwhole)
  | decimal hwhole hfraction =>
    cases hr with
    | integer hwhole' =>
      rw [← ht] at hwhole'
      exact absurd (List.mem_append_right _ List.mem_cons_self) (point_not_mem_of_digits hwhole')
    | decimal hwhole' hfraction' =>
      obtain ⟨rfl, rfl⟩ := List.append_cons_inj_of_not_mem (point_not_mem_of_digits hwhole)
        (point_not_mem_of_digits hwhole') ht
      rfl

end Grammar

namespace Numeral

theorem den_pos (n : Numeral) : 0 < n.den := Nat.pow_pos (by decide)

/-- The value of a numeral, by the digits on both sides of the point. -/
theorem num_div_den (n : Numeral) :
    (n.num / n.den : ℚ) = Nat.ofDigitChars 10 n.whole 0 +
      Nat.ofDigitChars 10 n.fraction 0 / 10 ^ n.fraction.length := by
  have hpow : (10 ^ n.fraction.length : ℚ) ≠ 0 := pow_ne_zero _ (by norm_num)
  -- Behind the whole part the digits of the fraction make the number longer by their own count.
  rw [num, den, digitsValue_eq, Nat.ofDigitChars_append, Nat.ofDigitChars_eq_ofDigitChars_zero,
    Nat.cast_add, Nat.cast_mul, Nat.cast_pow, Nat.cast_ofNat, add_div, mul_div_cancel_left₀ _ hpow]

end Numeral

/-- The text of a number token denotes the value of the numeral that is rounded to the literal. -/
theorem Grammar.exists_numeral_of_tokenText {t : List Char} {literal : Option Literal}
    (h : TokenText t .number literal) :
    ∃ n : Numeral, Denotes t (n.num / n.den) ∧ literal = some (.number n.value) := by
  cases h with
  | integer hwhole =>
    refine ⟨⟨t, []⟩, ?_, rfl⟩
    rw [Numeral.num_div_den, Nat.ofDigitChars_nil, Nat.cast_zero, zero_div, add_zero]
    exact .integer hwhole
  | @decimal whole fraction hwhole hfraction =>
    refine ⟨⟨whole, fraction⟩, ?_, rfl⟩
    rw [Numeral.num_div_den]
    exact .decimal hwhole hfraction

/-! ## Number tokens -/

/-- The text of a number token denotes the value of a numeral, and the literal is its double. -/
theorem exists_numeral_of_number {source : String} {tokens : List Token}
    (h : scan source = .ok tokens) {t : Token} (ht : t ∈ tokens) (hkind : t.kind = .number) :
    ∃ n : Numeral, Grammar.Denotes t.lexeme.toList (n.num / n.den) ∧
      t.literal = some (.number n.value) := by
  have hne : t.kind ≠ .eof := by
    rw [hkind]
    exact Kind.noConfusion
  have htext := (scanned_of_mem_of_scan_eq_ok h t ht).tokenText hne
  -- The kind leaves the two forms of a number among the texts of tokens.
  rw [hkind] at htext
  exact Grammar.exists_numeral_of_tokenText htext

/-- The literal of a number token is the double that the number denoted by its text is rounded to.
    It depends on nothing but this number, and it grows with it. -/
theorem number_literal_correctlyRounded {source : String} {tokens : List Token}
    (h : scan source = .ok tokens) {t : Token} (ht : t ∈ tokens) (hkind : t.kind = .number) :
    ∃ q x, 0 ≤ q ∧ (∀ r, Grammar.Denotes t.lexeme.toList r ↔ r = q) ∧
      t.literal = some (.number x) ∧ x.CorrectlyRounded q ∧
      ∀ {source' : String} {tokens' : List Token} {t' : Token} {q' : ℚ},
        scan source' = .ok tokens' → t' ∈ tokens' → t'.kind = .number →
        Grammar.Denotes t'.lexeme.toList q' →
        ∃ x', t'.literal = some (.number x') ∧ (q = q' → x = x') ∧ (q ≤ q' → x.AtMost x') := by
  obtain ⟨n, hn, hliteral⟩ := exists_numeral_of_number h ht hkind
  refine ⟨n.num / n.den, n.value, div_nonneg (Nat.cast_nonneg _) (Nat.cast_nonneg _), ?_, hliteral,
    Double.correctlyRounded_nearest n.den_pos, ?_⟩
  · intro r
    exact ⟨fun hr => hr.unique hn, fun heq => heq ▸ hn⟩
  · intro source' tokens' t' q' h' ht' hkind' hq'
    -- The other text denotes the value of its own numeral, with which it is compared.
    obtain ⟨n', hn', hliteral'⟩ := exists_numeral_of_number h' ht' hkind'
    rw [hq'.unique hn']
    exact ⟨n'.value, hliteral', Double.nearest_eq_of_eq n.den_pos n'.den_pos,
      Double.atMost_nearest n.den_pos n'.den_pos⟩

/-- Zeros at both ends of a number change nothing. -/
theorem number_literal_correctlyRounded_of_zeros :
    ∃ x : Double, x.CorrectlyRounded (3 / 2) ∧
      scan "01.50 1.5" = .ok [⟨.number, "01.50", some (.number x), 0⟩,
        ⟨.number, "1.5", some (.number x), 0⟩, Token.eof 0] := by
  -- Nothing is computed of the doubles, because that would take all their bits.
  obtain ⟨x, y, hscan⟩ : ∃ x y, scan "01.50 1.5" = .ok [⟨.number, "01.50", some (.number x), 0⟩,
      ⟨.number, "1.5", some (.number y), 0⟩, Token.eof 0] :=
    ⟨Numeral.value ⟨['0', '1'], ['5', '0']⟩, Numeral.value ⟨['1'], ['5']⟩, by
      with_unfolding_all rfl⟩
  have hdenotes : Grammar.Denotes "01.50".toList (3 / 2) := by
    have hwhole : Grammar.Digits ['0', '1'] := by simp [Grammar.Digits, Grammar.digit_iff]
    have hfraction : Grammar.Digits ['5', '0'] := by simp [Grammar.Digits, Grammar.digit_iff]
    have hvalue : ((1 : Nat) + (50 : Nat) / 10 ^ 2 : ℚ) = 3 / 2 := by norm_num
    exact hvalue ▸ .decimal hwhole hfraction
  have hdenotes' : Grammar.Denotes "1.5".toList (3 / 2) := by
    have hwhole : Grammar.Digits ['1'] := by simp [Grammar.Digits, Grammar.digit_iff]
    have hfraction : Grammar.Digits ['5'] := by simp [Grammar.Digits, Grammar.digit_iff]
    have hvalue : ((1 : Nat) + (5 : Nat) / 10 ^ 1 : ℚ) = 3 / 2 := by norm_num
    exact hvalue ▸ .decimal hwhole hfraction
  obtain ⟨q, x', -, hq, hliteral, hrounded, hother⟩ :=
    number_literal_correctlyRounded hscan List.mem_cons_self rfl
  obtain ⟨y', hliteral', heq, -⟩ :=
    hother hscan (List.mem_cons_of_mem _ List.mem_cons_self) rfl hdenotes'
  obtain rfl := (hq _).1 hdenotes
  cases hliteral
  cases hliteral'
  rw [← heq rfl] at hscan
  exact ⟨x, hrounded, hscan⟩

end LoxLexer
