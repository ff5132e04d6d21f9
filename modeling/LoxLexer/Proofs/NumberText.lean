import LoxLexer.Double.Style
import LoxLexer.Proofs.Boundary
import LoxLexer.Proofs.Rounding

/-!
# The text of a decimal

Digits around a point are the text of a numeral that writes the same number, with a digit on both
sides of the point and no zero before the other digits. A number with an exponent begins with the
text of a numeral, and the exponent follows it.

## Key results

- `Numeral.value_eq_of_sameValue`: numerals are rounded as the decimals that they write
- `Decimal.exists_pointForm`: the positional text of a decimal is a numeral of the same value
- `scientific_cons`: the text of a decimal with an exponent begins with a numeral
- `Double.lineFeed_not_mem_display`: a number is listed on one line
-/

namespace LoxLexer

-- Powers of natural numbers are those of the core library, whatever else is imported.
attribute [local instance (high)] instPowNat

/-! ## Digits -/

/-- A positive number has no zero in front. -/
theorem head?_toDigits_ne {n : Nat} (h : 0 < n) : (Nat.toDigits 10 n).head? ≠ some '0' := by
  -- The last digit is split off, so the first digit is that of the tenth.
  induction n using Nat.strongRecOn with
  | ind n ih =>
    rw [Nat.toDigits_eq_if (by decide)]
    by_cases hsmall : n < 10
    · rw [if_pos hsmall]
      have hdigits : ∀ m < 10, 0 < m → [Nat.digitChar m].head? ≠ some '0' := by decide
      exact hdigits n hsmall h
    · rw [if_neg hsmall]
      have hhead := ih (n / 10) (by omega) (by omega)
      cases hdigits : Nat.toDigits 10 (n / 10) with
      | nil => exact absurd hdigits Nat.toDigits_ne_nil
      | cons c cs =>
        rw [hdigits] at hhead
        exact hhead

theorem forall_mem_toDigits_isDigit (n : Nat) : ∀ c ∈ Nat.toDigits 10 n, c.isDigit :=
  fun _ hc => Nat.isDigit_of_mem_toDigits (by decide) (by decide) hc

theorem forall_mem_append_replicate_isDigit {ds : List Char} (hds : ∀ c ∈ ds, c.isDigit) (n : Nat) :
    ∀ c ∈ ds ++ List.replicate n '0', c.isDigit := by
  intro c hc
  rcases List.mem_append.1 hc with hc | hc
  · exact hds c hc
  · rw [List.eq_of_mem_replicate hc]
    rfl

/-! ## Numerals with a point -/

namespace Numeral

/-- The number that the numeral writes, as a decimal. -/
def decimal (n : Numeral) : Decimal :=
  ⟨Nat.ofDigitChars 10 (n.whole ++ n.fraction) 0, -n.fraction.length⟩

theorem num_decimal (n : Numeral) : n.decimal.num = n.num := by
  rw [Decimal.num, decimal, Int.toNat_neg_natCast, Nat.pow_zero, Nat.mul_one, num, digitsValue_eq]

theorem den_decimal (n : Numeral) : n.decimal.den = n.den := by
  rw [Decimal.den, decimal, Int.neg_neg, Int.toNat_natCast, den]

/-- A numeral is rounded as the decimal that it writes. -/
theorem value_eq_of_sameValue {n : Numeral} {d : Decimal} (h : n.decimal.SameValue d) :
    -- The decimal of a numeral has its parts for a numerator and a denominator.
    n.value = Double.nearest d.num d.den := by
  rw [value, Double.nearest, Double.nearest, ← h.nearestMagnitude_eq, num_decimal, den_decimal]

/-- The numeral writes a decimal with digits on both sides of the point, with a zero in front only
    if it is alone there. -/
structure PointForm (n : Numeral) (d : Decimal) : Prop where
  wellFormed : n.WellFormed
  fraction_ne_nil : n.fraction ≠ []
  eq_of_head?_whole : n.whole.head? = some '0' → n.whole = ['0']
  sameValue : n.decimal.SameValue d

variable {ds : List Char} {e : Int}

/-- A number below one has zeros behind the point and before its digits. -/
theorem pointForm_zeros (hds : ∀ c ∈ ds, c.isDigit) (hne : ds ≠ []) (n : Nat) :
    PointForm ⟨['0'], List.replicate n '0' ++ ds⟩
      ⟨Nat.ofDigitChars 10 ds 0, -(n + ds.length)⟩ where
  wellFormed := by
    -- The zeros stand before the digits here, but digits and zeros are all that matters.
    refine ⟨List.cons_ne_nil _ _, List.forall_mem_singleton.2 rfl, fun c hc => ?_⟩
    have hc' := List.mem_append.2 (List.mem_append.1 hc).symm
    exact forall_mem_append_replicate_isDigit hds n c hc'
  fraction_ne_nil := by simp [hne]
  eq_of_head?_whole _ := rfl
  sameValue := by
    have hvalue : Nat.ofDigitChars 10 (['0'] ++ (List.replicate n '0' ++ ds)) 0 =
        Nat.ofDigitChars 10 ds 0 := by
      rw [Nat.ofDigitChars_append, Nat.ofDigitChars_append, Nat.ofDigitChars_replicate_zero]
      rfl
    rw [decimal, hvalue, List.length_append, List.length_replicate, Int.natCast_add]
    rfl

/-- A whole number has zeros behind its digits and one zero behind the point. -/
theorem pointForm_padded (n : Nat) (hdigits : ∀ c ∈ ds, c.isDigit) (hne : ds ≠ [])
    (hzero : (ds ++ List.replicate n '0').head? = some '0' →
      ds ++ List.replicate n '0' = ['0']) :
    PointForm ⟨ds ++ List.replicate n '0', ['0']⟩ ⟨Nat.ofDigitChars 10 ds 0, n⟩ where
  wellFormed := ⟨by simp [hne], forall_mem_append_replicate_isDigit hdigits n,
    List.forall_mem_singleton.2 rfl⟩
  fraction_ne_nil := List.cons_ne_nil _ _
  eq_of_head?_whole := hzero
  sameValue := by
    -- The zero behind the point counts like those before it, but shifts the point by one.
    have hvalue : Nat.ofDigitChars 10 (ds ++ List.replicate n '0' ++ ['0']) 0 =
        Nat.ofDigitChars 10 ds 0 * 10 ^ (n + 1) := by
      rw [List.append_assoc, ← List.replicate_succ', Nat.ofDigitChars_append,
        Nat.ofDigitChars_replicate_zero, Nat.mul_comm]
    have hexponent : (n : Int) = -([('0' : Char)].length : Int) + (n + 1 : Nat) := by
      rw [List.length_singleton]
      omega
    rw [decimal, hvalue, hexponent]
    exact Decimal.sameValue_mul_ten_pow _ _ _

/-- The point divides the digits. -/
theorem pointForm_split (hds : ∀ c ∈ ds, c.isDigit) {n : Nat} (hpos : 0 < n) (hn : n < ds.length)
    (hzero : (ds.take n).head? = some '0' → ds.take n = ['0']) :
    PointForm ⟨ds.take n, ds.drop n⟩ ⟨Nat.ofDigitChars 10 ds 0, n - ds.length⟩ where
  wellFormed := by
    -- The point stands behind the first digit and before the last, so neither side is empty.
    have hne : ds.take n ≠ [] := List.length_pos_iff.1 (by rw [List.length_take]; omega)
    exact ⟨hne, fun c hc => hds c (List.mem_of_mem_take hc),
      fun c hc => hds c (List.mem_of_mem_drop hc)⟩
  fraction_ne_nil := by simpa using hn
  eq_of_head?_whole := hzero
  sameValue := by
    have hexponent : -((ds.drop n).length : Int) = n - ds.length := by
      rw [List.length_drop]
      omega
    rw [decimal, List.take_append_drop, hexponent]
    rfl

end Numeral

/-! ## Positional and scientific texts -/

variable {ds : List Char} {e : Int}

/-- The positional text of digits, the first of which has this exponent, is a numeral with a point.
    Where others stand before the point as well, the first digit must not be a zero. -/
theorem exists_pointForm_positional (hds : ∀ c ∈ ds, c.isDigit) (hne : ds ≠ [])
    (hzero : 0 < e → ds.head? ≠ some '0') :
    ∃ n : Numeral, n.PointForm ⟨Nat.ofDigitChars 10 ds 0, e + 1 - ds.length⟩ ∧
      NumberStyle.positional ds e = n.text := by
  rw [NumberStyle.positional]
  -- The exponent tells on which side of the digits the point stands, or between which of them.
  by_cases hneg : e < 0
  · have hform := Numeral.pointForm_zeros hds hne (-e - 1).toNat
    have hexponent : -(((-e - 1).toNat : Int) + ds.length) = e + 1 - ds.length := by omega
    rw [hexponent] at hform
    rw [if_pos hneg]
    exact ⟨_, hform, (Numeral.text_of_fraction_ne_nil hform.fraction_ne_nil).symm⟩
  rw [if_neg hneg]
  dsimp only
  -- The digits before the point begin with a zero only if the exponent is zero.
  have hwhole (k : Nat) :
      ((ds ++ List.replicate k '0').take (e.toNat + 1)).head? = some '0' →
        (ds ++ List.replicate k '0').take (e.toNat + 1) = ['0'] := by
    obtain ⟨c, cs, rfl⟩ := List.exists_cons_of_ne_nil hne
    intro hhead
    obtain rfl : c = '0' := by simpa using hhead
    have he : e.toNat = 0 := by
      by_contra hpos
      exact hzero (by omega) rfl
    rw [he]
    rfl
  by_cases hshort : ds.length ≤ e.toNat + 1
  · -- All digits stand before the point, with k zeros behind them.
    obtain ⟨k, hk⟩ := Nat.exists_eq_add_of_le hshort
    have hpadding : e.toNat + 1 - ds.length = k := by omega
    have hlength : (ds ++ List.replicate k '0').length = e.toNat + 1 := by
      rw [List.length_append, List.length_replicate, hk]
    have htake := List.take_of_length_le (Nat.le_of_eq hlength)
    have hform := Numeral.pointForm_padded k hds hne (htake ▸ hwhole k)
    have hexponent : (k : Int) = e + 1 - ds.length := by omega
    rw [hexponent] at hform
    rw [hpadding, hlength, if_pos (Nat.le_refl _), htake]
    exact ⟨_, hform, (Numeral.text_of_fraction_ne_nil hform.fraction_ne_nil).symm⟩
  · -- Some digits are left for behind the point, and there is no padding.
    have hform := Numeral.pointForm_split hds (Nat.succ_pos e.toNat) (Nat.lt_of_not_le hshort)
      (by simpa using hwhole 0)
    have hpadding : e.toNat + 1 - ds.length = 0 := by omega
    have hexponent : ((e.toNat + 1 : Nat) : Int) - ds.length = e + 1 - ds.length := by omega
    rw [hexponent] at hform
    rw [hpadding, List.replicate_zero, List.append_nil, if_neg hshort]
    exact ⟨_, hform, (Numeral.text_of_fraction_ne_nil hform.fraction_ne_nil).symm⟩

/-- An exponent stands behind the text of a numeral with one digit before its point. -/
theorem scientific_cons (plus : String) (c : Char) (cs : List Char) (e : Int) :
    NumberStyle.scientific plus (c :: cs) e = Numeral.text ⟨[c], cs⟩ ++
      'e' :: ((if e < 0 then "-" else plus).toList ++ Nat.toDigits 10 e.natAbs) := by
  -- A single digit has no point behind it, in either definition.
  cases cs <;> simp [NumberStyle.scientific, Numeral.text, Numeral.tail]

/-- The digits of a decimal, the first of which has the leading exponent, write the decimal. -/
theorem Decimal.eq_of_digits (d : Decimal) :
    ⟨Nat.ofDigitChars 10 d.digits 0, d.leadingExponent + 1 - d.digits.length⟩ = d := by
  have hexponent : d.leadingExponent + 1 - d.digits.length = d.exponent := by
    rw [leadingExponent]
    omega
  rw [hexponent, digits, Nat.ofDigitChars_ten_toDigits]

/-- The positional text of a decimal is a numeral that writes it. -/
theorem Decimal.exists_pointForm {d : Decimal} (hzero : 0 < d.leadingExponent → d.coefficient ≠ 0) :
    ∃ n : Numeral, n.PointForm d ∧
      NumberStyle.positional d.digits d.leadingExponent = n.text := by
  have hform := exists_pointForm_positional (forall_mem_toDigits_isDigit d.coefficient)
    Nat.toDigits_ne_nil fun hpos => head?_toDigits_ne (Nat.pos_of_ne_zero (hzero hpos))
  rwa [← digits, eq_of_digits] at hform

/-! ## Numbers on one line -/

theorem lineFeed_not_mem_toDigits (n : Nat) : '\n' ∉ Nat.toDigits 10 n := by
  intro hmem
  have hdigit : '\n'.isDigit = true := Nat.isDigit_of_mem_toDigits (by decide) (by decide) hmem
  cases hdigit

namespace NumberStyle

theorem lineFeed_not_mem_positional {digits : List Char} (h : '\n' ∉ digits) (exponent : Int) :
    '\n' ∉ positional digits exponent := by
  have hpadded (n : Nat) : '\n' ∉ digits ++ List.replicate n '0' := by
    simp [List.mem_append, h]
  -- The zeros that are filled in are no line feeds either.
  rw [positional]
  split
  · simp [h]
  · intro hmem
    obtain hwhole | hfraction := List.mem_append.1 hmem
    · exact hpadded _ (List.mem_of_mem_take hwhole)
    · -- Behind the point there is a zero or the rest of the digits.
      have hfraction := List.mem_of_ne_of_mem (by decide) hfraction
      split at hfraction
      · cases List.mem_singleton.1 hfraction
      · exact hpadded _ (List.mem_of_mem_drop hfraction)

theorem lineFeed_not_mem_scientific {digits : List Char} (h : '\n' ∉ digits) (exponent : Int) :
    '\n' ∉ scientific "" digits exponent := by
  intro hmem
  unfold scientific at hmem
  rw [List.mem_append, List.mem_append] at hmem
  -- The mantissa, the sign of the exponent and the exponent.
  obtain (hmantissa | hsign) | hdigits := hmem
  · split at hmantissa
    · exact h (by simpa using hmantissa)
    · exact h hmantissa
  · have hsign := List.mem_of_ne_of_mem (by decide) hsign
    split at hsign
    · cases List.mem_singleton.1 hsign
    · cases hsign
  · exact lineFeed_not_mem_toDigits _ hdigits

end NumberStyle

/-- A number is listed without a line feed. -/
theorem Double.lineFeed_not_mem_display (x : Double) : '\n' ∉ x.display.toList := by
  have hdigits (d : Decimal) : '\n' ∉ d.digits := lineFeed_not_mem_toDigits _
  have hlayOut (d : Decimal) : '\n' ∉ NumberStyle.plain.layOut d := by
    rw [NumberStyle.layOut]
    split
    · exact NumberStyle.lineFeed_not_mem_positional (hdigits d) _
    · exact NumberStyle.lineFeed_not_mem_scientific (hdigits d) _
  rw [Double.display]
  split
  · decide
  · split
    · rw [NumberStyle.render, String.toList_ofList]
      split <;> simp [hlayOut]
    · split <;> decide

end LoxLexer
