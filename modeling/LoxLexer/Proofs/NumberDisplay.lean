import LoxLexer.Proofs.Literals
import LoxLexer.Proofs.NumberText

/-!
# Scanning numbers as they are listed

A listing shows numbers between `0.0001` and `1e16` with a point, and these texts are numerals, so
scanning one gives the number back. Other numbers are shown with an exponent, which the scanner does
not know: it takes the exponent for a word, with a minus and another number behind it if it is
negative. Infinity is a word.

The bounds are doubles, and the double nearest to `0.0001` is not this number. A double has its
first digit at or above the bound exactly when it is not below the double that is the bound, because
reading digits back is monotone and the bounds themselves are written with these digits.

## Key results

- `Decimal.le_leadingExponent_iff`: where the first digit of a decimal stands
- `Double.le_leadingExponent_shortest_iff`: where the first digit of a double stands
- `Double.scan_display_of_positional`, `Double.exists_scan_display_of_not_positional`: what the text
  of a double scans to
- `scan_displayLiteral_of_number`: the number tokens that are shown as what scans back to them
-/

namespace LoxLexer

-- Powers of natural numbers are those of the core library, whatever else is imported.
attribute [local instance (high)] instPowNat

/-! ## The first digit -/

/-- A number has more digits than the exponents of the powers of ten that it reaches. -/
theorem ten_pow_le_iff {n : Nat} (h : 0 < n) (k : Nat) :
    10 ^ k ≤ n ↔ k < (Nat.toDigits 10 n).length := by
  cases k with
  | zero => exact iff_of_true h Nat.length_toDigits_pos
  | succ k =>
    -- A number has so many digits exactly if it is below that power.
    rw [← Nat.not_lt, ← Nat.length_toDigits_le_iff (by decide) (Nat.succ_pos k), Nat.not_le]

/-- A decimal reaches a power of ten exactly when its first digit does. -/
theorem Decimal.le_leadingExponent_iff {d : Decimal} (h : 0 < d.coefficient) (k : Int) :
    k ≤ d.leadingExponent ↔ 10 ^ k.toNat * d.den ≤ d.num * 10 ^ (-k).toNat := by
  obtain ⟨length, hlength⟩ : ∃ length, d.digits.length = length + 1 :=
    Nat.exists_eq_succ_of_ne_zero (Nat.ne_of_gt Nat.length_toDigits_pos)
  have hlow : 10 ^ length ≤ d.coefficient := (ten_pow_le_iff h length).2 (by
    rw [← digits, hlength]
    exact Nat.lt_succ_self length)
  have hhigh : d.coefficient < 10 ^ (length + 1) := Nat.lt_of_not_le fun hle => by
    have hlt := (ten_pow_le_iff h (length + 1)).1 hle
    rw [← digits, hlength] at hlt
    exact Nat.lt_irrefl _ hlt
  -- Both sides are brought to powers of ten with exponents that are not negative.
  have hnum : d.num * 10 ^ (-k).toNat = d.coefficient * 10 ^ (d.exponent.toNat + (-k).toNat) := by
    rw [num, Nat.mul_assoc, ← Nat.pow_add]
  rw [hnum, den, ← Nat.pow_add, leadingExponent, hlength]
  constructor
  · intro hle
    have hexponents : k.toNat + (-d.exponent).toNat ≤ length + (d.exponent.toNat + (-k).toNat) := by
      omega
    calc 10 ^ (k.toNat + (-d.exponent).toNat)
      _ ≤ 10 ^ (length + (d.exponent.toNat + (-k).toNat)) :=
        Nat.pow_le_pow_right (by decide) hexponents
      _ ≤ d.coefficient * 10 ^ (d.exponent.toNat + (-k).toNat) := by
        rw [Nat.pow_add]
        exact Nat.mul_le_mul_right _ hlow
  · intro hle
    refine Int.le_of_not_gt fun hlt => Nat.not_lt.2 hle ?_
    have hexponents :
        length + 1 + (d.exponent.toNat + (-k).toNat) ≤ k.toNat + (-d.exponent).toNat := by
      omega
    calc d.coefficient * 10 ^ (d.exponent.toNat + (-k).toNat)
      _ < 10 ^ (length + 1) * 10 ^ (d.exponent.toNat + (-k).toNat) :=
        (Nat.mul_lt_mul_right (Nat.pow_pos (by decide))).2 hhigh
      _ ≤ 10 ^ (k.toNat + (-d.exponent).toNat) := by
        rw [← Nat.pow_add]
        exact Nat.pow_le_pow_right (by decide) hexponents

namespace Double

/-- A double is written with digits that reach a power of ten exactly when it reaches the double
    nearest to this power, if this double itself is written with such digits. -/
theorem le_leadingExponent_shortest_iff {tie : Tie} {magnitude : Nat}
    (h : magnitude < infinityMagnitude) (hne : magnitude ≠ 0) {k : Int}
    (hk : k ≤ (shortest tie
      (nearestMagnitude (10 ^ k.toNat) (10 ^ (-k).toNat))).leadingExponent) :
    k ≤ (shortest tie magnitude).leadingExponent ↔
      nearestMagnitude (10 ^ k.toNat) (10 ^ (-k).toNat) ≤ magnitude := by
  have hmagnitude := nearestMagnitude_shortest tie h
  have hden : 0 < (shortest tie magnitude).den := Decimal.den_pos _
  have hpow : 0 < 10 ^ (-k).toNat := Nat.pow_pos (by decide)
  have hpos : 0 < (shortest tie magnitude).coefficient := coefficient_shortest_pos h hne
  have hiff := Decimal.le_leadingExponent_iff hpos k
  constructor
  -- The digits are rounded to the double again, and so is the power to its own double.
  · intro hle
    have hround := nearestMagnitude_le_of_le hpow hden (hiff.1 hle)
    rwa [hmagnitude] at hround
  · intro hle
    -- Otherwise the digits would be read back as the bound, which has other digits.
    by_contra hlt
    have hbelow := Nat.le_of_not_le (mt hiff.2 hlt)
    have hround := nearestMagnitude_le_of_le hden hpow hbelow
    rw [hmagnitude] at hround
    rw [Nat.le_antisymm hle hround] at hk
    exact hlt hk

/-! ## The positional range -/

/-- The numbers that a listing shows with a point and without an exponent: zero, and those from
    `0.0001`, as a double, to below `1e16`. -/
def Positional (x : Double) : Prop :=
  x.isFinite ∧ (x.value = 0 ∨
    (nearest 1 10000).value ≤ x.value ∧ x.value < (nearest 10000000000000000 1).value)

/-- The range by magnitudes. -/
theorem positional_iff {x : Double} (h : x.isNegative = false) :
    x.Positional ↔ x.magnitude < infinityMagnitude ∧ (x.magnitude = 0 ∨
      nearestMagnitude 1 10000 ≤ x.magnitude ∧
        x.magnitude < nearestMagnitude 10000000000000000 1) := by
  -- Of the magnitudes only zero has the value zero.
  have hzero : magnitudeValue x.magnitude = 0 ↔ x.magnitude = 0 := by
    constructor
    · intro hvalue
      by_contra hne
      exact (magnitudeValue_pos hne).ne' hvalue
    · intro hmagnitude
      rw [hmagnitude, magnitudeValue_zero]
  rw [Positional, value_of_not_negative h, value_nearest, value_nearest, magnitudeValue_le_iff,
    ← not_le, magnitudeValue_le_iff, Nat.not_le, hzero, isFinite, decide_eq_true_iff]

/-- The bounds of the range are written with their own powers of ten. -/
theorem le_leadingExponent_shortest_bounds :
    -4 ≤ (shortest .up (nearestMagnitude 1 10000)).leadingExponent ∧
      16 ≤ (shortest .up (nearestMagnitude 10000000000000000 1)).leadingExponent := by
  decide +kernel

/-- A positive double is in the range exactly when its first digit is. -/
theorem leadingExponent_shortest_bounds_iff {m : Nat} (h : m < infinityMagnitude) :
    (-4 ≤ (shortest .up m).leadingExponent ∧ (shortest .up m).leadingExponent < 16) ↔
      m = 0 ∨ nearestMagnitude 1 10000 ≤ m ∧ m < nearestMagnitude 10000000000000000 1 := by
  -- Zero is written as a zero, whose exponent is in the range, and has no first digit to compare.
  by_cases hm : m = 0
  · subst hm
    exact iff_of_true (by decide +kernel) (.inl rfl)
  · obtain ⟨hleast, hbound⟩ := le_leadingExponent_shortest_bounds
    have hlow : -4 ≤ (shortest .up m).leadingExponent ↔ nearestMagnitude 1 10000 ≤ m :=
      le_leadingExponent_shortest_iff h hm hleast
    have hhigh : 16 ≤ (shortest .up m).leadingExponent ↔
        nearestMagnitude 10000000000000000 1 ≤ m := le_leadingExponent_shortest_iff h hm hbound
    rw [← Int.not_le, hlow, hhigh, Nat.not_le, or_iff_right hm]

end Double

/-! ## Scanning the texts of numbers -/

/-- The text of a numeral scans to its number. -/
theorem scan_numeral {n : Numeral} (hn : n.WellFormed) :
    scan (String.ofList n.text) =
      .ok [⟨.number, String.ofList n.text, some (.number n.value), 0⟩, Token.eof 0] := by
  have hlines : n.text.count '\n' = 0 :=
    List.count_eq_zero.2 (Piece.lineFeed_not_mem_text (p := .number n) hn rfl Kind.noConfusion)
  have hscan : ScansTo n.text .number (some (.number n.value)) :=
    scansTo_text (p := .number n) hn rfl
  rwa [ScansTo, hlines] at hscan

/-- An exponent is a word, or a word, a minus and a number. -/
theorem exists_yield_exponent (line : Nat) (e : Int) :
    ∃ t more last, (Cut.startingAt line
      ('e' :: ((if e < 0 then "-" else "").toList ++ Nat.toDigits 10 e.natAbs))).yield =
        (t :: more, last, []) := by
  have hdigits := forall_mem_toDigits_isDigit e.natAbs
  -- The minus of an exponent is no part of a word, but digits are.
  by_cases hneg : e < 0
  · have hword : (Piece.word ['e']).WellFormed := ⟨'e', [], rfl, rfl, List.forall_mem_nil _⟩
    have hnumber : (Piece.number ⟨Nat.toDigits 10 e.natAbs, []⟩).WellFormed :=
      ⟨Nat.toDigits_ne_nil, hdigits, List.forall_mem_nil _⟩
    have hstops (rest : List Char) : (Piece.word ['e']).Stops ('-' :: rest) := by
      rintro _ ⟨⟩
      rfl
    have hminus := Cut.yield_token_append (p := .symbol .minus)
      (line + (Piece.word ['e']).lineFeeds) trivial rfl trivial (Cut.yield_token _ hnumber rfl)
    have hyield := Cut.yield_token_append line hword rfl (hstops _) hminus
    have htext : (Piece.number ⟨Nat.toDigits 10 e.natAbs, []⟩).text = Nat.toDigits 10 e.natAbs :=
      Numeral.text_of_fraction_eq_nil rfl
    rw [htext] at hyield
    rw [if_pos hneg]
    exact ⟨_, _, _, hyield⟩
  · have hword : (Piece.word ('e' :: Nat.toDigits 10 e.natAbs)).WellFormed :=
      ⟨'e', _, rfl, rfl, fun d hd => by simp [Piece.continuesWord, Char.isAlphanum, hdigits d hd]⟩
    rw [if_neg hneg]
    exact ⟨_, _, _, Cut.yield_token line hword rfl⟩

/-- The exponent behind a number is no part of the number. -/
theorem exists_scan_scientific {c : Char} {cs : List Char} (hc : c.isDigit)
    (hcs : ∀ d ∈ cs, d.isDigit) (e : Int) :
    ∃ t t' more last, scan (String.ofList (NumberStyle.scientific "" (c :: cs) e)) =
      .ok (t :: t' :: more ++ [Token.eof last]) := by
  have hnumber : (Piece.number ⟨[c], cs⟩).WellFormed :=
    ⟨List.cons_ne_nil _ _, List.forall_mem_singleton.2 hc, hcs⟩
  -- An exponent is no digit and no point, so the numeral ends before it.
  have hstops (rest : List Char) : (Piece.number ⟨[c], cs⟩).Stops ('e' :: rest) := by
    constructor
    · rintro _ ⟨⟩
      rfl
    · rintro _ _ ⟨⟩
  obtain ⟨t, more, last, hexponent⟩ := exists_yield_exponent _ e
  have hyield := Cut.yield_token_append 0 hnumber rfl (hstops _) hexponent
  rw [scientific_cons, scan_ofList]
  exact ⟨_, t, more, last, Cut.scan_of_yield_eq hyield⟩

namespace Double

variable {x : Double}

/-- The shortest decimal of a finite double that is not negative is rounded to it. -/
theorem nearest_shortest (tie : Tie) (hfinite : x.isFinite) (hsign : x.isNegative = false) :
    nearest (shortest tie x.magnitude).num (shortest tie x.magnitude).den = x := by
  -- The sign is taken from the double, and its magnitude is read back from the digits.
  apply eq_of_magnitude_eq
  · rw [isNegative_nearest, hsign]
  · rw [magnitude_nearest, nearestMagnitude_shortest tie (of_decide_eq_true hfinite)]

theorem display_of_isFinite (hfinite : x.isFinite) (hsign : x.isNegative = false) :
    x.display = String.ofList (NumberStyle.plain.layOut (shortest .up x.magnitude)) := by
  have hlt : x.magnitude < infinityMagnitude := of_decide_eq_true hfinite
  have hnan : x.isNaN = false := decide_eq_false (Nat.lt_asymm hlt)
  rw [display, if_neg (by simp [hnan]), if_pos hfinite, NumberStyle.render,
    if_neg (by simp [hsign])]
  rfl

theorem display_of_not_isFinite (hfinite : ¬ x.isFinite) (hnan : x.isNaN = false)
    (hsign : x.isNegative = false) : x.display = "inf" := by
  rw [display, if_neg (by simp [hnan]), if_neg hfinite, if_neg (by simp [hsign])]

theorem positional_iff_leadingExponent (hfinite : x.isFinite) (hsign : x.isNegative = false) :
    x.Positional ↔
      NumberStyle.plain.least ≤ (shortest .up x.magnitude).leadingExponent ∧
        (shortest .up x.magnitude).leadingExponent < NumberStyle.plain.bound := by
  have hlt : x.magnitude < infinityMagnitude := of_decide_eq_true hfinite
  rw [positional_iff hsign, and_iff_right hlt]
  exact (leadingExponent_shortest_bounds_iff hlt).symm

/-- A number in the range is shown as a numeral, so it is scanned back. -/
theorem scan_display_of_positional (h : x.Positional) (hsign : x.isNegative = false) :
    scan x.display = .ok [⟨.number, x.display, some (.number x), 0⟩, Token.eof 0] := by
  have hfinite := h.1
  have hlt : x.magnitude < infinityMagnitude := of_decide_eq_true hfinite
  have hzero : 0 < (shortest .up x.magnitude).leadingExponent →
      (shortest .up x.magnitude).coefficient ≠ 0 := coefficient_shortest_ne_zero hlt
  -- What is shown is a numeral with the value of the shortest decimal.
  obtain ⟨n, hform, htext⟩ := Decimal.exists_pointForm hzero
  have hvalue : n.value = x :=
    (Numeral.value_eq_of_sameValue hform.sameValue).trans (nearest_shortest .up hfinite hsign)
  have hdisplay : x.display = String.ofList n.text := by
    rw [display_of_isFinite hfinite hsign, NumberStyle.layOut,
      if_pos ((positional_iff_leadingExponent hfinite hsign).1 h), htext]
  rw [hdisplay, scan_numeral hform.wellFormed, hvalue]

/-- A number out of the range is shown with an exponent, or it is infinite, so it is not scanned as
    a number. -/
theorem exists_scan_display_of_not_positional (h : ¬ x.Positional) (hnan : x.isNaN = false)
    (hsign : x.isNegative = false) :
    ∃ shown, scan x.display = .ok shown ∧
      ∀ t last, shown = [t, Token.eof last] → t.kind ≠ .number := by
  by_cases hfinite : x.isFinite
  · have hdigits := forall_mem_toDigits_isDigit (shortest .up x.magnitude).coefficient
    obtain ⟨c, cs, hcons⟩ :
        ∃ c cs, Nat.toDigits 10 (shortest .up x.magnitude).coefficient = c :: cs :=
      List.exists_cons_of_ne_nil Nat.toDigits_ne_nil
    rw [hcons] at hdigits
    obtain ⟨hc, hcs⟩ := List.forall_mem_cons.1 hdigits
    obtain ⟨t, t', more, last, hscan⟩ := exists_scan_scientific hc hcs
      (shortest .up x.magnitude).leadingExponent
    have hdisplay : x.display = String.ofList (NumberStyle.scientific "" (c :: cs)
        (shortest .up x.magnitude).leadingExponent) := by
      rw [display_of_isFinite hfinite hsign, NumberStyle.layOut,
        if_neg (mt (positional_iff_leadingExponent hfinite hsign).2 h), Decimal.digits, hcons]
      rfl
    refine ⟨_, hdisplay ▸ hscan, ?_⟩
    -- Two tokens and more stand before the end of the input.
    intro u last' heq
    have hlength := congrArg List.length heq
    simp at hlength
  · -- Infinity is shown as a word.
    have hscan : scan "inf" = .ok [⟨.identifier, "inf", none, 0⟩, Token.eof 0] := by
      with_unfolding_all rfl
    refine ⟨_, display_of_not_isFinite hfinite hnan hsign ▸ hscan, ?_⟩
    rintro t last heq hkind
    rw [← (List.cons.inj heq).1] at hkind
    cases hkind

end Double

/-- A listing shows the literal of a number token so that it can be scanned. This gives one number
    token exactly if the number is zero or lies from `0.0001` to below `1e16`, and then the token
    has the text that was shown and the bits of the number. -/
theorem scan_displayLiteral_of_number {source : String} {tokens : List Token}
    (h : scan source = .ok tokens) {t : Token} (ht : t ∈ tokens) (hkind : t.kind = .number) :
    ∃ x shown, t.literal = some (.number x) ∧ scan t.displayLiteral = .ok shown ∧
      ((∃ t' last, shown = [t', Token.eof last] ∧ t'.kind = .number) ↔ x.Positional) ∧
      (x.Positional →
        shown = [⟨.number, t.displayLiteral, some (.number x), 0⟩, Token.eof 0]) := by
  obtain ⟨n, -, hliteral⟩ := exists_numeral_of_number h ht hkind
  have hrounded : n.value.CorrectlyRounded (n.num / n.den) :=
    Double.correctlyRounded_nearest n.den_pos
  have hsign : n.value.isNegative = false := hrounded.isNegative_eq_false
  have hnan : n.value.isNaN = false := hrounded.isNaN_eq_false
  have hdisplay : t.displayLiteral = n.value.display := by
    rw [Token.displayLiteral, hliteral]
    rfl
  -- Literals are never negative and never not-a-number, so the range decides.
  by_cases hpositional : n.value.Positional
  · have hscan := Double.scan_display_of_positional hpositional hsign
    rw [← hdisplay] at hscan
    exact ⟨n.value, _, hliteral, hscan, iff_of_true ⟨_, 0, rfl, rfl⟩ hpositional, fun _ => rfl⟩
  · obtain ⟨shown, hscan, hshown⟩ :=
      Double.exists_scan_display_of_not_positional hpositional hnan hsign
    rw [← hdisplay] at hscan
    refine ⟨n.value, shown, hliteral, hscan, iff_of_false ?_ hpositional,
      fun h => absurd h hpositional⟩
    rintro ⟨t', last, heq, hnumber⟩
    exact hshown t' last heq hnumber

/-- The text of a number may have more zeros than what is shown, and a smaller number has an
    exponent. -/
theorem scan_displayLiteral_of_small_numbers :
    ∃ x y shown, scan "0.00010 0.00001" = .ok [⟨.number, "0.00010", some (.number x), 0⟩,
        ⟨.number, "0.00001", some (.number y), 0⟩, Token.eof 0] ∧
      x.Positional ∧ x.display = "0.0001" ∧
      scan "0.0001" = .ok [⟨.number, "0.0001", some (.number x), 0⟩, Token.eof 0] ∧
      ¬ y.Positional ∧ y.display = "1e-5" ∧ scan "1e-5" = .ok shown ∧
      ¬ ∃ t last, shown = [t, Token.eof last] ∧ t.kind = .number := by
  -- The bits of the numbers are computed for what is said of them alone, and not for the scans.
  obtain ⟨x, y, hscan, hx, hxs, hy, hys⟩ : ∃ x y : Double,
      scan "0.00010 0.00001" = .ok [⟨.number, "0.00010", some (.number x), 0⟩,
        ⟨.number, "0.00001", some (.number y), 0⟩, Token.eof 0] ∧
      x.Positional ∧ x.display = "0.0001" ∧ ¬ y.Positional ∧ y.display = "1e-5" := by
    refine ⟨Numeral.value ⟨['0'], ['0', '0', '0', '1', '0']⟩,
      Numeral.value ⟨['0'], ['0', '0', '0', '0', '1']⟩, by with_unfolding_all rfl,
      (Double.positional_iff (Double.isNegative_nearest _ _)).2 ?_, by decide +kernel,
      mt (Double.positional_iff (Double.isNegative_nearest _ _)).1 ?_, by decide +kernel⟩ <;>
    decide +kernel
  obtain ⟨_, _, hliteral, hshown, -, hback⟩ :=
    scan_displayLiteral_of_number hscan List.mem_cons_self rfl
  obtain ⟨_, shown, hliteral', hshown', hiff, -⟩ :=
    scan_displayLiteral_of_number hscan (List.mem_cons_of_mem _ List.mem_cons_self) rfl
  cases hliteral
  cases hliteral'
  have hx' : Token.displayLiteral ⟨.number, "0.00010", some (.number x), 0⟩ = "0.0001" := hxs
  have hy' : Token.displayLiteral ⟨.number, "0.00001", some (.number y), 0⟩ = "1e-5" := hys
  rw [hback hx, hx'] at hshown
  rw [hy'] at hshown'
  exact ⟨x, y, shown, hscan, hx, hxs, hshown, hy, hys, hshown', mt hiff.1 hy⟩

end LoxLexer
