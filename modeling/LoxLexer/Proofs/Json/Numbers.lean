import LoxLexer.Proofs.Json.Reader
import LoxLexer.Proofs.NumberText
import LoxLexer.Json

/-!
# Reading numbers back

What is written for a number is read as this number, by the parts of the text: digits before a
point, digits behind it, an exponent. A double is written with a point or an exponent, so it is
never read as an integer, and what is read has the value of its shortest decimal, which is rounded
to the double.

## Key results

- `Json.writes_layOut`: the text of a decimal is read as a number of the same value
- `Json.exists_number_render`: the text of a finite double is read as a number that is this double
- `Json.exists_number_toDigits`: the text of a natural number is read as this number
-/

namespace LoxLexer

-- Powers of natural numbers are those of the core library, whatever else is imported.
attribute [local instance (high)] instPowNat

namespace Json

/-! ## The parts of a number -/

/-- What follows cannot belong to a number. -/
def NumberEnd (rest : List Char) : Prop :=
  ∀ c ∈ rest.head?, c.isDigit = false ∧ c ≠ '.' ∧ c ≠ 'e' ∧ c ≠ 'E'

theorem numberEnd_cons {c : Char} (hdigit : c.isDigit = false) (h : c ≠ '.' ∧ c ≠ 'e' ∧ c ≠ 'E')
    (rest : List Char) : NumberEnd (c :: rest) := by
  rintro _ ⟨⟩
  exact ⟨hdigit, h⟩

/-- One digit or more, with a zero in front only if it is alone. -/
structure IsWhole (ds : List Char) : Prop where
  isDigit : ∀ c ∈ ds, c.isDigit
  ne_nil : ds ≠ []
  eq_of_head? : ds.head? = some '0' → ds = ['0']

theorem isWhole_toDigits (n : Nat) : IsWhole (Nat.toDigits 10 n) where
  isDigit := forall_mem_toDigits_isDigit n
  ne_nil := Nat.toDigits_ne_nil
  eq_of_head? h := by
    -- Zero is written as a single zero, and every other number without one in front.
    obtain rfl | hpos := Nat.eq_zero_or_pos n
    · rfl
    · exact absurd h (head?_toDigits_ne hpos)

namespace Read

variable {ds rest : List Char}

theorem digits_append (hds : ∀ c ∈ ds, c.isDigit) (hne : ds ≠ [])
    (hrest : ∀ c ∈ rest.head?, c.isDigit = false) : digits (ds ++ rest) = some (ds, rest) := by
  rw [digits, List.takeWhile_append_eq_left hds hrest, List.dropWhile_append_eq_right hds hrest]
  cases ds with
  | nil => exact absurd rfl hne
  | cons c ds => rfl

theorem whole_append (h : IsWhole ds) (hrest : ∀ c ∈ rest.head?, c.isDigit = false) :
    whole (ds ++ rest) = some (ds, rest) := by
  by_cases hzero : ds.head? = some '0'
  · -- After a zero the reader looks for no digits.
    rw [h.eq_of_head? hzero]
    rfl
  · obtain ⟨c, cs, rfl⟩ := List.exists_cons_of_ne_nil h.ne_nil
    have hc : ∀ cs', c :: (cs ++ rest) ≠ '0' :: cs' := by
      intro cs' heq
      exact hzero (congrArg some (List.cons.inj heq).1)
    rw [List.cons_append, whole.eq_2 _ hc, ← List.cons_append]
    exact digits_append h.isDigit h.ne_nil hrest

theorem fraction_append (hds : ∀ c ∈ ds, c.isDigit) (hne : ds ≠ [])
    (hrest : ∀ c ∈ rest.head?, c.isDigit = false) :
    fraction ('.' :: (ds ++ rest)) = some (some ds, rest) := by
  simp [fraction, digits_append hds hne hrest]

theorem fraction_none (hrest : ∀ c ∈ rest.head?, c ≠ '.') : fraction rest = some (none, rest) := by
  apply fraction.eq_2
  rintro cs rfl
  exact hrest '.' rfl rfl

/-- An exponent is read whether or not a plus stands before it if it is not negative. -/
theorem exponent_append {plus : String} (hplus : plus = "+" ∨ plus = "") (e : Int)
    (hrest : ∀ c ∈ rest.head?, c.isDigit = false) :
    exponent ('e' :: ((if e < 0 then "-" else plus).toList ++ (Nat.toDigits 10 e.natAbs ++ rest))) =
      some (some e, rest) := by
  have hdigits : digits (Nat.toDigits 10 e.natAbs ++ rest) =
      some (Nat.toDigits 10 e.natAbs, rest) :=
    digits_append (forall_mem_toDigits_isDigit _) Nat.toDigits_ne_nil hrest
  -- A sign tells the three forms of an exponent apart, and no sign is the third.
  by_cases hneg : e < 0
  · have he : -(e.natAbs : Int) = e := by omega
    rw [if_pos hneg]
    show exponent ('e' :: '-' :: (Nat.toDigits 10 e.natAbs ++ rest)) = _
    simp only [exponent, integer, hdigits, Option.bind_eq_bind, Option.bind_some,
      Nat.ofDigitChars_ten_toDigits, he]
    rfl
  · have he : (e.natAbs : Int) = e := by omega
    rw [if_neg hneg]
    obtain rfl | rfl := hplus
    · show exponent ('e' :: '+' :: (Nat.toDigits 10 e.natAbs ++ rest)) = _
      simp only [exponent, integer, hdigits, Option.bind_eq_bind, Option.bind_some,
        Nat.ofDigitChars_ten_toDigits, he]
      rfl
    · -- The first digit is no sign.
      have hsign {c : Char} (hc : c.isDigit = false) (cs : List Char) :
          Nat.toDigits 10 e.natAbs ++ rest ≠ c :: cs := by
        intro heq
        obtain ⟨d, ds, hd⟩ : ∃ d ds, Nat.toDigits 10 e.natAbs = d :: ds :=
          List.exists_cons_of_ne_nil Nat.toDigits_ne_nil
        have hdigit := forall_mem_toDigits_isDigit e.natAbs d (hd ▸ List.mem_cons_self)
        rw [hd] at heq
        rw [(List.cons.inj heq).1, hc] at hdigit
        cases hdigit
      show exponent ('e' :: (Nat.toDigits 10 e.natAbs ++ rest)) = _
      rw [exponent.eq_1, integer.eq_3 _ (hsign rfl) (hsign rfl)]
      simp only [hdigits, Option.bind_eq_bind, Option.bind_some, Nat.ofDigitChars_ten_toDigits, he]
      rfl

theorem exponent_none (hrest : NumberEnd rest) : exponent rest = some (none, rest) := by
  apply exponent.eq_3
  · rintro cs rfl
    exact (hrest 'e' rfl).2.2.1 rfl
  · rintro cs rfl
    exact (hrest 'E' rfl).2.2.2 rfl

/-- A number is read part by part. -/
theorem unsigned_append (negative : Bool) {whole : List Char}
    (fractionText exponentText : List Char) {fraction : Option (List Char)}
    {exponent : Option Int} (hwhole : IsWhole whole)
    (hstop : ∀ c ∈ (fractionText ++ (exponentText ++ rest)).head?, c.isDigit = false)
    (hfraction : Read.fraction (fractionText ++ (exponentText ++ rest)) =
      some (fraction, exponentText ++ rest))
    (hexponent : Read.exponent (exponentText ++ rest) = some (exponent, rest)) :
    unsigned negative (whole ++ (fractionText ++ (exponentText ++ rest))) =
      some (⟨negative, whole, fraction, exponent⟩, rest) := by
  -- The parts follow one another, each read with the others as its rest.
  simp only [unsigned, whole_append hwhole hstop, hfraction, hexponent, Option.bind_eq_bind,
    Option.bind_some]
  rfl

end Read

/-! ## Decimals -/

/-- The text is read as a number with a point or an exponent that has the value of the decimal. -/
def Writes (text : List Char) (d : Decimal) : Prop :=
  ∀ negative, ∃ n : Number, n.negative = negative ∧ n.isInteger = false ∧ n.decimal.SameValue d ∧
    ∀ rest, NumberEnd rest → Read.unsigned negative (text ++ rest) = some (n, rest)

/-- Digits around a point. -/
theorem writes_of_pointForm {n : Numeral} {d : Decimal} (h : n.PointForm d) : Writes n.text d := by
  -- Without an exponent the digits behind the point alone give the exponent of the decimal.
  intro negative
  have hvalue : Number.decimal ⟨negative, n.whole, some n.fraction, none⟩ = n.decimal := by
    rw [Numeral.decimal, ← Int.zero_sub]
    rfl
  have hwhole : IsWhole n.whole := ⟨h.wellFormed.isDigit_whole, h.wellFormed.whole_ne_nil,
    h.eq_of_head?_whole⟩
  refine ⟨⟨negative, n.whole, some n.fraction, none⟩, rfl, rfl, hvalue ▸ h.sameValue,
    fun rest hrest => ?_⟩
  rw [Numeral.text_of_fraction_ne_nil h.fraction_ne_nil, List.append_assoc]
  -- The fraction goes on to the end of the text, and no exponent follows.
  apply Read.unsigned_append negative ('.' :: n.fraction) [] hwhole
  · rintro c ⟨⟩
    rfl
  · exact Read.fraction_append h.wellFormed.isDigit_fraction h.fraction_ne_nil
      fun c hc => (hrest c hc).1
  · exact Read.exponent_none hrest

variable {ds : List Char} {e : Int} {plus : String}

/-- An exponent behind the digits. -/
theorem writes_exponent (hplus : plus = "+" ∨ plus = "") {whole : List Char}
    (fractionText : List Char) {fraction : Option (List Char)} {d : Decimal}
    (hwhole : IsWhole whole)
    (hstop : ∀ rest, ∀ c ∈ (fractionText ++ 'e' :: rest).head?, c.isDigit = false)
    (hfraction : ∀ rest, Read.fraction (fractionText ++ 'e' :: rest) = some (fraction, 'e' :: rest))
    (hvalue : Decimal.SameValue
      ⟨Nat.ofDigitChars 10 (whole ++ fraction.getD []) 0, e - (fraction.getD []).length⟩ d) :
    Writes (whole ++ (fractionText ++
      'e' :: ((if e < 0 then "-" else plus).toList ++ Nat.toDigits 10 e.natAbs))) d := by
  intro negative
  have hinteger : Number.isInteger ⟨negative, whole, fraction, some e⟩ = false := Bool.and_false _
  refine ⟨⟨negative, whole, fraction, some e⟩, rfl, hinteger, hvalue, fun rest hrest => ?_⟩
  rw [List.append_assoc, List.append_assoc]
  apply Read.unsigned_append negative _ _ hwhole
  · exact hstop _
  · exact hfraction _
  -- The exponent is the last part, so it has the whole rest behind it.
  · rw [List.cons_append, List.append_assoc]
    exact Read.exponent_append hplus e fun c hc => (hrest c hc).1

theorem writes_scientific (hplus : plus = "+" ∨ plus = "") (hds : ∀ c ∈ ds, c.isDigit)
    (hne : ds ≠ []) :
    Writes (NumberStyle.scientific plus ds e) ⟨Nat.ofDigitChars 10 ds 0, e + 1 - ds.length⟩ := by
  obtain ⟨c, cs, rfl⟩ := List.exists_cons_of_ne_nil hne
  obtain ⟨hc, hcs⟩ := List.forall_mem_cons.1 hds
  have hwhole : IsWhole [c] := ⟨List.forall_mem_singleton.2 hc, List.cons_ne_nil _ _,
    fun hhead => by simpa using hhead⟩
  -- All digits but the first stand behind the point.
  have hexponent : e + 1 - (c :: cs).length = e - cs.length := by
    rw [List.length_cons]
    omega
  rw [hexponent, scientific_cons, Numeral.text, List.append_assoc]
  cases cs with
  | nil =>
    -- A single digit has no point behind it.
    apply writes_exponent hplus [] hwhole
    · rintro rest _ ⟨⟩
      rfl
    · intro rest
      exact Read.fraction_none (by rintro _ ⟨⟩; decide)
    · rfl
  | cons d cs =>
    -- The digits behind the first stand behind the point.
    apply writes_exponent hplus ('.' :: d :: cs) hwhole
    · rintro rest _ ⟨⟩
      rfl
    · intro rest
      apply Read.fraction_append hcs (List.cons_ne_nil _ _)
      rintro _ ⟨⟩
      rfl
    · rfl

/-- The text of a decimal is read as a number of the same value. Zeros before the point would be
    no number, so the digits of zero must not stand before it with others behind them. -/
theorem writes_layOut {style : NumberStyle} (hplus : style.plus = "+" ∨ style.plus = "")
    {d : Decimal} (hzero : 0 < d.leadingExponent → d.coefficient ≠ 0) :
    Writes (style.layOut d) d := by
  have hds : ∀ c ∈ d.digits, c.isDigit := forall_mem_toDigits_isDigit d.coefficient
  have hne : d.digits ≠ [] := Nat.toDigits_ne_nil
  rw [NumberStyle.layOut]
  -- The two ways of laying out a decimal are the two forms that have just been read.
  split
  · obtain ⟨n, hform, htext⟩ := Decimal.exists_pointForm hzero
    rw [htext]
    exact writes_of_pointForm hform
  · have hscientific := writes_scientific (e := d.leadingExponent) hplus hds hne
    rwa [d.eq_of_digits] at hscientific

/-! ## Doubles -/

/-- The shortest decimal of a finite magnitude is read as a number of the same value. -/
theorem writes_shortest {style : NumberStyle} (hplus : style.plus = "+" ∨ style.plus = "")
    {magnitude : Nat} (h : magnitude < Double.infinityMagnitude) :
    Writes (style.layOut (Double.shortest style.tie magnitude))
      (Double.shortest style.tie magnitude) :=
  writes_layOut hplus (Double.coefficient_shortest_ne_zero h)

/-- What is read with the sign of a double and its magnitude is the double. -/
theorem Number.double_eq {n : Number} {x : Double} (hnegative : n.negative = x.isNegative)
    (hmagnitude : Double.nearestMagnitude n.decimal.num n.decimal.den = x.magnitude) :
    n.double = x := by
  rw [Number.double, hnegative, hmagnitude, Double.bits_eq_ofNat]

theorem Read.number_of_unsigned {cs : List Char} {result : Number × List Char}
    (h : Read.unsigned false cs = some result) : Read.number cs = some result := by
  rw [Read.number.eq_2]
  · exact h
  · rintro cs rfl
    cases h

/-- The text of a finite double is read as a number, never as an integer, and the number is the
    double. -/
theorem exists_number_render (style : NumberStyle) (hplus : style.plus = "+" ∨ style.plus = "")
    {x : Double} (h : x.isFinite = true) :
    ∃ n : Number, n.isInteger = false ∧ n.double = x ∧
      ∀ rest, NumberEnd rest →
        Read.number ((style.render x).toList ++ rest) = some (n, rest) := by
  have hfinite : x.magnitude < Double.infinityMagnitude := of_decide_eq_true h
  obtain ⟨n, hnegative, hinteger, hvalue, hread⟩ := writes_shortest hplus hfinite x.isNegative
  -- The number has the value of the shortest decimal, and this is rounded to the magnitude of x.
  have hmagnitude := hvalue.nearestMagnitude_eq.trans
    (Double.nearestMagnitude_shortest style.tie hfinite)
  refine ⟨n, hinteger, Number.double_eq hnegative hmagnitude, fun rest hrest => ?_⟩
  have hunsigned := hread rest hrest
  rw [NumberStyle.render, String.toList_ofList, List.append_assoc]
  -- The sign is written for itself and read for itself, and the magnitude is read in between.
  cases hsign : x.isNegative with
  | true =>
    rw [hsign] at hunsigned
    exact hunsigned
  | false =>
    rw [hsign] at hunsigned
    exact Read.number_of_unsigned hunsigned

/-! ## Natural numbers -/

/-- The digits of a natural number are read as an integer without a sign. -/
theorem exists_number_toDigits (value : Nat) :
    ∃ n : Number, n.natural? = some value ∧
      ∀ rest, NumberEnd rest →
        Read.number (Nat.toDigits 10 value ++ rest) = some (n, rest) := by
  refine ⟨⟨false, Nat.toDigits 10 value, none, none⟩, ?_, fun rest hrest => ?_⟩
  · exact congrArg some Nat.ofDigitChars_ten_toDigits
  · apply Read.number_of_unsigned
    apply Read.unsigned_append false [] [] (isWhole_toDigits value)
    · exact fun c hc => (hrest c hc).1
    · exact Read.fraction_none fun c hc => (hrest c hc).2.1
    · exact Read.exponent_none hrest

end Json

end LoxLexer
