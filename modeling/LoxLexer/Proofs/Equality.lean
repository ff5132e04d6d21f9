import LoxLexer.Proofs.Literals

/-!
# When tokens are equal

Tokens are compared field by field, and numbers as numbers, so a token that carries not-a-number
differs from itself. No scanned token does: the double of a numeral is always a number. What is
more, the text of a scanned token decides its kind and its literal, wherever the token stands and in
which source. Nothing but the line is left to tell two tokens of one text apart.

## Key results

- `Token.beq_iff`, `Token.beq_self_iff`: how tokens are compared, and which are equal to themselves
- `Token.Scanned.isNaN_eq_false`: no scanned token carries not-a-number
- `kind_eq_and_literal_eq_of_lexeme_eq`: the text of a scanned token decides what it is
- `beq_iff_lexeme_eq_and_line_eq`: scanned tokens are equal exactly if their texts and lines are
-/

namespace LoxLexer

/-! ## Comparing tokens -/

/-- Only not-a-number differs from itself. -/
theorem Double.beq_self (x : Double) : (x == x) = !x.isNaN := by
  -- A double has its own bits, so the two zeros need no case of their own.
  show (!x.isNaN && !x.isNaN && (x.bits == x.bits || _)) = _
  rw [beq_self_eq_true, Bool.true_or, Bool.and_true, Bool.and_self]

namespace Token

/-- Tokens are compared field by field. -/
theorem beq_iff {t t' : Token} :
    t == t' ↔ t.kind = t'.kind ∧ t.lexeme = t'.lexeme ∧ t.literal == t'.literal ∧
      t.line = t'.line := by
  show (t.kind == t'.kind && (t.lexeme == t'.lexeme && (t.literal == t'.literal &&
    t.line == t'.line))) = true ↔ _
  simp only [Bool.and_eq_true, beq_iff_eq]

/-- A token is equal to itself unless it carries not-a-number. -/
theorem beq_self_iff {t : Token} :
    t == t ↔ ∀ x, t.literal = some (.number x) → x.isNaN = false := by
  have hliteral : t == t ↔ t.literal == t.literal := by simp [beq_iff]
  rw [hliteral]
  -- Of the fields only a literal can differ from itself, and of literals only a number.
  cases t.literal with
  | none => exact iff_of_true rfl (by simp)
  | some literal =>
    cases literal with
    | text content => exact iff_of_true (beq_self_eq_true content) (by simp)
    | number x =>
      show (x == x) = true ↔ _
      simp [Double.beq_self]

/-- No scanned token carries not-a-number. -/
theorem Scanned.isNaN_eq_false {t : Token} (h : t.Scanned) {x : Double}
    (hx : t.literal = some (.number x)) : x.isNaN = false := by
  cases h with
  -- Of the pieces only a numeral has a number, which is the nearest double to its value.
  | @piece p kind hp hkind line =>
    cases p <;> cases hx
    exact Double.isNaN_nearest _ _
  | eof line => cases hx

end Token

/-! ## Scanned tokens -/

/-- The text of a scanned token decides its kind and its literal. -/
theorem kind_eq_and_literal_eq_of_lexeme_eq {t t' : Token} (h : t.Scanned) (h' : t'.Scanned)
    (heq : t.lexeme = t'.lexeme) : t.kind = t'.kind ∧ t.literal = t'.literal := by
  -- No token takes in a space behind its text.
  have hspace : t.lexeme.toList ++ [' '] = t'.lexeme.toList ++ [' '] := by rw [heq]
  have hmeaning := (meaning_eq_of_toList_lexeme_append_eq h h' hspace).1
  simp only [Token.meaning, Prod.mk.injEq] at hmeaning
  exact ⟨hmeaning.1, hmeaning.2.2⟩

/-- Scanned tokens with the same text and the same line are the same. -/
theorem eq_of_lexeme_eq_of_line_eq {t t' : Token} (h : t.Scanned) (h' : t'.Scanned)
    (hlexeme : t.lexeme = t'.lexeme) (hline : t.line = t'.line) : t = t' := by
  obtain ⟨hkind, hliteral⟩ := kind_eq_and_literal_eq_of_lexeme_eq h h' hlexeme
  obtain ⟨kind, lexeme, literal, line⟩ := t
  cases hkind
  cases hlexeme
  cases hliteral
  cases hline
  rfl

/-- Tokens of any two scans are equal exactly if they have the same text and stand on the same line.
    Tokens of the same text already have the same kind and the same literal, down to the bits of a
    number. Every token of a scan is equal to itself, although not every token is. -/
theorem beq_iff_lexeme_eq_and_line_eq {source source' : String} {tokens tokens' : List Token}
    (h : scan source = .ok tokens) (h' : scan source' = .ok tokens') {t t' : Token}
    (ht : t ∈ tokens) (ht' : t' ∈ tokens') :
    (t == t' ↔ t.lexeme = t'.lexeme ∧ t.line = t'.line) ∧
    (t.lexeme = t'.lexeme → t.kind = t'.kind ∧ t.literal = t'.literal) ∧
    t == t ∧ ∃ u : Token, (u == u) = false := by
  have hscanned := scanned_of_mem_of_scan_eq_ok h t ht
  have hscanned' := scanned_of_mem_of_scan_eq_ok h' t' ht'
  have hself : t == t := Token.beq_self_iff.2 fun _ => hscanned.isNaN_eq_false
  refine ⟨⟨?_, ?_⟩, ?_, hself, ?_⟩
  · intro hbeq
    -- From left to right only the two fields are taken. The others are decided by the text.
    obtain ⟨-, hlexeme, -, hline⟩ := Token.beq_iff.1 hbeq
    exact ⟨hlexeme, hline⟩
  · intro hboth
    rwa [← eq_of_lexeme_eq_of_line_eq hscanned hscanned' hboth.1 hboth.2]
  · exact kind_eq_and_literal_eq_of_lexeme_eq hscanned hscanned'
  · -- All bits of the exponent and the highest of the fraction.
    let nan : Double := ⟨0x7FF8000000000000⟩
    refine ⟨⟨.number, "nan", some (.number nan), 0⟩, Bool.eq_false_iff.2 fun hbeq => ?_⟩
    have hnan : nan.isNaN = true := by decide
    rw [Token.beq_self_iff.1 hbeq nan rfl] at hnan
    cases hnan

/-- A number in two sources, behind a parenthesis and behind a comment, and the same value in
    another text on the same line. -/
theorem beq_iff_lexeme_eq_and_line_eq_of_numbers :
    ∃ x y z : Double,
      scan "(\n2.5" = .ok [⟨.symbol .leftParen, "(", none, 0⟩,
        ⟨.number, "2.5", some (.number x), 1⟩, Token.eof 1] ∧
      scan "//\n2.5 2.50" = .ok [⟨.number, "2.5", some (.number y), 1⟩,
        ⟨.number, "2.50", some (.number z), 1⟩, Token.eof 1] ∧
      (⟨.number, "2.5", some (.number x), 1⟩ : Token) == ⟨.number, "2.5", some (.number y), 1⟩ ∧
      ¬ (⟨.number, "2.5", some (.number x), 1⟩ : Token) == ⟨.number, "2.50", some (.number z), 1⟩ ∧
      x = y := by
  -- Nothing is computed of the doubles, because that would take all their bits.
  obtain ⟨x, hscan⟩ : ∃ x, scan "(\n2.5" = .ok [⟨.symbol .leftParen, "(", none, 0⟩,
      ⟨.number, "2.5", some (.number x), 1⟩, Token.eof 1] :=
    ⟨Numeral.value ⟨['2'], ['5']⟩, by with_unfolding_all rfl⟩
  obtain ⟨y, z, hscan'⟩ : ∃ y z, scan "//\n2.5 2.50" = .ok [⟨.number, "2.5", some (.number y), 1⟩,
      ⟨.number, "2.50", some (.number z), 1⟩, Token.eof 1] :=
    ⟨Numeral.value ⟨['2'], ['5']⟩, Numeral.value ⟨['2'], ['5', '0']⟩, by with_unfolding_all rfl⟩
  have hnumber : (⟨.number, "2.5", some (.number x), 1⟩ : Token) ∈
      [⟨.symbol .leftParen, "(", none, 0⟩, ⟨.number, "2.5", some (.number x), 1⟩, Token.eof 1] :=
    List.mem_cons_of_mem _ List.mem_cons_self
  obtain ⟨hsame, hliteral, -, -⟩ :=
    beq_iff_lexeme_eq_and_line_eq hscan hscan' hnumber List.mem_cons_self
  obtain ⟨hother, -, -, -⟩ := beq_iff_lexeme_eq_and_line_eq hscan hscan' hnumber
    (List.mem_cons_of_mem _ List.mem_cons_self)
  obtain ⟨-, hxy⟩ := hliteral rfl
  have htexts : "2.5" ≠ "2.50" := by decide
  exact ⟨x, y, z, hscan, hscan', hsame.2 ⟨rfl, rfl⟩, fun hbeq => htexts (hother.1 hbeq).1,
    Literal.number.inj (Option.some.inj hxy)⟩

end LoxLexer
