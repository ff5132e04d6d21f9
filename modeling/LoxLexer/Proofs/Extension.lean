import LoxLexer.Proofs.Cutting

/-!
# Text behind a fault

A scan that has failed has looked at no more of the source than the fault itself, so more text
behind the source leaves the pieces before the fault as they are. The fault stays where it is unless
the text closes the string that is open there, and only the line of an open string counts the line
feeds of the text. A source that can be scanned has therefore no beginning with an unexpected
character.

A number before a point needs a character more to be cut off, but a point at the end of the source
is no fault.

## Key results

- `Piece.Stops.append`: a piece that stops before a text stops before it with more text behind
- `Cut.startingAt_append_of_rest_eq_cons`: text behind a fault changes nothing before it
- `scan_append_of_fault`: the faults of a source with text behind it
-/

namespace LoxLexer

/-! ## Pieces before a fault -/

/-- A numeral that stops before a text stops before it with more text behind. It looks past a point,
    so a point alone is not enough. -/
theorem Numeral.Stops.append {n : Numeral} {rest : List Char} (h : n.Stops rest) (hne : rest ≠ [])
    (hpoint : rest ≠ ['.']) (more : List Char) : n.Stops (rest ++ more) := by
  obtain ⟨c, cs, rfl⟩ := List.exists_cons_of_ne_nil hne
  constructor
  · exact h.head
  · intro hfraction behind hbehind
    -- A numeral looks at the next character, which is there, and behind a point at the one after.
    obtain ⟨rfl, rfl⟩ := List.cons.inj hbehind
    cases cs with
    | nil => exact absurd rfl hpoint
    | cons d ds => exact h.point hfraction (d :: ds) rfl

/-- A symbol looks at the next character only. -/
theorem Symbol.Stops.append {s : Symbol} {rest : List Char} (h : s.Stops rest) (hne : rest ≠ [])
    (more : List Char) : s.Stops (rest ++ more) := by
  obtain ⟨c, cs, rfl⟩ := List.exists_cons_of_ne_nil hne
  -- There is a next character already, and it stays the next one.
  cases s <;> exact h

/-- A piece that stops before a text stops before it with more text behind, unless the text is
    nothing or a point alone. -/
theorem Piece.Stops.append {p : Piece} {rest : List Char} (h : p.Stops rest) (hne : rest ≠ [])
    (hpoint : rest ≠ ['.']) (more : List Char) : p.Stops (rest ++ more) := by
  -- Blanks and strings end by themselves, and only a numeral looks further than one character.
  cases p with
  | blank c | string body => trivial
  | symbol s => exact Symbol.Stops.append h hne more
  | number n => exact Numeral.Stops.append h hne hpoint more
  | comment body | word letters =>
    obtain ⟨c, cs, rfl⟩ := List.exists_cons_of_ne_nil hne
    exact h

namespace Cut

/-- Nothing is left of a point alone. -/
theorem rest_startingAt_point (line : Nat) : (startingAt line ['.']).rest = [] := by
  -- A point alone is the symbol, as no numeral begins with one.
  have hcut : startingAt line ['.'] = (startingAt line []).cons ⟨line, .symbol .dot⟩ :=
    startingAt_text_append (p := .symbol .dot) trivial trivial
  rw [hcut, startingAt_of_none rfl]
  rfl

/-- Text behind a source that is cut up to a fault is left over with the rest, unless it closes the
    string that is open there. -/
theorem startingAt_append_of_rest_eq_cons {line : Nat} {a b body : List Char} {c : Char}
    (h : (startingAt line a).rest = c :: body) (hb : c = '"' → '"' ∉ b) :
    startingAt line (a ++ b) =
      ⟨(startingAt line a).pieces, (startingAt line a).line, c :: (body ++ b)⟩ := by
  induction line, a using induction_on with
  | stuck line a hstuck =>
    rw [startingAt_of_none hstuck] at h ⊢
    obtain rfl : a = c :: body := h
    rw [startingAt_of_none (Piece.first?_append_eq_none hstuck hb)]
    rfl
  | piece line p rest hp hstops ih =>
    rw [startingAt_text_append hp hstops] at h ⊢
    -- Neither nothing nor a point alone would leave the fault over.
    have hne : rest ≠ [] := by
      rintro rfl
      rw [startingAt_of_none rfl] at h
      cases h
    have hpoint : rest ≠ ['.'] := by
      rintro rfl
      cases (rest_startingAt_point _).symm.trans h
    rw [List.append_assoc, startingAt_text_append hp (hstops.append hne hpoint b), ih h]
    rfl

end Cut

/-! ## Scanning -/

theorem scan_append_of_unexpectedCharacter {a : String} {line : Nat} {char : Char}
    (h : scan a = .error (.unexpectedCharacter line char)) (b : String) :
    scan (a ++ b) = .error (.unexpectedCharacter line char) := by
  obtain ⟨rfl, hchar, body, hrest⟩ :=
    Cut.exists_rest_of_unexpectedCharacter (Cut.scan_eq_error_iff.1 h)
  -- The character left over is no quote, so there is no string to close.
  have hcut := Cut.startingAt_append_of_rest_eq_cons hrest (b := b.toList)
    fun hquote => absurd hquote hchar
  apply Cut.scan_eq_error_iff.2
  rw [String.toList_append, Cut.ofChars, hcut]
  exact Cut.error?_of_ne_quote rfl hchar

theorem scan_append_of_unterminatedString {a : String} {line : Nat}
    (h : scan a = .error (.unterminatedString line)) {b : String} (hb : '"' ∉ b.toList) :
    scan (a ++ b) = .error (.unterminatedString (line + b.toList.count '\n')) := by
  obtain ⟨body, hrest, rfl⟩ :=
    Cut.exists_rest_of_unterminatedString (Cut.scan_eq_error_iff.1 h)
  have hcut := Cut.startingAt_append_of_rest_eq_cons hrest fun _ => hb
  apply Cut.scan_eq_error_iff.2
  -- The body of the string goes on into the text, and so do the line feeds that are counted.
  rw [String.toList_append, Cut.ofChars, hcut, Nat.add_assoc, ← List.count_append]
  exact Cut.error?_of_quote rfl

/-- An unexpected character stays the fault of a source whatever text stands behind the source, on
    the same line. An open string stays open if the text holds no quote, and its line counts the
    line feeds of the text. So a source that can be scanned has no beginning with an unexpected
    character: each of its beginnings can be scanned too, or leaves a string open. -/
theorem scan_append_of_fault (a b : String) :
    (∀ line char, scan a = .error (.unexpectedCharacter line char) →
      scan (a ++ b) = .error (.unexpectedCharacter line char)) ∧
    (∀ line, scan a = .error (.unterminatedString line) → '"' ∉ b.toList →
      scan (a ++ b) = .error (.unterminatedString (line + b.toList.count '\n'))) ∧
    ∀ tokens, scan (a ++ b) = .ok tokens →
      (∀ line char, scan a ≠ .error (.unexpectedCharacter line char)) ∧
      ((∃ tokens', scan a = .ok tokens') ∨ ∃ line, scan a = .error (.unterminatedString line)) := by
  refine ⟨fun _ _ h => scan_append_of_unexpectedCharacter h b,
    fun _ h hb => scan_append_of_unterminatedString h hb, ?_⟩
  intro tokens hok
  have hexpected : ∀ line char, scan a ≠ .error (.unexpectedCharacter line char) := by
    intro line char h
    rw [scan_append_of_unexpectedCharacter h b] at hok
    cases hok
  refine ⟨hexpected, ?_⟩
  -- Of the three results that a beginning can have, one has just been excluded.
  cases hscan : scan a with
  | ok tokens' => exact .inl ⟨tokens', rfl⟩
  | error e =>
    cases e with
    | unexpectedCharacter line char => exact absurd hscan (hexpected line char)
    | unterminatedString line => exact .inr ⟨line, rfl⟩

/-- Behind a fault, what would be a fraction and an open string changes nothing; an open string goes
    on over two more line feeds; and the beginning of a string that is closed leaves it open. -/
theorem scan_append_of_fault_before_quote :
    scan "1\n@" = .error (.unexpectedCharacter 1 '@') ∧
    scan ("1\n@" ++ ".5\n\"") = .error (.unexpectedCharacter 1 '@') ∧
    scan "a \"\n" = .error (.unterminatedString 1) ∧ '"' ∉ "@\n\n".toList ∧
    scan ("a \"\n" ++ "@\n\n") = .error (.unterminatedString (1 + 2)) ∧
    (∃ tokens, scan ("a \"\n" ++ "\"") = .ok tokens) ∧
    ((∃ tokens, scan "a \"\n" = .ok tokens) ∨
      ∃ line, scan "a \"\n" = .error (.unterminatedString line)) := by
  have hchar : scan "1\n@" = .error (.unexpectedCharacter 1 '@') := by with_unfolding_all rfl
  have hopen : scan "a \"\n" = .error (.unterminatedString 1) := by with_unfolding_all rfl
  have hclosed : scan ("a \"\n" ++ "\"") = .ok [⟨.identifier, "a", none, 0⟩,
      ⟨.string, "\"\n\"", some (.text "\n"), 0⟩, Token.eof 1] := by
    with_unfolding_all rfl
  have hquote : '"' ∉ "@\n\n".toList := by decide
  exact ⟨hchar, (scan_append_of_fault _ ".5\n\"").1 _ _ hchar, hopen, hquote,
    (scan_append_of_fault _ _).2.1 _ hopen hquote, ⟨_, hclosed⟩,
    ((scan_append_of_fault _ _).2.2 _ hclosed).2⟩

end LoxLexer
