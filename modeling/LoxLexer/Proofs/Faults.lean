import LoxLexer.Proofs.Cutting

/-!
# Where a scan fails

A source cannot be scanned exactly when cutting it into longest items gets stuck before its end, and
the character at that place is the one to blame. A quote is to blame only if no quote follows it:
the string is unterminated, on the last line of the source. Any other character is unexpected, on
its own line.

## Key results

- `exists_scan_eq_error_iff_stuck`: which sources cannot be scanned, and with what error
-/

namespace LoxLexer

open Grammar (Cuts Stuck)

/-- The cut of a source in which the grammar gets stuck: its rest is what is left there, and its
    line is counted before it. -/
theorem ofChars_of_cuts_of_stuck {cs rest : List Char} {items : List (List Char)}
    (h : Cuts cs items rest) (hstuck : Stuck rest) :
    Piece.first? rest = none ∧ (Cut.ofChars cs).rest = rest ∧
      (Cut.ofChars cs).line = items.flatten.count '\n' := by
  -- The scanner stops exactly where the grammar does.
  have hnone := Grammar.first?_eq_none_iff.2 hstuck.2
  obtain ⟨htexts, hrest⟩ := Cut.eq_of_cuts h hnone 0
  have hline := Cut.line_startingAt 0 cs
  rw [htexts, Nat.zero_add] at hline
  exact ⟨hnone, hrest, hline⟩

/-- A source that cannot be scanned is cut until no item follows. -/
theorem exists_stuck_of_scan_eq_error {source : String} {e : ScanError}
    (h : scan source = .error e) :
    ∃ items rest, Cuts source.toList items rest ∧ Stuck rest := by
  have herror := Cut.scan_eq_error_iff.1 h
  -- Were nothing left, there would be no error.
  have hnil : (Cut.ofChars source.toList).rest ≠ [] := by
    intro hnil
    rw [Cut.error?_eq_none_iff.2 hnil] at herror
    cases herror
  have hstuck := Grammar.first?_eq_none_iff.1 (Cut.first?_rest 0 source.toList)
  exact ⟨_, _, Cut.cuts_startingAt 0 source.toList, hnil, hstuck⟩

/-- A cut that is stuck at a quote: the string that it opens is never closed. -/
theorem scan_eq_error_of_stuck_at_quote {source : String} {items : List (List Char)}
    {body : List Char} (h : Cuts source.toList items ('"' :: body)) (hstuck : Stuck ('"' :: body)) :
    '"' ∉ body ∧ scan source = .error (.unterminatedString (source.toList.count '\n')) := by
  obtain ⟨hnone, hrest, hline⟩ := ofChars_of_cuts_of_stuck h hstuck
  -- The quote itself is no line feed.
  have hcount : source.toList.count '\n' = items.flatten.count '\n' + body.count '\n' := by
    rw [← h.flatten_append, List.count_append, List.count_cons_of_ne (by decide)]
  have herror := Cut.error?_of_quote hrest
  rw [hline, ← hcount] at herror
  exact ⟨Piece.not_mem_of_first?_quote_eq_none hnone, Cut.scan_eq_error_iff.2 herror⟩

/-- A cut that is stuck at any other character: it is unexpected. -/
theorem scan_eq_error_of_stuck_at_ne_quote {source : String} {items : List (List Char)} {c : Char}
    {body : List Char} (h : Cuts source.toList items (c :: body)) (hstuck : Stuck (c :: body))
    (hc : c ≠ '"') :
    c ≠ '\n' ∧ c ≠ '\r' ∧
      scan source = .error (.unexpectedCharacter (items.flatten.count '\n') c) := by
  obtain ⟨hnone, hrest, hline⟩ := ofChars_of_cuts_of_stuck h hstuck
  have hblank := Piece.isWhitespace_eq_false_of_first?_eq_none hnone
  have herror := Cut.error?_of_ne_quote hrest hc
  -- A line feed and a carriage return are blanks, and a blank begins a piece.
  rw [hline] at herror
  refine ⟨?_, ?_, Cut.scan_eq_error_iff.2 herror⟩
  · intro hlf
    rw [hlf] at hblank
    cases hblank
  · intro hcr
    rw [hcr] at hblank
    cases hblank

/-- A source cannot be scanned exactly when it can be cut from left to right into longest items up
    to a place before its end where no item follows. If the character there is a quote, no quote
    follows it, and the error is an unterminated string on the line that all line feeds of the
    source give. Otherwise the error is this very character, on the line that the line feeds before
    it give; it is neither a line feed nor a carriage return. -/
theorem exists_scan_eq_error_iff_stuck (source : String) :
    ((∃ e, scan source = .error e) ↔
      ∃ items rest, Cuts source.toList items rest ∧ Stuck rest) ∧
    ∀ items rest, Cuts source.toList items rest → Stuck rest →
      ∃ c body, source.toList = items.flatten ++ c :: body ∧
        (c = '"' → '"' ∉ body ∧
          scan source = .error (.unterminatedString (source.toList.count '\n'))) ∧
        (c ≠ '"' → c ≠ '\n' ∧ c ≠ '\r' ∧
          scan source = .error (.unexpectedCharacter (items.flatten.count '\n') c)) := by
  constructor
  · constructor
    · intro h
      obtain ⟨e, herror⟩ := h
      exact exists_stuck_of_scan_eq_error herror
    · intro h
      obtain ⟨items, rest, hcuts, hstuck⟩ := h
      obtain ⟨c, body, rfl⟩ := List.exists_cons_of_ne_nil hstuck.1
      -- A rest that is stuck has a first character, and the error depends on whether it is a quote.
      by_cases hc : c = '"'
      · subst hc
        exact ⟨_, (scan_eq_error_of_stuck_at_quote hcuts hstuck).2⟩
      · exact ⟨_, (scan_eq_error_of_stuck_at_ne_quote hcuts hstuck hc).2.2⟩
  · intro items rest hcuts hstuck
    obtain ⟨c, body, rfl⟩ := List.exists_cons_of_ne_nil hstuck.1
    have hquote : c = '"' → '"' ∉ body ∧
        scan source = .error (.unterminatedString (source.toList.count '\n')) := by
      intro hc
      subst hc
      exact scan_eq_error_of_stuck_at_quote hcuts hstuck
    exact ⟨c, body, hcuts.flatten_append.symm, hquote,
      scan_eq_error_of_stuck_at_ne_quote hcuts hstuck⟩

end LoxLexer
