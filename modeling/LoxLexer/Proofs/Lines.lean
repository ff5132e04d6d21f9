import LoxLexer.Proofs.Acceptance

/-!
# The lines of tokens

The line of a token is the number of line feeds in the source before its first character, and the
line of the last token is the number of all line feeds. Lines never decrease along a scan.

## Key results

- `Cut.startsAt_of_getElem?_tokens`: where the tokens of a cut start
- `Cut.pairwise_line_tokens`: the lines of a cut never decrease
- `exists_countsLines_of_scan_eq_ok`: the lines of a scan
-/

namespace List

variable {α β : Type _}

/-- What `filterMap` gives at an index comes from an element with that many results before it. -/
theorem exists_eq_append_of_getElem?_filterMap {f : α → Option β} {l : List α} {i : Nat} {b : β}
    (h : (l.filterMap f)[i]? = some b) :
    ∃ before a after, l = before ++ a :: after ∧ f a = some b ∧
      (before.filterMap f).length = i := by
  -- An element without a result counts for nothing, and any other is the one or is before it.
  induction l generalizing i with
  | nil => simp at h
  | cons a l ih =>
    cases hfa : f a with
    | none =>
      rw [filterMap_cons_none hfa] at h
      obtain ⟨before, a', after, rfl, ha', hlength⟩ := ih h
      rw [← filterMap_cons_none hfa] at hlength
      exact ⟨a :: before, a', after, rfl, ha', hlength⟩
    | some b' =>
      rw [filterMap_cons_some hfa] at h
      cases i with
      | zero => exact ⟨[], a, l, rfl, by rw [hfa]; exact h, rfl⟩
      | succ i =>
        obtain ⟨before, a', after, rfl, ha', hlength⟩ := ih h
        have hlength' : ((a :: before).filterMap f).length = i + 1 := by
          rw [filterMap_cons_some hfa, length_cons, hlength]
        exact ⟨a :: before, a', after, rfl, ha', hlength'⟩

end List

namespace LoxLexer

open Grammar (Cuts Trivia tokenItems)

/-- Among the items, the `i`-th that becomes a token is this text, and it starts at this position:
    that many characters are in the items before it. -/
def StartsAt (items : List (List Char)) (i position : Nat) (text : List Char) : Prop :=
  ∃ before after, items = before ++ text :: after ∧ ¬ Trivia text ∧
    (tokenItems before).length = i ∧ before.flatten.length = position

/-- A source is cut into items, and tokens count its line feeds: the token of an item those before
    the position at which the item starts, and the token for the end of the input, which is the
    last, all of them. -/
structure CountsLines (cs : List Char) (items : List (List Char)) (tokens : List Token) : Prop where
  cuts : Cuts cs items []
  length_tokens : tokens.length = (tokenItems items).length + 1
  line_getElem : ∀ i token, tokens[i]? = some token → i < (tokenItems items).length →
    ∃ position text, StartsAt items i position text ∧ token.lexeme = String.ofList text ∧
      token.line = (cs.take position).count '\n'
  getLast?_tokens : tokens.getLast? = some (Token.eof (cs.count '\n'))

namespace Cut

theorem lexeme_and_line_of_token? {q : PlacedPiece} {token : Token} (h : q.token? = some token) :
    token.lexeme = String.ofList q.piece.text ∧ token.line = q.line := by
  obtain ⟨kind, _, rfl⟩ := Option.map_eq_some_iff.1 h
  exact ⟨rfl, rfl⟩

/-- The tokens of a cut start where its items do, and on the line of this position. -/
theorem startsAt_of_getElem?_tokens {line : Nat} {cs : List Char} {i : Nat} {token : Token}
    (h : (startingAt line cs).tokens[i]? = some token) :
    ∃ position text, StartsAt (startingAt line cs).texts i position text ∧
      token.lexeme = String.ofList text ∧
      token.line = line + (cs.take position).count '\n' := by
  obtain ⟨before, q, after, hpieces, htoken, hlength⟩ :=
    List.exists_eq_append_of_getElem?_filterMap h
  have hwf := wellFormed_of_mem_pieces line cs
  rw [hpieces, List.forall_mem_append, List.forall_mem_cons] at hwf
  obtain ⟨hlexeme, hline⟩ := lexeme_and_line_of_token? htoken
  have htexts : (startingAt line cs).texts =
      before.map (·.piece.text) ++ q.piece.text :: after.map (·.piece.text) := by
    rw [texts, hpieces, List.map_append, List.map_cons]
  -- Trivia has no token, and here is one.
  have htrivia : ¬ Trivia q.piece.text := by
    intro htrivia
    rw [(token?_eq_none_iff hwf.2.1).2 htrivia] at htoken
    cases htoken
  have hindex : (tokenItems (before.map (·.piece.text))).length = i := by
    rw [(forall₂_spells hwf.1).length_eq, hlength]
  -- The text before the position is that of the pieces before the token.
  have hcount : token.line =
      line + (cs.take (before.map (·.piece.text)).flatten.length).count '\n' := by
    have hcs := (cuts_startingAt line cs).flatten_append
    rw [htexts, List.flatten_append, List.append_assoc] at hcs
    rw [hline, line_eq_of_pieces_eq hpieces, ← hcs, List.take_left]
  exact ⟨_, _, ⟨_, _, htexts, htrivia, hindex, rfl⟩, hlexeme, hcount⟩

/-- The pieces of a cut stand between the lines on which it begins and ends. -/
theorem line_le_of_mem_pieces {line : Nat} {cs : List Char} {q : PlacedPiece}
    (hq : q ∈ (startingAt line cs).pieces) :
    line ≤ q.line ∧ q.line ≤ (startingAt line cs).line := by
  obtain ⟨before, after, hpieces⟩ := List.append_of_mem hq
  have hline := line_startingAt line cs
  -- The line at the end counts the items before the piece, the piece and those behind it.
  rw [texts, hpieces, List.map_append, List.flatten_append, List.count_append] at hline
  have hq := line_eq_of_pieces_eq hpieces
  omega

/-- The lines of pieces never decrease. -/
theorem pairwise_line_pieces (line : Nat) (cs : List Char) :
    (startingAt line cs).pieces.Pairwise (·.line ≤ ·.line) := by
  induction line, cs using induction_on with
  | stuck line cs h =>
    rw [startingAt_of_none h]
    exact .nil
  | piece line p rest hp hstops ih =>
    rw [startingAt_text_append hp hstops]
    -- The pieces behind the first begin on the line on which it ends, or later.
    apply List.Pairwise.cons _ ih
    intro q hq
    have hle := (line_le_of_mem_pieces hq).1
    show line ≤ q.line
    omega

/-- The lines of tokens never decrease, to the end of the input. -/
theorem pairwise_line_tokens (line : Nat) (cs : List Char) :
    ((startingAt line cs).tokens ++ [Token.eof (startingAt line cs).line]).Pairwise
      (·.line ≤ ·.line) := by
  have htokens : (startingAt line cs).tokens.Pairwise (·.line ≤ ·.line) := by
    apply (pairwise_line_pieces line cs).filterMap
    -- A token has the line of its piece, and those of pieces are in order already.
    intro q r hle s hs t ht
    rw [(lexeme_and_line_of_token? hs).2, (lexeme_and_line_of_token? ht).2]
    exact hle
  have hlast : ∀ token ∈ (startingAt line cs).tokens, ∀ last ∈
      [Token.eof (startingAt line cs).line], token.line ≤ last.line := by
    intro token htoken last hlast
    obtain ⟨q, hq, htoken⟩ := List.mem_filterMap.1 htoken
    rw [List.mem_singleton.1 hlast, (lexeme_and_line_of_token? htoken).2]
    exact (line_le_of_mem_pieces hq).2
  exact List.pairwise_append.2 ⟨htokens, List.pairwise_singleton _ _, hlast⟩

end Cut

/-- The tokens of a scan count the line feeds of the source, and their lines never decrease. -/
theorem exists_countsLines_of_scan_eq_ok {source : String} {tokens : List Token}
    (h : scan source = .ok tokens) :
    (∃ items, CountsLines source.toList items tokens) ∧ tokens.Pairwise (·.line ≤ ·.line) := by
  obtain ⟨hrest, rfl⟩ := Cut.scan_eq_ok_iff.1 h
  have hlength : (Cut.ofChars source.toList).tokens.length =
      (tokenItems (Cut.ofChars source.toList).texts).length := Cut.length_tokens 0 source.toList
  refine ⟨⟨(Cut.ofChars source.toList).texts, ?_, ?_, ?_, ?_⟩,
    Cut.pairwise_line_tokens 0 source.toList⟩
  · rw [← hrest]
    exact Cut.cuts_startingAt 0 source.toList
  · rw [List.length_append, List.length_singleton, hlength]
  · intro i token htoken hi
    -- The token is not the last, so it is one of those of the cut.
    rw [List.getElem?_append_left (by omega)] at htoken
    obtain ⟨position, text, hstarts, hlexeme, hline⟩ := Cut.startsAt_of_getElem?_tokens htoken
    exact ⟨position, text, hstarts, hlexeme, by rw [hline, Nat.zero_add]⟩
  · rw [List.getLast?_concat, Cut.line_ofChars hrest]

/-- A string that goes on over a line feed has the line of its first quote, and the word behind it
    has the next one. -/
theorem exists_countsLines_of_string_over_lines :
    scan "\n\"x\ny\" w" = .ok [⟨.string, "\"x\ny\"", some (.text "x\ny"), 1⟩,
      ⟨.identifier, "w", none, 2⟩, Token.eof 2] ∧
    (∃ items, CountsLines "\n\"x\ny\" w".toList items
      [⟨.string, "\"x\ny\"", some (.text "x\ny"), 1⟩, ⟨.identifier, "w", none, 2⟩,
        Token.eof 2]) ∧
    [⟨.string, "\"x\ny\"", some (.text "x\ny"), 1⟩, ⟨.identifier, "w", none, 2⟩,
      Token.eof 2].Pairwise (·.line ≤ ·.line) := by
  have hscan : scan "\n\"x\ny\" w" = .ok [⟨.string, "\"x\ny\"", some (.text "x\ny"), 1⟩,
      ⟨.identifier, "w", none, 2⟩, Token.eof 2] := by with_unfolding_all rfl
  exact ⟨hscan, exists_countsLines_of_scan_eq_ok hscan⟩

end LoxLexer
