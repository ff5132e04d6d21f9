import LoxLexer.Proofs.Cutting

/-!
# What a scan accepts

A source can be scanned exactly when it can be cut into longest items of the grammar, and its tokens
are then the items that are not trivia, closed by the token for the end of the input.

## Key results

- `exists_scan_eq_ok_iff_cuts`: which sources can be scanned, and what their tokens are
-/

namespace LoxLexer

open Grammar (Cuts Spells TokenText tokenItems)

/-- No text is the text of a token for the end of the input. -/
theorem Grammar.Spells.kind_ne_eof {t : List Char} {token : Token} (h : Spells t token) :
    token.kind ≠ .eof := by
  -- Texts of tokens have one of the other kinds, by cases on how they are spelled.
  have htext : TokenText t token.kind token.literal := (h.2 _ _).2 ⟨rfl, rfl⟩
  intro heof
  rw [heof] at htext
  cases htext

/-- No token that is spelled by an item is the token for the end of the input. -/
theorem Grammar.kind_ne_eof_of_forall₂_spells {items : List (List Char)} {tokens : List Token}
    (h : List.Forall₂ Spells items tokens) : ∀ token ∈ tokens, token.kind ≠ .eof := by
  induction h with
  | nil => exact List.forall_mem_nil _
  | cons hspells _ ih => exact List.forall_mem_cons.2 ⟨hspells.kind_ne_eof, ih⟩

/-- The scan of a source that is cut into items: the tokens that the items spell, and the end. -/
theorem scan_eq_ok_of_cuts {source : String} {items : List (List Char)}
    (h : Cuts source.toList items []) :
    ∃ tokens, scan source = .ok (tokens ++ [Token.eof (source.toList.count '\n')]) ∧
      List.Forall₂ Spells (tokenItems items) tokens := by
  -- The cut of the scanner is this one, as no piece begins in what is left, which is nothing.
  obtain ⟨htexts, hrest⟩ := Cut.eq_of_cuts h rfl 0
  have hscan : scan source =
      .ok ((Cut.ofChars source.toList).tokens ++ [Token.eof (source.toList.count '\n')]) := by
    rw [← Cut.line_ofChars hrest]
    exact Cut.scan_eq_ok_iff.2 ⟨hrest, rfl⟩
  have hspells := Cut.forall₂_spells (Cut.wellFormed_of_mem_pieces 0 source.toList)
  exact ⟨_, hscan, htexts ▸ hspells⟩

/-- A source that can be scanned is cut into items. -/
theorem exists_cuts_of_scan_eq_ok {source : String} {tokens : List Token}
    (h : scan source = .ok tokens) : ∃ items, Cuts source.toList items [] := by
  obtain ⟨hrest, _⟩ := Cut.scan_eq_ok_iff.1 h
  have hcuts := Cut.cuts_startingAt 0 source.toList
  exact ⟨_, hrest ▸ hcuts⟩

/-- There is only one way to cut a source into longest items. -/
theorem eq_of_cuts {cs : List Char} {items items' : List (List Char)} (h : Cuts cs items [])
    (h' : Cuts cs items' []) : items' = items := by
  -- Both are the texts of the pieces that the scanner cuts.
  rw [← (Cut.eq_of_cuts h rfl 0).1, ← (Cut.eq_of_cuts h' rfl 0).1]

/-- A source can be scanned exactly when it can be cut from left to right into longest items. There
    is then no other such cut, and the scan gives one token for each item that is not trivia, in
    order, with the text of the item and the kind and the literal that the grammar gives this text,
    and one token more for the end of the input. -/
theorem exists_scan_eq_ok_iff_cuts (source : String) :
    ((∃ tokens, scan source = .ok tokens) ↔ ∃ items, Cuts source.toList items []) ∧
    ∀ items, Cuts source.toList items [] →
      (∀ items', Cuts source.toList items' [] → items' = items) ∧
      ∃ tokens, scan source = .ok (tokens ++ [Token.eof (source.toList.count '\n')]) ∧
        List.Forall₂ Spells (tokenItems items) tokens ∧ ∀ token ∈ tokens, token.kind ≠ .eof := by
  constructor
  · constructor
    · intro h
      obtain ⟨tokens, hscan⟩ := h
      exact exists_cuts_of_scan_eq_ok hscan
    · intro h
      obtain ⟨items, hcuts⟩ := h
      obtain ⟨tokens, hscan, _⟩ := scan_eq_ok_of_cuts hcuts
      exact ⟨_, hscan⟩
  · intro items hcuts
    obtain ⟨tokens, hscan, hspells⟩ := scan_eq_ok_of_cuts hcuts
    have hunique : ∀ items', Cuts source.toList items' [] → items' = items :=
      fun items' hcuts' => eq_of_cuts hcuts hcuts'
    exact ⟨hunique, tokens, hscan, hspells, Grammar.kind_ne_eof_of_forall₂_spells hspells⟩

end LoxLexer
