import LoxLexer.Piece

/-!
# Cutting a source into pieces

`Cut.ofChars` takes the longest piece at the front of the source again and again. The result holds
the pieces in order, each with the line it begins on, and what is left where no piece begins:
nothing when the whole source has been cut.

## Key results

- `Cut.startingAt_of_none`, `Cut.startingAt_of_some`: the cut of a text is the piece at its front
  and the cut of what follows
-/

namespace LoxLexer

/-- A piece and the number of line feeds before it. -/
structure PlacedPiece where
  line : Nat
  piece : Piece

/-- The token that the piece becomes, if it becomes one. -/
def PlacedPiece.token? (p : PlacedPiece) : Option Token := p.piece.token? p.line

/-- A source cut into pieces. -/
structure Cut where
  pieces : List PlacedPiece
  /-- The number of line feeds in and before the pieces. -/
  line : Nat
  /-- What is left where no piece begins. -/
  rest : List Char

namespace Cut

/-- Puts a piece in front. -/
def cons (p : PlacedPiece) (c : Cut) : Cut := { c with pieces := p :: c.pieces }

/-- What remains behind a piece is shorter. -/
theorem length_drop_lt {cs : List Char} {p : Piece} (h : Piece.first? cs = some p) :
    (cs.drop p.text.length).length < cs.length := by
  obtain ⟨rest, rfl⟩ := Piece.eq_text_append_of_first? h
  have := List.length_pos_iff.2 (Piece.text_ne_nil_of_first? h)
  simp only [List.drop_left, List.length_append]
  omega

/-- Cuts the text behind pieces that are already known, the latest of them first. -/
def extend (done : List PlacedPiece) (line : Nat) (cs : List Char) : Cut :=
  match _h : Piece.first? cs with
  | none => ⟨done.reverse, line, cs⟩
  | some p => extend (⟨line, p⟩ :: done) (line + p.lineFeeds) (cs.drop p.text.length)
termination_by cs.length
decreasing_by exact length_drop_lt _h

/-- Cuts a text that begins on a line. -/
def startingAt (line : Nat) (cs : List Char) : Cut := extend [] line cs

/-- Cuts a source. -/
def ofChars (cs : List Char) : Cut := startingAt 0 cs

private theorem extend_eq (done : List PlacedPiece) (line : Nat) (cs : List Char) :
    extend done line cs =
      { startingAt line cs with pieces := done.reverse ++ (startingAt line cs).pieces } := by
  -- By induction on what is left to cut. The pieces known before are only ever added to.
  induction h : cs.length using Nat.strongRecOn generalizing done line cs with
  | ind n ih =>
    unfold startingAt
    rw [extend.eq_def done, extend.eq_def []]
    split
    · simp
    · rename_i p hp
      have hlt := length_drop_lt hp
      rw [ih _ (h ▸ hlt) (⟨line, p⟩ :: done) _ _ rfl, ih _ (h ▸ hlt) [⟨line, p⟩] _ _ rfl]
      simp

/-- Where no piece begins, nothing is cut. -/
theorem startingAt_of_none {line : Nat} {cs : List Char} (h : Piece.first? cs = none) :
    startingAt line cs = ⟨[], line, cs⟩ := by
  rw [startingAt, extend.eq_def]
  split
  · rfl
  · rename_i hp
    rw [h] at hp
    cases hp

/-- The piece at the front comes first, and the rest is cut behind it. -/
theorem startingAt_of_some {line : Nat} {cs : List Char} {p : Piece}
    (h : Piece.first? cs = some p) :
    startingAt line cs =
      (startingAt (line + p.lineFeeds) (cs.drop p.text.length)).cons ⟨line, p⟩ := by
  rw [startingAt, extend.eq_def]
  split
  · rename_i hp
    rw [h] at hp
    cases hp
  · rename_i q hq
    cases h.symm.trans hq
    -- The piece is the first of those that are known when the rest is cut.
    rw [extend_eq]
    rfl

/-- The tokens among the pieces, in order. -/
def tokens (c : Cut) : List Token := c.pieces.filterMap PlacedPiece.token?

end Cut

end LoxLexer
