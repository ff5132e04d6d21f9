import LoxLexer.Proofs.Cutting

/-!
# Scanning line after line

A line feed ends whatever piece stands before it and is a piece of its own, so a source can be cut
at a line feed that no piece contains, and each part can be scanned by itself. The second part then
begins on a later line, which shows in its lines and in nothing else.

## Key results

- `Cut.startingAt_append_lineFeed`: the cut of a text, a line feed and another text
- `Cut.startingAt_add`: a cut that begins on a later line
- `scan_append_lineFeed`: the scan of two sources with a line feed between them
-/

namespace LoxLexer

/-! ## Cutting at a line feed -/

namespace Cut

/-- The cut of a text goes on behind pieces that are already cut. -/
def append (c d : Cut) : Cut := { d with pieces := c.pieces ++ d.pieces }

/-- A line feed is a piece of its own. -/
theorem startingAt_lineFeed (line : Nat) (cs : List Char) :
    startingAt line ('\n' :: cs) = (startingAt (line + 1) cs).cons ⟨line, .blank '\n'⟩ :=
  startingAt_text_append (p := .blank '\n') rfl trivial

/-- A text is cut in the same way before a line feed, and then the cut goes on at what is left of
    it. -/
theorem startingAt_append_lineFeed (line : Nat) (a b : List Char) :
    startingAt line (a ++ '\n' :: b) =
      (startingAt line a).append
        (startingAt (startingAt line a).line ((startingAt line a).rest ++ '\n' :: b)) := by
  induction line, a using induction_on with
  | stuck line a hstuck =>
    -- What the first text gets stuck at is cut again, together with the line feed behind it.
    rw [startingAt_of_none hstuck]
    rfl
  | piece line p rest hp hstops ih =>
    -- The piece stops before the line feed as well.
    have hstops' := hstops.append_blank (c := '\n') rfl (fun _ _ _ => rfl) b
    rw [List.append_assoc, startingAt_text_append hp hstops', ih, startingAt_text_append hp hstops]
    rfl

end Cut

/-! ## Beginning on a later line -/

/-- The token some lines further down. -/
def Token.shift (k : Nat) (t : Token) : Token := { t with line := t.line + k }

/-- The error some lines further down. -/
def ScanError.shift (k : Nat) : ScanError → ScanError
  | unexpectedCharacter line char => unexpectedCharacter (line + k) char
  | unterminatedString line => unterminatedString (line + k)

/-- The piece some lines further down. -/
def PlacedPiece.shift (k : Nat) (p : PlacedPiece) : PlacedPiece := { p with line := p.line + k }

theorem PlacedPiece.token?_shift (k : Nat) (p : PlacedPiece) :
    (p.shift k).token? = p.token?.map (Token.shift k) := by
  simp only [token?, shift, Piece.token?, Option.map_map]
  rfl

namespace Cut

/-- The cut some lines further down. -/
def shift (k : Nat) (c : Cut) : Cut where
  pieces := c.pieces.map (PlacedPiece.shift k)
  line := c.line + k
  rest := c.rest

/-- A cut depends on the line it begins on only through the lines it gives. -/
theorem startingAt_add (line k : Nat) (cs : List Char) :
    startingAt (line + k) cs = (startingAt line cs).shift k := by
  induction line, cs using induction_on with
  | stuck line cs h =>
    rw [startingAt_of_none h, startingAt_of_none h]
    rfl
  | piece line p rest hp hstops ih =>
    -- The lines inside the piece come on top of both beginnings, in whatever order they are added.
    have hline : line + k + p.lineFeeds = line + p.lineFeeds + k := by omega
    rw [startingAt_text_append hp hstops, startingAt_text_append hp hstops, hline, ih]
    rfl

theorem tokens_shift (k : Nat) (c : Cut) : (c.shift k).tokens = c.tokens.map (Token.shift k) := by
  have htoken : PlacedPiece.token? ∘ PlacedPiece.shift k =
      fun p => p.token?.map (Token.shift k) := funext (PlacedPiece.token?_shift k)
  rw [tokens, tokens, shift, List.filterMap_map, List.map_filterMap, htoken]

theorem error?_shift (k : Nat) (c : Cut) :
    (c.shift k).error? = c.error?.map (ScanError.shift k) := by
  obtain ⟨pieces, line, rest⟩ := c
  simp only [error?, shift]
  split
  · rfl
  · -- The error of an open string is on the last line of its body.
    rw [Nat.add_right_comm]
    rfl
  · rfl

theorem tokens_append (c d : Cut) : (c.append d).tokens = c.tokens ++ d.tokens :=
  List.filterMap_append

theorem error?_append (c d : Cut) : (c.append d).error? = d.error? := rfl

end Cut

/-! ## Scanning -/

/-- The cut of two sources with a line feed between them, the first of which can be scanned: the
    pieces of the first, the line feed, and the pieces of the second further down. -/
theorem Cut.ofChars_append_lineFeed {a : List Char} (b : List Char) (h : (ofChars a).rest = []) :
    ofChars (a ++ '\n' :: b) =
      (ofChars a).append (((ofChars b).shift (a.count '\n' + 1)).cons
        ⟨a.count '\n', .blank '\n'⟩) := by
  -- All of the first source is cut, so the line reached counts every line feed of it.
  have hline : (ofChars a).line = a.count '\n' := line_ofChars h
  have hshift : startingAt (a.count '\n' + 1) b = (ofChars b).shift (a.count '\n' + 1) := by
    rw [ofChars, ← startingAt_add, Nat.zero_add]
  rw [ofChars, startingAt_append_lineFeed]
  show (ofChars a).append (startingAt (ofChars a).line ((ofChars a).rest ++ '\n' :: b)) = _
  rw [h, hline, List.nil_append, startingAt_lineFeed, hshift]

/-- A line feed stands between two sources, and the first of them can be scanned. If the second can
    be scanned too, so can both together: the tokens are those of the first without its end, and
    then those of the second, as many lines further down as the first has line feeds, and one more.
    If the second cannot be scanned, neither can both together, and the error is that of the second
    further down by as much. -/
theorem scan_append_lineFeed {a : String} {ta : List Token} (ha : scan a = .ok ta) (b : String) :
    (∀ tb, scan b = .ok tb →
      scan (a ++ "\n" ++ b) =
        .ok (ta.dropLast ++ tb.map (Token.shift (a.toList.count '\n' + 1)))) ∧
    ∀ e, scan b = .error e →
      scan (a ++ "\n" ++ b) = .error (e.shift (a.toList.count '\n' + 1)) := by
  obtain ⟨hrest, rfl⟩ := Cut.scan_eq_ok_iff.1 ha
  have hsource : (a ++ "\n" ++ b).toList = a.toList ++ '\n' :: b.toList := by
    rw [String.toList_append, String.toList_append, List.append_assoc]
    rfl
  have hcut := Cut.ofChars_append_lineFeed b.toList hrest
  rw [← hsource] at hcut
  constructor
  · intro tb hb
    obtain ⟨hrestb, rfl⟩ := Cut.scan_eq_ok_iff.1 hb
    apply Cut.scan_eq_ok_iff.2
    constructor
    · rw [hcut]
      exact hrestb
    · -- The line feed becomes no token.
      have htokens : (((Cut.ofChars b.toList).shift (a.toList.count '\n' + 1)).cons
          ⟨a.toList.count '\n', .blank '\n'⟩).tokens =
            (Cut.ofChars b.toList).tokens.map (Token.shift (a.toList.count '\n' + 1)) :=
        Cut.tokens_shift _ _
      rw [hcut, Cut.tokens_append, htokens, List.dropLast_concat, List.map_append,
        List.append_assoc]
      rfl
  -- The error is looked for in what is left, and the pieces in front have no part in that.
  · intro e hb
    have herror := Cut.scan_eq_error_iff.1 hb
    apply Cut.scan_eq_error_iff.2
    rw [hcut, Cut.error?_append]
    show ((Cut.ofChars b.toList).shift _).error? = _
    rw [Cut.error?_shift, herror]
    rfl

/-- A comment ends before the line feed, and the word or the fault behind it is one line down. -/
theorem scan_append_lineFeed_of_comment :
    scan "a //" = .ok [⟨.identifier, "a", none, 0⟩, Token.eof 0] ∧
    scan "b" = .ok [⟨.identifier, "b", none, 0⟩, Token.eof 0] ∧
    scan "@" = .error (.unexpectedCharacter 0 '@') ∧
    scan ("a //" ++ "\n" ++ "b") =
      .ok [⟨.identifier, "a", none, 0⟩, ⟨.identifier, "b", none, 1⟩, Token.eof 1] ∧
    scan ("a //" ++ "\n" ++ "@") = .error (.unexpectedCharacter 1 '@') := by
  have ha : scan "a //" = .ok [⟨.identifier, "a", none, 0⟩, Token.eof 0] := by
    with_unfolding_all rfl
  have hb : scan "b" = .ok [⟨.identifier, "b", none, 0⟩, Token.eof 0] := by
    with_unfolding_all rfl
  have he : scan "@" = .error (.unexpectedCharacter 0 '@') := by with_unfolding_all rfl
  exact ⟨ha, hb, he, (scan_append_lineFeed ha "b").1 _ hb, (scan_append_lineFeed ha "@").2 _ he⟩

end LoxLexer
