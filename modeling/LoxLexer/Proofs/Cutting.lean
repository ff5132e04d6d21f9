import Mathlib.Data.List.Forall2
import LoxLexer.Scan
import LoxLexer.Proofs.LongestMatch

/-!
# What a cut holds

The cut of a source holds its longest items in order, whatever line it begins on, and each of them
stands on the line that the line feeds before it give. No other way of cutting the source into
longest items exists.

## Key results

- `Cut.induction_on`: induction along a cut, one piece at a time
- `Cut.cuts_startingAt`, `Cut.eq_of_cuts`: the cut is the only one that the grammar admits
- `Cut.line_startingAt`, `Cut.line_eq_of_pieces_eq`: lines are counted line feeds
- `Cut.forall₂_spells`: the tokens are spelled by the items that are not trivia
-/

namespace LoxLexer.Cut

open Grammar (Cuts Spells Trivia tokenItems)

/-- The texts of the pieces. -/
def texts (c : Cut) : List (List Char) := c.pieces.map (·.piece.text)

/-! ## Piece by piece -/

/-- A piece that stops before a text is cut off first. -/
theorem startingAt_text_append {line : Nat} {p : Piece} {rest : List Char} (hp : p.WellFormed)
    (h : p.Stops rest) :
    startingAt line (p.text ++ rest) = (startingAt (line + p.lineFeeds) rest).cons ⟨line, p⟩ := by
  rw [startingAt_of_some (Piece.first?_text_append hp h), List.drop_left]

/-- Induction along a cut: it is stuck, or a piece is cut off and the rest is cut behind it. -/
theorem induction_on {motive : Nat → List Char → Prop} (line : Nat) (cs : List Char)
    (stuck : ∀ line cs, Piece.first? cs = none → motive line cs)
    (piece : ∀ line (p : Piece) rest, p.WellFormed → p.Stops rest →
      motive (line + p.lineFeeds) rest → motive line (p.text ++ rest)) :
    motive line cs := by
  induction hlen : cs.length using Nat.strongRecOn generalizing line cs with
  | ind n ih =>
    cases hfirst : Piece.first? cs with
    | none => exact stuck line cs hfirst
    | some p =>
      obtain ⟨hp, rest, rfl, hstops⟩ := Piece.first?_eq_some_iff.1 hfirst
      -- No piece is empty, so what is left behind it is shorter.
      have hpos := List.length_pos_iff.2 (Piece.text_ne_nil_of_first? hfirst)
      rw [List.length_append] at hlen
      exact piece line p rest hp hstops (ih rest.length (by omega) _ rest rfl)

theorem first?_rest (line : Nat) (cs : List Char) :
    Piece.first? (startingAt line cs).rest = none := by
  induction line, cs using induction_on with
  | stuck line cs h => rwa [startingAt_of_none h]
  | piece line p rest hp hstops ih =>
    rw [startingAt_text_append hp hstops]
    exact ih

theorem wellFormed_of_mem_pieces (line : Nat) (cs : List Char) :
    ∀ q ∈ (startingAt line cs).pieces, q.piece.WellFormed := by
  induction line, cs using induction_on with
  | stuck line cs h =>
    rw [startingAt_of_none h]
    exact List.forall_mem_nil _
  | piece line p rest hp hstops ih =>
    rw [startingAt_text_append hp hstops]
    exact List.forall_mem_cons.2 ⟨hp, ih⟩

/-! ## The items of a cut -/

/-- The texts of the pieces are the longest items, in order. -/
theorem cuts_startingAt (line : Nat) (cs : List Char) :
    Cuts cs (startingAt line cs).texts (startingAt line cs).rest := by
  induction line, cs using induction_on with
  | stuck line cs h =>
    rw [startingAt_of_none h]
    exact .nil cs
  | piece line p rest hp hstops ih =>
    -- The grammar and the scanner agree on what the longest item at the front is.
    have hlongest : Grammar.LongestItem p.text (p.text ++ rest) :=
      Grammar.longestItem_iff.2 ⟨p, Piece.first?_text_append hp hstops, rfl⟩
    rw [startingAt_text_append hp hstops]
    exact .cons hlongest ih

/-- However a text is cut into longest items as far as that is possible, the items are the texts
    of the pieces. -/
theorem eq_of_cuts {cs rest : List Char} {items : List (List Char)} (h : Cuts cs items rest)
    (hrest : Piece.first? rest = none) (line : Nat) :
    (startingAt line cs).texts = items ∧ (startingAt line cs).rest = rest := by
  induction h generalizing line with
  | nil rest =>
    rw [startingAt_of_none hrest]
    exact ⟨rfl, rfl⟩
  | @cons t cs rest items ht h ih =>
    -- The longest item is the piece that is found, so both take the same step.
    obtain ⟨p, hp, rfl⟩ := Grammar.longestItem_iff.1 ht
    rw [startingAt_of_some hp, List.drop_left]
    obtain ⟨htexts, hrest'⟩ := ih hrest (line + p.lineFeeds)
    exact ⟨congrArg (p.text :: ·) htexts, hrest'⟩

/-! ## Lines -/

/-- A cut ends on the line that the line feeds in its items give. -/
theorem line_startingAt (line : Nat) (cs : List Char) :
    (startingAt line cs).line = line + (startingAt line cs).texts.flatten.count '\n' := by
  induction line, cs using induction_on with
  | stuck line cs h =>
    rw [startingAt_of_none h]
    rfl
  | piece line p rest hp hstops ih =>
    rw [startingAt_text_append hp hstops]
    -- The piece in front is counted with the items behind it.
    show (startingAt (line + p.lineFeeds) rest).line =
      line + (p.text ++ (startingAt (line + p.lineFeeds) rest).texts.flatten).count '\n'
    rw [ih, List.count_append, Nat.add_assoc]
    rfl

/-- The cut of a source that can be scanned ends on the line that all its line feeds give. -/
theorem line_ofChars {cs : List Char} (h : (ofChars cs).rest = []) :
    (ofChars cs).line = cs.count '\n' := by
  -- The items put together are the whole source, as nothing is left.
  have hcs : (ofChars cs).texts.flatten ++ (ofChars cs).rest = cs :=
    (cuts_startingAt 0 cs).flatten_append
  have hline : (ofChars cs).line = 0 + (ofChars cs).texts.flatten.count '\n' :=
    line_startingAt 0 cs
  rw [h, List.append_nil] at hcs
  rw [hline, hcs, Nat.zero_add]

/-- A piece stands on the line that the line feeds before it give. -/
theorem line_eq_of_pieces_eq {line : Nat} {cs : List Char} {before after : List PlacedPiece}
    {q : PlacedPiece} (h : (startingAt line cs).pieces = before ++ q :: after) :
    q.line = line + (before.map (·.piece.text)).flatten.count '\n' := by
  induction line, cs using induction_on generalizing before with
  | stuck line cs hnone =>
    rw [startingAt_of_none hnone] at h
    simp at h
  | piece line p rest hp hstops ih =>
    rw [startingAt_text_append hp hstops] at h
    -- Either the piece asked for is the first one, or the first one is among those before it.
    cases before with
    | nil =>
      obtain ⟨hq, _⟩ := List.cons.inj h
      exact (congrArg PlacedPiece.line hq).symm
    | cons r before =>
      obtain ⟨hr, hpieces⟩ := List.cons.inj h
      rw [ih hpieces, ← hr, List.map_cons, List.flatten_cons, List.count_append, Nat.add_assoc]
      rfl

/-! ## The tokens of a cut -/

theorem spells_of_token? {q : PlacedPiece} {token : Token} (hq : q.piece.WellFormed)
    (h : q.token? = some token) : Spells q.piece.text token := by
  obtain ⟨kind, hkind, rfl⟩ := Option.map_eq_some_iff.1 h
  constructor
  · rfl
  -- Kind and literal are those that the grammar reads off the text.
  · intro kind' literal
    rw [Grammar.tokenText_text_iff hq, hkind, Option.some.injEq]

theorem token?_eq_none_iff {q : PlacedPiece} (hq : q.piece.WellFormed) :
    q.token? = none ↔ Trivia q.piece.text := by
  rw [Grammar.trivia_text_iff hq, PlacedPiece.token?, Piece.token?, Option.map_eq_none_iff]

/-- The tokens of well-formed pieces are spelled by their texts, trivia left out. -/
theorem forall₂_spells {pieces : List PlacedPiece} (h : ∀ q ∈ pieces, q.piece.WellFormed) :
    List.Forall₂ Spells (tokenItems (pieces.map (·.piece.text)))
      (pieces.filterMap PlacedPiece.token?) := by
  induction pieces with
  | nil => exact .nil
  | cons q pieces ih =>
    obtain ⟨hq, hpieces⟩ := List.forall_mem_cons.1 h
    rw [List.map_cons, tokenItems]
    -- The token of a piece and the triviality of its text decide the two filters alike.
    cases htoken : q.token? with
    | none =>
      have htrivia := (token?_eq_none_iff hq).1 htoken
      rw [List.filterMap_cons_none htoken, List.filter_cons_of_neg (by simpa using htrivia)]
      exact ih hpieces
    | some token =>
      have htrivia : ¬ Trivia q.piece.text := fun h => by
        rw [(token?_eq_none_iff hq).2 h] at htoken
        cases htoken
      rw [List.filterMap_cons_some htoken, List.filter_cons_of_pos (by simpa using htrivia)]
      exact .cons (spells_of_token? hq htoken) (ih hpieces)

theorem length_tokens (line : Nat) (cs : List Char) :
    (startingAt line cs).tokens.length = (tokenItems (startingAt line cs).texts).length :=
  (forall₂_spells (wellFormed_of_mem_pieces line cs)).length_eq.symm

/-! ## The result of a scan -/

theorem error?_eq_none_iff {c : Cut} : c.error? = none ↔ c.rest = [] := by
  rw [error?]
  split <;> simp_all

theorem error?_of_quote {c : Cut} {body : List Char} (h : c.rest = '"' :: body) :
    c.error? = some (.unterminatedString (c.line + body.count '\n')) := by
  rw [error?, h]
  rfl

theorem error?_of_ne_quote {c : Cut} {char : Char} {body : List Char} (h : c.rest = char :: body)
    (hchar : char ≠ '"') : c.error? = some (.unexpectedCharacter c.line char) := by
  -- The error is chosen by the first character left: none, a quote, or anything else.
  rw [error?, h]
  split
  · rename_i hnil
    cases hnil
  · rename_i hquote
    exact absurd (List.cons.inj hquote).1 hchar
  · rename_i hcons
    cases hcons
    rfl

/-- Nothing is left and there is no error, or the first character that is left decides the error. -/
theorem rest_cases (c : Cut) :
    (c.rest = [] ∧ c.error? = none) ∨
    (∃ body, c.rest = '"' :: body ∧
      c.error? = some (.unterminatedString (c.line + body.count '\n'))) ∨
    ∃ char body, c.rest = char :: body ∧ char ≠ '"' ∧
      c.error? = some (.unexpectedCharacter c.line char) := by
  cases hrest : c.rest with
  | nil => exact .inl ⟨rfl, error?_eq_none_iff.2 hrest⟩
  | cons char body =>
    by_cases hchar : char = '"'
    · subst hchar
      exact .inr (.inl ⟨body, rfl, error?_of_quote hrest⟩)
    · exact .inr (.inr ⟨char, body, rfl, hchar, error?_of_ne_quote hrest hchar⟩)

theorem exists_rest_of_unexpectedCharacter {c : Cut} {line : Nat} {char : Char}
    (h : c.error? = some (.unexpectedCharacter line char)) :
    c.line = line ∧ char ≠ '"' ∧ ∃ body, c.rest = char :: body := by
  -- Each kind of error has one of the three cases to itself, which the other two contradict.
  obtain ⟨_, hnone⟩ | ⟨_, _, hopen⟩ | ⟨_, body, hrest, hchar, hunexpected⟩ := c.rest_cases
  · cases h.symm.trans hnone
  · cases h.symm.trans hopen
  · cases h.symm.trans hunexpected
    exact ⟨rfl, hchar, body, hrest⟩

theorem exists_rest_of_unterminatedString {c : Cut} {line : Nat}
    (h : c.error? = some (.unterminatedString line)) :
    ∃ body, c.rest = '"' :: body ∧ line = c.line + body.count '\n' := by
  obtain ⟨_, hnone⟩ | ⟨body, hrest, hopen⟩ | ⟨_, _, _, _, hunexpected⟩ := c.rest_cases
  · cases h.symm.trans hnone
  · cases h.symm.trans hopen
    exact ⟨body, hrest, rfl⟩
  · cases h.symm.trans hunexpected

/-- A scan succeeds exactly when the whole source is cut. -/
theorem scan_eq_ok_iff {c : Cut} {tokens : List Token} :
    c.scan = .ok tokens ↔ c.rest = [] ∧ tokens = c.tokens ++ [Token.eof c.line] := by
  -- Whether anything is left is whether there is an error, and the result is chosen by the error.
  rw [scan, ← error?_eq_none_iff]
  cases c.error? with
  | none => rw [Except.ok.injEq, eq_comm, eq_self_iff_true, true_and]
  | some e =>
    apply iff_of_false
    · intro h
      cases h
    · exact fun h => Option.some_ne_none e h.1

/-- A scan fails with the error at what is left. -/
theorem scan_eq_error_iff {c : Cut} {e : ScanError} : c.scan = .error e ↔ c.error? = some e := by
  rw [scan]
  cases c.error? with
  | none =>
    apply iff_of_false <;>
    · intro h
      cases h
  | some e' => rw [Except.error.injEq, Option.some.injEq]

theorem tokens_cons (p : PlacedPiece) (c : Cut) :
    (c.cons p).tokens = p.token?.toList ++ c.tokens := by
  cases h : p.token? <;> simp [tokens, cons, h]

/-- A piece in front adds its token to what is scanned. -/
theorem scan_cons (p : PlacedPiece) (c : Cut) :
    (c.cons p).scan = c.scan.map (p.token?.toList ++ ·) := by
  -- A cut and the cut behind its first piece have the same rest and line, so the same error.
  have herror : (c.cons p).error? = c.error? := rfl
  rw [scan, scan, herror]
  cases c.error? with
  | none =>
    rw [tokens_cons, List.append_assoc]
    rfl
  | some e => rfl

/-- The log of a cut behind so many tokens, which the record of its end counts with its own. -/
def logBehind (found : Nat) (c : Cut) : List LogRecord :=
  c.tokens.map LogRecord.token ++ [match c.error? with
    | none => .scanned (found + c.tokens.length + 1) (c.line + 1)
    | some e => .aborted (found + c.tokens.length) e]

theorem logBehind_zero (c : Cut) : c.logBehind 0 = c.log := by
  rw [logBehind, Nat.zero_add]
  rfl

/-- A piece in front adds its token to what is logged. -/
theorem logBehind_cons (found : Nat) (p : PlacedPiece) (c : Cut) :
    (c.cons p).logBehind found =
      p.token?.toList.map LogRecord.token ++ c.logBehind (found + p.token?.toList.length) := by
  -- Only the tokens differ, and the tokens found before are counted to those of the piece.
  have herror : (c.cons p).error? = c.error? := rfl
  have hline : (c.cons p).line = c.line := rfl
  rw [logBehind, logBehind, tokens_cons, herror, hline, List.length_append, List.map_append,
    List.append_assoc, Nat.add_assoc found p.token?.toList.length]

end LoxLexer.Cut

namespace LoxLexer

theorem scan_ofList (cs : List Char) : scan (String.ofList cs) = (Cut.ofChars cs).scan := by
  rw [scan, String.toList_ofList]

/-- Characters can be scanned exactly when all of them are cut. -/
theorem scan_ofList_eq_ok_iff {cs : List Char} {tokens : List Token} :
    scan (String.ofList cs) = .ok tokens ↔ (Cut.ofChars cs).rest = [] ∧
      tokens = (Cut.ofChars cs).tokens ++ [Token.eof (Cut.ofChars cs).line] := by
  rw [scan_ofList, Cut.scan_eq_ok_iff]

end LoxLexer
