import LoxLexer.Proofs.Cutting

/-!
# Laying out tokens

The texts of tokens are written one after another, with gaps of blanks and comments between them. A
gap between two tokens begins with a blank, so that the token before it stops there: a comment right
behind a slash would not leave the slash alone. Such a text scans to its tokens, whatever the gaps
are, and the gaps show in nothing but the lines.

## Key results

- `Piece.stops_of_isWhitespace`: every token stops before a blank
- `Cut.yield_gap_append`, `Cut.yield_closing`: gaps yield no tokens
- `Cut.exists_yield_spaced`: what the cut of spaced texts yields
- `scan_layout`: the scan of tokens that are laid out
-/

namespace LoxLexer

/-! ## Gaps and layouts -/

namespace Grammar

/-- The characters of a gap outside its comments. -/
def Blank (c : Char) : Prop := c ∈ [' ', '\t', '\r', '\n']

instance : DecidablePred Blank := fun _ => inferInstanceAs (Decidable (_ ∈ _))

/-- Blanks and comments in a row, each comment ended by its line feed. -/
inductive Gap : List Char → Prop where
  | nil : Gap []
  | blank {c : Char} {gap : List Char} (hc : Blank c) (h : Gap gap) : Gap (c :: gap)
  | comment {body gap : List Char} (hbody : '\n' ∉ body) (h : Gap gap) :
      Gap ('/' :: '/' :: body ++ '\n' :: gap)

/-- A gap that may stand between two tokens: its first character is a blank. -/
def Separator (gap : List Char) : Prop := Gap gap ∧ ∃ c ∈ gap.head?, Blank c

/-- What may stand behind the last token: nothing, or a gap whose first character is a blank and
    whose last comment need not be ended. -/
def Closing (gap : List Char) : Prop :=
  gap = [] ∨ (∃ c ∈ gap.head?, Blank c) ∧
    (Gap gap ∨ ∃ front body, gap = front ++ '/' :: '/' :: body ∧ Gap front ∧ '\n' ∉ body)

/-- The text of a token and the gap behind it. -/
structure SpacedText where
  text : List Char
  gap : List Char

/-- The characters of the text and of its gap. -/
def SpacedText.chars (s : SpacedText) : List Char := s.text ++ s.gap

/-- Texts of tokens, at least one, with separators between them. -/
inductive Spaced : List SpacedText → Prop where
  | last {text gap : List Char} (htext : ∃ kind literal, TokenText text kind literal)
      (hgap : Closing gap) : Spaced [⟨text, gap⟩]
  | cons {text gap : List Char} {items : List SpacedText}
      (htext : ∃ kind literal, TokenText text kind literal) (hgap : Separator gap)
      (h : Spaced items) : Spaced (⟨text, gap⟩ :: items)

/-- Texts of tokens written one after another. -/
structure Layout where
  /-- The gap before the first token. -/
  lead : List Char
  items : List SpacedText
  gap_lead : Gap lead
  spaced : Spaced items

namespace Layout

/-- The texts of the tokens, without the gaps. -/
def texts (l : Layout) : List (List Char) := l.items.map (·.text)

/-- The characters before the `i`-th token. -/
def before (l : Layout) (i : Nat) : List Char := l.lead ++ (l.items.take i).flatMap (·.chars)

/-- The characters of the layout. -/
def chars (l : Layout) : List Char := l.lead ++ l.items.flatMap (·.chars)

/-- The layout as a source. -/
def source (l : Layout) : String := String.ofList l.chars

end Layout

end Grammar

open Grammar (Blank Closing Gap Layout Separator Spaced SpacedText TokenText)

/-! ## Blanks behind tokens -/

theorem Grammar.blank_iff {c : Char} : Blank c ↔ c.isWhitespace := by
  simp [Blank, isWhitespace_iff]

/-- Every piece that becomes a token stops before a blank. -/
theorem Piece.stops_of_isWhitespace {p : Piece} {kind : Kind} {c : Char} {rest : List Char}
    (hkind : p.kind? = some kind) (hc : c.isWhitespace) : p.Stops (c :: rest) := by
  -- Of the pieces only a comment goes on past a blank, and a comment is no token.
  apply p.stops_nil.append_blank hc
  rintro body rfl
  cases hkind

/-! ## What a cut yields -/

namespace Cut

/-- All that a scan takes from a cut: its tokens, the line on which it ends, and what is left. -/
def yield (c : Cut) : List Token × Nat × List Char := (c.tokens, c.line, c.rest)

theorem scan_of_yield_eq {c : Cut} {tokens : List Token} {line : Nat}
    (h : c.yield = (tokens, line, [])) : c.scan = .ok (tokens ++ [Token.eof line]) := by
  simp only [yield, Prod.mk.injEq] at h
  obtain ⟨rfl, rfl, hrest⟩ := h
  exact scan_eq_ok_iff.2 ⟨hrest, rfl⟩

/-- A piece without a token yields nothing but its line feeds. -/
theorem yield_trivia_append (line : Nat) {p : Piece} {rest : List Char} (hp : p.WellFormed)
    (hkind : p.kind? = none) (hstops : p.Stops rest) :
    (startingAt line (p.text ++ rest)).yield =
      (startingAt (line + p.lineFeeds) rest).yield := by
  have htoken : PlacedPiece.token? ⟨line, p⟩ = none := by
    simp [PlacedPiece.token?, Piece.token?, hkind]
  rw [startingAt_text_append hp hstops]
  simp only [yield, tokens, cons, List.filterMap_cons_none htoken]

/-- A piece with a token yields this token first. -/
theorem yield_token_append (line : Nat) {p : Piece} {kind : Kind} {rest : List Char}
    {tokens : List Token} {last : Nat} {left : List Char} (hp : p.WellFormed)
    (hkind : p.kind? = some kind) (hstops : p.Stops rest)
    (h : (startingAt (line + p.lineFeeds) rest).yield = (tokens, last, left)) :
    (startingAt line (p.text ++ rest)).yield =
      (⟨kind, String.ofList p.text, p.literal, line⟩ :: tokens, last, left) := by
  have htoken : PlacedPiece.token? ⟨line, p⟩ =
      some ⟨kind, String.ofList p.text, p.literal, line⟩ := by
    simp [PlacedPiece.token?, Piece.token?, hkind]
  simp only [yield, Prod.mk.injEq] at h
  obtain ⟨rfl, rfl, rfl⟩ := h
  rw [startingAt_text_append hp hstops]
  simp only [yield, Cut.tokens, cons, List.filterMap_cons_some htoken]

/-- A piece with a token yields this token if nothing follows. -/
theorem yield_token (line : Nat) {p : Piece} {kind : Kind} (hp : p.WellFormed)
    (hkind : p.kind? = some kind) :
    (startingAt line p.text).yield =
      ([⟨kind, String.ofList p.text, p.literal, line⟩], line + p.lineFeeds, []) := by
  -- Nothing follows the piece, so the cut behind it has nothing in it.
  have hnil : (startingAt (line + p.lineFeeds) []).yield = ([], line + p.lineFeeds, []) := by
    rw [startingAt_of_none rfl]
    rfl
  have htoken := yield_token_append line hp hkind p.stops_nil hnil
  rwa [List.append_nil] at htoken

/-- A gap yields nothing but its line feeds. -/
theorem yield_gap_append {gap : List Char} (hgap : Gap gap) (line : Nat) (rest : List Char) :
    (startingAt line (gap ++ rest)).yield =
      (startingAt (line + gap.count '\n') rest).yield := by
  -- Line by line of the definition: each part of the gap is a piece, or two, and the rest is a gap.
  induction hgap generalizing line with
  | nil => rfl
  | @blank c gap hc _ ih =>
    have hstops : (Piece.blank c).Stops (gap ++ rest) := trivial
    have hfirst := yield_trivia_append (p := .blank c) line (Grammar.blank_iff.1 hc) rfl hstops
    have hcount : line + (c :: gap).count '\n' =
        line + (Piece.blank c).lineFeeds + gap.count '\n' := by
      simp [Piece.lineFeeds, Piece.text, List.count_cons]
      omega
    rw [hcount, ← ih]
    exact hfirst
  | @comment body gap hbody _ ih =>
    -- The comment stops before its line feed, and the line feed is a blank of its own.
    have hstops : (Piece.comment body).Stops ('\n' :: gap ++ rest) := by simp [Piece.Stops]
    have hcomment := yield_trivia_append (p := .comment body) line hbody rfl hstops
    have hstops' : (Piece.blank '\n').Stops (gap ++ rest) := trivial
    have hlf := yield_trivia_append (p := .blank '\n') line rfl rfl hstops'
    have hzero : line + (Piece.comment body).lineFeeds = line := by
      simp [Piece.lineFeeds, Piece.text, List.count_eq_zero.2 hbody]
    have hcount : line + ('/' :: '/' :: body ++ '\n' :: gap).count '\n' =
        line + (Piece.blank '\n').lineFeeds + gap.count '\n' := by
      simp [Piece.lineFeeds, Piece.text, List.count_eq_zero.2 hbody]
      omega
    have htext : '/' :: '/' :: body ++ '\n' :: gap ++ rest =
        (Piece.comment body).text ++ ('\n' :: gap ++ rest) := by simp [Piece.text]
    rw [hcount, ← ih, htext, hcomment, hzero]
    exact hlf

/-- What stands behind the last token yields nothing, and nothing is left of it. -/
theorem yield_closing {gap : List Char} (hgap : Closing gap) (line : Nat) :
    (startingAt line gap).yield = ([], line + gap.count '\n', []) := by
  -- Behind a gap with an end there is nothing left to cut.
  have hnil : ∀ line, (startingAt line []).yield = ([], line, []) := fun line => by
    rw [startingAt_of_none rfl]
    rfl
  obtain rfl | ⟨-, hgap | ⟨front, body, rfl, hfront, hbody⟩⟩ := hgap
  · exact hnil line
  · have h := yield_gap_append hgap line []
    rw [List.append_nil, hnil] at h
    exact h
  · -- The last comment runs to the end of the text.
    have hcomment := yield_trivia_append (p := .comment body) (line + front.count '\n') hbody rfl
      (Piece.stops_nil _)
    have hcount : (front ++ '/' :: '/' :: body).count '\n' = front.count '\n' := by
      simp [List.count_eq_zero.2 hbody]
    have hzero : (Piece.comment body).lineFeeds = 0 := by
      simp [Piece.lineFeeds, Piece.text, List.count_eq_zero.2 hbody]
    rw [List.append_nil, hnil, hzero, Nat.add_zero] at hcomment
    rw [yield_gap_append hfront, hcount]
    exact hcomment

end Cut

/-! ## Spaced texts -/

/-- The source that is the text of one token scans to this token. -/
def ScansTo (text : List Char) (kind : Kind) (literal : Option Literal) : Prop :=
  scan (String.ofList text) = .ok [⟨kind, String.ofList text, literal, 0⟩,
    Token.eof (text.count '\n')]

/-- The text of a piece with a token scans to this token. -/
theorem scansTo_text {p : Piece} {kind : Kind} (hp : p.WellFormed) (hkind : p.kind? = some kind) :
    ScansTo p.text kind p.literal := by
  have hscan := Cut.scan_of_yield_eq (Cut.yield_token 0 hp hkind)
  rw [Nat.zero_add] at hscan
  rw [ScansTo, scan_ofList]
  exact hscan

namespace Cut

/-- The text of a token, before whatever the token stops at, yields the token that it scans to by
    itself. -/
theorem exists_yield_tokenText_append {text : List Char}
    (htext : ∃ kind literal, TokenText text kind literal) :
    ∃ kind literal, ScansTo text kind literal ∧
      ∀ line rest tokens last left, rest = [] ∨ (∃ c ∈ rest.head?, Blank c) →
        (startingAt (line + text.count '\n') rest).yield = (tokens, last, left) →
        (startingAt line (text ++ rest)).yield =
          (⟨kind, String.ofList text, literal, line⟩ :: tokens, last, left) := by
  obtain ⟨kind, literal, htext⟩ := htext
  -- The grammar gives the piece that the text is, and the piece does the rest.
  obtain ⟨p, hp, rfl, hkind, rfl⟩ := Grammar.exists_piece_of_tokenText htext
  refine ⟨kind, p.literal, scansTo_text hp hkind, ?_⟩
  intro line rest tokens last left hrest h
  have hstops : p.Stops rest := by
    obtain rfl | ⟨c, hc, hblank⟩ := hrest
    · exact p.stops_nil
    · obtain ⟨more, rfl⟩ := List.head?_eq_some_iff.1 hc
      exact Piece.stops_of_isWhitespace hkind (Grammar.blank_iff.1 hblank)
  exact yield_token_append line hp hkind hstops h

/-- The cut of spaced texts yields one token for each, on the line that the line feeds before it
    give. -/
theorem exists_yield_spaced {items : List SpacedText} (h : Spaced items) (line : Nat) :
    ∃ tokens, (startingAt line (items.flatMap (·.chars))).yield =
        (tokens, line + (items.flatMap (·.chars)).count '\n', []) ∧
      tokens.length = items.length ∧
      ∀ (i : Nat) (item : SpacedText), items[i]? = some item →
        ∃ kind literal, ScansTo item.text kind literal ∧
          tokens[i]? = some ⟨kind, String.ofList item.text, literal,
            line + ((items.take i).flatMap (·.chars)).count '\n'⟩ := by
  -- By induction on the texts. What is behind the gap begins with the next text.
  induction h generalizing line with
  | @last text gap htext hgap =>
    obtain ⟨kind, literal, halone, hfirst⟩ := exists_yield_tokenText_append htext
    have hrest : gap = [] ∨ ∃ c ∈ gap.head?, Blank c := hgap.imp_right And.left
    have hyield := hfirst line gap _ _ _ hrest (yield_closing hgap _)
    refine ⟨[⟨kind, String.ofList text, literal, line⟩], ?_, rfl, ?_⟩
    · simpa [SpacedText.chars, Nat.add_assoc] using hyield
    · intro i item hitem
      cases i with
      | zero =>
        cases hitem
        exact ⟨kind, literal, halone, rfl⟩
      | succ i => simp at hitem
  | @cons text gap items htext hgap _ ih =>
    obtain ⟨kind, literal, halone, hfirst⟩ := exists_yield_tokenText_append htext
    obtain ⟨tokens, hyield, hlength, htokens⟩ := ih (line + text.count '\n' + gap.count '\n')
    -- The separator begins with a blank, and so does what follows the token.
    have hrest : ∃ c ∈ (gap ++ items.flatMap (·.chars)).head?, Blank c := by
      obtain ⟨c, hc, hblank⟩ := hgap.2
      exact ⟨c, by simp [List.head?_append, Option.mem_def.1 hc], hblank⟩
    -- The gap yields nothing, and behind it the other texts begin on the line that it ends on.
    have hgapYield := yield_gap_append hgap.1 (line + text.count '\n') (items.flatMap (·.chars))
    have hcons := hfirst line _ _ _ _ (.inr hrest) (hgapYield.trans hyield)
    refine ⟨⟨kind, String.ofList text, literal, line⟩ :: tokens, ?_, by simp [hlength], ?_⟩
    · simpa [SpacedText.chars, Nat.add_assoc] using hcons
    -- The first token is this one, and the others are those of the texts behind it.
    · intro i item hitem
      cases i with
      | zero =>
        cases hitem
        exact ⟨kind, literal, halone, rfl⟩
      | succ i =>
        obtain ⟨kind', literal', halone', htoken⟩ := htokens i item hitem
        refine ⟨kind', literal', halone', ?_⟩
        simpa [SpacedText.chars, Nat.add_assoc] using htoken

end Cut

/-! ## Scanning a layout -/

/-- What a token is, wherever it stands. -/
def Token.meaning (t : Token) : Kind × String × Option Literal := (t.kind, t.lexeme, t.literal)

/-- The tokens of a layout: each is the token that its text scans to by itself, on the line that
    the line feeds before it give. -/
def Grammar.Layout.Tokens (l : Layout) (tokens : List Token) : Prop :=
  tokens.length = l.items.length ∧
    ∀ (i : Nat) (item : SpacedText), l.items[i]? = some item →
      ∃ kind literal, ScansTo item.text kind literal ∧
        tokens[i]? = some ⟨kind, String.ofList item.text, literal, (l.before i).count '\n'⟩

theorem ScansTo.unique {text : List Char} {kind kind' : Kind} {literal literal' : Option Literal}
    (h : ScansTo text kind literal) (h' : ScansTo text kind' literal') :
    kind = kind' ∧ literal = literal' := by
  rw [ScansTo, h] at h'
  simpa using h'

namespace Grammar.Layout

/-- Tokens of the same texts mean the same, whatever the gaps between them are. -/
theorem Tokens.map_meaning_eq {l l' : Layout} {tokens tokens' : List Token} (h : l.Tokens tokens)
    (h' : l'.Tokens tokens') (htexts : l'.texts = l.texts) :
    tokens'.map Token.meaning = tokens.map Token.meaning := by
  have hlength := congrArg List.length htexts
  simp only [texts, List.length_map] at hlength
  -- Both lists have a token for each text, so they are compared place by place.
  apply List.ext_getElem (by simp [h.1, h'.1, hlength])
  intro i hi' hi
  rw [List.length_map] at hi hi'
  have hlt : i < l.items.length := h.1 ▸ hi
  have hlt' : i < l'.items.length := h'.1 ▸ hi'
  have htext : l'.items[i].text = l.items[i].text := by
    have hget := congrArg (·[i]?) htexts
    simpa [texts, hlt, hlt'] using hget
  obtain ⟨kind, literal, halone, htoken⟩ := h.2 i _ (List.getElem?_eq_getElem hlt)
  obtain ⟨kind', literal', halone', htoken'⟩ := h'.2 i _ (List.getElem?_eq_getElem hlt')
  -- One text scans to one token.
  rw [htext] at halone' htoken'
  obtain ⟨rfl, rfl⟩ := halone.unique halone'
  rw [List.getElem?_eq_getElem hi, Option.some.injEq] at htoken
  rw [List.getElem?_eq_getElem hi', Option.some.injEq] at htoken'
  simp [htoken, htoken', Token.meaning]

end Grammar.Layout

theorem exists_scan_source (l : Layout) :
    ∃ tokens, scan l.source = .ok (tokens ++ [Token.eof (l.chars.count '\n')]) ∧
      l.Tokens tokens := by
  obtain ⟨tokens, hyield, hlength, htokens⟩ :=
    Cut.exists_yield_spaced l.spaced (l.lead.count '\n')
  -- The lead yields nothing, so the tokens are those of the spaced texts behind it.
  have hlead := Cut.yield_gap_append l.gap_lead 0 (l.items.flatMap (·.chars))
  rw [Nat.zero_add, hyield, ← List.count_append] at hlead
  have hscan := Cut.scan_of_yield_eq hlead
  refine ⟨tokens, ?_, hlength, ?_⟩
  · rw [Layout.source, scan_ofList]
    exact hscan
  · intro i item hitem
    obtain ⟨kind, literal, halone, htoken⟩ := htokens i item hitem
    exact ⟨kind, literal, halone, by rw [htoken, Layout.before, List.count_append]⟩

/-- Texts of tokens that are laid out with gaps between them scan to one token each, in order, and
    the token for the end of the input: the kind and the literal of a token are those that its text
    scans to by itself, and its line is the number of line feeds before it. Two layouts of the same
    texts give tokens that differ in nothing but their lines. -/
theorem scan_layout (l : Layout) :
    (∃ tokens, scan l.source = .ok (tokens ++ [Token.eof (l.chars.count '\n')]) ∧
      l.Tokens tokens) ∧
    ∀ l' : Layout, l'.texts = l.texts → ∃ tokens tokens',
      scan l.source = .ok tokens ∧ scan l'.source = .ok tokens' ∧
        tokens'.map Token.meaning = tokens.map Token.meaning := by
  obtain ⟨tokens, hscan, htokens⟩ := exists_scan_source l
  refine ⟨⟨tokens, hscan, htokens⟩, ?_⟩
  intro l' htexts
  obtain ⟨tokens', hscan', htokens'⟩ := exists_scan_source l'
  refine ⟨_, _, hscan, hscan', ?_⟩
  rw [List.map_append, List.map_append, htokens.map_meaning_eq htokens' htexts]
  rfl

/-- A slash and a string over two lines, once with comments behind them and once without. -/
theorem scan_layout_of_slash_before_comment :
    ∃ l l' : Layout, l.source = "/ // a\n\"x\ny\" //" ∧ l'.source = "//\n/\t\"x\ny\"" ∧
      l'.texts = l.texts ∧
      (∃ tokens, scan l.source = .ok (tokens ++ [Token.eof 2]) ∧ l.Tokens tokens) ∧
      ∃ tokens tokens', scan l.source = .ok tokens ∧ scan l'.source = .ok tokens' ∧
        tokens'.map Token.meaning = tokens.map Token.meaning := by
  have hslash : ∃ kind literal, TokenText ['/'] kind literal := ⟨_, _, .symbol .slash⟩
  have hstring : ∃ kind literal, TokenText ['"', 'x', '\n', 'y', '"'] kind literal := by
    have hbody : '"' ∉ ['x', '\n', 'y'] := by decide
    exact ⟨_, _, .string hbody⟩
  have hcomment : Gap [' ', '/', '/', ' ', 'a', '\n'] := by
    have hbody : '\n' ∉ [' ', 'a'] := by decide
    exact .blank (by decide) (.comment hbody .nil)
  have hlead : Gap ['/', '/', '\n'] := .comment List.not_mem_nil .nil
  have hclosing : Closing [' ', '/', '/'] :=
    .inr ⟨⟨' ', rfl, by decide⟩, .inr ⟨[' '], [], rfl, .blank (by decide) .nil, by decide⟩⟩
  have htab : Separator ['\t'] := ⟨.blank (by decide) .nil, '\t', rfl, by decide⟩
  let l : Layout := ⟨[], _, .nil, .cons hslash ⟨hcomment, ' ', rfl, by decide⟩
    (.last hstring hclosing)⟩
  let l' : Layout := ⟨_, _, hlead, .cons hslash htab (.last hstring (.inl rfl))⟩
  have hscan := scan_layout l
  exact ⟨l, l', rfl, rfl, rfl, hscan.1, hscan.2 l' rfl⟩

end LoxLexer
