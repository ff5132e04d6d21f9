import LoxLexer.Proofs.Layout

/-!
# Line endings

The lines of a source may end with a line feed alone or with a carriage return before it. A carriage
return that is put before a line feed falls between two items, where it is a blank, or behind a
comment, which takes it in, or into a string. Lines are counted by their line feeds, so it shows in
the strings and in nothing else.

No item looks at a line feed to see whether it goes on, except for comments: whatever stops before a
line feed stops before a carriage return.

## Key results

- `Piece.Stops.crlf`: a token stops before a text whatever line endings the text has
- `Cut.yield_crlf`: what a cut yields with other line endings
- `scan_crlf`: the scan of a source with other line endings
-/

namespace LoxLexer

/-! ## Texts with other line endings -/

/-- The characters with a carriage return put before each line feed. -/
def crlfChars (cs : List Char) : List Char :=
  cs.flatMap fun c => if c = '\n' then ['\r', '\n'] else [c]

/-- The text with a carriage return put before each line feed. -/
def crlf (s : String) : String := String.ofList (crlfChars s.toList)

/-- The literal with other line endings in its text. -/
def Literal.crlf : Literal → Literal
  | text content => text (LoxLexer.crlf content)
  | number value => number value

/-- The token with other line endings: only a string has any. -/
def Token.crlf (t : Token) : Token :=
  if t.kind = .string then
    { t with lexeme := LoxLexer.crlf t.lexeme, literal := t.literal.map Literal.crlf }
  else t

theorem crlfChars_lineFeed (cs : List Char) :
    crlfChars ('\n' :: cs) = '\r' :: '\n' :: crlfChars cs := rfl

theorem crlfChars_cons_of_ne {c : Char} (h : c ≠ '\n') (cs : List Char) :
    crlfChars (c :: cs) = c :: crlfChars cs := by
  rw [crlfChars, List.flatMap_cons, if_neg h]
  rfl

theorem crlfChars_append (a b : List Char) : crlfChars (a ++ b) = crlfChars a ++ crlfChars b :=
  List.flatMap_append

/-- A text without line feeds stays as it is. -/
theorem crlfChars_of_not_mem {cs : List Char} (h : '\n' ∉ cs) : crlfChars cs = cs := by
  induction cs with
  | nil => rfl
  | cons c cs ih =>
    rw [List.mem_cons, not_or] at h
    rw [crlfChars_cons_of_ne (Ne.symm h.1), ih h.2]

/-- The line feeds of a text stay. -/
theorem count_lineFeed_crlfChars (cs : List Char) : (crlfChars cs).count '\n' = cs.count '\n' := by
  induction cs with
  | nil => rfl
  | cons c cs ih =>
    by_cases hc : c = '\n'
    · rw [hc, crlfChars_lineFeed, List.count_cons_of_ne (by decide), List.count_cons_self,
        List.count_cons_self, ih]
    · rw [crlfChars_cons_of_ne hc, List.count_cons_of_ne hc, List.count_cons_of_ne hc, ih]

/-- Nothing but carriage returns is added. -/
theorem mem_of_mem_crlfChars {c : Char} {cs : List Char} (hc : c ≠ '\r') (h : c ∈ crlfChars cs) :
    c ∈ cs := by
  obtain ⟨d, hd, hmem⟩ := List.mem_flatMap.1 h
  -- A line feed comes with a carriage return, and any other character alone.
  by_cases hlf : d = '\n'
  · rw [if_pos hlf, List.mem_cons, List.mem_singleton] at hmem
    obtain rfl | rfl := hmem
    · exact absurd rfl hc
    · exact hlf ▸ hd
  · rw [if_neg hlf, List.mem_singleton] at hmem
    exact hmem ▸ hd

/-- The first character stays, or a carriage return is put before it. -/
theorem mem_head?_crlfChars {c : Char} {cs : List Char} (h : c ∈ (crlfChars cs).head?) :
    c = '\r' ∨ c ∈ cs.head? := by
  cases cs with
  | nil => cases h
  | cons d cs =>
    by_cases hlf : d = '\n'
    · rw [hlf, crlfChars_lineFeed] at h
      cases h
      exact .inl rfl
    · rw [crlfChars_cons_of_ne hlf] at h
      exact .inr h

/-- What holds of the first character and of a carriage return holds of the first character. -/
theorem forall_mem_head?_crlfChars {P : Char → Prop} {cs : List Char} (hcr : P '\r')
    (h : ∀ c ∈ cs.head?, P c) : ∀ c ∈ (crlfChars cs).head?, P c := by
  intro c hc
  obtain rfl | hc := mem_head?_crlfChars hc
  · exact hcr
  · exact h c hc

/-! ## Pieces with other line endings -/

/-- A numeral looks at a point and the character behind it, and a carriage return is neither a point
    nor a digit. -/
theorem Numeral.Stops.crlf {n : Numeral} {rest : List Char} (h : n.Stops rest) :
    n.Stops (crlfChars rest) := by
  constructor
  · exact forall_mem_head?_crlfChars rfl h.head
  · intro hfraction more hmore
    -- A point is the first character only if it was the first before, and then its follower is too.
    cases rest with
    | nil => cases hmore
    | cons c rest =>
      by_cases hlf : c = '\n'
      · rw [hlf, crlfChars_lineFeed] at hmore
        cases hmore
      · rw [crlfChars_cons_of_ne hlf] at hmore
        obtain ⟨rfl, rfl⟩ := List.cons.inj hmore
        exact forall_mem_head?_crlfChars rfl (h.point hfraction rest rfl)

theorem Symbol.Stops.crlf {s : Symbol} {rest : List Char} (h : s.Stops rest) :
    s.Stops (crlfChars rest) := by
  -- The character that extends the symbol is no carriage return.
  have hhead {c : Char} (hc : c ≠ '\r') (hrest : rest.head? ≠ some c) :
      (crlfChars rest).head? ≠ some c := by
    intro hmem
    obtain hcr | hmem := mem_head?_crlfChars hmem
    · exact hc hcr
    · exact hrest hmem
  cases s with
  | bang | equal | greater | less | slash => exact hhead (by decide) h
  | _ => trivial

namespace Piece

/-- A piece with other line endings: only a string has any. -/
def crlf : Piece → Piece
  | string body => string (crlfChars body)
  | p => p

variable {p : Piece} {kind : Kind}

theorem WellFormed.crlf (hp : p.WellFormed) : p.crlf.WellFormed := by
  -- No quote is put into a body that has none.
  cases p with
  | string body => exact fun hquote => hp (mem_of_mem_crlfChars (by decide) hquote)
  | _ => exact hp

theorem kind?_crlf (p : Piece) : p.crlf.kind? = p.kind? := by
  cases p <;> rfl

/-- A piece that becomes a token stops before a text whatever line endings the text has. -/
theorem Stops.crlf {rest : List Char} (hkind : p.kind? = some kind) (h : p.Stops rest) :
    p.crlf.Stops (crlfChars rest) := by
  cases p with
  | blank c | comment body => cases hkind
  | symbol s => exact Symbol.Stops.crlf h
  | string body => trivial
  | number n => exact Numeral.Stops.crlf h
  | word letters => exact forall_mem_head?_crlfChars (by decide) h

theorem kind_eq_string_iff (hkind : p.kind? = some kind) :
    -- Only strings have this kind: what a word is looked up as is a keyword.
    kind = .string ↔ ∃ body, p = string body := by
  constructor
  · rintro rfl
    cases p with
    | string body => exact ⟨body, rfl⟩
    | word letters =>
      cases hk : Keyword.ofText? (String.ofList letters) <;> simp [kind?, hk] at hkind
    | _ => cases hkind
  · rintro ⟨body, rfl⟩
    exact (Option.some.inj hkind).symm

theorem crlf_eq_self (hkind : p.kind? = some kind) (hstring : kind ≠ .string) : p.crlf = p := by
  cases p with
  | string body => exact absurd (Option.some.inj hkind).symm hstring
  | _ => rfl

/-- The text of a piece with other line endings. -/
theorem text_crlf (hp : p.WellFormed) (hkind : p.kind? = some kind) :
    p.crlf.text = crlfChars p.text := by
  -- Any other token has no line feed, and so it stays as it is.
  by_cases hstring : kind = .string
  · obtain ⟨body, rfl⟩ := (kind_eq_string_iff hkind).1 hstring
    show '"' :: crlfChars body ++ ['"'] = crlfChars ('"' :: body ++ ['"'])
    rw [crlfChars_append]
    rfl
  · rw [crlf_eq_self hkind hstring, crlfChars_of_not_mem (lineFeed_not_mem_text hp hkind hstring)]

/-- The token of a piece with other line endings. -/
theorem token_crlf (hp : p.WellFormed) (hkind : p.kind? = some kind) (line : Nat) :
    Token.crlf ⟨kind, String.ofList p.text, p.literal, line⟩ =
      ⟨kind, String.ofList p.crlf.text, p.crlf.literal, line⟩ := by
  by_cases hstring : kind = .string
  · have htext := text_crlf hp hkind
    obtain ⟨body, rfl⟩ := (kind_eq_string_iff hkind).1 hstring
    rw [Token.crlf, if_pos hstring, LoxLexer.crlf, String.toList_ofList, htext]
    show (⟨kind, _, some (.text (LoxLexer.crlf (String.ofList body))), line⟩ : Token) = _
    rw [LoxLexer.crlf, String.toList_ofList]
    rfl
  · rw [Token.crlf, if_neg hstring, crlf_eq_self hkind hstring]

theorem lineFeeds_crlf (hp : p.WellFormed) (hkind : p.kind? = some kind) :
    p.crlf.lineFeeds = p.lineFeeds := by
  rw [lineFeeds, lineFeeds, text_crlf hp hkind, count_lineFeed_crlfChars]

/-- Where nothing is found, nothing is found with other line endings. -/
theorem first?_crlf_eq_none {cs : List Char} (h : first? cs = none) :
    first? (crlfChars cs) = none := by
  cases cs with
  | nil => exact h
  | cons c cs =>
    -- What no piece begins with is no blank, and so no carriage return is put before it.
    have hlf : c ≠ '\n' := by
      rintro rfl
      cases isWhitespace_eq_false_of_first?_eq_none h
    rw [crlfChars_cons_of_ne hlf]
    by_cases hquote : c = '"'
    · subst hquote
      have hcs : '"' ∉ crlfChars cs := fun hmem =>
        not_mem_of_first?_quote_eq_none h (mem_of_mem_crlfChars (by decide) hmem)
      rw [first?_quote, if_neg hcs]
    · rw [first?_cons_eq_none_iff hquote] at h ⊢
      exact h

end Piece

/-! ## Cuts with other line endings -/

namespace Cut

/-- A carriage return before a text yields nothing. -/
theorem yield_carriageReturn (line : Nat) (rest : List Char) :
    (startingAt line ('\r' :: rest)).yield = (startingAt line rest).yield :=
  yield_trivia_append (p := .blank '\r') line rfl rfl trivial

/-- A carriage return before the line feed that ends a comment becomes part of the comment. -/
theorem yield_comment_crlf (line : Nat) {body rest : List Char}
    (hbody : (Piece.comment body).WellFormed) (hstops : (Piece.comment body).Stops rest) :
    (startingAt line ((Piece.comment body).text ++ crlfChars rest)).yield =
      (startingAt (line + (Piece.comment body).lineFeeds) (crlfChars rest)).yield := by
  cases rest with
  | nil => exact yield_trivia_append line hbody rfl hstops
  | cons c rest =>
    -- A comment stops before a line feed, if anything is left at all.
    obtain rfl : c = '\n' := hstops c rfl
    have hbody' : (Piece.comment (body ++ ['\r'])).WellFormed := by
      simpa [Piece.WellFormed] using hbody
    have hstops' : (Piece.comment (body ++ ['\r'])).Stops ('\n' :: crlfChars rest) := by
      simp [Piece.Stops]
    have htext : (Piece.comment body).text ++ '\r' :: '\n' :: crlfChars rest =
        (Piece.comment (body ++ ['\r'])).text ++ '\n' :: crlfChars rest := by
      simp [Piece.text]
    have hlineFeeds : (Piece.comment (body ++ ['\r'])).lineFeeds =
        (Piece.comment body).lineFeeds := by
      simp [Piece.lineFeeds, Piece.text]
    rw [crlfChars_lineFeed, htext, yield_trivia_append line hbody' rfl hstops', hlineFeeds,
      yield_carriageReturn]

/-- A blank or a comment yields nothing but its line feeds, whatever the line endings are. -/
theorem yield_trivia_crlf (line : Nat) {p : Piece} {rest : List Char} (hp : p.WellFormed)
    (hkind : p.kind? = none) (hstops : p.Stops rest) :
    (startingAt line (crlfChars p.text ++ crlfChars rest)).yield =
      (startingAt (line + p.lineFeeds) (crlfChars rest)).yield := by
  cases p with
  | blank c =>
    have hblank : (startingAt line (c :: crlfChars rest)).yield =
        (startingAt (line + (Piece.blank c).lineFeeds) (crlfChars rest)).yield :=
      yield_trivia_append line hp hkind trivial
    by_cases hlf : c = '\n'
    · -- The carriage return before the line feed is a blank of its own.
      subst hlf
      exact (yield_carriageReturn line _).trans hblank
    · rw [Piece.text, crlfChars_cons_of_ne hlf]
      exact hblank
  | comment body =>
    have htext : '\n' ∉ (Piece.comment body).text := by
      simpa [Piece.text, Piece.WellFormed] using hp
    rw [crlfChars_of_not_mem htext]
    exact yield_comment_crlf line hp hstops
  | _ => cases hkind

/-- What a cut yields with other line endings: the tokens with these line endings, on the same
    lines, and the same rest with these line endings. -/
theorem yield_crlf (line : Nat) (cs : List Char) :
    (startingAt line (crlfChars cs)).yield =
      ((startingAt line cs).tokens.map Token.crlf, (startingAt line cs).line,
        crlfChars (startingAt line cs).rest) := by
  induction line, cs using induction_on with
  | stuck line cs h =>
    rw [startingAt_of_none h, startingAt_of_none (Piece.first?_crlf_eq_none h)]
    rfl
  | piece line p rest hp hstops ih =>
    rw [crlfChars_append]
    -- A piece without a token is passed over in both texts, and the token of any other is the first
    -- in both.
    cases hkind : p.kind? with
    | none =>
      have hsame := yield_trivia_append line hp hkind hstops
      simp only [yield, Prod.mk.injEq] at hsame
      obtain ⟨htokens, hline, hrest⟩ := hsame
      rw [htokens, hline, hrest, ← ih]
      exact yield_trivia_crlf line hp hkind hstops
    | some kind =>
      have hsame := yield_token_append line hp hkind hstops rfl
      simp only [yield, Prod.mk.injEq] at hsame
      obtain ⟨htokens, hline, hrest⟩ := hsame
      rw [htokens, hline, hrest, List.map_cons, Piece.token_crlf hp hkind,
        ← Piece.text_crlf hp hkind]
      apply yield_token_append line hp.crlf ((Piece.kind?_crlf p).trans hkind)
        (Piece.Stops.crlf hkind hstops)
      rw [Piece.lineFeeds_crlf hp hkind]
      exact ih

/-- The error of a cut is that of its line and its rest, whatever the line endings are. -/
theorem error?_crlf {c d : Cut} (hfirst : Piece.first? c.rest = none)
    (hline : d.line = c.line) (hrest : d.rest = crlfChars c.rest) : d.error? = c.error? := by
  obtain ⟨hnil, hnone⟩ | ⟨body, hquote, hopen⟩ | ⟨char, body, hcons, hchar, hunexpected⟩ :=
    c.rest_cases
  · rw [hnone, error?_eq_none_iff, hrest, hnil]
    rfl
  · -- The quote stays first, and the body keeps its line feeds.
    rw [hquote, crlfChars_cons_of_ne (by decide)] at hrest
    rw [hopen, error?_of_quote hrest, hline, count_lineFeed_crlfChars]
  · have hlf : char ≠ '\n' := by
      rintro rfl
      rw [hcons] at hfirst
      cases Piece.isWhitespace_eq_false_of_first?_eq_none hfirst
    rw [hcons, crlfChars_cons_of_ne hlf] at hrest
    rw [hunexpected, error?_of_ne_quote hrest hchar, hline]

end Cut

/-! ## Scanning -/

/-- With a carriage return put before each line feed, a source is scanned as before: the strings
    have the same carriage returns put into their texts, and the tokens are the same in all else.
    If the source cannot be scanned, the error is the same. -/
theorem scan_crlf (source : String) :
    scan (crlf source) = (scan source).map (·.map Token.crlf) := by
  have hyield := Cut.yield_crlf 0 source.toList
  simp only [Cut.yield, Prod.mk.injEq] at hyield
  obtain ⟨htokens, hline, hrest⟩ := hyield
  have herror := Cut.error?_crlf (Cut.first?_rest 0 source.toList) hline hrest
  rw [crlf, scan_ofList, scan, Cut.scan, Cut.scan, Cut.ofChars, Cut.ofChars, herror]
  -- The results are chosen by the same error, and they agree in each case.
  cases (Cut.startingAt 0 source.toList).error? with
  | none =>
    rw [htokens, hline]
    show _ = Except.ok (List.map _ _)
    rw [List.map_append]
    rfl
  | some e => rfl

end LoxLexer
