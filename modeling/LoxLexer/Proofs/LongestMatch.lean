import LoxLexer.Proofs.Boundary
import LoxLexer.Proofs.Grammar

/-!
# Pieces are the longest items

The texts of well-formed pieces are the items of the grammar, and the text of a piece fixes the
piece. The piece that is found at the front of a text is the longest item there, and where none is
found, no item stands.

## Key results

- `Piece.eq_of_text_eq`: different pieces have different texts
- `Grammar.item_iff_exists_piece`: items are the texts of well-formed pieces
- `Grammar.longestItem_iff`: longest items are the texts of the pieces that are found
- `Grammar.first?_eq_none_iff`: nothing is found where no item stands
-/

namespace LoxLexer

/-! ## The text of a piece fixes the piece -/

namespace Piece

/-- Every piece stops at the end of the text. -/
theorem stops_nil (p : Piece) : p.Stops [] := by
  -- No piece asks for a character, each only refuses some.
  cases p with
  | symbol s => cases s <;> simp [Stops, Symbol.Stops]
  | number n =>
    constructor
    · intro c hc
      cases hc
    · intro _ more hmore
      cases hmore
  | comment body | word letters =>
    intro c hc
    cases hc
  | blank c | string body => trivial

/-- A well-formed piece is found at the front of its own text. -/
theorem first?_text {p : Piece} (hp : p.WellFormed) : first? p.text = some p := by
  have h := first?_text_append hp p.stops_nil
  rwa [List.append_nil] at h

/-- Different pieces have different texts. -/
theorem eq_of_text_eq {p q : Piece} (hp : p.WellFormed) (hq : q.WellFormed)
    -- The piece is read off the text, so one text has one piece.
    (h : p.text = q.text) : p = q := by
  have hfirst := first?_text hp
  rw [h, first?_text hq] at hfirst
  exact (Option.some.inj hfirst).symm

/-- Every keyword is spelled as a word. -/
theorem wellFormed_word_keyword (k : Keyword) : (word k.text.toList).WellFormed := by
  obtain ⟨c, cs, htext, hc, hcs⟩ : ∃ c cs, k.text.toList = c :: cs ∧ beginsWord c ∧
      cs.all continuesWord := by
    cases k <;> exact ⟨_, _, rfl, rfl, rfl⟩
  exact ⟨c, cs, htext, hc, List.all_eq_true.1 hcs⟩

end Piece

/-! ## Items and pieces -/

namespace Grammar

theorem digit_iff {c : Char} : Digit c ↔ c.isDigit := by
  rw [Digit, Char.le_def, Char.le_def, UInt32.le_iff_toNat_le, UInt32.le_iff_toNat_le]
  exact Char.isDigit_iff_toNat.symm

theorem letter_iff {c : Char} : Letter c ↔ Piece.beginsWord c := beginsWord_iff.symm

theorem letter_or_digit_iff {c : Char} : Letter c ∨ Digit c ↔ Piece.continuesWord c := by
  rw [letter_iff, digit_iff]
  show Piece.beginsWord c = true ∨ c.isDigit = true ↔ (c.isAlpha || c.isDigit || c == '_') = true
  rw [Piece.beginsWord, Bool.or_eq_true, Bool.or_eq_true, Bool.or_eq_true]
  exact or_right_comm

theorem word_iff {w : List Char} : Word w ↔ (Piece.word w).WellFormed := by
  simp only [Word, Piece.WellFormed, letter_or_digit_iff]
  simp only [letter_iff]

theorem digits_whole {n : Numeral} (hn : n.WellFormed) : Digits n.whole :=
  ⟨hn.whole_ne_nil, fun d hd => digit_iff.2 (hn.isDigit_whole d hd)⟩

theorem digits_fraction {n : Numeral} (hn : n.WellFormed) (hne : n.fraction ≠ []) :
    Digits n.fraction :=
  ⟨hne, fun d hd => digit_iff.2 (hn.isDigit_fraction d hd)⟩

/-- Trivia begin with a blank or a slash. -/
theorem not_trivia_of_head {c : Char} {cs : List Char} (hblank : c.isWhitespace = false)
    (hslash : c ≠ '/') : ¬ Trivia (c :: cs) := by
  intro h
  obtain h | ⟨hslashes, _⟩ := h
  -- The first character of either kind of trivia is one of the excluded.
  · simp only [List.mem_cons, List.cons.injEq, List.not_mem_nil, or_false] at h
    obtain ⟨rfl, _⟩ | ⟨rfl, _⟩ | ⟨rfl, _⟩ | ⟨rfl, _⟩ := h <;> cases hblank
  · exact hslash (List.cons_prefix_cons.1 hslashes).1.symm

/-- Blanks and comments are trivia, and nothing else is. -/
theorem trivia_text_iff {p : Piece} (hp : p.WellFormed) : Trivia p.text ↔ p.kind? = none := by
  -- Of the pieces that are tokens, each begins with a character that trivia do not begin with.
  cases p with
  | blank c =>
    obtain rfl | rfl | rfl | rfl := isWhitespace_iff.1 hp <;> simp [Trivia, Piece.text, Piece.kind?]
  | comment body =>
    have hbody : '\n' ∉ body := hp
    have htext : '\n' ∉ (Piece.comment body).text := by simpa [Piece.text] using hbody
    exact iff_of_true (.inr ⟨⟨body, rfl⟩, htext⟩) rfl
  | symbol s =>
    apply iff_of_false
    · cases s <;> decide
    · exact Option.some_ne_none _
  | string body =>
    have hfalse : ¬ Trivia (Piece.string body).text :=
      not_trivia_of_head (by decide) (by decide)
    exact iff_of_false hfalse (Option.some_ne_none _)
  | number n =>
    obtain ⟨d, ds, htext, hd⟩ := Numeral.exists_text_eq_cons hp
    have hfalse : ¬ Trivia (Piece.number n).text := by
      rw [Piece.text, htext]
      apply not_trivia_of_head (isWhitespace_eq_false_of_isDigit hd)
      intro hslash
      rw [hslash] at hd
      cases hd
    exact iff_of_false hfalse (Option.some_ne_none _)
  | word letters =>
    obtain ⟨d, ds, rfl, hd, _⟩ := hp
    have hfalse : ¬ Trivia (Piece.word (d :: ds)).text := by
      apply not_trivia_of_head (isWhitespace_eq_false_of_beginsWord hd)
      intro hslash
      rw [hslash] at hd
      cases hd
    exact iff_of_false hfalse (Option.some_ne_none _)

/-- The text of a piece is the text of a token with the kind and the literal of the piece. -/
theorem tokenText_text {p : Piece} {kind : Kind} (hp : p.WellFormed) (hkind : p.kind? = some kind) :
    TokenText p.text kind p.literal := by
  cases p with
  | blank c => cases hkind
  | comment body => cases hkind
  | symbol s =>
    cases hkind
    exact .symbol s
  | string body =>
    cases hkind
    exact .string hp
  | number n =>
    cases hkind
    obtain ⟨whole, fraction⟩ := n
    -- The two forms of a number differ in whether there is a point.
    cases fraction with
    | nil =>
      have htext : (Piece.number ⟨whole, []⟩).text = whole := Numeral.text_of_fraction_eq_nil rfl
      rw [htext]
      exact .integer (digits_whole hp)
    | cons d ds =>
      exact .decimal (digits_whole hp) (digits_fraction hp (List.cons_ne_nil d ds))
  | word letters =>
    simp only [Piece.kind?, Option.some.injEq] at hkind
    cases hk : Keyword.ofText? (String.ofList letters) with
    | none =>
      rw [hk] at hkind
      subst hkind
      apply TokenText.identifier (word_iff.2 hp)
      intro k hkeyword
      -- A word that is spelled as a keyword would have been recognised.
      have htext : k.text.toList = letters := hkeyword
      have hsome : Keyword.ofText? (String.ofList letters) = some k :=
        Keyword.ofText?_eq_some_iff.2 (by rw [← htext, String.ofList_toList])
      rw [hk] at hsome
      cases hsome
    | some k =>
      rw [hk] at hkind
      subst hkind
      have htext := Keyword.ofText?_eq_some_iff.1 hk
      have hletters : letters = k.text.toList := by rw [htext, String.toList_ofList]
      show TokenText letters _ _
      rw [hletters]
      exact .keyword k

theorem exists_piece_of_trivia {t : List Char} (h : Trivia t) :
    ∃ p : Piece, p.WellFormed ∧ p.text = t := by
  obtain h | ⟨⟨body, rfl⟩, hbody⟩ := h
  · simp only [List.mem_cons, List.not_mem_nil, or_false] at h
    -- The four blanks are the four pieces.
    obtain rfl | rfl | rfl | rfl := h <;>
      exact ⟨.blank _, isWhitespace_iff.2 (by decide), rfl⟩
  · exact ⟨.comment body, fun hmem => hbody (by simp [hmem]), rfl⟩

theorem exists_piece_of_tokenText {t : List Char} {kind : Kind} {literal : Option Literal}
    (h : TokenText t kind literal) :
    ∃ p : Piece, p.WellFormed ∧ p.text = t ∧ p.kind? = some kind ∧ p.literal = literal := by
  cases h with
  | symbol s => exact ⟨.symbol s, trivial, rfl, rfl, rfl⟩
  | @string body hbody => exact ⟨.string body, hbody, rfl, rfl, rfl⟩
  | integer hwhole =>
    have hn : Numeral.WellFormed ⟨t, []⟩ :=
      ⟨hwhole.1, fun c hc => digit_iff.1 (hwhole.2 c hc), List.forall_mem_nil _⟩
    exact ⟨.number ⟨t, []⟩, hn, Numeral.text_of_fraction_eq_nil rfl, rfl, rfl⟩
  | @decimal whole fraction hwhole hfraction =>
    have hn : Numeral.WellFormed ⟨whole, fraction⟩ :=
      ⟨hwhole.1, fun c hc => digit_iff.1 (hwhole.2 c hc),
        fun c hc => digit_iff.1 (hfraction.2 c hc)⟩
    exact ⟨.number ⟨whole, fraction⟩, hn, Numeral.text_of_fraction_ne_nil hfraction.1, rfl, rfl⟩
  | keyword k =>
    have hk : Keyword.ofText? (String.ofList k.text.toList) = some k := by
      rw [String.ofList_toList, Keyword.ofText?_eq_some_iff]
    exact ⟨.word k.text.toList, Piece.wellFormed_word_keyword k, rfl,
      by rw [Piece.kind?, hk]; rfl, rfl⟩
  | identifier hw hk =>
    -- No keyword is spelled like the word, so it is not looked up as one.
    have hnone : Keyword.ofText? (String.ofList t) = none := by
      apply Option.eq_none_iff_forall_ne_some.2
      intro k hsome
      exact hk k (by rw [Keyword.ofText?_eq_some_iff.1 hsome, String.toList_ofList])
    exact ⟨.word t, word_iff.1 hw, rfl, by rw [Piece.kind?, hnone]; rfl, rfl⟩

/-- The grammar gives the text of a piece the kind and the literal of the piece, and no other. -/
theorem tokenText_text_iff {p : Piece} {kind : Kind} {literal : Option Literal}
    (hp : p.WellFormed) :
    TokenText p.text kind literal ↔ p.kind? = some kind ∧ p.literal = literal := by
  constructor
  · intro h
    -- The text is that of one piece only, which is therefore this one.
    obtain ⟨q, hq, htext, hkind, hliteral⟩ := exists_piece_of_tokenText h
    rw [← Piece.eq_of_text_eq hq hp htext]
    exact ⟨hkind, hliteral⟩
  · intro h
    obtain ⟨hkind, rfl⟩ := h
    exact tokenText_text hp hkind

/-- Items are the texts of well-formed pieces. -/
theorem item_iff_exists_piece {t : List Char} :
    Item t ↔ ∃ p : Piece, p.WellFormed ∧ p.text = t := by
  constructor
  · intro h
    obtain h | ⟨kind, literal, h⟩ := h
    · exact exists_piece_of_trivia h
    · obtain ⟨p, hp, htext, _⟩ := exists_piece_of_tokenText h
      exact ⟨p, hp, htext⟩
  · intro h
    obtain ⟨p, hp, rfl⟩ := h
    cases hkind : p.kind? with
    | none => exact .inl ((trivia_text_iff hp).2 hkind)
    | some kind => exact .inr ⟨kind, p.literal, tokenText_text hp hkind⟩

/-! ## Longest items -/

/-- The longest item at the front of a text is the text of the piece that is found. -/
theorem longestItem_iff {t cs : List Char} :
    LongestItem t cs ↔ ∃ p, Piece.first? cs = some p ∧ p.text = t := by
  constructor
  · intro h
    obtain ⟨hitem, ⟨rest, rfl⟩, hlength⟩ := h
    obtain ⟨q, hq, rfl⟩ := item_iff_exists_piece.1 hitem
    obtain ⟨p, hp, hle⟩ := Piece.exists_first?_of_wellFormed hq rest
    obtain ⟨hwf, more, hmore, _⟩ := Piece.first?_eq_some_iff.1 hp
    -- Both are at the front, and neither is longer than the other.
    have hge := hlength p.text (item_iff_exists_piece.2 ⟨p, hwf, rfl⟩) ⟨more, hmore.symm⟩
    exact ⟨p, hp, (List.append_inj hmore (Nat.le_antisymm hle hge)).1.symm⟩
  · intro h
    obtain ⟨p, hp, rfl⟩ := h
    obtain ⟨hwf, rest, rfl, _⟩ := Piece.first?_eq_some_iff.1 hp
    have hlength : ∀ u, Item u → u <+: p.text ++ rest → u.length ≤ p.text.length := by
      -- Any item there is a piece, and what is found is at least as long as every piece there.
      intro u hu hprefix
      obtain ⟨q, hq, rfl⟩ := item_iff_exists_piece.1 hu
      obtain ⟨more, hmore⟩ := hprefix
      obtain ⟨r, hr, hle⟩ := Piece.exists_first?_of_wellFormed hq more
      rw [hmore, hp] at hr
      cases hr
      exact hle
    exact ⟨item_iff_exists_piece.2 ⟨p, hwf, rfl⟩, ⟨rest, rfl⟩, hlength⟩

/-- Nothing is found exactly where no item stands. -/
theorem first?_eq_none_iff {cs : List Char} :
    Piece.first? cs = none ↔ ∀ t, Item t → ¬ t <+: cs := by
  constructor
  · intro hnone t ht hprefix
    obtain ⟨rest, rfl⟩ := hprefix
    -- If an item stood there, a piece would be found, the longest.
    obtain ⟨q, hq, rfl⟩ := item_iff_exists_piece.1 ht
    obtain ⟨p, hp, _⟩ := Piece.exists_first?_of_wellFormed hq rest
    rw [hnone] at hp
    cases hp
  · intro hstuck
    cases hp : Piece.first? cs with
    | none => rfl
    | some p =>
      have hlongest := longestItem_iff.2 ⟨p, hp, rfl⟩
      exact absurd hlongest.isPrefix (hstuck p.text hlongest.item)

end Grammar

end LoxLexer
