import LoxLexer.Proofs.Adjacency
import LoxLexer.Proofs.Lines
import LoxLexer.Proofs.Listing

/-!
# Reserved words

A text is looked up as a keyword exactly if a keyword kind has it for a name. A word in a source is
looked up whole: with the characters around it, it is part of no longer word, so no reserved word is
cut out of another word or hidden in one. The token of a word therefore has the keyword kind with
its text for a name, if there is one, and is an identifier otherwise. No reserved word begins
another, and all are in lower case, so a word that only begins, goes on or is spelled like a
reserved word is an identifier.

## Key results

- `Keyword.map_ofText?_eq_some_iff`: what is looked up is what kinds are named
- `Keyword.eq_of_isPrefix`, `Keyword.eq_of_map_toLower_eq`: reserved words do not resemble each
  other
- `Grammar.Cuts.wholeRun`: a word among the items of a source is a whole run
- `scan_recognises_reserved_words`: the tokens of words
-/

namespace LoxLexer

open Grammar (Cuts Digit Letter Word tokenItems)

/-! ## The table of keywords -/

theorem Kind.exists_eq_keyword {k : Kind} (h : k.isKeyword) : ∃ w, k = keyword w := by
  cases k with
  | keyword w => exact ⟨w, rfl⟩
  | _ => cases h

namespace Keyword

theorem mem_all (k : Keyword) : k ∈ all := by
  cases k <;> decide

theorem text_inj {k k' : Keyword} (h : k.text = k'.text) : k = k' := by
  -- Looking a text up gives one keyword at most.
  have hk := ofText?_eq_some_iff.2 h
  have hk' : ofText? k'.text = some k' := ofText?_eq_some_iff.2 rfl
  exact Option.some.inj (hk.symm.trans hk')

/-- A text is looked up as the keyword kind that it is the name of. -/
theorem map_ofText?_eq_some_iff {w : String} {k : Kind} :
    (ofText? w).map .keyword = some k ↔ k.isKeyword ∧ k.name = w := by
  constructor
  · intro h
    obtain ⟨k, hk, rfl⟩ := Option.map_eq_some_iff.1 h
    exact ⟨rfl, ofText?_eq_some_iff.1 hk⟩
  · intro h
    obtain ⟨hkeyword, rfl⟩ := h
    -- The kind is that of a keyword, which is named as it is spelled.
    obtain ⟨k, rfl⟩ := Kind.exists_eq_keyword hkeyword
    have hk : ofText? k.text = some k := ofText?_eq_some_iff.2 rfl
    exact congrArg (Option.map Kind.keyword) hk

/-- No other text is looked up. -/
theorem map_ofText?_eq_none_iff {w : String} :
    (ofText? w).map Kind.keyword = none ↔ ∀ k : Kind, k.isKeyword → k.name ≠ w := by
  rw [Option.eq_none_iff_forall_ne_some]
  constructor
  · intro h k hk hname
    exact h k (map_ofText?_eq_some_iff.2 ⟨hk, hname⟩)
  · intro h k hk
    obtain ⟨hkeyword, hname⟩ := map_ofText?_eq_some_iff.1 hk
    exact h k hkeyword hname

/-- No keyword begins another. -/
theorem eq_of_isPrefix {k k' : Keyword} (h : k.text.toList <+: k'.text.toList) : k = k' := by
  -- There are few enough pairs of keywords to try them all.
  have hall : ∀ k ∈ all, ∀ k' ∈ all, k.text.toList.isPrefixOf k'.text.toList → k = k' := by
    decide +kernel
  exact hall k k.mem_all k' k'.mem_all (List.isPrefixOf_iff_prefix.2 h)

/-- All keywords are in lower case. -/
theorem map_toLower_text (k : Keyword) : k.text.toList.map Char.toLower = k.text.toList := by
  cases k <;> rfl

/-- Keywords differ in more than the case of their letters. -/
theorem eq_of_map_toLower_eq {k k' : Keyword}
    (h : k.text.toList.map Char.toLower = k'.text.toList.map Char.toLower) : k = k' := by
  rw [map_toLower_text, map_toLower_text] at h
  exact text_inj (String.toList_inj.1 h)

end Keyword

/-! ## Whole runs -/

namespace Grammar

/-- A word that stands between two texts is a whole run: with characters of these texts it makes no
    longer word. -/
structure WholeRun (before w after : List Char) : Prop where
  word : Word w
  eq_nil : ∀ u v, u <:+ before → v <+: after → Word (u ++ w ++ v) → u = [] ∧ v = []

theorem Word.ne_nil {w : List Char} (h : Word w) : w ≠ [] := by
  obtain ⟨c, cs, rfl, _⟩ := h
  exact List.cons_ne_nil c cs

theorem Word.letter_or_digit {w : List Char} (h : Word w) : ∀ c ∈ w, Letter c ∨ Digit c := by
  obtain ⟨c, cs, rfl, hc, hcs⟩ := h
  exact List.forall_mem_cons.2 ⟨.inl hc, hcs⟩

/-- What a word begins with is a word. -/
theorem Word.of_append {u v : List Char} (h : Word (u ++ v)) (hu : u ≠ []) : Word u := by
  obtain ⟨c, cs, rfl⟩ := List.exists_cons_of_ne_nil hu
  obtain ⟨d, ds, hcons, hd, hds⟩ := h
  obtain ⟨rfl, rfl⟩ := List.cons.inj hcons
  exact ⟨c, cs, rfl, hd, fun e he => hds e (List.mem_append_left v he)⟩

/-- A word at the end of a piece stops where the piece does. -/
theorem continuesWord_eq_false_of_stops {p : Piece} {rest w : List Char} (hp : p.WellFormed)
    (h : p.Stops rest) (hw : Word w) (hsuffix : w <:+ p.text) :
    ∀ c ∈ rest.head?, Piece.continuesWord c = false := by
  -- The letter that the word begins with is in the piece.
  obtain ⟨d, hd, hmem⟩ : ∃ d, Piece.beginsWord d ∧ d ∈ p.text := by
    obtain ⟨d, ds, rfl, hd, _⟩ := hw
    exact ⟨d, letter_iff.1 hd, hsuffix.subset List.mem_cons_self⟩
  cases p with
  | blank c =>
    have hblank : c.isWhitespace = true := hp
    rw [← List.mem_singleton.1 hmem, isWhitespace_eq_false_of_beginsWord hd] at hblank
    cases hblank
  | comment body =>
    intro c hc
    rw [h c hc]
    rfl
  | symbol s =>
    have hall : s.text.all (!Piece.beginsWord ·) = true := by cases s <;> rfl
    have hno := List.all_eq_true.1 hall d hmem
    rw [hd] at hno
    cases hno
  | string body =>
    -- The quote at the end would be in the word.
    have hlast : w.getLast hw.ne_nil = '"' := by
      rw [hsuffix.getLast hw.ne_nil]
      exact List.getLast_concat
    have hquote := hw.letter_or_digit _ (List.getLast_mem hw.ne_nil)
    rw [hlast, letter_or_digit_iff] at hquote
    cases hquote
  | number n =>
    obtain hdigit | rfl := Numeral.isDigit_or_eq_point_of_mem_text hp hmem
    · rw [isDigit_eq_false_of_beginsWord hd] at hdigit
      cases hdigit
    · cases hd
  | word letters => exact h

theorem LongestItem.not_letter_or_digit {t cs w : List Char} (h : LongestItem t (t ++ cs))
    (hw : Word w) (hsuffix : w <:+ t) : ∀ c ∈ cs.head?, ¬ (Letter c ∨ Digit c) := by
  obtain ⟨p, hfirst, rfl⟩ := longestItem_iff.1 h
  obtain ⟨hp, rest, hrest, hstops⟩ := Piece.first?_eq_some_iff.1 hfirst
  obtain rfl := List.append_cancel_left hrest
  intro c hc
  rw [letter_or_digit_iff, continuesWord_eq_false_of_stops hp hstops hw hsuffix c hc]
  exact Bool.false_ne_true

/-- A word at the end of some items of a cut does not go on behind them. -/
theorem Cuts.not_letter_or_digit {cs rest w : List Char} {items others : List (List Char)}
    (h : Cuts cs (items ++ others) rest) (hw : Word w) (hsuffix : w <:+ items.flatten) :
    ∀ c ∈ (others.flatten ++ rest).head?, ¬ (Letter c ∨ Digit c) := by
  induction items generalizing cs with
  | nil => exact absurd (List.suffix_nil.1 hsuffix) hw.ne_nil
  | cons t items ih =>
    cases h with
    | @cons _ cs _ _ ht h =>
      obtain ⟨front, hfront⟩ := hsuffix
      -- The word begins in this item or in one behind it.
      obtain ⟨u, rfl, rfl⟩ | ⟨u, -, hu⟩ := List.append_eq_append_iff.1 hfront
      · by_cases hnil : u = []
        · subst hnil
          exact ih h List.suffix_rfl
        · -- The word begins in the first item and stops there, so nothing is behind this item.
          have hstops := ht.not_letter_or_digit (hw.of_append hnil) (List.suffix_append front u)
          have hcs : items.flatten ++ (others.flatten ++ rest) = cs := by
            rw [← List.append_assoc, ← List.flatten_append]
            exact h.flatten_append
          cases hitems : items.flatten with
          | nil => rwa [← hcs, hitems] at hstops
          | cons c more =>
            rw [hitems] at hcs hw
            have hc : c ∈ cs.head? := by rw [← hcs]; rfl
            exact absurd (hw.letter_or_digit c (by simp)) (hstops c hc)
      · exact ih h ⟨u, hu.symm⟩

/-- A word among the items of a cut is a whole run. -/
theorem Cuts.wholeRun {cs rest w : List Char} {items others : List (List Char)}
    (h : Cuts cs (items ++ w :: others) rest) (hw : Word w) :
    WholeRun items.flatten w (others.flatten ++ rest) where
  word := hw
  eq_nil u v hu hv hlonger := by
    constructor
    · -- A word in front of the items would go on into the first letter of this one.
      by_contra hne
      obtain ⟨c, cs, rfl, hc, _⟩ := id hw
      rw [List.append_assoc] at hlonger
      exact h.not_letter_or_digit (hlonger.of_append hne) hu c rfl (.inl hc)
    · cases v with
      | nil => rfl
      | cons c v =>
        have hitems : Cuts cs ((items ++ [w]) ++ others) rest := by simpa using h
        have hend : w <:+ (items ++ [w]).flatten := by simp
        obtain ⟨more, hmore⟩ := hv
        have hc : c ∈ (others.flatten ++ rest).head? := by rw [← hmore]; rfl
        exact absurd (hlonger.letter_or_digit c (by simp)) (hitems.not_letter_or_digit hw hend c hc)

end Grammar

/-! ## The tokens of words -/

/-- A text is like another one: it begins or goes on like it, or differs in the case of letters. -/
inductive Resembles (w name : List Char) : Prop where
  | beginning (h : w <+: name)
  | extension (h : name <+: w)
  | spelling (h : w.map Char.toLower = name.map Char.toLower)

/-- The token has the keyword kind with its text for a name, and is an identifier if there is none,
    even if its text resembles the name of a keyword kind. -/
structure Token.Recognised (t : Token) : Prop where
  isKeyword_iff : t.kind.isKeyword ↔ ∃ k : Kind, k.isKeyword ∧ k.name = t.lexeme
  of_name : ∀ k : Kind, k.isKeyword → k.name = t.lexeme →
    t.kind = k ∧ t.display = t.lexeme ++ " " ++ t.lexeme ++ " nil"
  of_no_name : (∀ k : Kind, k.isKeyword → k.name ≠ t.lexeme) → t.kind = .identifier
  of_resembles : ∀ k : Kind, k.isKeyword → k.name ≠ t.lexeme →
    Resembles t.lexeme.toList k.name.toList → t.kind = .identifier

/-- Keyword kinds whose names resemble each other are the same. -/
theorem Kind.eq_of_resembles {k k' : Kind} (hk : k.isKeyword) (hk' : k'.isKeyword)
    -- Both kinds are those of keywords, so that keywords are compared.
    (h : Resembles k.name.toList k'.name.toList) : k = k' := by
  obtain ⟨w, rfl⟩ := exists_eq_keyword hk
  obtain ⟨w', rfl⟩ := exists_eq_keyword hk'
  apply congrArg keyword
  cases h with
  | beginning h => exact Keyword.eq_of_isPrefix h
  | extension h => exact (Keyword.eq_of_isPrefix h).symm
  | spelling h => exact Keyword.eq_of_map_toLower_eq h

/-- The kind of a word is looked up, and a word denotes nothing. -/
theorem Token.Scanned.kind_of_word {t : Token} (h : t.Scanned) (hw : Word t.lexeme.toList) :
    t.kind = ((Keyword.ofText? t.lexeme).map .keyword).getD .identifier ∧ t.literal = none := by
  cases h with
  | @piece p kind hp hkind line =>
    rw [String.toList_ofList] at hw
    -- The text of the piece is a word, and the piece of this word is looked up.
    have htext : Grammar.TokenText (Piece.word p.text).text kind p.literal :=
      Grammar.tokenText_text hp hkind
    obtain ⟨hlooked, hliteral⟩ := (Grammar.tokenText_text_iff (Grammar.word_iff.1 hw)).1 htext
    exact ⟨(Option.some.inj hlooked).symm, hliteral.symm⟩
  | eof line => exact absurd rfl hw.ne_nil

/-- The token of a word is recognised by its text. -/
theorem Token.Scanned.recognised {t : Token} (h : t.Scanned) (hw : Word t.lexeme.toList) :
    t.Recognised := by
  obtain ⟨hkind, hliteral⟩ := h.kind_of_word hw
  have hname : ∀ k : Kind, k.isKeyword → k.name = t.lexeme → t.kind = k := by
    intro k hk hk'
    rw [hkind, Keyword.map_ofText?_eq_some_iff.2 ⟨hk, hk'⟩, Option.getD_some]
  have hnone : (∀ k : Kind, k.isKeyword → k.name ≠ t.lexeme) → t.kind = .identifier := by
    intro hno
    rw [hkind, Keyword.map_ofText?_eq_none_iff.2 hno, Option.getD_none]
  constructor
  · constructor
    · intro hkeyword
      by_contra hno
      rw [hnone fun k hk hk' => hno ⟨k, hk, hk'⟩] at hkeyword
      cases hkeyword
    · intro hex
      obtain ⟨k, hk, hk'⟩ := hex
      rwa [hname k hk hk']
  · intro k hk hk'
    have hdisplay : t.displayLiteral = "nil" := by rw [displayLiteral, hliteral]
    refine ⟨hname k hk hk', ?_⟩
    rw [display, hdisplay, hname k hk hk', hk', String.append_assoc]
    rfl
  · exact hnone
  · intro k hk hne hresembles
    apply hnone
    intro k' hk' hname'
    rw [← hname'] at hne hresembles
    rw [Kind.eq_of_resembles hk' hk hresembles] at hne
    exact hne rfl

/-- The token of a word stands in the source where as many tokens come before it as in the scan. -/
theorem exists_cuts_of_word {source : String} {tokens : List Token}
    (h : scan source = .ok tokens) {i : Nat} {t : Token} (ht : tokens[i]? = some t)
    (hw : Word t.lexeme.toList) :
    ∃ before after, Cuts source.toList (before ++ t.lexeme.toList :: after) [] ∧
      (tokenItems before).length = i := by
  obtain ⟨hrest, rfl⟩ := Cut.scan_eq_ok_iff.1 h
  -- The token is one of the cut or the one behind them.
  rw [List.getElem?_append] at ht
  split at ht
  · obtain ⟨_, text, ⟨before, after, htexts, _, hindex, _⟩, hlexeme, _⟩ :=
      Cut.startsAt_of_getElem?_tokens ht
    have hcuts : Cuts source.toList (Cut.startingAt 0 source.toList).texts
        (Cut.ofChars source.toList).rest := Cut.cuts_startingAt 0 source.toList
    rw [hrest, htexts] at hcuts
    rw [hlexeme, String.toList_ofList]
    exact ⟨before, after, hcuts, hindex⟩
  · -- The token that ends the input has no text.
    obtain rfl := List.mem_singleton.1 (List.mem_of_getElem? ht)
    exact absurd rfl hw.ne_nil

/-- A text is looked up as a keyword kind exactly if the kind is named like it, and is not looked up
    if no keyword kind is. In every source that can be scanned, the token of a word has the keyword
    kind with the text for a name, and is an identifier if there is none. Each such word is one of
    the longest items of the source, and a whole run of it. -/
theorem scan_recognises_reserved_words :
    (∀ (w : String) (k : Kind),
      (Keyword.ofText? w).map .keyword = some k ↔ k.isKeyword ∧ k.name = w) ∧
    (∀ w : String, (Keyword.ofText? w).map Kind.keyword = none ↔
      ∀ k : Kind, k.isKeyword → k.name ≠ w) ∧
    ∀ {source : String} {tokens : List Token}, scan source = .ok tokens →
      ∀ i t, tokens[i]? = some t → Word t.lexeme.toList →
        t.Recognised ∧
        ∃ before after, Cuts source.toList (before ++ t.lexeme.toList :: after) [] ∧
          (tokenItems before).length = i ∧
          Grammar.WholeRun before.flatten t.lexeme.toList after.flatten := by
  refine ⟨fun w k => Keyword.map_ofText?_eq_some_iff, fun w => Keyword.map_ofText?_eq_none_iff, ?_⟩
  intro source tokens h i t ht hw
  have hscanned := scanned_of_mem_of_scan_eq_ok h t (List.mem_of_getElem? ht)
  obtain ⟨before, after, hcuts, hindex⟩ := exists_cuts_of_word h ht hw
  have hrun := hcuts.wholeRun hw
  rw [List.append_nil] at hrun
  exact ⟨hscanned.recognised hw, before, after, hcuts, hindex, hrun⟩

/-- A reserved word, another spelling of it, and one that it begins. -/
theorem scan_recognises_reserved_words_of_near_misses :
    scan "or oR orb" = .ok [⟨.keyword .orWord, "or", none, 0⟩, ⟨.identifier, "oR", none, 0⟩,
      ⟨.identifier, "orb", none, 0⟩, Token.eof 0] ∧
    Word "orb".toList ∧
    (⟨.identifier, "orb", none, 0⟩ : Token).Recognised ∧
    ∃ before after, Cuts "or oR orb".toList (before ++ "orb".toList :: after) [] ∧
      (tokenItems before).length = 2 ∧
      Grammar.WholeRun before.flatten "orb".toList after.flatten := by
  have hscan : scan "or oR orb" = .ok [⟨.keyword .orWord, "or", none, 0⟩,
      ⟨.identifier, "oR", none, 0⟩, ⟨.identifier, "orb", none, 0⟩, Token.eof 0] := by
    with_unfolding_all rfl
  have hletters : ∀ c ∈ ['r', 'b'], Letter c ∨ Digit c :=
    List.forall_mem_cons.2 ⟨.inl (Grammar.letter_iff.2 rfl),
      List.forall_mem_singleton.2 (.inl (Grammar.letter_iff.2 rfl))⟩
  have hword : Word "orb".toList := ⟨'o', ['r', 'b'], rfl, Grammar.letter_iff.2 rfl, hletters⟩
  obtain ⟨-, -, hwords⟩ := scan_recognises_reserved_words
  exact ⟨hscan, hword, hwords hscan 2 _ rfl hword⟩

end LoxLexer
