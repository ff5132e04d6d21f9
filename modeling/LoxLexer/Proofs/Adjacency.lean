import Mathlib.Data.List.Flatten
import LoxLexer.Proofs.Acceptance

/-!
# Tokens side by side

The texts of tokens can be written with nothing between them if no text runs on into the texts
behind it. A text runs on if together with what follows it is the beginning of a longer item: words
and numbers take letters and digits in, some operators take an equals sign in, two slashes begin a
comment, and a number without a fraction takes a point in if a number stands behind it. This is the
only case in which a text looks past the text behind it.

## Key results

- `Grammar.longestItem_flatten_iff`: a text is the longest item exactly if it does not run on
- `Grammar.cuts_flatten_iff`: texts side by side are cut into these texts exactly if none runs on
- `scan_flatten_iff_not_runsOn`: texts side by side scan to these texts exactly if none runs on
-/

namespace List

variable {α : Type _}

/-- A filter that takes no element away from the concatenation of nonempty lists keeps them all. -/
theorem filter_eq_self_of_flatten_eq {p : List α → Bool} {l : List (List α)}
    (hne : ∀ a ∈ l, a ≠ []) (h : (l.filter p).flatten = l.flatten) : l.filter p = l := by
  -- By induction on the list. The first element that is left out takes its characters with it.
  induction l with
  | nil => rfl
  | cons a l ih =>
    obtain ⟨ha, hl⟩ := forall_mem_cons.1 hne
    cases hp : p a with
    | true =>
      rw [filter_cons_of_pos hp] at h ⊢
      rw [ih hl (append_cancel_left h)]
    | false =>
      -- Without this element the concatenation would be shorter.
      have hle : (l.filter p).flatten.length ≤ l.flatten.length :=
        (filter_sublist.flatten).length_le
      have hlength := congrArg length h
      rw [filter_cons_of_neg (by simp [hp]), flatten_cons, length_append] at hlength
      have := length_pos_iff.2 ha
      omega

end List

namespace LoxLexer

namespace Grammar

/-! ## Texts that run on -/

/-- A number: digits, or digits on both sides of a point. -/
def Number (t : List Char) : Prop :=
  Digits t ∨ ∃ whole fraction, t = whole ++ '.' :: fraction ∧ Digits whole ∧ Digits fraction

/-- The first text of a list runs on into the texts behind it. -/
inductive RunsOn : List (List Char) → Prop where
  /-- A word before a word or a number. -/
  | word {u v : List Char} {texts : List (List Char)} (hu : Word u) (hv : Word v ∨ Number v) :
      RunsOn (u :: v :: texts)
  /-- A number before a number. -/
  | number {u v : List Char} {texts : List (List Char)} (hu : Number u) (hv : Number v) :
      RunsOn (u :: v :: texts)
  /-- An operator that an equals sign makes another operator, before an equals sign or two. -/
  | operator {u v : List Char} {texts : List (List Char)} (hu : u ∈ [['!'], ['='], ['<'], ['>']])
      (hv : v ∈ [['='], ['=', '=']]) : RunsOn (u :: v :: texts)
  /-- A slash before a slash. -/
  | slashes {texts : List (List Char)} : RunsOn (['/'] :: ['/'] :: texts)
  /-- A number without a fraction before a point and a number. -/
  | point {u v : List Char} {texts : List (List Char)} (hu : Digits u) (hv : Number v) :
      RunsOn (u :: ['.'] :: v :: texts)

/-! ## First characters -/

theorem exists_eq_cons_of_digits {t : List Char} (h : Digits t) :
    ∃ d ds, t = d :: ds ∧ Digit d := by
  obtain ⟨d, ds, rfl⟩ := List.exists_cons_of_ne_nil h.1
  exact ⟨d, ds, rfl, h.2 d List.mem_cons_self⟩

theorem Number.exists_eq_cons {t : List Char} (h : Number t) : ∃ d ds, t = d :: ds ∧ Digit d := by
  obtain h | ⟨whole, fraction, rfl, hwhole, _⟩ := h
  · exact exists_eq_cons_of_digits h
  · obtain ⟨d, ds, rfl, hd⟩ := exists_eq_cons_of_digits hwhole
    exact ⟨d, ds ++ '.' :: fraction, rfl, hd⟩

theorem number_text {n : Numeral} (hn : n.WellFormed) : Number n.text := by
  by_cases hfraction : n.fraction = []
  · rw [Numeral.text_of_fraction_eq_nil hfraction]
    exact .inl (digits_whole hn)
  · exact .inr ⟨_, _, Numeral.text_of_fraction_ne_nil hfraction, digits_whole hn,
      digits_fraction hn hfraction⟩

theorem Item.ne_nil {t : List Char} (h : Item t) : t ≠ [] := by
  obtain ⟨p, hp, rfl⟩ := item_iff_exists_piece.1 h
  exact Piece.text_ne_nil_of_first? (Piece.first?_text hp)

/-- The text of a token that begins with a digit is a number. -/
theorem number_of_digit {c : Char} {cs : List Char}
    (ht : ∃ kind literal, TokenText (c :: cs) kind literal) (hc : Digit c) : Number (c :: cs) := by
  obtain ⟨kind, literal, ht⟩ := ht
  obtain ⟨p, hp, htext, _⟩ := exists_piece_of_tokenText ht
  -- What is found in front of the whole text is the text itself, and a digit decides its class.
  have hfirst := Piece.first?_text hp
  rw [htext, Piece.first?_of_isDigit (digit_iff.1 hc)] at hfirst
  cases hfirst
  rw [← htext]
  exact number_text hp

/-- The text of a token that begins with a letter is a word. -/
theorem word_of_letter {c : Char} {cs : List Char}
    (ht : ∃ kind literal, TokenText (c :: cs) kind literal) (hc : Letter c) : Word (c :: cs) := by
  obtain ⟨kind, literal, ht⟩ := ht
  obtain ⟨p, hp, htext, _⟩ := exists_piece_of_tokenText ht
  have hfirst := Piece.first?_text hp
  rw [htext, Piece.first?_of_beginsWord (letter_iff.1 hc)] at hfirst
  cases hfirst
  rw [← htext]
  exact word_iff.2 hp

/-- The text of a token that begins with another character is a string or a symbol. -/
theorem exists_symbol_text_eq {c : Char} {cs : List Char}
    (ht : ∃ kind literal, TokenText (c :: cs) kind literal) (hdigit : c.isDigit = false)
    (hletter : Piece.beginsWord c = false) (hquote : c ≠ '"') :
    ∃ s : Symbol, s.text = c :: cs := by
  obtain ⟨kind, literal, ht⟩ := ht
  obtain ⟨p, hp, htext, hkind, _⟩ := exists_piece_of_tokenText ht
  -- Numbers and words begin with other characters than this one.
  cases p with
  | blank d => cases hkind
  | comment body => cases hkind
  | symbol s => exact ⟨s, htext⟩
  | string body => exact absurd (List.cons.inj htext).1.symm hquote
  | number n =>
    obtain ⟨d, ds, hn, hd⟩ := Numeral.exists_text_eq_cons hp
    rw [Piece.text, hn] at htext
    rw [(List.cons.inj htext).1, hdigit] at hd
    cases hd
  | word letters =>
    obtain ⟨d, ds, rfl, hd, _⟩ := hp
    rw [(List.cons.inj htext).1, hletter] at hd
    cases hd

theorem mem_of_equals {cs : List Char} (ht : ∃ kind literal, TokenText ('=' :: cs) kind literal) :
    '=' :: cs ∈ [['='], ['=', '=']] := by
  obtain ⟨s, hs⟩ := exists_symbol_text_eq ht (by decide) (by decide) (by decide)
  rw [← hs]
  cases s <;> cases hs <;> decide

theorem eq_nil_of_slash {cs : List Char} (ht : ∃ kind literal, TokenText ('/' :: cs) kind literal) :
    cs = [] := by
  obtain ⟨s, hs⟩ := exists_symbol_text_eq ht (by decide) (by decide) (by decide)
  cases s <;> cases hs
  rfl

theorem eq_nil_of_point {cs : List Char} (ht : ∃ kind literal, TokenText ('.' :: cs) kind literal) :
    cs = [] := by
  obtain ⟨s, hs⟩ := exists_symbol_text_eq ht (by decide) (by decide) (by decide)
  cases s <;> cases hs
  rfl

/-- The first character of a concatenation of texts is that of the first text. -/
theorem exists_cons_of_mem_head?_flatten {texts : List (List Char)}
    (htexts : ∀ t ∈ texts, ∃ kind literal, TokenText t kind literal) {c : Char}
    (hc : c ∈ texts.flatten.head?) :
    ∃ cs others, texts = (c :: cs) :: others ∧
      (∃ kind literal, TokenText (c :: cs) kind literal) ∧
      ∀ t ∈ others, ∃ kind literal, TokenText t kind literal := by
  cases texts with
  | nil => cases hc
  | cons t others =>
    obtain ⟨ht, hothers⟩ := List.forall_mem_cons.1 htexts
    obtain ⟨d, ds, rfl⟩ := List.exists_cons_of_ne_nil (Item.ne_nil (.inr ht))
    cases hc
    exact ⟨ds, others, rfl, ht, hothers⟩

/-! ## Texts that do not run on -/

/-- An operator that does not run on does not stand before an equals sign. -/
theorem head?_ne_of_not_runsOn {u : List Char} {texts : List (List Char)}
    (hu : u ∈ [['!'], ['='], ['<'], ['>']])
    (htexts : ∀ t ∈ texts, ∃ kind literal, TokenText t kind literal) (h : ¬ RunsOn (u :: texts)) :
    texts.flatten.head? ≠ some '=' := by
  intro hhead
  obtain ⟨cs, others, rfl, ht, _⟩ := exists_cons_of_mem_head?_flatten htexts hhead
  exact h (.operator hu (mem_of_equals ht))

/-- A piece whose text does not run on stops before the texts behind it. -/
theorem stops_of_not_runsOn {p : Piece} (hp : p.WellFormed) (hkind : p.kind? ≠ none)
    {texts : List (List Char)} (htexts : ∀ t ∈ texts, ∃ kind literal, TokenText t kind literal)
    (h : ¬ RunsOn (p.text :: texts)) : p.Stops texts.flatten := by
  cases p with
  | blank c => exact absurd rfl hkind
  | comment body => exact absurd rfl hkind
  | string body => trivial
  | symbol s =>
    cases s with
    -- Only these and the slash can be extended at all, so the other symbols stop everywhere.
    | bang | equal | greater | less => exact head?_ne_of_not_runsOn (by decide) htexts h
    | slash =>
      intro hhead
      obtain ⟨cs, others, rfl, ht, _⟩ := exists_cons_of_mem_head?_flatten htexts hhead
      obtain rfl := eq_nil_of_slash ht
      exact h .slashes
    | _ => trivial
  | number n =>
    have hn := number_text hp
    constructor
    -- A digit behind the number begins a number.
    · intro c hc
      obtain ⟨cs, others, rfl, ht, _⟩ := exists_cons_of_mem_head?_flatten htexts hc
      apply Bool.eq_false_iff.2
      intro hdigit
      exact h (.number hn (number_of_digit ht (digit_iff.2 hdigit)))
    · intro hfraction more hmore c hc
      -- The point is a text of its own, and the character behind it begins another.
      obtain ⟨cs, others, rfl, ht, hothers⟩ :=
        exists_cons_of_mem_head?_flatten htexts (by rw [hmore]; rfl)
      obtain rfl := eq_nil_of_point ht
      obtain rfl : others.flatten = more := (List.cons.inj hmore).2
      obtain ⟨ds, others, rfl, ht, _⟩ := exists_cons_of_mem_head?_flatten hothers hc
      apply Bool.eq_false_iff.2
      intro hdigit
      have hwhole : Digits n.text := by
        rw [Numeral.text_of_fraction_eq_nil hfraction]
        exact digits_whole hp
      exact h (.point hwhole (number_of_digit ht (digit_iff.2 hdigit)))
  | word letters =>
    -- What goes on the word begins a word or a number.
    intro c hc
    obtain ⟨cs, others, rfl, ht, _⟩ := exists_cons_of_mem_head?_flatten htexts hc
    apply Bool.eq_false_iff.2
    intro hcontinues
    obtain hletter | hdigit := letter_or_digit_iff.2 hcontinues
    · exact h (.word (word_iff.2 hp) (.inl (word_of_letter ht hletter)))
    · exact h (.word (word_iff.2 hp) (.inr (number_of_digit ht hdigit)))

/-! ## Texts that run on -/

theorem digits_singleton {d : Char} (hd : Digit d) : Digits [d] :=
  ⟨List.cons_ne_nil d [], List.forall_mem_singleton.2 hd⟩

theorem Digits.append {ds : List Char} (h : Digits ds) {d : Char} (hd : Digit d) :
    Digits (ds ++ [d]) :=
  ⟨List.append_ne_nil_of_left_ne_nil h.1 [d],
    List.forall_mem_append.2 ⟨h.2, List.forall_mem_singleton.2 hd⟩⟩

theorem Number.append {t : List Char} (h : Number t) {d : Char} (hd : Digit d) :
    Number (t ++ [d]) := by
  obtain h | ⟨whole, fraction, rfl, hwhole, hfraction⟩ := h
  · exact .inl (h.append hd)
  · exact .inr ⟨whole, fraction ++ [d], by simp, hwhole, hfraction.append hd⟩

theorem Word.append {w : List Char} (h : Word w) {c : Char} (hc : Letter c ∨ Digit c) :
    Word (w ++ [c]) := by
  obtain ⟨d, ds, rfl, hd, hds⟩ := h
  exact ⟨d, ds ++ [c], rfl, hd, List.forall_mem_append.2 ⟨hds, List.forall_mem_singleton.2 hc⟩⟩

theorem Number.item {t : List Char} (h : Number t) : Item t := by
  obtain h | ⟨whole, fraction, rfl, hwhole, hfraction⟩ := h
  · exact .inr ⟨_, _, .integer h⟩
  · exact .inr ⟨_, _, .decimal hwhole hfraction⟩

theorem Word.item {w : List Char} (h : Word w) : Item w :=
  item_iff_exists_piece.2 ⟨.word w, word_iff.1 h, rfl⟩

/-- A text that runs on takes in something of the texts behind it. -/
theorem exists_item_append_of_runsOn {u : List Char} {texts : List (List Char)}
    (h : RunsOn (u :: texts)) :
    ∃ more, more ≠ [] ∧ Item (u ++ more) ∧ more <+: texts.flatten := by
  cases h with
  | @word _ v others hu hv =>
    -- One character more is enough: a word goes on with any letter or digit.
    obtain ⟨c, cs, rfl, hc⟩ : ∃ c cs, v = c :: cs ∧ (Letter c ∨ Digit c) := by
      obtain ⟨c, cs, rfl, hc, _⟩ | hv := hv
      · exact ⟨c, cs, rfl, .inl hc⟩
      · obtain ⟨d, ds, rfl, hd⟩ := hv.exists_eq_cons
        exact ⟨d, ds, rfl, .inr hd⟩
    exact ⟨[c], List.cons_ne_nil c [], (hu.append hc).item, cs ++ others.flatten, rfl⟩
  | @number _ v others hu hv =>
    obtain ⟨d, ds, rfl, hd⟩ := hv.exists_eq_cons
    exact ⟨[d], List.cons_ne_nil d [], (hu.append hd).item, ds ++ others.flatten, rfl⟩
  | @operator _ v others hu hv =>
    -- Both texts begin with an equals sign, and each of the four operators goes on with it.
    have hequals : ['='] <+: (v :: others).flatten := by
      simp only [List.mem_cons, List.not_mem_nil, or_false] at hv
      obtain rfl | rfl := hv <;> exact ⟨_, rfl⟩
    have hitem : Item (u ++ ['=']) := by
      simp only [List.mem_cons, List.not_mem_nil, or_false] at hu
      obtain rfl | rfl | rfl | rfl := hu
      · exact .inr ⟨_, _, .symbol .bangEqual⟩
      · exact .inr ⟨_, _, .symbol .equalEqual⟩
      · exact .inr ⟨_, _, .symbol .lessEqual⟩
      · exact .inr ⟨_, _, .symbol .greaterEqual⟩
    exact ⟨['='], List.cons_ne_nil _ _, hitem, hequals⟩
  | @slashes others =>
    have hcomment : Trivia ['/', '/'] := by decide
    exact ⟨['/'], List.cons_ne_nil _ _, .inl hcomment, others.flatten, rfl⟩
  | @point _ v others hu hv =>
    -- The point alone is not enough, but with the digit behind it there is a fraction.
    obtain ⟨d, ds, rfl, hd⟩ := hv.exists_eq_cons
    have hnumber : Number (u ++ ['.', d]) := .inr ⟨u, [d], rfl, hu, digits_singleton hd⟩
    exact ⟨['.', d], List.cons_ne_nil _ _, hnumber.item, ds ++ others.flatten, rfl⟩

/-- The text of a token is the longest item before other texts exactly if it does not run on. -/
theorem longestItem_flatten_iff {u : List Char} {texts : List (List Char)}
    (hu : ∃ kind literal, TokenText u kind literal)
    (htexts : ∀ t ∈ texts, ∃ kind literal, TokenText t kind literal) :
    LongestItem u (u ++ texts.flatten) ↔ ¬ RunsOn (u :: texts) := by
  constructor
  · intro hlongest h
    -- A text that runs on has a longer item in front than itself.
    obtain ⟨more, hne, hitem, rest, hrest⟩ := exists_item_append_of_runsOn h
    have hprefix : u ++ more <+: u ++ texts.flatten := ⟨rest, by rw [List.append_assoc, hrest]⟩
    have hle := hlongest.length_le (u ++ more) hitem hprefix
    rw [List.length_append] at hle
    have := List.length_pos_iff.2 hne
    omega
  · intro h
    -- A text that does not run on is a piece that stops before the texts behind it.
    obtain ⟨kind, literal, hu⟩ := hu
    obtain ⟨p, hp, rfl, hkind, _⟩ := exists_piece_of_tokenText hu
    have hsome : p.kind? ≠ none := by
      rw [hkind]
      exact Option.some_ne_none kind
    have hstops := stops_of_not_runsOn hp hsome htexts h
    exact longestItem_iff.2 ⟨p, Piece.first?_text_append hp hstops, rfl⟩

/-! ## Texts side by side -/

theorem not_trivia_of_tokenText {t : List Char} (ht : ∃ kind literal, TokenText t kind literal) :
    ¬ Trivia t := by
  obtain ⟨kind, literal, ht⟩ := ht
  obtain ⟨p, hp, rfl, hkind, _⟩ := exists_piece_of_tokenText ht
  rw [trivia_text_iff hp, hkind]
  exact Option.some_ne_none kind

theorem Cuts.ne_nil_of_mem {cs rest : List Char} {items : List (List Char)}
    (h : Cuts cs items rest) : ∀ t ∈ items, t ≠ [] := by
  induction h with
  | nil rest => exact List.forall_mem_nil _
  | cons ht _ ih => exact List.forall_mem_cons.2 ⟨ht.item.ne_nil, ih⟩

theorem cuts_cons_iff {t cs rest : List Char} {items : List (List Char)} :
    Cuts (t ++ cs) (t :: items) rest ↔ LongestItem t (t ++ cs) ∧ Cuts cs items rest := by
  constructor
  · intro h
    generalize hsource : t ++ cs = source at h
    cases h with
    | @cons _ cs' _ _ ht h =>
      rw [List.append_cancel_left hsource]
      exact ⟨ht, h⟩
  · intro h
    exact .cons h.1 h.2

/-- Texts side by side are cut into these texts exactly if none of them runs on. -/
theorem cuts_flatten_iff {texts : List (List Char)}
    (htexts : ∀ t ∈ texts, ∃ kind literal, TokenText t kind literal) :
    Cuts texts.flatten texts [] ↔ ∀ tail, tail <:+ texts → ¬ RunsOn tail := by
  induction texts with
  | nil =>
    apply iff_of_true (.nil [])
    intro tail htail h
    rw [List.suffix_nil.1 htail] at h
    cases h
  | cons u texts ih =>
    obtain ⟨hu, htexts⟩ := List.forall_mem_cons.1 htexts
    -- What is asked of the first text is asked of the whole list, the rest of its tails.
    rw [List.flatten_cons, cuts_cons_iff, longestItem_flatten_iff hu htexts, ih htexts]
    simp only [List.suffix_cons_iff, forall_eq_or_imp]

end Grammar

open Grammar (Cuts RunsOn Spells TokenText Trivia tokenItems)

theorem map_lexeme_of_forall₂_spells {items : List (List Char)} {tokens : List Token}
    (h : List.Forall₂ Spells items tokens) :
    tokens.map Token.lexeme = items.map String.ofList := by
  induction h with
  | nil => rfl
  | cons hspells _ ih => rw [List.map_cons, List.map_cons, hspells.1, ih]

/-- Texts side by side scan to these texts exactly if they are cut into them. -/
theorem scan_flatten_iff_cuts {texts : List (List Char)}
    (htexts : ∀ t ∈ texts, ∃ kind literal, TokenText t kind literal) :
    (∃ tokens line, scan (String.ofList texts.flatten) = .ok (tokens ++ [Token.eof line]) ∧
      tokens.map Token.lexeme = texts.map String.ofList) ↔ Cuts texts.flatten texts [] := by
  have hsource : (String.ofList texts.flatten).toList = texts.flatten := String.toList_ofList
  constructor
  · intro h
    obtain ⟨tokens, line, hscan, hlexemes⟩ := h
    -- The source is cut in some way, and the tokens are those of the items that are not trivia.
    obtain ⟨items, hcuts⟩ := exists_cuts_of_scan_eq_ok hscan
    obtain ⟨tokens', hscan', hspells⟩ := scan_eq_ok_of_cuts hcuts
    obtain rfl : tokens = tokens' :=
      (List.append_inj' (Except.ok.inj (hscan.symm.trans hscan')) rfl).1
    have hitems : tokenItems items = texts := by
      rw [map_lexeme_of_forall₂_spells hspells] at hlexemes
      exact List.map_injective_iff.2 (fun _ _ => String.ofList_inj.1) hlexemes
    -- The texts already have all characters, so no item between them is trivia.
    have hflatten : (tokenItems items).flatten = items.flatten := by
      have hall := hcuts.flatten_append
      rw [List.append_nil] at hall
      rw [hitems, hall, hsource]
    have hself : tokenItems items = items :=
      List.filter_eq_self_of_flatten_eq hcuts.ne_nil_of_mem hflatten
    rw [hsource, ← hself, hitems] at hcuts
    exact hcuts
  · intro hcuts
    rw [← hsource] at hcuts
    obtain ⟨tokens, hscan, hspells⟩ := scan_eq_ok_of_cuts hcuts
    -- Each text is that of a token, so none of them is passed over.
    have hitems : tokenItems texts = texts :=
      List.filter_eq_self.2 fun t ht =>
        decide_eq_true (Grammar.not_trivia_of_tokenText (htexts t ht))
    rw [hitems] at hspells
    exact ⟨tokens, _, hscan, map_lexeme_of_forall₂_spells hspells⟩

/-- Texts of tokens with nothing between them scan to tokens with exactly these texts if and only
    if nowhere in the list a text runs on into the texts behind it. -/
theorem scan_flatten_iff_not_runsOn {texts : List (List Char)}
    (htexts : ∀ t ∈ texts, ∃ kind literal, TokenText t kind literal) :
    (∃ tokens line, scan (String.ofList texts.flatten) = .ok (tokens ++ [Token.eof line]) ∧
      tokens.map Token.lexeme = texts.map String.ofList) ↔
    ∀ tail, tail <:+ texts → ¬ RunsOn tail := by
  rw [scan_flatten_iff_cuts htexts, Grammar.cuts_flatten_iff htexts]

/-- A number with a fraction can stand before a point and a number, and one without cannot: behind
    the plus, `1`, the point and `2` are one number. -/
theorem scan_flatten_iff_not_runsOn_of_points :
    (∀ t ∈ [['1', '.', '5'], ['.'], ['2'], ['a']], ∃ kind literal, TokenText t kind literal) ∧
    (∀ tail, tail <:+ [['1', '.', '5'], ['.'], ['2'], ['a']] → ¬ RunsOn tail) ∧
    (∀ t ∈ [['+'], ['1'], ['.'], ['2']], ∃ kind literal, TokenText t kind literal) ∧
    ¬ ∃ tokens line, scan (String.ofList ['+', '1', '.', '2']) = .ok (tokens ++ [Token.eof line]) ∧
      tokens.map Token.lexeme = [['+'], ['1'], ['.'], ['2']].map String.ofList := by
  have hone : Grammar.Digits ['1'] := Grammar.digits_singleton ⟨by decide, by decide⟩
  have htwo : Grammar.Digits ['2'] := Grammar.digits_singleton ⟨by decide, by decide⟩
  have hfive : Grammar.Digits ['5'] := Grammar.digits_singleton ⟨by decide, by decide⟩
  have hword : ∃ kind literal, TokenText ['a'] kind literal := by
    have hk : ∀ k : Keyword, k.text.toList ≠ ['a'] := by
      intro k
      cases k <;> decide
    exact ⟨_, _, .identifier ⟨'a', [], rfl, .inr (.inl ⟨by decide, by decide⟩),
      List.forall_mem_nil _⟩ hk⟩
  have hpoint : ∃ kind literal, TokenText ['.'] kind literal := ⟨_, _, .symbol .dot⟩
  have hplus : ∃ kind literal, TokenText ['+'] kind literal := ⟨_, _, .symbol .plus⟩
  have hapart : ∀ t ∈ [['1', '.', '5'], ['.'], ['2'], ['a']],
      ∃ kind literal, TokenText t kind literal :=
    List.forall_mem_cons.2 ⟨⟨_, _, .decimal hone hfive⟩, List.forall_mem_cons.2 ⟨hpoint,
      List.forall_mem_cons.2 ⟨⟨_, _, .integer htwo⟩, List.forall_mem_singleton.2 hword⟩⟩⟩
  have htogether : ∀ t ∈ [['+'], ['1'], ['.'], ['2']], ∃ kind literal, TokenText t kind literal :=
    List.forall_mem_cons.2 ⟨hplus, List.forall_mem_cons.2 ⟨⟨_, _, .integer hone⟩,
      List.forall_mem_cons.2 ⟨hpoint, List.forall_mem_singleton.2 ⟨_, _, .integer htwo⟩⟩⟩⟩
  have hscan : ∃ tokens line, scan (String.ofList ['1', '.', '5', '.', '2', 'a']) =
      .ok (tokens ++ [Token.eof line]) ∧ tokens.map Token.lexeme =
        [['1', '.', '5'], ['.'], ['2'], ['a']].map String.ofList :=
    ⟨[⟨.number, "1.5", some (.number (Numeral.value ⟨['1'], ['5']⟩)), 0⟩,
      ⟨.symbol .dot, ".", none, 0⟩, ⟨.number, "2", some (.number (Numeral.value ⟨['2'], []⟩)), 0⟩,
      ⟨.identifier, "a", none, 0⟩], 0, by with_unfolding_all rfl, rfl⟩
  have htail : [['1'], ['.'], ['2']] <:+ [['+'], ['1'], ['.'], ['2']] := ⟨[['+']], rfl⟩
  exact ⟨hapart, (scan_flatten_iff_not_runsOn hapart).1 hscan, htogether,
    fun h => (scan_flatten_iff_not_runsOn htogether).1 h _ htail (.point hone (.inl htwo))⟩

end LoxLexer
