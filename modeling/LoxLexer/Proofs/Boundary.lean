import LoxLexer.Piece
import LoxLexer.Proofs.Runs

/-!
# Where a piece ends

A piece is well formed if its characters are those of its class, and it stops before a text if that
text cannot extend it. `Piece.first?` finds exactly the well-formed piece that stands at the front
and stops before what follows. Nothing but the first two characters of what follows matter, so a
piece that stops at the end of a text also stops before a blank there, unless it is a comment.

## Key results

- `Numeral.span_text_append`, `Numeral.exists_eq_span_text_append`: the same for numerals
- `Piece.Stops.append_blank`: a blank behind what a piece stops before changes nothing
- `Piece.first?_eq_some_iff`: when a piece is found
- `Piece.exists_first?_of_wellFormed`: the piece that is found is no shorter than any well-formed
  piece at the front
-/

namespace LoxLexer

/-! ## Classes of characters -/

theorem isWhitespace_iff {c : Char} :
    c.isWhitespace ↔ c = ' ' ∨ c = '\t' ∨ c = '\r' ∨ c = '\n' := by
  show (c = ' ' || c = '\t' || c = '\r' || c = '\n') = true ↔ _
  simp only [Bool.or_eq_true, decide_eq_true_iff, or_assoc]

theorem beginsWord_iff {c : Char} :
    Piece.beginsWord c ↔ ('A' ≤ c ∧ c ≤ 'Z') ∨ ('a' ≤ c ∧ c ≤ 'z') ∨ c = '_' := by
  have hupper : c.isUpper ↔ 'A' ≤ c ∧ c ≤ 'Z' := decide_eq_true_iff
  have hlower : c.isLower ↔ 'a' ≤ c ∧ c ≤ 'z' := by
    show (decide ('a' ≤ c) && decide (c ≤ 'z')) = true ↔ _
    rw [Bool.and_eq_true, decide_eq_true_iff, decide_eq_true_iff]
  show (c.isUpper || c.isLower || c == '_') = true ↔ _
  rw [Bool.or_eq_true, Bool.or_eq_true, hupper, hlower, beq_iff_eq, or_assoc]

theorem isWhitespace_eq_false_of_isDigit {c : Char} (h : c.isDigit) : c.isWhitespace = false := by
  apply Bool.eq_false_iff.2
  intro hblank
  -- There are four blanks, and none of them is a digit.
  obtain rfl | rfl | rfl | rfl := isWhitespace_iff.1 hblank <;> cases h

theorem isWhitespace_eq_false_of_beginsWord {c : Char} (h : Piece.beginsWord c) :
    c.isWhitespace = false := by
  apply Bool.eq_false_iff.2
  intro hblank
  obtain rfl | rfl | rfl | rfl := isWhitespace_iff.1 hblank <;> cases h

theorem isDigit_eq_false_of_isWhitespace {c : Char} (h : c.isWhitespace) : c.isDigit = false := by
  obtain rfl | rfl | rfl | rfl := isWhitespace_iff.1 h <;> decide

theorem continuesWord_eq_false_of_isWhitespace {c : Char} (h : c.isWhitespace) :
    Piece.continuesWord c = false := by
  obtain rfl | rfl | rfl | rfl := isWhitespace_iff.1 h <;> decide

theorem isDigit_eq_false_of_beginsWord {c : Char} (h : Piece.beginsWord c) : c.isDigit = false := by
  apply Bool.eq_false_iff.2
  intro hdigit
  have hle : c.toNat ≤ 57 := (Char.isDigit_iff_toNat.1 hdigit).2
  -- All digits come before all letters.
  obtain ⟨hupper, _⟩ | ⟨hlower, _⟩ | rfl := beginsWord_iff.1 h
  · have hge : 65 ≤ c.toNat := UInt32.le_iff_toNat_le.1 hupper
    omega
  · have hge : 97 ≤ c.toNat := UInt32.le_iff_toNat_le.1 hlower
    omega
  · cases hdigit

/-! ## Numerals -/

namespace Numeral

/-- A numeral begins with a digit and has only digits on both sides of its point. -/
structure WellFormed (n : Numeral) : Prop where
  whole_ne_nil : n.whole ≠ []
  isDigit_whole : ∀ c ∈ n.whole, c.isDigit
  isDigit_fraction : ∀ c ∈ n.fraction, c.isDigit

/-- What follows cannot extend the numeral: no digit does, nor, if the numeral has no point yet, a
    point before a digit. -/
structure Stops (n : Numeral) (rest : List Char) : Prop where
  head : ∀ c ∈ rest.head?, c.isDigit = false
  point : n.fraction = [] → ∀ more, rest = '.' :: more → ∀ c ∈ more.head?, c.isDigit = false

/-- A numeral that stops before a text stops before it with a blank behind it. -/
theorem Stops.append_blank {n : Numeral} {c : Char} {rest : List Char} (h : n.Stops rest)
    (hc : c.isWhitespace) (more : List Char) : n.Stops (rest ++ c :: more) := by
  have hdigit := isDigit_eq_false_of_isWhitespace hc
  constructor
  · exact List.forall_mem_head?_append_cons hdigit h.head
  · intro hfraction behind hpoint
    cases rest with
    | nil =>
      -- A blank is no point.
      cases hpoint
      cases hc
    | cons d rest =>
      cases hpoint
      exact List.forall_mem_head?_append_cons hdigit (h.point hfraction rest rfl)

/-- The digits before the point of a numeral end where they end in a text it stops before: the point
    is no digit. -/
theorem Stops.isDigit_eq_false_of_mem_head?_tail {n : Numeral} {rest : List Char}
    (h : n.Stops rest) : ∀ c ∈ (n.tail ++ rest).head?, c.isDigit = false := by
  -- With a fraction, the point follows the digits, and otherwise what follows the numeral.
  obtain ⟨whole, fraction⟩ := n
  cases fraction with
  | nil => exact h.head
  | cons d ds =>
    intro c hc
    obtain rfl : '.' = c := by simpa [tail] using hc
    rfl

/-- A numeral that stops before a text is the longest at the front. -/
theorem span_text_append {n : Numeral} {rest : List Char} (hn : n.WellFormed) (h : n.Stops rest) :
    span (n.text ++ rest) = n := by
  -- The first run of digits ends at the point or at what follows, as the numeral does.
  have htail := h.isDigit_eq_false_of_mem_head?_tail
  obtain ⟨whole, fraction⟩ := n
  obtain ⟨_, hwhole, hfraction⟩ := hn
  obtain ⟨hhead, hpoint⟩ := h
  dsimp only at hwhole hfraction hpoint
  simp only [span, text, List.append_assoc, List.takeWhile_append_eq_left hwhole htail,
    List.dropWhile_append_eq_right hwhole htail, mk.injEq, true_and]
  cases fraction with
  | nil =>
    simp only [tail, List.nil_append]
    split
    · rename_i more
      -- A point may follow, but no digit behind it, so the second run of digits is empty.
      have hmore := hpoint rfl more rfl
      rw [← List.nil_append more, List.takeWhile_append_of_head? hmore, List.takeWhile_nil]
    · rfl
  | cons d ds =>
    show (d :: ds ++ rest).takeWhile Char.isDigit = d :: ds
    exact List.takeWhile_append_eq_left hfraction hhead

/-- The longest numeral at the front of a text has no digits but its own. -/
theorem wellFormed_span {c : Char} {cs : List Char} (hc : c.isDigit) :
    (span (c :: cs)).WellFormed where
  whole_ne_nil := by simp [span, hc]
  isDigit_whole := fun _ => List.mem_takeWhile_imp
  isDigit_fraction := by
    simp only [span]
    split
    · exact fun _ => List.mem_takeWhile_imp
    · intro d hd
      cases hd

theorem text_of_fraction_eq_nil {n : Numeral} (h : n.fraction = []) : n.text = n.whole := by
  rw [text, tail, h, List.append_nil]

theorem text_of_fraction_ne_nil {n : Numeral} (h : n.fraction ≠ []) :
    n.text = n.whole ++ '.' :: n.fraction := by
  rw [text, tail]
  split
  · contradiction
  · rename_i hfraction
    rw [hfraction]

theorem exists_text_eq_cons {n : Numeral} (hn : n.WellFormed) :
    ∃ d ds, n.text = d :: ds ∧ d.isDigit := by
  obtain ⟨d, ds, hwhole⟩ := List.exists_cons_of_ne_nil hn.whole_ne_nil
  have hd : d.isDigit := hn.isDigit_whole d (hwhole ▸ List.mem_cons_self)
  exact ⟨d, ds ++ n.tail, by rw [text, hwhole, List.cons_append], hd⟩

/-- Only digits and a point are in the text of a numeral. -/
theorem isDigit_or_eq_point_of_mem_text {n : Numeral} (hn : n.WellFormed) {c : Char}
    (h : c ∈ n.text) : c.isDigit ∨ c = '.' := by
  by_cases hfraction : n.fraction = []
  · rw [text_of_fraction_eq_nil hfraction] at h
    exact .inl (hn.isDigit_whole c h)
  · rw [text_of_fraction_ne_nil hfraction] at h
    obtain hwhole | hbehind := List.mem_append.1 h
    · exact .inl (hn.isDigit_whole c hwhole)
    · obtain hpoint | hdigit := List.mem_cons.1 hbehind
      · exact .inr hpoint
      · exact .inl (hn.isDigit_fraction c hdigit)

/-- The longest numeral at the front of a text stops before what follows. -/
theorem exists_eq_span_text_append (cs : List Char) :
    ∃ rest, cs = (span cs).text ++ rest ∧ (span cs).Stops rest := by
  have hcut := List.takeWhile_append_dropWhile (p := Char.isDigit) (l := cs)
  -- Either no point is taken, and the digits end the numeral, or one is, with digits behind it.
  by_cases hfraction : (span cs).fraction = []
  · have hpoint : (span cs).fraction = [] → ∀ more, cs.dropWhile Char.isDigit = '.' :: more →
        ∀ c ∈ more.head?, c.isDigit = false := by
      intro hfraction more hmore c hc
      -- A point is left over only if no digit follows it.
      simp only [span, hmore] at hfraction
      cases more with
      | nil => cases hc
      | cons d more =>
        cases hc
        exact Bool.eq_false_iff.2 fun hd => by simp [hd] at hfraction
    have hcs : cs = (span cs).text ++ cs.dropWhile Char.isDigit := by
      rw [text_of_fraction_eq_nil hfraction]
      exact hcut.symm
    exact ⟨cs.dropWhile Char.isDigit, hcs, fun _ => List.eq_false_of_mem_head?_dropWhile, hpoint⟩
  -- A fraction is only read behind a point.
  · obtain ⟨more, hmore⟩ : ∃ more, cs.dropWhile Char.isDigit = '.' :: more := by
      simp only [span] at hfraction
      split at hfraction
      · exact ⟨_, ‹_›⟩
      · exact absurd rfl hfraction
    have hdigits : (span cs).fraction = more.takeWhile Char.isDigit := by simp only [span, hmore]
    have hcs : cs = (span cs).text ++ more.dropWhile Char.isDigit := by
      rw [text_of_fraction_ne_nil hfraction, hdigits, List.append_assoc, List.cons_append,
        List.takeWhile_append_dropWhile, ← hmore]
      exact hcut.symm
    exact ⟨more.dropWhile Char.isDigit, hcs, fun _ => List.eq_false_of_mem_head?_dropWhile,
      fun h => absurd h hfraction⟩

/-- The longest numeral at the front of a text is no shorter than any other. -/
theorem length_text_le_length_span {n : Numeral} (hn : n.WellFormed) (rest : List Char) :
    n.text.length ≤ (span (n.text ++ rest)).text.length := by
  by_cases hfraction : n.fraction = []
  -- Behind the digits before the point, what is found can only be longer.
  · rw [text_of_fraction_eq_nil hfraction]
    have hwhole : n.whole.length ≤ (span (n.whole ++ rest)).whole.length :=
      List.length_le_length_takeWhile_append hn.isDigit_whole
    rw [text, List.length_append]
    omega
  · have hpoint : ∀ c ∈ ('.' :: n.fraction ++ rest).head?, c.isDigit = false := by
      intro c hc
      cases hc
      rfl
    -- The first run of digits ends at the point, so both numerals have the same digits before it.
    have hspan :
        span (n.text ++ rest) = ⟨n.whole, (n.fraction ++ rest).takeWhile Char.isDigit⟩ := by
      rw [text_of_fraction_ne_nil hfraction, List.append_assoc, span,
        List.takeWhile_append_eq_left hn.isDigit_whole hpoint,
        List.dropWhile_append_eq_right hn.isDigit_whole hpoint]
      rfl
    have hlength := List.length_le_length_takeWhile_append (r := rest) hn.isDigit_fraction
    have hpos := List.length_pos_iff.2 hfraction
    rw [hspan, text_of_fraction_ne_nil hfraction, text_of_fraction_ne_nil
      (List.length_pos_iff.1 (Nat.lt_of_lt_of_le hpos hlength))]
    simp only [List.length_append, List.length_cons]
    omega

end Numeral

/-! ## Symbols -/

namespace Symbol

/-- What follows cannot extend the symbol: neither to the symbol with an equals sign behind it nor
    to a comment. -/
def Stops : Symbol → List Char → Prop
  | bang, rest | equal, rest | greater, rest | less, rest => rest.head? ≠ some '='
  | slash, rest => rest.head? ≠ some '/'
  | _, _ => True

/-- A symbol that stops before a text stops before it with a blank behind it. -/
theorem Stops.append_blank {s : Symbol} {c : Char} {rest : List Char} (h : s.Stops rest)
    (hc : c.isWhitespace) (more : List Char) : s.Stops (rest ++ c :: more) := by
  cases rest with
  | nil =>
    -- A blank extends no symbol.
    have hequal : c ≠ '=' := by
      rintro rfl
      cases hc
    have hslash : c ≠ '/' := by
      rintro rfl
      cases hc
    cases s <;> simp [Stops, hequal, hslash]
  | cons d rest => cases s <;> exact h

/-- A symbol that stops before a text is the longest at the front. -/
theorem first?_text_append_of_stops {s : Symbol} {rest : List Char} (h : s.Stops rest) :
    first? (s.text ++ rest) = some s := by
  cases rest with
  | nil => cases s <;> rfl
  | cons c rest => cases s <;> simp_all [Stops, first?, text]

/-- The longest symbol at the front of a text stops before what follows, but for a slash, which may
    begin a comment. -/
theorem exists_eq_text_append_of_first? {s : Symbol} {cs : List Char} (h : first? cs = some s)
    (hslash : ¬ (cs.head? = some '/' ∧ cs.tail.head? = some '/')) :
    ∃ rest, cs = s.text ++ rest ∧ s.Stops rest := by
  obtain ⟨rest, rfl⟩ := first?_text_append h
  -- The symbol is there; what is left to show is that nothing extends it.
  suffices hstops : s.Stops rest from ⟨rest, rfl, hstops⟩
  cases s with
  | bang | equal | greater | less =>
    intro hhead
    obtain ⟨more, rfl⟩ := List.head?_eq_some_iff.1 hhead
    -- With an equals sign next, the longer symbol would have been found.
    cases h
  | slash => exact fun hhead => hslash ⟨rfl, hhead⟩
  | _ => trivial

/-- A character that is a symbol, and one with an equals sign behind it, begins a symbol. -/
theorem exists_first?_of_pair (short long : Symbol) {c : Char} (hshort : short.text = [c])
    (hlong : long.text = [c, '=']) (hstops : ∀ rest, rest.head? ≠ some '=' → short.Stops rest)
    (hcomplete : ∀ rest, long.Stops rest) (cs : List Char) : ∃ t, first? (c :: cs) = some t := by
  by_cases hequal : cs.head? = some '='
  · obtain ⟨more, rfl⟩ := List.head?_eq_some_iff.1 hequal
    have hfirst := first?_text_append_of_stops (hcomplete more)
    rw [hlong] at hfirst
    exact ⟨long, hfirst⟩
  · have hfirst := first?_text_append_of_stops (hstops cs hequal)
    rw [hshort] at hfirst
    exact ⟨short, hfirst⟩

/-- A text that begins with the first character of a symbol begins with a symbol. -/
theorem exists_first?_cons {s : Symbol} {c : Char} (h : s.text.head? = some c)
    (cs : List Char) : ∃ t, first? (c :: cs) = some t := by
  cases s with
  -- The four pairs of a symbol and a longer one.
  | bang | bangEqual =>
    cases h
    exact exists_first?_of_pair bang bangEqual rfl rfl (fun _ h => h) (fun _ => trivial) cs
  | equal | equalEqual =>
    cases h
    exact exists_first?_of_pair equal equalEqual rfl rfl (fun _ h => h) (fun _ => trivial) cs
  | greater | greaterEqual =>
    cases h
    exact exists_first?_of_pair greater greaterEqual rfl rfl (fun _ h => h) (fun _ => trivial) cs
  | less | lessEqual =>
    cases h
    exact exists_first?_of_pair less lessEqual rfl rfl (fun _ h => h) (fun _ => trivial) cs
  | _ =>
    cases h
    exact ⟨_, rfl⟩

/-- Whether any symbol is found is up to the first character alone. -/
theorem first?_cons_eq_none {c : Char} {cs : List Char} (h : first? (c :: cs) = none)
    (more : List Char) : first? (c :: more) = none := by
  apply Option.eq_none_iff_forall_ne_some.2
  -- A symbol that is found elsewhere begins with the same character, and would be found here.
  intro s hs
  obtain ⟨rest, hrest⟩ := first?_text_append hs
  obtain ⟨d, ds, htext⟩ := List.exists_cons_of_ne_nil s.text_ne_nil
  have hhead : s.text.head? = some c := by
    rw [htext, List.cons_append] at hrest
    rw [htext, (List.cons.inj hrest).1]
    rfl
  obtain ⟨t, ht⟩ := exists_first?_cons hhead cs
  rw [h] at ht
  cases ht

end Symbol

/-! ## Pieces -/

namespace Piece

/-- The characters of the piece are those of its class. -/
def WellFormed : Piece → Prop
  | blank c => c.isWhitespace
  | comment body => '\n' ∉ body
  | symbol _ => True
  | string body => '"' ∉ body
  | number n => n.WellFormed
  | word letters => ∃ c cs, letters = c :: cs ∧ beginsWord c ∧ ∀ d ∈ cs, continuesWord d

/-- What follows cannot extend the piece. Blanks and strings are complete as they are. -/
def Stops : Piece → List Char → Prop
  | blank _, _ => True
  | comment _, rest => ∀ c ∈ rest.head?, c = '\n'
  | symbol s, rest => s.Stops rest
  | string _, _ => True
  | number n, rest => n.Stops rest
  | word _, rest => ∀ c ∈ rest.head?, continuesWord c = false

/-- A piece that stops before a text stops before it with a blank behind it. A comment runs on to
    the end of a text, so only a line feed leaves it as it is there. -/
theorem Stops.append_blank {p : Piece} {c : Char} {rest : List Char} (h : p.Stops rest)
    (hc : c.isWhitespace) (hcomment : ∀ body, p = comment body → rest = [] → c = '\n')
    (more : List Char) : p.Stops (rest ++ c :: more) := by
  cases p with
  | comment body =>
    -- Behind a comment that ends the text, only the blank itself can end it.
    cases rest with
    | nil => simpa [Stops] using hcomment body rfl rfl
    | cons d rest => exact h
  | symbol s => exact Symbol.Stops.append_blank h hc more
  | number n => exact Numeral.Stops.append_blank h hc more
  | word letters =>
    exact List.forall_mem_head?_append_cons (continuesWord_eq_false_of_isWhitespace hc) h
  | _ => trivial

/-- Of the pieces that become tokens, only strings have line feeds in their texts. -/
theorem lineFeed_not_mem_text {p : Piece} {kind : Kind} (hp : p.WellFormed)
    (hkind : p.kind? = some kind) (hstring : kind ≠ .string) : '\n' ∉ p.text := by
  intro hmem
  cases p with
  -- Blanks and comments become no tokens, and strings are left out.
  | blank c | comment body => cases hkind
  | string body => exact hstring (Option.some.inj hkind).symm
  | symbol s => cases s <;> simp [text, Symbol.text] at hmem
  | number n =>
    obtain hdigit | hpoint := Numeral.isDigit_or_eq_point_of_mem_text hp hmem
    · cases hdigit
    · cases hpoint
  | word letters =>
    obtain ⟨c, cs, rfl, hc, hcs⟩ := hp
    obtain rfl | hmem := List.mem_cons.1 hmem
    · cases hc
    · cases hcs _ hmem

/-! ### The first character decides the class -/

theorem first?_of_isWhitespace {c : Char} {cs : List Char} (h : c.isWhitespace) :
    first? (c :: cs) = some (blank c) := by
  rw [first?, if_pos h]

theorem first?_of_isDigit {c : Char} {cs : List Char} (h : c.isDigit) :
    first? (c :: cs) = some (number (Numeral.span (c :: cs))) := by
  rw [first?, if_neg (by simp [isWhitespace_eq_false_of_isDigit h]), if_pos h]

theorem first?_of_beginsWord {c : Char} {cs : List Char} (h : beginsWord c) :
    first? (c :: cs) = some (word (c :: cs.takeWhile continuesWord)) := by
  rw [first?, if_neg (by simp [isWhitespace_eq_false_of_beginsWord h]),
    if_neg (by simp [isDigit_eq_false_of_beginsWord h]), if_pos h]

theorem first?_number_text_append {n : Numeral} (hn : n.WellFormed) (rest : List Char) :
    first? (n.text ++ rest) = some (number (Numeral.span (n.text ++ rest))) := by
  obtain ⟨d, ds, htext, hd⟩ := Numeral.exists_text_eq_cons hn
  rw [htext, List.cons_append, first?_of_isDigit hd]

theorem first?_quote {cs : List Char} :
    first? ('"' :: cs) = if '"' ∈ cs then some (string (cs.takeWhile (· ≠ '"'))) else none := rfl

theorem first?_slashes {cs : List Char} :
    first? ('/' :: '/' :: cs) = some (comment (cs.takeWhile (· ≠ '\n'))) := rfl

theorem first?_symbol_text_append {s : Symbol} {rest : List Char} (h : s.Stops rest) :
    first? (s.text ++ rest) = some (symbol s) := by
  have hfirst := Symbol.first?_text_append_of_stops h
  cases s with
  | slash =>
    -- Two slashes would begin a comment, which is looked for before symbols.
    have hslash : ¬ ('/' = '/' ∧ rest.head? = some '/') := fun hs => h hs.2
    show (if '/' = '/' ∧ rest.head? = some '/' then _ else _) = _
    rw [if_neg hslash]
    exact congrArg (Option.map symbol) hfirst
  | _ => exact congrArg (Option.map symbol) hfirst

/-! ### What is found -/

/-- A well-formed piece that stops before a text is found at the front. -/
theorem first?_text_append {p : Piece} {rest : List Char} (hp : p.WellFormed) (h : p.Stops rest) :
    first? (p.text ++ rest) = some p := by
  cases p with
  | blank c => exact first?_of_isWhitespace hp
  | comment body =>
    have hrest : ∀ c ∈ rest.head?, decide (c ≠ '\n') = false :=
      fun c hc => decide_eq_false (not_not.2 (h c hc))
    -- A comment is read up to the line feed that it stops before.
    show first? ('/' :: '/' :: (body ++ rest)) = _
    rw [first?_slashes, List.takeWhile_append_eq_left (List.forall_mem_ne_of_not_mem hp) hrest]
  | symbol s => exact first?_symbol_text_append h
  | string body =>
    show first? ('"' :: (body ++ ['"'] ++ rest)) = _
    -- The closing quote is the first, because none is in the body.
    rw [first?_quote, if_pos (by simp), List.append_assoc,
      List.takeWhile_append_eq_left (List.forall_mem_ne_of_not_mem hp) (by simp)]
  | number n =>
    show first? (n.text ++ rest) = _
    rw [first?_number_text_append hp, Numeral.span_text_append hp h]
  | word letters =>
    obtain ⟨c, cs, rfl, hc, hcs⟩ := hp
    show first? (c :: (cs ++ rest)) = _
    rw [first?_of_beginsWord hc, List.takeWhile_append_eq_left hcs h]

/-- A word goes on as long as it can. -/
theorem wellFormed_and_stops_word {c : Char} (hc : beginsWord c) (cs : List Char) :
    (word (c :: cs.takeWhile continuesWord)).WellFormed ∧
      ∃ rest, c :: cs = (word (c :: cs.takeWhile continuesWord)).text ++ rest ∧
        (word (c :: cs.takeWhile continuesWord)).Stops rest := by
  have hcs : c :: cs =
      (word (c :: cs.takeWhile continuesWord)).text ++ cs.dropWhile continuesWord := by
    rw [text, List.cons_append, List.takeWhile_append_dropWhile]
  exact ⟨⟨c, _, rfl, hc, fun _ => List.mem_takeWhile_imp⟩, _, hcs,
    fun _ => List.eq_false_of_mem_head?_dropWhile⟩

/-- A comment goes on to the next line feed. -/
theorem wellFormed_and_stops_comment (cs : List Char) :
    (comment (cs.takeWhile (· ≠ '\n'))).WellFormed ∧
      ∃ rest, '/' :: '/' :: cs = (comment (cs.takeWhile (· ≠ '\n'))).text ++ rest ∧
        (comment (cs.takeWhile (· ≠ '\n'))).Stops rest := by
  have hbody : '\n' ∉ cs.takeWhile (· ≠ '\n') := by
    intro hmem
    simpa using List.mem_takeWhile_imp hmem
  have hcs : '/' :: '/' :: cs =
      (comment (cs.takeWhile (· ≠ '\n'))).text ++ cs.dropWhile (· ≠ '\n') := by
    simp only [text, List.cons_append, List.takeWhile_append_dropWhile]
  have hstops : ∀ d ∈ (cs.dropWhile (· ≠ '\n')).head?, d = '\n' := by
    intro d hd
    simpa using List.eq_false_of_mem_head?_dropWhile hd
  exact ⟨hbody, _, hcs, hstops⟩

/-- A string goes on to the next quote. -/
theorem wellFormed_of_first?_quote {cs : List Char} {p : Piece} (h : first? ('"' :: cs) = some p) :
    p = string (cs.takeWhile (· ≠ '"')) ∧ p.WellFormed := by
  rw [first?_quote] at h
  split at h
  · cases h
    -- What is read up to the first quote has none in it.
    have hbody : '"' ∉ cs.takeWhile (· ≠ '"') := by
      intro hmem
      simpa using List.mem_takeWhile_imp hmem
    exact ⟨rfl, hbody⟩
  · cases h

/-- The piece that is found is well formed, stands at the front and stops before what follows. -/
theorem wellFormed_and_stops_of_first? {cs : List Char} {p : Piece} (h : first? cs = some p) :
    p.WellFormed ∧ ∃ rest, cs = p.text ++ rest ∧ p.Stops rest := by
  cases cs with
  | nil => cases h
  | cons c cs =>
    -- The classes are told apart by the first character, in the order in which they are tried.
    by_cases hblank : c.isWhitespace
    · rw [first?_of_isWhitespace hblank] at h
      cases h
      exact ⟨hblank, cs, rfl, trivial⟩
    by_cases hdigit : c.isDigit
    · rw [first?_of_isDigit hdigit] at h
      cases h
      exact ⟨Numeral.wellFormed_span hdigit, Numeral.exists_eq_span_text_append _⟩
    by_cases hletter : beginsWord c
    · rw [first?_of_beginsWord hletter] at h
      cases h
      exact wellFormed_and_stops_word hletter cs
    by_cases hquote : c = '"'
    · subst hquote
      obtain ⟨rest, hrest⟩ := eq_text_append_of_first? h
      obtain ⟨rfl, hp⟩ := wellFormed_of_first?_quote h
      exact ⟨hp, rest, hrest, trivial⟩
    by_cases hslashes : c = '/' ∧ cs.head? = some '/'
    · obtain ⟨rfl, hhead⟩ := hslashes
      obtain ⟨body, rfl⟩ := List.head?_eq_some_iff.1 hhead
      rw [first?_slashes] at h
      cases h
      exact wellFormed_and_stops_comment body
    · rw [first?, if_neg hblank, if_neg hdigit, if_neg hletter, if_neg hquote, if_neg hslashes] at h
      obtain ⟨s, hs, rfl⟩ := Option.map_eq_some_iff.1 h
      exact ⟨trivial, Symbol.exists_eq_text_append_of_first? hs (by simpa using hslashes)⟩

/-- A piece is found exactly when it is well formed, stands at the front and stops before what
    follows. -/
theorem first?_eq_some_iff {cs : List Char} {p : Piece} :
    first? cs = some p ↔ p.WellFormed ∧ ∃ rest, cs = p.text ++ rest ∧ p.Stops rest := by
  constructor
  · exact wellFormed_and_stops_of_first?
  · intro h
    obtain ⟨hp, rest, rfl, hstops⟩ := h
    exact first?_text_append hp hstops

/-- Where a well-formed piece stands at the front, a piece that is no shorter is found. -/
theorem exists_first?_of_wellFormed {q : Piece} (hq : q.WellFormed) (rest : List Char) :
    ∃ p, first? (q.text ++ rest) = some p ∧ q.text.length ≤ p.text.length := by
  cases q with
  | blank c => exact ⟨_, first?_of_isWhitespace hq, le_rfl⟩
  | comment body =>
    have hlength := List.length_le_length_takeWhile_append (r := rest)
      (List.forall_mem_ne_of_not_mem hq)
    exact ⟨_, first?_slashes, Nat.succ_le_succ (Nat.succ_le_succ hlength)⟩
  | symbol s =>
    -- A symbol is found unless what follows it extends it.
    by_cases hs : s.Stops rest
    · exact ⟨_, first?_symbol_text_append hs, le_rfl⟩
    · -- What extends the symbol makes it a longer symbol or the beginning of a comment.
      cases s with
      | bang | equal | greater | less =>
        obtain ⟨more, rfl⟩ := List.head?_eq_some_iff.1 (not_not.1 hs)
        exact ⟨_, rfl, Nat.le_succ 1⟩
      | slash =>
        obtain ⟨more, rfl⟩ := List.head?_eq_some_iff.1 (not_not.1 hs)
        exact ⟨_, first?_slashes, Nat.succ_le_succ (Nat.zero_le _)⟩
      | _ => exact absurd trivial hs
  -- The classes that go on as long as they can are at least as long as any piece of theirs.
  | string body => exact ⟨_, first?_text_append (p := string body) hq trivial, le_rfl⟩
  | number n =>
    exact ⟨_, first?_number_text_append hq rest, Numeral.length_text_le_length_span hq rest⟩
  | word letters =>
    obtain ⟨c, cs, rfl, hc, hcs⟩ := hq
    have hlength := List.length_le_length_takeWhile_append (r := rest) hcs
    exact ⟨_, first?_of_beginsWord hc, Nat.succ_le_succ hlength⟩

/-! ### Where nothing is found -/

/-- A quote at which nothing is found is the last of the text. -/
theorem not_mem_of_first?_quote_eq_none {body : List Char} (h : first? ('"' :: body) = none) :
    '"' ∉ body := by
  intro hmem
  rw [first?_quote, if_pos hmem] at h
  cases h

/-- Something is found at every blank. -/
theorem isWhitespace_eq_false_of_first?_eq_none {c : Char} {body : List Char}
    (h : first? (c :: body) = none) : c.isWhitespace = false := by
  apply Bool.eq_false_iff.2
  intro hblank
  rw [first?_of_isWhitespace hblank] at h
  cases h

/-- Whether nothing is found at a character other than a quote is up to this character alone. -/
theorem first?_cons_eq_none_iff {c : Char} (hquote : c ≠ '"') (cs : List Char) :
    first? (c :: cs) = none ↔ c.isWhitespace = false ∧ c.isDigit = false ∧ beginsWord c = false ∧
      Symbol.first? [c] = none := by
  constructor
  · intro h
    -- Something would be found in each of these classes, whatever follows.
    have hblank := isWhitespace_eq_false_of_first?_eq_none h
    have hdigit : c.isDigit = false := by
      apply Bool.eq_false_iff.2
      intro hdigit
      rw [first?_of_isDigit hdigit] at h
      cases h
    have hletter : beginsWord c = false := by
      apply Bool.eq_false_iff.2
      intro hletter
      rw [first?_of_beginsWord hletter] at h
      cases h
    rw [first?, if_neg (by simp [hblank]), if_neg (by simp [hdigit]), if_neg (by simp [hletter]),
      if_neg hquote] at h
    split at h
    · cases h
    · exact ⟨hblank, hdigit, hletter, Symbol.first?_cons_eq_none (Option.map_eq_none_iff.1 h) []⟩
  · rintro ⟨hblank, hdigit, hletter, hsymbol⟩
    -- Two slashes would begin a comment, but a slash alone is a symbol already.
    have hslash : c ≠ '/' := by
      rintro rfl
      cases hsymbol
    rw [first?, if_neg (by simp [hblank]), if_neg (by simp [hdigit]), if_neg (by simp [hletter]),
      if_neg hquote, if_neg (by simp [hslash]), Symbol.first?_cons_eq_none hsymbol]
    rfl

/-- Where nothing is found, nothing is found with more text behind, unless it closes a string. -/
theorem first?_append_eq_none {c : Char} {cs more : List Char} (h : first? (c :: cs) = none)
    (hmore : c = '"' → '"' ∉ more) : first? (c :: cs ++ more) = none := by
  rw [List.cons_append]
  by_cases hquote : c = '"'
  · subst hquote
    have hcs := not_mem_of_first?_quote_eq_none h
    -- The quote opens a string that is closed in neither text.
    rw [first?_quote, if_neg (by simp [hcs, hmore rfl])]
  · rw [first?_cons_eq_none_iff hquote] at h ⊢
    exact h

end Piece

end LoxLexer
