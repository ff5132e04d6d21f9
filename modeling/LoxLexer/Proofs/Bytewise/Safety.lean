import LoxLexer.Proofs.Bytewise.Steps
import LoxLexer.Proofs.Cutting

/-!
# Safety of scanning byte by byte

A walk over the bytes of a source scans the same items as a cut of its characters, and everything it
does is safe. The first byte of an item decides what the item is, as its first character does: the
bytes of a character beyond ASCII are not those of any character that begins an item. What a walk
logs on its way is what the finished cut tells.

## Key results

- `takes_item_of_wellFormed`: the walk scans the piece at the front of what follows
- `takes_item_of_first?_eq_none`: the walk fails where no piece begins
- `walk_eq_scan`: a walk over any source gives the result of `scan`, and is safe throughout
- `walk_logs_scanLog`: the records that it logs are those of `scanLog`
-/

namespace LoxLexer.Bytewise

/-! ## Characters beyond ASCII -/

theorem lt_of_isDigit {c : Char} (h : c.isDigit) : c.toNat < 128 := by
  have hle : c.toNat ≤ 57 := (Char.isDigit_iff_toNat.1 h).2
  omega

theorem lt_of_beginsWord {c : Char} (h : Piece.beginsWord c) : c.toNat < 128 := by
  obtain ⟨-, hupper⟩ | ⟨-, hlower⟩ | rfl := beginsWord_iff.1 h
  -- Letters and the underscore are all in the lower half, each for its own bounds.
  · have hle : c.toNat ≤ 90 := UInt32.le_iff_toNat_le.1 hupper
    omega
  · have hle : c.toNat ≤ 122 := UInt32.le_iff_toNat_le.1 hlower
    omega
  · decide

theorem lt_of_continuesWord {c : Char} (h : Piece.continuesWord c) : c.toNat < 128 := by
  obtain hletter | hdigit := Grammar.letter_or_digit_iff.2 h
  · exact lt_of_beginsWord (Grammar.letter_iff.1 hletter)
  · exact lt_of_isDigit (Grammar.digit_iff.1 hdigit)

/-! ## The first byte of an item -/

theorem itemFrom_of_isDigit (source : String) {c : Char} (h : c.isDigit) :
    itemFrom source c = number source := by
  -- None of the characters that the match names is a digit, so only the tests behind them are left.
  unfold itemFrom
  split
  all_goals first | cases h | skip
  rw [if_pos h]

theorem itemFrom_of_beginsWord (source : String) {c : Char} (h : Piece.beginsWord c) :
    itemFrom source c = word source := by
  have hdigit := isDigit_eq_false_of_beginsWord h
  unfold itemFrom
  split
  all_goals first | cases h | skip
  rw [if_neg (by simp [hdigit]), if_pos h]

/-- A byte that is no character of ASCII begins no item. -/
theorem itemFrom_of_le (source : String) {c : Char} (h : 128 ≤ c.toNat) :
    itemFrom source c = unexpected source := by
  unfold itemFrom
  split
  all_goals first | exact absurd h (by decide) | skip
  -- Digits and letters are the other tests, and both hold in ASCII only.
  rw [if_neg fun hdigit => absurd (lt_of_isDigit hdigit) (by omega),
    if_neg fun hletter => absurd (lt_of_beginsWord hletter) (by omega)]

/-- A character begins no item if it is no quote and begins no piece. -/
theorem itemFrom_of_first?_eq_none (source : String) {c : Char} {cs : List Char} (hquote : c ≠ '"')
    (h : Piece.first? (c :: cs) = none) : itemFrom source c = unexpected source := by
  obtain ⟨hblank, hdigit, hletter, hsymbol⟩ := (Piece.first?_cons_eq_none_iff hquote cs).1 h
  unfold itemFrom
  split
  -- Each character that the match names is a blank, a quote or the first of a symbol.
  all_goals first
    | exact absurd hsymbol (by decide)
    | exact absurd hblank (by decide)
    | exact absurd rfl hquote
    | skip
  rw [if_neg (by simp [hdigit]), if_neg (by simp [hletter])]

/-- The first byte of a character that begins no piece begins no item: it is the character itself,
    or no character of ASCII. -/
theorem itemFrom_ofUInt8_of_first?_eq_none (source : String) {a : Char} {cs : List Char} {b : UInt8}
    {bs : List UInt8} (hquote : a ≠ '"') (h : Piece.first? (a :: cs) = none)
    (hbytes : String.utf8EncodeChar a = b :: bs) :
    itemFrom source (Char.ofUInt8 b) = unexpected source := by
  by_cases ha : a.toNat < 128
  · rw [String.utf8EncodeChar_of_lt ha] at hbytes
    obtain rfl := (List.cons.inj hbytes).1
    rw [Char.ofUInt8_toUInt8_of_lt ha]
    exact itemFrom_of_first?_eq_none source hquote h
  · have hb : 128 ≤ b.toNat :=
      String.le_toNat_of_mem_utf8EncodeChar (by omega) (hbytes ▸ List.mem_cons_self)
    exact itemFrom_of_le source hb

/-! ## Items -/

section Items

variable {source : String} {front rest : List Char}

/-- An item is scanned behind its first character. -/
theorem takes_item {a : Char} {r : ItemResult} {c : Cursor} (ha : a.toNat < 128) (hlf : a ≠ '\n')
    (h : source.toList = front ++ a :: rest)
    (hitem : Takes source (mark front [a]) (itemFrom source a) r c) :
    Takes source (mark front []) (item source) r c := by
  have h' : source.toList = front ++ [] ++ a :: rest := by rw [List.append_nil, h]
  have hbyte := (byteAt_mark_eq_iff ha h').2 rfl
  refine (takes_bump (safe_mark h') hbyte).bind ?_
  rw [← mark_append_singleton ha hlf]
  show Takes source (mark front [a]) (itemFrom source (Char.ofUInt8 a.toUInt8)) r c
  rw [Char.ofUInt8_toUInt8_of_lt ha]
  exact hitem

theorem takes_symbolBeforeEqual {s t : Symbol} {a : Char} (hrest : rest.head? ≠ some '=')
    (h : source.toList = front ++ [a] ++ rest) :
    Takes source (mark front [a]) (symbolBeforeEqual source s t)
      (.ok (some ⟨.symbol s, String.ofList [a], none, front.count '\n'⟩)) (mark front [a]) :=
  (takes_eat_mark_of_ne (by decide) hrest h).bind (takes_token h)

theorem takes_symbolBeforeEqual_of_equal {s t : Symbol} {a : Char}
    (h : source.toList = front ++ [a, '='] ++ rest) :
    Takes source (mark front [a]) (symbolBeforeEqual source s t)
      (.ok (some ⟨.symbol t, String.ofList [a, '='], none, front.count '\n'⟩))
      (mark front [a, '=']) := by
  have h' : source.toList = front ++ [a] ++ '=' :: rest := by simpa using h
  exact (takes_eat_mark (by decide) (by decide) h').bind (takes_token h)

theorem takes_slash (hrest : rest.head? ≠ some '/') (h : source.toList = front ++ ['/'] ++ rest) :
    Takes source (mark front ['/']) (slash source)
      (.ok (some ⟨.symbol .slash, String.ofList ['/'], none, front.count '\n'⟩))
      (mark front ['/']) :=
  (takes_eat_mark_of_ne (by decide) hrest h).bind (takes_token h)

theorem takes_itemFrom_symbol {s : Symbol} {a : Char} {more : List Char}
    (htext : s.text = a :: more) (hs : s.Stops rest) (h : source.toList = front ++ s.text ++ rest) :
    Takes source (mark front [a]) (itemFrom source a)
      (.ok (some ⟨.symbol s, String.ofList s.text, none, front.count '\n'⟩))
      (mark front s.text) := by
  -- Some symbols look for an equals sign behind them, the slash for another slash, and all others
  -- are found at their first byte.
  cases s with
  | bang | equal | greater | less =>
    cases htext
    exact takes_symbolBeforeEqual hs h
  | bangEqual | equalEqual | greaterEqual | lessEqual =>
    cases htext
    exact takes_symbolBeforeEqual_of_equal h
  | slash =>
    cases htext
    exact takes_slash hs h
  | _ =>
    cases htext
    exact takes_token h

/-- A line feed is counted behind its byte. -/
theorem takes_item_of_lineFeed (h : source.toList = front ++ '\n' :: rest) :
    Takes source (mark front []) (item source) (.ok none) (mark front ['\n']) := by
  have h' : source.toList = front ++ [] ++ '\n' :: rest := by rw [List.append_nil, h]
  have hbyte := (byteAt_mark_eq_iff (by decide) h').2 rfl
  have hsafe := safe_succ_pos (safe_mark h') (lt_of_byteAt hbyte)
  -- The byte is counted before its line, so there are still no more lines than bytes.
  have hline : (mark front []).line < (mark front []).pos + 1 :=
    Nat.lt_succ_of_le (safe_mark h').2.2
  have hmark : mark front ['\n'] = { mark front [] with
      pos := (mark front []).pos + 1, line := (mark front []).line + 1 } := by
    rw [← List.nil_append ['\n'], mark_append]
    rfl
  rw [hmark]
  exact (takes_bump (safe_mark h') hbyte).bind
    ((takes_nextLine hsafe hline).bind (Takes.pure (Except.ok none)))

theorem takes_item_of_blank {a : Char} (ha : a.isWhitespace)
    (h : source.toList = front ++ a :: rest) :
    Takes source (mark front []) (item source) (.ok none) (mark front [a]) := by
  -- A space, a tab and a carriage return are passed over.
  obtain rfl | rfl | rfl | rfl := isWhitespace_iff.1 ha
  · exact takes_item (by decide) (by decide) h (Takes.pure _)
  · exact takes_item (by decide) (by decide) h (Takes.pure _)
  · exact takes_item (by decide) (by decide) h (Takes.pure _)
  · exact takes_item_of_lineFeed h

theorem takes_itemFrom_comment {body : List Char} (hbody : '\n' ∉ body)
    (hrest : ∀ c ∈ rest.head?, c = '\n') (h : source.toList = front ++ '/' :: '/' :: body ++ rest) :
    Takes source (mark front ['/']) (itemFrom source '/') (.ok none)
      (mark front ('/' :: '/' :: body)) := by
  have hslash : source.toList = front ++ ['/'] ++ '/' :: (body ++ rest) := by simpa using h
  have hslashes : source.toList = front ++ ['/', '/'] ++ (body ++ rest) := by simpa using h
  -- The body is the run, as a line feed or the end stands behind it.
  have hrun : (body ++ rest).takeWhile (fun c => decide (c ≠ '\n')) = body :=
    List.takeWhile_append_eq_left (List.forall_mem_ne_of_not_mem hbody)
      fun c hc => by simpa using hrest c hc
  have hread := takes_eatWhile_mark (Char.uniformBeyondAscii_ne (a := '\n') (by decide)) (by decide)
    hslashes
  rw [hrun] at hread
  exact (takes_eat_mark (by decide) (by decide) hslash).bind (hread.bind (Takes.pure _))

/-- A string is read up to its closing quote, and the text between the quotes is taken. -/
theorem takes_itemFrom_string {body : List Char} (hbody : '"' ∉ body)
    (h : source.toList = front ++ ('"' :: body ++ ['"']) ++ rest) :
    Takes source (mark front ['"']) (itemFrom source '"')
      (.ok ((Piece.string body).token? (front.count '\n')))
      (mark front ('"' :: body ++ ['"'])) := by
  have hquote : source.toList = front ++ ['"'] ++ (body ++ '"' :: rest) := by simpa using h
  have hrun : (body ++ '"' :: rest).takeWhile (fun c => decide (c ≠ '"')) = body :=
    List.takeWhile_append_eq_left (List.forall_mem_ne_of_not_mem hbody) (by simp)
  have hread := takes_eatString_mark hquote
  rw [hrun] at hread
  -- Each quote is a byte, so the value stands between the byte behind the first and the last byte.
  have hclosing : source.toList = front ++ (['"'] ++ body) ++ '"' :: rest := by simpa using h
  have hvalue : source.toList = (front ++ ['"']) ++ body ++ '"' :: rest := by simpa using h
  have heat := takes_eat_mark (by decide) (by decide) hclosing
  have hsize : size ['"'] = 1 := rfl
  have hslice := takes_slice (c := mark front ('"' :: body ++ ['"'])) hvalue
  have hfirst : size (front ++ ['"']) = size front + 1 := size_append front ['"']
  have hlast : size (front ++ ['"'] ++ body) = size (front ++ ('"' :: body ++ ['"'])) - 1 := by
    simp only [size_append, size_cons '"' (body ++ _), List.cons_append, hsize]
    omega
  have hstart : size front ≤ source.utf8ByteSize := by
    rw [List.append_assoc] at h
    exact size_le h
  rw [hfirst, hlast] at hslice
  refine hread.bind (heat.bind ?_)
  exact takes_cursor.bind ((takes_next hstart).bind (hslice.bind (takes_token h)))

/-- A string that is not closed is read to the end of the source. -/
theorem takes_itemFrom_quote {body : List Char} (hbody : '"' ∉ body)
    (h : source.toList = front ++ '"' :: body) :
    Takes source (mark front ['"']) (itemFrom source '"')
      (.error (.unterminatedString (front.count '\n' + body.count '\n')))
      (mark front ('"' :: body)) := by
  have hquote : source.toList = front ++ ['"'] ++ body := by simpa using h
  have hrun : body.takeWhile (fun c => decide (c ≠ '"')) = body :=
    List.takeWhile_eq_self_iff.2 (List.forall_mem_ne_of_not_mem hbody)
  have hread := takes_eatString_mark hquote
  rw [hrun] at hread
  have hend : source.toList = front ++ (['"'] ++ body) ++ [] := by simpa using h
  refine hread.bind ((takes_eat_mark_of_ne (by decide) (by simp) hend).bind ?_)
  -- The line of the error is where the cursor stands, at the end of the source.
  have hline : (mark front ('"' :: body)).line = front.count '\n' + body.count '\n' := by
    simp [mark, List.count_append]
  rw [← hline]
  exact takes_cursor.bind (Takes.pure _)

theorem takes_itemFrom_word {a : Char} {cs : List Char} (ha : Piece.beginsWord a)
    (hcs : ∀ c ∈ cs, Piece.continuesWord c)
    (hrest : ∀ c ∈ rest.head?, Piece.continuesWord c = false)
    (h : source.toList = front ++ a :: cs ++ rest) :
    Takes source (mark front [a]) (itemFrom source a)
      (.ok ((Piece.word (a :: cs)).token? (front.count '\n'))) (mark front (a :: cs)) := by
  have hletter : source.toList = front ++ [a] ++ (cs ++ rest) := by simpa using h
  have hread := takes_eatWhile_mark
    -- The letters of the word are the run, and the keyword is looked up in the whole of it.
    (Char.uniformBeyondAscii_of_forall_lt fun _ => lt_of_continuesWord) (by decide) hletter
  rw [List.takeWhile_append_eq_left hcs hrest] at hread
  rw [itemFrom_of_beginsWord source ha]
  exact hread.bind ((takes_lexeme h).bind (takes_token h))

theorem uniformBeyondAscii_isDigit : Char.UniformBeyondAscii Char.isDigit :=
  Char.uniformBeyondAscii_of_forall_lt fun _ => lt_of_isDigit

/-- A point before a digit and the digits behind it are read. -/
theorem takes_eatFraction_of_digit {read : List Char} (hdigit : rest.head?.any Char.isDigit)
    (h : source.toList = front ++ read ++ '.' :: rest) :
    Takes source (mark front read) (eatFraction source) ()
      (mark front (read ++ '.' :: rest.takeWhile Char.isDigit)) := by
  have hpoint : source.toList = front ++ (read ++ ['.']) ++ rest := by simpa using h
  have hread := takes_eatWhile_mark uniformBeyondAscii_isDigit (by decide) hpoint
  rw [List.append_assoc, List.singleton_append] at hread
  refine takes_peek.bind ?_
  rw [if_pos ((byteAt_mark_eq_iff (by decide) h).2 rfl)]
  refine (takes_peekSecond_mark h).bind ?_
  rw [List.any_head?_flatMap_utf8EncodeChar uniformBeyondAscii_isDigit, if_pos hdigit]
  exact (takes_advance_mark (by decide) (by decide) h).bind hread

/-- Where no fraction follows, nothing is read. -/
theorem takes_eatFraction_of_not_digit {read : List Char}
    (hdigit : ∀ more, rest = '.' :: more → more.head?.any Char.isDigit = false)
    (h : source.toList = front ++ read ++ rest) :
    Takes source (mark front read) (eatFraction source) () (mark front read) := by
  refine takes_peek.bind ?_
  by_cases hpoint : rest.head? = some '.'
  · -- The point is seen, and so is the byte behind it, but neither is read.
    obtain ⟨more, rfl⟩ := List.head?_eq_some_iff.1 hpoint
    rw [if_pos ((byteAt_mark_eq_iff (by decide) h).2 rfl)]
    refine (takes_peekSecond_mark h).bind ?_
    rw [List.any_head?_flatMap_utf8EncodeChar uniformBeyondAscii_isDigit, hdigit more rfl]
    exact Takes.pure ()
  · rw [if_neg (mt (byteAt_mark_eq_iff (by decide) h).1 hpoint)]
    exact Takes.pure ()

/-- Behind the digits of a numeral, what it has behind them is read. -/
theorem takes_eatFraction {n : Numeral} (hn : n.WellFormed) (hrest : n.Stops rest)
    (h : source.toList = front ++ n.text ++ rest) :
    Takes source (mark front n.whole) (eatFraction source) () (mark front n.text) := by
  by_cases hfraction : n.fraction = []
  · -- No point is read behind a whole part, as the numeral ends there.
    rw [Numeral.text_of_fraction_eq_nil hfraction] at h ⊢
    refine takes_eatFraction_of_not_digit (fun more hmore => ?_) h
    have hpoint := hrest.point hfraction more hmore
    cases more with
    | nil => rfl
    | cons c more => exact hpoint c rfl
  · -- The point is part of the numeral, and a digit stands behind it.
    obtain ⟨d, ds, hcons⟩ := List.exists_cons_of_ne_nil hfraction
    rw [Numeral.text_of_fraction_ne_nil hfraction] at h ⊢
    have h' : source.toList = front ++ n.whole ++ '.' :: (n.fraction ++ rest) := by simpa using h
    have hrun : (n.fraction ++ rest).takeWhile Char.isDigit = n.fraction :=
      List.takeWhile_append_eq_left hn.isDigit_fraction hrest.head
    have hread := takes_eatFraction_of_digit ?_ h'
    · rwa [hrun] at hread
    · rw [hcons]
      exact hn.isDigit_fraction d (hcons ▸ List.mem_cons_self)

/-- A numeral is read as the number it writes. -/
theorem takes_parse {n : Numeral} {c : Cursor} (hn : n.WellFormed) :
    Takes source c (parse (String.ofList n.text)) n.value c := by
  -- What is read as a number is the numeral itself, which has one of the two safe forms.
  have hdigits : (Event.parsed n.text).Safe source := by
    by_cases hfraction : n.fraction = []
    · rw [Numeral.text_of_fraction_eq_nil hfraction]
      exact .inl (Grammar.digits_whole hn)
    · rw [Numeral.text_of_fraction_ne_nil hfraction]
      exact .inr ⟨n.whole, n.fraction, Grammar.digits_whole hn,
        Grammar.digits_fraction hn hfraction, rfl⟩
  have hnumeral : numeral? n.text = some n := by
    have hstops : n.Stops [] := ⟨by simp, by simp⟩
    have hspan := Numeral.span_text_append hn hstops
    rw [List.append_nil] at hspan
    rw [numeral?, hspan]
    exact if_pos ⟨hn.whole_ne_nil, rfl⟩
  rw [parse, String.toList_ofList]
  exact (takes_note hdigits rfl).bind ((takes_some hnumeral).bind (Takes.pure _))

theorem takes_itemFrom_number {n : Numeral} {d : Char} {ds : List Char} (hn : n.WellFormed)
    (hwhole : n.whole = d :: ds) (hrest : n.Stops rest)
    (h : source.toList = front ++ n.text ++ rest) :
    Takes source (mark front [d]) (itemFrom source d)
      (.ok ((Piece.number n).token? (front.count '\n'))) (mark front n.text) := by
  have hd : d.isDigit := hn.isDigit_whole d (hwhole ▸ List.mem_cons_self)
  have hfirst : source.toList = front ++ [d] ++ (ds ++ (n.tail ++ rest)) := by
    simpa [Numeral.text, hwhole] using h
  -- The run of digits ends where the whole part does, at the point or at what follows.
  have hread := takes_eatWhile_mark uniformBeyondAscii_isDigit (by decide) hfirst
  rw [List.takeWhile_append_eq_left, List.singleton_append, ← hwhole] at hread
  · rw [itemFrom_of_isDigit source hd]
    exact hread.bind ((takes_eatFraction hn hrest h).bind
      ((takes_lexeme h).bind ((takes_parse hn).bind (takes_token h))))
  · exact fun c hc => hn.isDigit_whole c (hwhole ▸ List.mem_cons_of_mem d hc)
  · exact hrest.isDigit_eq_false_of_mem_head?_tail

/-- The walk scans the piece at the front of what follows. -/
theorem takes_item_of_wellFormed {p : Piece} (hp : p.WellFormed) (hrest : p.Stops rest)
    (h : source.toList = front ++ p.text ++ rest) :
    Takes source (mark front []) (item source) (.ok (p.token? (front.count '\n')))
      (mark front p.text) := by
  cases p with
  | blank a => exact takes_item_of_blank hp (by simpa [Piece.text] using h)
  | comment body =>
    exact takes_item (by decide) (by decide) (by simpa [Piece.text] using h)
      (takes_itemFrom_comment hp hrest h)
  | symbol s =>
    obtain ⟨a, more, htext⟩ := List.exists_cons_of_ne_nil s.text_ne_nil
    have ha : a.toNat < 128 ∧ a ≠ '\n' := by cases s <;> cases htext <;> decide
    have h' : source.toList = front ++ a :: (more ++ rest) := by simpa [Piece.text, htext] using h
    exact takes_item ha.1 ha.2 h' (takes_itemFrom_symbol htext hrest h)
  | string body =>
    exact takes_item (by decide) (by decide) (by simpa [Piece.text] using h)
      (takes_itemFrom_string hp h)
  | number n =>
    obtain ⟨d, ds, hwhole⟩ := List.exists_cons_of_ne_nil hp.whole_ne_nil
    have hd : d.isDigit := hp.isDigit_whole d (hwhole ▸ List.mem_cons_self)
    -- The first character of a number or of a word is no line feed, so the line stays where it is.
    have hlf : d ≠ '\n' := by
      rintro rfl
      cases hd
    have h' : source.toList = front ++ d :: (ds ++ (n.tail ++ rest)) := by
      simpa [Piece.text, Numeral.text, hwhole] using h
    exact takes_item (lt_of_isDigit hd) hlf h' (takes_itemFrom_number hp hwhole hrest h)
  | word letters =>
    obtain ⟨a, cs, rfl, ha, hcs⟩ := hp
    have hlf : a ≠ '\n' := by
      rintro rfl
      cases ha
    have h' : source.toList = front ++ a :: (cs ++ rest) := by simpa [Piece.text] using h
    exact takes_item (lt_of_beginsWord ha) hlf h' (takes_itemFrom_word ha hcs hrest h)

/-- Where a character begins no piece, it is taken as a whole behind its first byte. -/
theorem takes_item_of_unexpected {a : Char} (hquote : a ≠ '"')
    (hnone : Piece.first? (a :: rest) = none) (h : source.toList = front ++ a :: rest) :
    Takes source (mark front []) (item source)
      (.error (.unexpectedCharacter (front.count '\n') a))
      { mark front [] with pos := (mark front []).pos + 1 } := by
  obtain ⟨b, bs, hbytes⟩ := List.exists_cons_of_ne_nil (String.utf8EncodeChar_ne_nil (c := a))
  have h' : source.toList = front ++ [] ++ a :: rest := by rw [List.append_nil, h]
  have hbyte : byteAt source (mark front []).pos = some b := by
    rw [byteAt_eq, ← bytesFrom, bytesFrom_mark h', List.flatMap_cons, hbytes]
    rfl
  refine (takes_bump (safe_mark h') hbyte).bind ?_
  show Takes source _ (itemFrom source (Char.ofUInt8 b)) _ _
  rw [itemFrom_ofUInt8_of_first?_eq_none source hquote hnone hbytes]
  -- The cursor may stand inside the character now, so the text is taken from before it.
  have hend : source.toList = front ++ a :: rest ++ [] := by rw [List.append_nil, h]
  have hslice := takes_slice (c := { mark front [] with pos := (mark front []).pos + 1 }) hend
  rw [← h, ← utf8ByteSize_eq_size] at hslice
  have hline : (mark front []).line = front.count '\n' := by rw [mark, List.append_nil]
  refine takes_cursor.bind (hslice.bind ?_)
  rw [String.toList_ofList, ← hline]
  exact Takes.pure _

/-- The walk fails where no piece begins. -/
theorem takes_item_of_first?_eq_none {cs : List Char} (hne : cs ≠ [])
    (hnone : Piece.first? cs = none) (h : source.toList = front ++ cs) :
    ∃ e c, (⟨[], front.count '\n', cs⟩ : Cut).error? = some e ∧
      Takes source (mark front []) (item source) (.error e) c ∧ size front < c.pos := by
  -- A quote that begins no string is read to the end. Any other character is refused at once.
  obtain ⟨a, rest, rfl⟩ := List.exists_cons_of_ne_nil hne
  by_cases hquote : a = '"'
  · subst hquote
    refine ⟨_, _, Cut.error?_of_quote rfl, takes_item (by decide) (by decide) h
      (takes_itemFrom_quote (Piece.not_mem_of_first?_quote_eq_none hnone) h), ?_⟩
    have hsize : size ['"'] = 1 := rfl
    show size front < size (front ++ '"' :: rest)
    rw [size_append, size_cons, hsize]
    omega
  · refine ⟨_, _, Cut.error?_of_ne_quote rfl hquote, takes_item_of_unexpected hquote hnone h, ?_⟩
    simp [mark]

end Items

/-! ## Logs -/

/-- The records of what became of an item behind so many tokens. -/
def itemRecords (found : Nat) : ItemResult → List LogRecord
  | .ok t => t.toList.map LogRecord.token
  | .error e => [.aborted found e]

theorem takesLogging_logItem {source : String} {c : Cursor} (found : Nat) (r : ItemResult) :
    TakesLogging source c (logItem found r) () c (itemRecords found r) := by
  -- Of the three things an item can become, only trivia leaves nothing in the log.
  match r with
  | .ok (some t) => exact takesLogging_note (.token t)
  | .ok none => exact Takes.pure ()
  | .error e => exact takesLogging_note (.aborted found e)

/-! ## Sources -/

/-- The walk scans the piece at the front of what follows, and goes on behind it. -/
theorem takes_itemsAfter_of_item {source : String} {front : List Char} {tokens : List Token}
    {n : Nat} {c c' c'' : Cursor} {r : ItemResult} {result : Except ScanError (List Token)}
    {records : List LogRecord}
    (hpos : c.pos = size front) (hline : c.line = front.count '\n')
    (hlt : size front < source.utf8ByteSize)
    (hitem : Takes source (mark front []) (item source) r c') (hlt' : size front < c'.pos)
    (hrest : TakesLogging source c' (match r with
      | .ok t => itemsAfter source n (tokens ++ t.toList)
      | .error e => return .error e) result c'' records) :
    TakesLogging source c (itemsAfter source (n + 1) tokens) result c''
      (itemRecords tokens.length r ++ records) := by
  rw [itemsAfter]
  refine takes_cursor.bind ?_
  rw [if_pos (hpos ▸ hlt), hpos, hline]
  have hmark : mark front [] = ⟨size front, size front, front.count '\n', front.count '\n'⟩ := by
    simp [mark]
  have hsafe : (Event.moved (mark front [])).Safe source := by
    rw [hmark]
    exact ⟨Nat.le_refl _, Nat.le_of_lt hlt, count_le_size '\n' front⟩
  rw [hmark] at hsafe hitem
  refine (takes_moveTo hsafe).bind (hitem.bind (takes_cursor.bind ?_))
  refine (takes_note (e := .scanned (size front) c'.pos) hlt' rfl).bind ?_
  -- What became of the item is logged before the walk goes on or stops.
  exact (takesLogging_logItem tokens.length r).bind hrest

/-- At the end of the source the walk gives its tokens and the token for the end, and counts them
    for the log. -/
theorem takes_itemsAfter_of_end {source : String} {front : List Char} {tokens : List Token}
    {n : Nat} {c : Cursor} (h : source.toList = front) (hpos : c.pos = size front)
    (hline : c.line = front.count '\n') :
    TakesLogging source c (itemsAfter source (n + 1) tokens)
      (.ok (tokens ++ [Token.eof (front.count '\n')])) c
      [.scanned (tokens.length + 1) (front.count '\n' + 1)] := by
  have hend : ¬ c.pos < source.utf8ByteSize := by
    rw [hpos, utf8ByteSize_eq_size, h]
    exact Nat.lt_irrefl _
  have hle : c.line ≤ source.utf8ByteSize := by
    rw [hline, utf8ByteSize_eq_size, h]
    exact count_le_size '\n' front
  have hlength : (tokens ++ [Token.eof (front.count '\n')]).length = tokens.length + 1 :=
    List.length_append
  rw [itemsAfter]
  refine takes_cursor.bind ?_
  rw [if_neg hend, hline, ← hlength]
  exact (takes_next (hline ▸ hle)).bind ((takesLogging_note _).bind (Takes.pure _))

/-- A walk that has read the front of a source scans what follows and logs what it finds, in no more
    rounds than there are bytes left and one more. -/
theorem takes_itemsAfter {source : String} {line n : Nat} {front cs : List Char}
    {tokens : List Token} {c : Cursor} (h : source.toList = front ++ cs) (hpos : c.pos = size front)
    (hline : c.line = front.count '\n') (hfront : front.count '\n' = line) (hn : size cs ≤ n) :
    ∃ c', TakesLogging source c (itemsAfter source (n + 1) tokens)
      ((Cut.startingAt line cs).scan.map (tokens ++ ·)) c'
      ((Cut.startingAt line cs).logBehind tokens.length) := by
  induction line, cs using Cut.induction_on generalizing front tokens c n with
  | stuck line cs hnone =>
    subst hfront
    rw [Cut.startingAt_of_none hnone]
    by_cases hnil : cs = []
    · -- The source ends here.
      subst hnil
      rw [List.append_nil] at h
      exact ⟨c, takes_itemsAfter_of_end h hpos hline⟩
    · -- No piece begins here.
      obtain ⟨e, c', herror, hitem, hlt⟩ := takes_item_of_first?_eq_none hnil hnone h
      have hscan : (⟨[], front.count '\n', cs⟩ : Cut).scan = .error e :=
        Cut.scan_eq_error_iff.2 herror
      refine ⟨c', ?_⟩
      rw [hscan, Cut.logBehind, herror]
      exact takes_itemsAfter_of_item hpos hline (size_lt h hnil) hitem hlt (Takes.pure _)
  | piece line p rest hp hstops ih =>
    subst hfront
    have hne := Piece.text_ne_nil_of_first? (Piece.first?_text_append hp hstops)
    have h' : source.toList = (front ++ p.text) ++ rest := by rw [h, List.append_assoc]
    have hsize := size_pos hne
    have hlt : size front < size (front ++ p.text) := by
      rw [size_append]
      exact Nat.lt_add_of_pos_right hsize
    -- The piece has a byte at least, so one round less is enough for what follows it.
    rw [size_append] at hn
    obtain ⟨n, rfl⟩ : ∃ m, n = m + 1 := ⟨n - 1, by omega⟩
    obtain ⟨c', hrest⟩ : ∃ c', TakesLogging source (mark front p.text)
        (itemsAfter source (n + 1) (tokens ++ (p.token? (front.count '\n')).toList))
        ((Cut.startingAt (front.count '\n' + p.lineFeeds) rest).scan.map
          (tokens ++ (p.token? (front.count '\n')).toList ++ ·)) c'
        ((Cut.startingAt (front.count '\n' + p.lineFeeds) rest).logBehind
          (tokens ++ (p.token? (front.count '\n')).toList).length) :=
      ih h' rfl rfl List.count_append (by omega)
    refine ⟨c', ?_⟩
    have hscan : ((Cut.startingAt (front.count '\n') (p.text ++ rest)).scan.map (tokens ++ ·)) =
        (Cut.startingAt (front.count '\n' + p.lineFeeds) rest).scan.map
          (tokens ++ (p.token? (front.count '\n')).toList ++ ·) := by
      rw [Cut.startingAt_text_append hp hstops, Cut.scan_cons]
      cases (Cut.startingAt (front.count '\n' + p.lineFeeds) rest).scan with
      | ok later => simp [Except.map, PlacedPiece.token?]
      | error e => rfl
    -- The token of the piece is known to the walk when it logs what follows.
    have hlog : (Cut.startingAt (front.count '\n') (p.text ++ rest)).logBehind tokens.length =
        itemRecords tokens.length (.ok (p.token? (front.count '\n'))) ++
          (Cut.startingAt (front.count '\n' + p.lineFeeds) rest).logBehind
            (tokens ++ (p.token? (front.count '\n')).toList).length := by
      rw [Cut.startingAt_text_append hp hstops, Cut.logBehind_cons, List.length_append]
      rfl
    rw [hscan, hlog]
    exact takes_itemsAfter_of_item hpos hline (size_lt h (by simp [hne]))
      (takes_item_of_wellFormed hp hstops h') hlt hrest

/-- A walk over a source scans it to its end, and logs it. -/
theorem takes_itemsAfter_origin (source : String) :
    ∃ c, TakesLogging source .origin (itemsAfter source (rounds source) []) (scan source) c
      (scanLog source) := by
  have hsource : source.toList = [] ++ source.toList := rfl
  obtain ⟨c, htakes⟩ : ∃ c, TakesLogging source .origin (itemsAfter source (rounds source) [])
      ((Cut.startingAt 0 source.toList).scan.map ([] ++ ·)) c
      ((Cut.startingAt 0 source.toList).logBehind 0) :=
    takes_itemsAfter hsource rfl rfl rfl (by rw [← utf8ByteSize_eq_size])
  -- Nothing is known before the walk, so nothing is put before what it scans.
  have hscan : (Cut.startingAt 0 source.toList).scan.map ([] ++ ·) = scan source := by
    show (scan source).map id = scan source
    cases scan source <;> rfl
  have hlog : (Cut.startingAt 0 source.toList).logBehind 0 = scanLog source :=
    Cut.logBehind_zero (Cut.ofChars source.toList)
  exact ⟨c, hscan ▸ hlog ▸ htakes⟩

/-- A walk over the bytes of a source ends and gives the result of `scan`, and everything it does on
    the way is safe. -/
theorem walk_eq_scan (source : String) :
    ∃ events, walk source = some (scan source, events) ∧ ∀ e ∈ events, e.Safe source := by
  obtain ⟨c, htakes⟩ := takes_itemsAfter_origin source
  obtain ⟨events, hrun, hsafe, -⟩ := htakes [.moved .origin]
  have horigin : (Event.moved .origin).Safe source :=
    ⟨Nat.le_refl _, Nat.zero_le _, Nat.le_refl _⟩
  refine ⟨[.moved .origin] ++ events, ?_, List.forall_mem_cons.2 ⟨horigin, hsafe⟩⟩
  rw [walk, Walker.fresh, hrun]
  rfl

/-- The records that a walk over the bytes of a source logs on its way are those of `scanLog`. -/
theorem walk_logs_scanLog (source : String) :
    ∃ events, walk source = some (scan source, events) ∧
      events.filterMap Event.record? = scanLog source := by
  obtain ⟨c, htakes⟩ := takes_itemsAfter_origin source
  obtain ⟨events, hrun, -, hrecords⟩ := htakes [.moved .origin]
  refine ⟨[.moved .origin] ++ events, ?_, hrecords⟩
  rw [walk, Walker.fresh, hrun]
  rfl

end LoxLexer.Bytewise
