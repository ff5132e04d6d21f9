import LoxLexer.Proofs.Bytewise.Walk
import LoxLexer.Proofs.Encoding
import LoxLexer.Proofs.Grammar

/-!
# Safe steps of a walk

What each step of a walk over the bytes of a source does, stated for the characters that the bytes
encode: a walk that has read certain characters of the source reads on, and everything it does on
the way is safe. Between two of these steps the cursor stands between characters; inside a step it
may stand inside one. No step that reads logs anything.

## Key results

- `TakesLogging.bind`: steps follow one another, and so do the records that they log
- `takes_eatWhile`, `takes_eatString`: a run of bytes is read as the run of characters it encodes
- `takes_lexeme`: the bytes since the item began are a text
-/

namespace LoxLexer.Bytewise

/-! ## Safety -/

/-- What is safe to do in a walk over a source: the cursor stays within the source and counts no
    more lines than bytes, no sum is greater than the number of bytes by more than one, and bytes
    are taken as a text only between characters. A text that is read as a number is digits, with a
    point between them or without, and no item is empty.

    No text in memory has as many bytes as a machine word can count, so the sums are in range. -/
def Event.Safe (source : String) : Event → Prop
  | .moved c => c.start ≤ c.pos ∧ c.pos ≤ source.utf8ByteSize ∧ c.line ≤ c.pos
  | .counted sum => sum ≤ source.utf8ByteSize + 1
  | .sliced first last => first ≤ last ∧ last ≤ source.utf8ByteSize ∧
      String.Pos.Raw.IsValid source ⟨first⟩ ∧ String.Pos.Raw.IsValid source ⟨last⟩
  | .parsed text => Grammar.Digits text ∨ ∃ whole fraction, Grammar.Digits whole ∧
      Grammar.Digits fraction ∧ text = whole ++ '.' :: fraction
  | .scanned before after => before < after
  | .logged _ => True

/-- From one cursor a step leads to another and has a result. Everything it does is safe, and the
    records that it logs are these. -/
def TakesLogging {α : Type} (source : String) (c : Cursor) (step : Walk α) (a : α) (c' : Cursor)
    -- The events before the step are arbitrary, as no step looks at what was done before it.
    (records : List LogRecord) : Prop :=
  ∀ events, ∃ more, step.run ⟨c, events⟩ = some (a, ⟨c', events ++ more⟩) ∧
    (∀ e ∈ more, e.Safe source) ∧ more.filterMap Event.record? = records

/-- A step that logs nothing. -/
abbrev Takes {α : Type} (source : String) (c : Cursor) (step : Walk α) (a : α) (c' : Cursor) :
    Prop :=
  TakesLogging source c step a c' []

section Takes

variable {source : String} {α β : Type} {c c' c'' : Cursor} {records records' : List LogRecord}

theorem Takes.pure (a : α) : Takes source c (pure a) a c :=
  fun events => ⟨[], by rw [List.append_nil]; rfl, List.forall_mem_nil _, rfl⟩

/-- Two steps in a row log the records of the first, and then those of the second. -/
theorem TakesLogging.bind {step : Walk α} {rest : α → Walk β} {a : α} {b : β}
    (h : TakesLogging source c step a c' records)
    (h' : TakesLogging source c' (rest a) b c'' records') :
    TakesLogging source c (step >>= rest) b c'' (records ++ records') := by
  intro events
  obtain ⟨more, hrun, hsafe, hrecords⟩ := h events
  obtain ⟨more', hrun', hsafe', hrecords'⟩ := h' (events ++ more)
  refine ⟨more ++ more', ?_, List.forall_mem_append.2 ⟨hsafe, hsafe'⟩, ?_⟩
  · rw [StateT.run_bind, hrun, ← List.append_assoc]
    exact hrun'
  · rw [List.filterMap_append, hrecords, hrecords']

/-- Behind a step that logs nothing, the records are those of the next. -/
theorem Takes.bind {step : Walk α} {rest : α → Walk β} {a : α} {b : β}
    (h : Takes source c step a c') (h' : TakesLogging source c' (rest a) b c'' records) :
    TakesLogging source c (step >>= rest) b c'' records :=
  TakesLogging.bind h h'

theorem takes_note {e : Event} (h : e.Safe source) (hrecord : e.record? = none) :
    Takes source c (note e) () c :=
  fun _ => ⟨[e], rfl, List.forall_mem_singleton.2 h, List.filterMap_cons_none hrecord⟩

theorem takesLogging_note (r : LogRecord) : TakesLogging source c (note (.logged r)) () c [r] :=
  fun _ => ⟨[.logged r], rfl, List.forall_mem_singleton.2 trivial, rfl⟩

theorem takes_cursor : Takes source c cursor c c :=
  fun events => ⟨[], by rw [List.append_nil]; rfl, List.forall_mem_nil _, rfl⟩

theorem takes_some {r : Option α} {a : α} (h : r = some a) : Takes source c (liftM r) a c := by
  subst h
  exact Takes.pure a

theorem takes_moveTo (h : (Event.moved c').Safe source) : Takes source c (moveTo c') () c' :=
  fun _ => ⟨[.moved c'], rfl, List.forall_mem_singleton.2 h, rfl⟩

theorem takes_next {n : Nat} (h : n ≤ source.utf8ByteSize) : Takes source c (next n) (n + 1) c :=
  (takes_note (e := .counted (n + 1)) (Nat.succ_le_succ h) rfl).bind (Takes.pure _)

theorem safe_succ_pos (h : (Event.moved c).Safe source) (hpos : c.pos < source.utf8ByteSize) :
    (Event.moved { c with pos := c.pos + 1 }).Safe source :=
  ⟨Nat.le_succ_of_le h.1, hpos, Nat.le_succ_of_le h.2.2⟩

theorem takes_advance (h : (Event.moved c).Safe source) (hpos : c.pos < source.utf8ByteSize) :
    Takes source c advance () { c with pos := c.pos + 1 } :=
  takes_cursor.bind ((takes_next (Nat.le_of_lt hpos)).bind (takes_moveTo (safe_succ_pos h hpos)))

theorem takes_nextLine (h : (Event.moved c).Safe source) (hline : c.line < c.pos) :
    Takes source c nextLine () { c with line := c.line + 1 } := by
  obtain ⟨hstart, hpos, -⟩ := h
  have hle : c.line ≤ source.utf8ByteSize := Nat.le_trans (Nat.le_of_lt hline) hpos
  exact takes_cursor.bind ((takes_next hle).bind (takes_moveTo ⟨hstart, hpos, hline⟩))

theorem Takes.loop_again {step : Walk Bool} {n : Nat} (h : Takes source c step true c')
    (h' : Takes source c' (loop n step) () c'') : Takes source c (loop (n + 1) step) () c'' := by
  rw [loop]
  exact h.bind h'

theorem Takes.loop_end {step : Walk Bool} {n : Nat} (h : Takes source c step false c') :
    Takes source c (loop (n + 1) step) () c' := by
  rw [loop]
  exact h.bind (Takes.pure ())

end Takes

/-! ## Bytes of a source -/

/-- The number of bytes of characters. -/
def size (cs : List Char) : Nat := (cs.flatMap String.utf8EncodeChar).length

theorem size_append (a b : List Char) : size (a ++ b) = size a + size b := by
  rw [size, List.flatMap_append, List.length_append]
  rfl

theorem size_singleton_of_lt {c : Char} (h : c.toNat < 128) : size [c] = 1 := by
  rw [size, List.flatMap_singleton, String.utf8EncodeChar_of_lt h]
  rfl

theorem size_cons (c : Char) (cs : List Char) : size (c :: cs) = size [c] + size cs :=
  size_append [c] cs

theorem utf8ByteSize_eq_size (s : String) : s.utf8ByteSize = size s.toList := by
  rw [size, ← String.toList_toUTF8, Array.length_toList]
  rfl

theorem size_pos {cs : List Char} (h : cs ≠ []) : 0 < size cs := by
  obtain ⟨c, cs, rfl⟩ := List.exists_cons_of_ne_nil h
  have hpos : 0 < size [c] := by
    -- No character is encoded by no bytes at all.
    rw [size, List.flatMap_singleton]
    exact List.length_pos_iff.2 String.utf8EncodeChar_ne_nil
  rw [size_cons]
  exact Nat.add_pos_left hpos _

theorem count_le_size (c : Char) (cs : List Char) : cs.count c ≤ size cs := by
  induction cs with
  | nil => exact Nat.le_refl _
  | cons d cs ih =>
    -- Each line feed that is counted is a character, which has a byte at least.
    have hpos := size_pos (List.cons_ne_nil d [])
    rw [size_cons, List.count_cons]
    split <;> omega

section Source

variable {source : String} {front rest : List Char}

/-- The bytes behind the characters that were read are those of the characters that follow. -/
theorem drop_size (h : source.toList = front ++ rest) :
    source.toUTF8.data.toList.drop (size front) = rest.flatMap String.utf8EncodeChar := by
  rw [String.toList_toUTF8, h, List.flatMap_append]
  exact List.drop_left

theorem isValid_size (h : source.toList = front ++ rest) :
    String.Pos.Raw.IsValid source ⟨size front⟩ := by
  refine String.Pos.Raw.isValid_iff_exists_append.2
    ⟨String.ofList front, String.ofList rest, ?_, ?_⟩
  -- The boundary is where the text of the front ends and that of the rest begins.
  · rw [← String.ofList_append, ← h, String.ofList_toList]
  · rw [String.rawEndPos, utf8ByteSize_eq_size, String.toList_ofList]

theorem size_le (h : source.toList = front ++ rest) : size front ≤ source.utf8ByteSize := by
  rw [utf8ByteSize_eq_size, h, size_append]
  exact Nat.le_add_right _ _

theorem size_lt (h : source.toList = front ++ rest) (hrest : rest ≠ []) :
    size front < source.utf8ByteSize := by
  rw [utf8ByteSize_eq_size, h, size_append]
  exact Nat.lt_add_of_pos_right (size_pos hrest)

theorem byteAt_eq (i : Nat) : byteAt source i = (source.toUTF8.data.toList.drop i).head? := by
  rw [byteAt, List.head?_drop]

theorem lt_of_byteAt {i : Nat} {b : UInt8} (h : byteAt source i = some b) :
    i < source.utf8ByteSize := by
  obtain ⟨hi, -⟩ := List.getElem?_eq_some_iff.1 h
  rwa [String.toList_toUTF8, ← size, ← utf8ByteSize_eq_size] at hi

/-- The bytes of characters that stand in the source are a text. -/
theorem slice?_eq {text : List Char} (h : source.toList = front ++ text ++ rest) :
    slice? source (size front) (size (front ++ text)) = some (String.ofList text) := by
  have hfront : source.toList = front ++ (text ++ rest) := by rw [h, List.append_assoc]
  have hle : size front ≤ size (front ++ text) := by rw [size_append]; exact Nat.le_add_right _ _
  -- The bytes of the source are those before the text, those of the text and those behind it.
  have hbytes : source.toUTF8.extract (size front) (size (front ++ text)) =
      (text.flatMap String.utf8EncodeChar).toByteArray := by
    have hsize (cs : List Char) : size cs = (cs.flatMap String.utf8EncodeChar).toByteArray.size :=
      List.size_toByteArray.symm
    rw [String.toUTF8_eq_toByteArray_flatMap, h, List.flatMap_append, List.toByteArray_append,
      hsize (front ++ text), ByteArray.extract_append_size_left, List.flatMap_append,
      List.toByteArray_append]
    exact ByteArray.extract_append_eq_right (hsize front) ByteArray.size_append
  rw [slice?, if_pos ⟨hle, isValid_size hfront, isValid_size h⟩, hbytes,
    String.fromUTF8?_flatMap_utf8EncodeChar]

theorem takes_slice {c : Cursor} {text : List Char} (h : source.toList = front ++ text ++ rest) :
    Takes source c (slice source (size front) (size (front ++ text))) (String.ofList text) c := by
  have hfront : source.toList = front ++ (text ++ rest) := by rw [h, List.append_assoc]
  have hle : size front ≤ size (front ++ text) := by rw [size_append]; exact Nat.le_add_right _ _
  have hsafe : (Event.sliced (size front) (size (front ++ text))).Safe source :=
    ⟨hle, size_le h, isValid_size hfront, isValid_size h⟩
  exact (takes_note hsafe rfl).bind (takes_some (slice?_eq h))

end Source

/-! ## Runs of bytes -/

section Runs

variable {source : String} {c : Cursor}

theorem takes_peek : Takes source c (peek source) (byteAt source c.pos) c :=
  takes_cursor.bind (Takes.pure _)

theorem takes_peekSecond (h : c.pos < source.utf8ByteSize) :
    Takes source c (peekSecond source) (byteAt source (c.pos + 1)) c :=
  takes_cursor.bind ((takes_next (Nat.le_of_lt h)).bind (Takes.pure _))

theorem takes_bump {b : UInt8} (h : (Event.moved c).Safe source)
    (hb : byteAt source c.pos = some b) :
    Takes source c (bump source) (some b) { c with pos := c.pos + 1 } := by
  have hpeek : Takes source c (peek source) (some b) c := hb ▸ takes_peek
  exact hpeek.bind ((takes_advance h (lt_of_byteAt hb)).bind (Takes.pure _))

/-- The bytes of the source from a position on. -/
def bytesFrom (source : String) (i : Nat) : List UInt8 := source.toUTF8.data.toList.drop i

theorem takes_peek_of_bytesFrom {left : List UInt8} (h : bytesFrom source c.pos = left) :
    Takes source c (peek source) left.head? c := by
  rw [← h, bytesFrom, ← byteAt_eq]
  exact takes_peek

/-- The next byte of those that are left, and what is left behind it. -/
theorem of_bytesFrom_eq_cons {i : Nat} {b : UInt8} {left : List UInt8}
    (h : bytesFrom source i = b :: left) :
    i < source.utf8ByteSize ∧ bytesFrom source (i + 1) = left := by
  constructor
  -- A byte that is found is one of the source, so its position is before the end.
  · refine lt_of_byteAt (b := b) ?_
    rw [byteAt_eq, ← bytesFrom, h]
    rfl
  · rw [bytesFrom, ← List.drop_drop, ← bytesFrom, h]
    rfl

/-- There are enough rounds for all bytes that are left. -/
theorem length_bytesFrom_lt (source : String) (i : Nat) :
    (bytesFrom source i).length < rounds source := by
  rw [rounds, bytesFrom, List.length_drop, String.toList_toUTF8, ← size, ← utf8ByteSize_eq_size]
  omega

theorem takes_eatIf {p : Char → Bool} {b : UInt8} {left : List UInt8}
    (h : (Event.moved c).Safe source) (hleft : bytesFrom source c.pos = b :: left)
    (hp : p (Char.ofUInt8 b)) :
    Takes source c (eatIf source p) true { c with pos := c.pos + 1 } := by
  refine (takes_peek_of_bytesFrom hleft).bind ?_
  rw [List.head?_cons]
  -- The condition is of the byte that was seen, which the match has to be told.
  show Takes source c (if p (Char.ofUInt8 b) then _ else _) _ _
  rw [if_pos hp]
  exact (takes_advance h (of_bytesFrom_eq_cons hleft).1).bind (Takes.pure _)

theorem takes_eatIf_of_not {p : Char → Bool}
    (hp : (bytesFrom source c.pos).head?.any (fun b => p (Char.ofUInt8 b)) = false) :
    Takes source c (eatIf source p) false c := by
  refine (takes_peek_of_bytesFrom rfl).bind ?_
  cases hhead : (bytesFrom source c.pos).head? with
  | none => exact Takes.pure _
  | some b =>
    rw [hhead, Option.any_some] at hp
    show Takes source c (if p (Char.ofUInt8 b) then _ else _) _ _
    rw [hp]
    exact Takes.pure _

theorem takes_loop_eatIf {p : Char → Bool} {n : Nat} {left : List UInt8}
    (h : (Event.moved c).Safe source) (hleft : bytesFrom source c.pos = left)
    (hn : left.length < n) :
    Takes source c (loop n (eatIf source p)) ()
      { c with pos := c.pos + (left.takeWhile fun b => p (Char.ofUInt8 b)).length } := by
  -- By induction on the bytes that are left. Each round reads one, so the rounds suffice.
  induction left generalizing c n with
  | nil =>
    cases n with
    | zero => omega
    | succ n => exact (takes_eatIf_of_not (by rw [hleft]; rfl)).loop_end
  | cons b left ih =>
    rw [List.length_cons] at hn
    cases n with
    | zero => omega
    | succ n =>
      -- The run goes on behind this byte, or ends before it.
      rw [List.takeWhile_cons]
      by_cases hb : p (Char.ofUInt8 b)
      · obtain ⟨hpos, hleft'⟩ := of_bytesFrom_eq_cons hleft
        rw [if_pos hb, List.length_cons, Nat.add_comm (List.length _) 1, ← Nat.add_assoc]
        exact (takes_eatIf h hleft hb).loop_again
          (ih (safe_succ_pos h hpos) hleft' (Nat.lt_of_succ_lt_succ hn))
      · rw [if_neg hb]
        exact (takes_eatIf_of_not (by simpa [hleft] using hb)).loop_end

theorem takes_eatWhile {p : Char → Bool} (h : (Event.moved c).Safe source) :
    Takes source c (eatWhile source p) ()
      { c with pos := c.pos +
        ((bytesFrom source c.pos).takeWhile fun b => p (Char.ofUInt8 b)).length } :=
  takes_loop_eatIf h rfl (length_bytesFrom_lt source c.pos)

theorem takes_countLineFeed {b : UInt8} (h : (Event.moved c).Safe source) (hline : c.line < c.pos) :
    Takes source c (countLineFeed b) () { c with line := c.line + [b].count '\n'.toUInt8 } := by
  have hiff := Char.ofUInt8_eq_iff (c := '\n') (by decide) (b := b)
  rw [countLineFeed]
  by_cases hb : b = '\n'.toUInt8
  · rw [if_pos (hiff.2 hb), hb, List.count_singleton_self]
    exact takes_nextLine h hline
  · rw [if_neg (mt hiff.1 hb), List.count_eq_zero.2 (by simpa using Ne.symm hb)]
    exact Takes.pure ()

theorem takes_eatOfString {b : UInt8} {left : List UInt8} (h : (Event.moved c).Safe source)
    (hline : c.line < c.pos) (hleft : bytesFrom source c.pos = b :: left)
    (hb : Char.ofUInt8 b ≠ '"') :
    Takes source c (eatOfString source) true
      { c with pos := c.pos + 1, line := c.line + [b].count '\n'.toUInt8 } := by
  have hcount : [b].count '\n'.toUInt8 ≤ 1 := List.count_le_length
  -- Between its two moves the cursor may have counted the line feed but not passed its byte.
  have hcounted : (Event.moved { c with line := c.line + [b].count '\n'.toUInt8 }).Safe source :=
    ⟨h.1, h.2.1, by dsimp only; omega⟩
  refine (takes_peek_of_bytesFrom hleft).bind ?_
  rw [List.head?_cons]
  show Takes source c (if Char.ofUInt8 b = '"' then _ else _) _ _
  rw [if_neg hb]
  exact (takes_countLineFeed h hline).bind
    ((takes_advance hcounted (of_bytesFrom_eq_cons hleft).1).bind (Takes.pure _))

theorem takes_eatOfString_of_not
    (hb : ∀ b ∈ (bytesFrom source c.pos).head?, Char.ofUInt8 b = '"') :
    Takes source c (eatOfString source) false c := by
  refine (takes_peek_of_bytesFrom rfl).bind ?_
  cases hhead : (bytesFrom source c.pos).head? with
  | none => exact Takes.pure _
  | some b =>
    show Takes source c (if Char.ofUInt8 b = '"' then _ else _) _ _
    rw [if_pos (hb b hhead)]
    exact Takes.pure _

theorem takes_loop_eatOfString {n : Nat} {left : List UInt8} (h : (Event.moved c).Safe source)
    (hline : c.line < c.pos) (hleft : bytesFrom source c.pos = left) (hn : left.length < n) :
    Takes source c (loop n (eatOfString source)) ()
      (let body := left.takeWhile fun b => Char.ofUInt8 b ≠ '"'
      { c with pos := c.pos + body.length, line := c.line + body.count '\n'.toUInt8 }) := by
  -- By induction on the bytes that are left. The quote is a byte but no line feed, and so there are
  -- more bytes than line feeds in front of every byte of the string.
  induction left generalizing c n with
  | nil =>
    cases n with
    | zero => omega
    | succ n => exact (takes_eatOfString_of_not (by simp [hleft])).loop_end
  | cons b left ih =>
    rw [List.length_cons] at hn
    cases n with
    | zero => omega
    | succ n =>
      rw [List.takeWhile_cons]
      by_cases hquote : Char.ofUInt8 b = '"'
      · rw [if_neg (by simpa using hquote)]
        exact (takes_eatOfString_of_not (by simpa [hleft] using hquote)).loop_end
      · have hread := takes_eatOfString h hline hleft hquote
        have hcount : [b].count '\n'.toUInt8 ≤ 1 := List.count_le_length
        obtain ⟨hpos, hleft'⟩ := of_bytesFrom_eq_cons hleft
        have hsafe : (Event.moved { c with
            pos := c.pos + 1, line := c.line + [b].count '\n'.toUInt8 }).Safe source :=
          ⟨Nat.le_succ_of_le h.1, hpos, by dsimp only; omega⟩
        have hrest := ih hsafe (by dsimp only; omega) hleft' (Nat.lt_of_succ_lt_succ hn)
        rw [if_pos (by simpa using hquote), ← List.singleton_append]
        dsimp only
        rw [List.length_append, List.count_append, ← Nat.add_assoc, ← Nat.add_assoc]
        exact hread.loop_again hrest

theorem takes_eatString (h : (Event.moved c).Safe source) (hline : c.line < c.pos) :
    Takes source c (eatString source) ()
      (let body := (bytesFrom source c.pos).takeWhile fun b => Char.ofUInt8 b ≠ '"'
      { c with pos := c.pos + body.length, line := c.line + body.count '\n'.toUInt8 }) :=
  takes_loop_eatOfString h hline rfl (length_bytesFrom_lt source c.pos)

end Runs

/-! ## Between characters -/

/-- The cursor of a walk that has read characters since the item began. -/
def mark (front read : List Char) : Cursor :=
  ⟨size front, size (front ++ read), front.count '\n', (front ++ read).count '\n'⟩

section Marks

variable {source : String} {front read rest : List Char}

theorem safe_mark (h : source.toList = front ++ read ++ rest) :
    (Event.moved (mark front read)).Safe source := by
  -- The item began no later than the cursor stands, and it has no more line feeds than bytes.
  refine ⟨?_, size_le h, count_le_size '\n' (front ++ read)⟩
  rw [mark, size_append]
  exact Nat.le_add_right _ _

theorem mark_append (run : List Char) :
    mark front (read ++ run) = { mark front read with
      pos := (mark front read).pos + size run
      line := (mark front read).line + run.count '\n' } := by
  simp only [mark, ← List.append_assoc, size_append, List.count_append]

/-- A run without line feeds moves nothing but the next byte. -/
theorem mark_append_of_not_mem {run : List Char} (h : '\n' ∉ run) :
    mark front (read ++ run) =
      { mark front read with pos := (mark front read).pos + size run } := by
  rw [mark_append, List.count_eq_zero.2 h]
  rfl

theorem mark_append_singleton {a : Char} (ha : a.toNat < 128) (hlf : a ≠ '\n') :
    mark front (read ++ [a]) = { mark front read with pos := (mark front read).pos + 1 } := by
  rw [mark_append_of_not_mem (by simpa using hlf.symm), size_singleton_of_lt ha]

theorem bytesFrom_mark (h : source.toList = front ++ read ++ rest) :
    bytesFrom source (mark front read).pos = rest.flatMap String.utf8EncodeChar := drop_size h

/-- The byte behind characters is a character of ASCII exactly if this character follows. -/
theorem byteAt_mark_eq_iff {a : Char} (ha : a.toNat < 128)
    (h : source.toList = front ++ read ++ rest) :
    byteAt source (mark front read).pos = some a.toUInt8 ↔ rest.head? = some a := by
  rw [byteAt_eq, ← bytesFrom, bytesFrom_mark h, String.head?_flatMap_utf8EncodeChar_eq_iff ha]

/-- Behind a point the byte after the next is the first of what follows the point. -/
theorem takes_peekSecond_mark (h : source.toList = front ++ read ++ '.' :: rest) :
    Takes source (mark front read) (peekSecond source)
      (rest.flatMap String.utf8EncodeChar).head? (mark front read) := by
  -- The point is one byte, so the byte after the next begins the character behind the point.
  have hpoint : source.toList = front ++ (read ++ ['.']) ++ rest := by simpa using h
  have hpos := lt_of_byteAt ((byteAt_mark_eq_iff (by decide) h).2 rfl)
  have hpeek := takes_peekSecond hpos
  have hmark : (mark front (read ++ ['.'])).pos = (mark front read).pos + 1 := by
    rw [mark_append_singleton (by decide) (by decide)]
  rwa [byteAt_eq, ← bytesFrom, ← hmark, bytesFrom_mark hpoint] at hpeek

theorem takes_advance_mark {a : Char} (ha : a.toNat < 128) (hlf : a ≠ '\n')
    (h : source.toList = front ++ read ++ a :: rest) :
    Takes source (mark front read) advance () (mark front (read ++ [a])) := by
  rw [mark_append_singleton ha hlf]
  exact takes_advance (safe_mark h) (lt_of_byteAt ((byteAt_mark_eq_iff ha h).2 rfl))

theorem takes_eat_mark {a : Char} (ha : a.toNat < 128) (hlf : a ≠ '\n')
    (h : source.toList = front ++ read ++ a :: rest) :
    Takes source (mark front read) (eat source a) true (mark front (read ++ [a])) := by
  -- A character of ASCII is a single byte, so that a step over a byte is a step over it.
  have hleft := bytesFrom_mark h
  rw [List.flatMap_cons, String.utf8EncodeChar_of_lt ha, List.singleton_append] at hleft
  rw [mark_append_singleton ha hlf]
  exact takes_eatIf (safe_mark h) hleft (decide_eq_true (Char.ofUInt8_toUInt8_of_lt ha))

theorem takes_eat_mark_of_ne {a : Char} (ha : a.toNat < 128) (hne : rest.head? ≠ some a)
    (h : source.toList = front ++ read ++ rest) :
    Takes source (mark front read) (eat source a) false (mark front read) := by
  -- Of the characters beyond ASCII none is this one, so their bytes are refused like themselves.
  have huniform : Char.UniformBeyondAscii (· = a) := by
    apply Char.uniformBeyondAscii_of_forall_lt
    intro c hc
    rwa [of_decide_eq_true hc]
  refine takes_eatIf_of_not ?_
  rw [bytesFrom_mark h, List.any_head?_flatMap_utf8EncodeChar huniform]
  cases rest with
  | nil => rfl
  | cons c rest => simpa using hne

/-- A run of bytes is read as the run of characters it encodes. -/
theorem takes_eatWhile_mark {p : Char → Bool} (hp : Char.UniformBeyondAscii p)
    (hlf : p '\n' = false) (h : source.toList = front ++ read ++ rest) :
    Takes source (mark front read) (eatWhile source p) ()
      (mark front (read ++ rest.takeWhile p)) := by
  -- Of the run nothing is counted but bytes.
  have hrun : '\n' ∉ rest.takeWhile p := fun hmem => by
    simpa [hlf] using List.mem_takeWhile_imp hmem
  have hsize := takes_eatWhile (p := p) (safe_mark h)
  rwa [bytesFrom_mark h, List.takeWhile_flatMap_utf8EncodeChar hp, ← size,
    ← mark_append_of_not_mem hrun]
    at hsize

/-- The characters up to a quote are read, whatever bytes they have. -/
theorem takes_eatString_mark (h : source.toList = front ++ ['"'] ++ rest) :
    Takes source (mark front ['"']) (eatString source) ()
      (mark front (['"'] ++ rest.takeWhile (· ≠ '"'))) := by
  have hsafe := safe_mark h
  -- The quote is a byte without a line feed.
  have hline : (mark front ['"']).line < (mark front ['"']).pos := by
    have hle := count_le_size '\n' front
    have hquote : size ['"'] = 1 := rfl
    simp [mark, size_append, hquote]
    omega
  have hread := takes_eatString hsafe hline
  -- The run of bytes before a quote is that of the characters before it, with as many line feeds.
  rw [bytesFrom_mark h,
    List.takeWhile_flatMap_utf8EncodeChar (Char.uniformBeyondAscii_ne (by decide))] at hread
  dsimp only at hread
  rwa [String.count_flatMap_utf8EncodeChar (by decide), ← size, ← mark_append] at hread

theorem takes_lexeme (h : source.toList = front ++ read ++ rest) :
    Takes source (mark front read) (lexeme source) (String.ofList read) (mark front read) :=
  takes_cursor.bind (takes_slice h)

theorem takes_token {kind : Kind} {literal : Option Literal}
    (h : source.toList = front ++ read ++ rest) :
    Takes source (mark front read) (token source kind literal)
      (.ok (some ⟨kind, String.ofList read, literal, front.count '\n'⟩)) (mark front read) :=
  (takes_lexeme h).bind (takes_cursor.bind (Takes.pure _))

end Marks

end LoxLexer.Bytewise
