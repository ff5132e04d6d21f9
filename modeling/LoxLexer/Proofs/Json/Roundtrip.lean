import Mathlib.Data.List.Forall2
import LoxLexer.Proofs.Json.Numbers
import LoxLexer.Render

/-!
# Reading records back

The text of an array of records is read as an array of objects with the same fields in the same
order, whatever characters and numbers stand in the fields. Character by character what is written
in a string is read back, so the first quote that is not escaped ends it; field by field and record
by record what was read ends where the text of the part ends.

## Key results

- `Json.Read.characters_flatMap_escape`: the characters of a string are read back
- `Json.exists_value_render`: the text of a scalar is read as what it means
- `Json.array_reads_back`: the text of an array is read as its records
- `Json.tokensToJson_reads_back`: tokens are read as objects that have all that is in a token
-/

namespace LoxLexer.Json

namespace Read

/-! ## Strings -/

theorem hexDigit_digitChar {n : Nat} (h : n < 16) : hexDigit (Nat.digitChar n) = some n := by
  have hall : ∀ m < 16, hexDigit (Nat.digitChar m) = some m := by decide
  exact hall n h

/-- A character that is written by its code. -/
theorem escaped_code {c : Char} (h : c.toNat < 32) (cs : List Char) :
    escaped ('u' :: '0' :: '0' :: Nat.digitChar (c.toNat / 16) ::
      Nat.digitChar (c.toNat % 16) :: cs) = some (c, cs) := by
  have hunit : codeUnit ('0' :: '0' :: Nat.digitChar (c.toNat / 16) ::
      Nat.digitChar (c.toNat % 16) :: cs) = some (c.toNat, cs) := by
    -- The two zeros count for nothing, and the other digits are the halves of the code.
    have hvalue : 256 * (16 * 0 + 0) + (16 * (c.toNat / 16) + c.toNat % 16) = c.toNat := by omega
    have hzero : hexDigit '0' = some 0 := rfl
    have hhigh := hexDigit_digitChar (by omega : c.toNat / 16 < 16)
    have hlow := hexDigit_digitChar (by omega : c.toNat % 16 < 16)
    simp only [codeUnit, hzero, hhigh, hlow, Option.bind_eq_bind, Option.bind_some, hvalue]
    rfl
  -- A control character is too small for either half of a larger one.
  have hfirst : isFirstHalf c.toNat = false := by
    simp only [isFirstHalf, Bool.and_eq_false_iff, decide_eq_false_iff_not]
    omega
  have hsecond : isSecondHalf c.toNat = false := by
    simp only [isSecondHalf, Bool.and_eq_false_iff, decide_eq_false_iff_not]
    omega
  simp [escaped, unicode, hunit, hfirst, hsecond]

theorem characters_escaped {c : Char} {cs rest : List Char} (h : escaped cs = some (c, rest)) :
    characters ('\\' :: cs) = (characters rest).map fun r => (c :: r.1, r.2) := by
  rw [characters.eq_3]
  split
  next hnone => rw [h] at hnone; cases hnone
  next c' rest' hsome =>
    obtain ⟨rfl, rfl⟩ := Prod.mk.inj (Option.some.inj (h.symm.trans hsome))
    cases characters rest with
    | none => rfl
    | some r => rfl

/-- What is written for a character is read as this character. -/
theorem characters_escape (c : Char) (cs : List Char) :
    characters (escape c ++ cs) = (characters cs).map fun r => (c :: r.1, r.2) := by
  unfold escape
  -- Seven characters have escapes of their own.
  iterate 7
    split
    · next h => subst h; exact characters_escaped rfl
  split
  · next h => exact characters_escaped (escaped_code h cs)
  -- All other characters stand for themselves.
  next hquote hbackslash _ _ _ _ _ hcontrol =>
  rw [List.singleton_append, characters.eq_4 _ _ hquote hbackslash, if_neg hcontrol]
  cases characters cs with
  | none => rfl
  | some r => rfl

/-- The characters of a string are read back, up to its quote. -/
theorem characters_flatMap_escape (content rest : List Char) :
    characters (content.flatMap escape ++ '"' :: rest) = some (content, rest) := by
  induction content with
  | nil => exact characters.eq_2 rest
  -- Each escape is read as its character, however long it is.
  | cons c content ih =>
    rw [List.flatMap_cons, List.append_assoc, characters_escape, ih]
    rfl

theorem string_flatMap_escape (content : String) (rest : List Char) :
    string (content.toList.flatMap escape ++ '"' :: rest) = some (content, rest) := by
  simp [string, characters_flatMap_escape]

/-! ## Reading one part -/

variable {bound : Nat} {cs cs' rest : List Char}

theorem skip_cons {c : Char} (h : c.isWhitespace = false) (cs : List Char) :
    skip (c :: cs) = c :: cs := by
  simp [skip, h]

/-- Blanks are passed over, also before values, members and items. -/
theorem skip_blank {c : Char} (h : c.isWhitespace = true) (cs : List Char) :
    skip (c :: cs) = skip cs := by
  simp [skip, h]

theorem value_blank {c : Char} (h : c.isWhitespace = true) (bound : Nat) (cs : List Char) :
    value bound (c :: cs) = value bound cs := by
  cases bound with
  | zero => rfl
  | succ bound => rw [value, value, skip_blank h]

theorem members_blank {c : Char} (h : c.isWhitespace = true) (bound : Nat) (cs : List Char) :
    members bound (c :: cs) = members bound cs := by
  cases bound with
  | zero => rfl
  | succ bound => rw [members, members, skip_blank h]

theorem items_blank {c : Char} (h : c.isWhitespace = true) (bound : Nat) (cs : List Char) :
    items bound (c :: cs) = items bound cs := by
  cases bound with
  | zero => rfl
  | succ bound => rw [items, items, value_blank h]

theorem value_of_string {content : String} (hskip : skip cs = '"' :: cs')
    (h : string cs' = some (content, rest)) :
    value (bound + 1) cs = some (.string content, rest) := by
  rw [value, hskip]
  simp [h]

/-- A number begins with a sign or a digit. -/
theorem eq_or_isDigit_of_number {c : Char} {cs : List Char} {result : Number × List Char}
    (h : number (c :: cs) = some result) : c = '-' ∨ c.isDigit := by
  by_cases hsign : c = '-'
  · exact .inl hsign
  right
  by_contra hdigit
  -- What is no digit is no zero either.
  have hne : ∀ cs', c :: cs ≠ '0' :: cs' := by
    rintro cs' heq
    exact hdigit ((List.cons.inj heq).1 ▸ rfl)
  have hdigits : digits (c :: cs) = none := by
    rw [digits, List.takeWhile_cons_of_neg hdigit]
  have hunsigned := number.eq_2 (c :: cs) fun _ heq => hsign (List.cons.inj heq).1
  rw [hunsigned, unsigned, whole.eq_2 _ hne, hdigits] at h
  cases h

/-- Where a number is read, it is the value. -/
theorem value_of_number {n : Number} (h : number cs = some (n, rest)) :
    value (bound + 1) cs = some (.number n, rest) := by
  cases cs with
  | nil => cases h
  | cons c cs =>
    have hne (c' : Char) (hother : ¬ (c' = '-' ∨ c'.isDigit)) : c ≠ c' := by
      rintro rfl
      exact hother (eq_or_isDigit_of_number h)
    have hblank : c.isWhitespace = false := by
      simp [Char.isWhitespace, hne ' ' (by decide), hne '\t' (by decide), hne '\r' (by decide),
        hne '\n' (by decide)]
    rw [value, skip_cons hblank]
    split
    case h_7 =>
      rw [h]
      rfl
    -- No other value begins like a number.
    all_goals
      next heq => exact absurd (List.cons.inj heq).1 (hne _ (by decide))

theorem value_of_members {ms : List (String × Value)} (hskip : skip cs = '{' :: cs')
    (h : members bound cs' = some (ms, rest)) : value (bound + 1) cs = some (.object ms, rest) := by
  -- An object that closes at once has no members to read.
  have hne : ∀ after, skip cs' ≠ '}' :: after := by
    intro after hclose
    cases bound with
    | zero => cases h
    | succ bound =>
      rw [members, hclose] at h
      cases h
  rw [value, hskip]
  simp [h]

theorem value_of_items {vs : List Value} (hskip : skip cs = '[' :: cs')
    (h : items bound cs' = some (vs, rest)) : value (bound + 1) cs = some (.array vs, rest) := by
  -- An array that closes at once has no items to read, because no value begins like its end.
  have hne : ∀ after, skip cs' ≠ ']' :: after := by
    intro after hclose
    -- A value that begins like the end of an array is none, whatever is left of the bound.
    have hnone (b : Nat) : value b cs' = none := by
      cases b with
      | zero => rfl
      | succ b =>
        rw [value, hclose]
        rfl
    cases bound with
    | zero => cases h
    | succ bound =>
      rw [items, hnone] at h
      cases h
  rw [value, hskip]
  simp [h]

theorem items_singleton {v : Value} {after : List Char} (hvalue : value bound cs = some (v, after))
    (hclose : skip after = ']' :: rest) : items (bound + 1) cs = some ([v], rest) := by
  rw [items, hvalue]
  simp [hclose]

theorem items_cons {v : Value} {vs : List Value} {after others : List Char}
    (hvalue : value bound cs = some (v, after)) (hcomma : skip after = ',' :: others)
    (hothers : items bound others = some (vs, rest)) :
    items (bound + 1) cs = some (v :: vs, rest) := by
  rw [items, hvalue]
  simp [hcomma, hothers]

end Read

/-! ## Scalars -/

/-- What the text of a scalar means. -/
inductive Scalar.Means : Scalar → Value → Prop
  | null : Means .null .null
  | string (content : String) : Means (.string content) (.string content)
  | natural {value : Nat} {n : Number} (h : n.natural? = some value) :
    Means (.natural value) (.number n)
  /-- A finite double is never written as an integer. -/
  | double {value : Double} {n : Number} (hfinite : value.isFinite = true)
    (hinteger : n.isInteger = false) (hvalue : n.double = value) : Means (.double value) (.number n)
  | notFinite {value : Double} (h : value.isFinite = false) : Means (.double value) .null

theorem toList_quote (content : String) :
    (quote content).toList = '"' :: (content.toList.flatMap escape ++ ['"']) := by
  rw [quote, String.toList_ofList]
  rfl

/-- The text of a scalar is read as what it means. -/
theorem exists_value_render (s : Scalar) :
    ∃ v, s.Means v ∧ ∀ bound rest, NumberEnd rest →
      Read.value (bound + 1) (s.render.toList ++ rest) = some (v, rest) := by
  -- Each scalar is read by the part of the reader that its first character calls.
  cases s with
  | null => exact ⟨.null, .null, fun _ _ _ => rfl⟩
  | string content =>
    refine ⟨.string content, .string content, fun bound rest _ => ?_⟩
    rw [Scalar.render, toList_quote, List.cons_append, List.append_assoc, List.singleton_append]
    exact Read.value_of_string (Read.skip_cons rfl _) (Read.string_flatMap_escape content rest)
  | natural value =>
    obtain ⟨n, hn, hread⟩ := exists_number_toDigits value
    refine ⟨.number n, .natural hn, fun bound rest hrest => ?_⟩
    rw [Scalar.render, Nat.toString_eq_ofList_toDigits, String.toList_ofList]
    exact Read.value_of_number (hread rest hrest)
  | double x =>
    cases hx : x.isFinite with
    | true =>
      obtain ⟨n, hinteger, hvalue, hread⟩ :=
        exists_number_render numberStyle (.inl rfl) hx
      refine ⟨.number n, .double hx hinteger hvalue, fun bound rest hrest => ?_⟩
      rw [Scalar.render, if_pos hx]
      exact Read.value_of_number (hread rest hrest)
    | false =>
      refine ⟨.null, .notFinite hx, fun bound rest hrest => ?_⟩
      rw [Scalar.render, hx, if_neg Bool.false_ne_true]
      rfl

/-! ## Records -/

/-- Parts on lines of their own, with a comma after each but the last. -/
def commaLines (parts : List (List Char)) : List Char := [',', '\n'].intercalate parts

theorem commaLines_singleton (part : List Char) : commaLines [part] = part :=
  List.intercalate_singleton

theorem commaLines_cons_cons (part next : List Char) (parts : List (List Char)) :
    commaLines (part :: next :: parts) = part ++ ',' :: '\n' :: commaLines (next :: parts) := by
  rw [commaLines, List.intercalate_cons_cons, List.append_assoc]
  rfl

/-- A field is read as a member with its name and what its scalar means. -/
def FieldMeans (field : String × Scalar) (m : String × Value) : Prop :=
  m.1 = field.1 ∧ field.2.Means m.2

/-- A record is read as an object with its fields in their order. -/
def Record.Means (r : Record) (v : Value) : Prop :=
  ∃ ms, v = .object ms ∧ List.Forall₂ FieldMeans r ms

/-- The text of a field on its line. -/
def fieldText (field : String × Scalar) : List Char :=
  "    ".toList ++ '"' :: (field.1.toList.flatMap escape ++
    '"' :: ':' :: ' ' :: field.2.render.toList)

/-- The lines of a record. -/
def recordText (r : Record) : List Char := r.indented.toList

theorem recordText_eq (r : Record) :
    recordText r = "  \x7b\n".toList ++ commaLines (r.map fieldText) ++ "\n  \x7d".toList := by
  have hfield : (String.toList ∘ fun (field : String × Scalar) =>
      "    " ++ quote field.1 ++ ": " ++ field.2.render) = fieldText := by
    funext field
    simp [fieldText, toList_quote]
  simp only [recordText, Record.indented, String.toList_append, String.toList_intercalate,
    List.map_map, hfield]
  rfl

/-- A field is read up to what follows it, and what follows decides whether it is the last. -/
theorem exists_members_fieldText (field : String × Scalar) :
    ∃ m, FieldMeans field m ∧ ∀ bound after, NumberEnd after →
      (∀ rest, Read.skip after = '}' :: rest →
        Read.members (bound + 2) (fieldText field ++ after) = some ([m], rest)) ∧
      ∀ others ms rest, Read.skip after = ',' :: others →
        Read.members (bound + 1) others = some (ms, rest) →
          Read.members (bound + 2) (fieldText field ++ after) = some (m :: ms, rest) := by
  obtain ⟨name, s⟩ := field
  obtain ⟨v, hv, hread⟩ := exists_value_render s
  refine ⟨(name, v), ⟨rfl, hv⟩, fun bound after hafter => ?_⟩
  -- Behind the indent stand the name, a colon, a blank and the scalar, each read with all that
  -- follows it as the rest.
  have htext : Read.skip (fieldText (name, s) ++ after) =
      '"' :: (name.toList.flatMap escape ++ '"' :: ':' :: ' ' :: (s.render.toList ++ after)) := by
    simp [fieldText, Read.skip]
  have hname := Read.string_flatMap_escape name (':' :: ' ' :: (s.render.toList ++ after))
  have hcolon := Read.skip_cons (c := ':') rfl (' ' :: (s.render.toList ++ after))
  have hvalue : Read.value (bound + 1) (' ' :: (s.render.toList ++ after)) = some (v, after) := by
    rw [Read.value_blank rfl, hread bound after hafter]
  constructor
  · intro rest hclose
    rw [Read.members, htext]
    simp [hname, hcolon, hvalue, hclose]
  · intro others ms rest hcomma hothers
    rw [Read.members, htext]
    simp [hname, hcolon, hvalue, hcomma, hothers]

theorem two_le_length_fieldText (field : String × Scalar) : 2 ≤ (fieldText field).length := by
  simp [fieldText]

/-- The lines of fields are read as members, up to the end of the record. -/
theorem exists_members_fieldsText (field : String × Scalar) (fields : Record) :
    ∃ ms, List.Forall₂ FieldMeans (field :: fields) ms ∧ ∀ bound rest,
      (commaLines (fieldText field :: fields.map fieldText)).length ≤ bound →
        Read.members bound (commaLines (fieldText field :: fields.map fieldText) ++
          ("\n  \x7d".toList ++ rest)) = some (ms, rest) := by
  induction fields generalizing field with
  | nil =>
    obtain ⟨m, hm, hread⟩ := exists_members_fieldText field
    refine ⟨[m], .cons hm .nil, fun bound rest hbound => ?_⟩
    rw [List.map_nil, commaLines_singleton] at hbound ⊢
    -- Two parts are begun, the member and its value, and the bound allows for both.
    have hlength := two_le_length_fieldText field
    obtain ⟨b, rfl⟩ := Nat.exists_eq_add_of_le' (Nat.le_trans hlength hbound)
    exact (hread b _ (numberEnd_cons rfl (by decide) _)).1 rest rfl
  | cons next fields ih =>
    obtain ⟨m, hm, hread⟩ := exists_members_fieldText field
    obtain ⟨ms, hms, hothers⟩ := ih next
    refine ⟨m :: ms, .cons hm hms, fun bound rest hbound => ?_⟩
    rw [List.map_cons, commaLines_cons_cons] at hbound ⊢
    simp only [List.length_append, List.length_cons] at hbound
    obtain ⟨b, rfl⟩ := Nat.exists_eq_add_of_le' (by omega : 2 ≤ bound)
    -- The comma says that members follow, and they begin behind a line feed.
    have hnext : Read.members (b + 1)
        ('\n' :: (commaLines (fieldText next :: fields.map fieldText) ++
          ("\n  \x7d".toList ++ rest))) = some (ms, rest) := by
      rw [Read.members_blank rfl]
      exact hothers _ _ (by omega)
    rw [List.append_assoc]
    exact (hread b _ (numberEnd_cons rfl (by decide) _)).2 _ _ _ rfl hnext

/-- The text of a record is read as what it means. -/
theorem exists_value_recordText (r : Record) :
    ∃ v, r.Means v ∧ ∀ bound rest, (recordText r).length ≤ bound →
      Read.value bound (recordText r ++ rest) = some (v, rest) := by
  rw [recordText_eq]
  cases r with
  | nil =>
    -- Without fields the braces have nothing but blanks between them.
    refine ⟨.object [], ⟨[], rfl, .nil⟩, fun bound rest hbound => ?_⟩
    obtain ⟨b, rfl⟩ := Nat.exists_eq_add_of_le' (Nat.le_trans (by decide : 1 ≤ _) hbound)
    rfl
  | cons field fields =>
    obtain ⟨ms, hms, hread⟩ := exists_members_fieldsText field fields
    refine ⟨.object ms, ⟨ms, rfl, hms⟩, fun bound rest hbound => ?_⟩
    have hopen : ("  \x7b\n".toList).length = 4 := rfl
    rw [List.map_cons, List.length_append, List.length_append, hopen] at hbound
    obtain ⟨b, rfl⟩ := Nat.exists_eq_add_of_le' (by omega : 1 ≤ bound)
    have hmembers : Read.members b ('\n' :: (commaLines (fieldText field :: fields.map fieldText) ++
        ("\n  \x7d".toList ++ rest))) = some (ms, rest) := by
      rw [Read.members_blank rfl]
      exact hread _ _ (by omega)
    rw [List.append_assoc, List.append_assoc]
    exact Read.value_of_members rfl hmembers

/-! ## Arrays of records -/

/-- The lines of records are read as items, up to the end of the array. -/
theorem exists_items_recordsText (r : Record) (records : List Record) :
    ∃ vs, List.Forall₂ Record.Means (r :: records) vs ∧ ∀ bound rest,
      (commaLines (recordText r :: records.map recordText)).length < bound →
        Read.items bound (commaLines (recordText r :: records.map recordText) ++
          '\n' :: ']' :: rest) = some (vs, rest) := by
  -- As for the fields of a record, with the record in place of the field.
  induction records generalizing r with
  | nil =>
    obtain ⟨v, hv, hread⟩ := exists_value_recordText r
    refine ⟨[v], .cons hv .nil, fun bound rest hbound => ?_⟩
    rw [List.map_nil, commaLines_singleton] at hbound ⊢
    obtain ⟨b, rfl⟩ := Nat.exists_eq_add_of_le' (by omega : 1 ≤ bound)
    exact Read.items_singleton (hread b _ (by omega)) rfl
  | cons next records ih =>
    obtain ⟨v, hv, hread⟩ := exists_value_recordText r
    obtain ⟨vs, hvs, hothers⟩ := ih next
    refine ⟨v :: vs, .cons hv hvs, fun bound rest hbound => ?_⟩
    rw [List.map_cons, commaLines_cons_cons] at hbound ⊢
    simp only [List.length_append, List.length_cons] at hbound
    obtain ⟨b, rfl⟩ := Nat.exists_eq_add_of_le' (by omega : 1 ≤ bound)
    have hnext : Read.items b ('\n' :: (commaLines (recordText next :: records.map recordText) ++
        '\n' :: ']' :: rest)) = some (vs, rest) := by
      rw [Read.items_blank rfl]
      exact hothers _ _ (by omega)
    rw [List.append_assoc]
    exact Read.items_cons (hread b _ (by omega)) rfl hnext

/-- The text of an array of records is read as an array of what they mean. -/
theorem array_reads_back (records : List Record) :
    ∃ vs, read? (array records) = some (.array vs) ∧ List.Forall₂ Record.Means records vs := by
  cases records with
  | nil => exact ⟨[], rfl, .nil⟩
  | cons r records =>
    obtain ⟨vs, hvs, hread⟩ := exists_items_recordsText r records
    refine ⟨vs, ?_, hvs⟩
    have htext : (array (r :: records)).toList =
        '[' :: '\n' :: (commaLines (recordText r :: records.map recordText) ++ ['\n', ']']) := by
      simp only [array, List.isEmpty_cons, String.toList_append, String.toList_intercalate,
        List.map_map, Bool.false_eq_true, if_false, List.append_assoc]
      rfl
    have hitems (b : Nat) (hb : (commaLines (recordText r :: records.map recordText)).length < b) :
        Read.items b ('\n' :: (commaLines (recordText r :: records.map recordText) ++
          ['\n', ']'])) = some (vs, []) := by
      rw [Read.items_blank rfl]
      exact hread b [] hb
    -- The bound of the reader is the length of the text, of which the lines are a part.
    rw [read?, htext, Read.value_of_items rfl (hitems _ (by simp; omega))]
    rfl

/-! ## Tokens -/

/-- What stands for the literal of a token. -/
inductive LiteralMeans : Option Literal → Value → Prop
  | none : LiteralMeans none .null
  | text (content : String) : LiteralMeans (some (.text content)) (.string content)
  | number {x : Double} {n : Number} (hfinite : x.isFinite = true) (hinteger : n.isInteger = false)
    (hvalue : n.double = x) : LiteralMeans (some (.number x)) (.number n)
  | notFinite {x : Double} (h : x.isFinite = false) : LiteralMeans (some (.number x)) .null

/-- What stands for a token: an object with its kind, its text, its literal and its line, in this
    order. -/
def TokenMeans (t : Token) (v : Value) : Prop :=
  ∃ literal line, LiteralMeans t.literal literal ∧ line.natural? = some t.line ∧
    v = .object [("kind", .string t.kind.name), ("lexeme", .string t.lexeme), ("literal", literal),
      ("line", .number line)]

theorem literalMeans_of_means {literal : Option Literal} {v : Value}
    (h : Scalar.Means ((literal.map Literal.toJson).getD .null) v) : LiteralMeans literal v := by
  -- The literal that is written decides which of the four meanings is left.
  match literal, h with
  | none, .null => exact .none
  | some (.text content), .string _ => exact .text content
  | some (.number _), .double hfinite hinteger hvalue => exact .number hfinite hinteger hvalue
  | some (.number _), .notFinite h => exact .notFinite h

theorem tokenMeans_of_means {t : Token} {v : Value} (h : t.toJson.Means v) : TokenMeans t v := by
  obtain ⟨ms, rfl, hms⟩ := h
  match ms, hms with
  | [(_, _), (_, _), (_, literal), (_, _)],
    .cons ⟨rfl, .string _⟩ (.cons ⟨rfl, .string _⟩ (.cons ⟨rfl, hliteral⟩
      (.cons ⟨rfl, .natural (n := line) hline⟩ .nil))) =>
    -- What is read is the label of the kind, spelled as the name.
    rw [Kind.kebabLabel_eq_name]
    exact ⟨literal, line, literalMeans_of_means hliteral, hline, rfl⟩

/-- The text of tokens is a JSON text and is read as an array with an object for each token, in
    order, from which the token can be told: its strings and its line are exact, and a finite number
    is written with a point or an exponent and read as the same double. -/
theorem tokensToJson_reads_back (tokens : List Token) :
    ∃ objects, read? (tokensToJson tokens) = some (.array objects) ∧
      List.Forall₂ TokenMeans tokens objects := by
  obtain ⟨objects, hread, hmeans⟩ := array_reads_back (tokens.map Token.toJson)
  refine ⟨objects, hread, ?_⟩
  rw [List.forall₂_map_left_iff] at hmeans
  exact hmeans.imp fun _ _ => tokenMeans_of_means

end LoxLexer.Json
