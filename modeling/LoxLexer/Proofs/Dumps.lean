import Mathlib.Data.List.Forall2
import Mathlib.Data.List.Nodup
import LoxLexer.Render
import LoxLexer.Proofs.Escapes
import LoxLexer.Proofs.Json.Numbers

/-!
# Reading dumps

An indented dump is made of lines, and as no name, text or number in it has a line feed, its lines
are the ones that it was made of. A field that is plain text has one line, and a tagged text has
three, the first of which ends otherwise, so the fields of a record are known from its lines one
after another, and so are the records of a list.

What the fields of a token hold is known from their texts: strings are escaped, numbers are written
so that they read back, and labels differ. Only not-a-number is written alike whatever its bits are.

## Key results

- `Dump.splitOn_list`: the lines of a dump
- `Dump.list_inj`: records with the same field names are known from their dump
- `Double.display_inj`: numbers are known from their texts
- `dumpTokens_tells_tokens`: what the dump of tokens tells about them
-/

namespace LoxLexer

/-! ## The lines of a dump -/

namespace Dump

/-- The texts of a value. -/
def Value.texts : Value → List String
  | plain text => [text]
  | tagged tag text => [tag, text]

/-- No name or text in the record has a line feed. -/
structure Record.Unbroken (r : Record) : Prop where
  name : '\n' ∉ r.name.toList
  fields : ∀ field ∈ r.fields, '\n' ∉ field.1.toList ∧
    ∀ text ∈ field.2.texts, '\n' ∉ text.toList

theorem lineFeed_not_mem_indent {line : String} (h : '\n' ∉ line.toList) :
    '\n' ∉ (indent line).toList := by
  simp [indent, h]

theorem lineFeed_not_mem_fieldLines {name : String} {value : Value} (hname : '\n' ∉ name.toList)
    (hvalue : ∀ text ∈ value.texts, '\n' ∉ text.toList) :
    ∀ line ∈ fieldLines name value, '\n' ∉ line.toList := by
  cases value with
  | plain text =>
    have htext : '\n' ∉ text.toList := hvalue text (by simp [Value.texts])
    simp [fieldLines, hname, htext]
  | tagged tag text =>
    have htag : '\n' ∉ tag.toList := hvalue tag (by simp [Value.texts])
    have htext : '\n' ∉ text.toList := hvalue text (by simp [Value.texts])
    simp [fieldLines, indent, hname, htag, htext]

/-- The lines of an unbroken record are not broken. -/
theorem Record.Unbroken.lineFeed_not_mem {r : Record} (h : r.Unbroken) :
    ∀ line ∈ r.lines, '\n' ∉ line.toList := by
  intro line hline
  simp only [Record.lines, List.mem_append, List.mem_singleton, List.mem_map,
    List.mem_flatMap] at hline
  obtain (rfl | ⟨line, ⟨⟨name, value⟩, hfield, hline⟩, rfl⟩) | rfl := hline
  · simp [h.name]
  · obtain ⟨hname, hvalue⟩ := h.fields _ hfield
    exact lineFeed_not_mem_indent (lineFeed_not_mem_fieldLines hname hvalue line hline)
  · decide

theorem lineFeed_not_mem_listLines {records : List Record} (h : ∀ r ∈ records, r.Unbroken) :
    ∀ line ∈ listLines records, '\n' ∉ line.toList := by
  rw [listLines]
  split
  · decide
  · intro line hline
    simp only [List.mem_append, List.mem_singleton, List.mem_map, List.mem_flatMap] at hline
    obtain (rfl | ⟨line, ⟨r, hr, hline⟩, rfl⟩) | rfl := hline
    · decide
    · exact lineFeed_not_mem_indent ((h r hr).lineFeed_not_mem line hline)
    · decide

/-- The lines of a dump are those that it is made of. -/
theorem splitOn_list {records : List Record} (h : ∀ r ∈ records, r.Unbroken) :
    (list records).toList.splitOn '\n' = (listLines records).map String.toList := by
  -- Splitting no lines at all would give one empty line, but there is always a line.
  have hne : (listLines records).map String.toList ≠ [] := by
    rw [listLines]
    split <;> simp
  rw [list, String.toList_intercalate]
  exact List.splitOn_intercalate '\n' (List.forall_mem_map.2 (lineFeed_not_mem_listLines h)) hne

/-- The brackets of a list that is not empty take a line each. -/
theorem length_listLines {records : List Record} (h : records ≠ []) :
    (listLines records).length = 2 + (records.flatMap Record.lines).length := by
  rw [listLines, if_neg (by simp [h])]
  simp only [List.length_append, List.length_map, List.length_singleton]
  omega

/-! ## Records of a dump -/

/-- The line of a plain text ends with a comma, and the line that opens a tag does not. -/
theorem plain_line_ne_tagged_line (name text tag : String) :
    name ++ ": " ++ text ++ "," ≠ name ++ ": " ++ tag ++ "(" := by
  intro h
  -- A comma and a parenthesis at the end of the characters are different.
  have hchars := congrArg String.toList h
  simp at hchars

theorem indent_inj {line line' : String} (h : indent line = indent line') : line = line' :=
  (String.append_right_inj _).1 h

/-- A value is known from the lines of its field, whatever lines follow. -/
theorem fieldLines_append_inj {name : String} {value value' : Value} {x y : List String}
    (h : (fieldLines name value).map indent ++ x = (fieldLines name value').map indent ++ y) :
    value = value' ∧ x = y := by
  -- The first line tells the two kinds of value apart, and then tells how many lines to take.
  cases value with
  | plain text =>
    cases value' with
    | plain text' => simpa [fieldLines, indent] using h
    | tagged tag' text' =>
      exact absurd (indent_inj (List.cons.inj h).1) (plain_line_ne_tagged_line name text tag')
  | tagged tag text =>
    cases value' with
    | plain text' =>
      exact absurd (indent_inj (List.cons.inj h).1).symm (plain_line_ne_tagged_line name text' tag)
    | tagged tag' text' =>
      simpa [fieldLines, indent, and_assoc] using h

/-- Fields are known from their lines and their names, whatever lines follow. -/
theorem flatMap_fieldLines_append_inj {fields fields' : List (String × Value)}
    (hnames : fields.map Prod.fst = fields'.map Prod.fst) {x y : List String}
    (h : (fields.flatMap fun (name, value) => fieldLines name value).map indent ++ x =
      (fields'.flatMap fun (name, value) => fieldLines name value).map indent ++ y) :
    fields = fields' ∧ x = y := by
  -- The names go along with the fields, and every field leaves the lines behind it to the next.
  induction fields generalizing fields' with
  | nil =>
    obtain rfl : fields' = [] := List.map_eq_nil_iff.1 hnames.symm
    exact ⟨rfl, by simpa using h⟩
  | cons field fields ih =>
    obtain ⟨name, value⟩ := field
    cases fields' with
    | nil => cases hnames
    | cons field' fields' =>
      obtain ⟨name', value'⟩ := field'
      obtain ⟨rfl, hnames'⟩ : name = name' ∧ fields.map Prod.fst = fields'.map Prod.fst :=
        List.cons.inj hnames
      simp only [List.flatMap_cons, List.map_append, List.append_assoc] at h
      obtain ⟨rfl, hrest⟩ := fieldLines_append_inj h
      obtain ⟨rfl, hxy⟩ := ih hnames' hrest
      exact ⟨rfl, hxy⟩

/-- A record is known from its lines and the names of its fields, whatever lines follow. -/
theorem lines_append_inj {r r' : Record} (hnames : r.fields.map Prod.fst = r'.fields.map Prod.fst)
    {x y : List String} (h : r.lines ++ x = r'.lines ++ y) : r = r' ∧ x = y := by
  obtain ⟨name, fields⟩ := r
  obtain ⟨name', fields'⟩ := r'
  simp only [Record.lines, List.append_assoc] at h
  -- The name of the record is its first line, and the bracket behind its fields is its last.
  obtain ⟨hname, hlines⟩ := List.cons.inj h
  obtain rfl := (String.append_left_inj _).1 hname
  obtain ⟨rfl, hrest⟩ := flatMap_fieldLines_append_inj hnames hlines
  exact ⟨rfl, (List.cons.inj hrest).2⟩

/-- Records with the same field names are known from their dump. -/
theorem list_inj {names : List String} {records records' : List Record}
    (hnames : ∀ r ∈ records, r.fields.map Prod.fst = names)
    (hnames' : ∀ r ∈ records', r.fields.map Prod.fst = names)
    (hunbroken : ∀ r ∈ records, r.Unbroken) (hunbroken' : ∀ r ∈ records', r.Unbroken)
    (h : list records = list records') : records = records' := by
  have hlines : listLines records = listLines records' := by
    rw [← List.map_inj_right fun _ _ => String.toList_inj.1, ← splitOn_list hunbroken, h,
      splitOn_list hunbroken']
  -- The first line tells an empty list from others, and between the brackets stand the records.
  cases records with
  | nil =>
    cases records' with
    | nil => rfl
    | cons r' records' => simp [listLines] at hlines
  | cons r records =>
    cases records' with
    | nil => simp [listLines] at hlines
    | cons r' records' =>
      have hmap := List.append_cancel_right (List.cons.inj hlines).2
      apply List.flatMap_inj_of_append_inj (fun r => by simp [Record.lines]) ?_
        ((List.map_inj_right fun _ _ => indent_inj).1 hmap)
      intro q hq q' hq' x y hxy
      exact lines_append_inj ((hnames q hq).trans (hnames' q' hq').symm) hxy

end Dump

/-! ## Numbers -/

namespace Double

/-- What is written for a finite double reads back, and nothing else is read as a number. -/
theorem read_display (x : Double) :
    (Json.Read.number x.display.toList).map (·.1.double) = if x.isFinite then some x else none := by
  by_cases hfinite : x.isFinite
  · have hlt : x.magnitude < infinityMagnitude := of_decide_eq_true hfinite
    have hnan : x.isNaN = false := decide_eq_false (Nat.lt_asymm hlt)
    obtain ⟨n, -, hn, hread⟩ :=
      Json.exists_number_render NumberStyle.plain (.inr rfl) hfinite
    have hnumber := hread [] (by rintro _ ⟨⟩)
    rw [List.append_nil] at hnumber
    rw [display, if_neg (by simp [hnan]), if_pos hfinite, hnumber, if_pos hfinite, ← hn]
    rfl
  · -- The words for the other doubles begin with no digit, nor does what is behind the minus.
    rw [display, if_neg hfinite, if_neg hfinite]
    split_ifs <;> rfl

/-- A double that is not finite is not-a-number or an infinity. -/
theorem magnitude_eq_of_not_isFinite {x : Double} (hfinite : ¬ x.isFinite) (hnan : ¬ x.isNaN) :
    x.magnitude = infinityMagnitude := by
  simp only [isFinite, isNaN, decide_eq_true_eq] at hfinite hnan
  omega

/-- Infinities are known from their texts. -/
theorem display_inj_of_not_isFinite {x y : Double} (hx : ¬ x.isFinite) (hy : ¬ y.isFinite)
    (h : x.display = y.display) : x = y ∨ x.isNaN ∧ y.isNaN := by
  rw [display, display, if_neg hx, if_neg hy] at h
  by_cases hxnan : x.isNaN
  · refine .inr ⟨hxnan, ?_⟩
    by_contra hynan
    -- Neither infinity has the word for not-a-number.
    rw [if_pos hxnan, if_neg hynan] at h
    split at h <;> exact absurd h (by decide)
  · by_cases hynan : y.isNaN
    · rw [if_neg hxnan, if_pos hynan] at h
      split at h <;> exact absurd h (by decide)
    · left
      have hmagnitude := magnitude_eq_of_not_isFinite hx hxnan
      rw [← magnitude_eq_of_not_isFinite hy hynan] at hmagnitude
      rw [if_neg hxnan, if_neg hynan] at h
      refine eq_of_magnitude_eq ?_ hmagnitude
      cases hxsign : x.isNegative <;> cases hysign : y.isNegative <;> simp [hxsign, hysign] at h ⊢

/-- Numbers are known from their texts, and not-a-number has a text of its own. -/
theorem display_inj {x y : Double} (h : x.display = y.display) : x = y ∨ x.isNaN ∧ y.isNaN := by
  have hread := (read_display x).symm.trans (h ▸ read_display y)
  -- One text reads back as one double or as none, so both are finite or neither is.
  by_cases hx : x.isFinite <;> by_cases hy : y.isFinite
  · rw [if_pos hx, if_pos hy, Option.some.injEq] at hread
    exact .inl hread
  · rw [if_pos hx, if_neg hy] at hread
    cases hread
  · rw [if_neg hx, if_pos hy] at hread
    cases hread
  · exact display_inj_of_not_isFinite hx hy h

end Double

/-! ## Tokens -/

/-- Literals that are the same, or that are both not-a-number. -/
inductive Literal.Alike : Literal → Literal → Prop where
  | refl (literal : Literal) : Alike literal literal
  | nan {x y : Double} (hx : x.isNaN) (hy : y.isNaN) : Alike (number x) (number y)

/-- Tokens that are the same field by field, but for the bits of not-a-number. -/
structure Token.Alike (t t' : Token) : Prop where
  kind_eq : t.kind = t'.kind
  lexeme_eq : t.lexeme = t'.lexeme
  literal_alike : Option.Rel Literal.Alike t.literal t'.literal
  line_eq : t.line = t'.line

theorem Kind.label_inj {k k' : Kind} (h : k.label = k'.label) : k = k' := by
  -- The labels are a finite table, so that this is a fact about the table.
  have hnodup : (Kind.all.map Kind.label).Nodup := by decide +kernel
  exact List.inj_on_of_nodup_map hnodup k.mem_all k'.mem_all h

theorem Kind.lineFeed_not_mem_label (k : Kind) : '\n' ∉ k.label.toList := by
  have hall : ∀ k ∈ Kind.all, '\n' ∉ k.label.toList := by decide +kernel
  exact hall k k.mem_all

theorem Literal.alike_of_display_eq {x y : Double} (h : x.display = y.display) :
    Literal.Alike (.number x) (.number y) := by
  obtain rfl | ⟨hx, hy⟩ := Double.display_inj h
  · exact .refl _
  · exact .nan hx hy

/-- Strings are known from their quoted forms. -/
theorem Dump.string_inj {content content' : String}
    (h : Dump.string content = Dump.string content') : content = content' :=
  String.toList_inj.1 (quotedBy_inj (.inl rfl) h)

theorem Dump.lineFeed_not_mem_string (content : String) :
    '\n' ∉ (Dump.string content).toList :=
  lineFeed_not_mem_quotedBy (by decide) content.toList

theorem toString_inj {m n : Nat} (h : toString m = toString n) : m = n := by
  rw [Nat.toString_eq_ofList_toDigits, Nat.toString_eq_ofList_toDigits, String.ofList_inj] at h
  exact Nat.toDigits_inj (by decide) (by decide) h

namespace Token

/-- Literals that are dumped alike are alike: the tag tells strings from numbers. -/
theorem alike_of_dumpLiteral_eq {kind kind' : Kind} {lexeme lexeme' : String} {line line' : Nat}
    {l l' : Literal} (h : dumpLiteral ⟨kind, lexeme, some l, line⟩ =
      dumpLiteral ⟨kind', lexeme', some l', line'⟩) : l.Alike l' := by
  cases l with
  | text content =>
    cases l' with
    | text content' =>
      injection h with _ hstring
      rw [Dump.string_inj hstring]
      exact .refl _
    | number y =>
      injection h with htag
      exact absurd htag (by decide)
  | number x =>
    cases l' with
    | text content' =>
      injection h with htag
      exact absurd htag (by decide)
    | number y =>
      injection h with _ hdisplay
      exact Literal.alike_of_display_eq hdisplay

/-- Tokens give the same value for their literals exactly when these are alike. -/
theorem dumpLiteral_eq_iff {t t' : Token} :
    t.dumpLiteral = t'.dumpLiteral ↔ Option.Rel Literal.Alike t.literal t'.literal := by
  obtain ⟨kind, lexeme, literal, line⟩ := t
  obtain ⟨kind', lexeme', literal', line'⟩ := t'
  constructor
  · intro h
    -- No literal and each kind of literal have values of different shapes.
    cases literal with
    | none =>
      cases literal' with
      | none => exact .none
      | some l' => cases l' <;> cases h
    | some l =>
      cases literal' with
      | none => cases l <;> cases h
      | some l' => exact .some (alike_of_dumpLiteral_eq h)
  · intro h
    cases h with
    | none => rfl
    | some h =>
      cases h with
      | refl => rfl
      | nan hx hy => simp [dumpLiteral, Double.display, hx, hy]

/-- Tokens give the same record exactly when they are alike. -/
theorem toDump_eq_iff {t t' : Token} : t.toDump = t'.toDump ↔ t.Alike t' := by
  constructor
  · intro h
    simp only [toDump, Dump.Record.mk.injEq, List.cons.injEq, Prod.mk.injEq, true_and,
      Dump.Value.plain.injEq, and_true] at h
    -- Each field is known from its text, in its own way.
    obtain ⟨hlabel, hlexeme, hliteral, hline⟩ := h
    exact ⟨Kind.label_inj hlabel, Dump.string_inj hlexeme, dumpLiteral_eq_iff.1 hliteral,
      toString_inj hline⟩
  · rintro ⟨hkind, hlexeme, hliteral, hline⟩
    rw [toDump, toDump, hkind, hlexeme, dumpLiteral_eq_iff.2 hliteral, hline]

theorem lineFeed_not_mem_dumpLiteral (t : Token) :
    ∀ text ∈ t.dumpLiteral.texts, '\n' ∉ text.toList := by
  rw [dumpLiteral]
  split
  · decide
  · rename_i content _
    simpa [Dump.Value.texts] using Dump.lineFeed_not_mem_string content
  · rename_i value _
    simpa [Dump.Value.texts] using value.lineFeed_not_mem_display

/-- No text in the record of a token has a line feed. -/
theorem unbroken_toDump (t : Token) : t.toDump.Unbroken where
  name := by
    show '\n' ∉ "Token".toList
    decide
  fields := by
    have hline : '\n' ∉ (toString t.line).toList := by
      rw [Nat.toString_eq_ofList_toDigits, String.toList_ofList]
      exact lineFeed_not_mem_toDigits t.line
    -- The lines of the four fields, of which the literal alone may have more than one text.
    simp only [toDump, List.forall_mem_cons, Dump.Value.texts]
    refine ⟨⟨by decide, ?_, List.forall_mem_nil _⟩, ⟨by decide, ?_, List.forall_mem_nil _⟩,
      ⟨by decide, t.lineFeed_not_mem_dumpLiteral⟩, ⟨by decide, hline, List.forall_mem_nil _⟩,
      List.forall_mem_nil _⟩
    · exact t.kind.lineFeed_not_mem_label
    · exact Dump.lineFeed_not_mem_string t.lexeme

/-- A token takes six lines, and two more if it has a literal. -/
theorem length_lines_toDump (t : Token) :
    t.toDump.lines.length = if t.literal.isSome then 8 else 6 := by
  obtain ⟨kind, lexeme, literal, line⟩ := t
  cases literal with
  | none => rfl
  | some literal => cases literal <;> rfl

end Token

/-! ## Lists of tokens -/

theorem forall_mem_map_toDump {P : Dump.Record → Prop} (h : ∀ t : Token, P t.toDump)
    (tokens : List Token) : ∀ r ∈ tokens.map Token.toDump, P r :=
  List.forall_mem_map.2 fun t _ => h t

theorem map_toDump_eq_iff {tokens tokens' : List Token} :
    tokens.map Token.toDump = tokens'.map Token.toDump ↔
      List.Forall₂ Token.Alike tokens tokens' := by
  rw [← List.forall₂_eq_eq_eq, List.forall₂_map_left_iff, List.forall₂_map_right_iff]
  simp only [Token.toDump_eq_iff]

/-- The lines that tokens take, by the number of those with a literal. -/
theorem length_flatMap_lines_toDump (tokens : List Token) :
    ((tokens.map Token.toDump).flatMap Dump.Record.lines).length =
      6 * tokens.countP (·.literal.isNone) + 8 * tokens.countP (·.literal.isSome) := by
  induction tokens with
  | nil => rfl
  | cons t tokens ih =>
    rw [List.map_cons, List.flatMap_cons, List.length_append, ih, t.length_lines_toDump,
      List.countP_cons, List.countP_cons]
    -- Whether this token has a literal decides what it adds, six lines or eight.
    cases t.literal <;> simp <;> omega

/-- The dump of tokens has two lines for the list, six for each token without a literal and eight
    for each with one, whatever their texts are. Two lists of tokens have the same dump exactly when
    they are the same token by token and field by field, numbers bit for bit but for
    not-a-number. -/
theorem dumpTokens_tells_tokens (tokens : List Token) :
    (tokens ≠ [] → ((dumpTokens tokens).toList.splitOn '\n').length =
      2 + 6 * tokens.countP (·.literal.isNone) + 8 * tokens.countP (·.literal.isSome)) ∧
    ∀ tokens', dumpTokens tokens = dumpTokens tokens' ↔
      List.Forall₂ Token.Alike tokens tokens' := by
  have hunbroken := forall_mem_map_toDump Token.unbroken_toDump
  have hnames := forall_mem_map_toDump
    (P := fun r => r.fields.map Prod.fst = ["kind", "lexeme", "literal", "line"]) fun _ => rfl
  refine ⟨fun hne => ?_, fun tokens' => ?_⟩
  · rw [dumpTokens, Dump.splitOn_list (hunbroken tokens), List.length_map,
      Dump.length_listLines (mt List.map_eq_nil_iff.1 hne), length_flatMap_lines_toDump,
      Nat.add_assoc]
  · rw [← map_toDump_eq_iff]
    constructor
    · exact Dump.list_inj (hnames tokens) (hnames tokens') (hunbroken tokens) (hunbroken tokens')
    · exact fun h => congrArg Dump.list h

/-- A line feed in a string breaks no line, and it is told apart from the escape that it is written
    as. -/
theorem dumpTokens_tells_tokens_of_line_feed :
    ([⟨.string, "\"\n\"", some (.text "\n"), 0⟩, Token.eof 1] : List Token) ≠ [] ∧
    ((dumpTokens [⟨.string, "\"\n\"", some (.text "\n"), 0⟩,
      Token.eof 1]).toList.splitOn '\n').length = 16 ∧
    dumpTokens [⟨.string, "\"\n\"", some (.text "\n"), 0⟩, Token.eof 1] ≠
      dumpTokens [⟨.string, "\"\n\"", some (.text "\\n"), 0⟩, Token.eof 1] := by
  obtain ⟨hlines, htells⟩ :=
    dumpTokens_tells_tokens [⟨.string, "\"\n\"", some (.text "\n"), 0⟩, Token.eof 1]
  have htext {a b : String} (h : Option.Rel Literal.Alike (some (.text a)) (some (.text b))) :
      a = b := by
    cases h with
    | some h =>
      cases h
      rfl
  refine ⟨List.cons_ne_nil _ _, hlines (List.cons_ne_nil _ _), fun h => ?_⟩
  obtain ⟨halike, -⟩ := List.forall₂_cons.1 ((htells _).1 h)
  exact absurd (htext halike.literal_alike) (by decide)

end LoxLexer
