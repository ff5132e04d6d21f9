import Mathlib.Data.List.Nodup
import LoxLexer.Text.Escape
import LoxLexer.Proofs.Runs

/-!
# Telling escaped texts apart

A character is written as it is, or as a backslash and another character, or as a backslash and its
number in braces. No escape is the beginning of another one: the character behind the backslash
decides between the last two, and a number ends at its brace. So the characters of an escaped text
can be read one by one, and two texts with the same escapes are the same. No escape has a line feed,
as line feeds are among the characters that are written otherwise.

## Key results

- `Nat.toDigits_inj`: numbers are known by their digits
- `EscapeForm.append_inj`: the first character of an escaped text is known by its escape
- `quotedBy_inj`: texts are known by their quoted forms
- `lineFeed_not_mem_quotedBy`: a quoted text is on one line
-/

namespace Nat

/-- The digits of a number in a base up to sixteen are different characters. -/
theorem digitChar_inj_of_lt {m n : Nat} (hm : m < 16) (hn : n < 16)
    (h : digitChar m = digitChar n) : m = n := by
  -- There are few enough pairs of digits to try them all.
  have hall : ∀ m < 16, ∀ n < 16, digitChar m = digitChar n → m = n := by decide
  exact hall m hm n hn h

/-- Numbers are known by their digits. -/
theorem toDigits_inj {b : Nat} (hb : 1 < b) (hb' : b ≤ 16) {m n : Nat}
    (h : toDigits b m = toDigits b n) : m = n := by
  -- The last digits are equal, and so are the digits of what is left by dividing.
  induction m using Nat.strongRecOn generalizing n with
  | ind m ih =>
    have hm := Nat.mod_lt m (Nat.zero_lt_of_lt hb)
    have hn := Nat.mod_lt n (Nat.zero_lt_of_lt hb)
    -- A number below the base has one digit, and any other has digits in front of its last one.
    rcases Nat.lt_or_ge m b with hlt | hge <;> rcases Nat.lt_or_ge n b with hlt' | hge'
    · rw [toDigits_of_lt_base hlt, toDigits_of_lt_base hlt', List.singleton_inj] at h
      exact digitChar_inj_of_lt (by omega) (by omega) h
    · rw [toDigits_of_lt_base hlt, toDigits_of_base_le hb hge', List.singleton_eq_append_iff] at h
      simp [toDigits_ne_nil] at h
    · rw [toDigits_of_base_le hb hge, toDigits_of_lt_base hlt', List.append_eq_singleton_iff] at h
      simp [toDigits_ne_nil] at h
    · rw [toDigits_of_base_le hb hge, toDigits_of_base_le hb hge', List.append_singleton_inj] at h
      have hquotient := ih (m / b) (Nat.div_lt_self (by omega) hb) h.1
      have hrest := digitChar_inj_of_lt (by omega) (by omega) h.2
      rw [← Nat.div_add_mod m b, ← Nat.div_add_mod n b, hquotient, hrest]

/-- What is the character of no digit is not among the digits of a number. -/
theorem not_mem_toDigits {b : Nat} (hb : 1 < b) {c : Char} (hc : ∀ d, digitChar d ≠ c) (n : Nat) :
    c ∉ toDigits b n := by
  induction n using Nat.strongRecOn with
  | ind n ih =>
    rcases Nat.lt_or_ge n b with hlt | hge
    · rw [toDigits_of_lt_base hlt, List.mem_singleton]
      exact (hc n).symm
    · rw [toDigits_of_base_le hb hge, List.mem_append, List.mem_singleton]
      rintro (hmem | hmem)
      · exact ih (n / b) (Nat.div_lt_self (by omega) hb) hmem
      · exact hc _ hmem.symm

end Nat

namespace LoxLexer

/-! ## The forms of escapes -/

/-- The characters that are written as a backslash and another character, with this character. -/
def shortEscapes (quote : Char) : List (Char × Char) :=
  [('\x00', '0'), ('\t', 't'), ('\n', 'n'), ('\r', 'r'), ('\\', '\\'), (quote, quote)]

/-- The ways of writing a character. -/
inductive EscapeForm (quote c : Char) : List Char → Prop where
  | short {d : Char} (h : (c, d) ∈ shortEscapes quote) : EscapeForm quote c ['\\', d]
  | number : EscapeForm quote c ('\\' :: 'u' :: '{' :: Nat.toDigits 16 c.toNat ++ ['}'])
  | plain (h : ∀ d, (c, d) ∉ shortEscapes quote) : EscapeForm quote c [c]

theorem escapeForm_escapeIn (quote c : Char) : EscapeForm quote c (escapeIn quote c) := by
  unfold escapeIn
  -- Each test leaves its own form, and where all of them fail the character is plain.
  split_ifs with hnul htab hlf hcr hbackslash hquote
  · exact .short (by simp [shortEscapes, hnul])
  · exact .short (by simp [shortEscapes, htab])
  · exact .short (by simp [shortEscapes, hlf])
  · exact .short (by simp [shortEscapes, hcr])
  · exact .short (by simp [shortEscapes, hbackslash])
  · exact .short (by simp [shortEscapes, hquote])
  · exact .number
  · exact .plain fun d => by
      simp [shortEscapes, hnul, htab, hlf, hcr, hbackslash, hquote]

variable {quote : Char}

/-- The characters behind the backslash are different, and none of them begins a number. -/
theorem nodup_shortEscapes (hquote : quote = '"' ∨ quote = '\x27') :
    ('u' :: (shortEscapes quote).map Prod.snd).Nodup := by
  obtain rfl | rfl := hquote <;> decide

theorem eq_of_mem_shortEscapes (hquote : quote = '"' ∨ quote = '\x27') {c c' d : Char}
    (h : (c, d) ∈ shortEscapes quote) (h' : (c', d) ∈ shortEscapes quote) : c = c' := by
  have hnodup := (List.nodup_cons.1 (nodup_shortEscapes hquote)).2
  exact congrArg Prod.fst (List.inj_on_of_nodup_map hnodup h h' rfl)

theorem ne_of_mem_shortEscapes (hquote : quote = '"' ∨ quote = '\x27') {c d : Char}
    (h : (c, d) ∈ shortEscapes quote) : d ≠ 'u' := by
  rintro rfl
  have hnumber := (List.nodup_cons.1 (nodup_shortEscapes hquote)).1
  exact hnumber (List.mem_map_of_mem h)

/-- A backslash is no character that is written as it is. -/
theorem EscapeForm.ne_backslash {c : Char} (h : ∀ d, (c, d) ∉ shortEscapes quote) : c ≠ '\\' := by
  rintro rfl
  exact h '\\' (by simp [shortEscapes])

theorem EscapeForm.ne_nil {c : Char} {e : List Char} (he : EscapeForm quote c e) : e ≠ [] := by
  cases he <;> exact List.cons_ne_nil _ _

/-- The first character of an escaped text is known by its escape, whatever follows. -/
theorem EscapeForm.append_inj (hquote : quote = '"' ∨ quote = '\x27') {c c' : Char}
    {e e' x y : List Char} (he : EscapeForm quote c e) (he' : EscapeForm quote c' e')
    (h : e ++ x = e' ++ y) : c = c' ∧ x = y := by
  -- The first character tells whether there is a backslash, and the second whether a number
  -- follows.
  cases he with
  | short hd =>
    cases he' with
    | short hd' =>
      obtain ⟨rfl, rfl⟩ := List.cons.inj (List.cons.inj h).2
      exact ⟨eq_of_mem_shortEscapes hquote hd hd', rfl⟩
    | number =>
      exact absurd (List.cons.inj (List.cons.inj h).2).1 (ne_of_mem_shortEscapes hquote hd)
    | plain hplain => exact absurd (List.cons.inj h).1.symm (ne_backslash hplain)
  | number =>
    cases he' with
    | short hd' =>
      exact absurd (List.cons.inj (List.cons.inj h).2).1.symm (ne_of_mem_shortEscapes hquote hd')
    | number =>
      -- Both numbers end at the first brace.
      have hbrace : ∀ d, Nat.digitChar d ≠ '}' := fun d => Nat.digitChar_ne '}' (by decide)
      simp only [List.cons_append, List.cons.injEq, true_and, List.append_assoc] at h
      obtain ⟨hdigits, hrest⟩ := List.append_cons_inj_of_not_mem
        (Nat.not_mem_toDigits (by decide) hbrace _) (Nat.not_mem_toDigits (by decide) hbrace _) h
      have hcode := Nat.toDigits_inj (by decide) (by decide) hdigits
      exact ⟨Char.toNat_inj.1 hcode, hrest⟩
    | plain hplain => exact absurd (List.cons.inj h).1.symm (ne_backslash hplain)
  | plain hplain =>
    cases he' with
    | short | number => exact absurd (List.cons.inj h).1 (ne_backslash hplain)
    | plain => exact List.cons.inj h

theorem EscapeForm.lineFeed_not_mem (hquote : quote ≠ '\n') {c : Char} {e : List Char}
    (he : EscapeForm quote c e) : '\n' ∉ e := by
  cases he with
  | short hd =>
    -- The letters behind the backslash are printed, and so is the quote by assumption.
    have hletters : ∀ p ∈ shortEscapes quote, p.2 ≠ '\n' := by simp [shortEscapes, hquote]
    simpa using (hletters _ hd).symm
  | number =>
    have hdigits : '\n' ∉ Nat.toDigits 16 c.toNat :=
      Nat.not_mem_toDigits (by decide) (fun d => Nat.digitChar_ne '\n' (by decide)) _
    simpa using hdigits
  | plain hplain =>
    -- A line feed is written as a backslash and a letter.
    rw [List.mem_singleton]
    rintro rfl
    exact hplain 'n' (by simp [shortEscapes])

/-! ## Quoted texts -/

/-- Texts are known by their quoted forms. -/
theorem quotedBy_inj (hquote : quote = '"' ∨ quote = '\x27') {cs cs' : List Char}
    (h : quotedBy quote cs = quotedBy quote cs') : cs = cs' := by
  -- Between the quotes stand the escapes in a row, and no escape begins another.
  have hchars := List.append_cancel_right (List.cons.inj (String.ofList_inj.1 h)).2
  refine List.flatMap_inj_of_append_inj (fun c => (escapeForm_escapeIn quote c).ne_nil) ?_ hchars
  intro c _ c' _ x y hxy
  exact (escapeForm_escapeIn quote c).append_inj hquote (escapeForm_escapeIn quote c') hxy

/-- A quoted text is on one line. -/
theorem lineFeed_not_mem_quotedBy (hquote : quote ≠ '\n') (cs : List Char) :
    '\n' ∉ (quotedBy quote cs).toList := by
  have hescapes : '\n' ∉ cs.flatMap (escapeIn quote) := by
    intro hmem
    obtain ⟨c, _, hc⟩ := List.mem_flatMap.1 hmem
    exact (escapeForm_escapeIn quote c).lineFeed_not_mem hquote hc
  simp [quotedBy, hescapes, hquote.symm]

end LoxLexer
