/-!
# UTF-8 bytes of characters

Generic lemmas about `String.utf8EncodeChar`: a character of ASCII is its own byte, and this byte
does not occur in the bytes of any other character. A reader of bytes that looks for characters of
ASCII therefore finds what a reader of characters finds.

## Key results

- `String.toUInt8_mem_utf8EncodeChar_iff`: a byte of ASCII stands for its character only
- `List.takeWhile_flatMap_utf8EncodeChar`: a run of bytes is the bytes of a run of characters
- `String.toList_toUTF8`, `String.fromUTF8?_eq_some_iff`: a text and its bytes
- `String.count_lineFeed_byteList`: the line feeds of a text are those of its bytes
-/

namespace String

/-- A character of ASCII is its own byte. -/
theorem utf8EncodeChar_of_lt {c : Char} (h : c.toNat < 128) : utf8EncodeChar c = [c.toUInt8] := by
  have hle : c.val.toNat ≤ 127 := Nat.le_of_lt_succ h
  rw [utf8EncodeChar, if_pos hle]
  rfl

/-- No byte of a character beyond ASCII is the byte of a character of ASCII. -/
theorem le_toNat_of_mem_utf8EncodeChar {c : Char} {b : UInt8} (h : 128 ≤ c.toNat)
    (hb : b ∈ utf8EncodeChar c) : 128 ≤ b.toNat := by
  have hlt : ¬ c.val.toNat ≤ 127 := Nat.not_le.2 h
  rw [utf8EncodeChar, if_neg hlt] at hb
  -- The characters of two, three and four bytes: every byte has its highest bit set.
  split at hb
  · simp only [List.mem_cons, List.not_mem_nil, or_false] at hb
    obtain rfl | rfl := hb <;> (rw [UInt8.toNat_ofNat']; omega)
  · split at hb
    · simp only [List.mem_cons, List.not_mem_nil, or_false] at hb
      obtain rfl | rfl | rfl := hb <;> (rw [UInt8.toNat_ofNat']; omega)
    · simp only [List.mem_cons, List.not_mem_nil, or_false] at hb
      obtain rfl | rfl | rfl | rfl := hb <;> (rw [UInt8.toNat_ofNat']; omega)

theorem toNat_toUInt8_of_lt {c : Char} (h : c.toNat < 128) : c.toUInt8.toNat = c.toNat := by
  have hmod : c.toUInt8.toNat = c.toNat % 256 := UInt32.toNat_toUInt8 c.val
  omega

/-- A byte of ASCII occurs in the bytes of its own character only. -/
theorem toUInt8_mem_utf8EncodeChar_iff {a c : Char} (ha : a.toNat < 128) :
    a.toUInt8 ∈ utf8EncodeChar c ↔ c = a := by
  have hnat := toNat_toUInt8_of_lt ha
  constructor
  · intro hmem
    -- A byte of ASCII is the only byte of its character, and every other byte is too large for it.
    by_cases hc : c.toNat < 128
    · rw [utf8EncodeChar_of_lt hc, List.mem_singleton] at hmem
      have hnat' := toNat_toUInt8_of_lt hc
      rw [← hmem, hnat] at hnat'
      exact Char.toNat_inj.1 hnat'.symm
    · have := le_toNat_of_mem_utf8EncodeChar (by omega) hmem
      omega
  · rintro rfl
    rw [utf8EncodeChar_of_lt ha]
    exact List.mem_singleton_self _

/-- A character of ASCII occurs in the bytes of characters as often as among the characters. -/
theorem count_flatMap_utf8EncodeChar {a : Char} (ha : a.toNat < 128) (cs : List Char) :
    (cs.flatMap utf8EncodeChar).count a.toUInt8 = cs.count a := by
  induction cs with
  | nil => rfl
  | cons c cs ih =>
    rw [List.flatMap_cons, List.count_append, ih, List.count_cons]
    -- Characters and bytes are counted alike at the character itself, and not at all at others.
    by_cases hc : c = a
    · subst hc
      rw [utf8EncodeChar_of_lt ha, List.count_singleton_self, if_pos (beq_self_eq_true c),
        Nat.add_comm]
    · rw [List.count_eq_zero.2 (mt (toUInt8_mem_utf8EncodeChar_iff ha).1 hc),
        if_neg (by simpa using hc), Nat.zero_add, Nat.add_zero]

/-- The first byte of characters is a byte of ASCII exactly if their first character is. -/
theorem head?_flatMap_utf8EncodeChar_eq_iff {a : Char} (ha : a.toNat < 128) (cs : List Char) :
    (cs.flatMap utf8EncodeChar).head? = some a.toUInt8 ↔ cs.head? = some a := by
  cases cs with
  | nil => simp
  | cons c cs =>
    -- Every character has a first byte, and it is the first of them all.
    obtain ⟨b, bs, hbytes⟩ := List.exists_cons_of_ne_nil (utf8EncodeChar_ne_nil (c := c))
    rw [List.flatMap_cons, hbytes, List.cons_append, List.head?_cons, List.head?_cons,
      Option.some.injEq, Option.some.injEq]
    constructor
    · rintro rfl
      exact (toUInt8_mem_utf8EncodeChar_iff ha).1 (hbytes ▸ List.mem_cons_self)
    · rintro rfl
      rw [utf8EncodeChar_of_lt ha] at hbytes
      exact (List.cons.inj hbytes).1.symm

/-- The bytes of a text are those of its characters. -/
theorem toUTF8_eq_toByteArray_flatMap (s : String) :
    s.toUTF8 = (s.toList.flatMap utf8EncodeChar).toByteArray := by
  rw [String.toUTF8_eq_toByteArray, ← String.utf8Encode_toList, List.utf8Encode]

theorem toList_toUTF8 (s : String) :
    s.toUTF8.data.toList = s.toList.flatMap utf8EncodeChar := by
  rw [toUTF8_eq_toByteArray_flatMap, List.toList_data_toByteArray]

/-- The bytes of a text, as a list. -/
def byteList (s : String) : List UInt8 := s.toUTF8.data.toList

@[simp] theorem byteList_empty : byteList "" = [] := rfl

@[simp] theorem byteList_append (s t : String) :
    (s ++ t).byteList = s.byteList ++ t.byteList := by
  simp [byteList]

theorem byteList_join (texts : List String) : (join texts).byteList = texts.flatMap byteList := by
  induction texts with
  | nil => rfl
  | cons text texts ih => rw [join_cons, byteList_append, ih, List.flatMap_cons]

theorem length_byteList (s : String) : s.byteList.length = s.utf8ByteSize := by
  rw [byteList, Array.length_toList]
  rfl

/-- A text has as many line feeds as its bytes have. -/
theorem count_lineFeed_byteList (s : String) : s.byteList.count 10 = s.toList.count '\n' := by
  rw [byteList, toList_toUTF8]
  exact count_flatMap_utf8EncodeChar (a := '\n') (by decide) s.toList

/-- Bytes decode to the text that they are the bytes of. -/
theorem fromUTF8?_eq_some_iff {bytes : ByteArray} {text : String} :
    fromUTF8? bytes = some text ↔ bytes = text.toUTF8 := by
  rw [fromUTF8?]
  -- Decoding tests the bytes and then keeps them.
  split
  · rw [Option.some.injEq, ← toByteArray_inj]
    rfl
  · rename_i hinvalid
    refine iff_of_false (Option.some_ne_none text).symm ?_
    rintro rfl
    exact hinvalid text.isValidUTF8

/-- Bytes decode to a text exactly if they are valid. -/
theorem exists_fromUTF8?_eq_some_iff {bytes : ByteArray} :
    (∃ text, fromUTF8? bytes = some text) ↔ bytes.IsValidUTF8 := by
  rw [← Option.isSome_iff_exists, fromUTF8?]
  split
  · exact iff_of_true rfl ‹_›
  · exact iff_of_false Bool.false_ne_true ‹_›

/-- The bytes of characters decode to these characters. -/
theorem fromUTF8?_flatMap_utf8EncodeChar (cs : List Char) :
    fromUTF8? (cs.flatMap utf8EncodeChar).toByteArray = some (String.ofList cs) := by
  rw [fromUTF8?_eq_some_iff, toUTF8_eq_toByteArray_flatMap, toList_ofList]

end String

namespace Char

theorem toNat_ofUInt8 (b : UInt8) : (Char.ofUInt8 b).toNat = b.toNat := rfl

/-- A character of ASCII is read from its byte. -/
theorem ofUInt8_toUInt8_of_lt {c : Char} (h : c.toNat < 128) : Char.ofUInt8 c.toUInt8 = c := by
  rw [← Char.toNat_inj, toNat_ofUInt8, String.toNat_toUInt8_of_lt h]

theorem ofUInt8_eq_iff {c : Char} (h : c.toNat < 128) {b : UInt8} :
    Char.ofUInt8 b = c ↔ b = c.toUInt8 := by
  rw [← Char.toNat_inj, toNat_ofUInt8, ← UInt8.toNat_inj, String.toNat_toUInt8_of_lt h]

/-- A predicate that does not tell characters beyond ASCII apart. -/
def UniformBeyondAscii (p : Char → Bool) : Prop :=
  ∀ c d : Char, 128 ≤ c.toNat → 128 ≤ d.toNat → p c = p d

theorem uniformBeyondAscii_of_forall_lt {p : Char → Bool} (h : ∀ c, p c → c.toNat < 128) :
    UniformBeyondAscii p := by
  -- Such a predicate is false of all of them.
  have hfalse (c : Char) (hc : 128 ≤ c.toNat) : p c = false :=
    Bool.eq_false_iff.2 fun hp => absurd (h c hp) (Nat.not_lt.2 hc)
  intro c d hc hd
  rw [hfalse c hc, hfalse d hd]

theorem uniformBeyondAscii_ne {a : Char} (ha : a.toNat < 128) :
    UniformBeyondAscii (fun c => c ≠ a) := by
  have htrue (c : Char) (hc : 128 ≤ c.toNat) : decide (c ≠ a) = true := by
    refine decide_eq_true ?_
    rintro rfl
    omega
  exact fun c d hc hd => (htrue c hc).trans (htrue d hd).symm

/-- Such a predicate holds of the bytes of a character, each read as a character, if it holds of the
    character. -/
theorem UniformBeyondAscii.apply_ofUInt8 {p : Char → Bool} (hp : UniformBeyondAscii p) {c : Char}
    {b : UInt8} (hb : b ∈ String.utf8EncodeChar c) : p (Char.ofUInt8 b) = p c := by
  -- The character is its own byte, or its bytes are beyond ASCII as it is.
  by_cases hc : c.toNat < 128
  · rw [String.utf8EncodeChar_of_lt hc, List.mem_singleton] at hb
    rw [hb, ofUInt8_toUInt8_of_lt hc]
  · have hle : 128 ≤ c.toNat := by omega
    exact hp _ _ (String.le_toNat_of_mem_utf8EncodeChar hle hb) hle

end Char

namespace List

variable {p : Char → Bool}

/-- A run of bytes, each read as a character, is the bytes of a run of characters. -/
theorem takeWhile_flatMap_utf8EncodeChar (hp : Char.UniformBeyondAscii p) (cs : List Char) :
    (cs.flatMap String.utf8EncodeChar).takeWhile (fun b => p (Char.ofUInt8 b)) =
      (cs.takeWhile p).flatMap String.utf8EncodeChar := by
  induction cs with
  | nil => rfl
  | cons c cs ih =>
    rw [flatMap_cons, takeWhile_cons]
    -- The whole character belongs to the run, or its first byte ends the run.
    by_cases hc : p c
    · have hbytes : ∀ b ∈ String.utf8EncodeChar c, p (Char.ofUInt8 b) :=
        fun b hb => (hp.apply_ofUInt8 hb).trans hc
      rw [if_pos hc, takeWhile_append_of_pos hbytes, ih, flatMap_cons]
    · obtain ⟨b, bs, hbytes⟩ := exists_cons_of_ne_nil (String.utf8EncodeChar_ne_nil (c := c))
      have hb : p (Char.ofUInt8 b) = p c := hp.apply_ofUInt8 (hbytes ▸ mem_cons_self)
      rw [if_neg hc, hbytes, cons_append, takeWhile_cons_of_neg (by rw [hb]; exact hc), flatMap_nil]

/-- The first byte, read as a character, tells as much as the first character. -/
theorem any_head?_flatMap_utf8EncodeChar (hp : Char.UniformBeyondAscii p) (cs : List Char) :
    (cs.flatMap String.utf8EncodeChar).head?.any (fun b => p (Char.ofUInt8 b)) =
      cs.head?.any p := by
  cases cs with
  | nil => rfl
  | cons c cs =>
    obtain ⟨b, bs, hbytes⟩ := exists_cons_of_ne_nil (String.utf8EncodeChar_ne_nil (c := c))
    rw [flatMap_cons, hbytes, cons_append]
    exact hp.apply_ofUInt8 (hbytes ▸ mem_cons_self)

end List
