/-!
# Sinks

A sink collects the bytes that are written to it, up to a limit if it has one. A text that does not
fit is cut where the sink is full, which may be inside a character, and is reported as not written.

## Key results

- `Sink.write_append`: two texts in a row are written one after the other, until one does not fit
-/

namespace LoxLexer

/-- Bytes that were written, and how many more can be. -/
structure Sink where
  bytes : ByteArray
  /-- The number of bytes that still fit, if that is limited. -/
  room : Option Nat

namespace Sink

/-- A sink with nothing in it. -/
def empty (limit : Option Nat) : Sink := ⟨.empty, limit⟩

/-- Writes as much of a text as fits, and says whether that is all of it. -/
def write (s : Sink) (text : String) : Bool × Sink :=
  match s with
  | ⟨bytes, none⟩ => (true, ⟨bytes ++ text.toUTF8, none⟩)
  | ⟨bytes, some room⟩ =>
    let size := text.utf8ByteSize
    (size ≤ room, ⟨bytes ++ text.toUTF8.extract 0 room, some (room - size)⟩)

/-- The empty text always fits. -/
@[simp] theorem write_empty (s : Sink) : s.write "" = (true, s) := by
  obtain ⟨bytes, _ | room⟩ := s
  · simp [write]
  · have hnone : ByteArray.empty.extract 0 room = .empty :=
      ByteArray.extract_eq_empty_iff.2 (Nat.min_le_right ..)
    simp [write, hnone]

/-- Two texts in a row are written one after the other, until one does not fit. -/
theorem write_append (s : Sink) (a b : String) :
    s.write (a ++ b) = if (s.write a).1 then (s.write a).2.write b else s.write a := by
  obtain ⟨bytes, _ | room⟩ := s
  · simp [write, ByteArray.append_assoc]
  · simp only [write, String.utf8ByteSize_append, String.toUTF8_eq_toByteArray,
      String.toByteArray_append, ByteArray.extract_append, Nat.zero_sub, String.size_toByteArray]
    by_cases ha : a.utf8ByteSize ≤ room
    · simp [ha, ByteArray.append_assoc]
      omega
    · have : room - a.utf8ByteSize = 0 := by omega
      simp [ha, this]
      omega

end Sink

end LoxLexer
