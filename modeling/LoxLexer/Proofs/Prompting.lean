import LoxLexer.Proofs.Effects
import LoxLexer.Proofs.Encoding
import LoxLexer.Proofs.LineByLine

/-!
# Prompting for a text

A prompt is given a text line by line and answers each line by its tokens. The lines of the bytes of
a text are the bytes of its lines, and with sinks that take everything each answer depends on its
line alone. A prompt that reports no error has listed, but for the ends of its answers, what a
session lists that runs the text as a whole.

## Key results

- `Session.byteLines_flatMap_utf8EncodeChar`: the lines of the bytes of a text
- `Session.take_promptLines_append`: lines of texts are dealt with one after another
- `Session.take_promptLines`: what prompting for lines changes
- `Session.answers_eq`: the answers of a prompt
- `Session.prompt_agrees_with_run`: the prompt and the run of a text
-/

namespace LoxLexer.Session

/-! ## Lines of bytes -/

/-- No byte of another character is a line feed. -/
theorem ne_of_mem_utf8EncodeChar {c : Char} (hc : c ≠ '\n') :
    ∀ b ∈ String.utf8EncodeChar c, b ≠ 10 := by
  rintro b hb rfl
  -- The byte of a line feed would belong to a line feed.
  have hlf : '\n'.toUInt8 ∈ String.utf8EncodeChar c := hb
  exact hc ((String.toUInt8_mem_utf8EncodeChar_iff (by decide)).1 hlf)

/-- The lines of the bytes of a text are the bytes of its lines. -/
theorem byteLines_flatMap_utf8EncodeChar (cs : List Char) :
    byteLines (cs.flatMap String.utf8EncodeChar) =
      (cs.linesBy (· = '\n')).map (·.flatMap String.utf8EncodeChar) := by
  rw [byteLines]
  -- Along the characters, with all bytes of one at a time.
  induction cs with
  | nil => rfl
  | cons c cs ih =>
    rw [List.flatMap_cons]
    by_cases hc : c = '\n'
    · -- A line feed is the one byte that ends a line.
      subst hc
      have hlf : String.utf8EncodeChar '\n' = [10] := rfl
      rw [hlf, List.singleton_append, List.linesBy_cons_of_pos (p := (· = 10)) _ rfl, ih,
        List.linesBy_cons_of_pos (p := (· = '\n')) _ rfl]
      rfl
    · rw [List.linesBy_append_of_neg String.utf8EncodeChar_ne_nil (ne_of_mem_utf8EncodeChar hc), ih,
        List.linesBy_cons_of_neg (p := (· = '\n')) _ hc]
      cases cs.linesBy (· = '\n') <;> simp

/-! ## Lines of a prompt -/

/-- A session that has asked for a line. -/
def afterAsking (s : Session) : Session := { s with out := s.out.append "> " }

/-- A session that has dealt with a line of a prompt: the line is run without its end, and it leaves
    no mark of an error. -/
def afterLine (s : Session) (line : List Char) : Session :=
  { s.afterRun (trimLineEnd (String.ofList line)) with hadError := false }

/-- A session that has dealt with lines of a prompt and has yet to ask for the next one. -/
def afterLines (s : Session) (lines : List (List Char)) : Session where
  out := s.out.append (String.join (lines.map fun line => "> " ++ listed (scanLine line)))
  err := s.err.append (String.join (lines.map (reported ∘ scanLine)))
  hadError := s.hadError && lines.isEmpty
  log := s.log ++ lines.flatMap fun line => scanLog (trimLineEnd (String.ofList line))

/-- A session that has prompted for lines until the input ended. -/
def afterPrompt (s : Session) (lines : List (List Char)) : Session where
  out := s.out.append (String.join (lines.map fun line => "> " ++ listed (scanLine line)) ++ "> \n")
  err := s.err.append (String.join (lines.map (reported ∘ scanLine)))
  hadError := s.hadError && lines.isEmpty
  log := s.log ++
    (lines.flatMap (fun line => scanLog (trimLineEnd (String.ofList line))) ++ [.inputEnded])

theorem Unlimited.afterAsking {s : Session} (h : s.Unlimited) : s.afterAsking.Unlimited :=
  ⟨h.out, h.err⟩

theorem Unlimited.afterLine {s : Session} (h : s.Unlimited) (line : List Char) :
    (s.afterLine line).Unlimited := ⟨h.out, h.err⟩

theorem Unlimited.afterLines {s : Session} (h : s.Unlimited) (lines : List (List Char)) :
    (s.afterLines lines).Unlimited := ⟨h.out, h.err⟩

theorem take_ask {s : Session} (h : s.Unlimited) :
    s.take (writeOut "> ") = (.ok (), s.afterAsking) := take_writeOut_of_unlimited h "> "

theorem take_ask_bind {α : Type} {s : Session} (h : s.Unlimited) (next : Unit → SessionStep α) :
    s.take (writeOut "> " >>= next) = s.afterAsking.take (next ()) := by
  rw [take_bind, take_ask h]

theorem take_promptLine {s : Session} (h : s.Unlimited) (line : List Char) :
    s.take (promptLine (line.flatMap String.utf8EncodeChar)) = (.ok (), s.afterLine line) := by
  rw [take_promptLine_of_text (String.fromUTF8?_flatMap_utf8EncodeChar line), take_bind, take_run h]
  rfl

theorem take_endPrompt {s : Session} (h : s.Unlimited) :
    s.take endPrompt =
      (.ok (), { s with out := s.out.append "\n", log := s.log ++ [LogRecord.inputEnded] }) := by
  have hended : Unlimited { s with log := s.log ++ [LogRecord.inputEnded] } := ⟨h.out, h.err⟩
  rw [endPrompt, take_bind, take_record]
  exact take_writeOut_of_unlimited hended "\n"

/-- Lines of texts are dealt with one after another, whatever is behind them. -/
theorem take_promptLines_append {s : Session} (h : s.Unlimited) (lines : List (List Char))
    (others : List (List UInt8)) :
    s.take (promptLines (lines.map (·.flatMap String.utf8EncodeChar) ++ others)) =
      (s.afterLines lines).take (promptLines others) := by
  -- The prompt, the line and its answer are done before the next line is looked at.
  induction lines generalizing s with
  | nil => simp [afterLines]
  | cons line lines ih =>
    rw [List.map_cons, List.cons_append, promptLines, take_ask_bind h, take_bind,
      take_promptLine h.afterAsking]
    dsimp only
    rw [ih (h.afterAsking.afterLine line)]
    simp [afterLines, afterLine, afterAsking, afterRun, scanLine, Sink.append_append,
      String.append_assoc, Array.appendList_append]

/-- Prompting for the lines of texts succeeds. -/
theorem take_promptLines {s : Session} (h : s.Unlimited) (lines : List (List Char)) :
    s.take (promptLines (lines.map (·.flatMap String.utf8EncodeChar))) =
      (.ok (), s.afterPrompt lines) := by
  -- Behind all lines the prompt asks once more, and finds that the input has ended.
  have hlines := take_promptLines_append h lines []
  rw [List.append_nil] at hlines
  rw [hlines, promptLines, take_ask_bind (h.afterLines lines),
    take_endPrompt (h.afterLines lines).afterAsking]
  simp [afterPrompt, afterLines, afterAsking, Sink.append_append, String.append_assoc,
    ← Array.appendList_append]

/-! ## Answers -/

/-- What a session lists in answer to each line of a prompt, from one prompt to the next. -/
def answers : List (List UInt8) → Session → List ByteArray
  | [], _ => []
  | line :: lines, s =>
    let asked := (s.take (writeOut "> ")).2
    let answered := (asked.take (promptLine line)).2
    answered.out.bytes.extract asked.out.bytes.size answered.out.bytes.size
      :: answers lines answered

theorem answers_eq {s : Session} (h : s.Unlimited) (lines : List (List Char)) :
    answers (lines.map (·.flatMap String.utf8EncodeChar)) s =
      lines.map fun line => (listed (scanLine line)).toUTF8 := by
  induction lines generalizing s with
  | nil => rfl
  | cons line lines ih =>
    -- The answer is what the listing gains while the line is dealt with.
    simp only [List.map_cons, answers, take_ask h, take_promptLine h.afterAsking]
    rw [ih (h.afterAsking.afterLine line)]
    simp [afterLine, afterRun, scanLine, Sink.append, ByteArray.extract_append_eq_right]

/-! ## The prompt and the run of a text -/

theorem take_prompt {s : Session} (h : s.Unlimited) (text : String) :
    s.take (prompt text.toUTF8) = (.ok (), s.afterPrompt (text.toList.linesBy (· = '\n'))) := by
  rw [prompt, String.toList_toUTF8, byteLines_flatMap_utf8EncodeChar, take_promptLines h]

/-- The end of the input is listed in the same way on every line. -/
theorem listing_eof (line : Nat) : listing [Token.eof line] = "eof  nil\n" := by
  show String.join ["eof" ++ " " ++ "" ++ " " ++ "nil" ++ "\n"] = _
  decide

/-- The answers to lines that scan are the listings of the parts, each with the end of the input. -/
theorem map_listed_of_scansByLines {α : Type _} {cs : List Char} {parts : List (List Token)}
    (h : ScansByLines cs parts) (f : String → α) :
    (cs.linesBy (· = '\n')).map (fun line => f (listed (scanLine line))) =
      (parts.map listing).map fun l => f (l ++ "eof  nil\n") := by
  -- The results of the lines are those of the parts.
  have hmap := congrArg (List.map (f ∘ listed)) h.lines
  rw [List.map_map, List.map_map] at hmap
  rw [List.map_map]
  refine hmap.trans (List.map_congr_left fun part _ => ?_)
  simp [listed, listing_append, listing_eof]

theorem join_eq_empty_iff {texts : List String} : String.join texts = "" ↔ ∀ t ∈ texts, t = "" := by
  induction texts with
  | nil => simp
  | cons t texts ih => simp [ih]

/-- A prompt reports nothing exactly when all of its lines scan. -/
theorem bytes_err_afterPrompt_eq_empty_iff (lines : List (List Char)) :
    ((fresh none none).afterPrompt lines).err.bytes = .empty ↔
      ∀ line ∈ lines, ∃ tokens, scanLine line = .ok tokens := by
  -- The reports of the lines stand one after another, so there is none if each of them is empty.
  have hbytes : ((fresh none none).afterPrompt lines).err.bytes =
      (String.join (lines.map (reported ∘ scanLine))).toUTF8 := by
    simp [afterPrompt, fresh, Sink.empty, Sink.append]
  rw [hbytes, String.toUTF8_eq_toByteArray, String.toByteArray_eq_empty_iff, join_eq_empty_iff,
    List.forall_mem_map]
  simp only [Function.comp_apply, reported_eq_empty_iff]

/-- A prompt for a text reports no error exactly when the text scans and no string goes on over a
    line feed. It has then answered each line by its tokens and the end of the input, and a run of
    the text lists the same answers without their ends, and the end of the input once. -/
theorem prompt_agrees_with_run (text : String) :
    (((fresh none none).take (prompt text.toUTF8)).2.err.bytes = .empty ↔
      ∃ tokens, scan text = .ok tokens ∧
        ∀ t ∈ tokens, t.kind = .string → '\n' ∉ t.lexeme.toList) ∧
    (((fresh none none).take (prompt text.toUTF8)).2.err.bytes = .empty →
      ∃ listings : List String,
        answers (byteLines text.toUTF8.data.toList) (fresh none none) =
          listings.map (fun l => (l ++ "eof  nil\n").toUTF8) ∧
        ((fresh none none).take (prompt text.toUTF8)).2.out.bytes =
          (String.join (listings.map fun l => "> " ++ (l ++ "eof  nil\n")) ++ "> \n").toUTF8 ∧
        ((fresh none none).take (run text)).2.out.bytes =
          (String.join listings ++ "eof  nil\n").toUTF8) := by
  rw [take_prompt unlimited_fresh, take_run unlimited_fresh, bytes_err_afterPrompt_eq_empty_iff,
    String.toList_toUTF8, byteLines_flatMap_utf8EncodeChar, answers_eq unlimited_fresh]
  -- Every text scans line by line or fails in a line, and each case settles both parts.
  obtain ⟨parts, h⟩ | ⟨⟨line, hline, e, hfails⟩, hbroken⟩ :=
    scansByLines_or_failsByLines text.toList
  · obtain ⟨tokens, last, hscan, hunbroken, hlisting⟩ := h.whole
    rw [String.ofList_toList] at hscan
    constructor
    · refine iff_of_true ?_ ⟨_, hscan, unbroken_append.2 ⟨hunbroken, unbroken_eof last⟩⟩
      intro line hline
      have hmem : scanLine line ∈ _ := h.lines ▸ List.mem_map_of_mem hline
      obtain ⟨part, -, hpart⟩ := List.mem_map.1 hmem
      exact ⟨_, hpart.symm⟩
    · intro _
      refine ⟨parts.map listing, map_listed_of_scansByLines h String.toUTF8, ?_, ?_⟩
      · -- The prompt puts its own text before the answer to every line.
        have hasked := map_listed_of_scansByLines h ("> " ++ ·)
        simp only [afterPrompt, hasked]
        simp [fresh, Sink.empty, Sink.append]
      · simp [afterRun, hscan, listed, listing_append, listing_eof, hlisting, fresh, Sink.empty,
          Sink.append]
  · -- A line fails, so there is a report, and the text is not scanned unbroken.
    rw [String.ofList_toList] at hbroken
    have hreport : ¬ ∀ line ∈ text.toList.linesBy (· = '\n'), ∃ tokens,
        scanLine line = .ok tokens := by
      intro hall
      obtain ⟨tokens, hscan⟩ := hall line hline
      rw [hfails] at hscan
      cases hscan
    exact ⟨iff_of_false hreport hbroken, fun hall => absurd hall hreport⟩

/-- An identifier before a carriage return, and a comment on the second line. -/
theorem prompt_agrees_with_run_of_two_lines :
    ((fresh none none).take (prompt "a\r\n// b\n".toUTF8)).2.err.bytes = .empty ∧
    ∃ listings : List String,
      ((fresh none none).take (prompt "a\r\n// b\n".toUTF8)).2.out.bytes =
        (String.join (listings.map fun l => "> " ++ (l ++ "eof  nil\n")) ++ "> \n").toUTF8 ∧
      ((fresh none none).take (run "a\r\n// b\n")).2.out.bytes =
        (String.join listings ++ "eof  nil\n").toUTF8 := by
  have hagrees := prompt_agrees_with_run "a\r\n// b\n"
  have hscan : scan "a\r\n// b\n" = .ok [⟨.identifier, "a", none, 0⟩, Token.eof 2] := by
    with_unfolding_all rfl
  have herr := hagrees.1.2 ⟨_, hscan, by simp [Token.eof]⟩
  obtain ⟨listings, -, hprompt, hrun⟩ := hagrees.2 herr
  exact ⟨herr, listings, hprompt, hrun⟩

end LoxLexer.Session
