import Mathlib.Data.List.TakeDrop
import LoxLexer.Session
import LoxLexer.Proofs.Encoding

/-!
# What a session writes

What the steps of a session change, one lemma for each: a report, a text, a file, a line that is no
text. With sinks that take everything a session scans a text without failing. What it adds to its
sinks then depends on the text alone, and so does whether it sets the mark of an error.

## Key results

- `Session.take_bind_of_ok`, `Session.take_bind_of_error`: a step behind one that succeeds or fails
- `Session.take_report`: what reporting an error changes
- `Session.take_run_of_ok`, `Session.take_run_of_error`: what running a text changes
- `Session.take_runFile_of_ok`, `Session.take_runFile_of_error`: what running a file changes
- `Session.take_run`: what running a text changes if the sinks take everything
-/

theorem Array.appendList_append {α : Type _} (xs : Array α) (a b : List α) :
    xs ++ a ++ b = xs ++ (a ++ b) := Array.ext' (by simp)

namespace LoxLexer

/-- The bytes in the sink, as a list. -/
def Sink.contents (s : Sink) : List UInt8 := s.bytes.data.toList

/-- The sink with a text behind what is in it. -/
def Sink.append (s : Sink) (text : String) : Sink := ⟨s.bytes ++ text.toUTF8, s.room⟩

theorem Sink.write_of_room_eq_none {s : Sink} (h : s.room = none) (text : String) :
    s.write text = (true, s.append text) := by
  obtain ⟨bytes, room⟩ := s
  cases h
  rfl

@[simp] theorem Sink.append_empty (s : Sink) : s.append "" = s := by
  simp [append]

@[simp] theorem Sink.contents_append (s : Sink) (text : String) :
    (s.append text).contents = s.contents ++ text.byteList := by
  simp [append, contents, String.byteList]

/-- All of a text is in the sink exactly if it fitted. -/
theorem Sink.contents_write_eq_iff (s : Sink) (text : String) :
    (s.write text).2.contents = s.contents ++ text.byteList ↔ (s.write text).1 = true := by
  -- Up to a limit the sink takes a beginning of the text, which is all of it if that fits.
  obtain ⟨bytes, _ | room⟩ := s <;> simp [write, contents, String.byteList]

theorem Sink.append_append (s : Sink) (a b : String) :
    (s.append a).append b = s.append (a ++ b) := by
  simp [append, ByteArray.append_assoc]

namespace Session

/-- The line that reports an error. -/
def diagnostic (line : Nat) (place message : String) : String :=
  "[line " ++ toString line ++ "] Error" ++ place ++ ": " ++ message ++ "\n"

/-- Both sinks take everything. -/
structure Unlimited (s : Session) : Prop where
  out : s.out.room = none
  err : s.err.room = none

/-- What a scan adds to the listing: its tokens line by line, or nothing if it fails. -/
def listed : Except ScanError (List Token) → String
  | .ok tokens => listing tokens
  | .error _ => ""

/-- What a scan adds to the reports: its error on a line, or nothing if it succeeds. -/
def reported : Except ScanError (List Token) → String
  | .ok _ => ""
  | .error e => e.display ++ "\n"

/-- A session that has run a text. -/
def afterRun (s : Session) (source : String) : Session where
  out := s.out.append (listed (scan source))
  err := s.err.append (reported (scan source))
  hadError := s.hadError || !(scan source).isOk
  log := s.log ++ scanLog source

/-- Only the report of an error is not empty. -/
theorem reported_eq_empty_iff {result : Except ScanError (List Token)} :
    reported result = "" ↔ ∃ tokens, result = .ok tokens := by
  cases result with
  | ok tokens => simp [reported]
  | error e => simp [reported]

theorem unlimited_fresh : (fresh none none).Unlimited := ⟨rfl, rfl⟩

theorem Unlimited.afterRun {s : Session} (h : s.Unlimited) (source : String) :
    (s.afterRun source).Unlimited := ⟨h.out, h.err⟩

/-- Behind a step that succeeds the next one is taken. -/
theorem take_bind_of_ok {α β : Type} {s : Session} {first : SessionStep α} {a : α}
    (h : (s.take first).1 = .ok a) (second : α → SessionStep β) :
    s.take (first >>= second) = (s.take first).2.take (second a) := by
  rw [take_bind]
  -- From here on only what the first step gave matters.
  generalize s.take first = taken at h
  obtain ⟨_, after⟩ := taken
  cases h
  rfl

/-- Behind a step that fails nothing is done. -/
theorem take_bind_of_error {α β : Type} {s : Session} {first : SessionStep α} {e : SessionError}
    (h : (s.take first).1 = .error e) (second : α → SessionStep β) :
    s.take (first >>= second) = (.error e, (s.take first).2) := by
  rw [take_bind]
  generalize s.take first = taken at h
  obtain ⟨_, after⟩ := taken
  cases h
  rfl

/-- What is made of a result changes nothing but the result. -/
theorem take_map {α β : Type} (s : Session) (step : SessionStep α) (f : α → β) :
    s.take (do return f (← step)) = ((s.take step).1.map f, (s.take step).2) := by
  rw [take_bind]
  generalize s.take step = taken
  -- The result is made of what the step gave, and nothing is done for it.
  obtain ⟨_ | _, after⟩ := taken <;> rfl

theorem take_writeOut_of_unlimited {s : Session} (h : s.Unlimited) (text : String) :
    s.take (writeOut text) = (.ok (), { s with out := s.out.append text }) := by
  rw [take_writeOut, Sink.write_of_room_eq_none h.out]
  rfl

/-- Reporting an error sets the mark if the whole line is written, and fails otherwise. -/
theorem take_report (s : Session) (line : Nat) (place message : String) :
    s.take (report line place message) =
      (if (s.err.write (diagnostic line place message)).1 then .ok () else .error .sinkFull,
        { s with
          err := (s.err.write (diagnostic line place message)).2
          hadError := s.hadError || (s.err.write (diagnostic line place message)).1 }) := by
  rw [report, take_bind, take_writeErr, diagnostic]
  -- The mark is set behind the write, and so only if the write succeeded.
  cases (s.err.write _).1 <;> simp

/-- An error of a scan is reported as it is displayed. -/
theorem diagnostic_of_scanError (e : ScanError) :
    diagnostic e.line "" e.message = e.display ++ "\n" := by
  -- Nothing is said about the place, so the mark of the error is followed by its colon.
  have hcolon : "] Error" ++ ": " = "] Error: " := by decide
  simp only [diagnostic, e.display_eq, String.append_assoc, String.empty_append, ← hcolon]

/-- Behind the log of the scan comes what its result asks for. -/
theorem take_run_eq (s : Session) (source : String) :
    s.take (run source) = Session.take { s with log := s.log ++ scanLog source }
      (match scan source with
        | .ok tokens => list tokens
        | .error e => error e.line e.message) := by
  -- Adding to the log never fails and leaves the sinks alone.
  rw [run, take_bind, take_record]
  rfl

/-- A text that can be scanned is listed, as far as that fits. -/
theorem take_run_of_ok {source : String} {tokens : List Token} (h : scan source = .ok tokens)
    (s : Session) :
    s.take (run source) =
      (if (s.out.write (listing tokens)).1 then .ok () else .error .sinkFull,
        { s with out := (s.out.write (listing tokens)).2, log := s.log ++ scanLog source }) := by
  rw [take_run_eq, h]
  show Session.take _ (list tokens) = _
  -- Listing the tokens one by one is writing the whole listing at once.
  rw [take_list, take_writeOut]

/-- The error of a text that cannot be scanned is reported, and marked if the report fits. -/
theorem take_run_of_error {source : String} {e : ScanError} (h : scan source = .error e)
    (s : Session) :
    s.take (run source) =
      (if (s.err.write (e.display ++ "\n")).1 then .ok () else .error .sinkFull,
        { s with
          err := (s.err.write (e.display ++ "\n")).2
          hadError := s.hadError || (s.err.write (e.display ++ "\n")).1
          log := s.log ++ scanLog source }) := by
  rw [take_run_eq, h]
  show Session.take _ (report e.line "" e.message) = _
  rw [take_report, diagnostic_of_scanError]

/-- A file that gives no source fails before anything is done. -/
theorem take_runFile_of_error {path : String} {contents : Except ReadFault ByteArray}
    {e : SourceError} (h : sourceOf path contents = .error e) (s : Session) :
    s.take (runFile path contents) = (.error (.source e), s) := by
  -- The source is asked for before the first record is logged.
  rw [runFile, h]
  rfl

/-- A file that gives a source is run as this source, and its status is the mark after that. -/
theorem take_runFile_of_ok {path source : String} {contents : Except ReadFault ByteArray}
    (h : sourceOf path contents = .ok source) (s : Session) :
    s.take (runFile path contents) =
      let ran := Session.take
        { s with log := s.log ++ [LogRecord.running path source.utf8ByteSize] } (run source)
      (ran.1.map fun _ => if ran.2.hadError then .failed else .ok, ran.2) := by
  simp only [runFile, h, take_bind, take_record]
  -- The status is looked up only if the run succeeds.
  generalize Session.take _ (run source) = ran
  obtain ⟨_ | _, after⟩ := ran <;> rfl

/-- A line that is no text fails before anything is done. -/
theorem take_promptLine_of_not_utf8 {line : List UInt8}
    (h : String.fromUTF8? line.toByteArray = none) (s : Session) :
    s.take (promptLine line) = (.error .notUtf8, s) := by
  rw [promptLine, h]
  rfl

theorem take_promptLine_of_text {line : List UInt8} {text : String}
    (h : String.fromUTF8? line.toByteArray = some text) (s : Session) :
    s.take (promptLine line) = s.take (run (trimLineEnd text) >>= fun _ => mark false) := by
  rw [promptLine, h]

/-- Running a text succeeds, whether it can be scanned or not. -/
theorem take_run {s : Session} (h : s.Unlimited) (source : String) :
    s.take (run source) = (.ok (), s.afterRun source) := by
  cases hscan : scan source with
  | ok tokens =>
    -- Nothing is reported, and the mark stays as it was.
    rw [take_run_of_ok hscan, Sink.write_of_room_eq_none h.out]
    simp [afterRun, listed, reported, hscan, Except.isOk, Except.toBool]
  | error e =>
    -- Nothing is listed, although tokens may stand before the error.
    rw [take_run_of_error hscan, Sink.write_of_room_eq_none h.err]
    simp [afterRun, listed, reported, hscan, Except.isOk, Except.toBool]

end Session

end LoxLexer
