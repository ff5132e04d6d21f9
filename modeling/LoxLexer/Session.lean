import LoxLexer.Scan
import LoxLexer.Source
import LoxLexer.Sink
import LoxLexer.Text.Lines

/-!
# Sessions

A session scans texts, files and lines of a prompt one after another. It lists tokens in one sink
and reports errors in another, remembers whether an error was reported, and keeps a log.

A session survives the failure of a step: what was written stays written, and the mark of an error
is set only when its report has been written in full. A text or a file leaves the mark of earlier
errors as it is; each line of a prompt that has been dealt with clears it.

## Key results

- `Session.take_bind`: steps follow one another until one fails
- `Session.take_writeOut`, `Session.take_writeErr`: what a write changes, and when it succeeds
- `Session.take_list`: tokens are listed line by line as if the listing were written at once
-/

namespace LoxLexer

/-! ## State and failures -/

/-- The state of a session. -/
structure Session where
  /-- Where tokens are listed. -/
  out : Sink
  /-- Where errors are reported. -/
  err : Sink
  /-- Whether an error has been reported since the last line of a prompt. -/
  hadError : Bool
  log : Array LogRecord

/-- Why a step of a session fails. -/
inductive SessionError where
  | sinkFull
  /-- A line of a prompt is not UTF-8. -/
  | notUtf8
  | source (e : SourceError)

/-- What went wrong, and then its cause if it has one. -/
def SessionError.chain : SessionError → List String
  | sinkFull => ["sink full"]
  | notUtf8 => [ReadFault.notUtf8.message]
  | source e => e.chain

/-- A step of a session: it may fail, and the session goes on from where it failed. -/
abbrev SessionStep := ExceptT SessionError (StateM Session)

namespace Session

/-- A session that has done nothing. -/
def fresh (outLimit errLimit : Option Nat) : Session :=
  ⟨.empty outLimit, .empty errLimit, false, #[]⟩

/-- Takes a step. -/
def take (s : Session) (step : SessionStep α) : Except SessionError α × Session :=
  step.run.run s

/-- Doing nothing succeeds. -/
@[simp] theorem take_pure (s : Session) (a : α) : s.take (pure a) = (.ok a, s) := rfl

/-- Giving up changes nothing. -/
@[simp] theorem take_throw (s : Session) (e : SessionError) :
    s.take (throw e : SessionStep α) = (.error e, s) := rfl

/-- A second step starts from where the first left the session, and only if that succeeded. -/
theorem take_bind (s : Session) (first : SessionStep α) (second : α → SessionStep β) :
    s.take (first >>= second) =
      match s.take first with
      | (.ok a, after) => after.take (second a)
      | (.error e, after) => (.error e, after) := by
  simp only [take, ExceptT.run_bind, StateT.run_bind]
  -- Whichever way the first step went, both sides are then the same computation.
  generalize first.run.run s = result
  obtain ⟨_ | _, _⟩ := result <;> rfl

/-! ## Primitive steps -/

/-- A write that may not have fitted. -/
def checked (write : Session → Bool × Session) : SessionStep Unit := do
  if ← modifyGet write then pure () else throw .sinkFull

/-- Writes to the listing. -/
def writeOut (text : String) : SessionStep Unit :=
  checked fun ⟨out, err, hadError, log⟩ =>
    let (fits, out) := out.write text
    (fits, ⟨out, err, hadError, log⟩)

/-- Writes to the reports. -/
def writeErr (text : String) : SessionStep Unit :=
  checked fun ⟨out, err, hadError, log⟩ =>
    let (fits, err) := err.write text
    (fits, ⟨out, err, hadError, log⟩)

/-- Writing to the listing changes its sink only, and succeeds if the text fits. -/
theorem take_writeOut (s : Session) (text : String) :
    s.take (writeOut text) =
      (if (s.out.write text).1 then .ok () else .error .sinkFull,
        { s with out := (s.out.write text).2 }) := by
  -- Once the write is done, only whether it fitted is left to decide.
  rw [writeOut, checked, take_bind]
  show Session.take { s with out := (s.out.write text).2 }
    (if (s.out.write text).1 then pure () else throw .sinkFull) = _
  cases (s.out.write text).1 <;> rfl

/-- Writing to the reports changes their sink only, and succeeds if the text fits. -/
theorem take_writeErr (s : Session) (text : String) :
    s.take (writeErr text) =
      (if (s.err.write text).1 then .ok () else .error .sinkFull,
        { s with err := (s.err.write text).2 }) := by
  rw [writeErr, checked, take_bind]
  show Session.take { s with err := (s.err.write text).2 }
    (if (s.err.write text).1 then pure () else throw .sinkFull) = _
  cases (s.err.write text).1 <;> rfl

/-- Sets or clears the mark of an error. -/
def mark (hadError : Bool) : SessionStep Unit :=
  modify fun ⟨out, err, _, log⟩ => ⟨out, err, hadError, log⟩

@[simp] theorem take_mark (s : Session) (hadError : Bool) :
    s.take (mark hadError) = (.ok (), { s with hadError }) := rfl

/-- Adds records to the log. -/
def record (records : List LogRecord) : SessionStep Unit :=
  modify fun ⟨out, err, hadError, log⟩ => ⟨out, err, hadError, log ++ records⟩

@[simp] theorem take_record (s : Session) (records : List LogRecord) :
    s.take (record records) = (.ok (), { s with log := s.log ++ records }) := rfl

/-! ## Reports -/

/-- Reports an error on a line and says where on the line it is. -/
def report (line : Nat) (place message : String) : SessionStep Unit := do
  writeErr ("[line " ++ toString line ++ "] Error" ++ place ++ ": " ++ message ++ "\n")
  mark true

/-- Reports an error on a line. -/
def error (line : Nat) (message : String) : SessionStep Unit :=
  report line "" message

/-! ## Texts -/

/-- One line for each token. -/
def listing (tokens : List Token) : String :=
  String.join (tokens.map fun t => t.display ++ "\n")

/-- Lists tokens line by line. -/
def list : List Token → SessionStep Unit
  | [] => pure ()
  | t :: tokens => do
    writeOut (t.display ++ "\n")
    list tokens

/-- Listing line by line is writing the whole listing, also where it does not fit. -/
theorem take_list (s : Session) (tokens : List Token) :
    s.take (list tokens) = s.take (writeOut (listing tokens)) := by
  induction tokens generalizing s with
  | nil => simp [list, listing, take_writeOut]
  | cons t tokens ih =>
    have hjoin : listing (t :: tokens) = t.display ++ "\n" ++ listing tokens := by simp [listing]
    rw [list, take_bind, take_writeOut, hjoin]
    generalize t.display ++ "\n" = line
    rw [take_writeOut, Sink.write_append]
    -- Where a line does not fit, no line behind it is tried.
    cases h : (s.out.write line).1 with
    | true => simp [ih, take_writeOut]
    | false => simp [h]

/-- Scans a text, and lists its tokens or reports its error. -/
def run (source : String) : SessionStep Unit := do
  let cut := Cut.ofChars source.toList
  record cut.log
  match cut.scan with
  | .ok tokens => list tokens
  | .error e => error e.line e.message

/-! ## Files -/

/-- How a file went: whether the session has the mark of an error after it. -/
inductive RunStatus where
  | ok
  | failed
deriving DecidableEq

/-- Runs the source that reading a path gives. -/
def runFile (path : String) (contents : Except ReadFault ByteArray) : SessionStep RunStatus := do
  match sourceOf path contents with
  | .error e => throw (.source e)
  | .ok source =>
    record [.running path source.utf8ByteSize]
    run source
    return if (← get).hadError then .failed else .ok

/-! ## Prompts -/

/-- The lines of an input, each with the line feed that ends it. -/
def byteLines (bytes : List UInt8) : List (List UInt8) := bytes.linesBy (· = 10)

/-- A line without the carriage returns and line feeds at its end. -/
def trimLineEnd (line : String) : String :=
  String.ofList (line.toList.reverse.dropWhile (fun c => c == '\n' || c == '\r')).reverse

/-- Runs a line of a prompt by itself. -/
def promptLine (line : List UInt8) : SessionStep Unit :=
  match String.fromUTF8? line.toByteArray with
  | none => throw .notUtf8
  | some text => do
    run (trimLineEnd text)
    mark false

/-- Leaves a prompt whose input has ended. -/
def endPrompt : SessionStep Unit := do
  record [.inputEnded]
  writeOut "\n"

/-- Prompts for each line. -/
def promptLines : List (List UInt8) → SessionStep Unit
  | [] => do
    writeOut "> "
    endPrompt
  | line :: lines => do
    writeOut "> "
    promptLine line
    promptLines lines

/-- Prompts for lines until the input ends. -/
def prompt (input : ByteArray) : SessionStep Unit :=
  promptLines (byteLines input.data.toList)

end Session

end LoxLexer
