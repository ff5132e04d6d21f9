import LoxLexer.Command.Arguments

/-!
# The program

Reads files and the standard input, carries out what the arguments ask for, and writes what comes of
it. A prompt answers each line before it reads the next.
-/

namespace LoxLexer

/-- The number and the description of an error of the system. -/
def systemError : IO.Error → UInt32 × String
  | .noFileOrDirectory _ code text | .interrupted _ code text => (code, text)
  | .alreadyExists _ code text | .invalidArgument _ code text | .permissionDenied _ code text
  | .resourceExhausted _ code text | .inappropriateType _ code text
  | .noSuchThing _ code text => (code, text)
  | .otherError code text | .resourceBusy code text | .resourceVanished code text
  | .unsupportedOperation code text | .hardwareFault code text | .unsatisfiedConstraints code text
  | .illegalOperation code text | .protocolError code text | .timeExpired code text => (code, text)
  | e => (0, toString e)

/-- The fault behind an error of the system, whose number may come negated. -/
def faultOf (e : IO.Error) : ReadFault :=
  let (code, text) := systemError e
  match (if code < 0x80000000 then code else 0 - code).toNat with
  | 2 => .notFound
  | 20 => .notADirectory
  | 21 => .isDirectory
  | 36 => .nameTooLong
  | number => .other text.capitalize number

/-- Reads a file. -/
def readFile (path : String) : IO (Except ReadFault ByteArray) := do
  if '\x00' ∈ path.toList then return .error .nulInPath
  try
    return .ok (← IO.FS.readBinFile path)
  catch e =>
    return .error (faultOf e)

/-- Reads the bytes up to a line feed or the end of the input. -/
partial def readLineBytes (stream : IO.FS.Stream) (line : ByteArray) : IO ByteArray := do
  let next ← stream.read 1
  if next.isEmpty then return line
  let line := line ++ next
  if next.data.toList == [10] then return line else readLineBytes stream line

/-- Writes what a step left in the sinks, and gives the session with empty sinks. -/
def flushSession (s : Session) : IO Session := do
  let out ← IO.getStdout
  let err ← IO.getStderr
  out.write s.out.bytes
  out.flush
  err.write s.err.bytes
  err.flush
  return { Session.fresh none none with hadError := s.hadError }

/-- Writes an outcome and gives its status. -/
def finish (outcome : Outcome) : IO UInt32 := do
  let out ← IO.getStdout
  let err ← IO.getStderr
  out.write outcome.out
  out.flush
  err.write outcome.err
  err.flush
  return UInt32.ofNat outcome.status

/-- Prompts for lines until the input ends or a line fails. -/
partial def interact (stdin : IO.FS.Stream) (s : Session) : IO UInt32 := do
  let s ← flushSession (s.take (Session.writeOut "> ")).2
  let line ← readLineBytes stdin .empty
  let result :=
    s.take (if line.isEmpty then Session.endPrompt else Session.promptLine line.data.toList)
  if line.isEmpty || !result.1.isOk then finish (.ofStep (fun _ => successStatus) result)
  else interact stdin (← flushSession result.2)

end LoxLexer

open LoxLexer in
/-- Does what the arguments ask for. -/
def main (args : List String) : IO UInt32 := do
  match Request.ofArguments args with
  | .perform .repl => interact (← IO.getStdin) (Session.fresh none none)
  | .perform (.run file) =>
    let contents ← readFile file
    finish (Command.perform (fun _ => contents) .empty (.run file))
  | .perform (.tokens file format) =>
    let contents ← readFile file
    finish (Command.perform (fun _ => contents) .empty (.tokens file format))
  | request => finish (request.answer (fun _ => .error .notFound) .empty)
