import LoxLexer.Session
import LoxLexer.Render

/-!
# Commands

What the program can be asked to do, and the exit status and the output of doing it. Files and the
standard input are given as values, so that a command is a function.
-/

namespace LoxLexer

/-! ## Commands and outcomes -/

/-- How a token stream is written out. -/
inductive TokenFormat where
  /-- An indented dump. -/
  | pretty
  | json
deriving DecidableEq

/-- The formats by their names. -/
def TokenFormat.ofName? : String → Option TokenFormat
  | "pretty" => some pretty
  | "json" => some json
  | _ => none

/-- The text of a token stream. -/
def TokenFormat.render : TokenFormat → List Token → String
  | pretty => dumpTokens
  | json => tokensToJson

/-- A request to the program. -/
inductive Command where
  /-- Lists the tokens of a file. -/
  | run (file : String)
  /-- Prompts for lines. -/
  | repl
  /-- Writes the token stream of a file out. -/
  | tokens (file : String) (format : TokenFormat)

/-- What the program leaves behind when it ends. -/
structure Outcome where
  status : Nat
  out : ByteArray
  err : ByteArray

/-- The exit status of success. -/
def successStatus : Nat := 0

/-- The exit status of a file that cannot be read and of a prompt that breaks off. -/
def failureStatus : Nat := 1

/-- The exit status of arguments that make no sense. -/
def usageStatus : Nat := 2

/-- The exit status of a source with a lexical error. -/
def dataErrorStatus : Nat := 65

/-! ## Carrying commands out -/

/-- The report of a failure: what went wrong, and below it the cause. -/
def failureReport : List String → String
  | [] => ""
  | message :: causes =>
    "Error: " ++ message ++ "\n"
      ++ (match causes with
        | [] => ""
        | _ => "\nCaused by:\n" ++ String.join (causes.map fun cause => "    " ++ cause ++ "\n"))

/-- The outcome of a session step that was taken by a session of its own. -/
def Outcome.ofStep (status : α → Nat) (result : Except SessionError α × Session) : Outcome :=
  let (answer, session) := result
  match answer with
  | .ok value => ⟨status value, session.out.bytes, session.err.bytes⟩
  | .error e =>
    -- What was written before the failure stays, and the failure is reported behind it.
    ⟨failureStatus, session.out.bytes, session.err.bytes ++ (failureReport e.chain).toUTF8⟩

/-- The exit status after a file was run. -/
def Session.RunStatus.exitStatus : Session.RunStatus → Nat
  | ok => successStatus
  | failed => dataErrorStatus

/-- Writes the tokens of a source out. -/
def writeTokens (format : TokenFormat) (source : Except SourceError String) : Outcome :=
  match source with
  | .error e => ⟨failureStatus, .empty, (failureReport e.chain).toUTF8⟩
  | .ok text =>
    match scan text with
    | .error e => ⟨dataErrorStatus, .empty, (e.display ++ "\n").toUTF8⟩
    | .ok tokens => ⟨successStatus, (format.render tokens ++ "\n").toUTF8, .empty⟩

/-- Carries a command out; `read` answers for files, and `input` is the standard input. -/
def Command.perform (read : String → Except ReadFault ByteArray) (input : ByteArray) :
    Command → Outcome
  | run file =>
    .ofStep (·.exitStatus) ((Session.fresh none none).take (Session.runFile file (read file)))
  | repl => .ofStep (fun _ => successStatus) ((Session.fresh none none).take (Session.prompt input))
  | tokens file format => writeTokens format (sourceOf file (read file))

end LoxLexer
