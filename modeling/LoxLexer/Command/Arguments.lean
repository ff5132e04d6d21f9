import LoxLexer.Command
import LoxLexer.Command.Help

/-!
# Command-line arguments

Arguments are read from left to right, and the first that makes no sense, or that asks for help,
decides. Two hyphens end the options: what follows is taken as it is. Names are spelled out and in
lower case.
-/

namespace LoxLexer

/-- What the arguments ask for. -/
inductive Request where
  | perform (c : Command)
  | help (topic : HelpTopic)
  /-- The arguments make no sense. -/
  | misuse

/-! ## Single arguments -/

/-- The role of an argument. -/
inductive Argument where
  /-- A file, or a name. -/
  | value (text : String)
  /-- Two hyphens. -/
  | endOfOptions
  | help
  /-- The option for the format, with what stands behind its equals sign. -/
  | format (name? : Option String)
  | unknownOption

/-- The role of an argument among options. A single hyphen is a value. Letters behind one hyphen are
    options of their own, so help is asked for if the first of them is `h`. -/
def Argument.ofText (text : String) : Argument :=
  match text.toList with
  | ['-', '-'] => .endOfOptions
  | '-' :: '-' :: name =>
    if name = "help".toList then .help
    else if name = "format".toList then .format none
    else match "format=".toList.isPrefixOf? name with
      | some given => .format (some (String.ofList given))
      | none => .unknownOption
  | '-' :: 'h' :: _ => .help
  | '-' :: _ :: _ => .unknownOption
  | _ => .value text

/-! ## Arguments of commands -/

/-- Takes all arguments as values: one file, or none if it is already known. -/
def fileAlone (file? : Option String) (request : String → Request) : List String → Request
  | [] => match file? with
    | some file => request file
    | none => .misuse
  | [arg] => match file? with
    | some _ => .misuse
    | none => request arg
  | _ => .misuse

/-- The arguments of `run`: one file. -/
def runRequest (file? : Option String) : List String → Request
  | [] => fileAlone file? (.perform <| .run ·) []
  | arg :: args =>
    match Argument.ofText arg with
    | .value text => if file?.isSome then .misuse else runRequest (some text) args
    | .endOfOptions => fileAlone file? (.perform <| .run ·) args
    | .help => .help .run
    | _ => .misuse

/-- The arguments of `repl`: none. -/
def replRequest : List String → Request
  | [] => .perform .repl
  | arg :: args =>
    match Argument.ofText arg with
    | .endOfOptions => if args.isEmpty then .perform .repl else .misuse
    | .help => .help .repl
    | _ => .misuse

/-- The command `tokens` with a format, which is `pretty` if none is given. -/
def tokensCommand (format? : Option TokenFormat) (file : String) : Request :=
  .perform (.tokens file (format?.getD .pretty))

/-- The arguments of `tokens`: one file, and the option for the format at most once, which takes its
    value from behind an equals sign or from the next argument. -/
def tokensRequest (file? : Option String) (format? : Option TokenFormat) : List String → Request
  | [] => fileAlone file? (tokensCommand format?) []
  | arg :: args =>
    match Argument.ofText arg with
    | .value text => if file?.isSome then .misuse else tokensRequest (some text) format? args
    | .endOfOptions => fileAlone file? (tokensCommand format?) args
    | .help => .help .tokens
    | .format (some name) =>
      match format?, TokenFormat.ofName? name with
      | none, some format => tokensRequest file? (some format) args
      | _, _ => .misuse
    | .format none =>
      match args with
      | name :: others =>
        match format?, TokenFormat.ofName? name with
        | none, some format => tokensRequest file? (some format) others
        | _, _ => .misuse
      | [] => .misuse
    | .unknownOption => .misuse

/-- The arguments of `help`: the name of a command, or none. -/
def helpRequest : List String → Request
  | [] => .help .program
  | [name] => ((HelpTopic.ofName? name).map .help).getD .misuse
  | _ => .misuse

/-- What the arguments of the program ask for; without arguments it prompts. -/
def Request.ofArguments : List String → Request
  | [] => .perform .repl
  | "run" :: args => runRequest none args
  | "repl" :: args => replRequest args
  | "tokens" :: args => tokensRequest none none args
  | "help" :: args => helpRequest args
  | arg :: args =>
    match Argument.ofText arg with
    | .endOfOptions => if args.isEmpty then .perform .repl else .misuse
    | .help => .help .program
    | _ => .misuse

/-! ## Answering -/

/-- What the program says of arguments that make no sense. -/
def usageNote : String := "error: unexpected arguments\n\nFor more information, try '--help'.\n"

/-- The outcome of a request. -/
def Request.answer (read : String → Except ReadFault ByteArray) (input : ByteArray) :
    Request → Outcome
  | perform c => c.perform read input
  | help topic => ⟨successStatus, topic.text.toUTF8, .empty⟩
  | misuse => ⟨usageStatus, .empty, usageNote.toUTF8⟩

end LoxLexer
