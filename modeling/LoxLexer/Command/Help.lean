/-!
# Help

The help texts of the program and of its commands.
-/

namespace LoxLexer

/-- What help can be asked for. -/
inductive HelpTopic where
  | program
  | run
  | repl
  | tokens
  | help

namespace HelpTopic

/-- The topic of a command by its name. -/
def ofName? : String → Option HelpTopic
  | "run" => some run
  | "repl" => some repl
  | "tokens" => some tokens
  | "help" => some help
  | _ => none

/-- The lines of a help text. -/
def lines : HelpTopic → List String
  | program =>
    ["Lox scanner front end",
      "",
      "Usage: glox [COMMAND]",
      "",
      "Commands:",
      "  run     Scan a .lox file and print its tokens",
      "  repl    Start the interactive prompt",
      "  tokens  Dump the token stream of a source file",
      "  help    Print this message or the help of the given subcommand(s)",
      "",
      "Options:",
      "  -h, --help  Print help"]
  | run =>
    ["Scan a .lox file and print its tokens",
      "",
      "Usage: glox run <FILE>",
      "",
      "Arguments:",
      "  <FILE>  Path to .lox source file",
      "",
      "Options:",
      "  -h, --help  Print help"]
  | repl =>
    ["Start the interactive prompt",
      "",
      "Usage: glox repl",
      "",
      "Options:",
      "  -h, --help  Print help"]
  | tokens =>
    ["Dump the token stream of a source file",
      "",
      "Usage: glox tokens [OPTIONS] <FILE>",
      "",
      "Arguments:",
      "  <FILE>  Path to .lox source file",
      "",
      "Options:",
      "      --format <FORMAT>  Output format [default: pretty] [possible values: pretty, json]",
      "  -h, --help             Print help"]
  | help =>
    ["Print this message or the help of the given subcommand(s)",
      "",
      "Usage: glox help [COMMAND]...",
      "",
      "Arguments:",
      "  [COMMAND]...  Print help for the subcommand(s)"]

/-- The help text. -/
def text (topic : HelpTopic) : String :=
  String.join (topic.lines.map (· ++ "\n"))

end HelpTopic

end LoxLexer
