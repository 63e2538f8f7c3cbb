/-! The command words and the flags that each of them knows. -/

namespace LogRelay.CommandLine

inductive Flag where
  | config
  | toOutput
  | help
  deriving DecidableEq, Repr

namespace Flag

def word : Flag → String
  | config => "config"
  | toOutput => "stdout"
  | help => "help"

def written (f : Flag) : String := "--" ++ f.word

def form : Flag → String
  | config => config.written ++ " <CONFIG>"
  | f => f.written

end Flag

inductive Scope where
  | top | run | config | configInit | configValidate
  | help | configHelp
  deriving DecidableEq, Repr

namespace Scope

def commands : Scope → List (String × Scope)
  | top => [("run", run), ("config", config), ("help", help)]
  | config => [("init", configInit), ("validate", configValidate), ("help", configHelp)]
  | _ => []

def enter? (s : Scope) (word : String) : Option Scope := s.commands.lookup word

def isHelp : Scope → Bool
  | help | configHelp => true
  | _ => false

def flags : Scope → List Flag
  | help | configHelp => []
  | configInit => [.toOutput, .config, .help]
  | _ => [.config, .help]

def path : Scope → String
  | top => "logship"
  | run => "logship run"
  | config => "logship config"
  | configInit => "logship config init"
  | configValidate => "logship config validate"
  | help => "logship help"
  | configHelp => "logship config help"

def needsCommand : Scope → Bool
  | config => true
  | _ => false

def usage (s : Scope) : String :=
  s.path ++ match s with
    | top => " [OPTIONS] [COMMAND]"
    | config => " [OPTIONS] <COMMAND>"
    | help | configHelp => " [COMMAND]..."
    | _ => " [OPTIONS]"

/-- What can be written with the flags that are meant. -/
def usageWith (s : Scope) (used : List Flag) : String :=
  if used.isEmpty then s.usage
  else s.path ++ String.join (used.map (" " ++ ·.form)) ++
    if s.needsCommand then " <COMMAND>" else ""

def helpHeading : String := "Print this message or the help of the given subcommand(s)"

def aboutRun : String := "Read host events as JSON lines from stdin and ship them"

def optionsHelp : List String :=
  ["Options:", "      --config <CONFIG>  ", "  -h, --help             Print help"]

def explanation (s : Scope) : List String :=
  let usage := "Usage: " ++ s.usage
  match s with
  | top =>
    ["Batches per-source log lines and ships them to a log ingestion API", "", usage, "",
      "Commands:",
      "  run     " ++ aboutRun,
      "  config  ",
      "  help    " ++ helpHeading,
      ""] ++ optionsHelp
  | run => [aboutRun, "", usage, ""] ++ optionsHelp
  | config =>
    [usage, "",
      "Commands:",
      "  init      ",
      "  validate  ",
      "  help      " ++ helpHeading,
      ""] ++ optionsHelp
  | configInit =>
    [usage, "",
      "Options:",
      "      --config <CONFIG>  ",
      "      --stdout           ",
      "  -h, --help             Print help"]
  | configValidate => [usage, ""] ++ optionsHelp
  | help | configHelp =>
    [helpHeading, "", usage, "",
      "Arguments:",
      "  [COMMAND]...  Print help for the subcommand(s)"]

end Scope
end LogRelay.CommandLine
