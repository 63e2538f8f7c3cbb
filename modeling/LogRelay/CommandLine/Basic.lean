import LogRelay.CommandLine.Arguments
import LogRelay.Config.Load
import LogRelay.Config.Location
import LogRelay.Config.Starter
import LogRelay.Text.Literal

/-! What a command does: it ends with an exit code, what it printed and the files as it leaves
them, or it goes on to ship messages under a configuration. -/

namespace LogRelay.CommandLine

structure Surroundings where
  env : Environment
  home : String
  cwd : Place
  disk : Disk

structure Report where
  exit : Nat
  output : String := ""
  errors : String := ""
  disk : Disk

inductive Plan where
  | report (r : Report)
  | ship (c : Config)

def lines (l : List String) : String := String.join (l.map (· ++ "\n"))

namespace Surroundings

def read (s : Surroundings) (path : String) : Except FileFault Bytes := s.disk.read s.cwd path

def load (s : Surroundings) (path : String) : Except ConfigError Config :=
  Config.load s.env path (s.read path)

def isThere (s : Surroundings) (path : String) : Bool := s.disk.hasPath s.cwd path

def room? (s : Surroundings) (path : String) : Option Place :=
  match s.disk.locate [] path with
  | .ok p => some p
  | .error .missing =>
    let p := (path.splitOn "/").filter (· ≠ "")
    if s.disk.hasRoomFor p.dropLast then some p else none
  | .error _ => none

end Surroundings

def succeed (s : Surroundings) (output : String) : Report :=
  { exit := 0, output, disk := s.disk }

def fail (s : Surroundings) (errors : List String) : Report :=
  { exit := 1, errors := lines errors, disk := s.disk }

def errorLiteral : ConfigError → String
  | .unreadable path fault =>
    "Io(Custom \x7b kind: " ++ fault.name ++ ", error: " ++
      Literal.quote (ConfigError.fileMessage path fault) ++ " \x7d)"
  | .malformed => "YamlParse"
  | .unsetVariables names =>
    "Validation(" ++ Literal.quote (ConfigError.variablesMessage names) ++ ")"
  | .invalid problems =>
    "ValidationList(" ++ Literal.list (problems.map Config.Problem.message) ++ ")"

def configNotFound : List String :=
  ["Error: config not found",
    "Searched locations:",
    "  ~/.config/logship/config.yml",
    "  /etc/logship/config.yml",
    "",
    "Use --config <path> to specify a config file, or run 'logship config init' to generate one."]

def run (s : Surroundings) : Option String → Plan
  | none => .report (fail s configNotFound)
  | some path => match s.load path with
    | .ok c => .ship c
    | .error e => .report (fail s ["Error: Config(" ++ errorLiteral e ++ ")"])

def writeStarter (s : Surroundings) (path : String) (warnings : List String) : Report :=
  match s.isThere path, s.room? path with
  | false, some p =>
    { exit := 0
      output := lines ["Config file written to " ++ path]
      errors := lines warnings
      disk := s.disk.write p (Utf8.encode Config.starter) }
  | _, _ =>
    fail s (warnings ++ ["Error: Config file already exists at " ++ path,
      "Remove it first or use --stdout to print the config"])

def initConfig (s : Surroundings) : Report :=
  let path := Config.userLocation s.home
  if (s.room? path).isSome then writeStarter s path []
  else writeStarter s Config.systemLocation
    ["Warning: Could not create directory " ++ joinPath s.home ".config/logship",
      "Falling back to " ++ Config.systemLocation]

def validateConfig (s : Surroundings) : Option String → Report
  | none => fail s ["Error: " ++ Literal.quote
      "No config file found. Use --config to specify a path."]
  | some path =>
    let output := lines ["Validating config file: " ++ path]
    match s.load path with
    | .ok _ => succeed s (output ++ lines ["✓ Config is valid"])
    | .error e =>
      { fail s ["✗ Config validation failed:", e.message] with output }

def plan (s : Surroundings) (args : List String) : Plan :=
  match parse args with
  | .help scope => .report (succeed s (lines scope.explanation))
  | .refused why => .report { exit := 2, errors := lines why.lines, disk := s.disk }
  | .invocation i =>
    let config := Config.location? s.home s.isThere i.config
    match i.action with
    | .run => run s config
    | .initConfig true => .report (succeed s Config.starter)
    | .initConfig false => .report (initConfig s)
    | .validateConfig => .report (validateConfig s config)

end LogRelay.CommandLine
