import LogRelay.Config.Reader
import LogRelay.Config.Reference
import LogRelay.Disk

/-! From the text of a configuration file to a configuration that meets all conditions. -/

namespace LogRelay

inductive ConfigError where
  | unreadable (path : String) (fault : FileFault)
  | malformed
  | unsetVariables (names : List String)
  | invalid (problems : List Config.Problem)
  deriving DecidableEq, Repr

namespace ConfigError

def fileMessage (path : String) (fault : FileFault) : String :=
  "failed to " ++ (if fault.atOpening then "open" else "read") ++ " config file '" ++ path ++
    "': " ++ fault.message

def variablesMessage (names : List String) : String :=
  "environment variables are not set: " ++ ", ".intercalate names

def message : ConfigError → String
  | unreadable path fault => "failed to read config file: " ++ fileMessage path fault
  | malformed => "failed to parse YAML"
  | unsetVariables names => "validation failed: " ++ variablesMessage names
  | invalid problems =>
    "validation failed:\n" ++ "\n".intercalate (problems.map Config.Problem.message)

end ConfigError

namespace Config

def validate (c : Config) : Except ConfigError Config :=
  if c.problems.isEmpty then .ok c else .error (.invalid c.problems)

/-- References to variables are replaced before the text is read; what is put in for them must
hold no reference either. -/
def parse (env : Environment) (text : String) : Except ConfigError Config :=
  let text := Reference.expand env text
  match Reference.sortedNames text with
  | [] => match ofText? text with
    | none => .error .malformed
    | some c => validate c
  | names => .error (.unsetVariables names)

def load (env : Environment) (path : String) (content : Except FileFault Bytes) :
    Except ConfigError Config :=
  match content with
  | .error fault => .error (.unreadable path fault)
  | .ok bytes => match Utf8.decode? bytes with
    | none => .error (.unreadable path .notText)
    | some text => parse env text

end Config
end LogRelay
