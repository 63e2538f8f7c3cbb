/-! Where configuration files are looked for. -/

namespace LogRelay

def joinPath (dir path : String) : String :=
  if path.startsWith "/" then path
  else if dir.isEmpty || dir.endsWith "/" then dir ++ path
  else dir ++ "/" ++ path

namespace Config

def expandTilde (home path : String) : String :=
  match path.toList with
  | ['~'] => home
  | '~' :: '/' :: rest => joinPath home (String.ofList rest)
  | _ => path

def userLocation (home : String) : String := joinPath home ".config/logship/config.yml"

def systemLocation : String := "/etc/logship/config.yml"

def location? (home : String) (isThere : String → Bool) : Option String → Option String
  | some path => some (expandTilde home path)
  | none => [userLocation home, systemLocation].find? isThere

end Config
end LogRelay
