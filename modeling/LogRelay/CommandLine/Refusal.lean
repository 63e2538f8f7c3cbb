import LogRelay.CommandLine.Resemblance
import LogRelay.CommandLine.Scope

/-! Why arguments are refused, and what is said about it. -/

namespace LogRelay.CommandLine

inductive Tip where
  | flag (f : Flag)
  | innerFlag (command : String) (f : Flag)
  | commands (words : List String)
  | hiddenCommand (word : String)
  deriving DecidableEq, Repr

inductive Refusal where
  | missingValue
  | repeated (s : Scope) (f : Flag)
  | extraValue (s : Scope) (used : List Flag) (f : Flag) (value : String)
  | unexpected (s : Scope) (used : List Flag) (word : String) (tip : Option Tip)
  | unrecognized (s : Scope) (word : String) (tip : Option Tip)
  | missingCommand (s : Scope)
  | bare (s : Scope)
  deriving DecidableEq, Repr

def quoted (s : String) : String := "'" ++ s ++ "'"

namespace Tip

def text : Tip → String
  | flag f => "a similar argument exists: " ++ quoted f.written
  | innerFlag command f => quoted (command ++ " " ++ f.written) ++ " exists"
  | commands [word] => "a similar subcommand exists: " ++ quoted word
  | commands words => "some similar subcommands exist: " ++ ", ".intercalate (words.map quoted)
  | hiddenCommand word =>
    "subcommand " ++ quoted word ++ " exists; to use it, remove the '--' before it"

end Tip

namespace Refusal

def text : Refusal → String
  | missingValue =>
    "a value is required for " ++ quoted Flag.config.form ++ " but none was supplied"
  | repeated _ f => "the argument " ++ quoted f.form ++ " cannot be used multiple times"
  | extraValue _ _ f value =>
    "unexpected value " ++ quoted value ++ " for " ++ quoted f.form ++
      " found; no more were expected"
  | unexpected _ _ word _ => "unexpected argument " ++ quoted word ++ " found"
  | unrecognized _ word _ => "unrecognized subcommand " ++ quoted word
  | missingCommand s =>
    quoted s.path ++ " requires a subcommand but one was not provided\n  [subcommands: " ++
      ", ".intercalate (s.commands.map (·.1)) ++ "]"
  | bare _ => ""

def tip? : Refusal → Option Tip
  | unexpected _ _ _ tip | unrecognized _ _ tip => tip
  | _ => none

def usage? : Refusal → Option String
  | missingValue | bare _ => none
  | repeated s _ | unrecognized s _ _ | missingCommand s => some s.usage
  | extraValue s used _ _ | unexpected s used _ _ => some (s.usageWith used)

def helpful : Refusal → Bool
  | unrecognized s _ _ => !s.isHelp
  | _ => true

def lines (r : Refusal) : List String :=
  match r with
  | bare s => s.explanation
  | _ => ["error: " ++ r.text] ++ r.tip?.toList.flatMap (fun t => ["", "  tip: " ++ t.text]) ++
    r.usage?.toList.flatMap (fun u => ["", "Usage: " ++ u]) ++
    if r.helpful then ["", "For more information, try '--help'."] else []

def stray (s : Scope) (word : String) : Refusal :=
  if s.commands.isEmpty then unexpected s [] word none
  else
    let similar := (s.commands.map (·.1)).filter (Resemblance.holds word)
    unrecognized s word (if similar.isEmpty then none else some (.commands similar))

def strayBehind (s : Scope) (word : String) : Refusal :=
  if (s.enter? word).isSome then unexpected s [] word (some (.hiddenCommand word))
  else stray s word

/-- The flag of an inner command that is like a word; that command is named first among the
arguments left. -/
def innerTip? (s : Scope) (name : String) (rest : List String) : Option Tip := do
  let word ← rest.find? fun word => (s.enter? word).any fun inner =>
    inner.flags.any (Resemblance.holds name ·.word)
  let inner ← s.enter? word
  let f ← inner.flags.find? (Resemblance.holds name ·.word)
  return .innerFlag word f

def unknownFlag (s : Scope) (used : List Flag) (name : String) (rest : List String) : Refusal :=
  match s.flags.find? (Resemblance.holds name ·.word) with
  | some f =>
    unexpected s (if used.contains f then used else used ++ [f]) ("--" ++ name) (some (.flag f))
  | none => unexpected s used ("--" ++ name) (innerTip? s name rest)

end Refusal
end LogRelay.CommandLine
