/-! References to environment variables in texts, written `$env` with a name in braces. A text is
read once, from left to right; what is put in for a reference is not read again. -/

namespace LogRelay

abbrev Environment := String → Option String

inductive Piece where
  | literal (c : Char)
  | reference (name : List Char)
  deriving DecidableEq, Repr

namespace Reference

def opening : List Char := ['$', 'e', 'n', 'v', '\x7b']

def closing : Char := '\x7d'

def isNameStart (c : Char) : Bool :=
  ('A' ≤ c && c ≤ 'Z') || ('a' ≤ c && c ≤ 'z') || c == '_'

def isNameChar (c : Char) : Bool := isNameStart c || ('0' ≤ c && c ≤ '9')

def spell (name : List Char) : List Char := opening ++ name ++ [closing]

def name? (s : List Char) : Option (List Char) :=
  if opening.isPrefixOf s then
    let rest := s.drop opening.length
    let name := rest.takeWhile isNameChar
    match name, rest.dropWhile isNameChar with
    | c :: _, d :: _ => if isNameStart c && d = closing then some name else none
    | _, _ => none
  else none

/-- Cuts a text, passing over the first `n` characters, which belong to a reference already cut. -/
def cutFrom : Nat → List Char → List Piece
  | _, [] => []
  | n + 1, _ :: rest => cutFrom n rest
  | 0, c :: rest =>
    match name? (c :: rest) with
    | some name => .reference name :: cutFrom (opening.length + name.length) rest
    | none => .literal c :: cutFrom 0 rest

def cut (s : List Char) : List Piece := cutFrom 0 s

def render (env : Environment) : Piece → List Char
  | .literal c => [c]
  | .reference name =>
    match env (String.ofList name) with
    | some value => value.toList
    | none => spell name

def expand (env : Environment) (text : String) : String :=
  String.ofList ((cut text.toList).flatMap (render env))

def names (text : String) : List String :=
  (cut text.toList).filterMap fun
    | .literal _ => none
    | .reference name => some (String.ofList name)

def sortedNames (text : String) : List String :=
  ((names text).mergeSort (fun a b => decide (a ≤ b))).eraseDups

end Reference
end LogRelay
