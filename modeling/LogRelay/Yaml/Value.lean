import LogRelay.Members
import LogRelay.Yaml.Node

/-! What the nodes of a document say: texts, numbers, options and sections. -/

namespace LogRelay.Yaml

def nullTag : Bytes := Utf8.encode "tag:yaml.org,2002:null"

def intTag : Bytes := Utf8.encode "tag:yaml.org,2002:int"

def isNullText (s : String) : Bool := ["~", "null", "Null", "NULL"].contains s

def digits? (base : Nat) (s : List Char) : Option Nat :=
  if s.isEmpty then none
  else s.foldlM (fun n c => ((hexDigit? c).filter (· < base)).map fun d => base * n + d) 0

/-- A decimal number without leading zeros, or digits of another base after its mark. A plus may
stand before either. -/
def unsigned? (s : List Char) : Option Nat :=
  match (if s.head? = some '+' then s.tail else s) with
  | '0' :: 'x' :: rest => digits? 16 rest
  | '0' :: 'o' :: rest => digits? 8 rest
  | '0' :: 'b' :: rest => digits? 2 rest
  | '0' :: _ :: _ => none
  | rest => digits? 10 rest

namespace Document

def text? (d : Document) (n : Node) : Option String :=
  match d.deref n with
  | .scalar _ _ text => some text
  | _ => none

/-- A number below 2^64. It is a plain scalar, or a literal one tagged as an integer. -/
def natural? (d : Document) (n : Node) : Option Nat :=
  match d.deref n with
  | .scalar tag style text =>
    if style = .plain || (style = .literal && tag = some intTag) then
      (unsigned? text.toList).filter (· < 0x10000000000000000)
    else none
  | _ => none

def optional? {α : Type} (d : Document) (read : Node → Option α) (n : Node) :
    Option (Option α) :=
  let present := (read n).map some
  match d.deref n with
  | .scalar none .plain text => if text.isEmpty || isNullText text then some none else present
  | .scalar (some tag) .plain text =>
    if tag ≠ nullTag then present else if isNullText text then some none else none
  | _ => present

def section? (d : Document) (n : Node) : Option (List (String × Node)) :=
  match d.deref n with
  | .mapping _ entries => entries.mapM fun (k, v) => (d.text? k).map fun k => (k, v)
  | .scalar _ .plain "" => some []
  | _ => none

end Document
end LogRelay.Yaml
