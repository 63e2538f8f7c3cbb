import LogRelay.Members
import LogRelay.Json.Basic

/-! Values as records. A record is an object whose known members stand in any order, or an array
of its fields in the order of their names. -/

namespace LogRelay.Json

/-- The values found for the fields of a record, `none` where one is missing. Only an object may
leave out a field that has no default. -/
structure Fields where
  positional : Bool
  slots : List (Option Json)
  deriving Repr

def decodeKeys? (members : List (Bytes × Json)) : Option (List (String × Json)) :=
  members.mapM fun (k, v) => (Quoted.decode? k).map fun k => (k, v)

-- Each field has a list of names, the first one preferred.
def fieldsOfMembers? (names : List (List String)) (members : List (String × Json)) :
    Option Fields :=
  (names.mapM fun field => slot? field members).map fun slots => ⟨false, slots⟩

def fieldsOfItems? (names : List (List String)) (items : List Json) : Option Fields :=
  if names.length < items.length then none
  else some ⟨true, items.map some ++ List.replicate (names.length - items.length) none⟩

def fields? (names : List (List String)) : Json → Option Fields
  | object members => decodeKeys? members >>= fieldsOfMembers? names
  | array items => fieldsOfItems? names items
  | _ => none

def list? {α : Type} (read : Json → Option α) : Json → Option (List α)
  | array items => items.mapM read
  | _ => none

namespace Fields

def required {α : Type} (f : Fields) (i : Nat) (read : Json → Option α) : Option α :=
  (f.slots[i]?).join >>= read

def withDefault {α : Type} (f : Fields) (i : Nat) (read : Json → Option α) (default : α) :
    Option α :=
  match (f.slots[i]?).join with
  | none => some default
  | some v => read v

def nullable {α : Type} (f : Fields) (i : Nat) (read : Json → Option α) : Option (Option α) :=
  match (f.slots[i]?).join with
  | none => if f.positional then none else some none
  | some null => some none
  | some v => (read v).map some

def optional {α : Type} (f : Fields) (i : Nat) (read : Json → Option α) : Option (Option α) :=
  match (f.slots[i]?).join with
  | none => some none
  | some null => some none
  | some v => (read v).map some

end Fields
end LogRelay.Json
