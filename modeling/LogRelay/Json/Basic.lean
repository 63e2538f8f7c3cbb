import LogRelay.Json.Numeral
import LogRelay.Json.Quoted

/-! JSON values. Strings and numbers keep their spelling, so that a reader may leave alone what
it does not need. -/

namespace LogRelay

inductive Json where
  | null
  | bool (b : Bool)
  | number (n : Numeral)
  | string (spelling : Bytes)
  | array (items : List Json)
  | object (members : List (Bytes × Json))
  deriving Repr

namespace Json

def text (s : String) : Json := string (Quoted.encode s)

def int (n : Int) : Json := number (Numeral.ofInt n)

def nat (n : Nat) : Json := int n

def record (members : List (String × Json)) : Json :=
  object (members.map fun (k, v) => (Quoted.encode k, v))

def string? : Json → Option String
  | string spelling => Quoted.decode? spelling
  | _ => none

def int64? : Json → Option Int
  | number n => n.toInt?.filter fun i => -0x8000000000000000 ≤ i && i < 0x8000000000000000
  | _ => none

mutual

/-- Every string stands for a text and every number for a finite value. -/
def sound : Json → Bool
  | null => true
  | bool _ => true
  | number n => n.finite
  | string spelling => (Quoted.decode? spelling).isSome
  | array items => soundItems items
  | object members => soundMembers members

def soundItems : List Json → Bool
  | [] => true
  | v :: rest => v.sound && soundItems rest

def soundMembers : List (Bytes × Json) → Bool
  | [] => true
  | (k, v) :: rest => (Quoted.decode? k).isSome && v.sound && soundMembers rest

end

def quoted (spelling : Bytes) : Bytes := 0x22 :: spelling ++ [0x22]

mutual

def compact : Json → Bytes
  | null => [0x6E, 0x75, 0x6C, 0x6C]
  | bool true => [0x74, 0x72, 0x75, 0x65]
  | bool false => [0x66, 0x61, 0x6C, 0x73, 0x65]
  | number n => n.spell
  | string spelling => quoted spelling
  | array [] => [0x5B, 0x5D]
  | array (v :: rest) => 0x5B :: v.compact ++ compactItems rest
  | object [] => [0x7B, 0x7D]
  | object ((k, v) :: rest) => 0x7B :: quoted k ++ 0x3A :: v.compact ++ compactMembers rest

def compactItems : List Json → Bytes
  | [] => [0x5D]
  | v :: rest => 0x2C :: v.compact ++ compactItems rest

def compactMembers : List (Bytes × Json) → Bytes
  | [] => [0x7D]
  | (k, v) :: rest => 0x2C :: quoted k ++ 0x3A :: v.compact ++ compactMembers rest

end

end Json
end LogRelay
