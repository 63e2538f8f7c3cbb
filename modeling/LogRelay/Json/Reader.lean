import LogRelay.Json.Basic

/-! Reading JSON texts. White space may stand between any two tokens; nothing else may be left
over. Nesting is bounded by a depth that the caller chooses. -/

namespace LogRelay.Json

def isSpace (b : UInt8) : Bool := b == 0x20 || b == 0x09 || b == 0x0A || b == 0x0D

def skipSpace (bs : Bytes) : Bytes := bs.dropWhile isSpace

/-- Reads items until the closing byte, a comma between any two. `fuel` is at least the number of
bytes; the items are collected in reverse. -/
def series {α : Type} (close : UInt8) (item : Bytes → Option (α × Bytes)) :
    Nat → List α → Bytes → Option (List α × Bytes)
  | 0, _, _ => none
  | fuel + 1, acc, bs =>
    match item bs with
    | none => none
    | some (v, rest) =>
      match skipSpace rest with
      | [] => none
      | b :: rest =>
        if b = close then some ((v :: acc).reverse, rest)
        else if b = 0x2C then series close item fuel (v :: acc) (skipSpace rest)
        else none

def enclosed {α : Type} (close : UInt8) (item : Bytes → Option (α × Bytes)) (bs : Bytes) :
    Option (List α × Bytes) :=
  match skipSpace bs with
  | [] => none
  | b :: rest =>
    if b = close then some ([], rest) else series close item bs.length [] (b :: rest)

def member (value : Bytes → Option (Json × Bytes)) : Bytes → Option ((Bytes × Json) × Bytes)
  | 0x22 :: bs =>
    match Quoted.close? bs with
    | none => none
    | some (key, rest) =>
      match skipSpace rest with
      | 0x3A :: rest => (value (skipSpace rest)).map fun (v, rest) => ((key, v), rest)
      | _ => none
  | _ => none

def value : Nat → Bytes → Option (Json × Bytes)
  | _, 0x6E :: 0x75 :: 0x6C :: 0x6C :: rest => some (null, rest)
  | _, 0x74 :: 0x72 :: 0x75 :: 0x65 :: rest => some (bool true, rest)
  | _, 0x66 :: 0x61 :: 0x6C :: 0x73 :: 0x65 :: rest => some (bool false, rest)
  | _, 0x22 :: rest => (Quoted.close? rest).map fun (s, rest) => (string s, rest)
  | depth + 1, 0x5B :: rest =>
    (enclosed 0x5D (value depth) rest).map fun (vs, rest) => (array vs, rest)
  | depth + 1, 0x7B :: rest =>
    (enclosed 0x7D (member (value depth)) rest).map fun (ms, rest) => (object ms, rest)
  | _, bs => (Numeral.read? bs).map fun (n, rest) => (number n, rest)

def read? (depth : Nat) (bs : Bytes) : Option Json :=
  match value depth (skipSpace bs) with
  | some (v, rest) => if (skipSpace rest).isEmpty then some v else none
  | none => none

def readDeep? (bs : Bytes) : Option Json := read? bs.length bs

end LogRelay.Json
