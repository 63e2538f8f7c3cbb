/-! Socket addresses in text form: `1.2.3.4:80`, or an IPv6 address in brackets with a scope. -/

namespace LogRelay

inductive SocketAddress where
  | v4 (octets : List Nat) (port : Nat)
  | v6 (groups : List Nat) (scope port : Nat)
  deriving DecidableEq, Repr

namespace SocketAddress

abbrev Part (α : Type) := List Char → Option (α × List Char)

def digit? (base : Nat) (c : Char) : Option Nat :=
  let v :=
    if '0' ≤ c && c ≤ '9' then some (c.toNat - '0'.toNat)
    else if 'a' ≤ c && c ≤ 'f' then some (c.toNat - 'a'.toNat + 10)
    else if 'A' ≤ c && c ≤ 'F' then some (c.toNat - 'A'.toNat + 10)
    else none
  v.filter (· < base)

def digits (base : Nat) (s : List Char) : List Nat :=
  (s.takeWhile fun c => (digit? base c).isSome).filterMap (digit? base)

def number (base bound : Nat) (s : List Char) : Option (Nat × List Char) :=
  let ds := digits base s
  let n := ds.foldl (fun n d => base * n + d) 0
  if ds.isEmpty || bound ≤ n then none else some (n, s.drop ds.length)

def char (c : Char) : Part Unit
  | d :: rest => if c = d then some ((), rest) else none
  | [] => none

def octet (s : List Char) : Option (Nat × List Char) :=
  let ds := digits 10 s
  if 3 < ds.length || (1 < ds.length && ds.head? = some 0) then none else number 10 256 s

def octets (s : List Char) : Option (List Nat × List Char) := do
  let (a, s) ← octet s
  let ((), s) ← char '.' s
  let (b, s) ← octet s
  let ((), s) ← char '.' s
  let (c, s) ← octet s
  let ((), s) ← char '.' s
  let (d, s) ← octet s
  return ([a, b, c, d], s)

def group (s : List Char) : Option (Nat × List Char) :=
  if 4 < (digits 16 s).length then none else number 16 65536 s

/-- The groups that the text begins with, at most `n`. Octets may stand for the last two; whether
they did is the second result. -/
def groups : Nat → List Nat → List Char → List Nat × Bool × List Char
  | 0, acc, s => (acc, false, s)
  | n + 1, acc, s =>
    let next := if acc.isEmpty then some ((), s) else char ':' s
    match next with
    | none => (acc, false, s)
    | some ((), t) =>
      match (if 1 ≤ n then octets t else none) with
      | some ([a, b, c, d], t) => (acc ++ [256 * a + b, 256 * c + d], true, t)
      | _ =>
        match group t with
        | some (g, t) => groups n (acc ++ [g]) t
        | none => (acc, false, s)

def v6Groups (s : List Char) : Option (List Nat × List Char) :=
  let (head, withOctets, s) := groups 8 [] s
  if head.length = 8 then some (head, s)
  else if withOctets then none
  else match s with
    | ':' :: ':' :: s =>
      let (tail, _, s) := groups (7 - head.length) [] s
      some (head ++ List.replicate (8 - head.length - tail.length) 0 ++ tail, s)
    | _ => none

def port (s : List Char) : Option (Nat × List Char) := do
  let ((), s) ← char ':' s
  number 10 65536 s

def scope : Part Nat
  | '%' :: s => number 10 0x100000000 s
  | s => some (0, s)

def v4? (s : List Char) : Option SocketAddress := do
  let (os, s) ← octets s
  let (p, s) ← port s
  if s.isEmpty then some (.v4 os p) else none

def v6? (s : List Char) : Option SocketAddress := do
  let ((), s) ← char '[' s
  let (gs, s) ← v6Groups s
  let (z, s) ← scope s
  let ((), s) ← char ']' s
  let (p, s) ← port s
  if s.isEmpty then some (.v6 gs z p) else none

def parse? (s : String) : Option SocketAddress :=
  match v4? s.toList with
  | some a => some a
  | none => v6? s.toList

end SocketAddress
end LogRelay
