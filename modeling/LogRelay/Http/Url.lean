import LogRelay.Text.Utf8

/-! Addresses of HTTP servers and the paths on them. -/

namespace LogRelay

structure Url where
  host : String
  port : Nat
  path : String
  deriving DecidableEq, Repr

namespace Url

def isPlain (b : UInt8) : Bool :=
  0x20 < b && b < 0x7F && !([0x22, 0x3C, 0x3E, 0x60, 0x7B, 0x7D].contains b)

def hexDigit (n : UInt8) : Char := Char.ofNat (if n < 10 then n + 0x30 else n + 0x37).toNat

def encodeByte (b : UInt8) : List Char :=
  if isPlain b then [Char.ofNat b.toNat] else ['%', hexDigit (b >>> 4), hexDigit (b &&& 0xF)]

def encodePath (s : String) : String := String.ofList ((Utf8.encode s).flatMap encodeByte)

def isAuthorityEnd (c : Char) : Bool := c == '/' || c == '?' || c == '#'

-- A port of at least one digit; 80 where there is none.
def port? : List Char → Option Nat
  | [] | [':'] => some 80
  | ':' :: ds =>
    if ds.all Char.isDigit then
      (some (ds.foldl (fun n c => 10 * n + (c.toNat - '0'.toNat)) 0)).filter (· < 65536)
    else none
  | _ => none

def cutHost (s : List Char) : List Char × List Char :=
  match s with
  | '[' :: rest => (rest.takeWhile (· != ']'), (rest.dropWhile (· != ']')).drop 1)
  | s => (s.takeWhile (· != ':'), s.dropWhile (· != ':'))

def ofText? (s : String) : Option Url :=
  let opening := "http://".toList
  if opening.isPrefixOf s.toList then
    let rest := s.toList.drop opening.length
    let (name, more) := cutHost (rest.takeWhile (!isAuthorityEnd ·))
    let path := (rest.dropWhile (!isAuthorityEnd ·)).takeWhile (· != '#')
    let path := if path.head? = some '/' then path else '/' :: path
    if name.isEmpty then none
    else (port? more).map fun port =>
      ⟨String.ofList name, port, encodePath (String.ofList path)⟩
  else none

def authority (u : Url) : String :=
  let name := if u.host.toList.contains ':' then "[" ++ u.host ++ "]" else u.host
  if u.port = 80 then name else name ++ ":" ++ u.port.repr

end Url
end LogRelay
