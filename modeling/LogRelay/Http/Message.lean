import LogRelay.Text.Utf8

/-! HTTP messages as bytes: a head of lines, an empty line and a body. -/

namespace LogRelay.Http

abbrev Headers := List (String × String)

def lineEnd : String := "\r\n"

def headText (first : String) (headers : Headers) : String :=
  first ++ lineEnd ++ String.join (headers.map fun (k, v) => k ++ ": " ++ v ++ lineEnd) ++ lineEnd

def write (first : String) (headers : Headers) (body : Bytes) : Bytes :=
  let headers := headers ++ [("connection", "close"), ("content-length", body.length.repr)]
  Utf8.encode (headText first headers) ++ body

def line? (bs : Bytes) : Option (Bytes × Bytes) :=
  match bs.dropWhile (· != 0x0A) with
  | [] => none
  | _ :: rest =>
    let l := bs.takeWhile (· != 0x0A)
    some (if l.getLast? = some 0x0D then l.dropLast else l, rest)

-- The lines up to an empty one, and what follows. `fuel` is more than the number of bytes.
def headLines : Nat → Bytes → Option (List String × Bytes)
  | 0, _ => none
  | fuel + 1, bs => do
    let (l, rest) ← line? bs
    if l.isEmpty then return ([], rest)
    let (ls, body) ← headLines fuel rest
    return (Utf8.decodeLossy l :: ls, body)

def head? (bs : Bytes) : Option (List String × Bytes) := headLines (bs.length + 1) bs

def trim (s : List Char) : String :=
  String.ofList ((s.dropWhile (· == ' ')).reverse.dropWhile (· == ' ')).reverse

def header (l : String) : String × String :=
  (String.ofList ((l.toList.takeWhile (· != ':')).map Char.toLower),
    trim ((l.toList.dropWhile (· != ':')).drop 1))

def words (l : String) : List String := (l.splitOn " ").filter (· ≠ "")

inductive Progress where
  | unfinished
  | broken
  | finished (status : Nat) (body : Bytes)
  deriving DecidableEq, Repr

def hexNumber? (s : String) : Option Nat :=
  if s.isEmpty then none
  else s.toList.foldlM (fun n c =>
    if c.isDigit then some (16 * n + (c.toNat - '0'.toNat))
    else if 'a' ≤ c.toLower && c.toLower ≤ 'f' then
      some (16 * n + (c.toLower.toNat - 'a'.toNat + 10))
    else none) 0

-- The chunks of a body, each after a line with its size; one of size zero is the last. `fuel` is
-- more than the number of bytes.
def chunks (status : Nat) : Nat → Bytes → Bytes → Progress
  | 0, _, _ => .broken
  | fuel + 1, body, bs =>
    match line? bs with
    | none => .unfinished
    | some (l, rest) =>
      match hexNumber? (trim ((Utf8.decodeLossy l).toList.takeWhile (· != ';'))) with
      | none => .broken
      | some 0 => .finished status body
      | some n =>
        if rest.length < n then .unfinished
        else match line? (rest.drop n) with
          | some ([], more) => chunks status fuel (body ++ rest.take n) more
          | some _ => .broken
          | none => .unfinished

def bodiless (status : Nat) : Bool := status = 204 || status = 304

/-- The body of a response that has come in so far. Without a length it goes on to the end of the
connection. -/
def bodyProgress (ended : Bool) (status : Nat) (headers : Headers) (bs : Bytes) : Progress :=
  let short : Progress := if ended then .broken else .unfinished
  if bodiless status then .finished status []
  else if (headers.lookup "transfer-encoding").any (·.toLower = "chunked") then
    match chunks status (bs.length + 1) [] bs with
    | .unfinished => short
    | p => p
  else match headers.lookup "content-length" with
    | none => if ended then .finished status bs else .unfinished
    | some l => match l.toNat? with
      | none => .broken
      | some n => if n ≤ bs.length then .finished status (bs.take n) else short

def response (ended : Bool) : Nat → Bytes → Progress
  | 0, _ => .broken
  | fuel + 1, bs =>
    match head? bs with
    | none | some ([], _) => if ended then .broken else .unfinished
    | some (first :: lines, rest) =>
      match words first with
      | version :: code :: _ =>
        match version.startsWith "HTTP/1.", code.toNat? with
        | true, some status =>
          if 100 ≤ status && status < 200 then response ended fuel rest
          else bodyProgress ended status (lines.map header) rest
        | _, _ => .broken
      | _ => .broken

def requested? (bs : Bytes) : Option (String × String) :=
  match head? bs with
  | some (first :: _, _) => match words first with
    | [method, path, _] => some (method, path)
    | _ => none
  | _ => none

end LogRelay.Http
