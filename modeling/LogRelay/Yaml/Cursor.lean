/-! Positions in a YAML text, and the classes of its characters. -/

namespace LogRelay.Yaml

inductive Fault where
  | character
  | directive
  | anchor
  | tag
  | plainScalar
  | quotedScalar
  | blockScalar
  | missingColon
  | misplacedEntry
  | misplacedKey
  | misplacedValue
  | strayCharacter
  | version
  | tagHandle
  | documentStart
  | nodeContent
  | blockSequence
  | blockMapping
  | flowSequence
  | flowMapping
  | unknownAnchor
  | severalDocuments
  | noDocument
  | tooDeep
  deriving DecidableEq, Repr

abbrev Scan := Except Fault

def isBreak (c : Char) : Bool :=
  c == '\n' || c == '\r' || c == '\u0085' || c == '\u2028' || c == '\u2029'

def isBlank (c : Char) : Bool := c == ' ' || c == '\t'

def isWordChar (c : Char) : Bool :=
  ('0' ≤ c && c ≤ '9') || ('A' ≤ c && c ≤ 'Z') || ('a' ≤ c && c ≤ 'z') || c == '_' || c == '-'

def hexDigit? (c : Char) : Option Nat :=
  if '0' ≤ c && c ≤ '9' then some (c.toNat - '0'.toNat)
  else if 'a' ≤ c && c ≤ 'f' then some (c.toNat - 'a'.toNat + 10)
  else if 'A' ≤ c && c ≤ 'F' then some (c.toNat - 'A'.toNat + 10)
  else none

def isAllowed (c : Char) : Bool :=
  c == '\t' || c == '\n' || c == '\r' || (' ' ≤ c && c ≤ '~') || c == '\u0085' ||
    ('\u00A0' ≤ c && c ≤ '\uFFFD') || '\uFFFF' < c

structure Cursor where
  rest : List Char
  -- At least the number of characters left, the fuel of those who read on and on.
  bound : Nat
  -- The number of bytes before this place.
  index : Nat := 0
  line : Nat := 0
  column : Nat := 0

namespace Cursor

def ofText (s : List Char) : Cursor := { rest := s, bound := s.length }

def peek (c : Cursor) (n : Nat) : Option Char := c.rest[n]?

def sees (c : Cursor) (x : Char) : Bool := c.rest.head? == some x

def next (c : Cursor) (p : Char → Bool) : Bool := c.rest.head?.any p

def atEnd (c : Cursor) : Bool := c.rest.isEmpty

def gapAt (c : Cursor) (n : Nat) : Bool :=
  match c.peek n with
  | none => true
  | some x => isBlank x || isBreak x

def breakAt (c : Cursor) (n : Nat) : Bool :=
  match c.peek n with
  | none => true
  | some x => isBreak x

def skip (c : Cursor) (n : Nat) : Cursor :=
  let bytes := (c.rest.take n).foldl (fun k x => k + x.utf8Size) 0
  { c with rest := c.rest.drop n, index := c.index + bytes, column := c.column + n }

def onNextLine (c : Cursor) (bytes : Nat) (rest : List Char) : Cursor :=
  { c with rest, index := c.index + bytes, line := c.line + 1, column := 0 }

/-- Skips a line break, if there is one. The result is the text that it stands for. -/
def breakLine (c : Cursor) : List Char × Cursor :=
  match c.rest with
  | '\r' :: '\n' :: rest => (['\n'], c.onNextLine 2 rest)
  | x :: rest =>
    if isBreak x then
      (if x == '\u2028' || x == '\u2029' then [x] else ['\n'], c.onNextLine x.utf8Size rest)
    else ([], c)
  | [] => ([], c)

def skipLine (c : Cursor) : Cursor := c.breakLine.2

def span (c : Cursor) (p : Char → Bool) : List Char × Cursor :=
  let run := c.rest.takeWhile p
  (run, c.skip run.length)

def skipWhile (c : Cursor) (p : Char → Bool) : Cursor := (c.span p).2

def skipComment (c : Cursor) : Cursor :=
  if c.sees '#' then c.skipWhile (!isBreak ·) else c

def endLine (c : Cursor) (fault : Fault) : Scan Cursor :=
  let c := (c.skipWhile isBlank).skipComment
  if c.breakAt 0 then .ok c.skipLine else .error fault

def atIndicator (c : Cursor) (mark : Char) : Bool :=
  c.column = 0 && c.peek 0 == some mark && c.peek 1 == some mark && c.peek 2 == some mark &&
    c.gapAt 3

def atDocumentMark (c : Cursor) : Bool := c.atIndicator '-' || c.atIndicator '.'

end Cursor
end LogRelay.Yaml
