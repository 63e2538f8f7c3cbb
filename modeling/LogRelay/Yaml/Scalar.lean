import LogRelay.Text.Utf8
import LogRelay.Yaml.Cursor

/-! Scalars: plain, quoted, and in blocks. Each reader gives the text and the position after it. -/

namespace LogRelay.Yaml

inductive ScalarStyle where
  | plain | singleQuoted | doubleQuoted | literal | folded
  deriving DecidableEq, Repr

structure Gap where
  broken : Bool := false
  blanks : List Char := []
  first : List Char := []
  more : List Char := []

namespace Gap

def fold (g : Gap) : List Char :=
  if g.broken then
    if g.first = ['\n'] then (if g.more.isEmpty then [' '] else g.more) else g.first ++ g.more
  else g.blanks

-- Reads blanks and breaks. After a break no tab may stand before the column `indent`. `fuel` is
-- more than the number of characters.
def scan (indent : Nat) : Nat → Gap → Cursor → Scan (Gap × Cursor)
  | 0, g, c => .ok (g, c)
  | fuel + 1, g, c =>
    match c.rest with
    | [] => .ok (g, c)
    | x :: _ =>
      if isBlank x then
        if g.broken && c.column < indent && x == '\t' then .error .plainScalar
        else if g.broken then scan indent fuel g (c.skip 1)
        else scan indent fuel { g with blanks := g.blanks ++ [x] } (c.skip 1)
      else if isBreak x then
        let (text, c) := c.breakLine
        if g.broken then scan indent fuel { g with more := g.more ++ text } c
        else scan indent fuel { g with broken := true, blanks := [], first := text } c
      else .ok (g, c)

end Gap

namespace Plain

def isFlowIndicator (c : Char) : Bool :=
  c == ',' || c == '[' || c == ']' || c == '\x7b' || c == '\x7d'

def isGap : Option Char → Bool
  | none => true
  | some c => isBlank c || isBreak c

def wordLength (flow : Bool) : Nat → List Char → Scan Nat
  | n, [] => .ok n
  | n, c :: rest =>
    if isBlank c || isBreak c then .ok n
    else if flow && c == ':' && rest.head?.any (fun d => isFlowIndicator d || d == '?') then
      .error .plainScalar
    else if (c == ':' && isGap rest.head?) || (flow && isFlowIndicator c) then .ok n
    else wordLength flow (n + 1) rest

/-- Reads words and the gaps between them, down to a line indented less than `indent`. The text is
collected in reverse. The flag says whether the scalar ends with its line. -/
def scan (flow : Bool) (indent : Nat) :
    Nat → List Char → Gap → Cursor → Scan (List Char × Bool × Cursor)
  | 0, _, _, _ => .error .plainScalar
  | fuel + 1, acc, g, c =>
    if c.atDocumentMark || c.sees '#' then .ok (acc, g.broken, c)
    else do
      let n ← wordLength flow 0 c.rest
      let acc := if n = 0 then acc else (c.rest.take n).reverse ++ (g.fold.reverse ++ acc)
      let ended := n = 0 && g.broken
      let c := c.skip n
      if !c.next (fun x => isBlank x || isBreak x) then return (acc, ended, c)
      else
        let (g, c) ← Gap.scan indent (c.bound + 1) (if n = 0 then g else {}) c
        if !flow && c.column < indent then return (acc, g.broken, c)
        else scan flow indent fuel acc g c

end Plain

def plainScalar (flow : Bool) (indent : Nat) (c : Cursor) : Scan (String × Bool × Cursor) := do
  let (text, ended, c) ← Plain.scan flow indent (c.bound + 1) [] {} c
  return (String.ofList text.reverse, ended, c)

namespace Quoted

def escape? (c : Char) : Option (Char ⊕ Nat) :=
  match c with
  | '0' => some (.inl '\x00')
  | 'a' => some (.inl '\x07')
  | 'b' => some (.inl '\x08')
  | 't' | '\t' => some (.inl '\t')
  | 'n' => some (.inl '\n')
  | 'v' => some (.inl '\x0B')
  | 'f' => some (.inl '\x0C')
  | 'r' => some (.inl '\r')
  | 'e' => some (.inl '\x1B')
  | ' ' => some (.inl ' ')
  | '"' => some (.inl '"')
  | '/' => some (.inl '/')
  | '\\' => some (.inl '\\')
  | 'N' => some (.inl '\u0085')
  | '_' => some (.inl '\u00A0')
  | 'L' => some (.inl '\u2028')
  | 'P' => some (.inl '\u2029')
  | 'x' => some (.inr 2)
  | 'u' => some (.inr 4)
  | 'U' => some (.inr 8)
  | _ => none

def code? (n : Nat) (s : List Char) : Option Char := do
  let ds ← (s.take n).mapM hexDigit?
  let v := ds.foldl (fun v d => 16 * v + d) 0
  if ds.length = n && v.isValidChar then some (Char.ofNat v) else none

def word (single : Bool) : Nat → List Char → Cursor → Scan (List Char × Bool × Cursor)
  | 0, _, _ => .error .quotedScalar
  | fuel + 1, acc, c =>
    match c.rest with
    | [] => .ok (acc, false, c)
    | x :: rest =>
      if isBlank x || isBreak x then .ok (acc, false, c)
      else if single then
        if x == '\'' then
          if rest.head? == some '\'' then word single fuel ('\'' :: acc) (c.skip 2)
          else .ok (acc, false, c)
        else word single fuel (x :: acc) (c.skip 1)
      else if x == '"' then .ok (acc, false, c)
      else if x == '\\' then
        match rest with
        | [] => .error .quotedScalar
        | y :: rest =>
          if isBreak y then .ok (acc, true, (c.skip 1).skipLine)
          else match escape? y with
            | none => .error .quotedScalar
            | some (.inl z) => word single fuel (z :: acc) (c.skip 2)
            | some (.inr n) =>
              match code? n rest with
              | none => .error .quotedScalar
              | some z => word single fuel (z :: acc) (c.skip (2 + n))
      else word single fuel (x :: acc) (c.skip 1)

def scan (single : Bool) : Nat → List Char → Cursor → Scan (List Char × Cursor)
  | 0, _, _ => .error .quotedScalar
  | fuel + 1, acc, c =>
    if c.atDocumentMark || c.atEnd then .error .quotedScalar
    else do
      let (acc, broken, c) ← word single (c.bound + 1) acc c
      if c.sees (if single then '\'' else '"') then return (acc, c.skip 1)
      else
        let (g, c) ← Gap.scan 0 (c.bound + 1) { broken } c
        scan single fuel (g.fold.reverse ++ acc) c

end Quoted

def quotedScalar (single : Bool) (c : Cursor) : Scan (String × Cursor) := do
  let (text, c) ← Quoted.scan single (c.bound + 1) [] (c.skip 1)
  return (String.ofList text.reverse, c)

namespace Block

inductive Chomping where
  | strip | clip | keep
  deriving DecidableEq, Repr

def header (c : Cursor) : Scan (Chomping × Option Nat × Cursor) :=
  let chomping (c : Cursor) : Option Chomping :=
    if c.sees '+' then some .keep else if c.sees '-' then some .strip else none
  let indentation (c : Cursor) : Scan (Option Nat × Cursor) :=
    match c.rest.head? with
    | some x =>
      if x == '0' then .error .blockScalar
      else if '1' ≤ x && x ≤ '9' then .ok (some (x.toNat - '0'.toNat), c.skip 1)
      else .ok (none, c)
    | none => .ok (none, c)
  match chomping c with
  | some k => do
    let (n, c) ← indentation (c.skip 1)
    return (k, n, c)
  | none => do
    let (n, c) ← indentation c
    match n, chomping c with
    | some n, some k => return (k, some n, c.skip 1)
    | n, _ => return (.clip, n, c)

/-- Reads indentation and empty lines. `indent` is 0 as long as it is not known; then the largest
column reached is kept in `widest`. -/
def breaks (indent : Nat) : Nat → Nat → List Char → Cursor → Scan (Nat × List Char × Cursor)
  | 0, widest, acc, c => .ok (widest, acc, c)
  | fuel + 1, widest, acc, c =>
    let spaces := (c.rest.takeWhile (· == ' ')).length
    let c := c.skip (if indent = 0 then spaces else min spaces (indent - c.column))
    let widest := max widest c.column
    if (indent = 0 || c.column < indent) && c.sees '\t' then .error .blockScalar
    else if c.next isBreak then
      let (text, c) := c.breakLine
      breaks indent fuel widest (acc ++ text) c
    else .ok (widest, acc, c)

-- Reads the lines that stand at the column `indent`. `lead` is the break before the next line,
-- `trail` the empty lines after that. The text is collected in reverse.
def lines (literal : Bool) (indent : Nat) : Nat → Bool → List Char → List Char → List Char →
    Cursor → Scan (List Char × List Char × List Char × Cursor)
  | 0, _, acc, lead, trail, c => .ok (acc, lead, trail, c)
  | fuel + 1, blankBefore, acc, lead, trail, c =>
    if c.column = indent && !c.atEnd then do
      let blank := c.next isBlank
      let join :=
        if !literal && lead = ['\n'] && !blankBefore && !blank then
          (if trail.isEmpty then [' '] else trail)
        else lead ++ trail
      let (line, c) := c.span (!isBreak ·)
      let acc := line.reverse ++ (join.reverse ++ acc)
      let (lead, c) := c.breakLine
      let (_, trail, c) ← breaks indent (c.bound + 1) 0 [] c
      lines literal indent fuel blank acc lead trail c
    else return (acc, lead, trail, c)

end Block

def blockScalar (literal : Bool) (parent : Int) (c : Cursor) : Scan (String × Cursor) := do
  let (chomping, increment, c) ← Block.header (c.skip 1)
  let c ← c.endLine .blockScalar
  let known := match increment with
    | none => 0
    | some n => if 0 ≤ parent then parent.toNat + n else n
  let (widest, trail, c) ← Block.breaks known (c.bound + 1) 0 [] c
  let indent := if known = 0 then max widest (max (parent + 1).toNat 1) else known
  let (acc, lead, trail, c) ← Block.lines literal indent (c.bound + 1) false [] [] trail c
  let tail := match chomping with
    | .strip => []
    | .clip => lead
    | .keep => lead ++ trail
  return (String.ofList (acc.reverse ++ tail), c)

end LogRelay.Yaml
