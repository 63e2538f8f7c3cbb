import LogRelay.Yaml.Scalar

/-! Tokens of a YAML text. Indentation and the colons after simple keys are made explicit. -/

namespace LogRelay.Yaml

inductive Token where
  | versionDirective (major minor : Nat)
  | tagDirective (handle : String) (stem : Bytes)
  | documentStart
  | documentEnd
  | blockSequenceStart
  | blockMappingStart
  | blockEnd
  | flowSequenceStart
  | flowSequenceEnd
  | flowMappingStart
  | flowMappingEnd
  | blockEntry
  | flowEntry
  | key
  | value
  | alias (name : String)
  | anchor (name : String)
  | tag (handle : String) (suffix : Bytes)
  | scalar (style : ScalarStyle) (text : String)
  deriving DecidableEq, Repr

/-- A token that may turn out to begin a key, if a colon follows on its line. -/
structure SimpleKey where
  required : Bool
  position : Nat
  index : Nat
  line : Nat
  column : Nat

structure Lexer where
  cursor : Cursor
  tokens : Array Token := #[]
  indent : Int := -1
  indents : List Int := []
  keyAllowed : Bool := true
  -- The candidate of each flow collection, the innermost first; the last belongs to the block
  -- context.
  keys : List (Option SimpleKey) := [none]

namespace Lexer

def inFlow (l : Lexer) : Bool := 1 < l.keys.length

def push (l : Lexer) (t : Token) : Lexer := { l with tokens := l.tokens.push t }

def insert (l : Lexer) (i : Nat) (t : Token) : Lexer :=
  { l with tokens := l.tokens.insertIdxIfInBounds i t }

def setKey (l : Lexer) (k : Option SimpleKey) : Lexer := { l with keys := k :: l.keys.drop 1 }

def dropKey (l : Lexer) : Scan Lexer :=
  match l.keys.head?.join with
  | some k => if k.required then .error .missingColon else .ok (l.setKey none)
  | none => .ok l

def saveKey (l : Lexer) : Scan Lexer :=
  if l.keyAllowed then do
    let c := l.cursor
    let required := !l.inFlow && l.indent = c.column
    let l ← l.dropKey
    return l.setKey (some ⟨required, l.tokens.size, c.index, c.line, c.column⟩)
  else .ok l

def keyLimit : Nat := 1024

def dropStaleKeys (l : Lexer) : Scan Lexer := do
  let keys ← l.keys.mapM fun
    | some k =>
      if k.line < l.cursor.line || k.index + keyLimit < l.cursor.index then
        if k.required then .error .missingColon else .ok none
      else .ok (some k)
    | none => .ok none
  return { l with keys }

def deepen (l : Lexer) (column : Nat) (position : Option Nat) (t : Token) : Lexer :=
  if !l.inFlow && l.indent < column then
    let l := { l with indents := l.indent :: l.indents, indent := column }
    match position with
    | some i => l.insert i t
    | none => l.push t
  else l

def closeBlocks (column : Int) (l : Lexer) : List Int → Lexer
  | [] => l
  | outer :: rest =>
    if column < l.indent then
      closeBlocks column { l.push .blockEnd with indent := outer, indents := rest } rest
    else l

def unroll (l : Lexer) (column : Int) : Lexer :=
  if l.inFlow then l else closeBlocks column l l.indents

def skip (l : Lexer) (n : Nat) : Lexer := { l with cursor := l.cursor.skip n }

/-- Skips white space, comments and line breaks, and a byte order mark at the beginning of a line.
A tab is no indentation in the block context. -/
def skipGap : Nat → Lexer → Lexer
  | 0, l => l
  | fuel + 1, l =>
    let c := if l.cursor.column = 0 && l.cursor.sees '\uFEFF' then l.cursor.skip 1 else l.cursor
    let tabs := l.inFlow || !l.keyAllowed
    let c := (c.skipWhile fun x => x == ' ' || (tabs && x == '\t')).skipComment
    if c.next isBreak then
      skipGap fuel { l with cursor := c.skipLine, keyAllowed := !l.inFlow || l.keyAllowed }
    else { l with cursor := c }

def directiveNumber (c : Cursor) : Scan (Nat × Cursor) :=
  let (ds, c) := c.span Char.isDigit
  if ds.isEmpty || 9 < ds.length then .error .directive
  else .ok (ds.foldl (fun n d => 10 * n + (d.toNat - '0'.toNat)) 0, c)

def tagHandle (directive : Bool) (c : Cursor) : Scan (String × Cursor) :=
  if !c.sees '!' then .error .tag
  else
    let (name, c) := (c.skip 1).span isWordChar
    if c.sees '!' then .ok (String.ofList ('!' :: name ++ ['!']), c.skip 1)
    else if directive && !name.isEmpty then .error .tag
    else .ok (String.ofList ('!' :: name), c)

def isUriChar (verbatim : Bool) (c : Char) : Bool :=
  isWordChar c || ";/?:@&=+$.!~*'()%".toList.contains c ||
    (verbatim && (c == ',' || c == '[' || c == ']'))

-- The number of escaped bytes that belong to an escaped byte and follow it, if `owed` bytes were
-- still to come before it. What a character's bytes spell is not looked at.
def escapesOwed? (owed : Nat) (byte : UInt8) : Option Nat :=
  if 0 < owed then if 0x80 ≤ byte && byte ≤ 0xBF then some (owed - 1) else none
  else if byte ≤ 0x7F then some 0
  else if 0xC0 ≤ byte && byte ≤ 0xDF then some 1
  else if 0xE0 ≤ byte && byte ≤ 0xEF then some 2
  else if 0xF0 ≤ byte && byte ≤ 0xF7 then some 3
  else none

/-- Replaces percent escapes. A character of several bytes has all of them escaped. -/
def unescapeUri (owed : Nat) : List Char → Scan Bytes
  | '%' :: a :: b :: rest =>
    match hexDigit? a, hexDigit? b with
    | some a, some b =>
      let byte := (16 * a + b).toUInt8
      match escapesOwed? owed byte with
      | some more => return byte :: (← unescapeUri more rest)
      | none => .error .tag
    | _, _ => .error .tag
  | c :: rest =>
    if 0 < owed || c == '%' then .error .tag
    else return String.utf8EncodeChar c ++ (← unescapeUri 0 rest)
  | [] => if 0 < owed then .error .tag else .ok []

def tagUri (verbatim : Bool) (head : String) (c : Cursor) : Scan (Bytes × Cursor) := do
  let (run, c) := c.span (isUriChar verbatim)
  if head.isEmpty && run.isEmpty then .error .tag
  else
    let uri ← unescapeUri 0 run
    return ((Utf8.encode (String.ofList (head.toList.drop 1)) ++ uri).takeWhile (· != 0), c)

def directive (c : Cursor) : Scan (Token × Cursor) := do
  let (name, c) := (c.skip 1).span isWordChar
  if name.isEmpty || !c.gapAt 0 then .error .directive
  else
    let c := c.skipWhile isBlank
    if name = ['Y', 'A', 'M', 'L'] then
      let (major, c) ← directiveNumber c
      if !c.sees '.' then .error .directive
      else
        let (minor, c) ← directiveNumber (c.skip 1)
        return (.versionDirective major minor, ← c.endLine .directive)
    else if name = ['T', 'A', 'G'] then
      let (handle, c) ← tagHandle true c
      if !c.next isBlank then .error .directive
      else
        let (stem, c) ← tagUri true "" (c.skipWhile isBlank)
        if !c.gapAt 0 then .error .directive
        else return (.tagDirective handle stem, ← c.endLine .directive)
    else .error .directive

def anchorName (c : Cursor) : Scan (String × Cursor) :=
  let (name, c) := (c.skip 1).span isWordChar
  if name.isEmpty || !(c.gapAt 0 || c.next fun x => "?:,]\x7d%@`".toList.contains x) then
    .error .anchor
  else .ok (String.ofList name, c)

def scanTag (c : Cursor) : Scan (Token × Cursor) := do
  if c.peek 1 == some '<' then
    let (uri, c) ← tagUri true "" (c.skip 2)
    if c.sees '>' then return (.tag "" uri, c.skip 1) else .error .tag
  else
    let (handle, c) ← tagHandle false c
    if 1 < handle.length && handle.toList.getLast? == some '!' then
      let (suffix, c) ← tagUri false "" c
      return (.tag handle suffix, c)
    else
      let (suffix, c) ← tagUri false handle c
      return (if suffix.isEmpty then .tag "" (Utf8.encode "!") else .tag "!" suffix, c)

def tag (l : Lexer) : Scan (Token × Cursor) := do
  let (t, c) ← scanTag l.cursor
  if c.gapAt 0 || (l.inFlow && c.sees ',') then return (t, c) else .error .tag

def endDocument (l : Lexer) : Scan Lexer := do
  let l ← (l.unroll (-1)).dropKey
  return { l with keyAllowed := false }

def documentMark (l : Lexer) (t : Token) : Scan Lexer := do
  return ((← l.endDocument).push t).skip 3

def flowStart (l : Lexer) (t : Token) : Scan Lexer := do
  let l ← l.saveKey
  return ({ l with keys := none :: l.keys, keyAllowed := true }.push t).skip 1

def flowEnd (l : Lexer) (t : Token) : Scan Lexer := do
  let l ← l.dropKey
  let keys := if l.inFlow then l.keys.drop 1 else l.keys
  return ({ l with keys, keyAllowed := false }.push t).skip 1

def flowEntry (l : Lexer) : Scan Lexer := do
  let l ← l.dropKey
  return ({ l with keyAllowed := true }.push .flowEntry).skip 1

def blockEntry (l : Lexer) : Scan Lexer := do
  if !l.inFlow && !l.keyAllowed then .error .misplacedEntry
  else
    let l ← (l.deepen l.cursor.column none .blockSequenceStart).dropKey
    return ({ l with keyAllowed := true }.push .blockEntry).skip 1

def keyMark (l : Lexer) : Scan Lexer := do
  if !l.inFlow && !l.keyAllowed then .error .misplacedKey
  else
    let l ← (l.deepen l.cursor.column none .blockMappingStart).dropKey
    return ({ l with keyAllowed := !l.inFlow }.push .key).skip 1

def valueMark (l : Lexer) : Scan Lexer :=
  match l.keys.head?.join with
  | some k =>
    let l := l.insert k.position .key
    let l := (l.deepen k.column (some k.position) .blockMappingStart).setKey none
    .ok (({ l with keyAllowed := false }.push .value).skip 1)
  | none =>
    if !l.inFlow && !l.keyAllowed then .error .misplacedValue
    else
      let l := l.deepen l.cursor.column none .blockMappingStart
      .ok (({ l with keyAllowed := !l.inFlow }.push .value).skip 1)

def anchored (l : Lexer) (make : String → Token) : Scan Lexer := do
  let l ← l.saveKey
  let (name, cursor) ← anchorName l.cursor
  return { l.push (make name) with cursor, keyAllowed := false }

def tagged (l : Lexer) : Scan Lexer := do
  let l ← l.saveKey
  let (t, cursor) ← l.tag
  return { l.push t with cursor, keyAllowed := false }

def block (l : Lexer) (literal : Bool) : Scan Lexer := do
  let l ← l.dropKey
  let (text, cursor) ← blockScalar literal l.indent l.cursor
  let style := if literal then .literal else .folded
  return { l.push (.scalar style text) with cursor, keyAllowed := true }

def quoted (l : Lexer) (single : Bool) : Scan Lexer := do
  let l ← l.saveKey
  let (text, cursor) ← quotedScalar single l.cursor
  let style := if single then .singleQuoted else .doubleQuoted
  return { l.push (.scalar style text) with cursor, keyAllowed := false }

def plain (l : Lexer) : Scan Lexer := do
  let l ← l.saveKey
  let (text, ended, cursor) ← plainScalar l.inFlow (l.indent + 1).toNat l.cursor
  return { l.push (.scalar .plain text) with cursor, keyAllowed := ended }

def isIndicator (c : Char) : Bool := "-?:,[]\x7b\x7d#&*!|>'\"%@`".toList.contains c

def beginsPlain (l : Lexer) (x : Char) : Bool :=
  !(isIndicator x || isBlank x) || (x == '-' && !(l.cursor.rest.drop 1).head?.any isBlank) ||
    (!l.inFlow && (x == '?' || x == ':') && !l.cursor.gapAt 1)

def token (l : Lexer) (x : Char) : Scan Lexer :=
  let c := l.cursor
  let sign := l.inFlow || c.gapAt 1
  if c.column = 0 && x == '%' then do
    let l ← l.endDocument
    let (t, cursor) ← directive l.cursor
    return { l.push t with cursor }
  else if c.atIndicator '-' then l.documentMark .documentStart
  else if c.atIndicator '.' then l.documentMark .documentEnd
  else if x == '[' then l.flowStart .flowSequenceStart
  else if x == '\x7b' then l.flowStart .flowMappingStart
  else if x == ']' then l.flowEnd .flowSequenceEnd
  else if x == '\x7d' then l.flowEnd .flowMappingEnd
  else if x == ',' then l.flowEntry
  else if x == '-' && c.gapAt 1 then l.blockEntry
  else if x == '?' && sign then l.keyMark
  else if x == ':' && sign then l.valueMark
  else if x == '*' then l.anchored .alias
  else if x == '&' then l.anchored .anchor
  else if x == '!' then l.tagged
  else if x == '|' && !l.inFlow then l.block true
  else if x == '>' && !l.inFlow then l.block false
  else if x == '\'' then l.quoted true
  else if x == '"' then l.quoted false
  else if l.beginsPlain x then l.plain
  else .error .strayCharacter

def scan : Nat → Lexer → Scan (Array Token)
  | 0, l => .ok l.tokens
  | fuel + 1, l => do
    let l := l.skipGap (l.cursor.bound + 1)
    let l ← l.dropStaleKeys
    let l := l.unroll l.cursor.column
    match l.cursor.rest with
    | [] =>
      let l ← (l.unroll (-1)).dropKey
      return l.tokens
    | x :: _ => scan fuel (← l.token x)

end Lexer

def tokens (text : String) : Scan (List Token) :=
  let s := text.toList
  if s.all isAllowed then
    (Lexer.scan (s.length + 1) { cursor := .ofText s }).map Array.toList
  else .error .character

end LogRelay.Yaml
