import LogRelay.Yaml.Token

/-! Nodes: the tree of a YAML document. Aliases refer to anchored nodes by number, for a node may
refer to one that it is part of. -/

namespace LogRelay.Yaml

inductive Node where
  | scalar (tag : Option Bytes) (style : ScalarStyle) (text : String)
  | sequence (tag : Option Bytes) (items : List Node)
  | mapping (tag : Option Bytes) (entries : List (Node × Node))
  | alias (target : Nat)
  deriving Repr

structure Document where
  root : Node
  anchored : List (Nat × Node) := []

namespace Document

def ofNode (root : Node) : Document := { root }

def deref (d : Document) : Node → Node
  | .alias target => match d.anchored.find? fun e => e.1 = target with
    | some (_, n) => n
    | none => .alias target
  | n => n

end Document

structure Composer where
  tokens : List Token
  handles : List (String × Bytes)
  anchors : List (String × Nat) := []
  -- The number of every anchor, the last one first.
  declared : List Nat := []
  -- The nodes read, by the place of their anchors among all anchors.
  anchored : List (Nat × Node) := []

abbrev Compose (α : Type) := StateT Composer Scan α

namespace Composer

def fail {α : Type} (f : Fault) : Compose α := fun _ => .error f

def peek : Compose (Option Token) := fun s => .ok (s.tokens.head?, s)

def advance : Compose Unit := fun s => .ok ((), { s with tokens := s.tokens.tail })

def skipIf (t : Token) : Compose Bool := do
  if (← peek) = some t then
    advance
    return true
  else return false

def nextIn (ts : List Token) : Compose Bool := do
  match ← peek with
  | some t => return ts.contains t
  | none => return true

def separated (first : Bool) : Compose Bool :=
  if first then return true else skipIf .flowEntry

def empty : Node := .scalar none .plain ""

def resolveTag (handle : String) (suffix : Bytes) : Compose Bytes := fun s =>
  if handle.isEmpty then .ok (suffix, s)
  else match s.handles.find? fun e => e.1 = handle with
    | some (_, stem) => .ok (stem ++ suffix, s)
    | none => .error .tagHandle

/-- Numbers an anchor by the names known before it, and gives its place. A name given again takes
a new number, which the next new name may get too. -/
def declare (name : String) : Compose Nat := fun s =>
  let n := s.anchors.length
  .ok (s.declared.length, { s with
    anchors := (name, n) :: s.anchors.filter fun e => e.1 ≠ name
    declared := n :: s.declared })

def numbered (s : Composer) : List (Nat × Node) :=
  s.declared.zip ((s.anchored.mergeSort fun a b => b.1 ≤ a.1).map (·.2))

def keep (anchor : Option Nat) (n : Node) : Compose Node := fun s =>
  match anchor with
  | some a => .ok (n, { s with anchored := (a, n) :: s.anchored })
  | none => .ok (n, s)

def target (name : String) : Compose Node := fun s =>
  match s.anchors.find? fun e => e.1 = name with
  | some (_, n) => .ok (.alias n, s)
  | none => .error .unknownAnchor

def anchor? : Compose (Option Nat) := do
  match ← peek with
  | some (.anchor name) => advance; return some (← declare name)
  | _ => return none

def tag? : Compose (Option Bytes) := do
  match ← peek with
  | some (.tag handle suffix) => advance; return some (← resolveTag handle suffix)
  | _ => return none

def properties : Compose (Option Nat × Option Bytes) := do
  match ← anchor? with
  | some a => return (some a, ← tag?)
  | none =>
    let t ← tag?
    return (← anchor?, t)

mutual

/-- A node. Only in the block context it may be a block collection, and only as a part of a block
mapping a sequence that is not indented. -/
def node (block indentless : Bool) : Nat → Compose Node
  | 0 => fail .tooDeep
  | fuel + 1 => do
    match ← peek with
    | some (.alias name) =>
      advance
      target name
    | _ =>
      let (anchor, tag) ← properties
      match ← peek with
      | some (.scalar style text) =>
        advance
        keep anchor (.scalar tag style text)
      | some .flowSequenceStart =>
        advance
        keep anchor (.sequence tag (← flowItems true fuel))
      | some .flowMappingStart =>
        advance
        keep anchor (.mapping tag (← flowEntries true fuel))
      | some .blockSequenceStart =>
        if block then
          advance
          keep anchor (.sequence tag (← blockItems fuel))
        else content anchor tag
      | some .blockMappingStart =>
        if block then
          advance
          keep anchor (.mapping tag (← blockEntries fuel))
        else content anchor tag
      | some .blockEntry =>
        if indentless then keep anchor (.sequence tag (← indentlessItems fuel))
        else content anchor tag
      | _ => content anchor tag
where
  -- Properties alone stand for an empty scalar.
  content (anchor : Option Nat) (tag : Option Bytes) : Compose Node :=
    if anchor.isSome || tag.isSome then keep anchor (.scalar tag .plain "") else fail .nodeContent

def nodeUnless (stops : List Token) (block indentless : Bool) : Nat → Compose Node
  | 0 => fail .tooDeep
  | fuel + 1 => do
    if ← nextIn stops then return empty else node block indentless fuel

def blockItems : Nat → Compose (List Node)
  | 0 => fail .tooDeep
  | fuel + 1 => do
    if ← skipIf .blockEntry then
      let n ← nodeUnless [.blockEntry, .blockEnd] true false fuel
      return n :: (← blockItems fuel)
    else if ← skipIf .blockEnd then return []
    else fail .blockSequence

def indentlessItems : Nat → Compose (List Node)
  | 0 => fail .tooDeep
  | fuel + 1 => do
    if ← skipIf .blockEntry then
      let n ← nodeUnless [.blockEntry, .key, .value, .blockEnd] true false fuel
      return n :: (← indentlessItems fuel)
    else return []

def blockEntries : Nat → Compose (List (Node × Node))
  | 0 => fail .tooDeep
  | fuel + 1 => do
    if ← skipIf .key then
      let k ← nodeUnless [.key, .value, .blockEnd] true true fuel
      let v ←
        if ← skipIf .value then nodeUnless [.key, .value, .blockEnd] true true fuel
        else pure empty
      return (k, v) :: (← blockEntries fuel)
    else if ← skipIf .blockEnd then return []
    else fail .blockMapping

def flowItems (first : Bool) : Nat → Compose (List Node)
  | 0 => fail .tooDeep
  | fuel + 1 => do
    if ← skipIf .flowSequenceEnd then return []
    else if !(← separated first) then fail .flowSequence
    else if ← skipIf .key then
      let entry ← flowPair fuel
      return .mapping none [entry] :: (← flowItems false fuel)
    else if ← skipIf .flowSequenceEnd then return []
    else
      let n ← node false false fuel
      return n :: (← flowItems false fuel)

def flowPair : Nat → Compose (Node × Node)
  | 0 => fail .tooDeep
  | fuel + 1 => do
    let k ←
      if ← nextIn [.value, .flowEntry, .flowSequenceEnd] then do
        advance
        pure empty
      else node false false fuel
    let v ←
      if ← skipIf .value then nodeUnless [.flowEntry, .flowSequenceEnd] false false fuel
      else pure empty
    return (k, v)

def flowEntries (first : Bool) : Nat → Compose (List (Node × Node))
  | 0 => fail .tooDeep
  | fuel + 1 => do
    if ← skipIf .flowMappingEnd then return []
    else if !(← separated first) then fail .flowMapping
    else if ← skipIf .key then
      let k ← nodeUnless [.value, .flowEntry, .flowMappingEnd] false false fuel
      let v ←
        if ← skipIf .value then nodeUnless [.flowEntry, .flowMappingEnd] false false fuel
        else pure empty
      return (k, v) :: (← flowEntries false fuel)
    else if ← skipIf .flowMappingEnd then return []
    else
      let k ← node false false fuel
      return (k, empty) :: (← flowEntries false fuel)

end

def defaultHandles : List (String × Bytes) :=
  [("!", Utf8.encode "!"), ("!!", Utf8.encode "tag:yaml.org,2002:")]

def directives : Nat → Bool → List (String × Bytes) → Compose (List (String × Bytes))
  | 0, _, hs => return hs
  | fuel + 1, version, hs => do
    match ← peek with
    | some (.versionDirective major minor) =>
      if version || major ≠ 1 || (minor ≠ 1 && minor ≠ 2) then fail .version
      else
        advance
        directives fuel true hs
    | some (.tagDirective handle stem) =>
      if hs.any fun e => e.1 = handle then fail .tagHandle
      else
        advance
        directives fuel version ((handle, stem) :: hs)
    | _ => return hs

def isDirective : Token → Bool
  | .versionDirective _ _ | .tagDirective _ _ => true
  | _ => false

def explicitContent (fuel : Nat) : Compose Node := do
  match ← peek with
  | none | some .documentStart | some .documentEnd => return empty
  | some t => if isDirective t then return empty else node true false fuel

def skipDocumentEnds : Nat → Compose Unit
  | 0 => return ()
  | fuel + 1 => do if ← skipIf .documentEnd then skipDocumentEnds fuel

def document (fuel : Nat) : Compose Document := do
  let root ← match ← peek with
    | none => fail .noDocument
    | some t =>
      if isDirective t || t = .documentStart then do
        let hs ← directives fuel false []
        modify fun s => { s with handles := hs ++ defaultHandles }
        if ← skipIf .documentStart then explicitContent fuel else fail .documentStart
      else node true false fuel
  skipDocumentEnds fuel
  match ← peek with
  | none => return { root, anchored := (← get).numbered }
  | some _ => fail .severalDocuments

end Composer

def read (text : String) : Scan Document := do
  let ts ← tokens text
  let (d, _) ← (Composer.document (4 * ts.length + 16)).run
    { tokens := ts, handles := Composer.defaultHandles }
  return d

end LogRelay.Yaml
