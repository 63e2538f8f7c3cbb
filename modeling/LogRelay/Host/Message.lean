import LogRelay.Json.Reader
import LogRelay.Json.Record
import LogRelay.Text.Blank

/-! Messages of the host, one JSON object a line: a source starts, stops, or logs. -/

namespace LogRelay

inductive HostMessage where
  | start (source : String) (group stream : Option String)
  | stop (source : String)
  -- One line of a log. A missing time is filled in on arrival.
  | log (source message : String) (timestamp : Option Int)
  deriving DecidableEq, Repr

namespace HostMessage

inductive Kind where
  | start | stop | log
  deriving DecidableEq, Repr

def Kind.name : Kind → String
  | start => "start"
  | stop => "stop"
  | log => "log"

def Kind.ofName? (s : String) : Option Kind :=
  if s = "start" then some start
  else if s = "stop" then some stop
  else if s = "log" then some log
  else none

def Kind.fieldNames : Kind → List (List String)
  | start => [["source"], ["group"], ["stream"]]
  | stop => [["source"]]
  | log => [["source"], ["message"], ["timestamp"]]

def typeName : String := "type"

open Json in
def ofFields? (f : Fields) : Kind → Option HostMessage
  | .start => do
    return start (← f.required 0 string?) (← f.optional 1 string?) (← f.optional 2 string?)
  | .stop => do return stop (← f.required 0 string?)
  | .log => do
    return log (← f.required 0 string?) (← f.required 1 string?) (← f.optional 2 int64?)

/-- The type may stand anywhere among the members; in an array it comes first. -/
def ofJson? : Json → Option HostMessage
  | .object members => do
    let members ← Json.decodeKeys? members
    let tag ← (← slot? [typeName] members)
    let kind ← Kind.ofName? (← tag.string?)
    let rest := members.filter fun (k, _) => k ≠ typeName
    ofFields? (← Json.fieldsOfMembers? kind.fieldNames rest) kind
  | .array (tag :: items) => do
    let kind ← Kind.ofName? (← tag.string?)
    ofFields? (← Json.fieldsOfItems? kind.fieldNames items) kind
  | _ => none

def optionMember {α : Type} (name : String) (f : α → Json) : Option α → List (String × Json)
  | none => []
  | some a => [(name, f a)]

def toJson : HostMessage → Json
  | start s group stream =>
    Json.record ([(typeName, .text "start"), ("source", .text s)] ++
      optionMember "group" .text group ++ optionMember "stream" .text stream)
  | stop s => Json.record [(typeName, .text "stop"), ("source", .text s)]
  | log s m timestamp =>
    Json.record ([(typeName, .text "log"), ("source", .text s), ("message", .text m)] ++
      optionMember "timestamp" .int timestamp)

def maxDepth : Nat := 127

inductive Line where
  | blank
  | message (m : HostMessage)
  | malformed
  deriving DecidableEq, Repr

def readLine (line : Bytes) : Line :=
  if line.all isBlankByte then .blank
  else match (Json.read? maxDepth line).filter Json.sound >>= ofJson? with
    | some m => .message m
    | none => .malformed

end HostMessage
end LogRelay
