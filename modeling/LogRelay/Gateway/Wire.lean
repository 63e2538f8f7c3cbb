import LogRelay.Json.Reader
import LogRelay.Json.Record
import LogRelay.Remote.Call

/-! What goes over the wire to the remote's HTTP interface and back. A request is a POST of a JSON
object; a header names the action. -/

namespace LogRelay.Gateway

open Json

inductive Action where
  | describeGroups
  | createGroup
  | describeStreams
  | createStream
  | putEvents
  deriving DecidableEq, Repr

def Action.name : Action → String
  | describeGroups => "DescribeLogGroups"
  | createGroup => "CreateLogGroup"
  | describeStreams => "DescribeLogStreams"
  | createStream => "CreateLogStream"
  | putEvents => "PutLogEvents"

structure Request where
  action : Action
  body : Json

inductive Response where
  | answered (status : Nat) (body : Bytes)
  | broken
  -- The time for the whole call is over before there is an answer.
  | late

def trimEndpoint (endpoint : String) : String :=
  String.ofList (endpoint.toList.reverse.dropWhile (· == '/')).reverse

namespace Request

def url (endpoint : String) : String := trimEndpoint endpoint ++ "/"

def target (r : Request) : String := "Logs_20140328." ++ r.action.name

def contentType : String := "application/x-amz-json-1.1"

def optionMember (name : String) : Option String → List (String × Json)
  | none => []
  | some s => [(name, .text s)]

def describeGroups (group : String) (page : Option String) : Request :=
  ⟨.describeGroups, .record ([("logGroupNamePrefix", .text group)] ++
    optionMember "nextToken" page)⟩

def createGroup (group : String) : Request :=
  ⟨.createGroup, .record [("logGroupName", .text group)]⟩

def describeStreams (d : Destination) (page : Option String) : Request :=
  ⟨.describeStreams, .record ([("logGroupName", .text d.group),
    ("logStreamNamePrefix", .text d.stream)] ++ optionMember "nextToken" page)⟩

def createStream (d : Destination) : Request :=
  ⟨.createStream, .record [("logGroupName", .text d.group), ("logStreamName", .text d.stream)]⟩

def eventJson (e : LogEvent) : Json :=
  .record [("timestamp", .int e.timestamp), ("message", .text e.message)]

def putEvents (d : Destination) (token : Option Token) (events : List LogEvent) : Request :=
  ⟨.putEvents, .record ([("logGroupName", .text d.group), ("logStreamName", .text d.stream),
    ("logEvents", .array (events.map eventJson))] ++ optionMember "sequenceToken" token)⟩

end Request

structure Page (α : Type) where
  items : List α
  next : Option String

def pageOf? {α : Type} (name : String) (item : Json → Option α) (v : Json) : Option (Page α) := do
  let f ← fields? [[name], ["nextToken"]] v
  return ⟨← f.withDefault 0 (list? item) [], ← f.nullable 1 string?⟩

def groupName? (v : Json) : Option String := do
  (← fields? [["logGroupName"]] v).required 0 string?

structure StreamInfo where
  name : String
  token : Option Token
  deriving DecidableEq, Repr

def streamInfo? (v : Json) : Option StreamInfo := do
  let f ← fields? [["logStreamName"], ["uploadSequenceToken"]] v
  return ⟨← f.required 0 string?, ← f.nullable 1 string?⟩

def groupPage? : Json → Option (Page String) := pageOf? "logGroups" groupName?

def streamPage? : Json → Option (Page StreamInfo) := pageOf? "logStreams" streamInfo?

def nothing? (v : Json) : Option Unit := (fields? [] v).map fun _ => ()

/-- Which events of a batch were refused for their age. The answer has to be well-formed, but
nothing depends on it. -/
def rejection? (v : Json) : Option Unit := do
  let f ← fields? [["tooNewLogEventStartIndex"], ["tooOldLogEventEndIndex"],
    ["expiredLogEventEndIndex"]] v
  let _ ← f.nullable 0 int64?
  let _ ← f.nullable 1 int64?
  let _ ← f.nullable 2 int64?
  return ()

def putAnswer? (v : Json) : Option (Option Token) := do
  let f ← fields? [["nextSequenceToken"], ["rejectedLogEventsInfo"]] v
  let next ← f.nullable 0 string?
  let _ ← f.nullable 1 rejection?
  return next

structure Complaint where
  kind : String
  message : String
  expected : Option Token
  deriving DecidableEq, Repr

def bareKind (kind : String) : String :=
  String.ofList (kind.toList.reverse.takeWhile (· != '#')).reverse

def complaint? (v : Json) : Option Complaint := do
  let f ← fields? [["__type"], ["message", "Message"], ["expectedSequenceToken"]] v
  return ⟨bareKind (← f.withDefault 0 string? ""), (← f.optional 1 string?).getD "",
    ← f.optional 2 string?⟩

def Complaint.error (status : Nat) (c : Complaint) : RemoteError :=
  if c.kind = "InvalidSequenceTokenException" then .invalidSequenceToken c.expected
  else if c.kind = "DataAlreadyAcceptedException" then .dataAlreadyAccepted c.expected
  else if c.kind = "InvalidParameterException" then .invalidParameter c.message
  else if c.kind = "ThrottlingException" then .throttled c.message
  else if c.kind = "ResourceNotFoundException" then .notFound c.message
  else if c.kind = "ResourceAlreadyExistsException" then .alreadyExists c.message
  else .api status c.kind c.message

/-- The error that a refusal stands for. A body that is no complaint is shown as it is. -/
def errorOf (status : Nat) (body : Bytes) : RemoteError :=
  match readDeep? body >>= complaint? with
  | some c => c.error status
  | none => .api status "Unknown" (Utf8.decodeLossy body)

def success {α : Type} (read : Json → Option α) (body : Bytes) : Except RemoteError α :=
  match (if body.isEmpty then some (.object []) else readDeep? body) >>= read with
  | some a => .ok a
  | none => .error .undecodable

def Response.decode {α : Type} (read : Json → Option α) : Response → Option (Except RemoteError α)
  | .late => none
  | .broken => some (.error .transport)
  | .answered status body =>
    if 200 ≤ status && status < 300 then some (success read body)
    else some (.error (errorOf status body))

end LogRelay.Gateway
