import LogRelay.Http.Message
import LogRelay.Json.Basic
import LogRelay.Registry.Basic

/-! The status pages: whether the program is alive, and what it holds. -/

namespace LogRelay

structure StatusReport where
  uptime : Duration
  limits : Limits
  tally : Tally
  -- Missing while an operation holds the registry.
  sources : Option (List SourceSnapshot)

inductive StatusPage where
  | health
  | report
  deriving DecidableEq, Repr

structure StatusAnswer where
  code : Nat
  body : Option Json := none

def programVersion : String := "0.1.0"

def SourceSnapshot.toJson (s : SourceSnapshot) : Json :=
  .record [
    ("source_id", .text s.source),
    ("destination", .record [
      ("group", .text s.destination.group), ("stream", .text s.destination.stream)]),
    ("pending_events", .nat s.pendingEvents),
    ("pending_bytes", .nat s.pendingBytes),
    ("has_token", .bool s.hasToken)]

def Limits.toJson (l : Limits) : Json :=
  .record [
    ("max_events", .nat l.maxEvents),
    ("max_bytes", .nat l.maxBytes),
    ("event_overhead", .nat l.eventOverhead)]

def Tally.toJson (t : Tally) : Json := .record (t.counters.map fun (name, n) => (name, .nat n))

namespace StatusReport

def toJson (r : StatusReport) : Json :=
  .record [
    ("version", .text programVersion),
    ("uptime_seconds", .nat r.uptime.secs),
    ("limits", r.limits.toJson),
    ("stats", r.tally.toJson),
    ("sources", match r.sources with
      | none => .null
      | some l => .array (l.map SourceSnapshot.toJson))]

end StatusReport

namespace StatusPage

def ofPath? (path : String) : Option StatusPage :=
  let path := String.ofList (path.toList.takeWhile fun c => c != '?' && c != '#')
  if path = "/health" then some health
  else if path = "/status" then some report
  else none

def content (r : StatusReport) : StatusPage → Json
  | health => .record [("status", .text "ok")]
  | report => r.toJson

def answer (r : StatusReport) (method path : String) : StatusAnswer :=
  match ofPath? path with
  | none => { code := 404 }
  | some page =>
    if method = "GET" then { code := 200, body := some (page.content r) }
    else if method = "HEAD" then { code := 200 }
    else { code := 405 }

end StatusPage

namespace StatusAnswer

def reason (code : Nat) : String :=
  if code = 200 then "OK" else if code = 404 then "Not Found" else "Method Not Allowed"

def bytes (a : StatusAnswer) : Bytes :=
  let first := "HTTP/1.1 " ++ a.code.repr ++ " " ++ reason a.code
  match a.body with
  | none => Http.write first [] []
  | some j => Http.write first [("content-type", "application/json")] j.compact

end StatusAnswer
end LogRelay
