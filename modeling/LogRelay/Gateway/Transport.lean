import LogRelay.Gateway.Wire
import LogRelay.Http.Message
import LogRelay.Http.Url

/-! Requests to the remote as HTTP messages. -/

namespace LogRelay.Gateway

def Request.headers (u : Url) (r : Request) : Http.Headers :=
  [("host", u.authority), ("x-amz-target", r.target), ("content-type", contentType),
    ("accept", "*/*")]

def Request.bytes (u : Url) (r : Request) : Bytes :=
  Http.write ("POST " ++ u.path ++ " HTTP/1.1") (r.headers u) r.body.compact

def server? (endpoint : String) : Option Url := Url.ofText? (Request.url endpoint)

/-- How an exchange stands when that much of the answer has come in; `none` if it goes on. -/
def Response.ofBytes? (ended : Bool) (bs : Bytes) : Option Response :=
  match Http.response ended (bs.length + 1) bs with
  | .unfinished => none
  | .broken => some .broken
  | .finished status body => some (.answered status body)

end LogRelay.Gateway
