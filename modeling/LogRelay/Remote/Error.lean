import LogRelay.Duration.Writer
import LogRelay.Text.Literal

/-! What can go wrong with a call to the remote. -/

namespace LogRelay

abbrev Token := String

inductive RemoteError where
  | transport
  | undecodable
  | invalidSequenceToken (expected : Option Token)
  | dataAlreadyAccepted (expected : Option Token)
  | invalidParameter (message : String)
  | throttled (message : String)
  | notFound (message : String)
  | alreadyExists (message : String)
  | api (status : Nat) (kind message : String)
  | timeout (limit : Duration)
  deriving DecidableEq

namespace RemoteError

/-- Whether submitting the same batch again can never succeed. -/
def permanent : RemoteError → Bool
  | invalidParameter _ => true
  | _ => false

def message : RemoteError → String
  | transport => "HTTP request failed"
  | undecodable => "JSON serialization/deserialization failed"
  | invalidSequenceToken expected =>
    "invalid sequence token, expected " ++ Literal.option expected
  | dataAlreadyAccepted expected =>
    "batch already accepted, next token " ++ Literal.option expected
  | invalidParameter m => "invalid parameter: " ++ m
  | throttled m => "request throttled: " ++ m
  | notFound m => "resource not found: " ++ m
  | alreadyExists m => "resource already exists: " ++ m
  | api status kind m =>
    "remote returned error status " ++ status.repr ++ " (" ++ kind ++ "): " ++ m
  | timeout limit => "remote call timed out after " ++ limit.brief

end RemoteError
end LogRelay
