import LogRelay.Remote.Error
import LogRelay.Word

/-! Batches: pending events for one destination, with the token that the next submission needs. -/

namespace LogRelay

structure LogEvent where
  -- Milliseconds since the Unix epoch.
  timestamp : Int
  message : String
  deriving DecidableEq, Repr

structure Destination where
  group : String
  stream : String
  deriving DecidableEq, Repr

def Destination.path (d : Destination) : String := d.group ++ "/" ++ d.stream

/-- What one submission may hold. The limits are machine words, and what is added to them wraps. -/
structure Limits where
  maxEvents : Nat := 1000
  maxBytes : Nat := 32768
  eventOverhead : Nat := 28
  deriving DecidableEq, Repr

namespace Limits

def wireSize (l : Limits) (e : LogEvent) : Nat := Word.add e.message.utf8ByteSize l.eventOverhead

def oversized (l : Limits) (e : LogEvent) : Bool := l.maxBytes < l.wireSize e

end Limits

structure Batch where
  destination : Destination
  token : Option Token
  events : List LogEvent
  bytes : Nat
  limits : Limits
  deriving DecidableEq, Repr

namespace Batch

def fresh (destination : Destination) (token : Option Token) (limits : Limits) : Batch :=
  ⟨destination, token, [], 0, limits⟩

def successor (b : Batch) (token : Option Token) : Batch := fresh b.destination token b.limits

def size (b : Batch) : Nat := b.events.length

def isEmpty (b : Batch) : Bool := b.events.isEmpty

def accepts (b : Batch) (e : LogEvent) : Bool :=
  b.size < b.limits.maxEvents && Word.add b.bytes (b.limits.wireSize e) ≤ b.limits.maxBytes

/-- An event older than the last pending one takes its timestamp: the remote refuses batches that
are not in time order. -/
def inOrder (b : Batch) (e : LogEvent) : LogEvent :=
  match b.events.getLast? with
  | none => e
  | some last => { e with timestamp := max e.timestamp last.timestamp }

-- Appends without a look at the limits.
def append (b : Batch) (e : LogEvent) : Batch :=
  { b with
    events := b.events ++ [b.inOrder e]
    bytes := Word.add b.bytes (b.limits.wireSize e) }

def adopt (b : Batch) : RemoteError → Batch
  | .invalidSequenceToken (some expected) => { b with token := some expected }
  | _ => b

/-- The batch after a submission of it was answered, and what the flush reports: the number of
events that are stored now, or the error. A batch that was stored or refused for good makes room
for an empty one; any other keeps its events for the next attempt. -/
def settle (b : Batch) : Except RemoteError (Option Token) → Batch × Except RemoteError Nat
  | .ok next => (b.successor next, .ok b.size)
  | .error (.dataAlreadyAccepted expected) => (b.successor expected, .ok b.size)
  | .error e =>
    if e.permanent then (b.successor b.token, .error e) else (b.adopt e, .error e)

end Batch
end LogRelay
