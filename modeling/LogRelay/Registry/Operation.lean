import LogRelay.Registry.Basic

/-! The registry's operations as data, each with its course. -/

namespace LogRelay

inductive Operation where
  | start (source : SourceId) (destination : Destination)
  | stop (source : SourceId)
  | handle (source : SourceId) (event : LogEvent)
  | flush (source : SourceId)
  | sweep
  | shutdown
  | contains (source : SourceId)
  | size
  | copyBatch (source : SourceId)
  deriving DecidableEq, Repr

inductive Outcome where
  | finished
  | handled (outcome : EventOutcome)
  | flushed (stored : Except RemoteError Nat)
  | swept (report : SweepReport)
  | shutDown (sources : Nat)
  | contained (answer : Bool)
  | counted (sources : Nat)
  | copied (batch : Option Batch)

namespace Operation

def answer {α : Type} (f : α → Outcome) (c : Course α) : Course Outcome :=
  c.bind fun (r, a) => .done (r, f a)

def course (v : Visit) (r : Registry) : Operation → Course Outcome
  | start id d => answer (fun _ => .finished) (r.start id d)
  | stop id => answer (fun _ => .finished) (r.stop id)
  | handle id e => answer .handled (r.handle id e)
  | flush id => answer .flushed (r.flush id)
  | sweep => answer .swept (r.sweep v)
  | shutdown => answer .shutDown (r.shutdown v)
  | contains id => .done (r, .contained (r.batches.contains id))
  | size => .done (r, .counted r.batches.size)
  | copyBatch id => .done (r, .copied (r.batches.find? id))

end Operation
end LogRelay
