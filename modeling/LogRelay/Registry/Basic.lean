import LogRelay.Registry.Roster
import LogRelay.Registry.Tally

/-! The registry: one batch per started source, and what it does with them.

An operation is a course: a dialogue that shows the registry at every question, before the remote
has answered. It holds the registry from its beginning to its end, so what others see is the
registry at the ends of courses. -/

namespace LogRelay

structure Registry where
  batches : Roster Batch
  tally : Tally
  limits : Limits
  -- Longest wait for the answer to one call.
  callTimeout : Duration

structure Inquiry where
  registry : Registry
  source : SourceId
  call : Call

abbrev Course (α : Type) := Dialogue Inquiry Reply (Registry × α)

inductive DropReason where
  | unknownSource
  | oversized
  | flushFailed
  deriving DecidableEq, Repr

inductive EventOutcome where
  | appended
  | flushedAndAppended
  | dropped (reason : DropReason)
  deriving DecidableEq, Repr

structure SweepReport where
  flushed : Nat := 0
  failed : Nat := 0
  events : Nat := 0
  deriving DecidableEq, Repr

def SweepReport.add (s : SweepReport) : Except RemoteError Nat → SweepReport
  | .ok events => { s with flushed := s.flushed + 1, events := s.events + events }
  | .error _ => { s with failed := s.failed + 1 }

structure SourceSnapshot where
  source : SourceId
  destination : Destination
  pendingEvents : Nat
  pendingBytes : Nat
  hasToken : Bool
  deriving DecidableEq, Repr

namespace Registry

def new (limits : Limits) (callTimeout : Duration) : Registry :=
  ⟨Roster.empty, {}, limits, callTimeout⟩

def heed (r : Registry) (reply : Reply) : Answer := reply.getD (.error (.timeout r.callTimeout))

def put (r : Registry) (id : SourceId) (b : Batch) : Registry :=
  { r with batches := r.batches.set id b }

def count (r : Registry) (f : Tally → Tally) : Registry := { r with tally := f r.tally }

/-- Submits the pending events of a source's batch, if there are any. The result is the batch as
the answer leaves it, and the number of events stored. -/
def submit (r : Registry) (id : SourceId) (b : Batch) :
    Course (Batch × Except RemoteError Nat) :=
  if b.isEmpty then .done (r, b, .ok 0)
  else .ask ⟨r, id, .submit b.destination b.token b.events⟩ fun reply =>
    .done (r.count (·.submitted b.size (r.heed reply)), b.settle (r.heed reply))

/-- Registers a source. Its stream is opened to learn the first token; a source whose stream
cannot be opened starts without one. -/
def start (r : Registry) (id : SourceId) (d : Destination) : Course Unit :=
  if r.batches.contains id then .done (r, ())
  else .ask ⟨r, id, .openStream d⟩ fun reply =>
    let answer := r.heed reply
    let b := Batch.fresh d (answer.toOption.join) r.limits
    .done ({ r.count (·.opened answer) with batches := r.batches.insert id b }, ())

def stop (r : Registry) (id : SourceId) : Course Unit :=
  match r.batches.find? id with
  | none => .done (r, ())
  | some b =>
    (submit { r with batches := r.batches.erase id } id b).bind fun (r, _) => .done (r, ())

/-- Appends an event to its source's batch. An event that does not fit flushes the batch first
and is dropped if the batch stays full. -/
def handle (r : Registry) (id : SourceId) (e : LogEvent) : Course EventOutcome :=
  match r.batches.find? id with
  | none => .done (r.count (·.dropped), .dropped .unknownSource)
  | some b =>
    if r.limits.oversized e then .done (r.count (·.oversized), .dropped .oversized)
    else if b.accepts e then .done ((r.put id (b.append e)).count (·.accepted), .appended)
    else (r.submit id b).bind fun (r, b, stored) =>
      if b.accepts e then
        .done ((r.put id (b.append e)).count (·.accepted),
          if stored.isOk then .flushedAndAppended else .appended)
      else .done ((r.put id b).count (·.dropped), .dropped .flushFailed)

def flush (r : Registry) (id : SourceId) : Course (Except RemoteError Nat) :=
  match r.batches.find? id with
  | none => .done (r, .ok 0)
  | some b => (r.submit id b).bind fun (r, b, stored) => .done (r.put id b, stored)

def sweepOver (r : Registry) (report : SweepReport) : List SourceId → Course SweepReport
  | [] => .done (r, report)
  | id :: rest =>
    match r.batches.find? id with
    | none => r.sweepOver report rest
    | some b =>
      if b.isEmpty then r.sweepOver report rest
      else (r.flush id).bind fun (r, stored) => sweepOver r (report.add stored) rest

def sweep (v : Visit) (r : Registry) : Course SweepReport :=
  r.sweepOver {} (v.order r.batches.ids)

def drain (r : Registry) : List (SourceId × Batch) → Course Unit
  | [] => .done (r, ())
  | (id, b) :: rest => (r.submit id b).bind fun (r, _) => drain r rest

def shutdown (v : Visit) (r : Registry) : Course Nat :=
  (drain { r with batches := Roster.empty } (r.batches.along v)).bind fun (s, _) =>
    .done (s, r.batches.size)

def snapshot (r : Registry) : List SourceSnapshot :=
  r.batches.entries.map fun (id, b) => ⟨id, b.destination, b.size, b.bytes, b.token.isSome⟩

end Registry
end LogRelay
