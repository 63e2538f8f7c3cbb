import LogRelay.Registry.Operation
import LogRelay.Remote.Script

/-! The registry over time: operations that wait for their turn, calls that take time, and a
sweeper, on a clock that jumps from one event to the next. Times are in nanoseconds.

An operation holds the registry until its course ends; those that wait are served in the order in
which they came. The first in line holds the registry as soon as it is free. The sweeper makes use
of it only when time is let pass, for until then the one who released the registry goes on. -/

namespace LogRelay

structure Sweeper where
  id : Nat := 0
  interval : Nat
  due : Nat
  sweep : Option Nat := none
  cancelled : Bool := false

namespace Sweeper

-- A tick taken later than this has missed its time.
def tolerance : Nat := 5000000

def start (id now interval : Nat) : Sweeper := { id, interval, due := now + interval }

/-- Takes the tick that is due: after a missed one the next is a full interval away. -/
def take (s : Sweeper) (now ticket : Nat) : Sweeper :=
  { s with
    sweep := some ticket
    due := if s.due + tolerance < now then now + s.interval else s.due + s.interval }

def idle (s : Sweeper) : Bool := s.sweep.isNone && !s.cancelled

end Sweeper

namespace Timeline

structure Pending where
  ticket : Nat
  call : Call
  step : Script.Step
  next : Reply → Course Outcome
  due : Nat
  -- Whether the answer comes before the wait is given up.
  inTime : Bool

end Timeline

structure Timeline where
  registry : Registry
  script : Script := {}
  now : Nat := 0
  pending : Option Timeline.Pending := none
  -- The line. While no call is under way, its head holds the registry.
  waiting : List (Nat × Operation) := []
  results : List (Nat × Outcome) := []
  nextTicket : Nat := 0
  sweeper : Option Sweeper := none
  -- The sweepers whose place another one took. They go on.
  replaced : List Sweeper := []
  calls : List Call := []
  overlapped : Bool := false

namespace Timeline

def submitsTo : Call → Option Destination
  | .submit d _ _ => some d
  | .openStream _ => none

def follow (ticket : Nat) (t : Timeline) : Course Outcome → Timeline
  | .done (r, a) => { t with registry := r, results := (ticket, a) :: t.results }
  | .ask ⟨r, _, call⟩ next =>
    let (step, script) := t.script.begin call
    let clash := t.pending.any fun p =>
      (submitsTo call).isSome && submitsTo p.call = submitsTo call
    let t := { t with
      registry := r, script, calls := call :: t.calls, overlapped := t.overlapped || clash }
    let limit := r.callTimeout.toNanos
    if step.hangs || 0 < step.delay then
      let inTime := !step.hangs && step.delay ≤ limit
      let wait := if inTime then step.delay else limit
      if wait = 0 then follow ticket t (next none)
      else { t with pending := some { ticket, call, step, next, due := t.now + wait, inTime } }
    else
      let (answer, script) := t.script.finish step call
      follow ticket { t with script } (next (some answer))

def sweepers (t : Timeline) : List Sweeper := t.sweeper.toList ++ t.replaced

def putSweeper (t : Timeline) (s : Sweeper) : Timeline :=
  let put (old : Sweeper) : Sweeper := if old.id = s.id then s else old
  { t with sweeper := t.sweeper.map put, replaced := t.replaced.map put }

def isSweep (t : Timeline) (ticket : Nat) : Bool := t.sweepers.any (·.sweep = some ticket)

def serve (t : Timeline) : List (Nat × Operation) → Timeline
  | [] => { t with waiting := [] }
  | (ticket, op) :: rest =>
    if t.pending.isSome || t.isSweep ticket then { t with waiting := (ticket, op) :: rest }
    else serve (follow ticket t (op.course .byName t.registry)) rest

def join (t : Timeline) (op : Operation) : Nat × Timeline :=
  let ticket := t.nextTicket
  (ticket, { t with nextTicket := ticket + 1, waiting := t.waiting ++ [(ticket, op)] })

def request (t : Timeline) (op : Operation) : Nat × Timeline :=
  let (ticket, t) := t.join op
  (ticket, t.serve t.waiting)

def result? (t : Timeline) (ticket : Nat) : Option Outcome :=
  (t.results.find? fun e => e.1 = ticket).map (·.2)

def tick (t : Timeline) (s : Sweeper) : Timeline :=
  let t := { t with now := max t.now s.due }
  let (ticket, t) := t.join .sweep
  t.putSweeper (s.take t.now ticket)

def hasSwept (t : Timeline) (s : Sweeper) : Bool := s.sweep.any fun n => (t.result? n).isSome

/-- Notes the end of a sweep. A tick that the sweeper has missed is taken at once, behind those that
came before. -/
def rest (t : Timeline) : Timeline :=
  match t.sweepers.find? t.hasSwept with
  | some s =>
    let s := { s with sweep := none }
    if s.due ≤ t.now && !s.cancelled then t.tick s else t.putSweeper s
  | none => t

def complete (t : Timeline) (p : Pending) : Timeline :=
  let t := { t with now := max t.now p.due, pending := none }
  if p.inTime then
    let (answer, script) := t.script.finish p.step p.call
    follow p.ticket { t with script } (p.next (some answer))
  else follow p.ticket t (p.next none)

inductive Occasion where
  | answer (p : Pending)
  | tick (s : Sweeper)
  | turn (ticket : Nat) (op : Operation) (rest : List (Nat × Operation))

def next? (t : Timeline) : Option (Nat × Occasion) :=
  let tick := ((t.sweepers.filter Sweeper.idle).minOn? (·.due)).map fun s =>
    (max t.now s.due, Occasion.tick s)
  match t.pending, t.waiting with
  | none, (ticket, op) :: rest => some (t.now, .turn ticket op rest)
  | none, [] => tick
  | some p, _ => match tick with
    | some (at', o) => some (if p.due ≤ at' then (p.due, .answer p) else (at', o))
    | none => some (p.due, .answer p)

def happen (t : Timeline) (o : Occasion) : Timeline :=
  let t := match o with
    | .answer p => (t.complete p).rest
    | .tick s => t.tick s
    | .turn ticket op rest =>
      (follow ticket { t with waiting := rest } (op.course .byName t.registry)).rest
  t.serve t.waiting

def passUntil : Nat → Nat → Timeline → Timeline
  | 0, _, t => t
  | fuel + 1, time, t =>
    match t.next? with
    | some (due, o) => if due < time then passUntil fuel time (t.happen o) else t
    | none => t

def passFor : Nat → Nat → Timeline → Timeline
  | 0, _, t => t
  | fuel + 1, ticket, t =>
    if (t.result? ticket).isSome then t
    else match t.next? with
      | some (_, o) => passFor fuel ticket (t.happen o)
      | none => t

/-- More than the calls and turns that the operations in line can take: no more sources were ever
started than tickets were given. -/
def busyness (t : Timeline) : Nat :=
  2 * (t.waiting.length + 3) * (t.nextTicket + 3)

def sleep (t : Timeline) (duration : Nat) : Timeline :=
  let ticks := t.sweepers.foldl (fun n s => n + duration / max s.interval 1 + 1) 0
  let time := t.now + duration
  let t := passUntil ((ticks + 2) * t.busyness) time t
  { t with now := time }

def await (t : Timeline) (ticket : Nat) : Timeline := passFor (2 * t.busyness) ticket t

def perform (t : Timeline) (op : Operation) : Option Outcome × Timeline :=
  let (ticket, t) := t.request op
  let t := t.await ticket
  (t.result? ticket, { t with results := [] })

def performAll (t : Timeline) (ops : List Operation) : List (Option Outcome) × Timeline :=
  let (tickets, t) := ops.foldl (fun (tickets, t) op =>
    let (ticket, t) := t.request op
    (tickets ++ [ticket], t)) (([] : List Nat), t)
  let t := tickets.foldl await t
  (tickets.map t.result?, { t with results := [] })

def startSweeper (t : Timeline) (interval : Nat) : Timeline :=
  let id := t.nextTicket
  { t with
    nextTicket := id + 1
    sweeper := some (Sweeper.start id t.now interval)
    replaced := t.sweepers }

def cancelSweeper (t : Timeline) : Timeline :=
  match t.sweeper with
  | none => t
  | some s =>
    let t := t.putSweeper { s with cancelled := true }
    let t := match s.sweep with
      | none => t
      | some ticket => t.await ticket
    { t with sweeper := none }

def snapshot? (t : Timeline) : Option (List SourceSnapshot) :=
  if t.pending.isSome || !t.waiting.isEmpty then none else some t.registry.snapshot

end Timeline
end LogRelay
