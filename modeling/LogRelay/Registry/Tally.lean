import LogRelay.Remote.Call

/-! Counters of what happened to events and to calls. -/

namespace LogRelay

structure Tally where
  eventsAccepted : Nat := 0
  eventsDropped : Nat := 0
  eventsOversized : Nat := 0
  eventsSubmitted : Nat := 0
  eventsRejected : Nat := 0
  flushesSucceeded : Nat := 0
  flushesFailed : Nat := 0
  provisionFailures : Nat := 0
  tokenReconciliations : Nat := 0
  deriving DecidableEq, Repr

namespace Tally

def accepted (t : Tally) : Tally := { t with eventsAccepted := t.eventsAccepted + 1 }

def dropped (t : Tally) : Tally := { t with eventsDropped := t.eventsDropped + 1 }

def oversized (t : Tally) : Tally := { t with eventsOversized := t.eventsOversized + 1 }

def unprovisioned (t : Tally) : Tally :=
  { t with provisionFailures := t.provisionFailures + 1 }

def stored (t : Tally) (events : Nat) : Tally :=
  { t with
    flushesSucceeded := t.flushesSucceeded + 1
    eventsSubmitted := t.eventsSubmitted + events }

def failed (t : Tally) : Tally := { t with flushesFailed := t.flushesFailed + 1 }

def reconciled (t : Tally) : Tally :=
  { t with tokenReconciliations := t.tokenReconciliations + 1 }

def rejected (t : Tally) (events : Nat) : Tally :=
  { t with eventsRejected := t.eventsRejected + events }

def submitted (t : Tally) (events : Nat) : Answer → Tally
  | .ok _ => t.stored events
  | .error (.dataAlreadyAccepted _) => (t.stored events).reconciled
  | .error (.invalidSequenceToken (some _)) => t.failed.reconciled
  | .error e => if e.permanent then (t.rejected events).failed else t.failed

def opened (t : Tally) : Answer → Tally
  | .ok _ => t
  | .error _ => t.unprovisioned

def counters (t : Tally) : List (String × Nat) :=
  [("events_accepted", t.eventsAccepted), ("events_dropped", t.eventsDropped),
    ("events_oversized", t.eventsOversized), ("events_submitted", t.eventsSubmitted),
    ("events_rejected", t.eventsRejected), ("flushes_succeeded", t.flushesSucceeded),
    ("flushes_failed", t.flushesFailed), ("provision_failures", t.provisionFailures),
    ("token_reconciliations", t.tokenReconciliations)]

end Tally
end LogRelay
