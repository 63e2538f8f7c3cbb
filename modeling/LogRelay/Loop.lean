import LogRelay.Host.Framing
import LogRelay.Shipping
import LogRelay.Timeline.Basic

/-! The loop of a run. It is told what is read and when it is its turn, and says what comes next. -/

namespace LogRelay

inductive Signal where
  | read (bytes : Bytes)
  | ended (ending : Ending)
  -- At a time in nanoseconds, and a date in milliseconds.
  | turn (clock : Nat) (now : Int)
  deriving DecidableEq

structure Loop where
  maxLine : Nat
  sweeper : Sweeper
  framer : Framer := {}
  -- The messages that were read, but not yet taken.
  waiting : List HostMessage := []
  ended : Bool := false
  swept : Bool := false

namespace Loop

def start (c : Config) (clock : Nat) : Loop where
  maxLine := c.batching.limits.maxLine
  sweeper := .start 0 clock c.batching.sweepInterval.toNanos

def await (l : Loop) (lines : List RawLine) : Loop :=
  { l with waiting := l.waiting ++ lines.filterMap HostMessage.ofRawLine }

def feed (l : Loop) (bytes : Bytes) : Loop :=
  let (lines, framer) := l.framer.feed l.maxLine bytes
  { l.await lines with framer }

def finish (l : Loop) (ending : Ending) : Loop :=
  { l.await (RawLine.ofReads l.maxLine l.framer ending []) with ended := true }

def sweep (l : Loop) (clock : Nat) : Loop :=
  { l with sweeper := { l.sweeper.take clock 0 with sweep := none }, swept := true }

/-- A sweep that is due comes before the next message, but not twice in a row while one waits. -/
def next (l : Loop) (clock : Nat) (now : Int) : Option Occurrence × Loop :=
  let due := l.sweeper.due ≤ clock
  match l.waiting with
  | m :: rest =>
    if due && !l.swept then (some .sweep, l.sweep clock)
    else (some (.message now m), { l with waiting := rest, swept := false })
  | [] =>
    if l.ended then (some .cancel, l)
    else if due then (some .sweep, l.sweep clock)
    else (none, l)

def heed (l : Loop) : Signal → Option Occurrence × Loop
  | .read bytes => (none, if l.ended then l else l.feed bytes)
  | .ended ending => (none, if l.ended then l else l.finish ending)
  | .turn clock now => l.next clock now

def run (l : Loop) : List Signal → List Occurrence
  | [] => []
  | signal :: rest =>
    match l.heed signal with
    | (none, l) => l.run rest
    | (some .cancel, _) => [.cancel]
    | (some o, l) => o :: l.run rest

end Loop
end LogRelay
