import LogRelay.Config.Basic
import LogRelay.Host.Naming

/-! A whole run: messages go to the registry until they end or the run is cancelled; then every
source is flushed and unregistered. Sweeps come in between. -/

namespace LogRelay

inductive Occurrence where
  -- A message arrives, at a time in milliseconds.
  | message (now : Int) (m : HostMessage)
  | sweep
  | cancel
  deriving DecidableEq, Repr

def Naming.asks (n : Naming) : Occurrence → Operation
  | .message now m => n.operation now m
  | .sweep => .sweep
  | .cancel => .shutdown

structure ShippingReport where
  dispatched : Nat
  sources : Nat
  deriving DecidableEq, Repr

namespace Shipping

def runFrom (n : Naming) (dispatched : Nat) (r : Registry) :
    List Occurrence → Course ShippingReport
  | .message now m :: rest =>
    ((n.operation now m).course .byName r).bind fun (r, _) => runFrom n (dispatched + 1) r rest
  | .sweep :: rest => (r.sweep .byName).bind fun (r, _) => runFrom n dispatched r rest
  | .cancel :: _ | [] =>
    (r.shutdown .byName).bind fun (r, sources) => .done (r, ⟨dispatched, sources⟩)

def registry (c : Config) : Registry := .new c.batching.limits c.remote.callTimeout

def naming (host : String) (c : Config) : Naming :=
  .ofOptions host c.destination.group c.destination.streamPrefix

def run (host : String) (c : Config) (occurrences : List Occurrence) : Course ShippingReport :=
  runFrom (naming host c) 0 (registry c) occurrences

end Shipping
end LogRelay
