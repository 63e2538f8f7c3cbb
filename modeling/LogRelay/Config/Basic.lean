import LogRelay.Batch
import LogRelay.Config.SocketAddress
import LogRelay.Duration.Basic
import LogRelay.Text.Blank

/-! The configuration and what it has to meet. `problems` lists one problem for every condition
that does not hold. -/

namespace LogRelay

structure RemoteSettings where
  endpoint : String
  -- Longest wait for one exchange.
  requestTimeout : Duration := .ofMillis 5000
  -- Longest wait for one call, which may take several exchanges.
  callTimeout : Duration := .ofMillis 10000
  deriving DecidableEq

structure DestinationSettings where
  group : Option String := none
  streamPrefix : Option String := none
  deriving DecidableEq

structure BatchingSettings where
  limits : Limits := {}
  sweepInterval : Duration := .ofMillis 10000
  deriving DecidableEq

structure StatusSettings where
  listen : String
  deriving DecidableEq

structure Config where
  remote : RemoteSettings
  destination : DestinationSettings := {}
  batching : BatchingSettings := {}
  status : Option StatusSettings := none
  deriving DecidableEq

namespace Config

inductive Problem where
  | endpointScheme (endpoint : String)
  | zeroRequestTimeout
  | zeroCallTimeout
  | eventCount (maxEvents : Nat)
  | bytesWithinOverhead (maxBytes eventOverhead : Nat)
  | tooManyBytes (maxBytes : Nat)
  | zeroSweepInterval
  | listenAddress (listen : String)
  | blankGroup
  deriving DecidableEq, Repr

def mostEvents : Nat := 10000

def mostBytes : Nat := 1048576

def Problem.message : Problem → String
  | endpointScheme endpoint =>
    "remote.endpoint: '" ++ endpoint ++ "' must start with http:// or https://"
  | zeroRequestTimeout => "remote.request_timeout: must be greater than zero"
  | zeroCallTimeout => "remote.call_timeout: must be greater than zero"
  | eventCount n =>
    "batching.max_events: " ++ n.repr ++ " is outside 1..=" ++ mostEvents.repr
  | bytesWithinOverhead n overhead =>
    "batching.max_bytes: " ++ n.repr ++ " must exceed event_overhead (" ++ overhead.repr ++ ")"
  | tooManyBytes n => "batching.max_bytes: " ++ n.repr ++ " exceeds " ++ mostBytes.repr
  | zeroSweepInterval => "batching.sweep_interval: must be greater than zero"
  | listenAddress listen => "status.listen: '" ++ listen ++ "' is not a valid socket address"
  | blankGroup => "destination.group: must not be empty"

def demand (condition : Bool) (p : Problem) : List Problem := if condition then [] else [p]

def hasScheme (endpoint : String) : Bool :=
  "http://".toList.isPrefixOf endpoint.toList || "https://".toList.isPrefixOf endpoint.toList

def remoteProblems (r : RemoteSettings) : List Problem :=
  demand (hasScheme r.endpoint) (.endpointScheme r.endpoint) ++
  demand (!r.requestTimeout.isZero) .zeroRequestTimeout ++
  demand (!r.callTimeout.isZero) .zeroCallTimeout

def batchingProblems (b : BatchingSettings) : List Problem :=
  let l := b.limits
  demand (1 ≤ l.maxEvents && l.maxEvents ≤ mostEvents) (.eventCount l.maxEvents) ++
  demand (l.eventOverhead < l.maxBytes) (.bytesWithinOverhead l.maxBytes l.eventOverhead) ++
  demand (l.maxBytes ≤ mostBytes) (.tooManyBytes l.maxBytes) ++
  demand (!b.sweepInterval.isZero) .zeroSweepInterval

def statusProblems : Option StatusSettings → List Problem
  | none => []
  | some s => demand (SocketAddress.parse? s.listen).isSome (.listenAddress s.listen)

def destinationProblems (d : DestinationSettings) : List Problem :=
  match d.group with
  | none => []
  | some g => demand (!blankText g) .blankGroup

def problems (c : Config) : List Problem :=
  remoteProblems c.remote ++ batchingProblems c.batching ++ statusProblems c.status ++
    destinationProblems c.destination

end Config
end LogRelay
