import LogRelay.Host.Message
import LogRelay.Registry.Operation

/-! Where the messages of the host go: names of destinations, and the registry's operations. -/

namespace LogRelay

/-- Sources share a group; each has a stream of its own. -/
structure Naming where
  group : String
  streamPrefix : String
  deriving DecidableEq, Repr

namespace Naming

def ofOptions (host : String) (group streamPrefix : Option String) : Naming :=
  ⟨group.getD ("logship-" ++ host), streamPrefix.getD host⟩

def resolve (n : Naming) (source : SourceId) : Destination :=
  ⟨n.group, n.streamPrefix ++ "-" ++ source⟩

def destinationFor (n : Naming) (source : SourceId) (group stream : Option String) :
    Destination :=
  let resolved := n.resolve source
  ⟨group.getD resolved.group, stream.getD resolved.stream⟩

def operation (n : Naming) (now : Int) : HostMessage → Operation
  | .start source group stream => .start source (n.destinationFor source group stream)
  | .stop source => .stop source
  | .log source message timestamp => .handle source ⟨timestamp.getD now, message⟩

end Naming
end LogRelay
