import LogRelay.Config.Basic
import LogRelay.Duration.Writer
import LogRelay.Yaml.Node

/-! Configurations written out in full. -/

namespace LogRelay

inductive SettingTree where
  | absent
  | number (n : Nat)
  | text (s : String)
  | group (members : List (String × SettingTree))

namespace SettingTree

def option : Option String → SettingTree
  | none => absent
  | some s => text s

mutual

-- Texts are quoted, so that none is taken for a null.
def toNode : SettingTree → Yaml.Node
  | absent => .scalar none .plain "null"
  | number n => .scalar none .plain n.repr
  | text s => .scalar none .doubleQuoted s
  | group members => .mapping none (toEntries members)

def toEntries : List (String × SettingTree) → List (Yaml.Node × Yaml.Node)
  | [] => []
  | (k, v) :: rest => (.scalar none .plain k, v.toNode) :: toEntries rest

end

end SettingTree

namespace Config

open SettingTree

def settings (c : Config) : SettingTree :=
  let l := c.batching.limits
  group [
    ("remote", group [
      ("endpoint", text c.remote.endpoint),
      ("request_timeout", text c.remote.requestTimeout.write),
      ("call_timeout", text c.remote.callTimeout.write)]),
    ("destination", group [
      ("group", option c.destination.group),
      ("stream_prefix", option c.destination.streamPrefix)]),
    ("batching", group [
      ("max_events", number l.maxEvents),
      ("max_bytes", number l.maxBytes),
      ("event_overhead", number l.eventOverhead),
      ("sweep_interval", text c.batching.sweepInterval.write)]),
    ("status", match c.status with
      | none => absent
      | some s => group [("listen", text s.listen)])]

def toDocument (c : Config) : Yaml.Document := .ofNode c.settings.toNode

end Config
end LogRelay
