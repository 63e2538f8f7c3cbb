import LogRelay.Config.Basic
import LogRelay.Duration.Reader
import LogRelay.Yaml.Value

/-! Configurations as YAML documents. Settings that are left out take their defaults, unknown ones
are passed over. -/

namespace LogRelay

open Yaml

namespace Setting

abbrev Entries := List (String × Node)

def required {α : Type} (es : Entries) (name : String) (read : Node → Option α) : Option α := do
  read (← (← slot? [name] es))

def withDefault {α : Type} (es : Entries) (name : String) (read : Node → Option α)
    (default : α) : Option α := do
  match ← slot? [name] es with
  | none => some default
  | some n => read n

end Setting

namespace Config

open Setting

def readDuration? (d : Document) (n : Node) : Option Duration := d.text? n >>= Duration.read?

def readRemote? (d : Document) (n : Node) : Option RemoteSettings := do
  let es ← d.section? n
  let endpoint ← required es "endpoint" d.text?
  let usual : RemoteSettings := { endpoint }
  return {
    endpoint
    requestTimeout := ←
      withDefault es "request_timeout" (readDuration? d) usual.requestTimeout
    callTimeout := ← withDefault es "call_timeout" (readDuration? d) usual.callTimeout }

def readDestination? (d : Document) (n : Node) : Option DestinationSettings := do
  let es ← d.section? n
  return {
    group := ← withDefault es "group" (d.optional? d.text?) none
    streamPrefix := ← withDefault es "stream_prefix" (d.optional? d.text?) none }

def readBatching? (d : Document) (n : Node) : Option BatchingSettings := do
  let es ← d.section? n
  let usual : BatchingSettings := {}
  return {
    limits := {
      maxEvents := ← withDefault es "max_events" d.natural? usual.limits.maxEvents
      maxBytes := ← withDefault es "max_bytes" d.natural? usual.limits.maxBytes
      eventOverhead := ← withDefault es "event_overhead" d.natural? usual.limits.eventOverhead }
    sweepInterval := ← withDefault es "sweep_interval" (readDuration? d) usual.sweepInterval }

def readStatus? (d : Document) (n : Node) : Option StatusSettings := do
  return { listen := ← required (← d.section? n) "listen" d.text? }

/-- The configuration that a document holds, whether or not it meets the conditions. -/
def ofDocument? (d : Document) : Option Config := do
  let es ← d.section? d.root
  return {
    remote := ← required es "remote" (readRemote? d)
    destination := ← withDefault es "destination" (readDestination? d) {}
    batching := ← withDefault es "batching" (readBatching? d) {}
    status := ← withDefault es "status" (d.optional? (readStatus? d)) none }

def ofText? (text : String) : Option Config := (Yaml.read text).toOption >>= ofDocument?

end Config
end LogRelay
