import LogRelay.Gateway.Client
import LogRelay.Proofs.Dialogue
import LogRelay.Proofs.JsonRoundTrip

/-! The body of a submission. All that it was made from can be read back from its bytes, so no two
submissions look the same. -/

namespace LogRelay.Gateway

open Json (Spells nests)

/-! ### What a remote makes of it -/

def whole? : Json → Option Int
  | .number n => n.toInt?
  | _ => none

def eventOf? (v : Json) : Option LogEvent := do
  let f ← Json.fields? [["timestamp"], ["message"]] v
  return ⟨← f.required 0 whole?, ← f.required 1 Json.string?⟩

def sentTo? (body : Json) : Option Destination := do
  let f ← Json.fields? [["logGroupName"], ["logStreamName"]] body
  return ⟨← f.required 0 Json.string?, ← f.required 1 Json.string?⟩

def sentToken? (body : Json) : Option (Option Token) := do
  (← Json.fields? [["sequenceToken"]] body).optional 0 Json.string?

def sentEvents? (body : Json) : Option (List LogEvent) := do
  (← Json.fields? [["logEvents"]] body).required 0 (Json.list? eventOf?)

section Submission

variable (d : Destination) (token : Option Token) (events : List LogEvent)

def sentMembers : List (String × Json) :=
  [("logGroupName", .text d.group), ("logStreamName", .text d.stream),
    ("logEvents", .array (events.map Request.eventJson))] ++
    Request.optionMember "sequenceToken" token

theorem body_putEvents :
    (Request.putEvents d token events).body = .record (sentMembers d token events) := rfl

theorem eventOf?_eventJson (e : LogEvent) : eventOf? (Request.eventJson e) = some e := by
  have hfields : Json.fieldsOfMembers? [["timestamp"], ["message"]]
      [("timestamp", .int e.timestamp), ("message", .text e.message)] =
      some ⟨false, [some (.int e.timestamp), some (.text e.message)]⟩ := rfl
  rw [eventOf?, Request.eventJson, Json.fields?_record, hfields]
  simp [Json.Fields.required, whole?, Json.int, Json.text, Json.string?, Numeral.toInt?_ofInt,
    Quoted.decode?_encode]

theorem sentTo?_putEvents : sentTo? (Request.putEvents d token events).body = some d := by
  have hfields :
      Json.fieldsOfMembers? [["logGroupName"], ["logStreamName"]] (sentMembers d token events) =
        some ⟨false, [some (.text d.group), some (.text d.stream)]⟩ := by
    cases token <;> rfl
  rw [sentTo?, body_putEvents, Json.fields?_record, hfields]
  simp [Json.Fields.required, Json.text, Json.string?, Quoted.decode?_encode]

theorem sentToken?_putEvents : sentToken? (Request.putEvents d token events).body = some token := by
  have hfields : Json.fieldsOfMembers? [["sequenceToken"]] (sentMembers d token events) =
      some ⟨false, [token.map .text]⟩ := by
    cases token <;> rfl
  rw [sentToken?, body_putEvents, Json.fields?_record, hfields]
  cases token with
  | none => rfl
  | some t => simp [Json.Fields.optional, Json.text, Json.string?, Quoted.decode?_encode]

theorem sentEvents?_putEvents :
    sentEvents? (Request.putEvents d token events).body = some events := by
  have hfields : Json.fieldsOfMembers? [["logEvents"]] (sentMembers d token events) =
      some ⟨false, [some (.array (events.map Request.eventJson))]⟩ := by
    cases token <;> rfl
  rw [sentEvents?, body_putEvents, Json.fields?_record, hfields]
  exact Json.mapM_map eventOf?_eventJson events

variable {d token events} in
theorem body_putEvents_inj {d' : Destination} {token' : Option Token} {events' : List LogEvent}
    (h : (Request.putEvents d token events).body = (Request.putEvents d' token' events').body) :
    d = d' ∧ token = token' ∧ events = events' := by
  have hto := congrArg sentTo? h
  have htoken := congrArg sentToken? h
  have hevents := congrArg sentEvents? h
  rw [sentTo?_putEvents, sentTo?_putEvents] at hto
  rw [sentToken?_putEvents, sentToken?_putEvents] at htoken
  rw [sentEvents?_putEvents, sentEvents?_putEvents] at hevents
  exact ⟨Option.some.inj hto, Option.some.inj htoken, Option.some.inj hevents⟩

theorem mem_sentMembers :
    "sequenceToken" ∈ (sentMembers d token events).map (·.1) ↔ token.isSome := by
  cases token with
  | none => simp [sentMembers, Request.optionMember]
  | some t => simp [sentMembers, Request.optionMember]

/-! ### Its bytes -/

theorem spells_eventJson (e : LogEvent) :
    Spells (Request.eventJson e).compact (Request.eventJson e) := by
  apply Json.spells_record
  intro m hm
  simp only [List.mem_cons, List.not_mem_nil, or_false] at hm
  rcases hm with rfl | rfl
  · exact Json.spells_int e.timestamp
  · exact Json.spells_text e.message

theorem spells_putEvents :
    Spells (Request.putEvents d token events).body.compact
      (Request.putEvents d token events).body := by
  have hevents : Spells (Json.array (events.map Request.eventJson)).compact
      (.array (events.map Request.eventJson)) := by
    apply Json.spells_array
    intro v hv
    obtain ⟨e, -, rfl⟩ := List.mem_map.mp hv
    exact spells_eventJson e
  rw [body_putEvents]
  apply Json.spells_record
  intro m hm
  rcases List.mem_append.mp hm with hm | hm
  · simp only [List.mem_cons, List.not_mem_nil, or_false] at hm
    rcases hm with rfl | rfl | rfl
    · exact Json.spells_text d.group
    · exact Json.spells_text d.stream
    · exact hevents
  · cases token with
    | none => cases hm
    | some t =>
      rw [List.mem_singleton.mp hm]
      exact Json.spells_text t

theorem nests_putEvents (depth : Nat) :
    (Request.putEvents d token events).body.nests (depth + 3) = true := by
  have hevents : (Json.array (events.map Request.eventJson)).nests (depth + 2) = true := by
    simp [nests, Request.eventJson, Json.record, Json.int, Json.text]
  rw [body_putEvents]
  apply Json.nests_record
  intro m hm
  rcases List.mem_append.mp hm with hm | hm
  · simp only [List.mem_cons, List.not_mem_nil, or_false] at hm
    rcases hm with rfl | rfl | rfl
    · rfl
    · rfl
    · exact hevents
  · cases token with
    | none => cases hm
    | some t =>
      rw [List.mem_singleton.mp hm]
      rfl

theorem readDeep?_putEvents :
    Json.readDeep? (Request.putEvents d token events).body.compact =
      some (Request.putEvents d token events).body := by
  -- The values nest three deep, and there are more bytes than that.
  obtain ⟨depth, hdepth⟩ :
      ∃ k, (Request.putEvents d token events).body.compact.length = k + 3 := by
    have hlength : 3 ≤ (Request.putEvents d token events).body.compact.length := by
      rw [body_putEvents, Json.record, Json.compact_object]
      simp only [sentMembers, List.cons_append, List.map_cons, Json.separated, Json.memberSpelling,
        Json.quoted, List.length_cons, List.length_append]
      omega
    exact ⟨_, (Nat.sub_add_cancel hlength).symm⟩
  rw [Json.readDeep?, hdepth]
  exact Json.read?_compact (spells_putEvents d token events) (nests_putEvents d token events depth)

theorem submit_yields {wire : List (Request × Response)}
    {answer : Option (Except RemoteError (Option Token))}
    (h : (submit d token events).Yields wire answer) :
    wire.map (·.1) = [.putEvents d token events] := by
  obtain ⟨response, rest, rfl, hrest⟩ := Dialogue.yields_ask.mp h
  obtain ⟨rfl, -⟩ := Dialogue.yields_done.mp hrest
  rfl

end Submission

/-- The one body that a submission sends is a JSON object that tells the destination, the events
with their exact messages and timestamps, in order, and the token; a submission without a token has
no member for it. Submissions with the same body are the same. -/
theorem submission_lossless (d : Destination) (token : Option Token) (events : List LogEvent) :
    let body := (Request.putEvents d token events).body.compact
    (∀ wire answer, (submit d token events).Yields wire answer →
      wire.map (·.1.body.compact) = [body]) ∧
    (∃ members named, Json.readDeep? body = some (.object members) ∧
      Json.decodeKeys? members = some named ∧
      ("sequenceToken" ∈ named.map (·.1) ↔ token.isSome) ∧
      sentTo? (.object members) = some d ∧ sentToken? (.object members) = some token ∧
      sentEvents? (.object members) = some events) ∧
    ∀ d' token' events', (Request.putEvents d' token' events').body.compact = body →
      d' = d ∧ token' = token ∧ events' = events := by
  intro body
  refine ⟨fun wire answer h => ?_, ?_, fun d' token' events' hsame => ?_⟩
  · have hsent := congrArg (List.map fun r => r.body.compact) (submit_yields d token events h)
    rwa [List.map_map] at hsent
  · exact ⟨_, _, readDeep?_putEvents d token events, Json.decodeKeys?_encode _,
      mem_sentMembers d token events, sentTo?_putEvents d token events,
      sentToken?_putEvents d token events, sentEvents?_putEvents d token events⟩
  · have hread := congrArg Json.readDeep? hsame
    rw [readDeep?_putEvents, readDeep?_putEvents] at hread
    exact body_putEvents_inj (Option.some.inj hread)

end LogRelay.Gateway
