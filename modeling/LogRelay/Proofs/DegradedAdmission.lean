import LogRelay.Proofs.Admission
import LogRelay.Proofs.AnswerFates
import LogRelay.Proofs.Recovery
import LogRelay.Proofs.StreamOpening
import LogRelay.Proofs.SubmissionBody
import LogRelay.Proofs.TimeOrder

/-! A source whose stream could not be opened. It starts without a token, and its stream is not
opened again: what brings the token in is a refusal, if there is a stream that can refuse. -/

namespace LogRelay

open Gateway

inductive Site where
  | bare
  | group
  | stream (s : Stream)

namespace Site

def stream? : Site → Option Stream
  | stream s => some s
  | bare | group => none

/-- What comes of a request that is not answered as it should be: nothing, or its effect. -/
inductive Leaves : Site → Request → Site → Prop where
  | ignored (w : Site) (q : Request) : Leaves w q w
  | madeGroup {q : Request} (h : q.action = .createGroup) : Leaves bare q group
  | madeStream {q : Request} (h : q.action = .createStream) : Leaves group q (stream {})

theorem Leaves.keeps {w w' : Site} {q : Request} (h : Leaves w q w') {s : Stream}
    (hs : w.stream? = some s) : w'.stream? = some s := by
  cases h with
  | ignored => exact hs
  | madeGroup | madeStream => cases hs

end Site

section Wire

variable {σ : Type} {d : Destination} {site : σ → Site} {pages : Nat}

theorem stream_kept {faulty : σ → Request → Response × σ}
    (h : ∀ s q, (site s).Leaves q (site (faulty s q).2)) {s s' : σ}
    {wire : List (Request × Response)} (hwire : Dialogue.Answered faulty s wire s') {st : Stream}
    (hst : (site s).stream? = some st) : (site s').stream? = some st := by
  induction wire generalizing s with
  | nil =>
    obtain rfl : s' = s := hwire
    exact hst
  | cons x rest ih => exact ih hwire.2 ((h s x.1).keeps hst)

/-- Submissions to a destination are answered by whether there is a stream, and by its token. -/
structure TakesSubmissions (d : Destination) (site : σ → Site)
    (answer : σ → Request → Response × σ) : Prop where
  stores : ∀ s st events, (site s).stream? = some st →
    let held := answer s (.putEvents d st.token events)
    ∃ next, held.1.Says putAnswer? next ∧ site held.2 = .stream ⟨next, st.stored ++ events⟩
  refuses : ∀ s st token events, (site s).stream? = some st → token ≠ st.token →
    let held := answer s (.putEvents d token events)
    held.1.Complains "InvalidSequenceTokenException" st.token ∧ site held.2 = site s
  misses : ∀ s token events, (site s).stream? = none →
    let held := answer s (.putEvents d token events)
    (∃ e, held.1.Complains "ResourceNotFoundException" e) ∧ site held.2 = site s

namespace TakesSubmissions

variable {answer : σ → Request → Response × σ} {s : σ} {q : Inquiry} {token : Option Token}
  {events : List LogEvent}

theorem overWire_submit (hcall : q.call = .submit d token events) :
    overWire pages answer s q = ((answer s (.putEvents d token events)).1.decode putAnswer?,
      (answer s (.putEvents d token events)).2) := by
  rw [overWire, hcall]
  rfl

theorem stored (h : TakesSubmissions d site answer) (pages : Nat) {st : Stream}
    (hst : (site s).stream? = some st) (hcall : q.call = .submit d st.token events) :
    ∃ next, (overWire pages answer s q).1 = some (.ok next) ∧
      site (overWire pages answer s q).2 = .stream ⟨next, st.stored ++ events⟩ := by
  obtain ⟨next, hsays, hsite⟩ := h.stores s st events hst
  rw [overWire_submit hcall]
  exact ⟨next, Response.decode_ok_iff.mpr hsays, hsite⟩

theorem refused (h : TakesSubmissions d site answer) (pages : Nat) {st : Stream}
    (hst : (site s).stream? = some st) (hcall : q.call = .submit d token events)
    (hstale : token ≠ st.token) :
    (overWire pages answer s q).1 = some (.error (.invalidSequenceToken st.token)) ∧
      site (overWire pages answer s q).2 = site s := by
  obtain ⟨hcomplains, hsite⟩ := h.refuses s st token events hst hstale
  obtain ⟨status, c, hrefuses, hc⟩ := Response.complains_iff.mp hcomplains
  rw [overWire_submit hcall, hrefuses.decode, Complaint.error_invalidSequenceToken.mpr hc]
  exact ⟨rfl, hsite⟩

theorem missed (h : TakesSubmissions d site answer) (pages : Nat) (hnone : (site s).stream? = none)
    (hcall : q.call = .submit d token events) :
    ∃ message, (overWire pages answer s q).1 = some (.error (.notFound message)) ∧
      site (overWire pages answer s q).2 = site s := by
  obtain ⟨⟨e, hcomplains⟩, hsite⟩ := h.misses s token events hnone
  obtain ⟨status, c, hrefuses, hkind, -⟩ := Response.complains_iff.mp hcomplains
  obtain ⟨message, hmessage⟩ : ∃ message, c.error status = .notFound message :=
    Complaint.error_notFound.mpr hkind
  rw [overWire_submit hcall, hrefuses.decode, hmessage]
  exact ⟨message, rfl, hsite⟩

theorem decidesWhile (h : TakesSubmissions d site answer) (pages : Nat) :
    DecidesWhile (fun s => (site s).stream?.isSome) d (overWire pages answer)
      fun s => (site s).stream?.getD {} := by
  have hcases (s : σ) (q : Inquiry) (token : Option Token) (events : List LogEvent)
      (hs : (site s).stream?.isSome) (hcall : q.call = .submit d token events) :
      ((site s).stream?.getD {}).Serves q.call (overWire pages answer s q).1
          ((site (overWire pages answer s q).2).stream?.getD {}) ∧
        (overWire pages answer s q).1.fails = false ∧
        (site (overWire pages answer s q).2).stream?.isSome := by
    obtain ⟨st, hst⟩ := Option.isSome_iff_exists.mp hs
    by_cases htoken : token = st.token
    · subst htoken
      obtain ⟨next, hreply, hsite⟩ := h.stored pages hst hcall
      rw [hreply, hsite, hst, hcall]
      exact ⟨.stores d events next, rfl, rfl⟩
    · obtain ⟨hreply, hsite⟩ := h.refused pages hst hcall htoken
      rw [hreply, hsite, hst, hcall]
      exact ⟨.refuses d token events htoken, rfl, rfl⟩
  exact
    { serves := fun s q token events hs hcall => (hcases s q token events hs hcall).1
      prompt := fun s q token events hs hcall => (hcases s q token events hs hcall).2.1
      stays := fun s q token events hs hcall => (hcases s q token events hs hcall).2.2 }

theorem missed_forever (h : TakesSubmissions d site answer) (pages : Nat) {r : Registry}
    {id : SourceId} {b : Batch} (hb : r.batches.find? id = some b) (hd : b.destination = d)
    (hpending : b.events ≠ []) (hnone : (site s).stream? = none) (visits : List Visit) :
    let run := r.history (overWire pages answer) (visits.map (·, .flush id)) s
    run.registry.batches.find? id = some b ∧ site run.state = site s ∧
      ∀ t ∈ run.turns, ∃ message, t.outcome = .flushed (.error (.notFound message)) := by
  induction visits generalizing r s with
  | nil => exact ⟨hb, rfl, List.forall_mem_nil _⟩
  | cons v rest ih =>
    obtain ⟨hbatch, hout, hstate, -⟩ :=
      Registry.flush_pending (overWire pages answer) s v hb hpending
    obtain ⟨message, hreply, hsite⟩ :=
      h.missed pages hnone (q := r.submission id b) (by rw [← hd]; rfl)
    rw [hreply] at hbatch hout
    rw [← hstate] at hsite
    obtain ⟨hfound, hend, hturns⟩ := ih hbatch (hsite ▸ hnone)
    exact ⟨hfound, hend.trans hsite, List.forall_mem_cons.mpr ⟨⟨message, hout⟩, hturns⟩⟩

end TakesSubmissions

/-! ### From the start to the first attempts -/

variable (answer : σ → Inquiry → Reply × σ) {r : Registry} {id : SourceId}

theorem Registry.heed_of_failed {reply : Reply} (h : ∀ token, reply ≠ some (.ok token)) :
    (r.heed reply).toOption.join = none := by
  rcases reply with _ | (e | token)
  · rfl
  · rfl
  · exact absurd rfl (h token)

theorem Registry.start_degraded (hid : r.batches.find? id = none) (v : Visit) (s : σ)
    (hfailed : ∀ token, (answer s ⟨r, id, .openStream d⟩).1 ≠ some (.ok token)) :
    let held := ((Operation.start id d).course v r).run answer s
    held.result.1.batches.find? id = some (.fresh d none r.limits) ∧
      held.result.1.limits = r.limits ∧ held.state = (answer s ⟨r, id, .openStream d⟩).2 := by
  have hnew : r.batches.contains id = false := by rw [Roster.contains, hid]; rfl
  have htoken := Registry.heed_of_failed (r := r) hfailed
  rw [Operation.course, start, hnew]
  refine ⟨?_, rfl, rfl⟩
  simp only [Bool.false_eq_true, if_false, Operation.answer, Dialogue.bind, Dialogue.run, htoken]
  rw [Roster.find?_insert, if_pos rfl]

theorem history_handles {b : Batch} (hb : r.batches.find? id = some b)
    (hlimits : b.limits = r.limits) {before : List LogEvent} (hraised : Raised before b.events)
    (handed : List (Visit × LogEvent)) (hcount : b.size + handed.length ≤ r.limits.maxEvents)
    (hbytes : b.bytes + r.limits.charge (handed.map (·.2)) ≤ r.limits.maxBytes) (s : σ) :
    let run := r.history answer (handed.map fun h => (h.1, .handle id h.2)) s
    run.state = s ∧ ∃ b', run.registry.batches.find? id = some b' ∧
      b'.destination = b.destination ∧ b'.token = b.token ∧
      Raised (before ++ handed.map (·.2)) b'.events := by
  induction handed generalizing r b before with
  | nil => exact ⟨rfl, b, hb, rfl, rfl, by simpa using hraised⟩
  | cons h rest ih =>
    obtain ⟨v, e⟩ := h
    simp only [List.map_cons, List.length_cons, Limits.charge] at hcount hbytes
    have hwire : r.limits.wireSize e ≤ e.message.utf8ByteSize + r.limits.eventOverhead :=
      Word.add_le _ _
    have hsum : Word.add b.bytes (r.limits.wireSize e) ≤ b.bytes + r.limits.wireSize e :=
      Word.add_le _ _
    have hsize : r.limits.oversized e = false := decide_eq_false (by omega)
    have hroom : b.accepts e = true := by
      rw [Batch.accepts, hlimits, Bool.and_eq_true, decide_eq_true_eq, decide_eq_true_eq]
      omega
    have hquiet := Registry.handle_quiet answer hb hsize hroom v s
    have hbatch : ((r.put id (b.append e)).count (·.accepted)).batches.find? id =
        some (b.append e) := Registry.put_found hb _
    have hgrown : (b.append e).size = b.size + 1 := by simp [Batch.size, Batch.append]
    have hcharged : (b.append e).bytes = Word.add b.bytes (r.limits.wireSize e) := by
      rw [← hlimits]
      rfl
    obtain ⟨hstate, b', hb', hd, htoken, hevents⟩ := ih hbatch hlimits (hraised.append e)
      (by simp only [Registry.count, Registry.put]; omega)
      (by simp only [Registry.count, Registry.put]; omega)
    rw [List.map_cons, Registry.history]
    simp only [hquiet]
    exact ⟨hstate, b', hb', hd, htoken, by simpa using hevents⟩

end Wire

/-! ### A remote of one destination

It keeps to the law, and any call to open the stream succeeds there. -/

inductive Stall where
  | bare
  | group
  | stream (written : Bool) (stored : List LogEvent)
  deriving DecidableEq

namespace Stall

def home : Destination := ⟨"app", "web"⟩

def site : Stall → Site
  | bare => .bare
  | group => .group
  | stream written stored => .stream ⟨Booth.token written, stored⟩

def stale (expected : Option Token) : Response :=
  .answered 400 (Json.record ([("__type", .text "InvalidSequenceTokenException")] ++
    Request.optionMember "expectedSequenceToken" expected)).compact

def receipt : Response :=
  .answered 200 (Json.record [("nextSequenceToken", .text "7")]).compact

def groups : Stall → List String
  | bare => []
  | group | stream .. => ["app"]

def infos : Stall → List StreamInfo
  | bare | group => []
  | stream written _ => [⟨"web", Booth.token written⟩]

def serve (s : Stall) (q : Request) : Response × Stall :=
  match q.action, s with
  | .describeGroups, s => (Booth.groupsPage s.groups none, s)
  | .describeStreams, s => (Booth.streamsPage s.infos none, s)
  | .createGroup, bare => (.answered 200 [], group)
  | .createGroup, s => (Booth.refusal "ResourceAlreadyExistsException", s)
  | .createStream, bare => (Booth.refusal "ResourceNotFoundException", bare)
  | .createStream, group => (.answered 200 [], stream false [])
  | .createStream, s => (Booth.refusal "ResourceAlreadyExistsException", s)
  | .putEvents, stream written stored =>
    if sentToken? q.body = some (Booth.token written) then
      (receipt, stream true (stored ++ (sentEvents? q.body).getD []))
    else (stale (Booth.token written), stream written stored)
  | .putEvents, s => (Booth.refusal "ResourceNotFoundException", s)

def serveOrLose (s : Stall) (q : Request) : Response × Stall :=
  match q.action, s with
  | .describeGroups, s => (Booth.groupsPage s.groups none, s)
  | .describeStreams, s@(stream ..) => (.broken, s)
  | .describeStreams, s => (Booth.streamsPage s.infos none, s)
  | .createGroup, bare => (.late, group)
  | .createStream, group => (.late, stream false [])
  | _, s => (.broken, s)

theorem serveOrLose_leaves (s : Stall) (q : Request) :
    s.site.Leaves q (serveOrLose s q).2.site := by
  obtain ⟨action, body⟩ := q
  cases action <;> cases s <;> constructor <;> rfl

theorem serve_putEvents (written : Bool) (stored : List LogEvent) (d : Destination)
    (token : Option Token) (events : List LogEvent) :
    serve (stream written stored) (.putEvents d token events) =
      if token = Booth.token written then (receipt, stream true (stored ++ events))
      else (stale (Booth.token written), stream written stored) := by
  have hserve : serve (stream written stored) (.putEvents d token events) =
      if sentToken? (Request.putEvents d token events).body = some (Booth.token written) then
        (receipt, stream true
          (stored ++ (sentEvents? (Request.putEvents d token events).body).getD []))
      else (stale (Booth.token written), stream written stored) := rfl
  simp only [hserve, sentToken?_putEvents, sentEvents?_putEvents, Option.getD_some,
    Option.some.injEq]

theorem receipt_says : receipt.Says putAnswer? (some "7") := Response.decode_ok_iff.mp rfl

theorem stale_complains (written : Bool) :
    (stale (Booth.token written)).Complains "InvalidSequenceTokenException"
      (Booth.token written) := by
  refine Response.complains_iff.mpr ⟨400, ⟨"InvalidSequenceTokenException", "", _⟩,
    ⟨_, ⟨rfl, by decide⟩, ?_⟩, rfl, rfl⟩
  cases written <;> rfl

theorem refusal_missing : (Booth.refusal "ResourceNotFoundException").Complains
    "ResourceNotFoundException" none :=
  Response.complains_iff.mpr ⟨400, ⟨"ResourceNotFoundException", "", none⟩,
    ⟨_, ⟨rfl, by decide⟩, rfl⟩, rfl, rfl⟩

theorem serve_takes : TakesSubmissions home site serve where
  stores s st events hst := by
    obtain _ | _ | ⟨written, stored⟩ := s <;> cases hst
    rw [serve_putEvents, if_pos rfl]
    exact ⟨some "7", receipt_says, rfl⟩
  refuses s st token events hst hstale := by
    obtain _ | _ | ⟨written, stored⟩ := s <;> cases hst
    rw [serve_putEvents, if_neg hstale]
    exact ⟨stale_complains written, rfl⟩
  misses s token events hnone := by
    obtain _ | _ | ⟨written, stored⟩ := s
    · exact ⟨⟨none, refusal_missing⟩, rfl⟩
    · exact ⟨⟨none, refusal_missing⟩, rfl⟩
    · cases hnone

theorem serve_opens (s : Stall) (r : Registry) (id : SourceId) : ∃ st,
    (overWire 1 serve s ⟨r, id, .openStream home⟩).1 = some (.ok st.token) ∧
      (overWire 1 serve s ⟨r, id, .openStream home⟩).2.site.stream? = some st := by
  obtain _ | _ | ⟨_ | _, stored⟩ := s <;> exact ⟨_, rfl, rfl⟩

def handed : List (Visit × LogEvent) := [(.byName, ⟨2, "x"⟩), (.byName, ⟨1, "y"⟩)]

def admitted (s : Stall) : History Stall :=
  let opened := ((Operation.start "a" home).course .byName (.new {} .zero)).run
    (overWire 1 serveOrLose) s
  opened.result.1.history (overWire 1 serve) (handed.map fun h => (h.1, .handle "a" h.2))
    opened.state

def flushed (s : Stall) : History Stall :=
  (admitted s).registry.history (overWire 1 serve) [(.byName, .flush "a"), (.byName, .flush "a")]
    (admitted s).state

end Stall

/-! ### A source that starts without its stream -/

/-- A new source whose stream could not be opened, whatever was lost of the requests for it and of
the answers, at a remote that answers submissions from then on. A stream that was there before is
there as it was. What is handed in, as long as it fits into one batch, is pending with no call made,
and no token. If there is a stream now, the second attempt at the latest has the events stored, once
and in order; if there is none, every attempt fails, and nothing is stored or lost. -/
theorem degraded_start_heals {σ : Type} (pages : Nat) (d : Destination) (site : σ → Site)
    (faulty answer : σ → Request → Response × σ)
    (hfaulty : ∀ s q, (site s).Leaves q (site (faulty s q).2))
    (hanswer : TakesSubmissions d site answer) (r : Registry) (id : SourceId)
    (hid : r.batches.find? id = none) (s : σ) (u : Visit)
    (hfailed : ∀ token, (overWire pages faulty s ⟨r, id, .openStream d⟩).1 ≠ some (.ok token))
    (handed : List (Visit × LogEvent)) (hsome : handed ≠ [])
    (hfit : r.limits.Admits (handed.map (·.2))) :
    let opened := ((Operation.start id d).course u r).run (overWire pages faulty) s
    let filled := opened.result.1.history (overWire pages answer)
      (handed.map fun h => (h.1, .handle id h.2)) opened.state
    (∀ st, (site s).stream? = some st → (site opened.state).stream? = some st) ∧
    filled.state = opened.state ∧
    ∃ b, filled.registry.batches.find? id = some b ∧ b.destination = d ∧ b.token = none ∧
      InTimeOrder (handed.map (·.2)) b.events ∧
      (∀ st, (site opened.state).stream? = some st → ∀ v w : Visit,
        let run := filled.registry.history (overWire pages answer)
          [(v, .flush id), (w, .flush id)] filled.state
        ∃ st', (site run.state).stream? = some st' ∧ Heals id b st st' run) ∧
      ((site opened.state).stream? = none → ∀ visits : List Visit,
        let run := filled.registry.history (overWire pages answer)
          (visits.map (·, .flush id)) filled.state
        run.registry.batches.find? id = some b ∧ site run.state = site opened.state ∧
          ∀ t ∈ run.turns, ∃ message, t.outcome = .flushed (.error (.notFound message))) := by
  intro opened filled
  obtain ⟨hfresh, hlimits, hstate⟩ :=
    Registry.start_degraded (overWire pages faulty) hid u s hfailed
  have hwire := Dialogue.run_answered faulty (reply pages (.openStream d)) s
  have hcount : 0 + handed.length ≤ opened.result.1.limits.maxEvents := by
    rw [hlimits, Nat.zero_add, ← List.length_map (·.2)]
    exact hfit.1
  have hbytes : 0 + opened.result.1.limits.charge (handed.map (·.2)) ≤
      opened.result.1.limits.maxBytes := by
    rw [hlimits, Nat.zero_add]
    exact hfit.2
  obtain ⟨hquiet, b, hb, rfl, htoken, hraised⟩ := history_handles (overWire pages answer)
    hfresh hlimits.symm .nil handed hcount hbytes opened.state
  have hpending : b.events ≠ [] := by
    intro hnil
    have hlength := hraised.length_eq
    rw [hnil, List.nil_append, List.length_map] at hlength
    exact hsome (List.length_eq_zero_iff.mp hlength.symm)
  refine ⟨fun st hst => ?_, hquiet, b, hb, rfl, htoken, hraised.inTimeOrder, ?_, ?_⟩
  · have hkept := stream_kept hfaulty hwire hst
    exact hstate ▸ hkept
  · intro st hst v w run
    have hthere : (site filled.state).stream? = some st := hquiet ▸ hst
    obtain ⟨hstill, hheals⟩ := (hanswer.decidesWhile pages).heals v
      (Option.isSome_iff_exists.mpr ⟨st, hthere⟩) hb hpending (.inl htoken) w
    obtain ⟨st', hst'⟩ := Option.isSome_iff_exists.mp hstill
    simp only [hthere, hst', Option.getD_some] at hheals
    exact ⟨st', hst', hheals⟩
  · intro hnone visits run
    have hmissing : (site filled.state).stream? = none := hquiet ▸ hnone
    obtain ⟨hfound, hsite, hturns⟩ :=
      hanswer.missed_forever pages hb rfl hpending hmissing visits
    exact ⟨hfound, hsite.trans (congrArg site hquiet), hturns⟩

theorem degraded_start_heals_lost :
    let old : LogEvent := ⟨0, "w"⟩
    let first := Stall.flushed .group
    let second := Stall.flushed (.stream true [old])
    (∃ b st, Heals "a" b {} st first) ∧ first.state = .stream true [⟨2, "x"⟩, ⟨2, "y"⟩] ∧
      (∃ b st, Heals "a" b ⟨some "7", [old]⟩ st second) ∧
      second.state = .stream true [old, ⟨2, "x"⟩, ⟨2, "y"⟩] := by
  intro old first second
  have hfit : (Registry.new {} .zero).limits.Admits (Stall.handed.map (·.2)) :=
    ⟨by decide, by decide⟩
  have hheals (s : Stall) (hfailed : ∀ token, (overWire 1 Stall.serveOrLose s
      ⟨.new {} .zero, "a", .openStream Stall.home⟩).1 ≠ some (.ok token)) :=
    degraded_start_heals 1 Stall.home Stall.site Stall.serveOrLose Stall.serve
      Stall.serveOrLose_leaves Stall.serve_takes (.new {} .zero) "a" rfl s .byName hfailed
      Stall.handed nofun hfit
  obtain ⟨-, -, b, -, -, -, -, hmade, -⟩ := hheals .group nofun
  obtain ⟨hkept, -, b', -, -, -, -, hlisted, -⟩ := hheals (.stream true [old]) nofun
  obtain ⟨st, -, hst⟩ := hmade {} rfl .byName .byName
  obtain ⟨st', -, hst'⟩ := hlisted ⟨some "7", [old]⟩ (hkept _ rfl) .byName .byName
  exact ⟨⟨b, st, hst⟩, by decide +kernel, ⟨b', st', hst'⟩, by decide +kernel⟩

/-- Nothing of the first call has reached the remote, where the group is but no stream. Any call to
open the stream would succeed from then on, but none is made. -/
theorem degraded_start_unhealed :
    let broken : Stall → Request → Response × Stall := fun s _ => (.broken, s)
    let r : Registry := .new {} .zero
    let opened := ((Operation.start "a" Stall.home).course .byName r).run (overWire 1 broken)
      Stall.group
    let run := opened.result.1.history (overWire 1 Stall.serve)
      [(.byName, .handle "a" ⟨1, "x"⟩), (.byName, .flush "a"), (.byName, .flush "a")] opened.state
    (∀ s q, (Stall.site s).Leaves q (broken s q).2.site) ∧
      TakesSubmissions Stall.home Stall.site Stall.serve ∧
      (∀ s r id, ∃ st,
        (overWire 1 Stall.serve s ⟨r, id, .openStream Stall.home⟩).1 = some (.ok st.token) ∧
          (overWire 1 Stall.serve s ⟨r, id, .openStream Stall.home⟩).2.site.stream? = some st) ∧
      (∀ token, (overWire 1 broken .group ⟨r, "a", .openStream Stall.home⟩).1 ≠
        some (.ok token)) ∧
      r.limits.Admits [⟨1, "x"⟩] ∧
      (opened.result.1.batches.find? "a").isSome ∧ run.state = Stall.group ∧
      run.registry.pending "a" = [⟨1, "x"⟩] :=
  ⟨fun s q => .ignored s.site q, Stall.serve_takes, Stall.serve_opens, nofun,
    ⟨by decide, by decide⟩, by decide +kernel, by decide +kernel, by decide +kernel⟩

end LogRelay
