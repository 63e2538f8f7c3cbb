import LogRelay.Proofs.Streams

/-! A batch with the wrong token. A refusal names the token that the stream wants, so the attempt
after it succeeds; but a stream that wants none cannot say so in a way that the batch takes over. -/

namespace LogRelay

/-- In states of this kind, a submission to the destination is decided at once, by the token of its
stream, and leads to another state of the kind. -/
structure DecidesWhile {σ : Type} (kind : σ → Prop) (d : Destination)
    (answer : σ → Inquiry → Reply × σ) (stream : σ → Stream) : Prop where
  serves : ∀ s q token events, kind s → q.call = .submit d token events →
    (stream s).Serves q.call (answer s q).1 (stream (answer s q).2)
  prompt : ∀ s q token events, kind s → q.call = .submit d token events →
    (answer s q).1.fails = false
  stays : ∀ s q token events, kind s → q.call = .submit d token events → kind (answer s q).2

structure Decides {σ : Type} (d : Destination) (answer : σ → Inquiry → Reply × σ)
    (stream : σ → Stream) : Prop where
  serves : ∀ s q token events, q.call = .submit d token events →
    (stream s).Serves q.call (answer s q).1 (stream (answer s q).2)
  prompt : ∀ s q token events, q.call = .submit d token events → (answer s q).1.fails = false

theorem Decides.decidesWhile {σ : Type} {d : Destination} {answer : σ → Inquiry → Reply × σ}
    {stream : σ → Stream} (h : Decides d answer stream) :
    DecidesWhile (fun _ => True) d answer stream where
  serves s q token events _ := h.serves s q token events
  prompt s q token events _ := h.prompt s q token events
  stays _ _ _ _ _ _ := trivial

theorem ChecksTokens.decides {σ : Type} {answer : σ → Inquiry → Reply × σ} {streams : σ → Streams}
    (h : ChecksTokens answer streams) (hprompt : ∀ s q, (answer s q).1.fails = false)
    (d : Destination) : Decides d answer (streams · d) where
  serves s q token events hcall := by
    have hserves := (h.serves s q).1
    have hd : q.call.destination = d := by rw [hcall]; rfl
    rwa [hd] at hserves
  prompt s q _ _ _ := hprompt s q

section OneSource

variable {σ : Type} {answer : σ → Inquiry → Reply × σ} {stream : σ → Stream} {s : σ}
  {kind : σ → Prop} {r : Registry} {id : SourceId} {b : Batch} (v : Visit)

variable (answer s) in
theorem Registry.flush_idle (hb : r.batches.find? id = some b) (hidle : b.events = []) :
    let held := ((Operation.flush id).course v r).run answer s
    held.result.1.batches.find? id = some b ∧ held.result.2 = .flushed (.ok 0) ∧
      held.state = s := by
  rw [Operation.course, flush_some hb, submit_empty r id hidle]
  exact ⟨put_found hb b, rfl, rfl⟩

variable (answer s) in
theorem Registry.flush_pending (hb : r.batches.find? id = some b) (hpending : b.events ≠ []) :
    let served := answer s (r.submission id b)
    let held := ((Operation.flush id).course v r).run answer s
    held.result.1.batches.find? id = some (b.settle (r.heed served.1)).1 ∧
      held.result.2 = .flushed (b.settle (r.heed served.1)).2 ∧ held.state = served.2 ∧
      held.exchanges = [(r.submission id b, served.1)] := by
  rw [Operation.course, flush_some hb, submit_pending r id hpending]
  exact ⟨put_found (r := r.count _) hb _, rfl, rfl, rfl⟩

theorem DecidesWhile.flush (h : DecidesWhile kind b.destination answer stream) (hs : kind s)
    (hb : r.batches.find? id = some b) (hpending : b.events ≠ []) :
    let held := ((Operation.flush id).course v r).run answer s
    kind held.state ∧ ((b.token = (stream s).token ∧ ∃ next,
      held.result.1.batches.find? id = some (b.successor next) ∧
      held.result.2 = .flushed (.ok b.size) ∧ held.exchanges.flatMap storedBy = b.events ∧
      stream held.state = ⟨next, (stream s).stored ++ b.events⟩) ∨
    (b.token ≠ (stream s).token ∧
      held.result.1.batches.find? id =
        some (b.adopt (.invalidSequenceToken (stream s).token)) ∧
      held.result.2 = .flushed (.error (.invalidSequenceToken (stream s).token)) ∧
      stream held.state = stream s)) := by
  intro held
  obtain ⟨hbatch, hout, hstate, hex⟩ := Registry.flush_pending answer s v hb hpending
  refine ⟨hstate ▸ h.stays s (r.submission id b) _ _ hs rfl, ?_⟩
  have hserves := h.serves s (r.submission id b) _ _ hs rfl
  rcases hserves.decided (h.prompt s (r.submission id b) _ _ hs rfl) with
    ⟨hcurrent, next, hreply, hnext⟩ | ⟨hstale, hreply, hsame⟩
  · refine Or.inl ⟨hcurrent, next, hbatch.trans ?_, hout.trans ?_, ?_, hstate ▸ hnext⟩
    · rw [hreply]
      rfl
    · rw [hreply]
      rfl
    · rw [hex, hreply]
      exact List.append_nil _
  · refine Or.inr ⟨hstale, hbatch.trans ?_, hout.trans ?_, hstate ▸ hsame⟩
    · rw [hreply]
      rfl
    · rw [hreply]
      rfl

structure Heals (id : SourceId) (b : Batch) (before after : Stream) (run : History σ) : Prop where
  emptied : ∃ b', run.registry.batches.find? id = some b' ∧ b'.events = []
  reported : ∃ t ∈ run.turns, t.outcome = .flushed (.ok b.size) ∧
    t.exchanges.flatMap storedBy = b.events
  stored : after.stored = before.stored ++ b.events

theorem DecidesWhile.heals (h : DecidesWhile kind b.destination answer stream) (hs : kind s)
    (hb : r.batches.find? id = some b) (hpending : b.events ≠ [])
    (htokens : b.token = none ∨ (stream s).token ≠ none) (w : Visit) :
    let run := r.history answer [(v, .flush id), (w, .flush id)] s
    kind run.state ∧ Heals id b (stream s) (stream run.state) run := by
  let first := ((Operation.flush id).course v r).run answer s
  intro run
  obtain ⟨hkind, ⟨-, next, hbatch, hout, hstored, hstream⟩ | ⟨hstale, hbatch, -, hsame⟩⟩ :=
    h.flush v hs hb hpending
  · -- The first attempt was good, and the second finds nothing pending.
    obtain ⟨hafter, -, hstate⟩ := Registry.flush_idle answer first.state w hbatch rfl
    have hend : run.state = first.state := hstate
    refine ⟨hend ▸ hkind, ⟨_, hafter, rfl⟩, ⟨_, List.mem_cons_self .., hout, hstored⟩, ?_⟩
    rw [hend, hstream]
  · -- The refusal has named the token, and the batch has taken it over.
    obtain ⟨token, htoken⟩ : ∃ token, (stream s).token = some token := by
      cases hwants : (stream s).token with
      | none => exact absurd (htokens.resolve_right fun hne => hne hwants) (hwants ▸ hstale)
      | some token => exact ⟨token, rfl⟩
    rw [htoken] at hbatch
    obtain ⟨hkind', ⟨-, next, hbatch', hout, hstored, hstream⟩ | ⟨hstale', -⟩⟩ :=
      DecidesWhile.flush (b := { b with token := some token }) (s := first.state) w h hkind hbatch
        hpending
    · have hend : (stream run.state).stored = (stream first.state).stored ++ b.events :=
        congrArg Stream.stored hstream
      refine ⟨hkind', ⟨_, hbatch', rfl⟩, ⟨_, List.mem_cons_of_mem _ (List.mem_singleton_self _),
        hout, hstored⟩, ?_⟩
      rw [hend, hsame]
    · have hcurrent : some token = (stream first.state).token := hsame ▸ htoken.symm
      exact absurd hcurrent hstale'

theorem Decides.heals (h : Decides b.destination answer stream)
    (hb : r.batches.find? id = some b) (hpending : b.events ≠ [])
    (htokens : b.token = none ∨ (stream s).token ≠ none) (w : Visit) :
    let run := r.history answer [(v, .flush id), (w, .flush id)] s
    Heals id b (stream s) (stream run.state) run :=
  (h.decidesWhile.heals v trivial hb hpending htokens w).2

theorem Decides.stuck (h : Decides b.destination answer stream)
    (hb : r.batches.find? id = some b) (hpending : b.events ≠ []) (hnone : (stream s).token = none)
    (hsome : b.token ≠ none) (visits : List Visit) :
    let run := r.history answer (visits.map (·, .flush id)) s
    run.registry.batches.find? id = some b ∧ stream run.state = stream s ∧
      ∀ t ∈ run.turns, t.outcome = .flushed (.error (.invalidSequenceToken none)) := by
  induction visits generalizing r s with
  | nil => exact ⟨hb, rfl, List.forall_mem_nil _⟩
  | cons v rest ih =>
    obtain ⟨-, ⟨hcurrent, -⟩ | ⟨-, hbatch, hout, hsame⟩⟩ :=
      h.decidesWhile.flush v trivial hb hpending
    · exact absurd (hcurrent.trans hnone) hsome
    · rw [hnone] at hbatch hout
      obtain ⟨hfound, hstream, hturns⟩ := ih hbatch (hsame ▸ hnone)
      exact ⟨hfound, hstream.trans hsame, List.forall_mem_cons.mpr ⟨hout, hturns⟩⟩

end OneSource

/-- A source with pending events, in any state of the registry, whose stream decides submissions by
their token. If the stream wants a token, or the batch holds none, two attempts in a row empty the
batch: one of them reports as many events stored as were pending, and the stream has got just these.
If the stream wants none and the batch holds one, every attempt is refused, and nothing changes. -/
theorem flushes_heal {σ : Type} (answer : σ → Inquiry → Reply × σ) (stream : σ → Stream)
    (r : Registry) (id : SourceId) (b : Batch) (hb : r.batches.find? id = some b)
    (hpending : b.events ≠ []) (hremote : Decides b.destination answer stream) (s : σ) :
    (b.token = none ∨ (stream s).token ≠ none → ∀ v w : Visit,
      let run := r.history answer [(v, .flush id), (w, .flush id)] s
      Heals id b (stream s) (stream run.state) run) ∧
    (b.token ≠ none → (stream s).token = none → ∀ visits : List Visit,
      let run := r.history answer (visits.map (·, .flush id)) s
      run.registry.batches.find? id = some b ∧ stream run.state = stream s ∧
        ∀ t ∈ run.turns, t.outcome = .flushed (.error (.invalidSequenceToken none))) :=
  ⟨fun htokens v w => hremote.heals v hb hpending htokens w,
    fun hsome hnone => hremote.stuck hb hpending hnone hsome⟩

def Registry.joined : Registry :=
  ((Registry.new {} .zero).history Streams.serve
    ([.start "a" ⟨"g", "s"⟩, .handle "a" ⟨1, "x"⟩].map (.byName, ·))
    fun _ => { token := some "t" }).registry

def Batch.joined : Batch := (Batch.fresh ⟨"g", "s"⟩ (some "t") {}).append ⟨1, "x"⟩

theorem flushes_heal_joined :
    let overtaken : Streams := fun _ => { token := some "u" }
    let run := Registry.joined.history Streams.serve
      [(.byName, .flush "a"), (.byName, .flush "a")] overtaken
    let again := Registry.joined.history Streams.serve [(.byName, .flush "a")] fun _ => {}
    Registry.joined.batches.find? "a" = some .joined ∧ Batch.joined.events ≠ [] ∧
      Decides ⟨"g", "s"⟩ Streams.serve (· ⟨"g", "s"⟩) ∧
      Heals "a" .joined { token := some "u" } (run.state ⟨"g", "s"⟩) run ∧
      again.registry.batches.find? "a" = some .joined := by
  have hfound : Registry.joined.batches.find? "a" = some .joined := by decide +kernel
  have hpending : Batch.joined.events ≠ [] := by decide +kernel
  have hremote := Streams.serve_checksTokens.decides Streams.serve_fails ⟨"g", "s"⟩
  have hheals := (flushes_heal _ _ _ "a" .joined hfound hpending hremote
    fun _ => { token := some "u" }).1 (Or.inr nofun) .byName .byName
  have hstuck := (flushes_heal _ _ _ "a" .joined hfound hpending hremote fun _ => {}).2 nofun rfl
    [.byName]
  exact ⟨hfound, hpending, hremote, hheals, hstuck.1⟩

/-- A stream that was made anew after the source had joined it never gets the event. -/
theorem flushes_refused_after_reset :
    let run := Registry.joined.history Streams.serve
      [(.byName, .flush "a"), (.byName, .flush "a")] fun _ => {}
    Decides ⟨"g", "s"⟩ Streams.serve (· ⟨"g", "s"⟩) ∧
      Registry.joined.batches.find? "a" = some .joined ∧ Batch.joined.events = [⟨1, "x"⟩] ∧
      run.registry.batches.find? "a" = some .joined ∧
      run.registry.tally.flushesSucceeded = 0 ∧ (run.state ⟨"g", "s"⟩).stored = [] :=
  ⟨Streams.serve_checksTokens.decides Streams.serve_fails _, by decide +kernel, by decide +kernel,
    by decide +kernel, by decide +kernel, by decide +kernel⟩

end LogRelay
