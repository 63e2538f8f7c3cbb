import LogRelay.Proofs.Synchrony
import LogRelay.Proofs.WireLimits
import LogRelay.Shipping
import Mathlib.Data.List.Chain

/-! The chain of tokens of one destination, across the sources that write to it one after another,
and what follows for the events when no call fails. -/

namespace LogRelay

/-- From one token to another, each submission carries the token that the one before it
returned. -/
def Linked : Option Token → List Submission → Option Token → Prop
  | t, [], t' => t' = t
  | t, x :: rest, t' => x.token = t ∧ ∃ next, x.answer = .ok next ∧ Linked next rest t'

theorem Linked.isChain {t t' : Option Token} {subs : List Submission} (h : Linked t subs t') :
    subs.IsChain fun x y => x.answer = .ok y.token := by
  induction subs generalizing t with
  | nil => exact .nil
  | cons x rest ih =>
    obtain ⟨-, next, hanswer, hrest⟩ := h
    cases rest with
    | nil => exact List.isChain_singleton x
    | cons y later =>
      have hnext : y.token = next := hrest.1
      exact List.isChain_cons_cons.mpr ⟨hnext ▸ hanswer, ih hrest⟩

theorem Stream.Held.linked {s s' : Stream} {ex : List Exchange} (h : s.Held ex s')
    (hserved : ∀ x ∈ ex, x.2.fails = false ∧ x.2.refuses = false) :
    Linked s.token (ex.filterMap (Submission.ofExchange? false)) s'.token := by
  induction ex generalizing s with
  | nil => exact congrArg Stream.token h
  | cons x rest ih =>
    obtain ⟨mid, hserves, hrest⟩ := h
    obtain ⟨⟨hfails, hrefuses⟩, hlater⟩ := List.forall_mem_cons.mp hserved
    have hlinked := ih hrest hlater
    obtain ⟨⟨r, id, call⟩, reply⟩ := x
    cases call with
    | openStream d =>
      obtain ⟨-, rfl⟩ := Stream.Serves.opened hserves
      exact hlinked
    | submit d token events =>
      rcases hserves.decided hfails with ⟨rfl, next, rfl, rfl⟩ | ⟨-, rfl, -⟩
      · exact ⟨rfl, next, rfl, hlinked⟩
      · cases hrefuses

/-! ### Room for events -/

namespace Batch.Sound

variable {limits : Limits} {id : SourceId} {b b' : Batch} {ex : List Exchange} {e : LogEvent}

theorem flushed (h : b.Sound limits) (hf : Flushed id b ex b') : b'.Sound limits := by
  cases hf with
  | empty => exact h
  | asked r reply => exact h.settle _

theorem passage {l : Limits} {op : Operation} {outcome : Outcome} {before after : Option Batch}
    (h : ∀ b ∈ before, b.Sound limits) (hl : l = limits)
    (hway : Passage l id op outcome before ex after) : ∀ b ∈ after, b.Sound limits := by
  rintro c rfl
  generalize hafter : some c = after at hway
  cases hway with
  | absent => cases hafter
  | removed => cases hafter
  | started r d reply =>
    obtain rfl := Option.some.inj hafter
    exact hl ▸ Batch.sound_fresh _ _ _
  | kept b =>
    obtain rfl := Option.some.inj hafter
    exact h c rfl
  | appended _ _ hroom =>
    obtain rfl := Option.some.inj hafter
    exact (h _ rfl).append hroom
  | flushed _ hf =>
    obtain rfl := Option.some.inj hafter
    exact (h _ rfl).flushed hf
  | refused _ _ _ hf =>
    obtain rfl := Option.some.inj hafter
    exact (h _ rfl).flushed hf
  | overflowed _ _ _ hf hroom =>
    obtain rfl := Option.some.inj hafter
    exact ((h _ rfl).flushed hf).append hroom

theorem accepts_of_empty (h : b.Sound limits) (hlimits : 1 ≤ limits.maxEvents)
    (hsize : limits.oversized e = false) (hempty : b.events = []) : b.accepts e = true := by
  rw [h.accepts_iff, hempty]
  have hcharge : Word.wrap (limits.charge [e]) = limits.wireSize e := rfl
  refine ⟨hlimits, ?_⟩
  rw [List.nil_append, hcharge]
  simpa [Limits.oversized] using hsize

end Batch.Sound

theorem closes_of_served {reply : Reply} (hfails : reply.fails = false)
    (hrefuses : reply.refuses = false) (r : Registry) : (r.heed reply).closes = true := by
  rcases reply with _ | (e | _)
  · cases hfails
  · cases e with
    | invalidSequenceToken => cases hrefuses
    | dataAlreadyAccepted | invalidParameter => rfl
    | _ => cases hfails
  · rfl

theorem Registry.handle_takes {r r' : Registry} {id : SourceId} {b : Batch} {e : LogEvent}
    {ex : List Exchange} {outcome : EventOutcome} (h : (r.handle id e).Yields ex (r', outcome))
    (hmax : 1 ≤ r.limits.maxEvents) (hb : r.batches.find? id = some b) (hsound : b.Sound r.limits)
    (hserved : ∀ x ∈ exchangesAt b.destination ex, x.2.fails = false ∧ x.2.refuses = false) :
    outcome ≠ .dropped .flushFailed := by
  cases handle_yields h with
  | unknown | oversized | fits => exact nofun
  | @overflows c b' _ _ stored _ _ hsome hsize _ hsubmit hover =>
    obtain rfl : c = b := Option.some.inj (hsome.symm.trans hb)
    have hroom : b'.accepts e = true := by
      rcases submit_yields hsubmit with ⟨hempty, -, -, rfl, -⟩ | ⟨-, reply, rfl, -, rfl, -⟩
      · exact hsound.accepts_of_empty hmax hsize hempty
      · obtain ⟨hfails, hrefuses⟩ := hserved (r.submission id c, reply)
          (List.mem_filter.mpr ⟨List.mem_singleton_self _, decide_eq_true rfl⟩)
        have hcloses := closes_of_served hfails hrefuses r
        have hempty : (c.settle (r.heed reply)).1.events = [] := by
          rw [Batch.settle_events, hcloses, if_pos rfl]
        exact (hsound.settle _).accepts_of_empty hmax hsize hempty
    cases hover with
    | appended => split <;> exact nofun
    | refused hstill => exact absurd (hstill.symm.trans hroom) Bool.false_ne_true

/-! ### Whole runs -/

theorem prompt_answered {σ : Type} {answer : σ → Inquiry → Reply × σ}
    (hprompt : ∀ s q, (answer s q).1.fails = false) {s s' : σ} {ex : List Exchange}
    (h : Dialogue.Answered answer s ex s') : ∀ x ∈ ex, x.2.fails = false := by
  induction ex generalizing s with
  | nil => exact List.forall_mem_nil _
  | cons x rest ih =>
    obtain ⟨hanswer, hrest⟩ := h
    exact List.forall_mem_cons.mpr ⟨hanswer ▸ hprompt s x.1, ih hrest⟩

structure Registry.Steady (limits : Limits) (d : Destination) (s : Stream) (r : Registry) :
    Prop where
  limits_eq : r.limits = limits
  sole : r.SoleAt d
  inStep : r.InStepAt d s
  sound : ∀ id, ∀ b ∈ r.batches.find? id, b.Sound limits

structure Turn.Smooth (d : Destination) (t : Turn) : Prop where
  unrefused : ∀ x ∈ exchangesAt d t.exchanges, x.2.refuses = false
  kept : ∀ id e, t.operation = .handle id e → ∀ b ∈ t.before.batches.find? id,
    b.destination = d → t.outcome ≠ .handled (.dropped .flushFailed)

theorem Turn.Possible.smooth {t : Turn} {limits : Limits} {d : Destination} {s s' : Stream}
    (h : t.Possible) (hmax : 1 ≤ limits.maxEvents) (hheld : s.Held (exchangesAt d t.exchanges) s')
    (hprompt : ∀ x ∈ t.exchanges, x.2.fails = false) (hafter : t.after.SoleAt d)
    (hbefore : t.before.Steady limits d s) : t.after.Steady limits d s' ∧ t.Smooth d := by
  obtain ⟨hstep, hunrefused⟩ := h.inStepAt hbefore.sole hheld hbefore.inStep
  refine ⟨⟨h.limits.trans hbefore.limits_eq, hafter, hstep, fun id => ?_⟩, hunrefused, ?_⟩
  · exact Batch.Sound.passage (hbefore.sound id) hbefore.limits_eq (h.passage id)
  · rintro id e hop b hb rfl hout
    have hserved : ∀ x ∈ exchangesAt b.destination t.exchanges,
        x.2.fails = false ∧ x.2.refuses = false :=
      fun x hx => ⟨hprompt x (List.mem_of_mem_filter hx), hunrefused x hx⟩
    have hsound := hbefore.sound id b hb
    obtain rfl := hbefore.limits_eq
    obtain ⟨v, hyields⟩ := h
    rw [hop, hout] at hyields
    obtain ⟨_, hc, ho⟩ := Operation.answer_yields hyields
    cases ho
    exact Registry.handle_takes hc hmax hb hsound hserved rfl

def submissionsTo (d : Destination) (ex : List Exchange) : List Submission :=
  (exchangesAt d ex).filterMap (Submission.ofExchange? false)

/-- Whatever messages come and whenever sweeps do, against a remote that checks tokens and never
fails: if at no time two registered sources have the destination, then each submission to it carries
the token that the one before it returned, whichever sources they are for. No submission to it is
refused for its token, and no event for it is dropped because a flush failed. -/
theorem destinations_chained {σ : Type} (limits : Limits) (hmax : 1 ≤ limits.maxEvents)
    (callTimeout : Duration) (answer : σ → Inquiry → Reply × σ) (streams : σ → Streams)
    (hremote : ChecksTokens answer streams) (hprompt : ∀ s q, (answer s q).1.fails = false)
    (n : Naming) (occurrences : List (Visit × Occurrence)) (s : σ) (d : Destination)
    (hsole : ∀ t ∈ ((Registry.new limits callTimeout).history answer
      (occurrences.map fun (v, o) => (v, n.asks o)) s).turns, t.after.SoleAt d) :
    let run := (Registry.new limits callTimeout).history answer
      (occurrences.map fun (v, o) => (v, n.asks o)) s
    (submissionsTo d (run.turns.flatMap (·.exchanges))).IsChain
      (fun x y => x.answer = .ok y.token) ∧
    ∀ t ∈ run.turns, (∀ x ∈ exchangesAt d t.exchanges, x.2.refuses = false) ∧
      ∀ id e, t.operation = .handle id e → ∀ b ∈ t.before.batches.find? id, b.destination = d →
        t.outcome ≠ .handled (.dropped .flushFailed) := by
  intro run
  have hinvariant := @history_induction σ answer
    (fun turns r s' => (∀ t ∈ turns, t.after.SoleAt d) →
      r.Steady limits d (streams s' d) ∧ ∀ t ∈ turns, t.Smooth d) ?_ (.new limits callTimeout)
    (occurrences.map fun (v, o) => (v, n.asks o)) s
    fun _ => ⟨⟨rfl, nofun, nofun, nofun⟩, List.forall_mem_nil _⟩
  · have hsmooth : ∀ t ∈ run.turns, t.Smooth d := (hinvariant hsole).2
    have hanswered := history_answered answer (.new limits callTimeout)
      (occurrences.map fun (v, o) => (v, n.asks o)) s
    refine ⟨?_, fun t ht => ⟨(hsmooth t ht).unrefused, (hsmooth t ht).kept⟩⟩
    refine ((hremote.held hanswered d).linked fun x hx => ?_).isChain
    obtain ⟨hx, hd⟩ := List.mem_filter.mp hx
    obtain ⟨t, ht, hxt⟩ := List.mem_flatMap.mp hx
    have hunrefused := (hsmooth t ht).unrefused x (List.mem_filter.mpr ⟨hxt, hd⟩)
    exact ⟨prompt_answered hprompt hanswered x hx, hunrefused⟩
  · intro turns t s₁ s₂ ht hanswered ih hall
    obtain ⟨hbefore, hturns⟩ := ih fun u hu => hall u (List.mem_append_left _ hu)
    obtain ⟨hafter, hnow⟩ := ht.smooth hmax (hremote.held hanswered d)
      (prompt_answered hprompt hanswered) (hall t (by simp)) hbefore
    exact ⟨hafter, List.forall_mem_append.mpr ⟨hturns, List.forall_mem_singleton.mpr hnow⟩⟩

def succession : List (Visit × Occurrence) :=
  [.message 0 (.start "a" (some "g") (some "s")), .message 1 (.log "a" "x" none),
    .message 2 (.log "a" "y" none), .message 3 (.stop "a"),
    .message 4 (.start "b" (some "g") (some "s")), .message 5 (.start "c" none none),
    .message 6 (.start "e" none (some "h-c")), .message 7 (.log "b" "z" (some 1)),
    .message 8 (.log "c" "w" none), .message 9 (.log "e" "v" none), .sweep].map (.byName, ·)

theorem destinations_chained_succession :
    let run := (Registry.new { maxEvents := 1 } .zero).history Streams.serve
      (succession.map fun (v, o) => (v, (Naming.mk "g" "h").asks o)) fun _ => {}
    let subs := submissionsTo ⟨"g", "s"⟩ (run.turns.flatMap (·.exchanges))
    ChecksTokens Streams.serve id ∧ (∀ t ∈ run.turns, t.after.SoleAt ⟨"g", "s"⟩) ∧
      (¬ ∀ t ∈ run.turns, t.after.SoleAt ⟨"g", "h-c"⟩) ∧
      subs.map (·.token) = [none, some "+", some "++"] ∧
      subs.IsChain fun x y => x.answer = .ok y.token := by
  have hsole : ∀ t ∈ ((Registry.new { maxEvents := 1 } .zero).history Streams.serve
      (succession.map fun (v, o) => (v, (Naming.mk "g" "h").asks o)) fun _ => {}).turns,
      t.after.SoleAt ⟨"g", "s"⟩ := by decide +kernel
  have hchained := destinations_chained { maxEvents := 1 } (by decide) .zero Streams.serve id
    Streams.serve_checksTokens Streams.serve_fails ⟨"g", "h"⟩ succession (fun _ => {}) ⟨"g", "s"⟩
    hsole
  exact ⟨Streams.serve_checksTokens, hsole, by decide +kernel, by decide +kernel, hchained.1⟩

def sharing : List (Visit × Occurrence) :=
  [.message 0 (.start "a" (some "g") (some "s")), .message 1 (.start "b" (some "g") (some "s")),
    .message 2 (.log "a" "x" none), .message 3 (.log "a" "y" none), .message 4 (.log "b" "z" none),
    .message 5 (.log "b" "w" none)].map (.byName, ·)

/-- A source does not learn what another has written to its stream, and batches that hold nothing
take no event. -/
theorem destination_unchained_sharing :
    let run := (Registry.new { maxEvents := 1 } .zero).history Streams.serve
      (sharing.map fun (v, o) => (v, (Naming.mk "g" "h").asks o)) fun _ => {}
    let roomless := (Registry.new { maxEvents := 0 } .zero).history Streams.serve
      ((sharing.take 3).map fun (v, o) => (v, (Naming.mk "g" "h").asks o)) fun _ => {}
    ChecksTokens Streams.serve id ∧ (∀ s q, (Streams.serve s q).1.fails = false) ∧
      ((submissionsTo ⟨"g", "s"⟩ (run.turns.flatMap (·.exchanges))).map (·.token) =
        [none, none]) ∧
      (∃ t ∈ run.turns, ∃ x ∈ t.exchanges, x.2.refuses = true) ∧
      run.turns.getLast?.map (·.outcome) = some (.handled (.dropped .flushFailed)) ∧
      roomless.turns.getLast?.map (·.outcome) = some (.handled (.dropped .flushFailed)) :=
  ⟨Streams.serve_checksTokens, Streams.serve_fails, by decide +kernel, by decide +kernel, rfl, rfl⟩

end LogRelay
