import LogRelay.Proofs.Streams

/-! What the counters count: each exchange with the remote, as the registry took the reply, and the
outcome of each event. -/

namespace LogRelay

namespace Tally

def exchanged (t : Tally) (x : Exchange) : Tally :=
  match x.1.call with
  | .openStream _ => t.opened (x.1.registry.heed x.2)
  | .submit _ _ events => t.submitted events.length (x.1.registry.heed x.2)

def concluded (t : Tally) : Outcome → Tally
  | .handled (.dropped .oversized) => t.oversized
  | .handled (.dropped _) => t.dropped
  | .handled _ => t.accepted
  | _ => t

end Tally

/-- From this tally, the course ends with every exchange counted, and then its result. -/
def Course.Counts {α : Type} (t : Tally) (c : Course α) (result : α → Tally → Tally) : Prop :=
  ∀ ex r a, c.Yields ex (r, a) → r.tally = result a (ex.foldl Tally.exchanged t)

namespace Course

variable {α β : Type} {t : Tally} {f : α → Tally → Tally} {g : β → Tally → Tally}

theorem counts_done {r : Registry} {a : α} (h : r.tally = f a t) : Counts t (.done (r, a)) f := by
  intro ex r' a' hyields
  obtain ⟨rfl, hout⟩ := Dialogue.yields_done.mp hyields
  obtain ⟨rfl, rfl⟩ := Prod.mk.inj hout
  exact h

theorem counts_ask {q : Inquiry} {next : Reply → Course α}
    (h : ∀ reply, Counts (t.exchanged (q, reply)) (next reply) f) : Counts t (.ask q next) f := by
  intro ex r a hyields
  obtain ⟨reply, rest, rfl, hrest⟩ := Dialogue.yields_ask.mp hyields
  exact h reply rest r a hrest

theorem counts_bind {c : Course α} {next : Registry × α → Course β} (hc : Counts t c fun _ t => t)
    (hnext : ∀ r a, Counts r.tally (next (r, a)) g) : Counts t (c.bind next) g := by
  intro ex r b hyields
  obtain ⟨first, ⟨r₁, a⟩, second, hfirst, hsecond, rfl⟩ := Dialogue.yields_bind.mp hyields
  have hmid : r₁.tally = first.foldl Tally.exchanged t := hc first r₁ a hfirst
  rw [hnext r₁ a second r b hsecond, hmid, List.foldl_append]

end Course

namespace Registry

open Course

variable (r : Registry) (id : SourceId)

theorem submit_counts (b : Batch) : Counts r.tally (r.submit id b) fun _ t => t := by
  unfold submit
  split
  · exact counts_done rfl
  · exact counts_ask fun reply => counts_done rfl

theorem start_counts (d : Destination) : Counts r.tally (r.start id d) fun _ t => t := by
  unfold start
  split
  · exact counts_done rfl
  · exact counts_ask fun reply => counts_done rfl

theorem stop_counts : Counts r.tally (r.stop id) fun _ t => t := by
  unfold stop
  split
  · exact counts_done rfl
  · exact counts_bind (submit_counts _ id _) fun _ _ => counts_done rfl

theorem flush_counts : Counts r.tally (r.flush id) fun _ t => t := by
  unfold flush
  split
  · exact counts_done rfl
  · exact counts_bind (submit_counts _ id _) fun _ _ => counts_done rfl

theorem handle_counts (e : LogEvent) :
    Counts r.tally (r.handle id e) fun outcome t => t.concluded (.handled outcome) := by
  unfold handle
  split
  · exact counts_done rfl
  · split
    · exact counts_done rfl
    · split
      · exact counts_done rfl
      · refine counts_bind (submit_counts r id _) fun r₁ a => ?_
        dsimp only
        split
        · split <;> exact counts_done rfl
        · exact counts_done rfl

theorem sweepOver_counts (report : SweepReport) (ids : List SourceId) :
    Counts r.tally (r.sweepOver report ids) fun _ t => t := by
  induction ids generalizing r report with
  | nil => exact counts_done rfl
  | cons k rest ih =>
    unfold sweepOver
    split
    · exact ih r report
    · split
      · exact ih r report
      · exact counts_bind (flush_counts r k) fun r₁ stored => ih r₁ _

theorem drain_counts (entries : List (SourceId × Batch)) :
    Counts r.tally (r.drain entries) fun _ t => t := by
  induction entries generalizing r with
  | nil => exact counts_done rfl
  | cons entry rest ih => exact counts_bind (submit_counts r _ _) fun r₁ _ => ih r₁

theorem shutdown_counts (v : Visit) : Counts r.tally (r.shutdown v) fun _ t => t :=
  counts_bind (drain_counts _ _) fun _ _ => counts_done rfl

end Registry

theorem Operation.course_counts (op : Operation) (v : Visit) (r : Registry) :
    (op.course v r).Counts r.tally fun outcome t => t.concluded outcome := by
  have hanswer {α : Type} {c : Course α} {f : α → Outcome}
      (h : c.Counts r.tally fun a t => t.concluded (f a)) :
      (answer f c).Counts r.tally fun outcome t => t.concluded outcome := by
    intro ex r' outcome hyields
    obtain ⟨a, hc, rfl⟩ := answer_yields hyields
    exact h ex r' a hc
  cases op with
  | start id d => exact hanswer (f := fun _ => .finished) (r.start_counts id d)
  | stop id => exact hanswer (f := fun _ => .finished) (r.stop_counts id)
  | handle id e => exact hanswer (r.handle_counts id e)
  | flush id => exact hanswer (r.flush_counts id)
  | sweep => exact hanswer (r.sweepOver_counts _ _)
  | shutdown => exact hanswer (r.shutdown_counts v)
  | contains id | size | copyBatch id => exact Course.counts_done rfl

theorem Turn.Possible.tally {t : Turn} (h : t.Possible) :
    t.after.tally = (t.exchanges.foldl Tally.exchanged t.before.tally).concluded t.outcome :=
  h.elim fun v hyields => t.operation.course_counts v t.before _ _ _ hyields

/-! ### Events submitted -/

theorem Tally.exchanged_eventsSubmitted (t : Tally) (x : Exchange) :
    (t.exchanged x).eventsSubmitted = t.eventsSubmitted + (storedBy x).length := by
  obtain ⟨⟨r, id, call⟩, reply⟩ := x
  cases call with
  | openStream d =>
    simp only [exchanged, storedBy, List.length_nil, Nat.add_zero]
    cases r.heed reply <;> rfl
  | submit d token events =>
    simp only [exchanged, storedBy]
    rcases r.heed reply with e | next
    · rcases e with _ | _ | (_ | _) | _ <;> rfl
    · rfl

theorem Tally.concluded_eventsSubmitted (t : Tally) (outcome : Outcome) :
    (t.concluded outcome).eventsSubmitted = t.eventsSubmitted := by
  rcases outcome with _ | (_ | _ | (_ | _ | _)) <;> rfl

theorem Turn.Possible.eventsSubmitted {t : Turn} (h : t.Possible) :
    t.after.tally.eventsSubmitted =
      t.before.tally.eventsSubmitted + (t.exchanges.flatMap storedBy).length := by
  have hfold (ex : List Exchange) (tally : Tally) :
      (ex.foldl Tally.exchanged tally).eventsSubmitted =
        tally.eventsSubmitted + (ex.flatMap storedBy).length := by
    induction ex generalizing tally with
    | nil => rfl
    | cons x rest ih =>
      rw [List.foldl_cons, ih, Tally.exchanged_eventsSubmitted, List.flatMap_cons,
        List.length_append, Nat.add_assoc]
  rw [h.tally, Tally.concluded_eventsSubmitted, hfold]

end LogRelay
