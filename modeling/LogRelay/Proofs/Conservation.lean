import LogRelay.Proofs.LifetimeInvariant

/-! No event is lost, doubled or moved between its acceptance and the closing of its batch. -/

namespace LogRelay

def messages (es : List LogEvent) : List String := es.map (·.message)

@[simp] theorem messages_nil : messages [] = [] := rfl

@[simp] theorem messages_append (es es' : List LogEvent) :
    messages (es ++ es') = messages es ++ messages es' := List.map_append

theorem messages_appended (b : Batch) (e : LogEvent) :
    messages (b.append e).events = messages b.events ++ messages [e] := by
  simp [messages, Batch.append]

namespace Lifetime

def closed (l : Lifetime) : List (List LogEvent) :=
  (l.submissions.filter (·.closes)).map (·.events)

theorem closed_extend (l : Lifetime) (s : Submission) (es : List LogEvent) :
    (l.extend [s] es).closed = l.closed ++ if s.closes then [s.events] else [] := by
  simp only [closed, extend, List.filter_append, List.map_append]
  cases hs : s.closes <;> simp [hs]

def Conserves (l : Lifetime) (pending : List LogEvent) : Prop :=
  messages l.accepted = l.closed.flatMap messages ++ messages pending

theorem Conserves.close {l : Lifetime} {b : Batch} {s : Submission} (h : l.Conserves b.events)
    (hevents : s.events = b.events) (hcloses : s.closes = true) :
    (l.extend [s] []).Conserves [] := by
  have haccepted : (l.extend [s] []).accepted = l.accepted := List.append_nil _
  rw [Conserves, haccepted, closed_extend, hcloses, hevents, h]
  simp

theorem Conserves.settle {l : Lifetime} {b : Batch} {a : Answer} (h : l.Conserves b.events) :
    (l.extend [.ofBatch b a false] []).Conserves (b.settle a).1.events := by
  have hcloses : (Submission.ofBatch b a false).closes = a.closes := Bool.false_or _
  rw [Batch.settle_events]
  cases ha : a.closes with
  | true => exact h.close rfl (hcloses.trans ha)
  | false =>
    have haccepted : (l.extend [.ofBatch b a false] []).accepted = l.accepted := List.append_nil _
    rw [Conserves, haccepted, closed_extend, hcloses, ha, h]
    simp

theorem conserves_invariant (limits : Limits) :
    LifetimeInvariant limits (fun l b => l.Conserves b.events) (·.Conserves []) where
  start _ _ := rfl
  submit _ _ _ _ h := h.settle
  append l b e _ h := by
    have hclosed : (l.extend [] [e]).closed = l.closed := by simp [closed, extend]
    have haccepted : (l.extend [] [e]).accepted = l.accepted ++ [e] := rfl
    rw [Conserves, haccepted, hclosed, messages_append, messages_appended, h, List.append_assoc]
  stop _ b hb h := hb ▸ h
  last _ _ _ _ h := h.close rfl rfl

end Lifetime

/-- In every run, whatever the remote answers: within each lifetime of a source the accepted
messages are those of its closed batches, followed by the pending ones of its batch; and outside
its lifetimes no event is accepted and nothing is submitted for it. -/
theorem accepted_eq_closed_append_pending {σ : Type} (limits : Limits) (callTimeout : Duration)
    (answer : σ → Inquiry → Reply × σ) (ops : List (Visit × Operation)) (s : σ) (id : SourceId) :
    let run := (Registry.new limits callTimeout).history answer ops s
    let record := Record.of id run.turns
    (∀ l ∈ record.past, messages l.accepted = l.closed.flatMap messages) ∧
      Option.Rel (fun l b => messages l.accepted = l.closed.flatMap messages ++ messages b.events)
        record.current (run.registry.batches.find? id) ∧
      run.turns.flatMap (·.accepted id) = record.lifetimes.flatMap (·.accepted) ∧
      run.turns.flatMap (·.submissions id) = record.lifetimes.flatMap (·.submissions) := by
  have hsat := (Lifetime.conserves_invariant limits).holds answer callTimeout ops s id
  have hcovers := record_covers answer limits callTimeout ops s id
  refine ⟨fun l hl => ?_, hsat.current, hcovers.accepted, hcovers.submissions⟩
  simpa [Lifetime.Conserves] using hsat.past l hl

end LogRelay
