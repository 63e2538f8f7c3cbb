import LogRelay.Proofs.Courses
import LogRelay.Registry.Operation

/-! What one operation can do to one source. A source passes through an operation in one of a few
ways, whatever the operation does to others; facts about whole runs follow by cases on the way. -/

namespace LogRelay

namespace Operation

def ends (id : SourceId) : Operation → Bool
  | stop s => s = id
  | shutdown => true
  | _ => false

def admitted (id : SourceId) : Operation → Outcome → List LogEvent
  | handle s e, .handled .appended | handle s e, .handled .flushedAndAppended =>
    if s = id then [e] else []
  | _, _ => []

theorem admitted_other {id s : SourceId} (e : LogEvent) (outcome : Outcome) (h : s ≠ id) :
    (handle s e).admitted id outcome = [] := by
  unfold admitted
  split
  · simp_all
  · simp_all
  · rfl

theorem admitted_of_taken {id : SourceId} {op : Operation} {e : LogEvent} {outcome : Outcome}
    (hop : op = .handle id e)
    (ho : outcome = .handled .appended ∨ outcome = .handled .flushedAndAppended) :
    op.admitted id outcome = [e] := by
  rcases ho with rfl | rfl
  · simp [hop, admitted]
  · simp [hop, admitted]

theorem admitted_of_ends {id : SourceId} {op : Operation} {outcome : Outcome}
    (h : op.ends id = true) : op.admitted id outcome = [] := by
  cases op with
  | stop | shutdown => rfl
  | start | handle | flush | sweep | contains | size | copyBatch => exact absurd h (by simp [ends])

theorem of_flushes {id : SourceId} {op : Operation} (outcome : Outcome)
    (h : op = .flush id ∨ op = .sweep) : op.ends id = false ∧ op.admitted id outcome = [] := by
  rcases h with rfl | rfl
  · exact ⟨rfl, rfl⟩
  · exact ⟨rfl, rfl⟩

end Operation

/-- The way of a source through an operation: its batch before, the exchanges made for it, and its
batch afterwards. -/
inductive Passage (l : Limits) (id : SourceId) (op : Operation) (outcome : Outcome) :
    Option Batch → List Exchange → Option Batch → Prop where
  | absent (hop : ∀ d, op ≠ .start id d) (hno : op.admitted id outcome = []) :
      Passage l id op outcome none [] none
  | started (r : Registry) (d : Destination) (reply : Reply) (hop : op = .start id d) :
      Passage l id op outcome none [(⟨r, id, .openStream d⟩, reply)]
        (some (.fresh d (r.heed reply).toOption.join l))
  | kept (b : Batch) (hop : op.ends id = false) (hno : op.admitted id outcome = []) :
      Passage l id op outcome (some b) [] (some b)
  | flushed {b b' : Batch} {ex : List Exchange} (hop : op = .flush id ∨ op = .sweep)
      (hf : Flushed id b ex b') : Passage l id op outcome (some b) ex (some b')
  | appended {b : Batch} {e : LogEvent} (hop : op = .handle id e)
      (ho : outcome = .handled .appended) (hroom : b.accepts e = true) :
      Passage l id op outcome (some b) [] (some (b.append e))
  | overflowed {b b' : Batch} {e : LogEvent} {ex : List Exchange} (hop : op = .handle id e)
      (ho : outcome = .handled .appended ∨ outcome = .handled .flushedAndAppended)
      (hfull : b.accepts e = false) (hf : Flushed id b ex b') (hroom : b'.accepts e = true) :
      Passage l id op outcome (some b) ex (some (b'.append e))
  | refused {b b' : Batch} {e : LogEvent} {ex : List Exchange} (hop : op = .handle id e)
      (ho : outcome = .handled (.dropped .flushFailed)) (hfull : b.accepts e = false)
      (hf : Flushed id b ex b') (hstill : b'.accepts e = false) :
      Passage l id op outcome (some b) ex (some b')
  | removed {b b' : Batch} {ex : List Exchange} (hop : op.ends id = true)
      (hf : Flushed id b ex b') : Passage l id op outcome (some b) ex none

theorem Passage.idle {l : Limits} {id : SourceId} {op : Operation} {outcome : Outcome}
    (before : Option Batch) (hstart : ∀ d, op ≠ .start id d) (hends : op.ends id = false)
    (hno : op.admitted id outcome = []) : Passage l id op outcome before [] before := by
  cases before with
  | none => exact .absent hstart hno
  | some b => exact .kept b hends hno

namespace Registry

variable {r r' : Registry} {id : SourceId} {ex : List Exchange} {v : Visit}

theorem start_passage {d : Destination} (h : (r.start id d).Yields ex (r', ())) (k : SourceId) :
    Passage r.limits k (.start id d) .finished (r.batches.find? k) (madeFor k ex)
      (r'.batches.find? k) := by
  have hother (hk : k ≠ id) (before : Option Batch) :
      Passage r.limits k (.start id d) .finished before [] before := by
    refine .idle before (fun _ heq => hk ?_) rfl rfl
    cases heq
    rfl
  rcases start_yields h with ⟨hknown, rfl, rfl⟩ | ⟨hnone, reply, rfl, -, hbatches⟩
  · by_cases hk : k = id
    · obtain ⟨b, hb⟩ := Option.isSome_iff_exists.mp hknown
      rw [hk, hb]
      exact .kept b rfl rfl
    · exact hother hk _
  · rw [hbatches, Roster.find?_insert]
    by_cases hk : k = id
    · subst hk
      rw [if_pos rfl, hnone, madeFor_eq_self (by simp)]
      exact .started r d reply rfl
    · rw [if_neg hk, madeFor_eq_nil (by simp [Ne.symm hk])]
      exact hother hk _

theorem stop_passage (h : (r.stop id).Yields ex (r', ())) (k : SourceId) :
    Passage r.limits k (.stop id) .finished (r.batches.find? k) (madeFor k ex)
      (r'.batches.find? k) := by
  have hother (hk : k ≠ id) (before : Option Batch) :
      Passage r.limits k (.stop id) .finished before [] before :=
    .idle before nofun (by simp [Operation.ends, Ne.symm hk]) rfl
  rcases stop_yields h with ⟨hnone, rfl, rfl⟩ | ⟨b, b', hsome, hf, hbatches, -⟩
  · by_cases hk : k = id
    · rw [hk, hnone]
      exact .absent nofun rfl
    · exact hother hk _
  · rw [hbatches, Roster.find?_erase]
    by_cases hk : k = id
    · rw [hk, if_pos rfl, hsome, hf.madeFor_self]
      exact .removed (by simp [Operation.ends]) hf
    · rw [if_neg hk, hf.madeFor_other hk]
      exact hother hk _

theorem flush_passage {stored : Except RemoteError Nat}
    (h : (r.flush id).Yields ex (r', stored)) (k : SourceId) :
    Passage r.limits k (.flush id) (.flushed stored) (r.batches.find? k) (madeFor k ex)
      (r'.batches.find? k) := by
  rcases flush_yields h with ⟨-, rfl, hr⟩ | ⟨b, b', hsome, hf, hbatches, -⟩
  · obtain rfl : r' = r := hr
    exact .idle _ nofun rfl rfl
  · rw [hbatches, Roster.find?_set]
    by_cases hk : k = id
    · rw [hk, if_pos rfl, hsome, hf.madeFor_self]
      exact .flushed (Or.inl rfl) hf
    · rw [if_neg hk, hf.madeFor_other hk]
      exact .idle _ nofun rfl rfl

theorem sweep_passage {report : SweepReport} (h : (r.sweep v).Yields ex (r', report))
    (k : SourceId) :
    Passage r.limits k .sweep (.swept report) (r.batches.find? k) (madeFor k ex)
      (r'.batches.find? k) := by
  have hswept := sweepOver_yields (v.nodup r.batches) h
  cases hb : r.batches.find? k with
  | none =>
    have hk : k ∉ v.order r.batches.ids := by simp [Visit.mem, hb]
    obtain ⟨hmade, hsame⟩ := hswept.others k hk
    rw [hmade, hsame, hb]
    exact .absent nofun rfl
  | some b =>
    obtain ⟨b', hb', hf⟩ := hswept.visited k (Visit.mem.mpr (hb ▸ rfl)) b hb
    rw [hb']
    exact .flushed (Or.inr rfl) hf

theorem shutdown_passage {sources : Nat} (h : (r.shutdown v).Yields ex (r', sources))
    (k : SourceId) :
    Passage r.limits k .shutdown (.shutDown sources) (r.batches.find? k) (madeFor k ex)
      (r'.batches.find? k) := by
  obtain ⟨hbatches, -, hothers, hvisited⟩ := shutdown_yields h
  rw [hbatches, Roster.find?_empty]
  cases hb : r.batches.find? k with
  | none =>
    rw [hothers k hb]
    exact .absent nofun rfl
  | some b =>
    obtain ⟨b', hf⟩ := hvisited k b hb
    exact .removed rfl hf

theorem handle_passage {e : LogEvent} {outcome : EventOutcome}
    (h : (r.handle id e).Yields ex (r', outcome)) (k : SourceId) :
    Passage r.limits k (.handle id e) (.handled outcome) (r.batches.find? k) (madeFor k ex)
      (r'.batches.find? k) := by
  -- Sources other than the one that the event is for see nothing of it.
  have hother (hk : k ≠ id) (before : Option Batch) :
      Passage r.limits k (.handle id e) (.handled outcome) before [] before :=
    .idle before nofun rfl (Operation.admitted_other e _ (Ne.symm hk))
  cases handle_yields h with
  | unknown | oversized => exact .idle _ nofun rfl rfl
  | fits hsome _ hroom =>
    simp only [count, find?_put]
    by_cases hk : k = id
    · rw [hk, if_pos rfl, hsome]
      exact .appended rfl rfl hroom
    · rw [if_neg hk]
      exact hother hk _
  | overflows hsome _ hfull hsubmit hover =>
    -- Whether the event is taken shows only after the flush, in the batch that it leaves.
    have hf := submit_flushed hsubmit
    have hbatches := (submit_batches hsubmit).1
    cases hover with
    | appended hroom =>
      simp only [count, find?_put, hbatches]
      by_cases hk : k = id
      · rw [hk, if_pos rfl, hsome, hf.madeFor_self]
        refine .overflowed rfl ?_ hfull hf hroom
        split
        · exact Or.inr rfl
        · exact Or.inl rfl
      · rw [if_neg hk, hf.madeFor_other hk]
        exact hother hk _
    | refused hstill =>
      simp only [count, find?_put, hbatches]
      by_cases hk : k = id
      · rw [hk, if_pos rfl, hsome, hf.madeFor_self]
        exact .refused rfl rfl hfull hf hstill
      · rw [if_neg hk, hf.madeFor_other hk]
        exact hother hk _

end Registry

namespace Operation

variable {α : Type} {r r' : Registry} {ex : List Exchange} {v : Visit}

theorem answer_yields {f : α → Outcome} {c : Course α} {outcome : Outcome}
    (h : (answer f c).Yields ex (r', outcome)) : ∃ a, c.Yields ex (r', a) ∧ outcome = f a := by
  obtain ⟨first, ⟨r₁, a⟩, second, hfirst, hsecond, rfl⟩ := Dialogue.yields_bind.mp h
  obtain ⟨rfl, hout⟩ := Dialogue.yields_done.mp hsecond
  obtain ⟨rfl, rfl⟩ := Prod.mk.inj hout
  rw [List.append_nil]
  exact ⟨a, hfirst, rfl⟩

theorem course_passage {op : Operation} {outcome : Outcome}
    (h : (op.course v r).Yields ex (r', outcome)) (k : SourceId) :
    Passage r.limits k op outcome (r.batches.find? k) (madeFor k ex) (r'.batches.find? k) := by
  cases op with
  | start id d =>
    obtain ⟨⟨⟩, hc, rfl⟩ := answer_yields (f := fun _ => .finished) (c := r.start id d) h
    exact Registry.start_passage hc k
  | stop id =>
    obtain ⟨⟨⟩, hc, rfl⟩ := answer_yields (f := fun _ => .finished) (c := r.stop id) h
    exact Registry.stop_passage hc k
  | handle id e =>
    obtain ⟨_, hc, rfl⟩ := answer_yields h
    exact Registry.handle_passage hc k
  | flush id =>
    obtain ⟨_, hc, rfl⟩ := answer_yields h
    exact Registry.flush_passage hc k
  | sweep =>
    obtain ⟨_, hc, rfl⟩ := answer_yields h
    exact Registry.sweep_passage hc k
  | shutdown =>
    obtain ⟨_, hc, rfl⟩ := answer_yields h
    exact Registry.shutdown_passage hc k
  | contains id | size | copyBatch id =>
    obtain ⟨rfl, hout⟩ := Dialogue.yields_done.mp h
    obtain ⟨rfl, rfl⟩ := Prod.mk.inj hout
    exact .idle _ nofun rfl rfl

theorem course_limits {op : Operation} {outcome : Outcome}
    (h : (op.course v r).Yields ex (r', outcome)) : r'.limits = r.limits := by
  cases op with
  | start id d =>
    obtain ⟨_, hc, -⟩ := answer_yields (f := fun _ => .finished) (c := r.start id d) h
    rcases Registry.start_yields hc with ⟨-, -, rfl⟩ | ⟨-, _, -, hlimits, -⟩
    · rfl
    · exact hlimits
  | stop id =>
    obtain ⟨_, hc, -⟩ := answer_yields (f := fun _ => .finished) (c := r.stop id) h
    rcases Registry.stop_yields hc with ⟨-, -, rfl⟩ | ⟨_, _, -, -, -, hlimits⟩
    · rfl
    · exact hlimits
  | handle id e =>
    obtain ⟨_, hc, -⟩ := answer_yields h
    exact Registry.handle_limits hc
  | flush id =>
    obtain ⟨_, hc, -⟩ := answer_yields h
    rcases Registry.flush_yields hc with ⟨-, -, hr⟩ | ⟨_, _, -, -, -, hlimits⟩
    · exact congrArg Registry.limits hr
    · exact hlimits
  | sweep =>
    obtain ⟨_, hc, -⟩ := answer_yields h
    exact (Registry.sweepOver_yields (v.nodup r.batches) hc).limits
  | shutdown =>
    obtain ⟨_, hc, -⟩ := answer_yields h
    exact (Registry.shutdown_yields hc).2.1
  | contains id | size | copyBatch id =>
    obtain ⟨rfl, hout⟩ := Dialogue.yields_done.mp h
    obtain ⟨rfl, rfl⟩ := Prod.mk.inj hout
    rfl

end Operation
end LogRelay
