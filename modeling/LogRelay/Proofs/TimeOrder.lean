import LogRelay.Proofs.Lifetimes

/-! The timestamps of what is submitted. An event goes into its batch with the latest timestamp that
was handed in for that batch so far, so that no batch is out of order when it is sent. -/

namespace LogRelay

def latest (es : List LogEvent) : Option Int := (es.map (·.timestamp)).max?

theorem latest_eq_some {es : List LogEvent} {m : Int} :
    latest es = some m ↔ m ∈ es.map (·.timestamp) ∧ ∀ e ∈ es, e.timestamp ≤ m := by
  rw [latest, List.max?_eq_some_iff, List.forall_mem_map]

theorem latest_snoc (es : List LogEvent) (e : LogEvent) :
    latest (es ++ [e]) = some (match latest es with
      | none => e.timestamp
      | some m => max e.timestamp m) := by
  cases hes : latest es with
  | none =>
    obtain rfl : es = [] := by simpa [latest] using hes
    rfl
  | some m =>
    obtain ⟨hmem, hle⟩ := latest_eq_some.mp hes
    show latest (es ++ [e]) = some (max e.timestamp m)
    refine latest_eq_some.mpr ⟨?_, fun x hx => ?_⟩
    · rw [List.map_append, List.mem_append]
      rcases Int.le_total e.timestamp m with h | h
      · exact Or.inl ((Int.max_eq_right h).symm ▸ hmem)
      · exact Or.inr (List.mem_singleton.mpr (Int.max_eq_left h))
    · rcases List.mem_append.mp hx with hx | hx
      · exact Int.le_trans (hle x hx) (Int.le_max_right _ _)
      · rw [List.mem_singleton.mp hx]
        exact Int.le_max_left _ _

/-- The events as they were handed in, each with the latest timestamp up to its own place. -/
structure Raised (handed es : List LogEvent) : Prop where
  length_eq : es.length = handed.length
  message : ∀ i (hi : i < es.length) (hi' : i < handed.length), es[i].message = handed[i].message
  timestamp : ∀ i (hi : i < es.length), latest (handed.take (i + 1)) = some es[i].timestamp

namespace Raised

variable {handed es : List LogEvent}

theorem nil : Raised [] [] := ⟨rfl, nofun, nofun⟩

theorem latest_eq (h : Raised handed es) : latest handed = es.getLast?.map (·.timestamp) := by
  cases hes : es.getLast? with
  | none =>
    obtain rfl : es = [] := List.getLast?_eq_none_iff.mp hes
    obtain rfl : handed = [] := List.length_eq_zero_iff.mp h.length_eq.symm
    rfl
  | some last =>
    obtain ⟨front, rfl⟩ := List.getLast?_eq_some_iff.mp hes
    have hlength : handed.length = front.length + 1 := by simp [← h.length_eq]
    have htime := h.timestamp front.length (by simp)
    rw [List.take_of_length_le (Nat.le_of_eq hlength)] at htime
    simpa using htime

-- Appending to a batch compares with the last event only, which has the latest timestamp of all
-- already.
theorem append {b : Batch} (h : Raised handed b.events) (e : LogEvent) :
    Raised (handed ++ [e]) (b.append e).events := by
  have hevents : (b.append e).events = b.events ++ [b.inOrder e] := rfl
  have hlast : latest (handed ++ [e]) = some (b.inOrder e).timestamp := by
    rw [latest_snoc, h.latest_eq, Batch.inOrder]
    cases b.events.getLast? <;> rfl
  rw [hevents]
  refine ⟨by simp [h.length_eq], fun i hi hi' => ?_, fun i hi => ?_⟩
  · by_cases hold : i < b.events.length
    · have hold' : i < handed.length := h.length_eq ▸ hold
      rw [List.getElem_append_left hold, List.getElem_append_left hold']
      exact h.message i hold hold'
    · obtain rfl : i = b.events.length := by
        simp at hi
        omega
      simp [h.length_eq]
  · by_cases hold : i < b.events.length
    · have hold' : i + 1 ≤ handed.length := h.length_eq ▸ hold
      rw [List.getElem_append_left hold, List.take_append_of_le_length hold']
      exact h.timestamp i hold
    · obtain rfl : i = b.events.length := by
        simp at hi
        omega
      rw [List.take_of_length_le (by simp [h.length_eq]), hlast]
      simp

theorem le (h : Raised handed es) {i j : Nat} (hi : i < es.length) (hj : j < handed.length)
    (hji : j ≤ i) : handed[j].timestamp ≤ es[i].timestamp := by
  refine (latest_eq_some.mp (h.timestamp i hi)).2 _ ?_
  exact List.mem_take_iff_getElem.mpr ⟨j, by omega, rfl⟩

theorem attained (h : Raised handed es) {i : Nat} (hi : i < es.length) :
    ∃ j, ∃ hj : j < handed.length, j ≤ i ∧ handed[j].timestamp = es[i].timestamp := by
  obtain ⟨e, he, htime⟩ := List.mem_map.mp (latest_eq_some.mp (h.timestamp i hi)).1
  obtain ⟨j, hj, rfl⟩ := List.mem_take_iff_getElem.mp he
  exact ⟨j, by omega, by omega, htime⟩

theorem sorted (h : Raised handed es) : es.Pairwise (·.timestamp ≤ ·.timestamp) := by
  refine List.pairwise_iff_getElem.mpr fun i j hi hj hij => ?_
  obtain ⟨k, hk, hki, htime⟩ := h.attained hi
  rw [← htime]
  exact h.le hj hk (by omega)

theorem kept (h : Raised handed es) {i : Nat} (hi : i < es.length) (hi' : i < handed.length)
    (hnew : ∀ j (hj : j < i), handed[j].timestamp ≤ handed[i].timestamp) : es[i] = handed[i] := by
  have hle : es[i].timestamp ≤ handed[i].timestamp := by
    obtain ⟨k, hk, hki, htime⟩ := h.attained hi
    rw [← htime]
    rcases Nat.lt_or_eq_of_le hki with hlt | rfl
    · exact hnew k hlt
    · exact Int.le_refl _
  have htime := Int.le_antisymm hle (h.le hi hi' (Nat.le_refl i))
  have hmessage := h.message i hi hi'
  generalize es[i] = sent, handed[i] = e at htime hmessage
  cases sent
  cases e
  exact LogEvent.mk.injEq .. ▸ ⟨htime, hmessage⟩

end Raised

/-! ### What was handed in for a batch -/

def Turn.renews (t : Turn) (id : SourceId) : Bool :=
  t.operation.ends id || (t.submissions id).any (·.answer.closes)

/-- The events that were taken into the source's batch since it was opened, as they were handed in.
An event that comes with a flush goes into what the flush leaves. -/
def handed (id : SourceId) (turns : List Turn) : List LogEvent :=
  turns.foldl (fun es t => (if t.renews id then [] else es) ++ t.accepted id) []

def Registry.pending (r : Registry) (id : SourceId) : List LogEvent :=
  (r.batches.find? id).elim [] (·.events)

theorem handed_snoc (id : SourceId) (turns : List Turn) (t : Turn) :
    handed id (turns ++ [t]) = (if t.renews id then [] else handed id turns) ++ t.accepted id := by
  rw [handed, List.foldl_append]
  rfl

section OneSource

variable {id : SourceId} {b b' : Batch} {ex : List Exchange} {es : List LogEvent}

theorem Flushed.raised (hf : Flushed id b ex b') (h : Raised es b.events) :
    Raised (if (ex.filterMap (Submission.ofExchange? false)).any (·.answer.closes) then [] else es)
      b'.events := by
  rcases hf.submissions false with ⟨-, hsubs, rfl⟩ | ⟨a, -, hsubs, rfl⟩
  · rw [hsubs]
    exact h
  · have hany : [Submission.ofBatch b a false].any (·.answer.closes) = a.closes := by
      simp [Submission.ofBatch]
    rw [hsubs, hany, Batch.settle_events]
    cases a.closes with
    | true => exact .nil
    | false => exact h

theorem Turn.Possible.raised {t : Turn} (ht : t.Possible) (h : Raised es (t.before.pending id)) :
    Raised ((if t.renews id then [] else es) ++ t.accepted id) (t.after.pending id) := by
  have hway := ht.passage id
  unfold Registry.pending at h ⊢
  rw [Turn.renews, Turn.submissions, Turn.accepted]
  generalize t.before.batches.find? id = before, madeFor id t.exchanges = ex,
    t.after.batches.find? id = after at hway h
  -- Nothing was taken in for a source without a batch.
  have hnone (h : Raised es []) : es = [] := List.length_eq_zero_iff.mp h.length_eq.symm
  cases hway with
  | absent hop hno =>
    obtain rfl := hnone h
    rw [hno]
    simpa using h
  | started r d reply hop =>
    obtain rfl := hnone h
    rw [hop]
    exact .nil
  | kept b hop hno =>
    rw [hop, hno]
    simpa using h
  | @flushed _ b' _ hop hf =>
    obtain ⟨hends, hno⟩ := Operation.of_flushes t.outcome hop
    rw [hends, hno, Bool.false_or, List.append_nil]
    exact hf.raised h
  | @appended _ e hop ho hroom =>
    rw [Operation.admitted_of_taken hop (Or.inl ho), hop]
    exact h.append e
  | @overflowed _ b' e _ hop ho hfull hf hroom =>
    rw [Operation.admitted_of_taken hop ho, hop]
    exact (hf.raised h).append e
  | @refused _ b' e _ hop ho hfull hf hstill =>
    have hno : t.operation.admitted id t.outcome = [] := by rw [hop, ho]; rfl
    rw [hno, hop, List.append_nil]
    exact hf.raised h
  | removed hop hf =>
    rw [hop, Operation.admitted_of_ends hop]
    exact .nil

end OneSource

structure InTimeOrder (handed es : List LogEvent) : Prop extends Raised handed es where
  sorted : es.Pairwise (·.timestamp ≤ ·.timestamp)
  not_lowered : ∀ i (hi : i < es.length) (hi' : i < handed.length),
    handed[i].timestamp ≤ es[i].timestamp
  kept : ∀ i (hi : i < es.length) (hi' : i < handed.length),
    (∀ j (hj : j < i), handed[j].timestamp ≤ handed[i].timestamp) → es[i] = handed[i]

theorem Raised.inTimeOrder {handed es : List LogEvent} (h : Raised handed es) :
    InTimeOrder handed es :=
  ⟨h, h.sorted, fun i hi hi' => h.le hi hi' (Nat.le_refl i), fun _ hi hi' => h.kept hi hi'⟩

/-- In every run, whatever the remote answers: every batch and every submission holds, message by
message, what was handed in for the batch since it was opened, each event with the latest of the
timestamps up to it. So the events are in time order, none is made older, and those that were not
late are as they were handed in. -/
theorem submissions_in_time_order {σ : Type} (limits : Limits) (callTimeout : Duration)
    (answer : σ → Inquiry → Reply × σ) (ops : List (Visit × Operation)) (s : σ) (id : SourceId) :
    let run := (Registry.new limits callTimeout).history answer ops s
    (∀ b, run.registry.batches.find? id = some b →
      InTimeOrder (handed id run.turns) b.events) ∧
    ∀ before t after, run.turns = before ++ t :: after →
      ∀ x ∈ t.submissions id, InTimeOrder (handed id before) x.events := by
  have hraised := history_throughout answer
    (fun turns r => Raised (handed id turns) (r.pending id))
    (fun turns t ht h => handed_snoc id turns t ▸ ht.raised h)
    (.new limits callTimeout) ops s .nil
  refine ⟨fun b hb => ?_, fun before t after hturns x hx => ?_⟩
  · have hpending : (Registry.pending _ id) = b.events := congrArg (·.elim [] Batch.events) hb
    exact (hpending ▸ hraised.1).inTimeOrder
  · obtain ⟨ht, hbefore⟩ := hraised.2 before t after hturns
    rcases ht.submissions id with hnone | ⟨b, a, hb, -, hone⟩
    · rw [hnone] at hx
      exact absurd hx List.not_mem_nil
    · rw [hone] at hx
      rw [List.mem_singleton.mp hx]
      have hpending : t.before.pending id = b.events := congrArg (·.elim [] Batch.events) hb
      exact (hpending ▸ hbefore).inTimeOrder

end LogRelay
