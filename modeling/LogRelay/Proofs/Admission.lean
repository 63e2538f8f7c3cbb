import LogRelay.Proofs.DestinationChain
import LogRelay.Proofs.Retries

/-! What becomes of an event that is handed in. The registry looks twice whether the batch has room,
before a flush and after it. In between lies one submission at most, and the answer to it decides:
a batch without room for an event of an admissible size is never empty, and an emptied batch always
has room for it. -/

namespace LogRelay

namespace Batch

variable {b : Batch} {a : Answer} {e : LogEvent} {limits : Limits}

theorem Sound.pending_of_full (h : b.Sound limits) (hmax : 1 ≤ limits.maxEvents)
    (hsize : limits.oversized e = false) (hfull : b.accepts e = false) : b.events ≠ [] := by
  intro hempty
  have hroom : b.accepts e = true := h.accepts_of_empty hmax hsize hempty
  exact Bool.false_ne_true (hfull.symm.trans hroom)

theorem Sound.settle_accepts (h : b.Sound limits) (hmax : 1 ≤ limits.maxEvents)
    (hsize : limits.oversized e = false) (hcloses : a.closes = true) :
    (b.settle a).1.accepts e = true := by
  have hempty : (b.settle a).1.events = [] := by rw [settle_events, hcloses, if_pos rfl]
  exact (h.settle a).accepts_of_empty hmax hsize hempty

theorem settle_accepts_of_open (hopen : a.closes = false) :
    (b.settle a).1.accepts e = b.accepts e := by
  have hbatch : (b.settle a).1 = { b with token := a.next b.token } := by simp [settle_fst, hopen]
  rw [hbatch]
  rfl

def renewed (b : Batch) (token : Option Token) (e : LogEvent) : Batch :=
  { b with token := token, events := [e], bytes := b.limits.wireSize e }

theorem settle_append_of_closes (hcloses : a.closes = true) :
    (b.settle a).1.append e = b.renewed (a.next b.token) e := by
  have hbatch : (b.settle a).1 = b.successor (a.next b.token) := by simp [settle_fst, hcloses]
  have hbytes : Word.add 0 (b.limits.wireSize e) = b.limits.wireSize e :=
    Word.zero_add (Word.add_lt _ _)
  rw [hbatch]
  simp only [append, successor, fresh, renewed, hbytes]
  rfl

end Batch

namespace Answer

variable {a : Answer} {e : RemoteError}

theorem closes_of_stores (h : a.stores = true) : a.closes = true := by
  rcases a with e | next
  · cases e with
    | dataAlreadyAccepted => rfl
    | _ => cases h
  · rfl

theorem of_permanent (h : e.permanent = true) :
    closes (.error e) = true ∧ stores (.error e) = false ∧
      ∀ token, next token (.error e) = token := by
  cases e with
  | invalidParameter => exact ⟨rfl, rfl, fun _ => rfl⟩
  | _ => cases h

theorem open_iff : a.closes = false ↔ ∃ e, a.setback? = some e := by
  rcases a with e | next
  · cases e <;> simp [closes, setback?, RemoteError.permanent]
  · simp [closes, setback?]

end Answer

namespace Registry

variable {r : Registry} {id : SourceId} {b : Batch} {e : LogEvent}

theorem handle_unknown (hnone : r.batches.find? id = none) :
    r.handle id e = .done (r.count (·.dropped), .dropped .unknownSource) := by
  unfold handle
  rw [hnone]

theorem handle_oversized (hb : r.batches.find? id = some b)
    (hsize : r.limits.oversized e = true) :
    r.handle id e = .done (r.count (·.oversized), .dropped .oversized) := by
  unfold handle
  simp only [hb, hsize, if_true]

theorem handle_fits (hb : r.batches.find? id = some b) (hsize : r.limits.oversized e = false)
    (hroom : b.accepts e = true) :
    r.handle id e = .done ((r.put id (b.append e)).count (·.accepted), .appended) := by
  unfold handle
  simp only [hb, hsize, hroom, Bool.false_eq_true, if_false, if_true]

theorem handle_quiet {σ : Type} (answer : σ → Inquiry → Reply × σ)
    (hb : r.batches.find? id = some b) (hsize : r.limits.oversized e = false)
    (hroom : b.accepts e = true) (v : Visit) (s : σ) :
    ((Operation.handle id e).course v r).run answer s =
      ⟨((r.put id (b.append e)).count (·.accepted), .handled .appended), s, []⟩ := by
  rw [Operation.course, handle_fits hb hsize hroom]
  rfl

/-- What the answer to the submission of a full batch makes of the registry and of the event. -/
def overflow (r : Registry) (id : SourceId) (b : Batch) (e : LogEvent) (a : Answer) :
    Registry × EventOutcome :=
  let counted := r.count (·.submitted b.size a)
  if a.closes then
    ((counted.put id (b.renewed (a.next b.token) e)).count (·.accepted),
      if a.stores then .flushedAndAppended else .appended)
  else ((counted.put id { b with token := a.next b.token }).count (·.dropped),
    .dropped .flushFailed)

theorem handle_full (hb : r.batches.find? id = some b) (hsound : b.Sound r.limits)
    (hmax : 1 ≤ r.limits.maxEvents) (hsize : r.limits.oversized e = false)
    (hfull : b.accepts e = false) :
    r.handle id e = .ask (r.submission id b) fun reply =>
      .done (r.overflow id b e (r.heed reply)) := by
  have hpending : b.events ≠ [] := hsound.pending_of_full hmax hsize hfull
  unfold handle
  simp only [hb, hsize, hfull, Bool.false_eq_true, if_false, submit_pending r id hpending,
    Dialogue.bind]
  refine congrArg _ (funext fun reply => ?_)
  cases hcloses : (r.heed reply).closes with
  | true =>
    have hroom := hsound.settle_accepts hmax hsize hcloses
    simp only [hroom, if_true, overflow, hcloses, Batch.settle_append_of_closes hcloses,
      Batch.settle_isOk]
  | false =>
    have hstill := (Batch.settle_accepts_of_open (e := e) hcloses).trans hfull
    have hbatch : (b.settle (r.heed reply)).1 =
        { b with token := (r.heed reply).next b.token } := by simp [Batch.settle_fst, hcloses]
    simp only [hstill, Bool.false_eq_true, if_false]
    simp only [overflow, hcloses, hbatch, Bool.false_eq_true, if_false]

section Overflow

variable (r : Registry) (id : SourceId) (b : Batch) (e : LogEvent) {a : Answer}
  {err : RemoteError}

theorem overflow_of_stores (h : a.stores = true) :
    (r.overflow id b e a).2 = .flushedAndAppended ∧
      (r.overflow id b e a).1.batches = r.batches.set id (b.renewed (a.next b.token) e) := by
  simp only [overflow, Answer.closes_of_stores h, h, if_true]
  exact ⟨trivial, rfl⟩

theorem overflow_of_permanent (h : err.permanent = true) :
    (r.overflow id b e (.error err)).2 = .appended ∧
      (r.overflow id b e (.error err)).1.batches = r.batches.set id (b.renewed b.token e) := by
  obtain ⟨hcloses, hstores, hnext⟩ := Answer.of_permanent h
  simp only [overflow, hcloses, hstores, hnext, if_true, Bool.false_eq_true, if_false]
  exact ⟨trivial, rfl⟩

theorem overflow_of_setback (h : a.setback? = some err) :
    (r.overflow id b e a).2 = .dropped .flushFailed ∧ (r.overflow id b e a).1.batches =
      r.batches.set id { b with token := err.retoken b.token } := by
  obtain ⟨hopen, hbatch⟩ := b.settle_of_setback h
  have htoken : a.next b.token = err.retoken b.token := by rw [← Batch.settle_token, hbatch]
  simp only [overflow, hopen, htoken, Bool.false_eq_true, if_false]
  exact ⟨trivial, rfl⟩

theorem overflow_dropped {reason : DropReason} (h : (r.overflow id b e a).2 = .dropped reason) :
    ∃ err, a.setback? = some err := by
  refine Answer.open_iff.mp ?_
  cases hcloses : a.closes with
  | false => rfl
  | true =>
    simp only [overflow, hcloses, if_true] at h
    split at h <;> cases h

end Overflow

theorem history_sound {σ : Type} (limits : Limits) (callTimeout : Duration)
    (answer : σ → Inquiry → Reply × σ) (ops : List (Visit × Operation)) (s : σ) :
    let run := (Registry.new limits callTimeout).history answer ops s
    run.registry.limits = limits ∧
      ∀ id, ∀ b ∈ run.registry.batches.find? id, b.Sound limits := by
  refine history_induction (fun _ r _ => r.limits = limits ∧
    ∀ id, ∀ b ∈ r.batches.find? id, b.Sound limits) ?_ _ ops s ⟨rfl, nofun⟩
  intro _ t _ _ ht _ h
  obtain ⟨hlimits, hsound⟩ := h
  refine ⟨ht.limits.trans hlimits, fun id => ?_⟩
  exact Batch.Sound.passage (hsound id) hlimits (ht.passage id)

end Registry

/-- After any run, an event for a source is appended without a call if there is room for it, by the
machine's sums, which are exact unless one wraps. If there is none, what is pending is submitted,
once and as it is: the event then opens a new batch if that is stored or refused for good, and else
it is dropped and the pending events stay. Nothing else drops an event of an admissible size for a
registered source. An event for an unknown source and an event of no admissible size are dropped
without a call, and no batch changes. -/
theorem event_decided {σ τ : Type} (limits : Limits) (hmax : 1 ≤ limits.maxEvents)
    (callTimeout : Duration) (answer : σ → Inquiry → Reply × σ) (ops : List (Visit × Operation))
    (s : σ) (answer' : τ → Inquiry → Reply × τ) (w : τ) (id : SourceId) (e : LogEvent) :
    let r := ((Registry.new limits callTimeout).history answer ops s).registry
    let held := (r.handle id e).run answer' w
    let outcome := held.result.2
    let batches := held.result.1.batches
    (r.batches.find? id = none →
      outcome = .dropped .unknownSource ∧ held.exchanges = [] ∧ batches = r.batches) ∧
    ∀ b ∈ r.batches.find? id,
      (limits.oversized e = true →
        outcome = .dropped .oversized ∧ held.exchanges = [] ∧ batches = r.batches) ∧
      (limits.oversized e = false →
        (limits.AddsUp (b.events ++ [e]) →
          (limits.Takes (b.events ++ [e]) ↔ limits.Admits (b.events ++ [e]))) ∧
        (limits.Takes (b.events ++ [e]) →
          outcome = .appended ∧ held.exchanges = [] ∧ batches = r.batches.set id (b.append e)) ∧
        (¬ limits.Takes (b.events ++ [e]) → b.events ≠ [] ∧ ∃ reply,
          held.exchanges = [(⟨r, id, .submit b.destination b.token b.events⟩, reply)] ∧
          ((r.heed reply).stores = true → outcome = .flushedAndAppended ∧
            batches = r.batches.set id (b.renewed ((r.heed reply).next b.token) e)) ∧
          (∀ err, r.heed reply = .error err → err.permanent = true → outcome = .appended ∧
            batches = r.batches.set id (b.renewed b.token e)) ∧
          (∀ err, (r.heed reply).setback? = some err → outcome = .dropped .flushFailed ∧
            batches = r.batches.set id { b with token := err.retoken b.token })) ∧
        ∀ reason, outcome = .dropped reason →
          ∃ x ∈ held.exchanges, ∃ err, Exchange.setback? x = some err) := by
  intro r held outcome batches
  obtain ⟨hlimits, hsound⟩ := Registry.history_sound limits callTimeout answer ops s
  refine ⟨fun hnone => ?_, fun b hb => ⟨fun hsize => ?_, fun hsize => ?_⟩⟩
  · have hcourse := Registry.handle_unknown (e := e) hnone
    simp only [outcome, batches, held, hcourse]
    exact ⟨rfl, rfl, rfl⟩
  · have hcourse := Registry.handle_oversized hb (hlimits.symm ▸ hsize)
    simp only [outcome, batches, held, hcourse]
    exact ⟨rfl, rfl, rfl⟩
  · rw [← hlimits] at hsize hmax
    have hb_sound : b.Sound limits := hsound id b hb
    have hroom_iff := hb_sound.accepts_iff e
    have hexact (hsums : limits.AddsUp (b.events ++ [e])) :
        limits.Takes (b.events ++ [e]) ↔ limits.Admits (b.events ++ [e]) :=
      hroom_iff.symm.trans (hb_sound.accepts_iff_admits hsums)
    refine ⟨hexact, ?_⟩
    cases hroom : b.accepts e with
    | true =>
      have hcourse := Registry.handle_fits hb hsize hroom
      simp only [outcome, batches, held, hcourse]
      exact ⟨fun _ => ⟨rfl, rfl, rfl⟩, fun hfull => absurd (hroom_iff.mp hroom) hfull, nofun⟩
    | false =>
      rw [← hlimits] at hb_sound
      have hpending := hb_sound.pending_of_full hmax hsize hroom
      have hcourse := Registry.handle_full hb hb_sound hmax hsize hroom
      have hfull : ¬ limits.Takes (b.events ++ [e]) := by
        rw [← hroom_iff, hroom]
        exact Bool.false_ne_true
      simp only [outcome, batches, held, hcourse, Dialogue.run]
      refine ⟨fun htakes => absurd htakes hfull, fun _ => ⟨hpending, _, rfl, ?_, ?_, ?_⟩, ?_⟩
      · exact fun hstores => r.overflow_of_stores id b e hstores
      · intro err hanswer hpermanent
        rw [hanswer]
        exact r.overflow_of_permanent id b e hpermanent
      · exact fun err hsetback => r.overflow_of_setback id b e hsetback
      · intro reason hdropped
        obtain ⟨err, hsetback⟩ := r.overflow_dropped id b e hdropped
        exact ⟨_, List.mem_singleton_self _, err, hsetback⟩

def busy (_ : Unit) (q : Inquiry) : Reply × Unit :=
  match q.call with
  | .openStream _ => (some (.ok (some "t")), ())
  | .submit _ _ _ => (some (.error (.throttled "later")), ())

theorem event_decided_refused :
    let limits : Limits := { maxEvents := 1 }
    let r := ((Registry.new limits .zero).history busy
      ([.start "a" ⟨"g", "s"⟩, .handle "a" ⟨1, "x"⟩].map (.byName, ·)) ()).registry
    let held := (r.handle "a" ⟨2, "y"⟩).run busy ()
    let b : Batch := ⟨⟨"g", "s"⟩, some "t", [⟨1, "x"⟩], 29, limits⟩
    1 ≤ limits.maxEvents ∧ r.batches.find? "a" = some b ∧ limits.oversized ⟨2, "y"⟩ = false ∧
      ¬ limits.Takes (b.events ++ [⟨2, "y"⟩]) ∧
      held.exchanges.map (·.1.call) = [.submit ⟨"g", "s"⟩ (some "t") [⟨1, "x"⟩]] ∧
      held.result.2 = .dropped .flushFailed ∧
      ∃ x ∈ held.exchanges, ∃ err, Exchange.setback? x = some err := by
  intro limits r held b
  have hb : r.batches.find? "a" = some b := by decide +kernel
  have hsize : limits.oversized ⟨2, "y"⟩ = false := by decide +kernel
  have hfull : ¬ limits.Takes (b.events ++ [⟨2, "y"⟩]) := fun h => absurd h.1 (by decide)
  obtain ⟨-, hknown⟩ := event_decided limits (by decide) .zero busy
    ([.start "a" ⟨"g", "s"⟩, .handle "a" ⟨1, "x"⟩].map (.byName, ·)) () busy () "a" ⟨2, "y"⟩
  obtain ⟨-, hadmissible⟩ := hknown b hb
  obtain ⟨-, -, hover, hdropped⟩ := hadmissible hsize
  obtain ⟨-, reply, hex, -, -, -⟩ := hover hfull
  have hout : held.result.2 = .dropped .flushFailed := by decide +kernel
  have hcalls : held.exchanges.map (·.1.call) =
      [.submit ⟨"g", "s"⟩ (some "t") [⟨1, "x"⟩]] := by
    rw [hex]
    rfl
  exact ⟨by decide, hb, hsize, hfull, hcalls, hout, hdropped _ hout⟩

end LogRelay
