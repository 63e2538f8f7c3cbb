import LogRelay.Proofs.LifetimeInvariant
import Mathlib.Data.List.Chain

/-! Flushes that fail and may be tried again. They leave everything as it was, but for the token
that a refusal may name; so what is sent next begins with what was sent before. -/

namespace LogRelay

def Answer.setback? : Answer → Option RemoteError
  | .ok _ | .error (.dataAlreadyAccepted _) => none
  | .error e => if e.permanent then none else some e

def RemoteError.retoken (sent : Option Token) : RemoteError → Option Token
  | .invalidSequenceToken (some expected) => some expected
  | _ => sent

namespace Batch

variable (b : Batch) {a : Answer} {e : RemoteError}

theorem setback?_eq_some :
    a.setback? = some e ↔ (b.settle a).2 = .error e ∧ e.permanent = false := by
  rcases a with e' | next
  · cases e' with
    | dataAlreadyAccepted => exact ⟨nofun, nofun⟩
    | invalidParameter =>
      refine ⟨nofun, ?_⟩
      rintro ⟨hresult, hpermanent⟩
      obtain rfl := Except.error.inj hresult
      cases hpermanent
    | transport | undecodable | invalidSequenceToken | throttled | notFound | alreadyExists | api
    | timeout =>
      constructor
      · intro h
        obtain rfl := Option.some.inj h
        exact ⟨rfl, rfl⟩
      · exact fun h => congrArg some (Except.error.inj h.1)
  · exact ⟨nofun, nofun⟩

theorem settle_of_setback (h : a.setback? = some e) :
    a.closes = false ∧ (b.settle a).1 = { b with token := e.retoken b.token } := by
  rcases a with e' | next
  · rcases e' with _ | _ | (_ | _) | _ | _ | _ | _ | _ | _ | _
    case error.dataAlreadyAccepted | error.invalidParameter => cases h
    all_goals
      obtain rfl := Option.some.inj h
      exact ⟨rfl, rfl⟩
  · cases h

end Batch

def Exchange.setback? (x : Exchange) : Option RemoteError :=
  match x.1.call with
  | .openStream _ => none
  | .submit _ _ _ => (x.1.registry.heed x.2).setback?

namespace Registry

variable {r r' : Registry} {id : SourceId} {b : Batch} {e : RemoteError} {x : Exchange}
  {ex pre post : List Exchange}

structure Keeps (r : Registry) (id : SourceId) (e : RemoteError) (r' : Registry) : Prop where
  sources : r'.batches.ids = r.batches.ids
  others : ∀ k, k ≠ id → r'.batches.find? k = r.batches.find? k
  batch : ∃ b, r.batches.find? id = some b ∧
    r'.batches.find? id = some { b with token := e.retoken b.token }

theorem Keeps.of_set (hb : r.batches.find? id = some b)
    (h : r'.batches = r.batches.set id { b with token := e.retoken b.token }) :
    r.Keeps id e r' := by
  refine ⟨?_, fun k hk => ?_, b, hb, ?_⟩
  · rw [h, Roster.ids_set]
  · rw [h, Roster.find?_set, if_neg hk]
  · rw [h, Roster.find?_set, if_pos rfl, hb]
    rfl

theorem Keeps.congr (h : r.Keeps id e r') {r'' : Registry} (hsame : r''.batches = r'.batches) :
    r.Keeps id e r'' := ⟨hsame ▸ h.sources, hsame ▸ h.others, hsame ▸ h.batch⟩

def attempted (r : Registry) (id : SourceId) (b : Batch) (a : Answer) : Registry :=
  (r.count (·.submitted b.size a)).put id (b.settle a).1

theorem attempted_keeps (hb : r.batches.find? id = some b) {a : Answer}
    (h : a.setback? = some e) : r.Keeps id e (r.attempted id b a) := by
  refine .of_set hb ?_
  rw [← (b.settle_of_setback h).2]
  rfl

inductive Attempts : Registry → List Exchange → Registry → Prop where
  | done (r : Registry) : Attempts r [] r
  | attempt {r r' : Registry} {id : SourceId} {b : Batch} {ex : List Exchange} (reply : Reply)
      (hb : r.batches.find? id = some b) (h : Attempts (r.attempted id b (r.heed reply)) ex r') :
      Attempts r ((r.submission id b, reply) :: ex) r'

def atFirst (ex : List Exchange) (r' : Registry) : Registry :=
  (ex.head?.map (·.1.registry)).getD r'

theorem Attempts.atFirst (h : Attempts r ex r') : Registry.atFirst ex r' = r := by
  cases h <;> rfl

theorem Attempts.first (h : Attempts r ex r') : ∀ x ∈ ex.head?, x.1.registry = r := by
  intro x hx
  cases h with
  | done => cases hx
  | attempt =>
    obtain rfl := Option.some.inj hx
    rfl

theorem Attempts.keeps (h : Attempts r (pre ++ x :: post) r') (he : x.setback? = some e) :
    x.1.registry.Keeps x.1.source e (Registry.atFirst post r') := by
  induction pre generalizing r with
  | nil =>
    cases h with
    | attempt reply hb hrest =>
      rw [hrest.atFirst]
      exact attempted_keeps hb he
  | cons y pre ih =>
    cases h with
    | attempt _ _ hrest => exact ih hrest

theorem flush_attempts {stored : Except RemoteError Nat}
    (h : (r.flush id).Yields ex (r', stored)) :
    (ex = [] ∧ stored = .ok 0) ∨
      ∃ b reply, r.batches.find? id = some b ∧ ex = [(r.submission id b, reply)] ∧
        r' = r.attempted id b (r.heed reply) ∧ stored = (b.settle (r.heed reply)).2 := by
  cases hb : r.batches.find? id with
  | none =>
    rw [flush_none hb] at h
    obtain ⟨rfl, hout⟩ := Dialogue.yields_done.mp h
    exact Or.inl ⟨rfl, congrArg Prod.snd hout⟩
  | some b =>
    rw [flush_some hb] at h
    obtain ⟨first, ⟨r₁, b', stored'⟩, second, hfirst, hsecond, rfl⟩ := Dialogue.yields_bind.mp h
    obtain ⟨rfl, hout⟩ := Dialogue.yields_done.mp hsecond
    obtain ⟨rfl, rfl⟩ := Prod.mk.inj hout
    rcases submit_yields hfirst with ⟨-, rfl, -, -, rfl⟩ | ⟨-, reply, rfl, rfl, rfl, rfl⟩
    · exact Or.inl ⟨rfl, rfl⟩
    · exact Or.inr ⟨b, reply, rfl, rfl, rfl, rfl⟩

theorem sweepOver_attempts {report report' : SweepReport} {ids : List SourceId}
    (h : (r.sweepOver report ids).Yields ex (r', report')) : Attempts r ex r' := by
  induction ids generalizing r report ex with
  | nil =>
    simp only [sweepOver, Dialogue.yields_done, Prod.mk.injEq] at h
    obtain ⟨rfl, rfl, -⟩ := h
    exact .done _
  | cons id rest ih =>
    unfold sweepOver at h
    split at h
    · exact ih h
    · rename_i b hb
      split at h
      · exact ih h
      · rename_i hpending
        rw [flush_some hb, submit_pending r id (mt (Batch.isEmpty_iff b).mpr hpending)] at h
        obtain ⟨first, ⟨r₁, stored⟩, second, hfirst, hsecond, rfl⟩ := Dialogue.yields_bind.mp h
        obtain ⟨reply, more, rfl, hmore⟩ := Dialogue.yields_ask.mp hfirst
        obtain ⟨rfl, hout⟩ := Dialogue.yields_done.mp hmore
        obtain ⟨rfl, -⟩ := Prod.mk.inj hout
        exact .attempt reply hb (ih hsecond)

theorem handle_attempts {event : LogEvent} {outcome : EventOutcome}
    (h : (r.handle id event).Yields ex (r', outcome)) :
    ex = [] ∨ ∃ b reply, r.batches.find? id = some b ∧ ex = [(r.submission id b, reply)] ∧
      ∀ e, (r.heed reply).setback? = some e → r.Keeps id e r' := by
  cases handle_yields h with
  | unknown | oversized | fits => exact Or.inl rfl
  | @overflows b b' r₁ _ stored _ _ hb _ hfull hsubmit hover =>
    rcases submit_yields hsubmit with ⟨-, rfl, -⟩ | ⟨-, reply, rfl, rfl, rfl, -⟩
    · exact Or.inl rfl
    · refine Or.inr ⟨b, reply, hb, rfl, fun e he => ?_⟩
      -- The batch that failed to go has as little room as before, so the event stays out of it.
      cases hover with
      | appended hroom =>
        rw [(b.settle_of_setback he).2] at hroom
        exact absurd (hfull.symm.trans hroom) Bool.false_ne_true
      | refused => exact (attempted_keeps hb he).congr rfl

end Registry

namespace Turn

variable {t : Turn}

/-- A flush that may be tried again keeps everything but a token, wherever it comes in the turn, and
nothing else that the turn does changes the batch that was not flushed. -/
structure KeepsOnSetback (t : Turn) : Prop where
  first : ∀ x ∈ t.exchanges.head?, x.1.registry = t.before
  each : ∀ pre x post e, t.exchanges = pre ++ x :: post → x.setback? = some e →
    x.1.registry.Keeps x.1.source e (Registry.atFirst post t.after)
  flush : ∀ id e, t.operation = .flush id → t.outcome = .flushed (.error e) →
    e.permanent = false → t.before.Keeps id e t.after
  batch : ∀ id b, t.before.batches.find? id = some b → ∀ x ∈ t.submissions id, ∀ e,
    x.answer.setback? = some e →
      t.after.batches.find? id = some { b with token := e.retoken b.token }

theorem Possible.batch_kept (h : t.Possible) (hends : ∀ id, t.operation.ends id = false)
    {id : SourceId} {b : Batch} (hb : t.before.batches.find? id = some b) {x : Submission}
    (hx : x ∈ t.submissions id) {e : RemoteError} (he : x.answer.setback? = some e) :
    t.after.batches.find? id = some { b with token := e.retoken b.token } := by
  have hway := h.passage id
  rw [hb] at hway
  rw [Turn.submissions, hends id] at hx
  have hflush {b' : Batch} {ex : List Exchange} (hf : Flushed id b ex b')
      (hx : x ∈ ex.filterMap (Submission.ofExchange? false)) :
      b' = { b with token := e.retoken b.token } := by
    rcases hf.submissions false with ⟨-, hsubs, -⟩ | ⟨a, -, hsubs, rfl⟩
    · rw [hsubs] at hx
      exact absurd hx List.not_mem_nil
    · rw [hsubs] at hx
      obtain rfl := List.mem_singleton.mp hx
      exact (b.settle_of_setback he).2
  generalize madeFor id t.exchanges = ex, t.after.batches.find? id = after at hway hx
  cases hway with
  | kept | appended => exact absurd hx List.not_mem_nil
  | flushed _ hf | refused _ _ _ hf => exact congrArg some (hflush hf hx)
  | overflowed _ _ hfull hf hroom =>
    rw [hflush hf hx] at hroom
    exact absurd (hfull.symm.trans hroom) Bool.false_ne_true
  | removed hop => exact absurd ((hends id).symm.trans hop) Bool.false_ne_true

theorem Possible.flush_kept (h : t.Possible) {id : SourceId} {e : RemoteError}
    (hop : t.operation = .flush id) (hout : t.outcome = .flushed (.error e))
    (he : e.permanent = false) : t.before.Keeps id e t.after := by
  obtain ⟨v, hyields⟩ := h
  rw [hop] at hyields
  obtain ⟨stored, hflush, hstored⟩ := Operation.answer_yields hyields
  obtain rfl : stored = .error e := Outcome.flushed.inj (hstored.symm.trans hout)
  rcases Registry.flush_attempts hflush with ⟨-, hidle⟩ | ⟨b, reply, hb, -, hafter, hresult⟩
  · cases hidle
  · rw [hafter]
    exact Registry.attempted_keeps hb (b.setback?_eq_some.mpr ⟨hresult.symm, he⟩)

theorem Possible.exchanges_cases (h : t.Possible) (hends : ∀ id, t.operation.ends id = false) :
    t.exchanges = [] ∨
      (∃ x, t.exchanges = [x] ∧ x.1.registry = t.before ∧
        ∀ e, x.setback? = some e → t.before.Keeps x.1.source e t.after) ∨
      Registry.Attempts t.before t.exchanges t.after := by
  obtain ⟨v, hyields⟩ := h
  cases hop : t.operation with
  | start id d =>
    rw [hop] at hyields
    obtain ⟨⟨⟩, hc, -⟩ := Operation.answer_yields (f := fun _ => .finished) hyields
    rcases Registry.start_yields hc with ⟨-, hex, -⟩ | ⟨-, reply, hex, -⟩
    · exact Or.inl hex
    · exact Or.inr (Or.inl ⟨_, hex, rfl, nofun⟩)
  | stop id => simpa [hop, Operation.ends] using hends id
  | handle id event =>
    rw [hop] at hyields
    obtain ⟨outcome, hc, -⟩ := Operation.answer_yields hyields
    rcases Registry.handle_attempts hc with hex | ⟨b, reply, -, hex, hkeeps⟩
    · exact Or.inl hex
    · exact Or.inr (Or.inl ⟨_, hex, rfl, hkeeps⟩)
  | flush id =>
    rw [hop] at hyields
    obtain ⟨stored, hc, -⟩ := Operation.answer_yields hyields
    rcases Registry.flush_attempts hc with ⟨hex, -⟩ | ⟨b, reply, hb, hex, hafter, -⟩
    · exact Or.inl hex
    · rw [hex, hafter]
      exact Or.inr (Or.inr (.attempt reply hb (.done _)))
  | sweep =>
    rw [hop] at hyields
    obtain ⟨report, hc, -⟩ := Operation.answer_yields hyields
    exact Or.inr (Or.inr (Registry.sweepOver_attempts hc))
  | shutdown => simpa [hop, Operation.ends] using hends ""
  | contains id | size | copyBatch id =>
    rw [hop] at hyields
    exact Or.inl (Dialogue.yields_done.mp hyields).1

theorem Possible.keepsOnSetback (h : t.Possible) (hends : ∀ id, t.operation.ends id = false) :
    t.KeepsOnSetback where
  first x hx := by
    rcases h.exchanges_cases hends with hex | ⟨y, hex, hfirst, -⟩ | hattempts
    · simp [hex] at hx
    · obtain rfl : y = x := by simpa [hex] using hx
      exact hfirst
    · exact hattempts.first x hx
  each pre x post e hsplit he := by
    rcases h.exchanges_cases hends with hex | ⟨y, hex, hfirst, hkeeps⟩ | hattempts
    · simp [hex] at hsplit
    · rcases List.singleton_eq_append_iff.mp (hex.symm.trans hsplit) with ⟨-, hy⟩ | ⟨-, hy⟩
      · obtain ⟨rfl, rfl⟩ := List.cons.inj hy
        rw [hfirst]
        exact hkeeps e he
      · cases hy
    · rw [hsplit] at hattempts
      exact hattempts.keeps he
  flush id e := h.flush_kept
  batch id b hb x hx e := h.batch_kept hends hb hx

end Turn

/-! ### From one attempt to the next -/

def Submission.Resumes (x y : Submission) : Prop := x.closes = false → x.events <+: y.events

theorem isChain_resumes_snoc {subs : List Submission} {y : Submission}
    (h : subs.IsChain Submission.Resumes) (hlast : ∀ x ∈ subs.getLast?, x.Resumes y) :
    (subs ++ [y]).IsChain Submission.Resumes := by
  refine List.isChain_append.mpr ⟨h, List.isChain_singleton y, fun x hx z hz => ?_⟩
  obtain rfl : y = z := by simpa using hz
  exact hlast x hx

theorem resumes_invariant (limits : Limits) :
    LifetimeInvariant limits
      (fun l b => l.submissions.IsChain Submission.Resumes ∧
        ∀ x ∈ l.submissions.getLast?, x.closes = false → x.events <+: b.events)
      (fun l => l.submissions.IsChain Submission.Resumes) where
  start _ _ := ⟨.nil, nofun⟩
  submit l b a _ h := by
    refine ⟨isChain_resumes_snoc h.1 h.2, fun x hx hopen => ?_⟩
    obtain rfl : Submission.ofBatch b a false = x := by simpa [Lifetime.extend] using hx
    have hkept : a.closes = false := hopen
    rw [Batch.settle_events, hkept]
    exact List.prefix_rfl
  append l b e _ h := by
    have hsubs : (l.extend [] [e]).submissions = l.submissions := List.append_nil _
    rw [hsubs]
    exact ⟨h.1, fun x hx hopen => (h.2 x hx hopen).trans (List.prefix_append _ _)⟩
  stop _ _ _ h := h.1
  last _ _ _ _ h := isChain_resumes_snoc h.1 h.2

/-- In every run, whatever the remote answers: a flush that fails and may be tried again, wherever
it is made, leaves the sources and their batches as it found them, but for the token of the batch
that was sent, which is the one that a refusal names. So within a lifetime of a source each
submission begins with all that the one before it carried, unless that one closed its batch; and so
does what is pending. -/
theorem failed_flushes_keep {σ : Type} (limits : Limits) (callTimeout : Duration)
    (answer : σ → Inquiry → Reply × σ) (ops : List (Visit × Operation)) (s : σ) :
    let run := (Registry.new limits callTimeout).history answer ops s
    (∀ t ∈ run.turns, (∀ id, t.operation.ends id = false) → t.KeepsOnSetback) ∧
    ∀ id, let record := Record.of id run.turns
      (∀ l ∈ record.lifetimes,
        l.submissions.IsChain fun x y => x.closes = false → x.events <+: y.events) ∧
      Option.Rel (fun l b => ∀ x ∈ l.submissions.getLast?, x.closes = false → x.events <+: b.events)
        record.current (run.registry.batches.find? id) ∧
      run.turns.flatMap (·.submissions id) = record.lifetimes.flatMap (·.submissions) := by
  refine ⟨fun t ht => (history_possible answer _ ops s t ht).keepsOnSetback, fun id => ?_⟩
  have hsat := (resumes_invariant limits).holds answer callTimeout ops s id
  refine ⟨?_, hsat.weaken fun _ _ h => h.2,
    (record_covers answer limits callTimeout ops s id).submissions⟩
  exact hsat.all (fun _ _ h => h.1) (fun _ h => h)

end LogRelay
