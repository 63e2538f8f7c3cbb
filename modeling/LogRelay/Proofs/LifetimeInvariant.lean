import LogRelay.Proofs.Lifetimes

/-! What holds of every lifetime. Within one the batch is submitted and appended to in turns, and
that is all that happens to it: `LifetimeInvariant` is what to show of a fact about lifetimes, and
`LifetimeInvariant.holds` shows it of every run. -/

namespace LogRelay

/-- What is to be shown for `P` to hold of every lifetime that goes on and its batch, and `Q` of
every lifetime that is over. -/
structure LifetimeInvariant (limits : Limits) (P : Lifetime → Batch → Prop)
    (Q : Lifetime → Prop) : Prop where
  start : ∀ d token, P { destination := d, opened := token } (.fresh d token limits)
  submit : ∀ l b a, b.events ≠ [] → P l b → P (l.extend [.ofBatch b a false] []) (b.settle a).1
  append : ∀ l b e, b.accepts e = true → P l b → P (l.extend [] [e]) (b.append e)
  stop : ∀ l b, b.events = [] → P l b → Q l
  last : ∀ l b a, b.events ≠ [] → P l b → Q (l.extend [.ofBatch b a true] [])

/-- The record of a source says `Q` of the lifetimes that are over, and `P` of the other one, which
is there exactly when the source has a batch. -/
structure Record.Satisfies (c : Record) (P : Lifetime → Batch → Prop) (Q : Lifetime → Prop)
    (batch : Option Batch) : Prop where
  past : ∀ l ∈ c.past, Q l
  current : Option.Rel P c.current batch

namespace Record.Satisfies

variable {c : Record} {P P' : Lifetime → Batch → Prop} {Q R : Lifetime → Prop}
  {batch : Option Batch}

theorem known (h : c.Satisfies P Q batch) : c.current.isSome = batch.isSome := by
  have hcurrent := h.current
  generalize c.current = current at hcurrent
  cases hcurrent <;> rfl

theorem ongoing {b : Batch} (h : c.Satisfies P Q (some b)) : ∃ l, c.current = some l ∧ P l b := by
  have hcurrent := h.current
  generalize c.current = current at hcurrent
  cases hcurrent with
  | some hP => exact ⟨_, rfl, hP⟩

theorem lifetime {l : Lifetime} (h : c.Satisfies P Q batch) (hl : c.current = some l) :
    ∃ b, batch = some b ∧ P l b := by
  have hcurrent := h.current
  rw [hl] at hcurrent
  cases hcurrent with
  | some hP => exact ⟨_, rfl, hP⟩

theorem weaken (h : c.Satisfies P Q batch) (hP : ∀ l b, P l b → P' l b) :
    Option.Rel P' c.current batch := by
  have hcurrent := h.current
  generalize c.current = current at hcurrent
  cases hcurrent with
  | some hl => exact .some (hP _ _ hl)
  | none => exact .none

theorem all (h : c.Satisfies P Q batch) (hP : ∀ l b, P l b → R l) (hQ : ∀ l, Q l → R l) :
    ∀ l ∈ c.lifetimes, R l := by
  intro l hl
  rcases List.mem_append.mp hl with hl | hl
  · exact hQ l (h.past l hl)
  · obtain ⟨b, -, hb⟩ := h.lifetime (Option.mem_toList.mp hl)
    exact hP l b hb

end Record.Satisfies

namespace LifetimeInvariant

variable {limits : Limits} {P : Lifetime → Batch → Prop} {Q : Lifetime → Prop}
  {id : SourceId} {c : Record} {t : Turn} {l : Lifetime} {b b' : Batch} {ex : List Exchange}

theorem flush (inv : LifetimeInvariant limits P Q) (hf : Flushed id b ex b') (h : P l b) :
    P (l.extend (ex.filterMap (Submission.ofExchange? false)) []) b' := by
  rcases hf.submissions false with ⟨-, hsubs, rfl⟩ | ⟨a, hb, hsubs, rfl⟩
  · rwa [hsubs, Lifetime.extend_nil]
  · rw [hsubs]
    exact inv.submit l b a hb h

theorem finish (inv : LifetimeInvariant limits P Q) (hf : Flushed id b ex b') (h : P l b) :
    Q (l.extend (ex.filterMap (Submission.ofExchange? true)) []) := by
  rcases hf.submissions true with ⟨hb, hsubs, -⟩ | ⟨a, hb, hsubs, -⟩
  · rw [hsubs, Lifetime.extend_nil]
    exact inv.stop l b hb h
  · rw [hsubs]
    exact inv.last l b a hb h

theorem note_unregistered (inv : LifetimeInvariant limits P Q) (hlimits : t.before.limits = limits)
    (hpast : ∀ l ∈ c.past, Q l) (hc : c.current = none) {after : Option Batch}
    (hway : Passage t.before.limits id t.operation t.outcome none (madeFor id t.exchanges) after) :
    (c.note id t).Satisfies P Q after := by
  generalize hex : madeFor id t.exchanges = ex at hway
  cases hway with
  | absent hop hno =>
    rw [Record.note_absent hc hop]
    exact ⟨hpast, hc ▸ .none⟩
  | started r d reply hop =>
    rw [Record.note_start hc hop]
    refine ⟨hpast, .some ?_⟩
    have hopened : t.opened id = (r.heed reply).toOption.join := by
      simp [Turn.opened, hex, openedWith?]
    rw [hopened, hlimits]
    exact inv.start d _

theorem note_registered (inv : LifetimeInvariant limits P Q) (hpast : ∀ l ∈ c.past, Q l)
    (hc : c.current = some l) (hP : P l b) {after : Option Batch}
    (hway : Passage t.before.limits id t.operation t.outcome (some b) (madeFor id t.exchanges)
      after) :
    (c.note id t).Satisfies P Q after := by
  generalize hex : madeFor id t.exchanges = ex at hway
  -- All ways but the last leave the source its batch: what differs is what they accept.
  have during (acc : List LogEvent) {b' : Batch} (hends : t.operation.ends id = false)
      (hacc : t.accepted id = acc)
      (hP' : P (l.extend (ex.filterMap (Submission.ofExchange? false)) acc) b') :
      (c.note id t).Satisfies P Q (some b') := by
    rw [Record.note_during hc hends, Turn.submissions, hex, hends, hacc]
    exact ⟨hpast, .some hP'⟩
  cases hway with
  | kept _ hop hno => exact during [] hop hno (by simpa using hP)
  | flushed hop hf =>
    obtain ⟨hends, hno⟩ := Operation.of_flushes t.outcome hop
    exact during [] hends hno (inv.flush hf hP)
  | @appended _ e hop ho hroom =>
    have hyes : t.accepted id = [e] := Operation.admitted_of_taken hop (Or.inl ho)
    exact during [e] (by rw [hop]; rfl) hyes (inv.append l _ e hroom hP)
  | @overflowed _ b' e _ hop ho hfull hf hroom =>
    have hyes : t.accepted id = [e] := Operation.admitted_of_taken hop ho
    refine during [e] (by rw [hop]; rfl) hyes ?_
    -- The flush comes first, and the event goes into what it leaves.
    rw [← Lifetime.extend_extend]
    exact inv.append _ b' e hroom (inv.flush hf hP)
  | refused hop ho hfull hf hstill =>
    exact during [] (by rw [hop]; rfl) (by rw [Turn.accepted, hop, ho]; rfl) (inv.flush hf hP)
  | removed hop hf =>
    have hno : t.accepted id = [] := Operation.admitted_of_ends hop
    rw [Record.note_end hc hop, Turn.submissions, hex, hop, hno]
    refine ⟨fun k hk => ?_, .none⟩
    rcases List.mem_append.mp hk with hk | hk
    · exact hpast k hk
    · rw [List.mem_singleton.mp hk]
      exact inv.finish hf hP

theorem note (inv : LifetimeInvariant limits P Q) (ht : t.Possible)
    (hlimits : t.before.limits = limits)
    (h : c.Satisfies P Q (t.before.batches.find? id)) :
    (c.note id t).Satisfies P Q (t.after.batches.find? id) := by
  have hway := ht.passage id
  cases hb : t.before.batches.find? id with
  | none =>
    rw [hb] at hway h
    have hc : c.current = none := by simpa using h.known
    exact inv.note_unregistered hlimits h.past hc hway
  | some b =>
    rw [hb] at hway h
    obtain ⟨l, hc, hP⟩ := h.ongoing
    exact inv.note_registered h.past hc hP hway

theorem holds {σ : Type} (inv : LifetimeInvariant limits P Q) (answer : σ → Inquiry → Reply × σ)
    (callTimeout : Duration) (ops : List (Visit × Operation)) (s : σ) (id : SourceId) :
    (Record.of id ((Registry.new limits callTimeout).history answer ops s).turns).Satisfies P Q
      (((Registry.new limits callTimeout).history answer ops s).registry.batches.find? id) := by
  refine (history_induction (fun turns r _ => r.limits = limits ∧
    (Record.of id turns).Satisfies P Q (r.batches.find? id)) ?_ _ ops s ?_).2
  · intro turns t _ _ ht _ h
    rw [Record.of_append]
    exact ⟨ht.limits.trans h.1, inv.note ht h.1 h.2⟩
  · exact ⟨rfl, nofun, .none⟩

end LifetimeInvariant

-- Nothing is accepted or submitted for a source outside its lifetimes.
structure Record.Covers (c : Record) (id : SourceId) (turns : List Turn) : Prop where
  accepted : turns.flatMap (·.accepted id) = c.lifetimes.flatMap (·.accepted)
  submissions : turns.flatMap (·.submissions id) = c.lifetimes.flatMap (·.submissions)

theorem Record.Covers.note {id : SourceId} {c : Record} {turns : List Turn} {t : Turn}
    (ht : t.Possible) (hknown : c.current.isSome = (t.before.batches.find? id).isSome)
    (h : c.Covers id turns) : (c.note id t).Covers id (turns ++ [t]) := by
  have hadd {α : Type} (f : Turn → List α) :
      (turns ++ [t]).flatMap f = turns.flatMap f ++ f t := by simp
  cases hc : c.current with
  | none =>
    have hway := ht.passage id
    have hnone : t.before.batches.find? id = none := by simpa [hc] using hknown.symm
    rw [hnone] at hway
    generalize hex : madeFor id t.exchanges = ex at hway
    generalize t.after.batches.find? id = after at hway
    have hnothing (hacc : t.accepted id = []) (hsubs : t.submissions id = []) :
        c.Covers id (turns ++ [t]) := by
      refine ⟨?_, ?_⟩
      · rw [hadd, hacc, List.append_nil, h.accepted]
      · rw [hadd, hsubs, List.append_nil, h.submissions]
    cases hway with
    | absent hop hno =>
      rw [note_absent hc hop]
      exact hnothing hno (by rw [Turn.submissions, hex]; rfl)
    | started r d reply hop =>
      have hstill := hnothing (by rw [Turn.accepted, hop]; rfl) (by rw [Turn.submissions, hex]; rfl)
      rw [note_start hc hop]
      refine ⟨hstill.accepted.trans ?_, hstill.submissions.trans ?_⟩
      · simp [lifetimes, hc]
      · simp [lifetimes, hc]
  | some l =>
    have hlifetimes : c.lifetimes = c.past ++ [l] := by rw [lifetimes, hc]; rfl
    refine ⟨?_, ?_⟩
    · rw [hadd, h.accepted, hlifetimes, lifetimes_note hc]
      simp [Lifetime.extend]
    · rw [hadd, h.submissions, hlifetimes, lifetimes_note hc]
      simp [Lifetime.extend]

theorem record_covers {σ : Type} (answer : σ → Inquiry → Reply × σ) (limits : Limits)
    (callTimeout : Duration) (ops : List (Visit × Operation)) (s : σ) (id : SourceId) :
    (Record.of id ((Registry.new limits callTimeout).history answer ops s).turns).Covers id
      ((Registry.new limits callTimeout).history answer ops s).turns := by
  -- Beside the covering goes the fact that a lifetime goes on as long as there is a batch.
  have inv : LifetimeInvariant limits (fun _ _ => True) (fun _ => True) := by
    constructor <;> intros <;> trivial
  refine (history_induction (fun turns r _ => r.limits = limits ∧
    (Record.of id turns).Satisfies (fun _ _ => True) (fun _ => True) (r.batches.find? id) ∧
    (Record.of id turns).Covers id turns) ?_ _ ops s ?_).2.2
  · intro turns t _ _ ht _ h
    obtain ⟨hlimits, hsat, hcovers⟩ := h
    rw [Record.of_append]
    exact ⟨ht.limits.trans hlimits, inv.note ht hlimits hsat, hcovers.note ht hsat.known⟩
  · exact ⟨rfl, ⟨nofun, .none⟩, rfl, rfl⟩

end LogRelay
