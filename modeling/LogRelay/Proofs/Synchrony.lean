import LogRelay.Proofs.Streams
import Mathlib.Data.List.Nodup

/-! The batches of the registry and the streams of a remote that checks tokens. As long as no two
sources write to one stream, operations leave every batch with the token that its stream wants. -/

namespace LogRelay

def Reply.refuses : Reply → Bool
  | some (.error (.invalidSequenceToken _)) => true
  | _ => false

namespace Registry

def Apart (r : Registry) : Prop := (r.batches.entries.map (·.2.destination)).Nodup

instance (r : Registry) : Decidable r.Apart := inferInstanceAs (Decidable (List.Nodup _))

def SoleAt (r : Registry) (d : Destination) : Prop :=
  ∀ x ∈ r.batches.entries, ∀ y ∈ r.batches.entries,
    x.2.destination = d → y.2.destination = d → x.1 = y.1

instance (r : Registry) (d : Destination) : Decidable (r.SoleAt d) :=
  inferInstanceAs (Decidable (∀ x ∈ _, ∀ y ∈ _, _ → _ → _))

def InStep (r : Registry) (w : Streams) : Prop :=
  ∀ id b, r.batches.find? id = some b → b.token = (w b.destination).token

/-- Every batch for the stream holds its current token. -/
def InStepAt (r : Registry) (d : Destination) (s : Stream) : Prop :=
  ∀ id b, r.batches.find? id = some b → b.destination = d → b.token = s.token

variable {r : Registry} {d : Destination}

theorem inStep_iff {w : Streams} : r.InStep w ↔ ∀ d, r.InStepAt d (w d) := by
  constructor
  · rintro h d id b hb rfl
    exact h id b hb
  · exact fun h id b hb => h b.destination id b hb rfl

theorem Apart.soleAt (h : r.Apart) (d : Destination) : r.SoleAt d :=
  fun _ hx _ hy hxd hyd => congrArg Prod.fst (List.inj_on_of_nodup_map h hx hy (hxd.trans hyd.symm))

theorem SoleAt.source_eq {id k : SourceId} {b c : Batch} (h : r.SoleAt d)
    (hb : r.batches.find? id = some b) (hc : r.batches.find? k = some c)
    (hbd : b.destination = d) (hcd : c.destination = d) : k = id :=
  h _ (Roster.find?_eq_some.mp hc) _ (Roster.find?_eq_some.mp hb) hcd hbd

end Registry

section OneSource
variable {s s' : Stream} {id : SourceId} {b b' : Batch} {ex : List Exchange}

theorem refuses_of_fails {reply : Reply} (h : reply.fails = true) : reply.refuses = false := by
  rcases reply with _ | (e | _)
  · rfl
  · cases e <;> first | rfl | cases h
  · rfl

theorem Stream.held_singleton {x : Exchange} : s.Held [x] s' ↔ s.Serves x.1.call x.2 s' := by
  constructor
  · rintro ⟨_, hserves, rfl⟩
    exact hserves
  · intro hserves
    exact ⟨s', hserves, rfl⟩

theorem Stream.Serves.opened {d : Destination} {reply : Reply}
    (h : s.Serves (.openStream d) reply s') : reply = some (.ok s.token) ∧ s' = s := by
  cases h
  exact ⟨rfl, rfl⟩

theorem Flushed.inStep (h : Flushed id b ex b') (hheld : s.Held ex s')
    (htoken : b.token = s.token) : b'.token = s'.token ∧ ∀ x ∈ ex, x.2.refuses = false := by
  cases h with
  | empty =>
    obtain rfl : s' = s := hheld
    exact ⟨htoken, List.forall_mem_nil _⟩
  | asked r reply =>
    have hserves : s.Serves (.submit b.destination b.token b.events) reply s' :=
      Stream.held_singleton.mp hheld
    rw [Batch.settle_token, List.forall_mem_singleton]
    generalize b.token = sent at hserves htoken
    -- A failed call leaves both tokens alone; any other submission with this token is stored.
    cases hserves with
    | fails _ _ _ _ hfails =>
      obtain ⟨e, hheed, hpassing⟩ := heed_of_fails hfails r
      rw [hheed, next_of_passing hpassing]
      exact ⟨htoken, refuses_of_fails hfails⟩
    | stores => exact ⟨rfl, rfl⟩
    | refuses _ _ _ hne => exact absurd htoken hne

theorem Flushed.destination (h : Flushed id b ex b') : b'.destination = b.destination := by
  cases h <;> simp

theorem Passage.destination {l : Limits} {op : Operation} {outcome : Outcome}
    (h : Passage l id op outcome (some b) ex (some b')) : b'.destination = b.destination := by
  cases h with
  | kept | appended => rfl
  | flushed _ hf | refused _ _ _ hf => exact hf.destination
  | overflowed _ _ _ hf => exact hf.destination

theorem Passage.inStep {l : Limits} {op : Operation} {outcome : Outcome} {after : Option Batch}
    (h : Passage l id op outcome (some b) ex after) (hheld : s.Held ex s')
    (htoken : b.token = s.token) :
    (∀ c ∈ after, c.token = s'.token) ∧ ∀ x ∈ ex, x.2.refuses = false := by
  cases h with
  | kept | appended =>
    obtain rfl : s' = s := hheld
    refine ⟨fun c hc => ?_, List.forall_mem_nil _⟩
    obtain rfl := Option.some.inj hc
    exact htoken
  | flushed _ hf | refused _ _ _ hf | overflowed _ _ _ hf =>
    -- The event that may come into the flushed batch does not change its token.
    obtain ⟨hnext, hserved⟩ := hf.inStep hheld htoken
    refine ⟨fun c hc => ?_, hserved⟩
    obtain rfl := Option.some.inj hc
    exact hnext
  | removed _ hf => exact ⟨nofun, (hf.inStep hheld htoken).2⟩

end OneSource

namespace Turn

variable {t : Turn} {id : SourceId} {b : Batch} {d e : Destination} {s s' : Stream}

theorem Possible.asked (h : t.Possible) (hop : ∀ id d, t.operation ≠ .start id d) {x : Exchange}
    (hx : x ∈ t.exchanges) : ∃ b, t.before.batches.find? x.1.source = some b ∧
      x.1.call = .submit b.destination b.token b.events := by
  have hmade : x ∈ madeFor x.1.source t.exchanges := by simp [madeFor, hx]
  have hflushed {b b' : Batch} {ex : List Exchange} (hf : Flushed x.1.source b ex b')
      (hx : x ∈ ex) : x.1.call = .submit b.destination b.token b.events := by
    cases hf with
    | empty => cases hx
    | asked r reply =>
      rw [List.mem_singleton.mp hx]
      rfl
  have hpassage := h.passage x.1.source
  generalize t.before.batches.find? x.1.source = before, madeFor x.1.source t.exchanges = ex,
    t.after.batches.find? x.1.source = after at hpassage hmade
  cases hpassage with
  | absent | kept | appended => cases hmade
  | started _ _ _ hstart => exact absurd hstart (hop _ _)
  | flushed _ hf | removed _ hf | refused _ _ _ hf | overflowed _ _ _ hf =>
    exact ⟨_, rfl, hflushed hf hmade⟩

theorem Possible.exchangesAt_eq (h : t.Possible) (hop : ∀ id d, t.operation ≠ .start id d)
    (hsole : t.before.SoleAt b.destination) (hb : t.before.batches.find? id = some b) :
    exchangesAt b.destination t.exchanges = madeFor id t.exchanges := by
  refine List.filter_congr fun x hx => ?_
  obtain ⟨c, hc, hcall⟩ := h.asked hop hx
  have hiff : x.1.call.destination = b.destination ↔ x.1.source = id := by
    rw [hcall]
    constructor
    · exact hsole.source_eq hb hc rfl
    · rintro rfl
      obtain rfl := Option.some.inj (hc.symm.trans hb)
      rfl
  simp only [hiff]

theorem Possible.start (h : t.Possible) (hop : t.operation = .start id d) :
    (t.exchanges = [] ∧ t.after = t.before) ∨
      ∃ reply, t.exchanges = [(⟨t.before, id, .openStream d⟩, reply)] ∧
        t.after.batches = t.before.batches.insert id
          (.fresh d (t.before.heed reply).toOption.join t.before.limits) := by
  obtain ⟨v, hyields⟩ := h
  rw [hop] at hyields
  obtain ⟨⟨⟩, hc, -⟩ := Operation.answer_yields (f := fun _ => .finished) hyields
  rcases Registry.start_yields hc with ⟨-, hex, hr⟩ | ⟨-, reply, hex, -, hbatches⟩
  · exact Or.inl ⟨hex, hr⟩
  · exact Or.inr ⟨reply, hex, hbatches⟩

theorem Possible.inStepAt_start (h : t.Possible) (hop : t.operation = .start id d)
    (hheld : s.Held (exchangesAt e t.exchanges) s') (hstep : t.before.InStepAt e s) :
    t.after.InStepAt e s' ∧ ∀ x ∈ exchangesAt e t.exchanges, x.2.refuses = false := by
  rcases h.start hop with ⟨hex, hafter⟩ | ⟨reply, hex, hbatches⟩
  · rw [hex] at hheld ⊢
    obtain rfl : s' = s := hheld
    exact ⟨hafter ▸ hstep, List.forall_mem_nil _⟩
  · have hat : exchangesAt e t.exchanges =
        if d = e then [(⟨t.before, id, .openStream d⟩, reply)] else [] := by
      rw [hex]
      exact exchangesAt_singleton e _
    rw [hat] at hheld ⊢
    by_cases hd : d = e
    · -- Opening tells the token of the stream and changes nothing.
      rw [if_pos hd] at hheld ⊢
      obtain ⟨hreply, rfl⟩ : reply = some (.ok s.token) ∧ s' = s :=
        (Stream.held_singleton.mp hheld).opened
      rw [List.forall_mem_singleton]
      refine ⟨fun k c hc => ?_, hreply ▸ rfl⟩
      rw [hbatches, Roster.find?_insert] at hc
      split at hc
      · obtain rfl := Option.some.inj hc
        rw [hreply]
        exact fun _ => rfl
      · exact hstep k c hc
    · rw [if_neg hd] at hheld ⊢
      obtain rfl : s' = s := hheld
      refine ⟨fun k c hc => ?_, List.forall_mem_nil _⟩
      rw [hbatches, Roster.find?_insert] at hc
      split at hc
      · obtain rfl := Option.some.inj hc
        exact fun hcd => absurd hcd hd
      · exact hstep k c hc

theorem Possible.inStepAt_other (h : t.Possible) (hop : ∀ id d, t.operation ≠ .start id d)
    (hsole : t.before.SoleAt e) (hheld : s.Held (exchangesAt e t.exchanges) s')
    (hstep : t.before.InStepAt e s) :
    t.after.InStepAt e s' ∧ ∀ x ∈ exchangesAt e t.exchanges, x.2.refuses = false := by
  have hsource (k : SourceId) (b : Batch) (hb : t.before.batches.find? k = some b)
      (hd : b.destination = e) : (∀ c ∈ t.after.batches.find? k, c.token = s'.token) ∧
        ∀ x ∈ madeFor k t.exchanges, x.2.refuses = false := by
    have hpassage := hb ▸ h.passage k
    have htoken := hstep k b hb hd
    subst hd
    rw [h.exchangesAt_eq hop hsole hb] at hheld
    exact hpassage.inStep hheld htoken
  constructor
  · intro k c hc hd
    have hpassage := h.passage k
    rw [hc] at hpassage
    cases hb : t.before.batches.find? k with
    | none =>
      -- Only a start registers a source.
      rw [hb] at hpassage
      generalize madeFor k t.exchanges = ex at hpassage
      cases hpassage with
      | started _ _ _ hstart => exact absurd hstart (hop _ _)
    | some b =>
      rw [hb] at hpassage
      exact (hsource k b hb (hpassage.destination.symm.trans hd)).1 c hc
  · intro x hx
    obtain ⟨hx, hd⟩ := List.mem_filter.mp hx
    obtain ⟨b, hb, hcall⟩ := h.asked hop hx
    have hbd : b.destination = e := by simpa [hcall, Call.destination] using hd
    exact (hsource x.1.source b hb hbd).2 x (by simp [madeFor, hx])

/-- As long as one source at most writes to a stream, its batches keep the token of the stream. -/
theorem Possible.inStepAt (h : t.Possible) (hsole : t.before.SoleAt e)
    (hheld : s.Held (exchangesAt e t.exchanges) s') (hstep : t.before.InStepAt e s) :
    t.after.InStepAt e s' ∧ ∀ x ∈ exchangesAt e t.exchanges, x.2.refuses = false := by
  by_cases hop : ∃ id d, t.operation = .start id d
  · obtain ⟨id, d, hop⟩ := hop
    exact h.inStepAt_start hop hheld hstep
  · exact h.inStepAt_other (fun id d heq => hop ⟨id, d, heq⟩) hsole hheld hstep

theorem Possible.inStep {w w' : Streams} (h : t.Possible) (hapart : t.before.Apart)
    (hheld : ∀ e, (w e).Held (exchangesAt e t.exchanges) (w' e)) (hstep : t.before.InStep w) :
    t.after.InStep w' ∧ ∀ x ∈ t.exchanges, x.2.refuses = false := by
  have hat (e : Destination) :=
    h.inStepAt (hapart.soleAt e) (hheld e) (Registry.inStep_iff.mp hstep e)
  refine ⟨Registry.inStep_iff.mpr fun e => (hat e).1, fun x hx => ?_⟩
  exact (hat x.1.call.destination).2 x (List.mem_filter.mpr ⟨hx, by simp⟩)

end Turn

end LogRelay
