import LogRelay.Proofs.LifetimeInvariant
import Mathlib.Data.List.Chain

/-! The chain of tokens of one source: each submission carries the token that the answer to the one
before it called for, across every way in which a batch is replaced or kept. -/

namespace LogRelay

def tokenAfter (first : Option Token) (subs : List Submission) : Option Token :=
  subs.foldl (fun sent x => x.answer.next sent) first

theorem tokenAfter_snoc (first : Option Token) (subs : List Submission) (x : Submission) :
    tokenAfter first (subs ++ [x]) = x.answer.next (tokenAfter first subs) := by
  rw [tokenAfter, List.foldl_append]
  rfl

/-- The first submission carries the token that the stream was opened with, and each later one the
token that follows from the one before it. -/
structure Chained (opened : Option Token) (subs : List Submission) : Prop where
  first : ∀ x ∈ subs.head?, x.token = opened
  later : subs.IsChain fun x y => y.token = x.answer.next x.token
  final : ∀ x ∈ subs.getLast?, x.answer.next x.token = tokenAfter opened subs

theorem Chained.snoc {opened : Option Token} {subs : List Submission} {x : Submission}
    (h : Chained opened subs) (hx : x.token = tokenAfter opened subs) :
    Chained opened (subs ++ [x]) := by
  refine ⟨?_, ?_, ?_⟩
  · intro y hy
    rw [List.head?_append] at hy
    cases hfirst : subs.head? with
    | none =>
      -- The new submission is the first one, and carries the token of the opening.
      obtain rfl : x = y := by simpa [hfirst] using hy
      rw [hx, List.head?_eq_none_iff.mp hfirst]
      rfl
    | some z =>
      obtain rfl : z = y := by simpa [hfirst] using hy
      exact h.first z hfirst
  · rw [List.isChain_append]
    refine ⟨h.later, List.isChain_singleton x, ?_⟩
    intro z hz y hy
    obtain rfl : x = y := by simpa using hy
    exact hx.trans (h.final z hz).symm
  · intro y hy
    obtain rfl : x = y := by simpa using hy
    rw [tokenAfter_snoc, hx]

theorem chained_invariant (limits : Limits) :
    LifetimeInvariant limits
      (fun l b => Chained l.opened l.submissions ∧ b.token = tokenAfter l.opened l.submissions)
      (fun l => Chained l.opened l.submissions) where
  start _ _ := ⟨⟨nofun, .nil, nofun⟩, rfl⟩
  submit l b a _ h := by
    refine ⟨h.1.snoc h.2, ?_⟩
    have hafter := tokenAfter_snoc l.opened l.submissions (.ofBatch b a false)
    rw [Batch.settle_token, h.2]
    exact hafter.symm
  append l b e _ h := by simpa [Lifetime.extend] using h
  stop _ _ _ h := h.1
  last _ _ _ _ h := h.1.snoc h.2

/-- A turn that can make no submission for a source with this batch: an operation on another source,
a start, a look at the registry, or an event that there is room for or that is dropped unseen. -/
def Turn.Spares (t : Turn) (id : SourceId) (b : Batch) : Prop :=
  match t.operation with
  | .stop s | .flush s => s ≠ id
  | .handle s e => s ≠ id ∨ b.accepts e = true ∨ t.outcome = .handled (.dropped .oversized)
  | .sweep | .shutdown => False
  | _ => True

namespace Turn

variable {t : Turn} {id : SourceId} {b b' : Batch}

theorem Possible.token (ht : t.Possible) (hb : t.before.batches.find? id = some b)
    (hb' : t.after.batches.find? id = some b') :
    b'.token = tokenAfter b.token (t.submissions id) := by
  have hway := ht.passage id
  have hflush {c c' : Batch} {ex : List Exchange} (hf : Flushed id c ex c') : c'.token =
      tokenAfter c.token (ex.filterMap (Submission.ofExchange? (t.operation.ends id))) := by
    rcases hf.submissions (t.operation.ends id) with ⟨-, hsubs, rfl⟩ | ⟨a, -, hsubs, rfl⟩
    · rw [hsubs]
      rfl
    · rw [hsubs, Batch.settle_token]
      rfl
  rw [hb, hb'] at hway
  rw [Turn.submissions]
  generalize madeFor id t.exchanges = ex at hway
  cases hway with
  | kept | appended => rfl
  | flushed _ hf | refused _ _ _ hf _ => exact hflush hf
  | overflowed _ _ _ hf _ =>
    rw [Batch.append_token]
    exact hflush hf

theorem Possible.spares (ht : t.Possible) (hb : t.before.batches.find? id = some b)
    (hspares : t.Spares id b) : t.submissions id = [] := by
  have hway := ht.passage id
  rw [hb] at hway
  rw [Turn.submissions]
  generalize madeFor id t.exchanges = ex at hway
  generalize t.after.batches.find? id = after at hway
  unfold Spares at hspares
  cases hway with
  | kept | appended => rfl
  | flushed hop hf =>
    rcases hop with hop | hop
    · rw [hop] at hspares
      exact absurd rfl hspares
    · rw [hop] at hspares
      exact hspares.elim
  | overflowed hop ho hfull hf _ => rcases ho with ho | ho <;> simp [hop, ho, hfull] at hspares
  | refused hop ho hfull hf _ => simp [hop, ho, hfull] at hspares
  | removed hop hf =>
    revert hop hspares
    cases t.operation <;> simp_all [Operation.ends]

end Turn

/-- In every run, whatever the remote answers: within a lifetime of a source, the first submission
carries the token that its stream was opened with, and each later one what the answer to the
submission before makes of the token sent then; the batch holds the token that is due next. One
operation moves the token only by its own submissions for the source, of which there are none in
operations on other sources, in starts, and in those with events that fit or are dropped unseen. -/
theorem submissions_chained {σ : Type} (limits : Limits) (callTimeout : Duration)
    (answer : σ → Inquiry → Reply × σ) (ops : List (Visit × Operation)) (s : σ) (id : SourceId) :
    let run := (Registry.new limits callTimeout).history answer ops s
    let record := Record.of id run.turns
    (∀ l ∈ record.lifetimes, (∀ x ∈ l.submissions.head?, x.token = l.opened) ∧
      l.submissions.IsChain fun x y => y.token = x.answer.next x.token) ∧
    Option.Rel (fun l b => b.token = tokenAfter l.opened l.submissions)
      record.current (run.registry.batches.find? id) ∧
    ∀ t ∈ run.turns, ∀ b, t.before.batches.find? id = some b →
      (∀ b', t.after.batches.find? id = some b' →
        b'.token = tokenAfter b.token (t.submissions id)) ∧
      (t.Spares id b → t.submissions id = []) := by
  have hsat := (chained_invariant limits).holds answer callTimeout ops s id
  have hchained := hsat.all (R := fun l => Chained l.opened l.submissions) (fun _ _ h => h.1)
    (fun _ h => h)
  refine ⟨fun l hl => ⟨(hchained l hl).first, (hchained l hl).later⟩, ?_, fun t ht b hb => ?_⟩
  · exact hsat.weaken fun _ _ h => h.2
  · have hpossible := history_possible answer _ ops s t ht
    exact ⟨fun b' hb' => hpossible.token hb hb', hpossible.spares hb⟩

end LogRelay
