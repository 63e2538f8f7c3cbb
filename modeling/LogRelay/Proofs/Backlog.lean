import Mathlib.Algebra.BigOperators.Group.Finset.Piecewise
import Mathlib.Algebra.GroupWithZero.Nat
import LogRelay.Proofs.Lifetimes

/-! The events that are pending, for all sources together. What an operation adds to them is the
event that it accepts, and what it takes from them was let go in its submissions. -/

namespace LogRelay

def Registry.backlog (r : Registry) : Nat := (r.batches.entries.map fun e => e.2.size).sum

def pendingIn (b : Option Batch) : Nat := b.elim 0 Batch.size

namespace Submission

def size (s : Submission) : Nat := s.events.length

def released (s : Submission) : Nat := if s.closes then s.size else 0

end Submission

def Turn.allSubmissions (t : Turn) : List Submission :=
  t.exchanges.filterMap fun x => Submission.ofExchange? (t.operation.ends x.1.source) x

namespace Operation

def addressee? : Operation → Option SourceId
  | handle id _ => some id
  | _ => none

def handles (op : Operation) : Bool := op.addressee?.isSome

end Operation

def Outcome.appends : Outcome → Bool
  | handled .appended | handled .flushedAndAppended => true
  | _ => false

/-! ### One source -/

section OneSource

variable {id : SourceId} {b b' : Batch} {ex : List Exchange}

def releasedIn (last : Bool) (ex : List Exchange) : Nat :=
  ((ex.filterMap (Submission.ofExchange? last)).map Submission.released).sum

theorem Flushed.released (h : Flushed id b ex b') : b.size = b'.size + releasedIn false ex := by
  unfold releasedIn
  rcases h.submissions false with ⟨-, hnone, rfl⟩ | ⟨a, -, hone, rfl⟩
  · rw [hnone]
    rfl
  · rw [hone, Batch.size, Batch.size, Batch.settle_events]
    cases ha : a.closes <;>
      simp [Submission.released, Submission.closes, Submission.ofBatch, Submission.size, ha]

theorem Flushed.released_last (h : Flushed id b ex b') : b.size = releasedIn true ex := by
  unfold releasedIn
  rcases h.submissions true with ⟨hempty, hnone, -⟩ | ⟨a, -, hone, -⟩
  · rw [hnone, Batch.size, hempty]
    rfl
  · rw [hone]
    simp [Submission.released, Submission.closes, Submission.ofBatch, Submission.size, Batch.size]

theorem Batch.size_append (b : Batch) (e : LogEvent) : (b.append e).size = b.size + 1 := by
  simp [Batch.size, Batch.append]

theorem Passage.balance {l : Limits} {op : Operation} {outcome : Outcome}
    {before after : Option Batch} (h : Passage l id op outcome before ex after) :
    pendingIn before + (op.admitted id outcome).length =
      pendingIn after + releasedIn (op.ends id) ex := by
  cases h with
  | absent hop hno =>
    rw [hno]
    rfl
  | started r d reply hop =>
    subst hop
    rfl
  | kept b hop hno =>
    rw [hno]
    rfl
  | flushed hop hf =>
    have hreleased := hf.released
    rcases hop with rfl | rfl
    · exact hreleased
    · exact hreleased
  | appended hop ho =>
    subst hop ho
    simp [pendingIn, Operation.admitted, Batch.size_append, releasedIn]
  | overflowed hop ho hfull hf hroom =>
    have hreleased := hf.released
    subst hop
    rw [Operation.admitted_of_taken rfl ho]
    simp only [pendingIn, Option.elim_some, Batch.size_append, Operation.ends,
      List.length_singleton]
    omega
  | refused hop ho hfull hf hstill =>
    have hreleased := hf.released
    subst hop ho
    exact hreleased
  | removed hop hf =>
    have hreleased := hf.released_last
    rw [hop, Operation.admitted_of_ends hop]
    simpa [pendingIn] using hreleased

end OneSource

/-! ### All sources -/

section AllSources

variable {K : Finset SourceId}

theorem Registry.backlog_eq_sum {r : Registry} (h : ∀ id ∈ r.batches.ids, id ∈ K) :
    r.backlog = ∑ id ∈ K, pendingIn (r.batches.find? id) := by
  have hzero : ∀ id ∈ K, id ∉ r.batches.ids.toFinset → pendingIn (r.batches.find? id) = 0 := by
    intro id _ hid
    rw [List.mem_toFinset, Roster.mem_ids, Option.not_isSome_iff_eq_none] at hid
    rw [hid]
    rfl
  have hsubset : r.batches.ids.toFinset ⊆ K := fun id hid => h id (List.mem_toFinset.mp hid)
  rw [← Finset.sum_subset hsubset hzero, List.sum_toFinset _ r.batches.ids_nodup]
  unfold backlog Roster.ids
  rw [List.map_map]
  congr 1
  refine List.map_congr_left fun e he => ?_
  have hfound : r.batches.find? e.1 = some e.2 := Roster.find?_eq_some.mpr he
  rw [Function.comp_apply, hfound]
  rfl

theorem sum_releasedIn (ends : SourceId → Bool) {ex : List Exchange}
    (h : ∀ x ∈ ex, x.1.source ∈ K) :
    ∑ id ∈ K, releasedIn (ends id) (madeFor id ex) =
      ((ex.filterMap fun x => Submission.ofExchange? (ends x.1.source) x).map
        Submission.released).sum := by
  induction ex with
  | nil => simp [releasedIn, madeFor]
  | cons x ex ih =>
    have hx : x.1.source ∈ K := h x List.mem_cons_self
    have hrest := ih fun y hy => h y (List.mem_cons_of_mem x hy)
    -- The first exchange counts for its own source only.
    have hcons (id : SourceId) : releasedIn (ends id) (madeFor id (x :: ex)) =
        (if x.1.source = id then releasedIn (ends x.1.source) [x] else 0) +
          releasedIn (ends id) (madeFor id ex) := by
      unfold madeFor
      by_cases hid : x.1.source = id
      · subst hid
        rw [List.filter_cons_of_pos (by simp), if_pos rfl]
        simp only [releasedIn, List.filterMap_cons, List.filterMap_nil]
        split <;> simp
      · rw [List.filter_cons_of_neg (by simpa using hid), if_neg hid, Nat.zero_add]
    simp only [hcons, Finset.sum_add_distrib, Finset.sum_ite_eq, hx, if_true, hrest]
    simp only [releasedIn, List.filterMap_cons, List.filterMap_nil]
    split <;> simp

theorem sum_admitted (op : Operation) (outcome : Outcome)
    (h : ∀ id e, op = .handle id e → id ∈ K) :
    ∑ id ∈ K, (op.admitted id outcome).length =
      if op.handles && outcome.appends then 1 else 0 := by
  cases op with
  | handle s e =>
    have hlength (id : SourceId) : ((Operation.handle s e).admitted id outcome).length =
        if s = id then (if outcome.appends then 1 else 0) else 0 := by
      rcases outcome with _ | (_ | _ | _) <;> by_cases hs : s = id <;>
        simp [Operation.admitted, Outcome.appends, hs]
    simp only [hlength, Finset.sum_ite_eq, h s e rfl, if_true]
    rfl
  | start | stop | flush | sweep | shutdown | contains | size | copyBatch =>
    exact Finset.sum_eq_zero fun _ _ => rfl

end AllSources

/-- The backlog grows by the event that a turn accepts, and shrinks by what it releases. -/
theorem Turn.Possible.balance {t : Turn} (h : t.Possible) :
    t.before.backlog + (if t.operation.handles && t.outcome.appends then 1 else 0) =
      t.after.backlog + (t.allSubmissions.map Submission.released).sum := by
  -- Enough sources to name all that the turn has to do with.
  let K : Finset SourceId := (t.before.batches.ids ++ t.after.batches.ids ++
    t.exchanges.map (·.1.source) ++ t.operation.addressee?.toList).toFinset
  have hbefore := Registry.backlog_eq_sum (K := K) (r := t.before) fun id hid => by
    simp [K, hid]
  have hafter := Registry.backlog_eq_sum (K := K) (r := t.after) fun id hid => by
    simp [K, hid]
  have hreleased := sum_releasedIn (K := K) (t.operation.ends ·)
    fun x (hx : x ∈ t.exchanges) => by
      simp only [K, List.mem_toFinset, List.mem_append, List.mem_map]
      exact Or.inl (Or.inr ⟨x, hx, rfl⟩)
  have hadmitted := sum_admitted (K := K) t.operation t.outcome fun id e he => by
    simp [K, he, Operation.addressee?]
  rw [hbefore, hafter, ← hadmitted, allSubmissions, ← hreleased, ← Finset.sum_add_distrib,
    ← Finset.sum_add_distrib]
  exact Finset.sum_congr rfl fun id _ => (h.passage id).balance

end LogRelay
