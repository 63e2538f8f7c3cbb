import LogRelay.Proofs.ByteOrder
import LogRelay.Proofs.Schedules
import LogRelay.Proofs.WireLimits
import LogRelay.Proofs.WordSizes
import LogRelay.Status

/-! Looks at a registry that others use meanwhile. A look never waits: while somebody has the lock
it shows nothing, and otherwise it shows the registry as some operation left it, with all the
sources in the order of their names. -/

namespace LogRelay

/-! ### Listings -/

def SourceSnapshot.of (id : SourceId) (b : Batch) : SourceSnapshot :=
  ⟨id, b.destination, b.size, b.bytes, b.token.isSome⟩

theorem Roster.along_perm {α : Type} (r : Roster α) (v : Visit) : (r.along v).Perm r.entries := by
  have hnodup : (r.along v).Nodup := .of_map Prod.fst (Roster.along_ids r v ▸ v.nodup r)
  have hnodup' : r.entries.Nodup := .of_map Prod.fst r.ids_nodup
  refine (List.perm_ext_iff_of_nodup hnodup hnodup').mpr fun e => ?_
  rw [← Roster.find?_eq_some]
  exact Roster.mem_along

namespace Registry

def listing (r : Registry) (v : Visit) : List SourceSnapshot :=
  ((r.batches.along v).map fun e => SourceSnapshot.of e.1 e.2).mergeSort
    fun a b => a.source ≤ b.source

variable (r : Registry)

theorem snapshot_ordered : r.snapshot.Pairwise fun a b => a.source < b.source :=
  List.pairwise_map.mpr r.batches.ordered

theorem map_source_snapshot : r.snapshot.map (·.source) = r.batches.ids := List.map_map ..

theorem eq_of_source_eq {a b : SourceSnapshot} (ha : a ∈ r.snapshot) (hb : b ∈ r.snapshot)
    (h : a.source = b.source) : a = b :=
  List.inj_on_of_nodup_map (r.map_source_snapshot ▸ r.batches.ids_nodup) ha hb h

theorem listing_eq (v : Visit) : r.listing v = r.snapshot := by
  have hperm : (r.listing v).Perm r.snapshot :=
    (List.mergeSort_perm _ _).trans ((r.batches.along_perm v).map _)
  have hsorted : (r.listing v).Pairwise fun a b => decide (a.source ≤ b.source) :=
    List.pairwise_mergeSort
      (fun a b c => by simpa using String.le_trans)
      (fun a b => by simpa using String.le_total a.source b.source) _
  refine List.Perm.eq_of_pairwise (fun a b ha hb hab hba => ?_) hsorted
    (r.snapshot_ordered.imp fun h => decide_eq_true (Std.le_of_lt h)) hperm
  have hsame := String.le_antisymm (of_decide_eq_true hab) (of_decide_eq_true hba)
  exact r.eq_of_source_eq (hperm.mem_iff.mp ha) hb hsame

end Registry

/-- A step of one of the callers, or a look by someone who comes upon the sources in some order. -/
inductive Moment (ι : Type) where
  | step (a : Action ι)
  | look (v : Visit)

structure Look (ι σ : Type) where
  state : Shared ι σ
  shown : Option (List SourceSnapshot)

namespace Shared

variable {ι σ : Type}

def look (s : Shared ι σ) (v : Visit) : Option (List SourceSnapshot) :=
  if s.locked then none else some (s.registry.listing v)

theorem look_eq (s : Shared ι σ) (v : Visit) :
    s.look v = if s.locked then none else some s.registry.snapshot := by
  rw [look, Registry.listing_eq]

variable [DecidableEq ι] (answer : σ → Inquiry → Reply × σ)

def watch (s : Shared ι σ) : List (Moment ι) → List (Look ι σ)
  | [] => []
  | .step a :: rest => watch (s.step answer a) rest
  | .look v :: rest => ⟨s, s.look v⟩ :: watch s rest

variable {answer} {r : Registry} {w : σ} {s : Shared ι σ}

theorem Serial.watch (h : Serial answer r w s) (moments : List (Moment ι)) :
    ∀ x ∈ s.watch answer moments, Serial answer r w x.state ∧ ∃ v, x.shown = x.state.look v := by
  induction moments generalizing s with
  | nil => exact List.forall_mem_nil _
  | cons m rest ih =>
    cases m with
    | step a => exact ih (h.next a)
    | look v => exact List.forall_mem_cons.mpr ⟨⟨h, v, rfl⟩, ih h⟩

theorem Serial.locked_iff (h : Serial answer r w s) :
    s.locked = true ↔ ∃ i c, (s.phase i).course? = some c := by
  cases h with
  | free h =>
    refine iff_of_false (by simp [h.locked]) ?_
    rintro ⟨i, c, hi⟩
    exact h.no_holder hi
  | @held _ i _ _ _ c h => exact iff_of_true h.locked ⟨i, c, by rw [h.course, if_pos rfl]⟩

end Shared

theorem Timeline.Reached.snapshot?_eq_look {r : Registry} {script : Script} {t : Timeline}
    (h : Reached r script t) (v : Visit) :
    ∃ schedule : List (Action Nat), t.snapshot? =
      (Shared.run Script.respond { registry := r, remote := script } schedule).look v := by
  obtain ⟨schedule, hdepicts⟩ := h.attains
  set s := Shared.run Script.respond { registry := r, remote := script } schedule
  have hserial : Shared.Serial Script.respond r script s := .run (.free .initial) schedule
  cases hpending : t.pending with
  | some p =>
    obtain ⟨q, hawaits⟩ := hdepicts.busy p hpending
    have hlocked := hserial.locked_iff.mpr ⟨_, _, congrArg Phase.course? hawaits.phase⟩
    refine ⟨schedule, ?_⟩
    exact (if_pos (by rw [hpending]; rfl)).trans (if_pos hlocked).symm
  | none =>
    have hfree := (hdepicts.free hpending).1
    cases hwaiting : t.waiting with
    | nil =>
      refine ⟨schedule, ?_⟩
      rw [Shared.look_eq, hfree, ← hdepicts.base.registry]
      simp [snapshot?, hpending, hwaiting]
    | cons first rest =>
      -- The first in line has the lock already, though it has done nothing with it.
      have hphase := hdepicts.base.line first (hwaiting ▸ List.mem_cons_self)
      refine ⟨schedule ++ [.acquire first.1 .byName], ?_⟩
      have hlocked : (s.step Script.respond (.acquire first.1 .byName)).locked = true := by
        simp [Shared.step, hphase, hfree]
      rw [Shared.run, List.foldl_append]
      exact (if_pos (by simp [hwaiting])).trans (if_pos hlocked).symm

namespace Openings

def answer (n : Nat) (_ : Inquiry) : Reply × Nat := (some (.ok none), n + 1)

def before : List (Action Bool) :=
  [.request true (.start "\u00E9" ⟨"g", "s"⟩), .acquire true .byName, .beginCall true]

def after : List (Action Bool) :=
  [.request false (.start "b" ⟨"g", "t"⟩), .endCall true, .release true, .acquire false .byName,
    .beginCall false, .endCall false, .release false]

def early : Shared Bool Nat := .run answer { registry := Registry.new {} .zero, remote := 0 } before

def late : Shared Bool Nat := early.run answer after

def shown : List SourceSnapshot :=
  [⟨"b", ⟨"g", "t"⟩, 0, 0, false⟩, ⟨"\u00E9", ⟨"g", "s"⟩, 0, 0, false⟩]

end Openings

open Openings

end LogRelay
