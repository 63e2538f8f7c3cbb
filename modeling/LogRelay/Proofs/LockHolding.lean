import LogRelay.Proofs.BulkOperations
import LogRelay.Proofs.Schedules

/-! How long an operation holds the registry: for the calls that it makes, each of which is given up
after the timeout. One on a single source makes one at most. One on all sources makes one for each
source that has events pending, and lets nobody in between them. -/

namespace LogRelay

def Batch.calls (b : Batch) : Nat := if b.isEmpty then 0 else 1

theorem Batch.calls_le (b : Batch) : b.calls ≤ 1 := by
  unfold calls
  split
  · exact Nat.zero_le 1
  · exact Nat.le_refl 1

namespace Registry

def callsFor (r : Registry) (id : SourceId) : Nat := (r.batches.find? id).elim 0 Batch.calls

theorem callsFor_le (r : Registry) (id : SourceId) : r.callsFor id ≤ 1 := by
  unfold callsFor
  cases r.batches.find? id with
  | none => exact Nat.zero_le 1
  | some b => exact b.calls_le

def callsAdmitting (r : Registry) (id : SourceId) (e : LogEvent) : Nat :=
  match r.batches.find? id with
  | none => 0
  | some b => if r.limits.oversized e || b.accepts e then 0 else b.calls

end Registry

namespace Operation

/-- The calls that an operation makes between taking the registry and giving it back. -/
def calls (r : Registry) : Operation → Nat
  | start id _ => if r.batches.contains id then 0 else 1
  | stop id | flush id => r.callsFor id
  | handle id e => r.callsAdmitting id e
  | sweep | shutdown => r.unsent.length
  | contains _ | size | copyBatch _ => 0

def bulk : Operation → Bool
  | sweep | shutdown => true
  | _ => false

theorem calls_le {op : Operation} (hop : op.bulk = false) (r : Registry) : op.calls r ≤ 1 := by
  cases op with
  | start id d =>
    simp only [calls]
    split
    · exact Nat.zero_le 1
    · exact Nat.le_refl 1
  | stop id | flush id => exact r.callsFor_le id
  | handle id e =>
    simp only [calls, Registry.callsAdmitting]
    split
    · exact Nat.zero_le 1
    · split
      · exact Nat.zero_le 1
      · exact Batch.calls_le _
  | sweep | shutdown => cases hop
  | contains | size | copyBatch => exact Nat.zero_le 1

end Operation

/-! ### What a course takes -/

/-- However it is answered, the course makes so many calls, each bounded by the timeout. -/
def Course.Takes {α : Type} (timeout : Duration) (n : Nat) (c : Course α) : Prop :=
  ∀ ex r a, c.Yields ex (r, a) → ex.length = n ∧
    (∀ x ∈ ex, x.1.registry.callTimeout = timeout) ∧ r.callTimeout = timeout

namespace Course

variable {α β : Type} {timeout : Duration} {n m : Nat} {c : Course α}

theorem takes_done {out : Registry × α} (h : out.1.callTimeout = timeout) :
    Takes timeout 0 (.done out) := by
  intro ex r a hyields
  obtain ⟨rfl, rfl⟩ := Dialogue.yields_done.mp hyields
  exact ⟨rfl, List.forall_mem_nil _, h⟩

theorem takes_ask {q : Inquiry} {next : Reply → Course α} (hq : q.registry.callTimeout = timeout)
    (h : ∀ reply, Takes timeout n (next reply)) : Takes timeout (n + 1) (.ask q next) := by
  intro ex r a hyields
  obtain ⟨reply, rest, rfl, hrest⟩ := Dialogue.yields_ask.mp hyields
  obtain ⟨hcount, hbounded, hkept⟩ := h reply rest r a hrest
  exact ⟨congrArg (· + 1) hcount, List.forall_mem_cons.mpr ⟨hq, hbounded⟩, hkept⟩

theorem Takes.of_ask {q : Inquiry} {next : Reply → Course α} (h : Takes timeout n (.ask q next)) :
    q.registry.callTimeout = timeout ∧ ∃ m, n = m + 1 ∧ ∀ reply, Takes timeout m (next reply) := by
  have hnext (reply : Reply) (ex : List Exchange) (r : Registry) (a : α)
      (hyields : (next reply).Yields ex (r, a)) :
      ex.length + 1 = n ∧ (q.registry.callTimeout = timeout ∧
        ∀ x ∈ ex, x.1.registry.callTimeout = timeout) ∧ r.callTimeout = timeout := by
    obtain ⟨hcount, hbounded, hkept⟩ := h _ r a (.ask hyields)
    exact ⟨hcount, List.forall_mem_cons.mp hbounded, hkept⟩
  have hend := Dialogue.run_yields (fun (s : Unit) (_ : Inquiry) => (none, s)) (next none) ()
  obtain ⟨hcount, ⟨hq, -⟩, -⟩ := hnext none _ _ _ hend
  refine ⟨hq, n - 1, by omega, fun reply ex r a hyields => ?_⟩
  obtain ⟨hcount, ⟨-, hbounded⟩, hkept⟩ := hnext reply ex r a hyields
  exact ⟨by omega, hbounded, hkept⟩

theorem Takes.bind {f : Registry × α → Course β} (h : Takes timeout n c)
    (hf : ∀ ex r a, c.Yields ex (r, a) → r.callTimeout = timeout → Takes timeout m (f (r, a))) :
    Takes timeout (n + m) (c.bind f) := by
  intro ex r b hyields
  obtain ⟨first, ⟨r₁, a⟩, second, hfirst, hsecond, rfl⟩ := Dialogue.yields_bind.mp hyields
  obtain ⟨hcount, hbounded, hkept⟩ := h first r₁ a hfirst
  obtain ⟨hcount', hbounded', hkept'⟩ := hf first r₁ a hfirst hkept second r b hsecond
  refine ⟨?_, List.forall_mem_append.mpr ⟨hbounded, hbounded'⟩, hkept'⟩
  rw [List.length_append, hcount, hcount']

theorem Takes.end {f : Registry × α → Registry × β} (h : Takes timeout n c)
    (hf : ∀ r a, (f (r, a)).1.callTimeout = r.callTimeout) :
    Takes timeout n (c.bind fun out => .done (f out)) := by
  apply h.bind (m := 0)
  intro _ r a _ hr
  exact takes_done ((hf r a).trans hr)

end Course

open Course (takes_done takes_ask)

namespace Registry

variable (r : Registry) (id : SourceId) (v : Visit)

theorem takes_submit (b : Batch) : (r.submit id b).Takes r.callTimeout b.calls := by
  unfold submit Batch.calls
  split
  · exact takes_done rfl
  · exact takes_ask rfl fun _ => takes_done rfl

theorem takes_start (d : Destination) :
    (r.start id d).Takes r.callTimeout (if r.batches.contains id then 0 else 1) := by
  unfold start
  split
  · exact takes_done rfl
  · exact takes_ask rfl fun _ => takes_done rfl

theorem takes_stop : (r.stop id).Takes r.callTimeout (r.callsFor id) := by
  unfold stop callsFor
  cases r.batches.find? id with
  | none => exact takes_done rfl
  | some b =>
    have hsubmit := takes_submit { r with batches := r.batches.erase id } id b
    exact hsubmit.end fun _ _ => rfl

theorem takes_flush : (r.flush id).Takes r.callTimeout (r.callsFor id) := by
  unfold flush callsFor
  cases r.batches.find? id with
  | none => exact takes_done rfl
  | some b => exact (r.takes_submit id b).end fun _ _ => rfl

theorem takes_handle (e : LogEvent) :
    (r.handle id e).Takes r.callTimeout (r.callsAdmitting id e) := by
  unfold handle callsAdmitting
  cases r.batches.find? id with
  | none => exact takes_done rfl
  | some b =>
    cases hsize : r.limits.oversized e with
    | true => exact takes_done rfl
    | false =>
      cases hroom : b.accepts e with
      | true =>
        simp only [hroom, Bool.false_or, if_true]
        exact takes_done rfl
      | false =>
        simp only [hroom, Bool.or_self, Bool.false_eq_true, if_false]
        apply (r.takes_submit id b).bind (m := 0)
        rintro _ r' ⟨b', stored⟩ - hkept
        split
        · exact takes_done hkept
        · exact takes_done hkept

theorem takes_sweepOver (report : SweepReport) {ids : List SourceId} (hids : ids.Nodup) :
    (r.sweepOver report ids).Takes r.callTimeout (ids.map r.callsFor).sum := by
  induction ids generalizing r report with
  | nil => exact takes_done rfl
  | cons id rest ih =>
    obtain ⟨hid, hrest⟩ := List.nodup_cons.mp hids
    rw [List.map_cons, List.sum_cons]
    have hidle (hnone : r.callsFor id = 0) : (r.sweepOver report rest).Takes r.callTimeout
        (r.callsFor id + (rest.map r.callsFor).sum) := by
      rw [hnone, Nat.zero_add]
      exact ih r report hrest
    unfold sweepOver
    split
    · rename_i hnone
      exact hidle (by rw [callsFor, hnone]; rfl)
    · rename_i b hsome
      split
      · rename_i hempty
        exact hidle (by rw [callsFor, hsome]; exact if_pos hempty)
      · apply (r.takes_flush id).bind
        intro ex r₁ stored hflush hkept
        have hothers : rest.map r₁.callsFor = rest.map r.callsFor := by
          refine List.map_congr_left fun k hk => ?_
          have hne : k ≠ id := fun heq => hid (heq ▸ hk)
          rcases flush_yields hflush with ⟨-, -, hr⟩ | ⟨_, b', -, -, hbatches, -⟩
          · obtain rfl : r₁ = r := hr
            rfl
          · have hbatches : r₁.batches = r.batches.set id b' := hbatches
            rw [callsFor, hbatches, Roster.find?_set, if_neg hne]
            rfl
        rw [← hothers, ← hkept]
        exact ih r₁ _ hrest

theorem takes_drain (entries : List (SourceId × Batch)) :
    (r.drain entries).Takes r.callTimeout (entries.map (·.2.calls)).sum := by
  induction entries generalizing r with
  | nil => exact takes_done rfl
  | cons entry rest ih =>
    apply (r.takes_submit entry.1 entry.2).bind
    intro _ r₁ _ _ hkept
    rw [← hkept]
    exact ih r₁

theorem map_callsFor {entries : List (SourceId × Batch)}
    (h : ∀ e ∈ entries, r.batches.find? e.1 = some e.2) :
    (entries.map (·.1)).map r.callsFor = entries.map (·.2.calls) := by
  rw [List.map_map]
  refine List.map_congr_left fun e he => ?_
  simp only [Function.comp, callsFor, h e he, Option.elim]

theorem sum_callsFor :
    ((v.order r.batches.ids).map r.callsFor).sum = r.unsent.length := by
  have hentries := r.map_callsFor fun e (he : e ∈ r.batches.entries) => Roster.find?_eq_some.mpr he
  have hcount (l : List (SourceId × Batch)) :
      (l.map (·.2.calls)).sum = (l.filter fun e => !e.2.isEmpty).length := by
    induction l with
    | nil => rfl
    | cons e rest ih =>
      rw [List.map_cons, List.sum_cons, ih, Batch.calls]
      cases hempty : e.2.isEmpty with
      | true => simp [hempty]
      | false => simp [hempty, Nat.add_comm]
  calc ((v.order r.batches.ids).map r.callsFor).sum
    _ = (r.batches.ids.map r.callsFor).sum := ((v.perm _).map _).sum_eq
    _ = (r.batches.entries.map (·.2.calls)).sum := congrArg List.sum hentries
    _ = r.unsent.length := hcount _

theorem takes_sweep : (r.sweep v).Takes r.callTimeout r.unsent.length := by
  rw [← r.sum_callsFor v]
  exact r.takes_sweepOver {} (v.nodup r.batches)

theorem takes_shutdown : (r.shutdown v).Takes r.callTimeout r.unsent.length := by
  have hentries := r.map_callsFor fun e (he : e ∈ r.batches.along v) => Roster.mem_along.mp he
  rw [← r.sum_callsFor v, ← Roster.along_ids, hentries]
  have hdrain := takes_drain { r with batches := Roster.empty } (r.batches.along v)
  exact hdrain.end fun _ _ => rfl

end Registry

theorem Operation.course_takes (v : Visit) (r : Registry) (op : Operation) :
    (op.course v r).Takes r.callTimeout (op.calls r) := by
  cases op with
  | start id d => exact (r.takes_start id d).end fun _ _ => rfl
  | stop id => exact (r.takes_stop id).end fun _ _ => rfl
  | handle id e => exact (r.takes_handle id e).end fun _ _ => rfl
  | flush id => exact (r.takes_flush id).end fun _ _ => rfl
  | sweep => exact (r.takes_sweep v).end fun _ _ => rfl
  | shutdown => exact (r.takes_shutdown v).end fun _ _ => rfl
  | contains id | size | copyBatch id => exact takes_done rfl

/-! ### On the clock -/

namespace Timeline

variable {t t' : Timeline} {ticket n bound : Nat} {timeout : Duration} {p : Pending}

/-- A call of the one who holds the registry is under way, and so many may follow; with these it is
through in time. -/
structure Calling (ticket : Nat) (timeout : Duration) (n bound : Nat) (t : Timeline)
    (p : Pending) : Prop where
  pending : t.pending = some p
  ticket : p.ticket = ticket
  left : ∀ reply, (p.next reply).Takes timeout n
  before : t.now ≤ p.due
  inTime : p.due + n * timeout.toNanos ≤ bound

theorem Calling.later (h : Calling ticket timeout n bound t p) (hp : t'.pending = t.pending)
    (hnow : t'.now ≤ p.due) : Calling ticket timeout n bound t' p :=
  { h with pending := hp.trans h.pending, before := hnow }

inductive Ends (ticket : Nat) (timeout : Duration) (n bound : Nat) (t : Timeline) : Prop where
  | through (hresult : (t.result? ticket).isSome) (hnow : t.now ≤ bound)
  | calling {m : Nat} {p : Pending} (hm : m < n) (hcalling : Calling ticket timeout m bound t p)

theorem Ends.mono {m : Nat} (h : Ends ticket timeout n bound t) (hle : n ≤ m) :
    Ends ticket timeout m bound t := by
  cases h with
  | through hresult hnow => exact .through hresult hnow
  | calling hm hcalling => exact .calling (Nat.lt_of_lt_of_le hm hle) hcalling

theorem Ends.later (h : Ends ticket timeout n bound t)
    (hp : t.pending.isSome → t'.pending = t.pending) (hnow : t'.now = t.now)
    (hresult : (t.result? ticket).isSome → (t'.result? ticket).isSome) :
    Ends ticket timeout n bound t' := by
  cases h with
  | through hthrough hbound => exact .through (hresult hthrough) (hnow ▸ hbound)
  | calling hm hcalling =>
    have hpending := hp (hcalling.pending ▸ rfl)
    exact .calling hm (hcalling.later hpending (hnow ▸ hcalling.before))

theorem follow_ask (ticket : Nat) (t : Timeline) (q : Inquiry) (next : Reply → Course Outcome) :
    let after := follow ticket t (.ask q next)
    (∃ reply t', after = follow ticket t' (next reply) ∧ t'.now = t.now ∧
        t'.pending = t.pending ∧ t'.results = t.results) ∨
      ∃ p, after.now = t.now ∧ after.pending = some p ∧ after.results = t.results ∧
        p.ticket = ticket ∧ p.next = next ∧ t.now ≤ p.due ∧
        p.due ≤ t.now + q.registry.callTimeout.toNanos := by
  intro after
  simp only [after, follow]
  split
  · generalize hwait : (if (!(t.script.begin q.call).1.hangs && decide
      ((t.script.begin q.call).1.delay ≤ q.registry.callTimeout.toNanos)) = true
      then (t.script.begin q.call).1.delay else q.registry.callTimeout.toNanos) = wait
    have hlimit : wait ≤ q.registry.callTimeout.toNanos := by
      rw [← hwait]
      split
      · rename_i hintime
        simpa using (Bool.and_eq_true_iff.mp hintime).2
      · exact Nat.le_refl _
    split
    · exact Or.inl ⟨none, _, rfl, rfl, rfl, rfl⟩
    · exact Or.inr ⟨_, rfl, rfl, rfl, rfl, rfl, Nat.le_add_right .., Nat.add_le_add_left hlimit _⟩
  · exact Or.inl ⟨_, _, rfl, rfl, rfl, rfl⟩

theorem follow_ends {c : Course Outcome} (hc : c.Takes timeout n) (hp : t.pending = none)
    (hbound : t.now + n * timeout.toNanos ≤ bound) :
    Ends ticket timeout n bound (follow ticket t c) := by
  induction c generalizing t n with
  | done out =>
    refine .through ?_ (Nat.le_trans (Nat.le_add_right ..) hbound)
    simp [follow, result?]
  | ask q next ih =>
    obtain ⟨hq, m, rfl, hnext⟩ := hc.of_ask
    rw [Nat.succ_mul] at hbound
    rcases follow_ask ticket t q next with
      ⟨reply, t', heq, hnow, hpending, -⟩ | ⟨p, hnow, hpending, -, hticket, rfl, hsince, hdue⟩
    · rw [heq]
      have hbound : t'.now + m * timeout.toNanos ≤ bound := by omega
      exact (ih reply (hnext reply) (hpending.trans hp) hbound).mono (Nat.le_succ m)
    · rw [hq] at hdue
      exact .calling (Nat.lt_succ_self m)
        ⟨hpending, hticket, hnext, hnow ▸ hsince, by omega⟩

theorem follow_keeps (ticket other : Nat) (t : Timeline) (c : Course Outcome) :
    (follow other t c).now = t.now ∧
      ((t.result? ticket).isSome → ((follow other t c).result? ticket).isSome) := by
  induction c generalizing t with
  | done out =>
    refine ⟨rfl, fun h => ?_⟩
    simp only [result?, Option.isSome_map, List.find?_isSome, follow] at h ⊢
    obtain ⟨e, he, hticket⟩ := h
    exact ⟨e, List.mem_cons_of_mem _ he, hticket⟩
  | ask q next ih =>
    rcases follow_ask other t q next with
      ⟨reply, t', heq, hnow, -, hresults⟩ | ⟨p, hnow, -, hresults, -⟩
    · obtain ⟨hnow', hkept⟩ := ih reply t'
      rw [heq, hnow']
      exact ⟨hnow, fun h => hkept (by rwa [result?, hresults])⟩
    · exact ⟨hnow, fun h => by rwa [result?, hresults]⟩

theorem serve_ends {l : List (Nat × Operation)} (h : Ends ticket timeout n bound t) :
    Ends ticket timeout n bound (t.serve l) := by
  induction l generalizing t with
  | nil => exact h.later (fun _ => rfl) rfl id
  | cons first rest ih =>
    unfold serve
    split
    · exact h.later (fun _ => rfl) rfl id
    · rename_i hfree
      have hpending : t.pending = none := by
        simp only [Bool.or_eq_true, not_or, Option.not_isSome_iff_eq_none] at hfree
        exact hfree.1
      obtain ⟨hnow, hresult⟩ := follow_keeps ticket first.1 t
        (first.2.course .byName t.registry)
      refine ih (h.later (fun hsome => ?_) hnow hresult)
      rw [hpending] at hsome
      cases hsome

theorem rest_ends (h : Ends ticket timeout n bound t) : Ends ticket timeout n bound t.rest := by
  unfold Timeline.rest
  split
  · dsimp only
    split
    · rename_i htime
      have hdue := of_decide_eq_true (Bool.and_eq_true_iff.mp htime).1
      exact h.later (fun _ => rfl) (Nat.max_eq_left hdue) id
    · exact h.later (fun _ => rfl) rfl id
  · exact h

theorem Calling.answered (h : Calling ticket timeout n bound t p) :
    Ends ticket timeout n bound (t.happen (.answer p)) := by
  have hnow : max t.now p.due = p.due := Nat.max_eq_right h.before
  refine serve_ends (rest_ends ?_)
  have hreply {t' : Timeline} (reply : Reply) (hp : t'.pending = none) (ht' : t'.now = p.due) :
      Ends ticket timeout n bound (follow p.ticket t' (p.next reply)) := by
    rw [h.ticket]
    exact follow_ends (h.left reply) hp (ht'.symm ▸ h.inTime)
  unfold complete
  dsimp only
  split
  · exact hreply _ rfl hnow
  · exact hreply _ rfl hnow

def idlers (t : Timeline) : List Sweeper := t.sweepers.filter Sweeper.idle

theorem next?_of_pending (hp : t.pending = some p) :
    t.next? = some (p.due, .answer p) ∨
      ∃ s ∈ t.idlers, max t.now s.due < p.due ∧ t.next? = some (max t.now s.due, .tick s) := by
  rcases hfirst : t.idlers.minOn? (·.due) with _ | s
  · left
    simp only [idlers] at hfirst
    simp only [next?, hp, hfirst, Option.map]
  · simp only [idlers] at hfirst
    simp only [next?, hp, hfirst, Option.map]
    split
    · exact Or.inl rfl
    · rename_i hearly
      exact Or.inr ⟨s, List.minOn?_mem hfirst, Nat.lt_of_not_le hearly, rfl⟩

theorem countP_lt {α : Type} {f g : α → Bool} {l : List α} (h : ∀ a ∈ l, f a = true → g a = true)
    {a : α} (ha : a ∈ l) (hf : f a = false) (hg : g a = true) : l.countP f < l.countP g := by
  obtain ⟨before, after, rfl⟩ := List.append_of_mem ha
  have hbefore : before.countP f ≤ before.countP g :=
    List.countP_mono_left fun x hx => h x (List.mem_append_left _ hx)
  have hafter : after.countP f ≤ after.countP g :=
    List.countP_mono_left fun x hx => h x (List.mem_append_right _ (List.mem_cons_of_mem _ hx))
  simp only [List.countP_append, List.countP_cons, hf, hg, Bool.false_eq_true, if_false, if_true]
  omega

theorem sweepers_putSweeper (t : Timeline) (s : Sweeper) :
    (t.putSweeper s).sweepers = t.sweepers.map fun old => if old.id = s.id then s else old := by
  simp only [sweepers, putSweeper, Option.toList_map, List.map_append]

theorem idlers_tick_lt {s : Sweeper} (hs : s ∈ t.idlers) :
    (t.tick s).idlers.length < t.idlers.length := by
  obtain ⟨hmem, hidle⟩ := List.mem_filter.mp hs
  obtain ⟨taken, htaken⟩ : ∃ taken, taken = s.take (max t.now s.due) t.nextTicket := ⟨_, rfl⟩
  have hbusy : taken.idle = false := by simp [htaken, Sweeper.idle, Sweeper.take]
  have hput : (t.tick s).sweepers = t.sweepers.map fun old =>
      if old.id = taken.id then taken else old := by
    rw [htaken]
    exact sweepers_putSweeper ..
  rw [idlers, idlers, hput, ← List.countP_eq_length_filter, ← List.countP_eq_length_filter,
    List.countP_map]
  have hfilter (old : Sweeper) (h : (if old.id = taken.id then taken else old).idle = true) :
      old.idle = true := by
    split at h
    · exact absurd h (by simp [hbusy])
    · exact h
  refine countP_lt (fun old _ => hfilter old) hmem ?_ hidle
  simp [htaken, Sweeper.idle, Sweeper.take]

theorem happen_tick (hp : t.pending = some p) (s : Sweeper) :
    t.happen (.tick s) = t.tick s := by
  have hpending : (t.tick s).pending = some p := hp
  unfold happen
  dsimp only
  cases hwaiting : (t.tick s).waiting with
  | nil => rw [serve, ← hwaiting]
  | cons first rest =>
    rw [serve, hpending, Option.isSome_some, Bool.true_or, if_pos rfl, ← hwaiting, ← hpending]

def ThroughBy (ticket bound : Nat) (t : Timeline) : Prop :=
  ∃ fuel, ((t.passFor fuel ticket).result? ticket).isSome ∧ (t.passFor fuel ticket).now ≤ bound

theorem ThroughBy.of_happen {due : Nat} {o : Occasion} (hnone : ¬ (t.result? ticket).isSome)
    (hnext : t.next? = some (due, o)) (h : ThroughBy ticket bound (t.happen o)) :
    ThroughBy ticket bound t := by
  obtain ⟨fuel, hthrough⟩ := h
  refine ⟨fuel + 1, ?_⟩
  rwa [passFor, if_neg hnone, hnext]

theorem Calling.throughBy (h : Calling ticket timeout n bound t p)
    (hlater : ∀ t, Ends ticket timeout n bound t → ThroughBy ticket bound t) :
    ThroughBy ticket bound t := by
  -- Ticks come before the answer, but each leaves one sweeper less that can tick.
  induction hcount : t.idlers.length using Nat.strong_induction_on generalizing t with
  | _ k ih =>
    by_cases hresult : (t.result? ticket).isSome
    · have hdue : p.due ≤ bound := Nat.le_trans (Nat.le_add_right ..) h.inTime
      exact ⟨0, hresult, Nat.le_trans h.before hdue⟩
    · rcases next?_of_pending h.pending with hnext | ⟨s, hs, hearly, hnext⟩
      · exact .of_happen hresult hnext (hlater _ h.answered)
      · have hticked : Calling ticket timeout n bound (t.tick s) p :=
          h.later rfl (Nat.le_of_lt hearly)
        refine .of_happen hresult hnext ?_
        rw [happen_tick h.pending]
        exact ih _ (hcount ▸ idlers_tick_lt hs) hticked rfl

theorem Ends.throughBy (h : Ends ticket timeout n bound t) : ThroughBy ticket bound t := by
  induction n using Nat.strong_induction_on generalizing t with
  | _ n ih =>
    cases h with
    | through hresult hnow => exact ⟨0, hresult, hnow⟩
    | calling hm hcalling => exact hcalling.throughBy fun _ => ih _ hm

/-- An operation that takes the registry gives it back within as many timeouts as it makes calls.
One on a single source makes one call at most, while one on all sources makes a call for every
source that has events pending, whatever the order of its visit and the answers. -/
theorem lock_held_for_calls (t : Timeline) (hfree : t.pending = none) (ticket : Nat)
    (op : Operation) (v : Visit) :
    let r := t.registry
    let calls := op.calls r
    (∀ ex r' outcome, (op.course v r).Yields ex (r', outcome) →
        ex.length = calls ∧ ∀ x ∈ ex, x.1.registry.callTimeout = r.callTimeout) ∧
      (if op.bulk then calls = r.unsent.length else calls ≤ 1) ∧
      ThroughBy ticket (t.now + calls * r.callTimeout.toNanos)
        (follow ticket t (op.course .byName r)) := by
  intro r calls
  refine ⟨fun ex r' outcome h => ?_, ?_, ?_⟩
  · obtain ⟨hcount, hbounded, -⟩ := op.course_takes v r ex r' outcome h
    exact ⟨hcount, hbounded⟩
  · cases hbulk : op.bulk with
    | true =>
      cases op with
      | sweep | shutdown => rfl
      | start | stop | handle | flush | contains | size | copyBatch => cases hbulk
    | false => exact Operation.calls_le hbulk r
  · have hcourse := op.course_takes .byName r
    exact (follow_ends hcourse hfree (Nat.le_refl _)).throughBy

theorem lock_held_for_calls_flush :
    let registry := (Registry.new {} (.ofMillis 5000)).history
      (fun (s : Unit) _ => (none, s))
      [(.byName, .start "a" ⟨"g", "a"⟩), (.byName, .handle "a" ⟨1, "x"⟩)] ()
    let t : Timeline := { registry := registry.registry, now := 7 }
    t.pending = none ∧
      ThroughBy 0 5000000007 (follow 0 t ((Operation.flush "a").course .byName t.registry)) := by
  intro registry t
  have hcalls : t.now + (Operation.flush "a").calls t.registry *
      t.registry.callTimeout.toNanos = 5000000007 := by decide +kernel
  exact ⟨rfl, hcalls ▸ (lock_held_for_calls t rfl 0 (.flush "a") .byName).2.2⟩

/-- While a sweep waits for two streams that hang, an event for a third source is kept waiting for
two timeouts. -/
theorem event_kept_waiting :
    let timeout : Duration := .ofMillis 5000
    let hanging : Script :=
      { submits := [("g/a", [{ hangs := true }]), ("g/b", [{ hangs := true }])] }
    let new : Timeline := { registry := .new {} timeout, script := hanging }
    let t := [.start "a" ⟨"g", "a"⟩, .start "b" ⟨"g", "b"⟩, .start "c" ⟨"g", "c"⟩,
      .handle "a" ⟨1, "x"⟩, .handle "b" ⟨2, "y"⟩].foldl (fun t op => (t.perform op).2) new
    let sweep := t.request .sweep
    let event := sweep.2.request (.handle "c" ⟨3, "z"⟩)
    let served := event.2.await event.1
    t.now = 0 ∧ event.2.now = 0 ∧ (event.2.result? event.1).isNone ∧
      (served.result? sweep.1).isSome ∧ (served.result? event.1).isSome ∧
      served.now = 2 * timeout.toNanos := by
  decide +kernel

end Timeline
end LogRelay
