import LogRelay.Proofs.Dialogue
import LogRelay.Proofs.Settlement

/-! What the courses of the registry come to, function by function: the questions that they ask,
and the batches that they leave. -/

namespace LogRelay

abbrev Exchange := Inquiry × Reply

def madeFor (id : SourceId) (ex : List Exchange) : List Exchange :=
  ex.filter fun x => x.1.source = id

section MadeFor
variable (id : SourceId) (ex ex' : List Exchange)

@[simp] theorem madeFor_append : madeFor id (ex ++ ex') = madeFor id ex ++ madeFor id ex' :=
  List.filter_append ..

variable {id ex}

theorem madeFor_eq_self (h : ∀ x ∈ ex, x.1.source = id) : madeFor id ex = ex :=
  List.filter_eq_self.mpr fun x hx => by simpa using h x hx

theorem madeFor_eq_nil (h : ∀ x ∈ ex, x.1.source ≠ id) : madeFor id ex = [] :=
  List.filter_eq_nil_iff.mpr fun x hx => by simpa using h x hx

end MadeFor

def Registry.submission (r : Registry) (id : SourceId) (b : Batch) : Inquiry :=
  ⟨r, id, .submit b.destination b.token b.events⟩

/-- A flush of a source's batch: nothing is asked when nothing is pending, and else all that is
pending is submitted once. -/
inductive Flushed (id : SourceId) (b : Batch) : List Exchange → Batch → Prop where
  | empty (h : b.events = []) : Flushed id b [] b
  | asked (r : Registry) (reply : Reply) (h : b.events ≠ []) :
      Flushed id b [(r.submission id b, reply)] (b.settle (r.heed reply)).1

theorem Flushed.source {id : SourceId} {b b' : Batch} {ex : List Exchange}
    (h : Flushed id b ex b') : ∀ x ∈ ex, x.1.source = id := by
  intro x hx
  cases h with
  | empty => cases hx
  | asked r reply =>
    cases List.mem_singleton.mp hx
    rfl

theorem Flushed.madeFor_self {id : SourceId} {b b' : Batch} {ex : List Exchange}
    (h : Flushed id b ex b') : madeFor id ex = ex := madeFor_eq_self h.source

theorem Flushed.madeFor_other {id k : SourceId} {b b' : Batch} {ex : List Exchange}
    (h : Flushed id b ex b') (hk : k ≠ id) : madeFor k ex = [] :=
  madeFor_eq_nil fun x hx heq => hk (heq.symm.trans (h.source x hx))

namespace Registry

variable {r r' : Registry} {id : SourceId} {b b' : Batch} {ex : List Exchange}
  {stored : Except RemoteError Nat}

theorem submit_yields (h : (r.submit id b).Yields ex (r', b', stored)) :
    (b.events = [] ∧ ex = [] ∧ r' = r ∧ b' = b ∧ stored = .ok 0) ∨
      (b.events ≠ [] ∧ ∃ reply, ex = [(r.submission id b, reply)] ∧
        r' = r.count (·.submitted b.size (r.heed reply)) ∧
        b' = (b.settle (r.heed reply)).1 ∧ stored = (b.settle (r.heed reply)).2) := by
  unfold submit at h
  split at h
  · rename_i hempty
    obtain ⟨hex, hout⟩ := Dialogue.yields_done.mp h
    obtain ⟨rfl, rfl, rfl⟩ : r' = r ∧ b' = b ∧ stored = .ok 0 := by simpa using hout
    exact Or.inl ⟨(Batch.isEmpty_iff b').mp hempty, hex, rfl, rfl, rfl⟩
  · rename_i hempty
    obtain ⟨reply, rest, rfl, hrest⟩ := Dialogue.yields_ask.mp h
    obtain ⟨rfl, hout⟩ := Dialogue.yields_done.mp hrest
    obtain ⟨hr, hb⟩ := Prod.mk.inj hout
    exact Or.inr ⟨fun hnil => hempty ((Batch.isEmpty_iff b).mpr hnil), reply, rfl, hr,
      congrArg Prod.fst hb, congrArg Prod.snd hb⟩

theorem submit_flushed (h : (r.submit id b).Yields ex (r', b', stored)) : Flushed id b ex b' := by
  rcases submit_yields h with ⟨hb, rfl, -, rfl, -⟩ | ⟨hb, reply, rfl, -, rfl, -⟩
  · exact .empty hb
  · exact .asked r reply hb

theorem submit_batches (h : (r.submit id b).Yields ex (r', b', stored)) :
    r'.batches = r.batches ∧ r'.limits = r.limits := by
  rcases submit_yields h with ⟨-, -, rfl, -⟩ | ⟨-, reply, -, rfl, -⟩
  · exact ⟨rfl, rfl⟩
  · exact ⟨rfl, rfl⟩

theorem find?_put (r : Registry) (id k : SourceId) (b : Batch) :
    (r.put id b).batches.find? k =
      if k = id then (r.batches.find? k).map fun _ => b else r.batches.find? k :=
  Roster.find?_set ..

theorem put_found (hb : r.batches.find? id = some b) (b' : Batch) :
    (r.put id b').batches.find? id = some b' := by
  rw [find?_put, if_pos rfl, hb]
  rfl

theorem submit_empty (r : Registry) (id : SourceId) (hempty : b.events = []) :
    r.submit id b = .done (r, b, .ok 0) := if_pos ((Batch.isEmpty_iff b).mpr hempty)

theorem submit_pending (r : Registry) (id : SourceId) (hpending : b.events ≠ []) :
    r.submit id b = .ask (r.submission id b) fun reply =>
      .done (r.count (·.submitted b.size (r.heed reply)), b.settle (r.heed reply)) :=
  if_neg (mt (Batch.isEmpty_iff b).mp hpending)

theorem flush_none (hb : r.batches.find? id = none) : r.flush id = .done (r, .ok 0) := by
  unfold flush
  rw [hb]

theorem flush_some (hb : r.batches.find? id = some b) :
    r.flush id = (r.submit id b).bind fun (r, b, stored) => .done (r.put id b, stored) := by
  unfold flush
  rw [hb]

theorem flush_yields {out : Registry × Except RemoteError Nat}
    (h : (r.flush id).Yields ex out) :
    (r.batches.find? id = none ∧ ex = [] ∧ out.1 = r) ∨
      ∃ b b', r.batches.find? id = some b ∧ Flushed id b ex b' ∧
        out.1.batches = r.batches.set id b' ∧ out.1.limits = r.limits := by
  unfold flush at h
  split at h
  · rename_i hnone
    obtain ⟨rfl, rfl⟩ := Dialogue.yields_done.mp h
    exact Or.inl ⟨hnone, rfl, rfl⟩
  · rename_i b hsome
    obtain ⟨first, ⟨r₁, b', stored⟩, second, hfirst, hsecond, rfl⟩ := Dialogue.yields_bind.mp h
    obtain ⟨rfl, rfl⟩ := Dialogue.yields_done.mp hsecond
    obtain ⟨hbatches, hlimits⟩ := submit_batches hfirst
    rw [List.append_nil]
    refine Or.inr ⟨b, b', hsome, submit_flushed hfirst, ?_, hlimits⟩
    simp only [put, hbatches]

structure SweptOver (r : Registry) (ids : List SourceId) (ex : List Exchange) (r' : Registry) :
    Prop where
  limits : r'.limits = r.limits
  others : ∀ k ∉ ids, madeFor k ex = [] ∧ r'.batches.find? k = r.batches.find? k
  visited : ∀ k ∈ ids, ∀ b, r.batches.find? k = some b →
    ∃ b', r'.batches.find? k = some b' ∧ Flushed k b (madeFor k ex) b'

theorem SweptOver.skip {ids : List SourceId} (hid : id ∉ ids)
    (hidle : ∀ b, r.batches.find? id = some b → b.events = []) (h : SweptOver r ids ex r') :
    SweptOver r (id :: ids) ex r' := by
  refine ⟨h.limits, fun k hk => h.others k fun hm => hk (List.mem_cons_of_mem _ hm), ?_⟩
  intro k hk b hb
  rcases List.mem_cons.mp hk with rfl | hk
  · obtain ⟨hmade, hsame⟩ := h.others k hid
    rw [hmade]
    exact ⟨b, hsame.trans hb, .empty (hidle b hb)⟩
  · exact h.visited k hk b hb

theorem SweptOver.step {r₁ : Registry} {ids : List SourceId} {first second : List Exchange}
    (hid : id ∉ ids) (hb : r.batches.find? id = some b) (hf : Flushed id b first b')
    (hbatches : r₁.batches = r.batches.set id b') (hlimits : r₁.limits = r.limits)
    (h : SweptOver r₁ ids second r') : SweptOver r (id :: ids) (first ++ second) r' := by
  have hfind (k : SourceId) : r₁.batches.find? k =
      if k = id then (r.batches.find? k).map fun _ => b' else r.batches.find? k := by
    rw [hbatches, Roster.find?_set]
  -- The first flush leaves the other sources as they are, so the rest of the sweep finds them so,
  -- and the rest never comes back to the first source.
  refine ⟨h.limits.trans hlimits, ?_, ?_⟩
  · intro k hk
    obtain ⟨hne, hrest⟩ := not_or.mp (mt List.mem_cons.mpr hk)
    obtain ⟨hmade, hsame⟩ := h.others k hrest
    rw [madeFor_append, hf.madeFor_other hne, hmade, hsame, hfind, if_neg hne]
    exact ⟨rfl, rfl⟩
  · intro k hk c hc
    rw [madeFor_append]
    rcases List.mem_cons.mp hk with rfl | hk
    · obtain ⟨hmade, hsame⟩ := h.others k hid
      obtain rfl : c = b := Option.some.inj (hc.symm.trans hb)
      rw [hmade, List.append_nil, hf.madeFor_self, hsame, hfind, if_pos rfl, hb]
      exact ⟨b', rfl, hf⟩
    · have hne : k ≠ id := fun heq => hid (heq ▸ hk)
      rw [hf.madeFor_other hne, List.nil_append]
      exact h.visited k hk c (by rw [hfind, if_neg hne, hc])

theorem sweepOver_yields {report report' : SweepReport} {ids : List SourceId} (hids : ids.Nodup)
    (h : (r.sweepOver report ids).Yields ex (r', report')) : SweptOver r ids ex r' := by
  induction ids generalizing r report ex with
  | nil =>
    simp only [sweepOver, Dialogue.yields_done, Prod.mk.injEq] at h
    obtain ⟨rfl, rfl, -⟩ := h
    exact ⟨rfl, fun _ _ => ⟨rfl, rfl⟩, fun _ hk => absurd hk List.not_mem_nil⟩
  | cons id rest ih =>
    obtain ⟨hid, hrest⟩ := List.nodup_cons.mp hids
    unfold sweepOver at h
    split at h
    · rename_i hnone
      exact (ih hrest h).skip hid fun b hb => absurd (hnone.symm.trans hb) (by simp)
    · rename_i b hsome
      split at h
      · rename_i hempty
        refine (ih hrest h).skip hid fun c hc => ?_
        obtain rfl : c = b := Option.some.inj (hc.symm.trans hsome)
        exact (Batch.isEmpty_iff c).mp hempty
      · obtain ⟨first, ⟨r₁, stored⟩, second, hfirst, hsecond, rfl⟩ := Dialogue.yields_bind.mp h
        rcases flush_yields hfirst with ⟨hnone, -⟩ | ⟨c, b', hc, hf, hbatches, hlimits⟩
        · exact absurd (hnone.symm.trans hsome) (by simp)
        · exact (ih hrest hsecond).step hid hc hf hbatches hlimits

theorem drain_yields {entries : List (SourceId × Batch)} {out : Unit}
    (hentries : (entries.map (·.1)).Nodup) (h : (r.drain entries).Yields ex (r', out)) :
    r'.batches = r.batches ∧ r'.limits = r.limits ∧
      (∀ k ∉ entries.map (·.1), madeFor k ex = []) ∧
      ∀ k b, (k, b) ∈ entries → ∃ b', Flushed k b (madeFor k ex) b' := by
  induction entries generalizing r ex with
  | nil =>
    simp only [drain, Dialogue.yields_done, Prod.mk.injEq] at h
    obtain ⟨rfl, rfl, -⟩ := h
    exact ⟨rfl, rfl, fun _ _ => rfl, fun _ _ hk => absurd hk List.not_mem_nil⟩
  | cons entry rest ih =>
    obtain ⟨id, b⟩ := entry
    obtain ⟨hid, hrest⟩ := List.nodup_cons.mp hentries
    obtain ⟨first, ⟨r₁, b', stored⟩, second, hfirst, hsecond, rfl⟩ := Dialogue.yields_bind.mp h
    obtain ⟨hbatches, hlimits, hothers, hvisited⟩ := ih hrest hsecond
    obtain ⟨hbatches₁, hlimits₁⟩ := submit_batches hfirst
    have hf := submit_flushed hfirst
    refine ⟨hbatches.trans hbatches₁, hlimits.trans hlimits₁, ?_, ?_⟩
    · intro k hk
      obtain ⟨hne, hk⟩ := not_or.mp (mt List.mem_cons.mpr hk)
      rw [madeFor_append, hf.madeFor_other hne, hothers k hk, List.nil_append]
    · intro k c hc
      rw [madeFor_append]
      rcases List.mem_cons.mp hc with heq | hc
      · obtain ⟨rfl, rfl⟩ := Prod.mk.inj heq
        rw [hothers k hid, List.append_nil, hf.madeFor_self]
        exact ⟨b', hf⟩
      · have hne : k ≠ id := fun heq => hid (heq ▸ List.mem_map.mpr ⟨_, hc, rfl⟩)
        rw [hf.madeFor_other hne, List.nil_append]
        exact hvisited k c hc

theorem shutdown_yields {v : Visit} {sources : Nat}
    (h : (r.shutdown v).Yields ex (r', sources)) :
    r'.batches = Roster.empty ∧ r'.limits = r.limits ∧
      (∀ k, r.batches.find? k = none → madeFor k ex = []) ∧
      ∀ k b, r.batches.find? k = some b → ∃ b', Flushed k b (madeFor k ex) b' := by
  obtain ⟨first, ⟨r₁, ⟨⟩⟩, second, hfirst, hsecond, rfl⟩ := Dialogue.yields_bind.mp h
  obtain ⟨rfl, hout⟩ := Dialogue.yields_done.mp hsecond
  obtain rfl : r' = r₁ := congrArg Prod.fst hout
  have hkeys : ((r.batches.along v).map (·.1)).Nodup := Roster.along_ids .. ▸ v.nodup r.batches
  obtain ⟨hbatches, hlimits, hothers, hvisited⟩ := drain_yields hkeys hfirst
  rw [List.append_nil]
  refine ⟨hbatches, hlimits, fun k hk => hothers k ?_, fun k b hb => hvisited k b ?_⟩
  · simp [Roster.along_ids, Visit.mem, hk]
  · exact Roster.mem_along.mpr hb

theorem start_yields {d : Destination} {out : Unit} (h : (r.start id d).Yields ex (r', out)) :
    ((r.batches.find? id).isSome ∧ ex = [] ∧ r' = r) ∨
      (r.batches.find? id = none ∧ ∃ reply, ex = [(⟨r, id, .openStream d⟩, reply)] ∧
        r'.limits = r.limits ∧ r'.batches = r.batches.insert id
          (.fresh d (r.heed reply).toOption.join r.limits)) := by
  unfold start at h
  split at h
  · rename_i hknown
    obtain ⟨rfl, hout⟩ := Dialogue.yields_done.mp h
    exact Or.inl ⟨hknown, rfl, congrArg Prod.fst hout⟩
  · rename_i hunknown
    obtain ⟨reply, rest, rfl, hrest⟩ := Dialogue.yields_ask.mp h
    obtain ⟨rfl, hout⟩ := Dialogue.yields_done.mp hrest
    obtain rfl := congrArg Prod.fst hout
    exact Or.inr ⟨by simpa [Roster.contains] using hunknown, reply, rfl, rfl, rfl⟩

theorem stop_yields {out : Unit} (h : (r.stop id).Yields ex (r', out)) :
    (r.batches.find? id = none ∧ ex = [] ∧ r' = r) ∨
      ∃ b b', r.batches.find? id = some b ∧ Flushed id b ex b' ∧
        r'.batches = r.batches.erase id ∧ r'.limits = r.limits := by
  unfold stop at h
  split at h
  · rename_i hnone
    obtain ⟨rfl, hout⟩ := Dialogue.yields_done.mp h
    exact Or.inl ⟨hnone, rfl, congrArg Prod.fst hout⟩
  · rename_i b hsome
    obtain ⟨first, ⟨r₁, b', stored⟩, second, hfirst, hsecond, rfl⟩ := Dialogue.yields_bind.mp h
    obtain ⟨rfl, hout⟩ := Dialogue.yields_done.mp hsecond
    obtain rfl : r' = r₁ := congrArg Prod.fst hout
    obtain ⟨hbatches, hlimits⟩ := submit_batches hfirst
    rw [List.append_nil]
    exact Or.inr ⟨b, b', hsome, submit_flushed hfirst, hbatches, hlimits⟩

/-- What becomes of an event that its source's batch has no room for, once the batch is flushed. -/
inductive Overflow (r : Registry) (id : SourceId) (b b' : Batch) (e : LogEvent)
    (stored : Except RemoteError Nat) : Registry → EventOutcome → Prop where
  | appended (hroom : b'.accepts e = true) :
      Overflow r id b b' e stored ((r.put id (b'.append e)).count (·.accepted))
        (if stored.isOk then .flushedAndAppended else .appended)
  | refused (hstill : b'.accepts e = false) :
      Overflow r id b b' e stored ((r.put id b').count (·.dropped)) (.dropped .flushFailed)

inductive Handled (r : Registry) (id : SourceId) (e : LogEvent) :
    List Exchange → Registry → EventOutcome → Prop where
  | unknown (hnone : r.batches.find? id = none) :
      Handled r id e [] (r.count (·.dropped)) (.dropped .unknownSource)
  | oversized {b : Batch} (hsome : r.batches.find? id = some b)
      (hsize : r.limits.oversized e = true) :
      Handled r id e [] (r.count (·.oversized)) (.dropped .oversized)
  | fits {b : Batch} (hsome : r.batches.find? id = some b)
      (hsize : r.limits.oversized e = false) (hroom : b.accepts e = true) :
      Handled r id e [] ((r.put id (b.append e)).count (·.accepted)) .appended
  | overflows {b b' : Batch} {r₁ r' : Registry} {stored : Except RemoteError Nat}
      {ex : List Exchange} {outcome : EventOutcome} (hsome : r.batches.find? id = some b)
      (hsize : r.limits.oversized e = false) (hfull : b.accepts e = false)
      (hsubmit : (r.submit id b).Yields ex (r₁, b', stored))
      (hover : Overflow r₁ id b b' e stored r' outcome) : Handled r id e ex r' outcome

theorem handle_yields {e : LogEvent} {outcome : EventOutcome}
    (h : (r.handle id e).Yields ex (r', outcome)) : Handled r id e ex r' outcome := by
  unfold handle at h
  split at h
  · rename_i hnone
    obtain ⟨rfl, hout⟩ := Dialogue.yields_done.mp h
    obtain ⟨rfl, rfl⟩ := Prod.mk.inj hout
    exact .unknown hnone
  · rename_i b hsome
    split at h
    · rename_i hsize
      obtain ⟨rfl, hout⟩ := Dialogue.yields_done.mp h
      obtain ⟨rfl, rfl⟩ := Prod.mk.inj hout
      exact .oversized hsome hsize
    · rename_i hsize
      have hsize : r.limits.oversized e = false := by simpa using hsize
      split at h
      · rename_i hroom
        obtain ⟨rfl, hout⟩ := Dialogue.yields_done.mp h
        obtain ⟨rfl, rfl⟩ := Prod.mk.inj hout
        exact .fits hsome hsize hroom
      · rename_i hfull
        obtain ⟨first, ⟨r₁, b', stored⟩, second, hfirst, hsecond, rfl⟩ :=
          Dialogue.yields_bind.mp h
        have hfull : b.accepts e = false := by simpa using hfull
        dsimp only at hsecond
        split at hsecond
        · rename_i hroom
          obtain ⟨rfl, hout⟩ := Dialogue.yields_done.mp hsecond
          obtain ⟨rfl, rfl⟩ := Prod.mk.inj hout
          rw [List.append_nil]
          exact .overflows hsome hsize hfull hfirst (.appended hroom)
        · rename_i hstill
          obtain ⟨rfl, hout⟩ := Dialogue.yields_done.mp hsecond
          obtain ⟨rfl, rfl⟩ := Prod.mk.inj hout
          rw [List.append_nil]
          exact .overflows hsome hsize hfull hfirst (.refused (by simpa using hstill))

theorem handle_limits {e : LogEvent} {outcome : EventOutcome}
    (h : (r.handle id e).Yields ex (r', outcome)) : r'.limits = r.limits := by
  cases handle_yields h with
  | unknown | oversized | fits => rfl
  | overflows _ _ _ hsubmit hover => cases hover <;> exact (submit_batches hsubmit).2

end Registry
end LogRelay
