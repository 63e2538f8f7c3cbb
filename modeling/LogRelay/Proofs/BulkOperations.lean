import LogRelay.Proofs.Addressing
import LogRelay.Proofs.Books
import LogRelay.Proofs.Isolation
import Mathlib.Algebra.BigOperators.Group.List.Basic

/-! Operations on all sources, against operations on each of them. If no two sources write to one
stream and the remote answers by destination, a source meets the same in a sweep as in a flush of
its own, and in a shutdown as in a stop of its own; so the order of the sources does not matter. -/

namespace LogRelay

theorem perm_groups {α κ : Type} [DecidableEq κ] (key : α → κ) {keys : List κ} (hkeys : keys.Nodup)
    {l : List α} (hl : ∀ a ∈ l, key a ∈ keys) :
    l.Perm (keys.flatMap fun k => l.filter fun a => key a = k) := by
  induction keys generalizing l with
  | nil =>
    rw [List.eq_nil_iff_forall_not_mem.mpr fun a ha => List.not_mem_nil (hl a ha)]
    rfl
  | cons k rest ih =>
    obtain ⟨hk, hrest⟩ := List.nodup_cons.mp hkeys
    have hlater : ∀ a ∈ l.filter (fun a => !decide (key a = k)), key a ∈ rest := by
      intro a ha
      obtain ⟨ha, hne⟩ := List.mem_filter.mp ha
      exact (List.mem_cons.mp (hl a ha)).resolve_left (by simpa using hne)
    have hgroups : (rest.flatMap fun k' =>
        (l.filter fun a => !decide (key a = k)).filter fun a => key a = k') =
        rest.flatMap fun k' => l.filter fun a => key a = k' := by
      refine List.flatMap_congr fun k' hk' => ?_
      have hne : k' ≠ k := fun heq => hk (heq ▸ hk')
      rw [List.filter_filter]
      refine List.filter_congr fun a _ => ?_
      by_cases ha : key a = k' <;> simp [ha, hne]
    rw [List.flatMap_cons, ← hgroups]
    exact (List.filter_append_perm _ l).symm.trans ((ih hrest hlater).append_left _)

/-! ### What one exchange adds up to -/

def Exchange.under (r : Registry) (c : SourceId × Call × Reply) : Exchange :=
  (⟨r, c.1, c.2.1⟩, c.2.2)

theorem Tally.exchanged_under (t : Tally) (r : Registry) (x : Exchange) :
    t.exchanged (.under r x.content) = t.exchanged x := by
  obtain ⟨⟨r', id, call⟩, reply⟩ := x
  cases call <;> cases reply <;> rfl

theorem storedBy_under (r : Registry) (x : Exchange) :
    storedBy (.under r x.content) = storedBy x := by
  obtain ⟨⟨r', id, call⟩, reply⟩ := x
  cases call <;> cases reply <;> rfl

theorem Tally.exchanged_comm (t : Tally) (x y : Exchange) :
    (t.exchanged x).exchanged y = (t.exchanged y).exchanged x := by
  simp only [Tally.exchanged_eq _ false, called_called]
  simp only [called, totalSize_append, List.filter_append, List.countP_append, Nat.add_comm]

theorem Tally.foldl_exchanged_perm {ex ex' : List Exchange}
    (h : (ex.map Exchange.content).Perm (ex'.map Exchange.content)) (t : Tally) :
    ex.foldl exchanged t = ex'.foldl exchanged t := by
  have hunder (r : Registry) (ex : List Exchange) (t : Tally) : ex.foldl exchanged t =
      (ex.map Exchange.content).foldl (fun t c => t.exchanged (.under r c)) t := by
    simp only [List.foldl_map, exchanged_under]
  have r : Registry := .new {} .zero
  rw [hunder r ex, hunder r ex']
  exact h.foldl_eq' (fun x _ y _ t => t.exchanged_comm _ _) t

theorem Roster.ext_find? {α : Type} {a b : Roster α} (h : ∀ id, a.find? id = b.find? id) :
    a = b := by
  obtain ⟨l, hl⟩ := a
  obtain ⟨l', hl'⟩ := b
  have hmem (e : SourceId × α) : e ∈ l ↔ e ∈ l' := by
    have hfound := h e.1
    rw [← find?_eq_some (r := ⟨l, hl⟩), ← find?_eq_some (r := ⟨l', hl'⟩), hfound]
  have hlt {x y : SourceId × α} (hxy : x.1 < y.1) : x ≠ y :=
    fun heq => String.lt_irrefl _ (heq ▸ hxy)
  have hperm : l.Perm l' :=
    (List.perm_ext_iff_of_nodup (hl.imp hlt) (hl'.imp hlt)).mpr hmem
  obtain rfl : l = l' := hperm.eq_of_pairwise
    (fun x y _ _ hxy hyx => absurd (String.lt_trans hxy hyx) (String.lt_irrefl _)) hl hl'
  rfl

/-! ### Operations that only submit what is pending -/

def Operation.clears : Operation → Bool
  | start _ _ | handle _ _ => false
  | _ => true

section Clearing

variable {σ : Type} {answer : σ → Inquiry → Reply × σ} {r : Registry}
  {ops : List (Visit × Operation)} {s : σ}

theorem history_induction_clears (hops : ∀ e ∈ ops, e.2.clears = true)
    (P : List Turn → Registry → Prop)
    (hstep : ∀ turns t, t.Possible → t.operation.clears = true → P turns t.before →
      P (turns ++ [t]) t.after) (hstart : P [] r) :
    P (r.history answer ops s).turns (r.history answer ops s).registry := by
  have hclears : ∀ t ∈ (r.history answer ops s).turns, t.operation.clears = true := by
    intro t ht
    have hop : t.operation ∈ ops.map (·.2) :=
      history_operations answer r ops s ▸ List.mem_map_of_mem ht
    obtain ⟨e, he, heq⟩ := List.mem_map.mp hop
    exact heq ▸ hops e he
  refine history_induction (fun turns r _ => (∀ t ∈ turns, t.operation.clears = true) →
    P turns r) ?_ r ops s (fun _ => hstart) hclears
  intro turns t _ _ ht _ h hturns
  obtain ⟨hearlier, hlast⟩ := List.forall_mem_append.mp hturns
  exact hstep turns t ht (hlast t (List.mem_singleton_self t)) (h hearlier)

theorem history_addressed (hops : ∀ e ∈ ops, e.2.clears = true) :
    ∀ x ∈ (r.history answer ops s).turns.flatMap (·.exchanges),
      ∃ b, r.batches.find? x.1.source = some b ∧ b.destination = x.1.call.destination := by
  -- Batches go away, but those that stay keep their destination.
  refine (history_induction_clears hops (fun turns r' =>
    (∀ id b', r'.batches.find? id = some b' →
      ∃ b, r.batches.find? id = some b ∧ b.destination = b'.destination) ∧
    ∀ x ∈ turns.flatMap (·.exchanges),
      ∃ b, r.batches.find? x.1.source = some b ∧ b.destination = x.1.call.destination) ?_
    ⟨fun id b' hb => ⟨b', hb, rfl⟩, List.forall_mem_nil _⟩).2
  rintro turns t ht hclears ⟨hbatches, hasked⟩
  have hstart (id : SourceId) (d : Destination) : t.operation ≠ .start id d := by
    intro heq
    rw [heq] at hclears
    cases hclears
  constructor
  · intro id b' hb'
    have haddress := (ht.passage id).address
    rw [hb', Option.map_some] at haddress
    rcases Operation.readdress_eq_some.mp haddress.symm with ⟨-, hop⟩ | ⟨-, hbefore⟩
    · exact absurd hop (hstart id _)
    · obtain ⟨b, hb, hd⟩ := Option.map_eq_some_iff.mp hbefore
      obtain ⟨first, hfirst, heq⟩ := hbatches id b hb
      exact ⟨first, hfirst, heq.trans hd⟩
  · rw [List.flatMap_append, List.flatMap_singleton]
    refine List.forall_mem_append.mpr ⟨hasked, fun x hx => ?_⟩
    obtain ⟨b, hb, hcall⟩ := ht.asked hstart hx
    obtain ⟨first, hfirst, heq⟩ := hbatches _ b hb
    exact ⟨first, hfirst, heq.trans (hcall ▸ rfl)⟩

theorem history_tally (hops : ∀ e ∈ ops, e.2.clears = true) :
    (r.history answer ops s).registry.tally =
      ((r.history answer ops s).turns.flatMap (·.exchanges)).foldl Tally.exchanged r.tally := by
  refine history_induction_clears hops (fun turns r' =>
    r'.tally = (turns.flatMap (·.exchanges)).foldl Tally.exchanged r.tally) ?_ rfl
  intro turns t ht hclears h
  have hunhandled : t.outcome.isHandled = false := by
    obtain ⟨v, hyields⟩ := ht
    rw [← Operation.handles_eq hyields]
    cases hop : t.operation with
    | handle id e => exact absurd hclears (by simp [hop, Operation.clears])
    | start | stop | flush | sweep | shutdown | contains | size | copyBatch => rfl
  have hconcluded (tally : Tally) : tally.concluded t.outcome = tally := by
    cases hout : t.outcome with
    | handled outcome => exact absurd hunhandled (by simp [hout, Outcome.isHandled])
    | finished | flushed | swept | shutDown | contained | counted | copied => rfl
  rw [ht.tally, hconcluded, h, List.flatMap_append, List.foldl_append, List.flatMap_singleton]

end Clearing

theorem Dialogue.Answered.byDestination {remote : List Call → Call → Reply}
    {calls calls' : List Call} {ex : List Exchange}
    (h : Answered (LogRelay.byDestination remote) calls ex calls') :
    calls' = calls ++ ex.map (·.1.call) := by
  induction ex generalizing calls with
  | nil => exact h.trans (List.append_nil _).symm
  | cons x rest ih =>
    rw [ih h.2, LogRelay.byDestination, List.append_assoc]
    rfl

/-! ### Each source as if it were alone -/

theorem Mirrored.calls {id : SourceId} {turns turns' : List Turn} (h : Mirrored id turns turns') :
    (madeFor id (turns.flatMap (·.exchanges))).map Exchange.content =
      (turns'.flatMap (·.exchanges)).map Exchange.content := by
  induction h with
  | nil => rfl
  | other _ hcalls _ _ ih => rw [List.flatMap_cons, madeFor_append, hcalls, List.nil_append, ih]
  | own ht _ ih =>
    rw [List.flatMap_cons, madeFor_append, List.map_append, ih, ht.calls, List.flatMap_cons,
      List.map_append]

theorem Mirrored.exists_mirrors {id : SourceId} {turns turns' : List Turn}
    (h : Mirrored id turns turns') {t : Turn} (ht : t ∈ turns) {op : Operation}
    (hsolo : t.operation.solo id = some op) : ∃ t' ∈ turns', t.Mirrors id t' := by
  induction h with
  | nil => cases ht
  | other hop _ _ _ ih =>
    rcases List.mem_cons.mp ht with rfl | ht
    · cases hop.symm.trans hsolo
    · exact ih ht
  | @own _ t' _ _ hfirst _ ih =>
    rcases List.mem_cons.mp ht with rfl | ht
    · exact ⟨t', List.mem_cons_self .., hfirst⟩
    · obtain ⟨u, hu, hmirrors⟩ := ih ht
      exact ⟨u, List.mem_cons_of_mem _ hu, hmirrors⟩

-- The submission of a batch to a remote that has answered these calls.
def sent (remote : List Call → Call → Reply) (calls : List Call) (e : SourceId × Batch) :
    SourceId × Call × Reply :=
  let call := Call.submit e.2.destination e.2.token e.2.events
  (e.1, call, remote (callsTo e.2.destination calls) call)

def Registry.unsent (r : Registry) : List (SourceId × Batch) :=
  r.batches.entries.filter fun e => !e.2.isEmpty

section Alone

variable (remote : List Call → Call → Reply) (calls : List Call) (v : Visit) {r : Registry}
  {id : SourceId} {b : Batch}

theorem Registry.flush_alone (hb : r.batches.find? id = some b) :
    let run := r.history (byDestination remote) [(v, .flush id)] calls
    (run.turns.flatMap (·.exchanges)).map Exchange.content =
        (if b.isEmpty then [] else [sent remote calls (id, b)]) ∧
      ∀ t ∈ run.turns, ∃ stored, t.outcome = .flushed stored ∧
        (b.isEmpty = false → stored.isOk = (r.heed (sent remote calls (id, b)).2.2).stores) := by
  cases hempty : b.isEmpty with
  | true =>
    have hnone : b.events = [] := (Batch.isEmpty_iff b).mp hempty
    simp only [history, Operation.course, Operation.answer, flush_some hb, submit_empty r id hnone]
    exact ⟨rfl, List.forall_mem_singleton.mpr ⟨_, rfl, fun h => absurd h (by decide)⟩⟩
  | false =>
    have hsome : b.events ≠ [] := mt (Batch.isEmpty_iff b).mpr (by simp [hempty])
    simp only [history, Operation.course, Operation.answer, flush_some hb,
      submit_pending r id hsome]
    exact ⟨rfl, List.forall_mem_singleton.mpr ⟨_, rfl, fun _ => Batch.settle_isOk b _⟩⟩

theorem Registry.stop_alone (hb : r.batches.find? id = some b) :
    let run := r.history (byDestination remote) [(v, .stop id)] calls
    (run.turns.flatMap (·.exchanges)).map Exchange.content =
        (if b.isEmpty then [] else [sent remote calls (id, b)]) ∧
      run.registry.batches.find? id = none := by
  have hgone : (r.batches.erase id).find? id = none := by rw [Roster.find?_erase, if_pos rfl]
  cases hempty : b.isEmpty with
  | true =>
    have hnone : b.events = [] := (Batch.isEmpty_iff b).mp hempty
    simp only [history, Operation.course, Operation.answer, stop, hb, submit_empty _ id hnone]
    exact ⟨rfl, hgone⟩
  | false =>
    have hsome : b.events ≠ [] := mt (Batch.isEmpty_iff b).mpr (by simp [hempty])
    simp only [history, Operation.course, Operation.answer, stop, hb,
      submit_pending _ id hsome]
    exact ⟨rfl, hgone⟩

end Alone

/-- Each source is flushed or stopped once, and nothing else happens. -/
structure OncePerSource (r : Registry) (ops : List (Visit × Operation)) : Prop where
  clears : ∀ e ∈ ops, e.2.clears = true
  once : ∀ id b, r.batches.find? id = some b →
    ∃ v op, soloOperations id ops = [(v, op)] ∧ (op = .flush id ∨ op = .stop id)

section Whole

variable {r : Registry} {ops ops' : List (Visit × Operation)} (hapart : r.Apart)
  (remote : List Call → Call → Reply) (calls : List Call)
include hapart

theorem history_mirrored (hops : ∀ e ∈ ops, e.2.clears = true) (id : SourceId) :
    let run := r.history (byDestination remote) ops calls
    let alone := r.history (byDestination remote) (soloOperations id ops) calls
    Mirrored id run.turns alone.turns ∧ run.registry.Alike id alone.registry := by
  have hself : r.Alike id r := ⟨rfl, rfl, rfl⟩
  refine hself.mirrored (D := fun d => ∃ b, r.batches.find? id = some b ∧ b.destination = d)
    remote ops (fun _ _ => rfl) fun x hx => ?_
  obtain ⟨c, hc, hd⟩ := history_addressed hops x hx
  constructor
  · rintro rfl
    exact ⟨c, hc, hd⟩
  · rintro ⟨b, hb, hbd⟩
    exact (hapart.soleAt x.1.call.destination).source_eq hb hc hbd hd

theorem OncePerSource.submits (h : OncePerSource r ops) :
    (((r.history (byDestination remote) ops calls).turns.flatMap (·.exchanges)).map
      Exchange.content).Perm (r.unsent.map (sent remote calls)) := by
  have hsource : ∀ c ∈ ((r.history (byDestination remote) ops calls).turns.flatMap
      (·.exchanges)).map Exchange.content, c.1 ∈ r.batches.ids := by
    intro c hc
    obtain ⟨x, hx, rfl⟩ := List.mem_map.mp hc
    obtain ⟨b, hb, -⟩ := history_addressed h.clears x hx
    exact Roster.mem_ids.mpr (hb ▸ rfl)
  have hown : ∀ e ∈ r.batches.entries, (((r.history (byDestination remote) ops calls).turns.flatMap
      (·.exchanges)).map Exchange.content).filter (fun c => c.1 = e.1) =
      if e.2.isEmpty then [] else [sent remote calls e] := by
    rintro ⟨id, b⟩ he
    have hb : r.batches.find? id = some b := Roster.find?_eq_some.mpr he
    have hcalls := (history_mirrored hapart remote calls h.clears id).1.calls
    obtain ⟨v, op, halone, rfl | rfl⟩ := h.once id b hb
    · rw [halone, (Registry.flush_alone remote calls v hb).1] at hcalls
      exact List.filter_map.trans hcalls
    · rw [halone, (Registry.stop_alone remote calls v hb).1] at hcalls
      exact List.filter_map.trans hcalls
  have hpending : (r.batches.entries.flatMap fun e =>
      if e.2.isEmpty then [] else [sent remote calls e]) = r.unsent.map (sent remote calls) := by
    unfold Registry.unsent
    induction r.batches.entries with
    | nil => rfl
    | cons e rest ih => cases hempty : e.2.isEmpty <;> simp [hempty, ih]
  refine (perm_groups (·.1) r.batches.ids_nodup hsource).trans (List.Perm.of_eq ?_)
  rw [← hpending, Roster.ids, List.flatMap_map]
  exact List.flatMap_congr hown

theorem callsTo_eq_of_submits {made made' : List (SourceId × Call × Reply)}
    (h : made.Perm (r.unsent.map (sent remote calls)))
    (h' : made'.Perm (r.unsent.map (sent remote calls))) (d : Destination) :
    callsTo d (made.map (·.2.1)) = callsTo d (made'.map (·.2.1)) := by
  -- There is no order to speak of: nothing is submitted to one stream twice.
  have honce : (r.unsent.map (sent remote calls)).Pairwise
      fun c c' => c.2.1.destination ≠ c'.2.1.destination := by
    have hpending : r.unsent.Sublist r.batches.entries := List.filter_sublist
    exact List.pairwise_map.mpr ((List.pairwise_map.mp hapart).sublist hpending)
  have hat {made : List (SourceId × Call × Reply)}
      (h : made.Perm (r.unsent.map (sent remote calls))) :
      (callsTo d (made.map (·.2.1))).Pairwise fun c c' => c.destination ≠ c'.destination := by
    have hmade : made.Pairwise fun c c' => c.2.1.destination ≠ c'.2.1.destination :=
      (h.pairwise_iff fun hne => hne.symm).mpr honce
    exact List.Pairwise.filter _ (List.pairwise_map.mpr hmade)
  refine List.Perm.eq_of_pairwise (fun c c' hc hc' hne _ => ?_) (hat h) (hat h')
    (((h.trans h'.symm).map _).filter _)
  have hd : c.destination = d := by simpa using (List.mem_filter.mp hc).2
  have hd' : c'.destination = d := by simpa using (List.mem_filter.mp hc').2
  exact absurd (hd.trans hd'.symm) hne

/-- The counters and the calls to each stream come out the same, however the sources are gone
through. -/
theorem OncePerSource.agree (h : OncePerSource r ops) (h' : OncePerSource r ops') :
    let run := r.history (byDestination remote) ops calls
    let run' := r.history (byDestination remote) ops' calls
    run.registry.tally = run'.registry.tally ∧
      ∀ d, callsTo d run.state = callsTo d run'.state := by
  intro run run'
  have hsubmits := h.submits hapart remote calls
  have hsubmits' := h'.submits hapart remote calls
  constructor
  · rw [history_tally h.clears, history_tally h'.clears]
    exact Tally.foldl_exchanged_perm (hsubmits.trans hsubmits'.symm) r.tally
  · intro d
    have hcalls := callsTo_eq_of_submits hapart remote calls hsubmits hsubmits' d
    simp only [List.map_map] at hcalls
    rw [(history_answered (byDestination remote) r ops calls).byDestination,
      (history_answered (byDestination remote) r ops' calls).byDestination]
    unfold callsTo at hcalls ⊢
    rw [List.filter_append, List.filter_append]
    exact congrArg _ hcalls

end Whole

/-! ### One operation for each source -/

theorem soloOperations_each {f : SourceId → Operation}
    (hf : ∀ id k, (f k).solo id = if k = id then some (f k) else none) {ids : List SourceId}
    (hids : ids.Nodup) (v : Visit) (id : SourceId) :
    soloOperations id (ids.map fun k => (v, f k)) = if id ∈ ids then [(v, f id)] else [] := by
  induction ids with
  | nil => rfl
  | cons k rest ih =>
    obtain ⟨hk, hrest⟩ := List.nodup_cons.mp hids
    have hlater := ih hrest
    by_cases heq : k = id
    · have hsolo : (f k).solo id = some (f k) := (hf id k).trans (if_pos heq)
      have hnow : soloOperations id ((k :: rest).map fun k => (v, f k)) =
          (v, f k) :: soloOperations id (rest.map fun k => (v, f k)) := by
        simp [soloOperations, hsolo]
      subst heq
      rw [hnow, hlater, if_neg hk, if_pos (List.mem_cons_self ..)]
    · have hsolo : (f k).solo id = none := (hf id k).trans (if_neg heq)
      have hnow : soloOperations id ((k :: rest).map fun k => (v, f k)) =
          soloOperations id (rest.map fun k => (v, f k)) := by
        simp [soloOperations, hsolo]
      have hmem : id ∈ k :: rest ↔ id ∈ rest := by simp [Ne.symm heq]
      simp only [hnow, hlater, hmem]

def each (f : SourceId → Operation) (ids : List SourceId) : List (Visit × Operation) :=
  ids.map fun id => (.byName, f id)

section Each

variable {r : Registry} {ids : List SourceId} (hids : ids.Perm r.batches.ids) (v : Visit)

theorem oncePerSource_sweep : OncePerSource r [(v, .sweep)] where
  clears := List.forall_mem_singleton.mpr rfl
  once id _ _ := ⟨v, .flush id, rfl, Or.inl rfl⟩

theorem oncePerSource_shutdown : OncePerSource r [(v, .shutdown)] where
  clears := List.forall_mem_singleton.mpr rfl
  once id _ _ := ⟨v, .stop id, rfl, Or.inr rfl⟩

include hids

theorem soloOperations_registered {f : SourceId → Operation}
    (hf : ∀ id k, (f k).solo id = if k = id then some (f k) else none) (id : SourceId) :
    soloOperations id (each f ids) =
      if (r.batches.find? id).isSome then [(.byName, f id)] else [] := by
  have hmem : id ∈ ids ↔ (r.batches.find? id).isSome := hids.mem_iff.trans Roster.mem_ids
  rw [each, soloOperations_each hf (hids.nodup_iff.mpr r.batches.ids_nodup)]
  simp only [hmem]

theorem oncePerSource_flushes : OncePerSource r (each .flush ids) where
  clears := List.forall_mem_map.mpr fun _ _ => rfl
  once id b hb := by
    rw [soloOperations_registered hids fun _ _ => rfl, if_pos (hb ▸ rfl)]
    exact ⟨_, _, rfl, Or.inl rfl⟩

theorem oncePerSource_stops : OncePerSource r (each .stop ids) where
  clears := List.forall_mem_map.mpr fun _ _ => rfl
  once id b hb := by
    rw [soloOperations_registered hids fun _ _ => rfl, if_pos (hb ▸ rfl)]
    exact ⟨_, _, rfl, Or.inr rfl⟩

end Each

/-! ### What a sweep reports -/

theorem SweepReport.add_settle (s : SweepReport) (b : Batch) (a : Answer) :
    s.add (b.settle a).2 =
      if a.stores then { s with flushed := s.flushed + 1, events := s.events + b.size }
      else { s with failed := s.failed + 1 } := by
  rcases a with e | _
  · cases e <;> rfl
  · rfl

theorem Registry.flush_yields_pending {r r' : Registry} {id : SourceId} {b : Batch}
    {ex : List Exchange} {stored : Except RemoteError Nat} (hb : r.batches.find? id = some b)
    (hpending : b.events ≠ []) (h : (r.flush id).Yields ex (r', stored)) :
    ∃ reply, ex = [(r.submission id b, reply)] ∧ stored = (b.settle (r.heed reply)).2 := by
  rw [flush_some hb] at h
  obtain ⟨first, ⟨r₁, b', stored'⟩, second, hfirst, hsecond, rfl⟩ := Dialogue.yields_bind.mp h
  obtain ⟨rfl, hout⟩ := Dialogue.yields_done.mp hsecond
  obtain ⟨-, rfl⟩ := Prod.mk.inj hout
  rcases submit_yields hfirst with ⟨hnone, -⟩ | ⟨-, reply, rfl, -, -, rfl⟩
  · exact absurd hnone hpending
  · exact ⟨reply, rfl, rfl⟩

theorem Registry.sweepOver_report {r r' : Registry} {report report' : SweepReport}
    {ids : List SourceId} {ex : List Exchange}
    (h : (r.sweepOver report ids).Yields ex (r', report')) :
    report'.flushed = report.flushed + ex.countP (fun x => (x.1.registry.heed x.2).stores) ∧
      report'.flushed + report'.failed = report.flushed + report.failed + ex.length ∧
      report'.events = report.events + (ex.flatMap storedBy).length := by
  induction ids generalizing r report ex with
  | nil =>
    obtain ⟨rfl, hout⟩ := Dialogue.yields_done.mp h
    obtain ⟨-, rfl⟩ := Prod.mk.inj hout
    exact ⟨rfl, rfl, rfl⟩
  | cons id rest ih =>
    unfold sweepOver at h
    split at h
    · exact ih h
    · rename_i b hb
      split at h
      · exact ih h
      · rename_i hpending
        obtain ⟨first, ⟨r₁, stored⟩, second, hfirst, hsecond, rfl⟩ := Dialogue.yields_bind.mp h
        obtain ⟨reply, rfl, rfl⟩ :=
          flush_yields_pending hb (mt (Batch.isEmpty_iff b).mpr hpending) hfirst
        obtain ⟨hflushed, hboth, hevents⟩ := ih hsecond
        have hsize : storedBy (r.submission id b, reply) =
            if (r.heed reply).stores then b.events else [] := rfl
        rw [SweepReport.add_settle] at hflushed hboth hevents
        simp only [List.singleton_append, List.countP_cons, List.length_cons, List.flatMap_cons,
          List.length_append, hsize]
        cases hstores : (r.heed reply).stores with
        | true =>
          simp only [hstores, if_true] at hflushed hboth hevents ⊢
          simp only [submission, hstores, if_true]
          refine ⟨by omega, by omega, ?_⟩
          rw [hevents, Batch.size, Nat.add_assoc]
        | false =>
          simp only [hstores, Bool.false_eq_true, if_false] at hflushed hboth hevents ⊢
          simp only [submission, hstores, Bool.false_eq_true, if_false, List.length_nil]
          omega

def Turn.flushed (id : SourceId) (t : Turn) : Bool :=
  match t.operation, t.outcome with
  | .flush k, .flushed stored => k = id && stored.isOk
  | _, _ => false

section Each

variable {r : Registry} {ids : List SourceId} (hapart : r.Apart)
  (remote : List Call → Call → Reply) (calls : List Call)
include hapart

theorem flushed_eq_stores (hids : ids.Perm r.batches.ids) {id : SourceId} {b : Batch}
    (hb : r.batches.find? id = some b) (hpending : b.isEmpty = false) :
    (r.history (byDestination remote) (each .flush ids) calls).turns.any (·.flushed id) =
      (r.heed (sent remote calls (id, b)).2.2).stores := by
  obtain ⟨hmirrored, -⟩ :=
    history_mirrored hapart remote calls (oncePerSource_flushes hids).clears id
  have halone := (Registry.flush_alone remote calls .byName hb).2
  rw [soloOperations_registered hids (fun _ _ => rfl), if_pos (hb ▸ rfl)] at hmirrored
  have hown {t : Turn} (ht : t ∈ (r.history (byDestination remote) (each .flush ids) calls).turns)
      (hop : t.operation = .flush id) :
      t.flushed id = (r.heed (sent remote calls (id, b)).2.2).stores := by
    have hsolo : t.operation.solo id = some (.flush id) := by simp [hop, Operation.solo]
    obtain ⟨t', ht', hmirrors⟩ := hmirrored.exists_mirrors ht hsolo
    obtain ⟨stored, hout, hok⟩ := halone t' ht'
    have hsame : t.outcome = t'.outcome := by
      refine (hmirrors.outcome ?_).symm
      exact (Option.some.inj (hmirrors.operation.symm.trans hsolo)).trans hop.symm
    simp [Turn.flushed, hop, hsame, hout, hok hpending]
  have hmem : Operation.flush id ∈
      (r.history (byDestination remote) (each .flush ids) calls).turns.map (·.operation) := by
    rw [history_operations, each, List.map_map]
    exact List.mem_map.mpr ⟨id, hids.mem_iff.mpr (Roster.mem_ids.mpr (hb ▸ rfl)), rfl⟩
  obtain ⟨t, ht, hop⟩ := List.mem_map.mp hmem
  rw [Bool.eq_iff_iff, List.any_eq_true]
  constructor
  · rintro ⟨u, hu, hflushed⟩
    have hop : u.operation = .flush id := by
      unfold Turn.flushed at hflushed
      split at hflushed
      · rename_i k _ hop _
        have hk : k = id := by simpa using (Bool.and_eq_true_iff.mp hflushed).1
        exact hop.trans (hk ▸ rfl)
      · cases hflushed
    exact (hown hu hop).symm.trans hflushed
  · exact fun hstores => ⟨t, ht, (hown ht hop).trans hstores⟩

theorem sweep_report (v : Visit) :
    let report := ((r.sweep v).run (byDestination remote) calls).result.2
    let stored := fun e => (r.heed (sent remote calls e).2.2).stores
    report.flushed = r.unsent.countP stored ∧
      report.flushed + report.failed = r.unsent.length ∧
      report.events = ((r.unsent.filter stored).map (·.2.size)).sum := by
  intro report stored
  let swept := (r.sweep v).run (byDestination remote) calls
  have hreport := Registry.sweepOver_report (Dialogue.run_yields (byDestination remote)
    (r.sweep v) calls : (r.sweep v).Yields swept.exchanges (swept.result.1, report))
  have hsubmits : (swept.exchanges.map Exchange.content).Perm
      (r.unsent.map (sent remote calls)) := by
    have h := (oncePerSource_sweep v).submits hapart remote calls
    simpa [Registry.history, Operation.course, Operation.answer, Dialogue.run_bind, Dialogue.run]
      using h
  obtain ⟨hflushed, hboth, hevents⟩ := hreport
  have hunder (x : Exchange) : (x.1.registry.heed x.2).stores = (r.heed x.content.2.2).stores := by
    rcases x with ⟨_, _ | _⟩ <;> rfl
  refine ⟨?_, ?_, ?_⟩
  · simp only [hunder] at hflushed
    have hcount := hsubmits.countP_eq fun c => (r.heed c.2.2).stores
    rw [List.countP_map, List.countP_map] at hcount
    exact hflushed.trans ((Nat.zero_add _).trans hcount)
  · have hlength := hsubmits.length_eq
    rw [List.length_map, List.length_map] at hlength
    rw [hboth, hlength]
    exact Nat.zero_add _
  · have hsize (e : SourceId × Batch) : (storedBy (.under r (sent remote calls e))).length =
        if stored e then e.2.size else 0 :=
      (apply_ite List.length _ _ _).trans rfl
    have hsum := (hsubmits.map fun c => (storedBy (.under r c)).length).sum_nat
    simp only [List.map_map, Function.comp_def, storedBy_under, hsize] at hsum
    rw [List.sum_map_ite fun e => stored e = true] at hsum
    rw [hevents, List.length_flatMap, hsum]
    simp

/-- Nobody can tell two runs apart afterwards: the batches are the same, and the counters, and what
each stream was asked. -/
structure SameEnd (r r' : Registry) (calls calls' : List Call) : Prop where
  batches : r.batches = r'.batches
  tally : r.tally = r'.tally
  calls : ∀ d, callsTo d calls = callsTo d calls'

theorem sameEnd_each {op : Operation} {f : SourceId → Operation} (hids : ids.Perm r.batches.ids)
    (v : Visit) (hop : OncePerSource r [(v, op)]) (heach : OncePerSource r (each f ids))
    (hall : ∀ id, op.solo id = some (f id))
    (hone : ∀ id k, (f k).solo id = if k = id then some (f k) else none)
    (hvisit : ∀ id, (f id).course v r = (f id).course .byName r)
    (hunknown : ∀ id, r.batches.find? id = none → ∃ out, (f id).course v r = .done (r, out)) :
    let whole := r.history (byDestination remote) [(v, op)] calls
    let apiece := r.history (byDestination remote) (each f ids) calls
    SameEnd whole.registry apiece.registry whole.state apiece.state := by
  intro whole apiece
  obtain ⟨htally, hcalls⟩ := hop.agree hapart remote calls heach
  refine ⟨Roster.ext_find? fun id => ?_, htally, hcalls⟩
  have hwhole := (history_mirrored hapart remote calls hop.clears id).2
  have hapiece := (history_mirrored hapart remote calls heach.clears id).2
  have halone : soloOperations id [(v, op)] = [(v, f id)] := by simp [soloOperations, hall]
  rw [soloOperations_registered hids hone] at hapiece
  rw [halone] at hwhole
  cases hb : r.batches.find? id with
  | some b =>
    rw [if_pos (hb ▸ rfl)] at hapiece
    simp only [Registry.history, hvisit] at hwhole hapiece
    exact hwhole.found.symm.trans hapiece.found
  | none =>
    rw [if_neg (by simp [hb])] at hapiece
    obtain ⟨out, hidle⟩ := hunknown id hb
    simp only [Registry.history, hidle] at hwhole
    exact hwhole.found.symm.trans hapiece.found

/-- If no two sources write to one stream and the remote answers by destination, a sweep in any
order comes to the same as a flush of each source in any order, and a shutdown to the same as a stop
of each. What is pending is submitted once for every source, and a sweep reports how often that was
done, and for how many events with success. -/
theorem bulk_by_source (hids : ids.Perm r.batches.ids) (v : Visit) :
    let swept := (r.sweep v).run (byDestination remote) calls
    let flushes := r.history (byDestination remote) (each .flush ids) calls
    let down := (r.shutdown v).run (byDestination remote) calls
    let stops := r.history (byDestination remote) (each .stop ids) calls
    let succeeds := fun e => flushes.turns.any (·.flushed e.1)
    (SameEnd swept.result.1 flushes.registry swept.state flushes.state ∧
      (swept.exchanges.map Exchange.content).Perm (r.unsent.map (sent remote calls)) ∧
      swept.result.2.flushed = r.unsent.countP succeeds ∧
      swept.result.2.flushed + swept.result.2.failed = r.unsent.length ∧
      swept.result.2.events = ((r.unsent.filter succeeds).map (·.2.size)).sum) ∧
    SameEnd down.result.1 stops.registry down.state stops.state ∧
      (down.exchanges.map Exchange.content).Perm (r.unsent.map (sent remote calls)) ∧
      down.result.1.batches = Roster.empty ∧ down.result.2 = r.batches.size := by
  intro swept flushes down stops succeeds
  have hsweep := sameEnd_each hapart remote calls hids v (oncePerSource_sweep v)
    (oncePerSource_flushes hids) (fun _ => rfl) (fun _ _ => rfl) (fun _ => rfl)
    fun id hb => ⟨_, by rw [Operation.course, Registry.flush_none hb]; rfl⟩
  have hshutdown := sameEnd_each hapart remote calls hids v (oncePerSource_shutdown v)
    (oncePerSource_stops hids) (fun _ => rfl) (fun _ _ => rfl) (fun _ => rfl)
    fun id hb => ⟨_, by rw [Operation.course, Registry.stop, hb]; rfl⟩
  have hsubmits := (oncePerSource_sweep v).submits hapart remote calls
  have hlast := (oncePerSource_shutdown v).submits hapart remote calls
  simp only [Registry.history, Operation.course, Operation.answer, Dialogue.run_bind, Dialogue.run,
    List.flatMap_singleton, List.append_nil] at hsweep hshutdown hsubmits hlast
  obtain ⟨hflushed, hboth, hevents⟩ := sweep_report hapart remote calls v
  have hsucceeds : ∀ e ∈ r.unsent,
      succeeds e = (r.heed (sent remote calls e).2.2).stores := by
    intro e he
    obtain ⟨he, hpending⟩ := List.mem_filter.mp he
    exact flushed_eq_stores hapart remote calls hids (Roster.find?_eq_some.mpr he)
      (by simpa using hpending)
  have hdown : (r.shutdown v).Yields down.exchanges (down.result.1, down.result.2) :=
    Dialogue.run_yields (byDestination remote) (r.shutdown v) calls
  obtain ⟨first, ⟨r₁, ⟨⟩⟩, second, -, hreturned, -⟩ := Dialogue.yields_bind.mp hdown
  obtain ⟨-, hout⟩ := Dialogue.yields_done.mp hreturned
  refine ⟨⟨hsweep, hsubmits, ?_, hboth, ?_⟩, hshutdown, hlast, ?_, ?_⟩
  · exact hflushed.trans (List.countP_congr fun e he => by rw [hsucceeds e he])
  · have hfilter := List.filter_congr fun e he => (hsucceeds e he).symm
    exact hevents.trans (congrArg (fun l => (l.map (·.2.size)).sum) hfilter)
  · exact (Registry.shutdown_yields hdown).1
  · exact (Prod.mk.inj hout).2

end Each

def oneSilent (_ : List Call) (c : Call) : Reply :=
  if c.destination = ⟨"g", "t"⟩ then none else some (.ok (some "k"))

def backwards : Visit := ⟨List.reverse, List.reverse_perm⟩

def threesome : History (List Call) :=
  (Registry.new {} .zero).history (byDestination oneSilent)
    ([.start "a" ⟨"g", "s"⟩, .start "b" ⟨"g", "t"⟩, .start "c" ⟨"g", "u"⟩, .handle "a" ⟨1, "x"⟩,
      .handle "b" ⟨2, "y"⟩, .handle "a" ⟨3, "z"⟩].map (.byName, ·)) []

theorem bulk_by_source_threesome :
    let r := threesome.registry
    let swept := (r.sweep backwards).run (byDestination oneSilent) threesome.state
    let flushes := r.history (byDestination oneSilent) (each .flush ["b", "c", "a"]) threesome.state
    let down := (r.shutdown backwards).run (byDestination oneSilent) threesome.state
    r.Apart ∧ ["b", "c", "a"].Perm r.batches.ids ∧ swept.result.2 = ⟨1, 1, 2⟩ ∧
      down.result.2 = 3 ∧ SameEnd swept.result.1 flushes.registry swept.state flushes.state := by
  have hapart : threesome.registry.Apart := by decide +kernel
  have hids : ["b", "c", "a"].Perm threesome.registry.batches.ids := by decide +kernel
  have hbulk := bulk_by_source hapart oneSilent threesome.state hids backwards
  exact ⟨hapart, hids, by decide +kernel, by decide +kernel, hbulk.1.1⟩

end LogRelay
