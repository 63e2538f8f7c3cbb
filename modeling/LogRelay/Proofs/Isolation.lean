import LogRelay.Proofs.Coupling
import LogRelay.Proofs.History

/-! Sources do not disturb one another. As long as a source has its destinations to itself, what
becomes of it in a run is what becomes of it alone. -/

namespace LogRelay

def Operation.solo (id : SourceId) : Operation → Option Operation
  | start k d => if k = id then some (start k d) else none
  | stop k => if k = id then some (stop k) else none
  | handle k e => if k = id then some (handle k e) else none
  | flush k => if k = id then some (flush k) else none
  | sweep => some (flush id)
  | shutdown => some (stop id)
  | contains k => if k = id then some (contains k) else none
  | size => none
  | copyBatch k => if k = id then some (copyBatch k) else none

namespace Registry

/-- Two registries that are the same to a source. -/
structure Alike (id : SourceId) (r r' : Registry) : Prop where
  found : r'.batches.find? id = r.batches.find? id
  limits : r'.limits = r.limits
  callTimeout : r'.callTimeout = r.callTimeout

variable {id k : SourceId} {r r' : Registry} {b : Batch}

theorem Alike.heed (h : r.Alike id r') (reply : Reply) : r'.heed reply = r.heed reply := by
  rw [Registry.heed, h.callTimeout]
  rfl

theorem Alike.count (h : r.Alike id r') (f : Tally → Tally) :
    (r.count f).Alike id (r'.count f) := ⟨h.found, h.limits, h.callTimeout⟩

theorem Alike.count_left (h : r.Alike id r') (f : Tally → Tally) : (r.count f).Alike id r' :=
  ⟨h.found, h.limits, h.callTimeout⟩

theorem Alike.put (h : r.Alike id r') (b : Batch) : (r.put id b).Alike id (r'.put id b) := by
  refine ⟨?_, h.limits, h.callTimeout⟩
  rw [find?_put, find?_put, if_pos rfl, if_pos rfl, h.found]

theorem Alike.put_other (h : r.Alike id r') (hk : k ≠ id) (b : Batch) :
    (r.put k b).Alike id r' := by
  refine ⟨?_, h.limits, h.callTimeout⟩
  rw [find?_put, if_neg hk.symm, h.found]

def Unaware {α β : Type} (id : SourceId) (a : Registry × α) (a' : Registry × β) : Prop :=
  a.1.Alike id a'.1

def Same {α : Type} (id : SourceId) (a a' : Registry × α) : Prop := a.1.Alike id a'.1 ∧ a'.2 = a.2

/-! ### Others' operations -/

section Aside
variable {β : Type} (x : β)

theorem submit_aside (h : r.Alike id r') (hk : k ≠ id) (b : Batch) :
    Follows id (Unaware id) (r.submit k b) (.done (r', x)) := by
  unfold submit
  split
  · exact .done h
  · exact .aside hk fun reply => .done (h.count_left (·.submitted b.size (r.heed reply)))

theorem flush_aside (h : r.Alike id r') (hk : k ≠ id) :
    Follows id (Unaware id) (r.flush k) (.done (r', x)) := by
  unfold flush
  split
  · exact .done h
  · exact (submit_aside x h hk _).then_aside fun _ _ ha => .done (Alike.put_other ha hk _)

theorem start_aside (h : r.Alike id r') (hk : k ≠ id) (d : Destination) :
    Follows id (Unaware id) (r.start k d) (.done (r', x)) := by
  unfold start
  split
  · exact .done h
  · refine .aside hk fun reply => .done ⟨?_, h.limits, h.callTimeout⟩
    rw [Roster.find?_insert, if_neg hk.symm, h.found]

theorem stop_aside (h : r.Alike id r') (hk : k ≠ id) :
    Follows id (Unaware id) (r.stop k) (.done (r', x)) := by
  unfold stop
  split
  · exact .done h
  · refine Follows.then_aside (submit_aside x ?_ hk _) fun _ _ ha => .done ha
    refine ⟨?_, h.limits, h.callTimeout⟩
    rw [Roster.find?_erase, if_neg hk.symm, h.found]

theorem handle_aside (h : r.Alike id r') (hk : k ≠ id) (e : LogEvent) :
    Follows id (Unaware id) (r.handle k e) (.done (r', x)) := by
  unfold handle
  split
  · exact .done (h.count_left _)
  · split
    · exact .done (h.count_left _)
    · split
      · exact .done ((h.put_other hk _).count_left _)
      · refine (submit_aside x h hk _).then_aside fun a a' ha => ?_
        have hput (b : Batch) := Alike.put_other ha hk b
        dsimp only
        split
        · exact .done ((hput _).count_left _)
        · exact .done ((hput _).count_left _)

theorem sweepOver_aside (h : r.Alike id r') (report : SweepReport) {ids : List SourceId}
    (hids : id ∉ ids) : Follows id (Unaware id) (r.sweepOver report ids) (.done (r', x)) := by
  induction ids generalizing r r' x report with
  | nil => exact .done h
  | cons k rest ih =>
    obtain ⟨hk, hrest⟩ := not_or.mp (mt List.mem_cons.mpr hids)
    unfold sweepOver
    split
    · exact ih x h report hrest
    · split
      · exact ih x h report hrest
      · exact (flush_aside x h (Ne.symm hk)).then_aside fun a a' ha => ih a'.2 ha _ hrest

theorem drain_aside (h : r.Alike id r') {entries : List (SourceId × Batch)}
    (hentries : id ∉ entries.map (·.1)) :
    Follows id (Unaware id) (r.drain entries) (.done (r', x)) := by
  induction entries generalizing r r' x with
  | nil => exact .done h
  | cons entry rest ih =>
    obtain ⟨hk, hrest⟩ := not_or.mp (mt List.mem_cons.mpr hentries)
    exact (submit_aside x h (Ne.symm hk) _).then_aside fun a a' ha => ih a'.2 ha hrest

end Aside

/-! ### The source's own operations -/

theorem submit_follows (h : r.Alike id r') (b : Batch) :
    Follows id (Same id) (r.submit id b) (r'.submit id b) := by
  unfold submit
  split
  · exact .done ⟨h, rfl⟩
  · refine .ask rfl rfl rfl fun reply => .done ?_
    rw [h.heed]
    exact ⟨h.count (·.submitted b.size (r.heed reply)), rfl⟩

theorem flush_follows (h : r.Alike id r') : Follows id (Same id) (r.flush id) (r'.flush id) := by
  unfold flush
  rw [h.found]
  split
  · exact .done ⟨h, rfl⟩
  · refine (submit_follows h _).bind fun ⟨r₁, a⟩ ⟨r₁', a'⟩ ⟨hr, ha⟩ => ?_
    obtain rfl : a' = a := ha
    exact .done ⟨hr.put _, rfl⟩

theorem start_follows (h : r.Alike id r') (d : Destination) :
    Follows id (Same id) (r.start id d) (r'.start id d) := by
  unfold start
  rw [Roster.contains, Roster.contains, h.found]
  split
  · exact .done ⟨h, rfl⟩
  · refine .ask rfl rfl rfl fun reply => .done ⟨⟨?_, h.limits, h.callTimeout⟩, rfl⟩
    rw [Roster.find?_insert, Roster.find?_insert, if_pos rfl, if_pos rfl, h.heed, h.limits]

theorem stop_follows (h : r.Alike id r') : Follows id (Same id) (r.stop id) (r'.stop id) := by
  unfold stop
  rw [h.found]
  split
  · exact .done ⟨h, rfl⟩
  · refine Follows.bind (submit_follows (r := { r with batches := r.batches.erase id }) ?_ _)
      fun a a' ha => .done ⟨ha.1, rfl⟩
    refine ⟨?_, h.limits, h.callTimeout⟩
    rw [Roster.find?_erase, Roster.find?_erase, if_pos rfl, if_pos rfl]

theorem handle_follows (h : r.Alike id r') (e : LogEvent) :
    Follows id (Same id) (r.handle id e) (r'.handle id e) := by
  unfold handle
  rw [h.found, h.limits]
  split
  · exact .done ⟨h.count _, rfl⟩
  · split
    · exact .done ⟨h.count _, rfl⟩
    · split
      · exact .done ⟨(h.put _).count _, rfl⟩
      · refine (submit_follows h _).bind fun ⟨r₁, a⟩ ⟨r₁', a'⟩ ⟨hr, ha⟩ => ?_
        obtain rfl : a' = a := ha
        dsimp only
        split
        · exact .done ⟨(hr.put _).count _, rfl⟩
        · exact .done ⟨(hr.put _).count _, rfl⟩

/-! ### Operations on all sources -/

theorem sweepOver_follows (h : r.Alike id r') (report : SweepReport) {ids : List SourceId}
    (hids : ids.Nodup) (hid : id ∈ ids) :
    Follows id (Unaware id) (r.sweepOver report ids) (r'.flush id) := by
  induction ids generalizing r r' report with
  | nil => cases hid
  | cons k rest ih =>
    obtain ⟨hk, hrest⟩ := List.nodup_cons.mp hids
    by_cases heq : k = id
    · -- The source's turn, and the only one.
      subst heq
      unfold sweepOver
      split
      · rename_i hnone
        rw [flush_none (h.found.trans hnone)]
        exact sweepOver_aside _ h report hk
      · rename_i b hsome
        split
        · rename_i hempty
          have hidle := submit_empty r' k ((Batch.isEmpty_iff b).mp hempty)
          rw [flush_some (h.found.trans hsome), hidle]
          have hput : r.Alike k (r'.put k b) :=
            ⟨(put_found (h.found.trans hsome) b).trans hsome.symm, h.limits, h.callTimeout⟩
          exact sweepOver_aside _ hput report hk
        · exact (flush_follows h).then_aside fun a a' ha => sweepOver_aside a'.2 ha.1 _ hk
    · have hlater : id ∈ rest := (List.mem_cons.mp hid).resolve_left (Ne.symm heq)
      unfold sweepOver
      split
      · exact ih h report hrest hlater
      · split
        · exact ih h report hrest hlater
        · have hnext (a : Registry × Except RemoteError Nat) (a' : Registry × Unit)
              (ha : Unaware id a a') : Follows id (Unaware id)
                (a.1.sweepOver (report.add a.2) rest) (a'.1.flush id) := ih ha _ hrest hlater
          have hboth := (flush_aside () h heq).bind hnext
          exact hboth

theorem sweep_follows (h : r.Alike id r') (v : Visit) :
    Follows id (Unaware id) (r.sweep v) (r'.flush id) := by
  cases hb : r.batches.find? id with
  | none =>
    rw [flush_none (h.found.trans hb)]
    exact sweepOver_aside _ h _ (by simp [Visit.mem, hb])
  | some b => exact sweepOver_follows h _ (v.nodup r.batches) (by simp [Visit.mem, hb])

theorem drain_follows (h : r.Alike id r') {entries : List (SourceId × Batch)}
    (hentries : (entries.map (·.1)).Nodup) (hb : (id, b) ∈ entries) :
    Follows id (Unaware id) (r.drain entries) (r'.submit id b) := by
  induction entries generalizing r r' with
  | nil => cases hb
  | cons entry rest ih =>
    obtain ⟨hk, hrest⟩ := List.nodup_cons.mp hentries
    rcases List.mem_cons.mp hb with rfl | hlater
    · exact (submit_follows h b).then_aside fun a a' ha => drain_aside a'.2 ha.1 hk
    · have hne : entry.1 ≠ id := fun heq => hk (List.mem_map.mpr ⟨_, hlater, heq.symm⟩)
      have hnext (a : Registry × Batch × Except RemoteError Nat) (a' : Registry × Unit)
          (ha : Unaware id a a') :
          Follows id (Unaware id) (a.1.drain rest) (a'.1.submit id b) := ih ha hrest hlater
      have hboth := (submit_aside () h hne entry.2).bind hnext
      exact hboth

theorem shutdown_follows (h : r.Alike id r') (v : Visit) :
    Follows id (Unaware id) (r.shutdown v) (r'.stop id) := by
  have hkeys : ((r.batches.along v).map (·.1)).Nodup := Roster.along_ids .. ▸ v.nodup r.batches
  unfold stop
  rw [h.found]
  split
  · rename_i hnone
    have hempty : Alike id { r with batches := Roster.empty } r' :=
      ⟨h.found.trans hnone, h.limits, h.callTimeout⟩
    have hout : id ∉ (r.batches.along v).map (·.1) := by
      simp [Roster.along_ids, Visit.mem, hnone]
    exact (drain_aside () hempty hout).then_aside fun _ _ ha => .done ha
  · rename_i b hsome
    have hempty : Alike id { r with batches := Roster.empty }
        { r' with batches := r'.batches.erase id } := by
      refine ⟨?_, h.limits, h.callTimeout⟩
      rw [Roster.find?_erase, if_pos rfl]
      rfl
    exact (drain_follows hempty hkeys (Roster.mem_along.mpr hsome)).bind fun _ _ ha => .done ha

end Registry

namespace Operation

variable {id : SourceId} {r r' : Registry} {op op' : Operation}

def Agree (id : SourceId) (op op' : Operation) (a a' : Registry × Outcome) : Prop :=
  a.1.Alike id a'.1 ∧ (op' = op → a'.2 = a.2)

theorem course_follows (h : r.Alike id r') (v : Visit) (hsolo : op.solo id = some op') :
    Follows id (Agree id op op') (op.course v r) (op'.course v r') := by
  have hown {α : Type} {f : α → Outcome} {c c' : Course α}
      (hc : Follows id (Registry.Same id) c c') :
      Follows id (Agree id op op') (answer f c) (answer f c') := by
    refine hc.bind fun a a' ha => .done ⟨ha.1, fun _ => ?_⟩
    exact congrArg f ha.2
  have hall {α β : Type} {f : α → Outcome} {g : β → Outcome} {c : Course α} {c' : Course β}
      (hne : op' ≠ op) (hc : Follows id (Registry.Unaware id) c c') :
      Follows id (Agree id op op') (answer f c) (answer g c') :=
    hc.bind fun a a' ha => .done ⟨ha, fun heq => absurd heq hne⟩
  cases op with
  | start k d =>
    obtain ⟨rfl, rfl⟩ : k = id ∧ start k d = op' := by simpa [solo] using hsolo
    exact hown (f := fun _ => .finished) (Registry.start_follows h d)
  | stop k =>
    obtain ⟨rfl, rfl⟩ : k = id ∧ stop k = op' := by simpa [solo] using hsolo
    exact hown (f := fun _ => .finished) (Registry.stop_follows h)
  | handle k e =>
    obtain ⟨rfl, rfl⟩ : k = id ∧ handle k e = op' := by simpa [solo] using hsolo
    exact hown (Registry.handle_follows h e)
  | flush k =>
    obtain ⟨rfl, rfl⟩ : k = id ∧ flush k = op' := by simpa [solo] using hsolo
    exact hown (Registry.flush_follows h)
  | sweep =>
    obtain rfl := Option.some.inj hsolo
    exact hall nofun (Registry.sweep_follows h v)
  | shutdown =>
    obtain rfl := Option.some.inj hsolo
    exact hall (g := fun _ => .finished) nofun (Registry.shutdown_follows h v)
  | contains k =>
    obtain ⟨rfl, rfl⟩ : k = id ∧ contains k = op' := by simpa [solo] using hsolo
    exact .done ⟨h, fun _ => by rw [Roster.contains, Roster.contains, h.found]⟩
  | size => cases hsolo
  | copyBatch k =>
    obtain ⟨rfl, rfl⟩ : k = id ∧ copyBatch k = op' := by simpa [solo] using hsolo
    exact .done ⟨h, fun _ => by rw [h.found]⟩

theorem course_aside (h : r.Alike id r') (v : Visit) (hsolo : op.solo id = none) :
    Follows id (Registry.Unaware id) (op.course v r) (.done (r', ())) := by
  have hother {α : Type} {f : α → Outcome} {c : Course α}
      (hc : Follows id (Registry.Unaware id) c (.done (r', ()))) :
      Follows id (Registry.Unaware id) (answer f c) (.done (r', ())) :=
    hc.then_aside fun _ _ ha => .done ha
  cases op with
  | start k d =>
    have hk : k ≠ id := by simpa [solo] using hsolo
    exact hother (f := fun _ => .finished) (Registry.start_aside () h hk d)
  | stop k =>
    have hk : k ≠ id := by simpa [solo] using hsolo
    exact hother (f := fun _ => .finished) (Registry.stop_aside () h hk)
  | handle k e =>
    have hk : k ≠ id := by simpa [solo] using hsolo
    exact hother (Registry.handle_aside () h hk e)
  | flush k =>
    have hk : k ≠ id := by simpa [solo] using hsolo
    exact hother (Registry.flush_aside () h hk)
  | sweep | shutdown => cases hsolo
  | contains | size | copyBatch => exact .done h

end Operation

/-! ### Whole runs -/

structure Turn.Mirrors (id : SourceId) (t t' : Turn) : Prop where
  operation : t.operation.solo id = some t'.operation
  outcome : t'.operation = t.operation → t'.outcome = t.outcome
  calls : (madeFor id t.exchanges).map Exchange.content = t'.exchanges.map Exchange.content
  batch : t'.after.batches.find? id = t.after.batches.find? id

/-- Turn by turn, the second run is to the source what the first one is, with the turns left out
that do nothing for it. -/
inductive Mirrored (id : SourceId) : List Turn → List Turn → Prop where
  | nil : Mirrored id [] []
  | other {t : Turn} {turns turns' : List Turn} (hop : t.operation.solo id = none)
      (hcalls : madeFor id t.exchanges = [])
      (hbatch : t.after.batches.find? id = t.before.batches.find? id)
      (h : Mirrored id turns turns') : Mirrored id (t :: turns) turns'
  | own {t t' : Turn} {turns turns' : List Turn} (ht : t.Mirrors id t')
      (h : Mirrored id turns turns') : Mirrored id (t :: turns) (t' :: turns')

def soloOperations (id : SourceId) (ops : List (Visit × Operation)) : List (Visit × Operation) :=
  ops.filterMap fun (v, op) => (op.solo id).map (v, ·)

theorem Registry.Alike.mirrored {id : SourceId} {r r' : Registry} (h : r.Alike id r')
    {D : Destination → Prop} (remote : List Call → Call → Reply) (ops : List (Visit × Operation))
    {calls calls' : List Call} (hcalls : Concur D calls calls')
    (hown : ∀ x ∈ (r.history (byDestination remote) ops calls).turns.flatMap (·.exchanges),
      x.1.source = id ↔ D x.1.call.destination) :
    let run := r.history (byDestination remote) ops calls
    let alone := r'.history (byDestination remote) (soloOperations id ops) calls'
    Mirrored id run.turns alone.turns ∧ run.registry.Alike id alone.registry := by
  induction ops generalizing r r' calls calls' with
  | nil => exact ⟨.nil, h⟩
  | cons first rest ih =>
    obtain ⟨v, op⟩ := first
    obtain ⟨hnow, hlater⟩ := List.forall_mem_append.mp hown
    cases hsolo : op.solo id with
    | none =>
      have hops : soloOperations id ((v, op) :: rest) = soloOperations id rest := by
        simp [soloOperations, hsolo]
      rw [hops]
      obtain ⟨halike, hstate, hex⟩ :=
        (op.course_aside h v hsolo).run remote hcalls hnow
      obtain ⟨hturns, hend⟩ := ih halike hstate hlater
      refine ⟨.other hsolo (List.map_eq_nil_iff.mp hex) ?_ hturns, hend⟩
      exact halike.found.symm.trans h.found
    | some op' =>
      have hops : soloOperations id ((v, op) :: rest) = (v, op') :: soloOperations id rest := by
        simp [soloOperations, hsolo]
      rw [hops]
      obtain ⟨⟨halike, hout⟩, hstate, hex⟩ :=
        (op.course_follows h v hsolo).run remote hcalls hnow
      obtain ⟨hturns, hend⟩ := ih halike hstate hlater
      exact ⟨.own ⟨hsolo, hout, hex, halike.found⟩ hturns, hend⟩

def OwnsDestinations (id : SourceId) (ex : List Exchange) : Prop :=
  ∀ x ∈ ex, ∀ y ∈ ex, x.1.source = id → y.1.source ≠ id →
    x.1.call.destination ≠ y.1.call.destination

instance (id : SourceId) (ex : List Exchange) : Decidable (OwnsDestinations id ex) :=
  inferInstanceAs (Decidable (∀ x ∈ ex, ∀ y ∈ ex, _ → _ → _))

def CalledFor (id : SourceId) (ex : List Exchange) (d : Destination) : Prop :=
  ∃ x ∈ ex, x.1.source = id ∧ x.1.call.destination = d

theorem OwnsDestinations.source_iff {id : SourceId} {ex : List Exchange}
    (h : OwnsDestinations id ex) :
    ∀ y ∈ ex, y.1.source = id ↔ CalledFor id ex y.1.call.destination := by
  intro y hy
  constructor
  · exact fun hsource => ⟨y, hy, hsource, rfl⟩
  · rintro ⟨x, hx, hsource, hd⟩
    exact Decidable.byContradiction fun hother => h x hx y hy hsource hother hd

/-- If the remote answers by destination, and the source has its destinations to itself, then the
run is to the source what the run is of its own operations alone, with a flush of it for each sweep
and a stop of it for each shutdown: in every turn it has the same outcomes, the same calls with the
same replies, and the same batch afterwards. -/
theorem sources_isolated (limits : Limits) (callTimeout : Duration)
    (remote : List Call → Call → Reply) (id : SourceId) (ops : List (Visit × Operation))
    (hown : OwnsDestinations id (((Registry.new limits callTimeout).history (byDestination remote)
      ops []).turns.flatMap (·.exchanges))) :
    let run := (Registry.new limits callTimeout).history (byDestination remote) ops []
    let alone := (Registry.new limits callTimeout).history (byDestination remote)
      (soloOperations id ops) []
    Mirrored id run.turns alone.turns ∧
      alone.registry.batches.find? id = run.registry.batches.find? id := by
  intro run alone
  have hnew : (Registry.new limits callTimeout).Alike id (.new limits callTimeout) :=
    ⟨rfl, rfl, rfl⟩
  obtain ⟨hturns, hend⟩ := hnew.mirrored remote ops (fun _ _ => rfl) hown.source_iff
  exact ⟨hturns, hend.found⟩

def everyOther (earlier : List Call) (_ : Call) : Reply :=
  if earlier.length % 2 = 0 then some (.ok (some "t")) else none

def crowd : List (Visit × Operation) :=
  [.start "a" ⟨"g", "s"⟩, .start "b" ⟨"g", "t"⟩, .handle "a" ⟨1, "x"⟩, .handle "b" ⟨2, "y"⟩, .sweep,
    .handle "a" ⟨3, "z"⟩, .flush "b", .start "c" ⟨"g", "t"⟩, .size, .sweep, .handle "a" ⟨4, "w"⟩,
    .stop "b", .copyBatch "a", .shutdown, .handle "a" ⟨5, "v"⟩].map (.byName, ·)

theorem sources_isolated_crowd :
    let run := (Registry.new {} .zero).history (byDestination everyOther) crowd []
    let alone := (Registry.new {} .zero).history (byDestination everyOther)
      (soloOperations "a" crowd) []
    OwnsDestinations "a" (run.turns.flatMap (·.exchanges)) ∧ run.turns.length = 15 ∧
      alone.turns.length = 9 ∧ Mirrored "a" run.turns alone.turns := by
  have hown : OwnsDestinations "a" (((Registry.new {} .zero).history (byDestination everyOther)
      crowd []).turns.flatMap (·.exchanges)) := by decide +kernel
  exact ⟨hown, by decide +kernel, by decide +kernel,
    (sources_isolated {} .zero everyOther "a" crowd hown).1⟩

end LogRelay
