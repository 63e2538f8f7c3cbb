import LogRelay.Host.Naming
import LogRelay.Proofs.Interleaving
import LogRelay.Proofs.Synchrony
import Mathlib.Data.List.Induction

/-! Where the messages of a source go. The start that registers a source gives it its destination,
and it has that until it is stopped, whatever fails in between and however often it is started
again. -/

namespace LogRelay

def Operation.readdress (id : SourceId) (current : Option Destination) :
    Operation → Option Destination
  | start s d => if s = id then some (current.getD d) else current
  | op => if op.ends id then none else current

section Passage

variable {l : Limits} {id : SourceId} {op : Operation} {outcome : Outcome}
  {before after : Option Batch} {b : Batch} {ex : List Exchange} {d : Destination}

theorem Operation.readdress_eq_some {current : Option Destination} :
    op.readdress id current = some d ↔
      (current = none ∧ op = .start id d) ∨ op.ends id = false ∧ current = some d := by
  cases op with
  | start s d' =>
    by_cases hs : s = id
    · cases current <;> simp [readdress, ends, hs]
    · simp [readdress, ends, hs]
  | stop s => by_cases hs : s = id <;> simp [readdress, ends, hs]
  | shutdown => simp [readdress, ends]
  | handle | flush | sweep | contains | size | copyBatch => simp [readdress, ends]

theorem Operation.readdress_kept (h : op.ends id = false) :
    op.readdress id (some d) = some d := readdress_eq_some.mpr (Or.inr ⟨h, rfl⟩)

theorem Passage.address (h : Passage l id op outcome before ex after) :
    after.map (·.destination) = op.readdress id (before.map (·.destination)) := by
  cases h with
  | absent hop _ =>
    refine (Option.eq_none_iff_forall_ne_some.mpr fun d hd => ?_).symm
    rcases Operation.readdress_eq_some.mp hd with ⟨-, hstart⟩ | ⟨-, hnone⟩
    · exact hop d hstart
    · cases hnone
  | started r d reply hop => exact (Operation.readdress_eq_some.mpr (Or.inl ⟨rfl, hop⟩)).symm
  | removed hop _ =>
    refine (Option.eq_none_iff_forall_ne_some.mpr fun d hd => ?_).symm
    rcases Operation.readdress_eq_some.mp hd with ⟨hsome, -⟩ | ⟨hends, -⟩
    · cases hsome
    · exact Bool.false_ne_true (hends.symm.trans hop)
  | kept b hop _ => exact (Operation.readdress_kept hop).symm
  | appended hop _ _ =>
    rw [hop]
    rfl
  | flushed hop hf =>
    have hends := (Operation.of_flushes outcome hop).1
    rw [Option.map_some, Option.map_some, Operation.readdress_kept hends, hf.destination]
  | refused hop _ _ hf _ =>
    rw [hop, Option.map_some, hf.destination]
    rfl
  | overflowed hop _ _ hf _ =>
    rw [hop, Option.map_some]
    exact congrArg some hf.destination

theorem Passage.addressed (h : Passage l id op outcome before ex after) :
    ∀ x ∈ ex, (before.or after).map (·.destination) = some x.1.call.destination := by
  have hflushed {b b' : Batch} (hf : Flushed id b ex b') :
      ∀ x ∈ ex, some b.destination = some x.1.call.destination := by
    cases hf with
    | empty => exact List.forall_mem_nil _
    | asked => exact List.forall_mem_singleton.mpr rfl
  cases h with
  | absent | kept | appended => exact List.forall_mem_nil _
  | started => exact List.forall_mem_singleton.mpr rfl
  | flushed _ hf | removed _ hf | refused _ _ _ hf | overflowed _ _ _ hf => exact hflushed hf

end Passage

inductive Demand where
  | message (now : Int) (m : HostMessage)
  | sweep
  | flush (source : SourceId)
  | shutdown

def Naming.demands (n : Naming) : Demand → Operation
  | .message now m => n.operation now m
  | .sweep => .sweep
  | .flush source => .flush source
  | .shutdown => .shutdown

namespace Demand

def start? (id : SourceId) : Demand → Option (Option String × Option String)
  | message _ (.start s group stream) => if s = id then some (group, stream) else none
  | _ => none

def ends (id : SourceId) : Demand → Bool
  | message _ (.stop s) => s = id
  | shutdown => true
  | _ => false

theorem ends_of_start {id : SourceId} {q : Demand} (h : (q.start? id).isSome) :
    q.ends id = false := by
  cases q with
  | message now m =>
    cases m with
    | start | log => rfl
    | stop => cases h
  | sweep | flush => rfl
  | shutdown => cases h

end Demand

/-- There is a start of the source, and the last one comes after its last stop and the last
shutdown. -/
def Started (id : SourceId) (past : List Demand) : Prop :=
  ∃ before q after, past = before ++ q :: after ∧ (q.start? id).isSome ∧
    ∀ p ∈ after, p.ends id = false

/-- The source was started when it was not, and not ended since; the names in that start come
before the names that are made up. -/
def Naming.OpenedAs (n : Naming) (id : SourceId) (d : Destination) (past : List Demand) : Prop :=
  ∃ before q after, past = before ++ q :: after ∧
    (¬ Started id before ∧ ∃ group stream, q.start? id = some (group, stream) ∧
      d = ⟨group.getD n.group, stream.getD (n.streamPrefix ++ "-" ++ id)⟩) ∧
    ∀ p ∈ after, p.ends id = false

theorem exists_split_snoc {α : Type} {P : List α → α → Prop} {Q : α → Prop} (l : List α) (a : α) :
    (∃ before x after, l ++ [a] = before ++ x :: after ∧ P before x ∧ ∀ y ∈ after, Q y) ↔
      P l a ∨ Q a ∧ ∃ before x after, l = before ++ x :: after ∧ P before x ∧ ∀ y ∈ after, Q y := by
  constructor
  · rintro ⟨before, x, after, hsplit, hx, hafter⟩
    rcases List.eq_nil_or_concat after with rfl | ⟨front, last, rfl⟩
    · obtain ⟨rfl, rfl⟩ : l = before ∧ a = x := by simpa using hsplit
      exact Or.inl hx
    · rw [List.concat_eq_append] at hafter
      obtain ⟨hfront, hlast⟩ := List.forall_mem_append.mp hafter
      have hsplit : l ++ [a] = (before ++ x :: front) ++ [last] := by simpa using hsplit
      obtain ⟨rfl, ha⟩ := List.append_inj' hsplit rfl
      obtain rfl := List.head_eq_of_cons_eq ha
      exact Or.inr ⟨List.forall_mem_singleton.mp hlast, before, x, front, rfl, hx, hfront⟩
  · rintro (hx | ⟨ha, before, x, after, rfl, hx, hafter⟩)
    · exact ⟨l, a, [], rfl, hx, List.forall_mem_nil _⟩
    · refine ⟨before, x, after ++ [a], by simp, hx, ?_⟩
      exact List.forall_mem_append.mpr ⟨hafter, List.forall_mem_singleton.mpr ha⟩

namespace Naming

variable (n : Naming) (id : SourceId)

def address (past : List Demand) : Option Destination :=
  past.foldl (fun current q => (n.demands q).readdress id current) none

theorem address_snoc (past : List Demand) (q : Demand) :
    n.address id (past ++ [q]) = (n.demands q).readdress id (n.address id past) := by
  simp [address]

variable {n id}

theorem demands_start {q : Demand} {d : Destination} :
    n.demands q = .start id d ↔ ∃ group stream, q.start? id = some (group, stream) ∧
      d = ⟨group.getD n.group, stream.getD (n.streamPrefix ++ "-" ++ id)⟩ := by
  cases q with
  | message now m =>
    cases m with
    | start s group stream =>
      by_cases hs : s = id
      · simp [demands, operation, Demand.start?, hs, destinationFor, resolve, eq_comm]
      · simp [demands, operation, Demand.start?, hs]
    | stop | log => simp [demands, operation, Demand.start?]
  | sweep | flush | shutdown => simp [demands, Demand.start?]

theorem demands_ends (n : Naming) (id : SourceId) (q : Demand) :
    (n.demands q).ends id = q.ends id := by
  cases q with
  | message now m => cases m <;> rfl
  | sweep | flush | shutdown => rfl

theorem started_snoc {past : List Demand} {q : Demand} :
    Started id (past ++ [q]) ↔ (q.start? id).isSome ∨ q.ends id = false ∧ Started id past :=
  exists_split_snoc past q

theorem openedAs_snoc {past : List Demand} {q : Demand} {d : Destination} :
    n.OpenedAs id d (past ++ [q]) ↔ (¬ Started id past ∧ n.demands q = .start id d) ∨
      q.ends id = false ∧ n.OpenedAs id d past := by
  rw [demands_start]
  exact exists_split_snoc past q

theorem started_iff {past : List Demand} : Started id past ↔ ∃ d, n.OpenedAs id d past := by
  induction past using List.reverseRecOn with
  | nil => simp [Started, OpenedAs]
  | append_singleton past q ih =>
    have hstart : (q.start? id).isSome ↔ ∃ d, n.demands q = .start id d := by
      simp only [demands_start, Option.isSome_iff_exists, Prod.exists]
      constructor
      · rintro ⟨group, stream, h⟩
        exact ⟨_, group, stream, h, rfl⟩
      · rintro ⟨_, group, stream, h, -⟩
        exact ⟨group, stream, h⟩
    simp only [started_snoc, openedAs_snoc, exists_or, exists_and_left, ← hstart, ← ih]
    -- A start of a source that is started begins no lifetime, and ends none.
    have hgoesOn : (q.start? id).isSome → q.ends id = false := Demand.ends_of_start
    tauto

theorem address_eq_some {past : List Demand} {d : Destination} :
    n.address id past = some d ↔ n.OpenedAs id d past := by
  induction past using List.reverseRecOn generalizing d with
  | nil => simp [address, OpenedAs]
  | append_singleton past q ih =>
    have hunknown : n.address id past = none ↔ ¬ Started id past := by
      rw [started_iff (n := n), Option.eq_none_iff_forall_ne_some, not_exists]
      exact forall_congr' fun d => not_congr ih
    rw [address_snoc, Operation.readdress_eq_some, openedAs_snoc, hunknown, ih, demands_ends]

theorem address_isSome {past : List Demand} : (n.address id past).isSome ↔ Started id past := by
  rw [started_iff (n := n), Option.isSome_iff_exists]
  exact exists_congr fun d => address_eq_some

theorem OpenedAs.source_eq {past : List Demand} {k : SourceId} {d : Destination}
    (hplain : ∀ q ∈ past, ∀ id group stream, q.start? id = some (group, stream) → stream = none)
    (h : n.OpenedAs id d past) (h' : n.OpenedAs k d past) : id = k := by
  have hstream {k : SourceId} (h : n.OpenedAs k d past) :
      d.stream = n.streamPrefix ++ "-" ++ k := by
    obtain ⟨before, q, after, hpast, ⟨-, group, stream, hq, rfl⟩, -⟩ := h
    have hnone : stream = none := hplain q (by simp [hpast]) k group stream hq
    rw [hnone]
    rfl
  have hnames := (hstream h).symm.trans (hstream h')
  exact (String.append_right_inj _).mp hnames

end Naming

section Run

variable {σ : Type} (limits : Limits) (callTimeout : Duration) (answer : σ → Inquiry → Reply × σ)
  (n : Naming) (s : σ)

theorem history_address (past : List (Visit × Demand)) (id : SourceId) :
    let run := (Registry.new limits callTimeout).history answer
      (past.map fun (v, q) => (v, n.demands q)) s
    (run.registry.batches.find? id).map (·.destination) = n.address id (past.map (·.2)) := by
  induction past using List.reverseRecOn with
  | nil => rfl
  | append_singleton past last ih =>
    obtain ⟨v, q⟩ := last
    have hsnoc := Registry.history_snoc answer (Registry.new limits callTimeout)
      (past.map fun (v, q) => (v, n.demands q)) v (n.demands q) s
    have hway := Operation.course_passage (Dialogue.run_yields answer ((n.demands q).course v
      ((Registry.new limits callTimeout).history answer
        (past.map fun (v, q) => (v, n.demands q)) s).registry)
      ((Registry.new limits callTimeout).history answer
        (past.map fun (v, q) => (v, n.demands q)) s).state) id
    simp only [List.map_append, List.map_cons, List.map_nil, Naming.address_snoc, ← ih] at hsnoc ⊢
    rw [hsnoc]
    exact hway.address

/-- Whatever messages come, whatever else is asked of the registry in between, and whatever the
remote answers: a source is registered exactly if its last start comes after its last stop and the
last shutdown. Every call for a source goes to the destination that the start which opened its
lifetime has given it; a start within the lifetime makes no call and changes nothing. If no start
names a stream, registered sources have different destinations. -/
theorem sources_addressed (earlier : List (Visit × Demand)) (v : Visit) (q : Demand) :
    let run := (Registry.new limits callTimeout).history answer
      (earlier.map fun (v, q) => (v, n.demands q)) s
    let held := ((n.demands q).course v run.registry).run answer run.state
    let past := earlier.map (·.2)
    (∀ id, (run.registry.batches.find? id).isSome ↔ Started id past) ∧
    (∀ id, ∀ b ∈ run.registry.batches.find? id, n.OpenedAs id b.destination past) ∧
    (∀ x ∈ held.exchanges,
      (Started x.1.source past → n.OpenedAs x.1.source x.1.call.destination past) ∧
      (¬ Started x.1.source past → n.OpenedAs x.1.source x.1.call.destination (past ++ [q]))) ∧
    (∀ id, (q.start? id).isSome → Started id past →
      held.exchanges = [] ∧ held.result.1 = run.registry) ∧
    ((∀ p ∈ past, ∀ id group stream, p.start? id = some (group, stream) → stream = none) →
      ∀ id k, ∀ b ∈ run.registry.batches.find? id, ∀ c ∈ run.registry.batches.find? k,
        b.destination = c.destination → id = k) := by
  intro run held past
  have haddress (id : SourceId) : (run.registry.batches.find? id).map (·.destination) =
      n.address id past := history_address limits callTimeout answer n s earlier id
  have hregistered (id : SourceId) : (run.registry.batches.find? id).isSome ↔ Started id past := by
    rw [← n.address_isSome, ← haddress, Option.isSome_map]
  have hopened (id : SourceId) (b : Batch) (hb : b ∈ run.registry.batches.find? id) :
      n.OpenedAs id b.destination past := by
    rw [← Naming.address_eq_some, ← haddress, Option.mem_def.mp hb]
    rfl
  have hyields : ((n.demands q).course v run.registry).Yields held.exchanges
      (held.result.1, held.result.2) := Dialogue.run_yields ..
  refine ⟨hregistered, hopened, fun x hx => ?_, fun id hq hstarted => ?_, ?_⟩
  · have hway := Operation.course_passage hyields x.1.source
    have hasked := hway.addressed x (by simp [madeFor, hx])
    constructor
    · intro hstarted
      obtain ⟨b, hb⟩ := Option.isSome_iff_exists.mp ((hregistered _).mpr hstarted)
      have hd : b.destination = x.1.call.destination := by simpa [hb] using hasked
      exact hd ▸ hopened _ b hb
    · intro hstarted
      have hnone : run.registry.batches.find? x.1.source = none := by
        rwa [← hregistered, Option.not_isSome_iff_eq_none] at hstarted
      rw [hnone, Option.none_or, hway.address, haddress, ← Naming.address_snoc] at hasked
      exact Naming.address_eq_some.mp hasked
  · obtain ⟨⟨group, stream⟩, hq⟩ := Option.isSome_iff_exists.mp hq
    have hop : ∃ d, n.demands q = .start id d :=
      ⟨_, Naming.demands_start.mpr ⟨group, stream, hq, rfl⟩⟩
    obtain ⟨d, hop⟩ := hop
    rw [hop] at hyields
    obtain ⟨_, hcourse, -⟩ := Operation.answer_yields (f := fun _ => .finished) hyields
    rcases Registry.start_yields hcourse with ⟨-, hex, hr⟩ | ⟨hnone, -⟩
    · exact ⟨hex, hr⟩
    · have hknown := (hregistered id).mpr hstarted
      rw [hnone] at hknown
      cases hknown
  · intro hplain id k b hb c hc hsame
    exact (hopened id b hb).source_eq hplain (hsame ▸ hopened k c hc)

end Run

def restarted : List Demand :=
  [.message 0 (.start "a" (some "h") none), .message 1 (.log "a" "x" none),
    .message 2 (.start "a" none (some "t")), .sweep, .message 3 (.stop "a"),
    .message 4 (.start "b" none none), .message 5 (.start "a" none none)]

theorem sources_addressed_restarted :
    let n : Naming := ⟨"g", "p"⟩
    let run := (Registry.new {} .zero).history (fun (_ : Unit) _ => (none, ()))
      ((restarted.map (Visit.byName, ·)).map fun (v, q) => (v, n.demands q)) ()
    run.turns.map (·.exchanges.map (·.1.call.destination)) =
      [[⟨"h", "p-a"⟩], [], [], [⟨"h", "p-a"⟩], [⟨"h", "p-a"⟩], [⟨"g", "p-b"⟩], [⟨"g", "p-a"⟩]] ∧
      Started "a" restarted ∧ n.OpenedAs "a" ⟨"g", "p-a"⟩ restarted := by
  intro n run
  obtain ⟨hregistered, hopened, -⟩ := sources_addressed {} .zero (fun (_ : Unit) _ => (none, ())) n
    () (restarted.map (.byName, ·)) .byName .sweep
  have hb : run.registry.batches.find? "a" = some (.fresh ⟨"g", "p-a"⟩ none {}) := by decide +kernel
  exact ⟨by decide +kernel, (hregistered "a").mp (Option.isSome_of_eq_some hb), hopened "a" _ hb⟩

end LogRelay
