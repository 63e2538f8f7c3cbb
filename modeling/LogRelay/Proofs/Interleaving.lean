import Mathlib.Logic.Function.Basic
import LogRelay.Proofs.History

/-! Callers that share a registry. Each waits for the lock, makes its calls while it has it, and
lets go of it in the end; the steps of any number of callers may alternate as they like. To all of
them it is as if the operations had run one by one, in the order in which they got the lock. -/

namespace LogRelay

inductive Phase where
  | idle
  | waiting (op : Operation)
  | holding (c : Course Outcome)
  | calling (q : Inquiry) (next : Reply → Course Outcome)

namespace Phase

def course? : Phase → Option (Course Outcome)
  | idle | waiting _ => none
  | holding c => some c
  | calling q next => some (.ask q next)

def outstanding : Phase → Option Inquiry
  | calling q _ => some q
  | _ => none

theorem calling_of_outstanding {p : Phase} {q : Inquiry} (h : p.outstanding = some q) :
    ∃ next, p = calling q next := by
  cases p with
  | calling q' next =>
    obtain rfl := Option.some.inj h
    exact ⟨next, rfl⟩
  | idle | waiting | holding => cases h

end Phase

/-- One registry with its lock, the remote, and the callers; with a record of who got the lock, of
the calls, and of what the callers were told. -/
structure Shared (ι σ : Type) where
  registry : Registry
  remote : σ
  locked : Bool := false
  phase : ι → Phase := fun _ => .idle
  acquired : List (ι × Visit × Operation) := []
  begun : List Inquiry := []
  ended : List Exchange := []
  returned : List (ι × Outcome) := []

inductive Action (ι : Type) where
  | request (i : ι) (op : Operation)
  | acquire (i : ι) (v : Visit)
  | beginCall (i : ι)
  | endCall (i : ι)
  | release (i : ι)

namespace Shared

variable {ι σ : Type} [DecidableEq ι]

def enter (s : Shared ι σ) (i : ι) (p : Phase) : Shared ι σ :=
  { s with phase := Function.update s.phase i p }

def step (answer : σ → Inquiry → Reply × σ) (s : Shared ι σ) : Action ι → Shared ι σ
  | .request i op =>
    match s.phase i with
    | .idle => s.enter i (.waiting op)
    | _ => s
  | .acquire i v =>
    match s.phase i with
    | .waiting op =>
      if s.locked then s
      else { s.enter i (.holding (op.course v s.registry)) with
        locked := true, acquired := s.acquired ++ [(i, v, op)] }
    | _ => s
  | .beginCall i =>
    match s.phase i with
    | .holding (.ask q next) => { s.enter i (.calling q next) with
        registry := q.registry, begun := s.begun ++ [q] }
    | _ => s
  | .endCall i =>
    match s.phase i with
    | .calling q next =>
      let (reply, remote) := answer s.remote q
      { s.enter i (.holding (next reply)) with remote, ended := s.ended ++ [(q, reply)] }
    | _ => s
  | .release i =>
    match s.phase i with
    | .holding (.done (r, outcome)) => { s.enter i .idle with
        registry := r, locked := false, returned := s.returned ++ [(i, outcome)] }
    | _ => s

def run (answer : σ → Inquiry → Reply × σ) (s : Shared ι σ) (schedule : List (Action ι)) :
    Shared ι σ := schedule.foldl (step answer) s

theorem enter_self (s : Shared ι σ) (i : ι) (p : Phase) : (s.enter i p).phase i = p :=
  Function.update_self ..

theorem enter_other (s : Shared ι σ) {i j : ι} (h : j ≠ i) (p : Phase) :
    (s.enter i p).phase j = s.phase j := Function.update_of_ne h ..

theorem course?_enter (s : Shared ι σ) (i j : ι) (p : Phase) :
    ((s.enter i p).phase j).course? = if j = i then p.course? else (s.phase j).course? := by
  by_cases hj : j = i
  · subst hj
    rw [enter_self, if_pos rfl]
  · rw [enter_other s hj, if_neg hj]

end Shared

/-! ### One by one -/

section OneByOne

variable {ι σ : Type} (answer : σ → Inquiry → Reply × σ)

theorem Registry.history_snoc (r : Registry) (ops : List (Visit × Operation)) (v : Visit)
    (op : Operation) (s : σ) :
    let run := r.history answer ops s
    let held := (op.course v run.registry).run answer run.state
    r.history answer (ops ++ [(v, op)]) s =
      ⟨run.turns ++ [⟨run.registry, op, held.exchanges, held.result.2, held.result.1⟩],
        held.result.1, held.state⟩ := by
  induction ops generalizing r s with
  | nil => rfl
  | cons first rest ih =>
    obtain ⟨u, before⟩ := first
    simp only [List.cons_append, history, ih]

theorem Registry.history_length (r : Registry) (ops : List (Visit × Operation)) (s : σ) :
    (r.history answer ops s).turns.length = ops.length := by
  induction ops generalizing r s with
  | nil => rfl
  | cons first rest ih => simp [history, ih]

end OneByOne

namespace History

variable {ι σ : Type}

def calls (run : History σ) : List Exchange := run.turns.flatMap (·.exchanges)

def told (run : History σ) (callers : List ι) : List (ι × Outcome) :=
  callers.zip (run.turns.map (·.outcome))

end History

namespace Shared

variable {ι σ : Type} [DecidableEq ι] (answer : σ → Inquiry → Reply × σ) (r : Registry) (w : σ)

def oneByOne (turns : List (ι × Visit × Operation)) : History σ :=
  r.history answer (turns.map (·.2)) w

structure Free (s : Shared ι σ) : Prop where
  locked : s.locked = false
  course : ∀ i, (s.phase i).course? = none
  registry : s.registry = (oneByOne answer r w s.acquired).registry
  remote : s.remote = (oneByOne answer r w s.acquired).state
  ended : s.ended = (oneByOne answer r w s.acquired).calls
  begun : s.begun = s.ended.map (·.1)
  returned : s.returned = (oneByOne answer r w s.acquired).told (s.acquired.map (·.1))

/-- One caller has the lock. What it did so far and what is left are together what its operation
does after those before it. -/
structure Held (s : Shared ι σ) (before : List (ι × Visit × Operation)) (i : ι) (v : Visit)
    (op : Operation) (ex : List Exchange) (c : Course Outcome) : Prop where
  locked : s.locked = true
  acquired : s.acquired = before ++ [(i, v, op)]
  course : ∀ j, (s.phase j).course? = if j = i then some c else none
  halfway : (op.course v (oneByOne answer r w before).registry).run answer
      (oneByOne answer r w before).state =
    { c.run answer s.remote with exchanges := ex ++ (c.run answer s.remote).exchanges }
  ended : s.ended = (oneByOne answer r w before).calls ++ ex
  begun : s.begun = s.ended.map (·.1) ++ (s.phase i).outstanding.toList
  returned : s.returned = (oneByOne answer r w before).told (before.map (·.1))
  shown : ∀ q ∈ (s.phase i).outstanding, s.registry = q.registry

inductive Serial (s : Shared ι σ) : Prop where
  | free (h : Free answer r w s)
  | held {before : List (ι × Visit × Operation)} {i : ι} {v : Visit} {op : Operation}
      {ex : List Exchange} {c : Course Outcome} (h : Held answer r w s before i v op ex c)

variable {answer r w} {s : Shared ι σ}

omit [DecidableEq ι] in
theorem Free.initial : Free answer r w ({ registry := r, remote := w } : Shared ι σ) :=
  ⟨rfl, fun _ => rfl, rfl, rfl, rfl, rfl, rfl⟩

section Steps

variable {before : List (ι × Visit × Operation)} {i k : ι} {v : Visit} {op : Operation}
    {ex : List Exchange} {c : Course Outcome}

theorem Held.holder (h : Held answer r w s before k v op ex c) {c' : Course Outcome}
    (hi : (s.phase i).course? = some c') : i = k ∧ c' = c := by
  rw [h.course] at hi
  split at hi
  · rename_i hik
    exact ⟨hik, (Option.some.inj hi).symm⟩
  · cases hi

omit [DecidableEq ι] in
theorem Free.no_holder (h : Free answer r w s) {c : Course Outcome} :
    (s.phase i).course? ≠ some c := by
  rw [h.course]
  nofun

theorem Free.request (h : Free answer r w s) (i : ι) (op : Operation) :
    Free answer r w (s.enter i (.waiting op)) :=
  { h with
    course := fun j => by
      rw [course?_enter, h.course]
      split <;> rfl }

theorem Held.request (h : Held answer r w s before k v op ex c) (hi : s.phase i = .idle)
    (op' : Operation) : Held answer r w (s.enter i (.waiting op')) before k v op ex c := by
  have hne : k ≠ i := by
    rintro rfl
    have hcourse := h.course k
    rw [hi, if_pos rfl] at hcourse
    cases hcourse
  have hphase := enter_other s hne (.waiting op')
  refine { h with course := fun j => ?_, begun := ?_, shown := ?_ }
  · rw [course?_enter, h.course]
    by_cases hj : j = i
    · subst hj
      rw [if_pos rfl, if_neg hne.symm]
      rfl
    · rw [if_neg hj]
  · rw [hphase]
    exact h.begun
  · rw [hphase]
    exact h.shown

theorem Free.acquire (h : Free answer r w s) (i : ι) (v : Visit) (op : Operation) :
    Held answer r w { s.enter i (.holding (op.course v s.registry)) with
        locked := true, acquired := s.acquired ++ [(i, v, op)] }
      s.acquired i v op [] (op.course v s.registry) where
  locked := rfl
  acquired := rfl
  course j := by
    refine (course?_enter s i j _).trans ?_
    rw [h.course]
    rfl
  halfway := by
    rw [← h.registry, ← h.remote]
    rfl
  ended := by
    rw [List.append_nil]
    exact h.ended
  begun := by
    simp only [enter_self]
    exact h.begun.trans (List.append_nil _).symm
  returned := h.returned
  shown := by
    simp [enter_self, Phase.outstanding]

theorem Held.course_enter (h : Held answer r w s before k v op ex c) {p : Phase}
    {c' : Course Outcome} (hp : p.course? = some c') (j : ι) :
    ((s.enter k p).phase j).course? = if j = k then some c' else none := by
  rw [course?_enter, hp, h.course]
  split <;> rfl

theorem Held.beginCall {q : Inquiry} {next : Reply → Course Outcome}
    (h : Held answer r w s before k v op ex (.ask q next))
    (hk : s.phase k = .holding (.ask q next)) :
    Held answer r w { s.enter k (.calling q next) with
        registry := q.registry, begun := s.begun ++ [q] } before k v op ex (.ask q next) := by
  have hphase := enter_self s k (.calling q next)
  refine { h with course := h.course_enter rfl, begun := ?_, shown := ?_ }
  · have hbegun := h.begun
    rw [hk] at hbegun
    simp only [hphase, hbegun]
    simp [enter, Phase.outstanding]
  · intro q' hq'
    rw [hphase] at hq'
    cases hq'
    rfl

theorem Held.endCall {q : Inquiry} {next : Reply → Course Outcome}
    (h : Held answer r w s before k v op ex (.ask q next)) (hk : s.phase k = .calling q next) :
    let served := answer s.remote q
    Held answer r w { s.enter k (.holding (next served.1)) with
        remote := served.2, ended := s.ended ++ [(q, served.1)] }
      before k v op (ex ++ [(q, served.1)]) (next served.1) := by
  intro served
  have hphase := enter_self s k (.holding (next served.1))
  refine { h with
    course := h.course_enter rfl, halfway := ?_, ended := ?_, begun := ?_, shown := ?_ }
  · rw [h.halfway, Dialogue.run]
    simp [served]
  · simp only [h.ended, List.append_assoc]
  · have hbegun := h.begun
    rw [hk] at hbegun
    simp only [hphase]
    simpa [Phase.outstanding, enter] using hbegun
  · intro q' hq'
    rw [hphase] at hq'
    cases hq'

theorem Held.through (h : Held answer r w s before k v op ex c) :
    let rest := c.run answer s.remote
    let run := oneByOne answer r w s.acquired
    run.registry = rest.result.1 ∧ run.state = rest.state ∧ run.calls = s.ended ++ rest.exchanges ∧
      run.told (s.acquired.map (·.1)) = s.returned ++ [(k, rest.result.2)] := by
  intro rest run
  have hlength : (before.map (·.1)).length =
      ((oneByOne answer r w before).turns.map (·.outcome)).length := by
    simp [oneByOne, Registry.history_length]
  have hrun : run = ⟨(oneByOne answer r w before).turns ++
      [⟨(oneByOne answer r w before).registry, op, ex ++ rest.exchanges, rest.result.2,
        rest.result.1⟩], rest.result.1, rest.state⟩ := by
    have hsnoc := Registry.history_snoc answer r (before.map (·.2)) v op w
    have hhalf := h.halfway
    unfold oneByOne at hhalf
    simp only [hhalf] at hsnoc
    refine Eq.trans ?_ hsnoc
    simp only [run, oneByOne, h.acquired, List.map_append, List.map_singleton]
  refine ⟨congrArg History.registry hrun, congrArg History.state hrun, ?_, ?_⟩
  · rw [hrun, h.ended, History.calls, List.flatMap_append, List.flatMap_singleton,
      List.append_assoc]
    rfl
  · rw [hrun, h.acquired, h.returned, History.told, List.map_append, List.map_append,
      List.zip_append hlength]
    rfl

theorem Held.outstanding_prefix (h : Held answer r w s before k v op ex c) :
    (s.phase k).outstanding.toList <+: (c.run answer s.remote).exchanges.map (·.1) := by
  cases hout : (s.phase k).outstanding with
  | none => exact List.nil_prefix
  | some q =>
    obtain ⟨next, hk⟩ := Phase.calling_of_outstanding hout
    obtain ⟨-, rfl⟩ := h.holder (congrArg Phase.course? hk)
    exact ⟨_, rfl⟩

theorem Held.release {r' : Registry} {outcome : Outcome}
    (h : Held answer r w s before k v op ex (.done (r', outcome)))
    (hk : s.phase k = .holding (.done (r', outcome))) :
    Free answer r w { s.enter k .idle with
        registry := r', locked := false, returned := s.returned ++ [(k, outcome)] } := by
  obtain ⟨hregistry, hstate, hcalls, htold⟩ := h.through
  have hbegun := h.begun
  rw [hk] at hbegun
  refine ⟨rfl, fun j => ?_, hregistry.symm, hstate.symm, ?_, ?_, htold.symm⟩
  · refine (course?_enter s k j .idle).trans ?_
    rw [h.course]
    split <;> rfl
  · exact (hcalls.trans (List.append_nil _)).symm
  · exact hbegun.trans (List.append_nil _)

theorem Serial.next (h : Serial answer r w s) (a : Action ι) :
    Serial answer r w (s.step answer a) := by
  cases a with
  | request i op =>
    rw [step]
    split
    · rename_i hi
      cases h with
      | free h => exact .free (h.request i op)
      | held h => exact .held (h.request hi op)
    · exact h
  | acquire i v =>
    rw [step]
    split
    · split
      · exact h
      · rename_i op hi hlock
        cases h with
        | free h => exact .held (h.acquire i v op)
        | held h => exact absurd h.locked hlock
    · exact h
  | beginCall i =>
    rw [step]
    split
    · rename_i q next hi
      cases h with
      | free h => exact absurd (congrArg Phase.course? hi) h.no_holder
      | held h =>
        obtain ⟨rfl, rfl⟩ := h.holder (congrArg Phase.course? hi)
        exact .held (h.beginCall hi)
    · exact h
  | endCall i =>
    rw [step]
    split
    · rename_i q next hi
      cases h with
      | free h => exact absurd (congrArg Phase.course? hi) h.no_holder
      | held h =>
        obtain ⟨rfl, rfl⟩ := h.holder (congrArg Phase.course? hi)
        exact .held (h.endCall hi)
    · exact h
  | release i =>
    rw [step]
    split
    · rename_i r' outcome hi
      cases h with
      | free h => exact absurd (congrArg Phase.course? hi) h.no_holder
      | held h =>
        obtain ⟨rfl, rfl⟩ := h.holder (congrArg Phase.course? hi)
        exact .free (h.release hi)
    · exact h

theorem Serial.run (h : Serial answer r w s) (schedule : List (Action ι)) :
    Serial answer r w (s.run answer schedule) := by
  unfold Shared.run
  induction schedule generalizing s with
  | nil => exact h
  | cons a rest ih => exact ih (h.next a)

end Steps

/-- In every schedule of the callers' steps: no two calls are ever outstanding at once, and while
one is, the registry is as it was when the call began. The calls, the replies and the results so far
are the first of those that the operations have one after another, in the order in which they got
the lock; and when nobody has it, they are all of them, and the registry is left the same. -/
theorem run_serial (answer : σ → Inquiry → Reply × σ) (r : Registry) (w : σ)
    (schedule : List (Action ι)) :
    let s := run answer { registry := r, remote := w } schedule
    let serial := r.history answer (s.acquired.map (·.2)) w
    (∀ i j p q, (s.phase i).outstanding = some p → (s.phase j).outstanding = some q →
      i = j ∧ s.registry = q.registry) ∧
    s.begun <+: serial.calls.map (·.1) ∧ s.ended <+: serial.calls ∧
    s.returned <+: serial.told (s.acquired.map (·.1)) ∧
    ((∀ i, (s.phase i).course? = none) →
      s.begun = serial.calls.map (·.1) ∧ s.ended = serial.calls ∧
      s.returned = serial.told (s.acquired.map (·.1)) ∧
      s.registry = serial.registry ∧ s.remote = serial.state) := by
  intro s serial
  have hserial : Serial answer r w s := Serial.run (.free Free.initial) schedule
  cases hserial with
  | free h =>
    have hbegun : s.begun = serial.calls.map (·.1) := h.begun.trans (congrArg _ h.ended)
    refine ⟨fun i _ p _ hi _ => ?_, ?_, ?_, ?_,
      fun _ => ⟨hbegun, h.ended, h.returned, h.registry, h.remote⟩⟩
    · obtain ⟨next, hi⟩ := Phase.calling_of_outstanding hi
      exact absurd (congrArg Phase.course? hi) h.no_holder
    · exact hbegun ▸ List.prefix_refl _
    · exact h.ended ▸ List.prefix_refl _
    · exact h.returned ▸ List.prefix_refl _
  | @held before k v op ex c h =>
    obtain ⟨-, -, hcalls, htold⟩ := h.through
    have hbegun := h.begun
    refine ⟨fun i j p q hi hj => ?_, ?_, ?_, ?_, fun hfree => ?_⟩
    · obtain ⟨next, hi⟩ := Phase.calling_of_outstanding hi
      obtain ⟨next', hj'⟩ := Phase.calling_of_outstanding hj
      obtain ⟨rfl, -⟩ := h.holder (congrArg Phase.course? hi)
      obtain ⟨rfl, -⟩ := h.holder (congrArg Phase.course? hj')
      exact ⟨rfl, h.shown q hj⟩
    · rw [hbegun, show serial.calls = _ from hcalls, List.map_append]
      exact (List.prefix_append_right_inj _).mpr h.outstanding_prefix
    · exact ⟨_, hcalls.symm⟩
    · exact ⟨_, htold.symm⟩
    · have hcourse := h.course k
      rw [hfree k, if_pos rfl] at hcourse
      cases hcourse

def contended : List (Action Bool) :=
  [.request false (.start "a" ⟨"g", "s"⟩), .request true (.start "b" ⟨"g", "s"⟩),
    .acquire true .byName, .beginCall true, .acquire false .byName, .beginCall false, .endCall true,
    .release true, .acquire false .byName, .request true .size, .beginCall false,
    .acquire true .byName, .endCall false, .release false, .acquire true .byName, .release true]

theorem run_serial_contended :
    let s := run (fun n q => (some (.ok (some q.source)), n + 1))
      { registry := Registry.new {} .zero, remote := 0 } contended
    (∀ i, (s.phase i).course? = none) ∧ s.acquired.map (·.1) = [true, false, true] ∧
      s.ended.map (·.1.source) = ["b", "a"] ∧
      s.returned = [(true, .finished), (false, .finished), (true, .counted 2)] ∧
      s.registry = ((Registry.new {} .zero).history (fun n q => (some (.ok (some q.source)), n + 1))
        (s.acquired.map (·.2)) 0).registry := by
  intro s
  have hidle : ∀ i, (s.phase i).course? = none := by
    intro i
    cases i <;> rfl
  have hserial := (run_serial (fun n q => (some (.ok (some q.source)), n + 1))
    (Registry.new {} .zero) 0 contended).2.2.2.2 hidle
  exact ⟨hidle, rfl, rfl, rfl, hserial.2.2.2.1⟩

end Shared
end LogRelay
