import LogRelay.Proofs.Interleaving
import LogRelay.Shipping

/-! A whole run with its tasks side by side. The router takes messages, and a sweeper sweeps now and
then; when no more messages are taken, the sweeper is told to end, and after that every source is
flushed and unregistered. -/

namespace LogRelay

namespace Phase

def waits : Phase → List Operation
  | waiting op => [op]
  | _ => []

end Phase

namespace Action

variable {ι : Type}

def requests : Action ι → Bool
  | request _ _ => true
  | _ => false

end Action

namespace Shared

variable {ι σ : Type} [DecidableEq ι]

def asked (s : Shared ι σ) (i : ι) : List Operation :=
  (s.acquired.filter (·.1 = i)).map (·.2.2) ++ (s.phase i).waits

section Steps

variable (answer : σ → Inquiry → Reply × σ) {s : Shared ι σ}

theorem step_request {i : ι} (h : s.phase i = .idle) (op : Operation) :
    s.step answer (.request i op) = s.enter i (.waiting op) := by
  rw [step, h]

theorem work_cases {a : Action ι} (ha : a.requests = false) :
    (∃ i v op, s.phase i = .waiting op ∧ s.step answer a =
      { s.enter i (.holding (op.course v s.registry)) with
        locked := true, acquired := s.acquired ++ [(i, v, op)] }) ∨
    ((s.step answer a).acquired = s.acquired ∧
      ∀ i, ((s.step answer a).phase i).waits = (s.phase i).waits ∧
        (s.phase i = .idle → (s.step answer a).phase i = .idle)) := by
  have hstays (s : Shared ι σ) (i : ι) : (s.phase i).waits = (s.phase i).waits ∧
      (s.phase i = .idle → s.phase i = .idle) := ⟨rfl, id⟩
  -- A caller that waits for nothing comes to wait for nothing.
  have henter (j : ι) (p : Phase) (hj : (s.phase j).waits = []) (hbusy : s.phase j ≠ .idle)
      (hp : p.waits = []) (i : ι) : ((s.enter j p).phase i).waits = (s.phase i).waits ∧
        (s.phase i = .idle → (s.enter j p).phase i = .idle) := by
    by_cases hi : i = j
    · subst hi
      rw [enter_self]
      exact ⟨hp.trans hj.symm, fun h => absurd h hbusy⟩
    · rw [enter_other s hi]
      exact ⟨rfl, id⟩
  cases a with
  | request => cases ha
  | acquire i v =>
    rw [step]
    split
    · split
      · exact Or.inr ⟨rfl, hstays s⟩
      · rename_i op hi _
        exact Or.inl ⟨i, v, op, hi, rfl⟩
    · exact Or.inr ⟨rfl, hstays s⟩
  | beginCall i =>
    rw [step]
    split
    · rename_i hi
      exact Or.inr ⟨rfl, henter i _ (by rw [hi]; rfl) (by simp [hi]) rfl⟩
    · exact Or.inr ⟨rfl, hstays s⟩
  | endCall i =>
    rw [step]
    split
    · rename_i hi
      exact Or.inr ⟨rfl, henter i _ (by rw [hi]; rfl) (by simp [hi]) rfl⟩
    · exact Or.inr ⟨rfl, hstays s⟩
  | release i =>
    rw [step]
    split
    · rename_i hi
      exact Or.inr ⟨rfl, henter i _ (by rw [hi]; rfl) (by simp [hi]) rfl⟩
    · exact Or.inr ⟨rfl, hstays s⟩

theorem asked_request_self {i : ι} (h : s.phase i = .idle) (op : Operation) :
    (s.enter i (.waiting op)).asked i = s.asked i ++ [op] := by
  unfold asked
  rw [enter_self, h]
  simp [Phase.waits, enter]

theorem asked_request_other {i j : ι} (op : Operation) (hj : j ≠ i) :
    (s.enter i (.waiting op)).asked j = s.asked j := by
  unfold asked
  rw [enter_other s hj]
  rfl

theorem idle_work {answer : σ → Inquiry → Reply × σ} {i : ι} {a : Action ι}
    (ha : a.requests = false) (h : s.phase i = .idle) : (s.step answer a).phase i = .idle := by
  rcases work_cases answer (s := s) ha with ⟨j, v, op, hj, hstep⟩ | ⟨-, hphase⟩
  · have hne : i ≠ j := fun heq => by cases h.symm.trans (heq ▸ hj)
    rw [hstep]
    exact (enter_other _ hne _).trans h
  · exact (hphase i).2 h

theorem asked_work {a : Action ι} (ha : a.requests = false) (j : ι) :
    (s.step answer a).asked j = s.asked j := by
  rcases work_cases answer (s := s) ha with
    ⟨i, v, op, hi, hstep⟩ | ⟨hacquired, hphase⟩
  · rw [hstep]
    by_cases hj : j = i
    · subst hj
      simp [asked, enter, hi, Phase.waits]
    · have hother : (s.enter i (.holding (op.course v s.registry))).phase j = s.phase j :=
        enter_other s hj _
      simp only [asked, hother]
      simp [Ne.symm hj]
  · rw [asked, asked, hacquired, (hphase j).1]

end Steps

end Shared

/-! ### The tasks -/

inductive Party where
  | router
  | sweeper
  deriving DecidableEq

inductive Stage where
  | reading
  -- No more are taken. The sweeper has been told to end, and is waited for.
  | joining
  -- Every source is flushed and unregistered; then the status pages are waited for.
  | draining
  | returned
  deriving DecidableEq

def Stage.ending : Stage → Bool
  | draining | returned => true
  | _ => false

structure Session (σ : Type) where
  shared : Shared Party σ
  input : List HostMessage
  dispatched : List (Int × HostMessage) := []
  cancelled : Bool := false
  stage : Stage := .reading
  sweeping : Bool := true
  serving : Bool

namespace Session

inductive Step where
  | cancel
  | poll (now : Int)
  | tick
  | join
  | unserve
  | close
  | work (a : Action Party)

variable {σ : Type}

def opened (c : Config) (w : σ) (messages : List HostMessage) : Session σ where
  shared := { registry := Shipping.registry c, remote := w }
  input := messages
  serving := c.status.isSome

variable (n : Naming) (answer : σ → Inquiry → Reply × σ)

def request (s : Session σ) (p : Party) (op : Operation) : Session σ :=
  { s with shared := s.shared.step answer (.request p op) }

/-- A cancellation counts before a message that is there as well. The sweeper looks whether it has
been told to end before each sweep, and finishes a sweep that it has begun. A step that cannot be
taken now changes nothing. -/
def step (s : Session σ) : Step → Session σ
  | .cancel => { s with cancelled := true }
  | .poll now =>
    match s.stage, s.shared.phase .router with
    | .reading, .idle =>
      if s.cancelled then { s with stage := .joining }
      else match s.input with
        | [] => { s with stage := .joining }
        | m :: rest => { s.request answer .router (n.operation now m) with
            input := rest, dispatched := s.dispatched ++ [(now, m)] }
    | _, _ => s
  | .tick =>
    match s.sweeping, s.shared.phase .sweeper with
    | true, .idle =>
      if s.stage = .reading then s.request answer .sweeper .sweep else { s with sweeping := false }
    | _, _ => s
  | .join =>
    match s.stage, s.shared.phase .router with
    | .joining, .idle =>
      if s.sweeping then s else { s.request answer .router .shutdown with stage := .draining }
    | _, _ => s
  | .unserve => { s with serving := false }
  | .close =>
    match s.stage, s.shared.phase .router with
    | .draining, .idle => if s.serving then s else { s with stage := .returned }
    | _, _ => s
  | .work a => if a.requests then s else { s with shared := s.shared.step answer a }

def run (s : Session σ) (schedule : List Step) : Session σ := schedule.foldl (step n answer) s

/-- All that a step can do. -/
inductive Moves (s : Session σ) : Session σ → Prop where
  | aside (cancelled serving : Bool) (h : s.cancelled = true → cancelled = true) :
      Moves s { s with cancelled, serving }
  | stop (hstage : s.stage = .reading) (hidle : s.shared.phase .router = .idle)
      (hend : s.cancelled = true ∨ s.input = []) : Moves s { s with stage := .joining }
  | take (now : Int) {m : HostMessage} {rest : List HostMessage} (hstage : s.stage = .reading)
      (hidle : s.shared.phase .router = .idle) (hinput : s.input = m :: rest) :
      Moves s { s with
        shared := s.shared.enter .router (.waiting (n.operation now m))
        input := rest, dispatched := s.dispatched ++ [(now, m)] }
  | sweep (hstage : s.stage = .reading) (hsweeping : s.sweeping = true)
      (hidle : s.shared.phase .sweeper = .idle) :
      Moves s { s with shared := s.shared.enter .sweeper (.waiting .sweep) }
  | rest (hstage : s.stage ≠ .reading) (hidle : s.shared.phase .sweeper = .idle) :
      Moves s { s with sweeping := false }
  | drain (hstage : s.stage = .joining) (hsweeping : s.sweeping = false)
      (hidle : s.shared.phase .router = .idle) :
      Moves s { s with
        shared := s.shared.enter .router (.waiting .shutdown), stage := .draining }
  | close (hstage : s.stage = .draining) (hidle : s.shared.phase .router = .idle)
      (hserving : s.serving = false) : Moves s { s with stage := .returned }
  | work (a : Action Party) (ha : a.requests = false) :
      Moves s { s with shared := s.shared.step answer a }

variable {n answer} {s : Session σ}

theorem step_moves (e : Step) : Moves n answer s (s.step n answer e) := by
  have hstill : Moves n answer s s := .aside s.cancelled s.serving id
  cases e with
  | cancel => exact .aside true s.serving fun _ => rfl
  | unserve => exact .aside s.cancelled false id
  | poll now =>
    rw [step]
    split
    · rename_i hstage hidle
      split
      · rename_i hcancelled
        exact .stop hstage hidle (Or.inl hcancelled)
      · split
        · rename_i hinput
          exact .stop hstage hidle (Or.inr hinput)
        · rename_i m rest hinput
          rw [request, Shared.step_request answer hidle]
          exact .take now hstage hidle hinput
    · exact hstill
  | tick =>
    rw [step]
    split
    · rename_i hsweeping hidle
      split
      · rename_i hstage
        rw [request, Shared.step_request answer hidle]
        exact .sweep hstage hsweeping hidle
      · rename_i hstage
        exact .rest hstage hidle
    · exact hstill
  | join =>
    rw [step]
    split
    · rename_i hstage hidle
      split
      · exact hstill
      · rename_i hsweeping
        rw [request, Shared.step_request answer hidle]
        exact .drain hstage (by simpa using hsweeping) hidle
    · exact hstill
  | close =>
    rw [step]
    split
    · rename_i hstage hidle
      split
      · exact hstill
      · rename_i hserving
        exact .close hstage hidle (by simpa using hserving)
    · exact hstill
  | work a =>
    rw [step]
    split
    · exact hstill
    · rename_i ha
      exact .work a (by simpa using ha)

theorem run_induction (P : Session σ → Prop)
    (hmoves : ∀ s s', Moves n answer s s' → P s → P s') (h : P s) (schedule : List Step) :
    P (s.run n answer schedule) := by
  unfold run
  induction schedule generalizing s with
  | nil => exact h
  | cons e rest ih => exact ih (hmoves s _ (step_moves e) h)

/-! ### What holds throughout -/

def Closing (s : Shared Party σ) : Prop :=
  (s.phase .router).waits = [.shutdown] ∨
    (s.phase .router).waits = [] ∧ ∃ before v, s.acquired = before ++ [(.router, v, .shutdown)]

theorem Closing.work {s : Shared Party σ} (h : Closing s) (hsweeper : s.phase .sweeper = .idle)
    {a : Action Party} (ha : a.requests = false) : Closing (s.step answer a) := by
  rcases Shared.work_cases answer (s := s) ha with
    ⟨i, v, op, hi, hstep⟩ | ⟨hacquired, hphase⟩
  · cases i with
    | sweeper => cases hsweeper.symm.trans hi
    | router =>
      rw [Closing, hi] at h
      rcases h with hlast | ⟨hnone, -⟩
      · obtain rfl : op = .shutdown := (List.cons.inj hlast).1
        rw [hstep]
        refine Or.inr ⟨?_, s.acquired, v, rfl⟩
        simp only [Shared.enter_self]
        rfl
      · cases hnone
  · rw [Closing, (hphase .router).1, hacquired]
    exact h

/-- How a run stands with respect to the messages that it is given. -/
structure Sound (n : Naming) (answer : σ → Inquiry → Reply × σ) (r : Registry) (w : σ)
    (messages : List HostMessage) (s : Session σ) : Prop where
  serial : Shared.Serial answer r w s.shared
  split : s.dispatched.map (·.2) ++ s.input = messages
  stopped : s.stage ≠ .reading → s.cancelled = true ∨ s.input = []
  router : s.shared.asked .router = s.dispatched.map (fun d => n.operation d.1 d.2) ++
    if s.stage.ending then [.shutdown] else []
  sweeper : ∀ op ∈ s.shared.asked .sweeper, op = .sweep
  rested : s.sweeping = false → s.stage ≠ .reading ∧ s.shared.phase .sweeper = .idle
  ending : s.stage.ending = true → s.sweeping = false ∧ Closing s.shared
  idle : s.stage = .joining ∨ s.stage = .returned → s.shared.phase .router = .idle

variable {r : Registry} {w : σ} {messages : List HostMessage} {s' : Session σ}

theorem Sound.opened (c : Config) (w : σ) (messages : List HostMessage) :
    Sound n answer (Shipping.registry c) w messages (opened c w messages) where
  serial := .free Shared.Free.initial
  split := rfl
  stopped h := absurd rfl h
  router := rfl
  sweeper := List.forall_mem_nil _
  rested := nofun
  ending := nofun
  idle := nofun

theorem Sound.serial_request (h : Sound n answer r w messages s) {p : Party} (op : Operation)
    (hidle : s.shared.phase p = .idle) :
    Shared.Serial answer r w (s.shared.enter p (.waiting op)) :=
  Shared.step_request answer hidle op ▸ h.serial.next (.request p op)

theorem Sound.take (h : Sound n answer r w messages s) (now : Int) {m : HostMessage}
    {rest : List HostMessage} (hstage : s.stage = .reading) (hidle : s.shared.phase .router = .idle)
    (hinput : s.input = m :: rest) :
    Sound n answer r w messages { s with
      shared := s.shared.enter .router (.waiting (n.operation now m))
      input := rest, dispatched := s.dispatched ++ [(now, m)] } := by
  have hrouter := h.router
  have hsweeper : Party.sweeper ≠ .router := nofun
  have hgoesOn : s.sweeping ≠ false := fun hrest => (h.rested hrest).1 hstage
  refine {
    serial := h.serial_request _ hidle
    split := ?_
    stopped := fun hstopped => absurd hstage hstopped
    router := ?_
    sweeper := Shared.asked_request_other (n.operation now m) hsweeper ▸ h.sweeper
    rested := fun hrest => absurd hrest hgoesOn
    ending := fun hending => by simp [hstage, Stage.ending] at hending
    idle := fun hstopped => by simp [hstage] at hstopped }
  · have hsplit := h.split
    rw [hinput] at hsplit
    simpa using hsplit
  · rw [Shared.asked_request_self hidle, hrouter]
    simp [hstage, Stage.ending]

theorem Sound.sweep (h : Sound n answer r w messages s) (hstage : s.stage = .reading)
    (hsweeping : s.sweeping = true) (hidle : s.shared.phase .sweeper = .idle) :
    Sound n answer r w messages
      { s with shared := s.shared.enter .sweeper (.waiting .sweep) } := by
  have hrouter : Party.router ≠ .sweeper := nofun
  have hgoesOn : s.sweeping ≠ false := by simp [hsweeping]
  refine { h with
    serial := h.serial_request _ hidle
    router := (Shared.asked_request_other .sweep hrouter).trans h.router
    sweeper := ?_
    rested := fun hrest => absurd hrest hgoesOn
    ending := fun hending => by simp [hstage, Stage.ending] at hending
    idle := fun hstopped => by simp [hstage] at hstopped }
  rw [Shared.asked_request_self hidle]
  exact List.forall_mem_append.mpr ⟨h.sweeper, List.forall_mem_singleton.mpr rfl⟩

theorem Sound.drain (h : Sound n answer r w messages s) (hstage : s.stage = .joining)
    (hsweeping : s.sweeping = false) (hidle : s.shared.phase .router = .idle) :
    Sound n answer r w messages { s with
      shared := s.shared.enter .router (.waiting .shutdown), stage := .draining } := by
  have hrouter := h.router
  have hsweeper : Party.sweeper ≠ .router := nofun
  have hresting : s.shared.phase .sweeper = .idle := (h.rested hsweeping).2
  refine {
    serial := h.serial_request _ hidle
    split := h.split
    stopped := fun _ => h.stopped (by simp [hstage])
    router := ?_
    sweeper := Shared.asked_request_other .shutdown hsweeper ▸ h.sweeper
    rested := fun _ => ⟨nofun, (Shared.enter_other s.shared hsweeper _).trans hresting⟩
    ending := fun _ => ⟨hsweeping, Or.inl ?_⟩
    idle := by simp }
  · rw [Shared.asked_request_self hidle, hrouter, hstage]
    simp [Stage.ending]
  · rw [Shared.enter_self]
    rfl

theorem Sound.work (h : Sound n answer r w messages s) {a : Action Party}
    (ha : a.requests = false) :
    Sound n answer r w messages { s with shared := s.shared.step answer a } := by
  have hrest {p : Party} (hidle : s.shared.phase p = .idle) :
      (s.shared.step answer a).phase p = .idle := Shared.idle_work ha hidle
  exact { h with
    serial := h.serial.next a
    router := (Shared.asked_work answer ha .router).trans h.router
    sweeper := Shared.asked_work answer (s := s.shared) ha .sweeper ▸ h.sweeper
    rested := fun hresting => ⟨(h.rested hresting).1, hrest (h.rested hresting).2⟩
    ending := fun hending => by
      obtain ⟨hresting, hclosing⟩ := h.ending hending
      exact ⟨hresting, hclosing.work (h.rested hresting).2 ha⟩
    idle := fun hstopped => hrest (h.idle hstopped) }

theorem Sound.moves (h : Sound n answer r w messages s) (hmoves : Moves n answer s s') :
    Sound n answer r w messages s' := by
  have hrouter := h.router
  cases hmoves with
  | aside cancelled serving hcancelled =>
    exact { h with stopped := fun hstage => (h.stopped hstage).imp_left hcancelled }
  | stop hstage hidle hend =>
    rw [hstage] at hrouter
    exact { h with
      stopped := fun _ => hend
      router := hrouter
      rested := fun hrest => ⟨nofun, (h.rested hrest).2⟩
      ending := nofun
      idle := fun _ => hidle }
  | take now hstage hidle hinput => exact h.take now hstage hidle hinput
  | sweep hstage hsweeping hidle => exact h.sweep hstage hsweeping hidle
  | rest hstage hidle =>
    exact { h with
      rested := fun _ => ⟨hstage, hidle⟩
      ending := fun hending => ⟨rfl, (h.ending hending).2⟩ }
  | drain hstage hsweeping hidle => exact h.drain hstage hsweeping hidle
  | close hstage hidle hserving =>
    rw [hstage] at hrouter
    exact { h with
      stopped := fun _ => h.stopped (by simp [hstage])
      router := hrouter
      rested := fun hrest => ⟨nofun, (h.rested hrest).2⟩
      ending := fun _ => h.ending (by simp [hstage, Stage.ending])
      idle := fun _ => hidle }
  | work a ha => exact h.work ha

theorem Sound.run (h : Sound n answer r w messages s) (schedule : List Step) :
    Sound n answer r w messages (s.run n answer schedule) :=
  run_induction (Sound n answer r w messages) (fun _ _ hmoves h => h.moves hmoves) h schedule

end Session

end LogRelay
