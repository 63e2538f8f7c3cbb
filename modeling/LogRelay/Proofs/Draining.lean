import LogRelay.Proofs.Conservation
import LogRelay.Proofs.DestinationChain
import LogRelay.Proofs.Progress

/-! The end of a run. When it returns, the messages that it took have been dealt with one by one, no
source is left, and whatever was accepted was sent; the last flush comes after every sweep, and
nothing comes after it. -/

namespace LogRelay

theorem Registry.batches_history_shutdown {σ : Type} (answer : σ → Inquiry → Reply × σ)
    (r : Registry) (ops : List (Visit × Operation)) (v : Visit) (w : σ) :
    (r.history answer (ops ++ [(v, .shutdown)]) w).registry.batches = Roster.empty := by
  rw [history_snoc]
  obtain ⟨_, hshutdown, -⟩ := Operation.answer_yields (Dialogue.run_yields answer
    (Operation.shutdown.course v _) _)
  exact (shutdown_yields hshutdown).1

theorem accepted_eq_closed {σ : Type} (limits : Limits) (callTimeout : Duration)
    (answer : σ → Inquiry → Reply × σ) (ops : List (Visit × Operation)) (w : σ) (id : SourceId) :
    let run := (Registry.new limits callTimeout).history answer ops w
    run.registry.batches.find? id = none →
      messages (run.turns.flatMap (·.accepted id)) =
        ((run.turns.flatMap (·.submissions id)).filter (·.closes)).flatMap (messages ·.events) := by
  intro run hnone
  have hsat := (Lifetime.conserves_invariant limits).holds answer callTimeout ops w id
  have hcovers := record_covers answer limits callTimeout ops w id
  have hcurrent : (Record.of id run.turns).current = none := by
    have hknown := hsat.known
    rw [show _ = none from hnone] at hknown
    simpa using hknown
  have hpast : (Record.of id run.turns).lifetimes = (Record.of id run.turns).past := by
    rw [Record.lifetimes, hcurrent]
    exact List.append_nil _
  rw [hcovers.accepted, hcovers.submissions, hpast]
  have hall := hsat.past
  generalize (Record.of id run.turns).past = past at hall
  induction past with
  | nil => rfl
  | cons l rest ih =>
    obtain ⟨hfirst, hrest⟩ := List.forall_mem_cons.mp hall
    have hclosed : messages l.accepted = l.closed.flatMap messages :=
      hfirst.trans (List.append_nil _)
    rw [List.flatMap_cons, messages_append, ih hrest, hclosed, List.flatMap_cons,
      List.filter_append, List.flatMap_append, Lifetime.closed, List.flatMap_map]

namespace Shared

variable {ι σ : Type} [DecidableEq ι] {answer : σ → Inquiry → Reply × σ} {s : Shared ι σ}

theorem work_idle (h : ∀ i, s.phase i = .idle) {a : Action ι} (ha : a.requests = false) :
    s.step answer a = s := by
  cases a with
  | request => cases ha
  | acquire i | beginCall i | endCall i | release i => rw [step, h i]

theorem Serial.free_of_idle {r : Registry} {w : σ} (h : Serial answer r w s)
    (hidle : ∀ i, s.phase i = .idle) : Free answer r w s := by
  cases h with
  | free h => exact h
  | @held before k v op ex c h =>
    have hcourse := h.course k
    rw [hidle k, if_pos rfl] at hcourse
    cases hcourse

end Shared

namespace Session

variable {σ : Type} {n : Naming} {answer : σ → Inquiry → Reply × σ} {r : Registry} {w : σ}
  {messages : List HostMessage} {s s' : Session σ}

theorem Sound.all_idle (h : Sound n answer r w messages s) (hending : s.stage.ending = true)
    (hidle : s.shared.phase .router = .idle) (p : Party) : s.shared.phase p = .idle := by
  cases p with
  | router => exact hidle
  | sweeper => exact (h.rested (h.ending hending).1).2

theorem Sound.over (h : Sound n answer r w messages s) (hending : s.stage.ending = true)
    (hidle : s.shared.phase .router = .idle) (hmoves : Moves n answer s s') :
    s'.stage.ending = true ∧ s'.shared = s.shared := by
  cases hmoves with
  | aside | rest => exact ⟨hending, rfl⟩
  | close => exact ⟨rfl, rfl⟩
  | stop hstage | take _ hstage | sweep hstage | drain hstage =>
    rw [hstage] at hending
    cases hending
  | work a ha => exact ⟨hending, Shared.work_idle (h.all_idle hending hidle) ha⟩

theorem Sound.run_over (h : Sound n answer r w messages s) (hending : s.stage.ending = true)
    (hidle : s.shared.phase .router = .idle) (more : List Step) :
    (s.run n answer more).shared = s.shared := by
  have hover : Sound n answer r w messages (s.run n answer more) ∧
      (s.run n answer more).stage.ending = true ∧ (s.run n answer more).shared = s.shared := by
    refine run_induction (fun s' => Sound n answer r w messages s' ∧ s'.stage.ending = true ∧
      s'.shared = s.shared) ?_ ⟨h, hending, rfl⟩ more
    rintro t t' hmoves ⟨hsound, hend, hsame⟩
    obtain ⟨hend', hsame'⟩ := hsound.over hend (hsame ▸ hidle) hmoves
    exact ⟨hsound.moves hmoves, hend', hsame'.trans hsame⟩
  exact hover.2.2

theorem Sound.shutdown_last (h : Sound n answer r w messages s) (hending : s.stage.ending = true)
    (hidle : s.shared.phase .router = .idle) :
    ∃ before v, s.shared.acquired = before ++ [(.router, v, .shutdown)] := by
  rcases (h.ending hending).2 with hwaits | ⟨-, hlast⟩
  · rw [hidle] at hwaits
    cases hwaits
  · exact hlast

theorem Sound.turns (h : Sound n answer r w messages s) (hending : s.stage.ending = true)
    (hidle : s.shared.phase .router = .idle) : ∃ before v,
      s.shared.acquired = before ++ [(.router, v, .shutdown)] ∧
      (before.filter (·.1 = .router)).map (·.2.2) =
        s.dispatched.map (fun d => n.operation d.1 d.2) ∧
      ∀ e ∈ before, e.1 = .sweeper → e.2.2 = .sweep := by
  obtain ⟨before, v, hacquired⟩ := h.shutdown_last hending hidle
  refine ⟨before, v, hacquired, ?_, fun e he hsweeper => ?_⟩
  · have hrouter := h.router
    rw [Shared.asked, hacquired, hidle, hending] at hrouter
    simpa [Phase.waits] using hrouter
  · refine h.sweeper _ (List.mem_append_left _ (List.mem_map_of_mem (List.mem_filter.mpr ⟨?_, ?_⟩)))
    · exact hacquired ▸ List.mem_append_left _ he
    · simpa using hsweeper

/-- How a run stands that has come to its end. The history is of the operations one by one. -/
structure Drained (n : Naming) (messages : List HostMessage) (serial : History σ) (s : Session σ) :
    Prop where
  taken : s.dispatched.map (·.2) <+: messages
  whole : s.cancelled = false → s.dispatched.map (·.2) = messages
  -- Each message that was taken was dealt with once, in its turn; last of all every source was
  -- flushed and unregistered.
  turns : ∃ before v, s.shared.acquired = before ++ [(.router, v, .shutdown)] ∧
    (before.filter (·.1 = .router)).map (·.2.2) = s.dispatched.map (fun d => n.operation d.1 d.2) ∧
    ∀ e ∈ before, e.1 = .sweeper → e.2.2 = .sweep
  returned : s.shared.returned = serial.told (s.shared.acquired.map (·.1))
  ended : s.shared.ended = serial.calls
  begun : s.shared.begun = s.shared.ended.map (·.1)
  registry : s.shared.registry = serial.registry
  unregistered : s.shared.registry.batches = Roster.empty
  -- Whatever was accepted for a source was carried by a submission for it.
  carried : ∀ id, LogRelay.messages (serial.turns.flatMap (·.accepted id)) =
    ((serial.turns.flatMap (·.submissions id)).filter (·.closes)).flatMap
      (LogRelay.messages ·.events)

theorem Sound.drained {limits : Limits} {callTimeout : Duration}
    (h : Sound n answer (.new limits callTimeout) w messages s) (hstage : s.stage = .returned) :
    Drained n messages ((Registry.new limits callTimeout).history answer
      (s.shared.acquired.map (·.2)) w) s := by
  have hending : s.stage.ending = true := by rw [hstage]; rfl
  have hidle : s.shared.phase .router = .idle := h.idle (Or.inr hstage)
  have hfree := h.serial.free_of_idle (h.all_idle hending hidle)
  obtain ⟨before, v, hacquired⟩ := h.shutdown_last hending hidle
  have hunregistered : s.shared.registry.batches = Roster.empty := by
    rw [hfree.registry, Shared.oneByOne, hacquired, List.map_append, List.map_singleton]
    exact Registry.batches_history_shutdown answer _ _ v w
  exact {
    taken := ⟨s.input, h.split⟩
    whole := fun hgoesOn => by
      have hsplit := h.split
      rcases h.stopped (by simp [hstage]) with hcancelled | hinput
      · exact absurd hcancelled (by simp [hgoesOn])
      · simpa [hinput] using hsplit
    turns := h.turns hending hidle
    returned := hfree.returned
    ended := hfree.ended
    begun := hfree.begun
    registry := hfree.registry
    unregistered := hunregistered
    carried := fun id => accepted_eq_closed limits callTimeout answer _ w id <| by
      have hnone := congrArg (Roster.find? · id) hunregistered
      rw [hfree.registry] at hnone
      exact hnone }

/-- In every schedule of the tasks, whatever the remote answers and whenever the run is cancelled:
when the run returns, it has come to its end. From when the last flush is asked for, the sweeper has
ended; and when that flush is made, nothing is begun any more. And however the run stands, it can be
brought to its end. -/
theorem run_drains (host : String) (c : Config) (answer : σ → Inquiry → Reply × σ) (w : σ)
    (messages : List HostMessage) (schedule : List Step) :
    let n := Shipping.naming host c
    let s := (opened c w messages).run n answer schedule
    let serial := (Shipping.registry c).history answer (s.shared.acquired.map (·.2)) w
    (s.stage = .returned → Drained n messages serial s) ∧
      (s.stage.ending = true → s.sweeping = false ∧ s.shared.phase .sweeper = .idle ∧
        (s.shared.phase .router = .idle → ∀ more, (s.run n answer more).shared = s.shared)) ∧
      ∃ more, (s.run n answer more).stage = .returned := by
  intro n s serial
  have hsound : Sound n answer (Shipping.registry c) w messages s :=
    (Sound.opened c w messages).run schedule
  refine ⟨hsound.drained, fun hending => ?_, hsound.can_return⟩
  have hrested := (hsound.ending hending).1
  exact ⟨hrested, (hsound.rested hrested).2, fun hidle => hsound.run_over hending hidle⟩

def interrupted : List Step :=
  [.poll 5, .work (.acquire .router .byName), .work (.beginCall .router), .work (.endCall .router),
    .work (.release .router), .poll 6, .work (.acquire .router .byName), .work (.release .router),
    .tick, .work (.acquire .sweeper .byName), .work (.beginCall .sweeper), .cancel, .poll 7, .join,
    .tick, .work (.endCall .sweeper), .work (.release .sweeper), .tick, .join,
    .work (.acquire .router .byName), .work (.release .router), .close]

def localhost : Config := { remote := { endpoint := "http://localhost" } }

def alwaysStores (calls : Nat) (_ : Inquiry) : Reply × Nat := (some (.ok none), calls + 1)

def interruptedRun : Session Nat :=
  (opened localhost 0 [.start "a" none none, .log "a" "x" none, .log "a" "y" (some 9)]).run
    (Shipping.naming "h" localhost) alwaysStores interrupted

theorem run_drains_interrupted :
    interruptedRun.stage = .returned ∧
      interruptedRun.shared.registry.batches = Roster.empty ∧
      interruptedRun.dispatched = [(5, .start "a" none none), (6, .log "a" "x" none)] ∧
      interruptedRun.shared.acquired.map (·.1) = [.router, .router, .sweeper, .router] ∧
      interruptedRun.shared.begun.length = 2 := by
  have hstage : interruptedRun.stage = .returned := by decide +kernel
  have hdrained := (run_drains "h" localhost alwaysStores 0 _ interrupted).1 hstage
  exact ⟨hstage, hdrained.unregistered, by decide +kernel, by decide +kernel, by decide +kernel⟩

end Session

/-! ### The run of the registry by itself -/

def Occurrence.message? : Occurrence → Option (Int × HostMessage)
  | message now m => some (now, m)
  | sweep | cancel => none

theorem Shipping.runFrom_history {σ : Type} (n : Naming) (answer : σ → Inquiry → Reply × σ)
    {occurrences : List Occurrence} (hgoesOn : .cancel ∉ occurrences) (dispatched : Nat)
    (r : Registry) (w : σ) :
    let held := (runFrom n dispatched r occurrences).run answer w
    let asked := occurrences.map n.asks ++ [Operation.shutdown]
    let serial := r.history answer (asked.map (Visit.byName, ·)) w
    held.result.1 = serial.registry ∧
      held.result.2.dispatched = dispatched + (occurrences.filterMap (·.message?)).length ∧
      held.exchanges = serial.calls ∧ held.state = serial.state := by
  induction occurrences generalizing dispatched r w with
  | nil =>
    simp [runFrom, Registry.history, Operation.course, Operation.answer, Dialogue.run_bind,
      Dialogue.run, History.calls]
  | cons o rest ih =>
    obtain ⟨ho, hrest⟩ := not_or.mp (mt List.mem_cons.mpr hgoesOn)
    cases o with
    | cancel => exact absurd rfl ho
    | message now m =>
      obtain ⟨hregistry, hdispatched, hcalls, hstate⟩ := ih hrest (dispatched + 1)
        (((n.operation now m).course .byName r).run answer w).result.1
        (((n.operation now m).course .byName r).run answer w).state
      simp only [runFrom, Dialogue.run_bind]
      refine ⟨hregistry, hdispatched.trans ?_, ?_, hstate⟩
      · simp only [List.filterMap_cons, Occurrence.message?, List.length_cons]
        omega
      · rw [hcalls]
        rfl
    | sweep =>
      obtain ⟨hregistry, hdispatched, hcalls, hstate⟩ := ih hrest dispatched
        ((r.sweep .byName).run answer w).result.1 ((r.sweep .byName).run answer w).state
      simp only [runFrom, Dialogue.run_bind, List.map_cons, List.cons_append, Registry.history,
        Naming.asks, Operation.course, Operation.answer, Dialogue.run]
      refine ⟨hregistry, hdispatched, ?_, hstate⟩
      rw [hcalls]
      simp [History.calls]

theorem exists_occurrences {n : Naming} {before : List (Party × Visit × Operation)}
    {dispatched : List (Int × HostMessage)}
    (hrouter : (before.filter (·.1 = .router)).map (·.2.2) =
      dispatched.map fun d => n.operation d.1 d.2)
    (hsweeper : ∀ e ∈ before, e.1 = .sweeper → e.2.2 = .sweep) :
    ∃ occurrences : List Occurrence, .cancel ∉ occurrences ∧
      occurrences.filterMap (·.message?) = dispatched ∧
      before.map (·.2.2) = occurrences.map n.asks := by
  induction before generalizing dispatched with
  | nil =>
    obtain rfl : dispatched = [] := List.map_eq_nil_iff.mp hrouter.symm
    exact ⟨[], List.not_mem_nil, rfl, rfl⟩
  | cons e rest ih =>
    obtain ⟨p, v, op⟩ := e
    obtain ⟨hfirst, hrest⟩ := List.forall_mem_cons.mp hsweeper
    cases p with
    | sweeper =>
      obtain rfl : op = .sweep := hfirst rfl
      obtain ⟨occurrences, hgoesOn, hmessages, hasks⟩ := ih hrouter hrest
      refine ⟨.sweep :: occurrences, by simp [hgoesOn], hmessages, ?_⟩
      rw [List.map_cons, List.map_cons, hasks]
      rfl
    | router =>
      obtain ⟨d, later, rfl, hop, hlater⟩ := List.map_eq_cons_iff.mp hrouter.symm
      obtain ⟨occurrences, hgoesOn, hmessages, hasks⟩ := ih hlater.symm hrest
      refine ⟨.message d.1 d.2 :: occurrences, by simp [hgoesOn], ?_, ?_⟩
      · rw [List.filterMap_cons, hmessages]
        rfl
      · rw [List.map_cons, List.map_cons, hasks]
        exact congrArg (· :: _) hop.symm

/-- A run of the tasks side by side is a run of the registry by itself, if the sources are gone
through by name: the messages and the sweeps come as they got the lock. -/
theorem Session.run_shipped {σ : Type} (host : String) (c : Config)
    (answer : σ → Inquiry → Reply × σ) (w : σ) (messages : List HostMessage)
    (schedule : List Session.Step) :
    let s := (Session.opened c w messages).run (Shipping.naming host c) answer schedule
    s.stage = .returned → (∀ e ∈ s.shared.acquired, e.2.1 = .byName) →
      ∃ occurrences : List Occurrence,
        let held := (Shipping.run host c occurrences).run answer w
        occurrences.filterMap (·.message?) = s.dispatched ∧
        held.result.1 = s.shared.registry ∧ held.result.2.dispatched = s.dispatched.length ∧
        held.exchanges = s.shared.ended := by
  intro s hstage hbyName
  have hsound : Session.Sound (Shipping.naming host c) answer (Shipping.registry c) w messages s :=
    (Session.Sound.opened c w messages).run schedule
  have hdrained := hsound.drained hstage
  obtain ⟨before, v, hacquired, hrouter, hsweeper⟩ := hdrained.turns
  obtain ⟨occurrences, hgoesOn, hmessages, hasks⟩ := exists_occurrences hrouter hsweeper
  have hasked : s.shared.acquired.map (·.2.2) =
      occurrences.map (Shipping.naming host c).asks ++ [Operation.shutdown] := by
    rw [← hasks, hacquired, List.map_append, List.map_singleton]
  have hops : s.shared.acquired.map (·.2) =
      (s.shared.acquired.map (·.2.2)).map (Visit.byName, ·) := by
    rw [List.map_map]
    exact List.map_congr_left fun e he => Prod.ext (hbyName e he) rfl
  obtain ⟨hregistry, hdispatched, hcalls, -⟩ :=
    Shipping.runFrom_history (Shipping.naming host c) answer hgoesOn 0 (Shipping.registry c) w
  rw [← hasked, ← hops] at hregistry hcalls
  refine ⟨occurrences, hmessages, hregistry.trans hdrained.registry.symm, ?_,
    hcalls.trans hdrained.ended.symm⟩
  rw [← hmessages, ← Nat.zero_add (occurrences.filterMap _).length]
  exact hdispatched

end LogRelay
