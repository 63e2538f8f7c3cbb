import LogRelay.Proofs.Interleaving
import LogRelay.Timeline.Basic

/-! The timeline is one way for callers to share a registry: whatever happens on it is a schedule of
their steps, with the tickets for callers and with the script for the remote. -/

namespace LogRelay

def Script.respond (s : Script) (q : Inquiry) : Reply × Script :=
  let (step, s) := s.begin q.call
  if !step.hangs && step.delay ≤ q.registry.callTimeout.toNanos then
    let (answer, s) := s.finish step q.call
    (some answer, s)
  else (none, s)

namespace Timeline

structure Base (t : Timeline) (s : Shared Nat Script) : Prop where
  registry : t.registry = s.registry
  calls : t.calls = (s.begun.map (·.call)).reverse
  apart : t.overlapped = false
  results : ∀ e ∈ t.results, e ∈ s.returned
  fresh : ∀ n, t.nextTicket ≤ n → s.phase n = .idle
  line : ∀ e ∈ t.waiting, s.phase e.1 = .waiting e.2
  distinct : (t.waiting.map (·.1)).Nodup

/-- The call under way is that of one of the callers, and its step of the script is taken. -/
structure Awaits (p : Pending) (script : Script) (s : Shared Nat Script) (q : Inquiry) : Prop where
  phase : s.phase p.ticket = .calling q p.next
  call : q.call = p.call
  begun : s.remote.begin p.call = (p.step, script)
  inTime : p.inTime = (!p.step.hangs && p.step.delay ≤ q.registry.callTimeout.toNanos)

structure Depicts (t : Timeline) (s : Shared Nat Script) : Prop where
  base : Base t s
  free : t.pending = none → s.locked = false ∧ s.remote = t.script
  busy : ∀ p, t.pending = some p → ∃ q, Awaits p t.script s q

def Attains (t : Timeline) (s : Shared Nat Script) : Prop :=
  ∃ schedule, t.Depicts (s.run Script.respond schedule)

variable {t : Timeline} {s : Shared Nat Script}

theorem Depicts.attains (h : t.Depicts s) : t.Attains s := ⟨[], h⟩

theorem Attains.of_step (a : Action Nat) (h : t.Attains (s.step Script.respond a)) :
    t.Attains s := h.elim fun schedule hrun => ⟨a :: schedule, hrun⟩

theorem Attains.trans {t' : Timeline} (h : t.Attains s)
    (hnext : ∀ s', t.Depicts s' → t'.Attains s') : t'.Attains s := by
  obtain ⟨schedule, hrun⟩ := h
  obtain ⟨more, hmore⟩ := hnext _ hrun
  refine ⟨schedule ++ more, ?_⟩
  unfold Shared.run at *
  rwa [List.foldl_append]

theorem Base.enter (h : Base t s) {i : Nat} {c : Course Outcome}
    (hi : (s.phase i).course? = some c) (p : Phase) :
    (∀ n, t.nextTicket ≤ n → (s.enter i p).phase n = .idle) ∧
      ∀ e ∈ t.waiting, (s.enter i p).phase e.1 = .waiting e.2 := by
  refine ⟨fun n hn => ?_, fun e he => ?_⟩
  · have hphase := h.fresh n hn
    have hne : n ≠ i := by
      rintro rfl
      rw [hphase] at hi
      cases hi
    exact (Shared.enter_other s hne _).trans hphase
  · have hphase := h.line e he
    have hne : e.1 ≠ i := by
      rintro heq
      rw [heq] at hphase
      rw [hphase] at hi
      cases hi
    exact (Shared.enter_other s hne _).trans hphase

theorem Base.endCall (h : Base t s) {i : Nat} {q : Inquiry} {next : Reply → Course Outcome}
    (hi : s.phase i = .calling q next) :
    let served := s.remote.respond q
    let s' := s.step Script.respond (.endCall i)
    Base t s' ∧ s'.phase i = .holding (next served.1) ∧ s'.remote = served.2 := by
  intro served s'
  have hs' : s' = { s.enter i (.holding (next served.1)) with
      remote := served.2, ended := s.ended ++ [(q, served.1)] } := by
    simp only [s', Shared.step, hi]
    rfl
  obtain ⟨hfresh, hline⟩ := h.enter (congrArg Phase.course? hi) (.holding (next served.1))
  rw [hs']
  exact ⟨{ h with fresh := hfresh, line := hline }, Shared.enter_self .., rfl⟩

theorem Base.release (h : Base t s) {i : Nat} {r : Registry} {outcome : Outcome}
    (hi : s.phase i = .holding (.done (r, outcome))) :
    let s' := s.step Script.respond (.release i)
    Base { t with registry := r, results := (i, outcome) :: t.results } s' ∧ s'.locked = false ∧
      s'.remote = s.remote := by
  intro s'
  have hs' : s' = { s.enter i .idle with
      registry := r, locked := false, returned := s.returned ++ [(i, outcome)] } := by
    simp only [s', Shared.step, hi]
  obtain ⟨hfresh, hline⟩ := h.enter (congrArg Phase.course? hi) .idle
  rw [hs']
  refine ⟨{ h with registry := rfl, results := ?_, fresh := hfresh, line := hline }, rfl, rfl⟩
  intro e he
  rcases List.mem_cons.mp he with rfl | he
  · simp
  · exact List.mem_append_left _ (h.results e he)

theorem Base.beginCall (h : Base t s) {i : Nat} {q : Inquiry} {next : Reply → Course Outcome}
    (hi : s.phase i = .holding (.ask q next)) (script : Script) :
    let s' := s.step Script.respond (.beginCall i)
    Base { t with registry := q.registry, script, calls := q.call :: t.calls } s' ∧
      s'.phase i = .calling q next ∧ s'.remote = s.remote := by
  intro s'
  have hs' : s' = { s.enter i (.calling q next) with
      registry := q.registry, begun := s.begun ++ [q] } := by
    simp only [s', Shared.step, hi]
  obtain ⟨hfresh, hline⟩ := h.enter (congrArg Phase.course? hi) (.calling q next)
  rw [hs']
  refine ⟨{ h with registry := rfl, calls := ?_, fresh := hfresh, line := hline },
    Shared.enter_self .., rfl⟩
  simp [h.calls]

def Followed (ticket : Nat) (c : Course Outcome) : Prop :=
  ∀ {t : Timeline} {s : Shared Nat Script}, Base t s → t.pending = none →
    s.phase ticket = .holding c → s.remote = t.script → (follow ticket t c).Attains s

theorem endCall_attains {ticket : Nat} {q : Inquiry} {next : Reply → Course Outcome}
    {step : Script.Step} (h : Base t s) (hpending : t.pending = none)
    (hcalling : s.phase ticket = .calling q next)
    (hbegun : s.remote.begin q.call = (step, t.script))
    (hnext : ∀ reply, Followed ticket (next reply)) :
    (if !step.hangs && step.delay ≤ q.registry.callTimeout.toNanos then
      follow ticket { t with script := (t.script.finish step q.call).2 }
        (next (some (t.script.finish step q.call).1))
    else follow ticket t (next none)).Attains s := by
  obtain ⟨hbase, hholding, hremote⟩ := h.endCall hcalling
  refine .of_step (.endCall ticket) ?_
  unfold Script.respond at hholding hremote
  simp only [hbegun] at hholding hremote
  split
  · rename_i hintime
    simp only [hintime, if_true] at hholding hremote
    exact hnext _ { hbase with } hpending hholding hremote
  · rename_i hlate
    simp only [hlate, Bool.false_eq_true, if_false] at hholding hremote
    exact hnext _ hbase hpending hholding hremote

/-- The holder of the lock goes on until a call of it takes time, or until it is through. -/
theorem followed (ticket : Nat) (c : Course Outcome) : Followed ticket c := by
  induction c with
  | done out =>
    intro t s h hpending hphase hremote
    obtain ⟨r, outcome⟩ := out
    obtain ⟨hbase, hlocked, hsame⟩ := h.release hphase
    refine .of_step (.release ticket) (Depicts.attains ⟨hbase, fun _ => ?_, fun p hp => ?_⟩)
    · exact ⟨hlocked, hsame.trans hremote⟩
    · rw [follow] at hp
      cases hpending.symm.trans hp
  | ask q next ih =>
    intro t s h hpending hphase hremote
    obtain ⟨r, id, call⟩ := q
    rcases hbegin : t.script.begin call with ⟨step, script⟩
    obtain ⟨hbase, hcalling, hsame⟩ := h.beginCall hphase script
    refine .of_step (.beginCall ticket) ?_
    have hbegun : (s.step Script.respond (.beginCall ticket)).remote.begin call =
        (step, script) := by
      rw [hsame, hremote, hbegin]
    have hresume := endCall_attains hbase hpending hcalling hbegun ih
    have hclash : (t.overlapped || t.pending.any fun p =>
        (submitsTo call).isSome && submitsTo p.call = submitsTo call) = t.overlapped := by
      simp [hpending]
    simp only [follow, hbegin, hclash]
    split
    · rename_i hslow
      generalize hwait : (if (!step.hangs && decide (step.delay ≤ r.callTimeout.toNanos)) = true
        then step.delay else r.callTimeout.toNanos) = wait
      by_cases hzero : wait = 0
      · -- A wait of no length is one that is given up.
        have hlate : (!step.hangs && decide (step.delay ≤ r.callTimeout.toNanos)) = false := by
          rw [← Bool.not_eq_true]
          intro hintime
          rw [if_pos hintime, hzero] at hwait
          simp [hwait] at hslow hintime
          exact Bool.noConfusion (hslow.symm.trans hintime)
        rw [if_pos hzero]
        simpa only [hlate, Bool.false_eq_true, if_false] using hresume
      · rw [if_neg hzero]
        refine Depicts.attains ⟨{ hbase with }, fun hnone => ?_, fun p hp => ?_⟩
        · cases hnone
        · cases hp
          exact ⟨_, hcalling, rfl, hbegun, rfl⟩
    · rename_i hquick
      have hintime : (!step.hangs && decide (step.delay ≤ r.callTimeout.toNanos)) = true := by
        simp only [Bool.or_eq_true, decide_eq_true_eq, not_or, Bool.not_eq_true] at hquick
        have hdelay : step.delay = 0 := by omega
        simp [hquick.1, hdelay]
      simpa only [hintime, if_true] using hresume

theorem Depicts.complete (h : t.Depicts s) {p : Pending} (hp : t.pending = some p) :
    (t.complete p).Attains s := by
  obtain ⟨q, hawaits⟩ := h.busy p hp
  have hbase : Base { t with now := max t.now p.due, pending := none } s := { h.base with }
  have hbegun := hawaits.begun
  rw [← hawaits.call] at hbegun
  have hresume := endCall_attains hbase rfl hawaits.phase hbegun fun reply =>
    followed p.ticket (p.next reply)
  rw [← hawaits.inTime, hawaits.call] at hresume
  exact hresume

/-! ### The line -/

theorem Depicts.retime (h : t.Depicts s) (now : Nat) (sweeper : Option Sweeper)
    (replaced : List Sweeper) : Depicts { t with now, sweeper, replaced } s :=
  ⟨{ h.base with }, h.free, h.busy⟩

theorem Depicts.join (h : t.Depicts s) (op : Operation) : (t.join op).2.Attains s := by
  have hidle := h.base.fresh t.nextTicket (Nat.le_refl _)
  have hs' : s.step Script.respond (.request t.nextTicket op) =
      s.enter t.nextTicket (.waiting op) := by
    simp only [Shared.step, hidle]
  -- The one who joins was idle, and those that are elsewhere are others.
  have hother {n : Nat} {p : Phase} (hn : s.phase n = p) (hp : p ≠ .idle) :
      (s.enter t.nextTicket (.waiting op)).phase n = p ∧ n ≠ t.nextTicket := by
    have hne : n ≠ t.nextTicket := by
      rintro rfl
      exact hp (hn.symm.trans hidle)
    exact ⟨(Shared.enter_other s hne _).trans hn, hne⟩
  refine .of_step (.request t.nextTicket op) (Depicts.attains ?_)
  rw [hs']
  refine ⟨{ h.base with fresh := ?_, line := ?_, distinct := ?_ }, h.free, fun p hp => ?_⟩
  · intro n hn
    have hn : t.nextTicket + 1 ≤ n := hn
    have hne : n ≠ t.nextTicket := by omega
    exact (Shared.enter_other s hne _).trans (h.base.fresh n (by omega))
  · intro e he
    rcases List.mem_append.mp he with he | he
    · exact (hother (h.base.line e he) Phase.noConfusion).1
    · rw [List.mem_singleton.mp he]
      exact Shared.enter_self ..
  · have hnew : t.nextTicket ∉ t.waiting.map (·.1) := by
      intro hmem
      obtain ⟨e, he, heq⟩ := List.mem_map.mp hmem
      exact (hother (h.base.line e he) Phase.noConfusion).2 heq
    have hwaiting : (t.join op).2.waiting.map (·.1) = t.waiting.map (·.1) ++ [t.nextTicket] :=
      List.map_append
    rw [hwaiting]
    refine List.nodup_append.mpr ⟨h.base.distinct, by simp, ?_⟩
    rintro n hn m hm rfl
    rw [List.mem_singleton.mp hm] at hn
    exact hnew hn
  · obtain ⟨q, hawaits⟩ := h.busy p hp
    exact ⟨q, { hawaits with phase := (hother hawaits.phase Phase.noConfusion).1 }⟩

theorem Depicts.turn (h : t.Depicts s) (hpending : t.pending = none) {ticket : Nat}
    {op : Operation} {rest : List (Nat × Operation)} (hwaiting : t.waiting = (ticket, op) :: rest) :
    (follow ticket { t with waiting := rest } (op.course .byName t.registry)).Attains s := by
  obtain ⟨hlocked, hremote⟩ := h.free hpending
  have hline := h.base.line
  have hdistinct := h.base.distinct
  rw [hwaiting] at hline hdistinct
  have hphase : s.phase ticket = .waiting op := hline (ticket, op) List.mem_cons_self
  obtain ⟨hticket, hrest⟩ := List.nodup_cons.mp hdistinct
  have hs' : s.step Script.respond (.acquire ticket .byName) =
      { s.enter ticket (.holding (op.course .byName t.registry)) with
        locked := true, acquired := s.acquired ++ [(ticket, .byName, op)] } := by
    simp only [Shared.step, hphase, hlocked, Bool.false_eq_true, if_false, h.base.registry]
  refine .of_step (.acquire ticket .byName) ?_
  rw [hs']
  refine followed ticket _ { h.base with fresh := ?_, line := ?_, distinct := hrest } hpending
    (Shared.enter_self ..) hremote
  · intro n hn
    have hidle := h.base.fresh n hn
    have hne : n ≠ ticket := by
      rintro rfl
      cases hphase.symm.trans hidle
    exact (Shared.enter_other s hne _).trans hidle
  · intro e he
    have hmem : e.1 ∈ rest.map (·.1) := List.mem_map_of_mem he
    have hne : e.1 ≠ ticket := by
      rintro heq
      exact hticket (heq ▸ hmem)
    exact (Shared.enter_other s hne _).trans (hline e (List.mem_cons_of_mem _ he))

theorem follow_waiting (ticket : Nat) (t : Timeline) (l : List (Nat × Operation))
    (c : Course Outcome) :
    follow ticket { t with waiting := l } c = { follow ticket t c with waiting := l } := by
  induction c generalizing t with
  | done out => rfl
  | ask q next ih =>
    simp only [follow]
    split
    · generalize (if (!(t.script.begin q.call).1.hangs && decide
        ((t.script.begin q.call).1.delay ≤ q.registry.callTimeout.toNanos)) = true
        then (t.script.begin q.call).1.delay else q.registry.callTimeout.toNanos) = wait
      split
      · exact ih none ⟨_, _, _, _, t.waiting, _, _, _, _, _, _⟩
      · rfl
    · exact ih _ ⟨_, _, _, _, t.waiting, _, _, _, _, _, _⟩

theorem serve_attains {l : List (Nat × Operation)} (h : Depicts { t with waiting := l } s) :
    (t.serve l).Attains s := by
  induction l generalizing t s with
  | nil => exact h.attains
  | cons first rest ih =>
    obtain ⟨ticket, op⟩ := first
    unfold serve
    split
    · exact h.attains
    · rename_i hfree
      have hpending : t.pending = none := by
        simp only [Bool.or_eq_true, not_or, Option.not_isSome_iff_eq_none] at hfree
        exact hfree.1
      have hturn := h.turn hpending rfl
      refine hturn.trans fun s' hs' => ih ?_
      rwa [← follow_waiting]

/-! ### The clock -/

theorem Depicts.tick (h : t.Depicts s) (sweeper : Sweeper) : (t.tick sweeper).Attains s :=
  ((h.retime (max t.now sweeper.due) t.sweeper t.replaced).join .sweep).trans fun _ hs' =>
    (hs'.retime ..).attains

theorem Depicts.rest (h : t.Depicts s) : t.rest.Attains s := by
  unfold Timeline.rest
  split
  · dsimp only
    split
    · exact h.tick _
    · exact (h.retime ..).attains
  · exact h.attains

def Occurs (t : Timeline) : Occasion → Prop
  | .answer p => t.pending = some p
  | .tick _ => True
  | .turn ticket op rest => t.pending = none ∧ t.waiting = (ticket, op) :: rest

theorem next?_occurs {due : Nat} {o : Occasion} (h : t.next? = some (due, o)) : t.Occurs o := by
  unfold next? at h
  have htick : ∀ x ∈ ((t.sweepers.filter Sweeper.idle).minOn? (·.due)).map
      (fun s => (max t.now s.due, Occasion.tick s)), t.Occurs x.2 := by
    intro x hx
    obtain ⟨sweeper, -, rfl⟩ := Option.map_eq_some_iff.mp hx
    exact trivial
  dsimp only at h
  split at h
  · rename_i hpending hwaiting
    cases h
    exact ⟨hpending, hwaiting⟩
  · exact htick _ h
  · rename_i p _ hpending
    split at h
    · rename_i htime
      rw [Option.some.injEq] at h
      split at h
      · cases h
        exact hpending
      · cases h
        exact htick _ htime
    · cases h
      exact hpending

theorem Depicts.happen (h : t.Depicts s) {o : Occasion} (ho : t.Occurs o) :
    (t.happen o).Attains s := by
  unfold Timeline.happen
  refine Attains.trans ?_ fun _ hs' => serve_attains hs'
  cases o with
  | answer p => exact (h.complete ho).trans fun _ hs' => hs'.rest
  | tick sweeper => exact h.tick sweeper
  | turn ticket op rest => exact (h.turn ho.1 ho.2).trans fun _ hs' => hs'.rest

theorem Depicts.passUntil (h : t.Depicts s) (fuel time : Nat) :
    (t.passUntil fuel time).Attains s := by
  induction fuel generalizing t s with
  | zero => exact h.attains
  | succ fuel ih =>
    unfold Timeline.passUntil
    split
    · rename_i ho
      split
      · exact (h.happen (next?_occurs ho)).trans fun _ hs' => ih hs'
      · exact h.attains
    · exact h.attains

theorem Depicts.passFor (h : t.Depicts s) (fuel ticket : Nat) :
    (t.passFor fuel ticket).Attains s := by
  induction fuel generalizing t s with
  | zero => exact h.attains
  | succ fuel ih =>
    unfold Timeline.passFor
    split
    · exact h.attains
    · split
      · rename_i ho
        exact (h.happen (next?_occurs ho)).trans fun _ hs' => ih hs'
      · exact h.attains

/-! ### What is asked of a timeline -/

theorem Depicts.request (h : t.Depicts s) (op : Operation) : (t.request op).2.Attains s :=
  (h.join op).trans fun _ hs' => serve_attains hs'

theorem Depicts.await (h : t.Depicts s) (ticket : Nat) : (t.await ticket).Attains s :=
  h.passFor _ ticket

theorem Depicts.forget (h : t.Depicts s) : Depicts { t with results := [] } s :=
  ⟨{ h.base with results := fun _ he => absurd he List.not_mem_nil }, h.free, h.busy⟩

theorem Depicts.perform (h : t.Depicts s) (op : Operation) : (t.perform op).2.Attains s :=
  (h.request op).trans fun _ hs' => (hs'.await _).trans fun _ hs'' => hs''.forget.attains

theorem foldl_attains {α β : Type} (timeline : β → Timeline) {f : β → α → β}
    (hf : ∀ b a s, (timeline b).Depicts s → (timeline (f b a)).Attains s) (l : List α) {b : β}
    (h : (timeline b).Depicts s) : (timeline (l.foldl f b)).Attains s := by
  induction l generalizing b s with
  | nil => exact h.attains
  | cons a l ih => exact (hf b a s h).trans fun _ hs' => ih hs'

theorem Depicts.performAll (h : t.Depicts s) (ops : List Operation) :
    (t.performAll ops).2.Attains s := by
  unfold Timeline.performAll
  refine Attains.trans ?_ fun _ hs' => hs'.forget.attains
  have hrequests := foldl_attains Prod.snd (b := (([] : List Nat), t))
    (f := fun b op => (b.1 ++ [(b.2.request op).1], (b.2.request op).2))
    (fun _ op _ hb => hb.request op) ops h
  refine hrequests.trans fun _ hs' => ?_
  exact foldl_attains id (fun b ticket _ hb => Depicts.await hb ticket) _ hs'

theorem Depicts.sleep (h : t.Depicts s) (duration : Nat) : (t.sleep duration).Attains s :=
  (h.passUntil _ _).trans fun _ hs' => (hs'.retime ..).attains

theorem Depicts.startSweeper (h : t.Depicts s) (interval : Nat) :
    (t.startSweeper interval).Depicts s := by
  refine ⟨{ h.base with fresh := fun n hn => h.base.fresh n ?_ }, h.free, h.busy⟩
  exact Nat.le_of_succ_le hn

theorem Depicts.cancelSweeper (h : t.Depicts s) : t.cancelSweeper.Attains s := by
  unfold Timeline.cancelSweeper
  split
  · exact h.attains
  · rename_i sweeper _
    have hput : (t.putSweeper { sweeper with cancelled := true }).Depicts s := h.retime ..
    dsimp only
    split
    · exact (hput.retime ..).attains
    · exact (hput.await _).trans fun _ hs' => (hs'.retime ..).attains

inductive Reached (r : Registry) (script : Script) : Timeline → Prop where
  | new : Reached r script { registry := r, script }
  | request {t : Timeline} (h : Reached r script t) (op : Operation) :
      Reached r script (t.request op).2
  | await {t : Timeline} (h : Reached r script t) (ticket : Nat) : Reached r script (t.await ticket)
  | perform {t : Timeline} (h : Reached r script t) (op : Operation) :
      Reached r script (t.perform op).2
  | performAll {t : Timeline} (h : Reached r script t) (ops : List Operation) :
      Reached r script (t.performAll ops).2
  | sleep {t : Timeline} (h : Reached r script t) (duration : Nat) :
      Reached r script (t.sleep duration)
  | startSweeper {t : Timeline} (h : Reached r script t) (interval : Nat) :
      Reached r script (t.startSweeper interval)
  | cancelSweeper {t : Timeline} (h : Reached r script t) : Reached r script t.cancelSweeper

/-- Every timeline shows what callers with some schedule come to. -/
theorem Reached.attains {r : Registry} {script : Script} (h : Reached r script t) :
    t.Attains { registry := r, remote := script } := by
  induction h with
  | new =>
    refine Depicts.attains ⟨⟨rfl, rfl, rfl, ?_, fun _ _ => rfl, ?_, List.nodup_nil⟩,
      fun _ => ⟨rfl, rfl⟩, fun _ hp => by cases hp⟩
    · exact fun _ he => absurd he List.not_mem_nil
    · exact fun _ he => absurd he List.not_mem_nil
  | request _ op ih => exact ih.trans fun _ hs' => hs'.request op
  | await _ ticket ih => exact ih.trans fun _ hs' => hs'.await ticket
  | perform _ op ih => exact ih.trans fun _ hs' => hs'.perform op
  | performAll _ ops ih => exact ih.trans fun _ hs' => hs'.performAll ops
  | sleep _ duration ih => exact ih.trans fun _ hs' => hs'.sleep duration
  | startSweeper _ interval ih => exact ih.trans fun _ hs' => (hs'.startSweeper interval).attains
  | cancelSweeper _ ih => exact ih.trans fun _ hs' => hs'.cancelSweeper

end Timeline
end LogRelay
