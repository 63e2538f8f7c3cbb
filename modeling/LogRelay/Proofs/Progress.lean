import LogRelay.Proofs.Sessions

/-! Nothing gets stuck. Whoever holds the registry can go on until it lets go of it, and so can
whoever waits for it then; so a run can be brought to its end from wherever it stands. -/

namespace LogRelay

namespace Shared

variable {ι σ : Type} [DecidableEq ι] (answer : σ → Inquiry → Reply × σ) {s s' s'' : Shared ι σ}

def Works (s s' : Shared ι σ) : Prop :=
  ∃ acts : List (Action ι), (∀ a ∈ acts, a.requests = false) ∧ s.run answer acts = s'

variable {answer}

theorem Works.refl (s : Shared ι σ) : Works answer s s := ⟨[], List.forall_mem_nil _, rfl⟩

theorem Works.trans (h : Works answer s s') (h' : Works answer s' s'') : Works answer s s'' := by
  obtain ⟨acts, hacts, rfl⟩ := h
  obtain ⟨acts', hacts', rfl⟩ := h'
  exact ⟨acts ++ acts', List.forall_mem_append.mpr ⟨hacts, hacts'⟩, List.foldl_append⟩

theorem Works.step {a : Action ι} (ha : a.requests = false) : Works answer s (s.step answer a) :=
  ⟨[a], List.forall_mem_singleton.mpr ha, rfl⟩

def CanFinish (answer : σ → Inquiry → Reply × σ) (s : Shared ι σ) (i : ι) : Prop :=
  ∃ s', Works answer s s' ∧ s'.phase = Function.update s.phase i .idle ∧ s'.locked = false

theorem CanFinish.of_step {i : ι} {a : Action ι} (ha : a.requests = false) {p : Phase}
    (hp : (s.step answer a).phase = Function.update s.phase i p)
    (h : CanFinish answer (s.step answer a) i) : CanFinish answer s i := by
  obtain ⟨s', hworks, hphase, hlocked⟩ := h
  refine ⟨s', (Works.step ha).trans hworks, ?_, hlocked⟩
  rw [hphase, hp, Function.update_idem]

theorem canFinish_calling {i : ι} {q : Inquiry} {next : Reply → Course Outcome}
    (h : s.phase i = .calling q next)
    (hnext : ∀ reply s', s'.phase i = .holding (next reply) → CanFinish answer s' i) :
    CanFinish answer s i := by
  obtain ⟨reply, hend⟩ : ∃ reply, (s.step answer (.endCall i)).phase =
      Function.update s.phase i (.holding (next reply)) := by
    rw [Shared.step, h]
    exact ⟨_, rfl⟩
  refine .of_step rfl hend (hnext reply _ ?_)
  rw [hend, Function.update_self]

theorem canFinish_holding {i : ι} {c : Course Outcome} (h : s.phase i = .holding c) :
    CanFinish answer s i := by
  induction c generalizing s with
  | done a =>
    refine ⟨_, Works.step (a := .release i) rfl, ?_⟩
    rw [Shared.step, h]
    exact ⟨rfl, rfl⟩
  | ask q next ih =>
    have hbegin : (s.step answer (.beginCall i)).phase =
        Function.update s.phase i (.calling q next) := by
      rw [Shared.step, h]
      rfl
    refine .of_step rfl hbegin (canFinish_calling (q := q) ?_ fun reply _ => ih reply)
    rw [hbegin, Function.update_self]

theorem Serial.can_free {r : Registry} {w : σ} (h : Serial answer r w s) :
    ∃ s', Works answer s s' ∧ s'.locked = false ∧ ∀ i, (s'.phase i).course? = none := by
  cases h with
  | free h => exact ⟨s, .refl s, h.locked, h.course⟩
  | @held before k v op ex c h =>
    have hcourse := h.course k
    rw [if_pos rfl] at hcourse
    have hfinish : CanFinish answer s k := by
      cases hk : s.phase k with
      | idle | waiting =>
        rw [hk] at hcourse
        cases hcourse
      | holding c => exact canFinish_holding hk
      | calling q next => exact canFinish_calling hk fun _ _ => canFinish_holding
    obtain ⟨s', hworks, hphase, hlocked⟩ := hfinish
    refine ⟨s', hworks, hlocked, fun i => ?_⟩
    rw [hphase]
    by_cases hi : i = k
    · rw [hi, Function.update_self]
      rfl
    · rw [Function.update_of_ne hi, h.course, if_neg hi]

theorem canFinish_free {i : ι} (hlocked : s.locked = false) (hcourse : (s.phase i).course? = none) :
    CanFinish answer s i := by
  cases h : s.phase i with
  | idle => exact ⟨s, .refl s, (Function.update_eq_self_iff.mpr h.symm).symm, hlocked⟩
  | holding c | calling q next =>
    rw [h] at hcourse
    cases hcourse
  | waiting op =>
    have hacquire : (s.step answer (.acquire i .byName)).phase =
        Function.update s.phase i (.holding (op.course .byName s.registry)) := by
      rw [Shared.step, h]
      simp [hlocked, enter]
    refine .of_step rfl hacquire (canFinish_holding (c := op.course .byName s.registry) ?_)
    rw [hacquire, Function.update_self]

end Shared

namespace Session

variable {σ : Type} {n : Naming} {answer : σ → Inquiry → Reply × σ} {r : Registry} {w : σ}
  {messages : List HostMessage} {s : Session σ}

def CanReturn (n : Naming) (answer : σ → Inquiry → Reply × σ) (s : Session σ) : Prop :=
  ∃ more, (s.run n answer more).stage = .returned

theorem CanReturn.of_run (first : List Step) (h : CanReturn n answer (s.run n answer first)) :
    CanReturn n answer s := by
  obtain ⟨more, hmore⟩ := h
  exact ⟨first ++ more, by rwa [run, List.foldl_append]⟩

theorem exists_run_of_works {shared : Shared Party σ}
    (h : Shared.Works answer s.shared shared) :
    ∃ schedule, s.run n answer schedule = { s with shared } := by
  obtain ⟨acts, hacts, rfl⟩ := h
  refine ⟨acts.map .work, ?_⟩
  induction acts generalizing s with
  | nil => rfl
  | cons a rest ih =>
    obtain ⟨ha, hrest⟩ := List.forall_mem_cons.mp hacts
    have hstep : s.step n answer (.work a) = { s with shared := s.shared.step answer a } :=
      if_neg (by simp [ha])
    refine (congrArg (fun s => run n answer s (rest.map .work)) hstep).trans ?_
    exact ih hrest

theorem Sound.can_rest (h : Sound n answer r w messages s) : ∃ schedule,
    let s' := s.run n answer schedule
    (∀ p, s'.shared.phase p = .idle) ∧ s'.stage = s.stage := by
  obtain ⟨s₁, hfirst, hlocked, hcourse⟩ := h.serial.can_free
  have hrouter : Shared.CanFinish answer s₁ .router :=
    Shared.canFinish_free hlocked (hcourse .router)
  obtain ⟨s₂, hrouter, hphase, hlocked⟩ := hrouter
  have hne : Party.router ≠ .sweeper := nofun
  have hsweeper : Shared.CanFinish answer s₂ .sweeper := by
    refine Shared.canFinish_free hlocked ?_
    rw [hphase, Function.update_of_ne hne.symm]
    exact hcourse .sweeper
  obtain ⟨s₃, hsweeper, hphase', -⟩ := hsweeper
  obtain ⟨schedule, hrun⟩ :=
    exists_run_of_works (n := n) ((hfirst.trans hrouter).trans hsweeper)
  refine ⟨schedule, ?_⟩
  rw [hrun]
  refine ⟨fun p => ?_, rfl⟩
  cases p with
  | sweeper => simp only [hphase', Function.update_self]
  | router => simp only [hphase', Function.update_of_ne hne, hphase, Function.update_self]

theorem Sound.can_return_draining (h : Sound n answer r w messages s)
    (hstage : s.stage = .draining) : CanReturn n answer s := by
  obtain ⟨schedule, hidle, hsame⟩ := h.can_rest
  refine .of_run schedule ⟨[.unserve, .close], ?_⟩
  generalize s.run n answer schedule = rested at hidle hsame ⊢
  simp [Session.run, Session.step, hidle .router, hsame, hstage]

theorem Sound.can_return_joining (h : Sound n answer r w messages s)
    (hstage : s.stage = .joining) : CanReturn n answer s := by
  obtain ⟨schedule, hidle, hsame⟩ := h.can_rest
  have hrested := h.run schedule
  refine .of_run schedule ?_
  generalize s.run n answer schedule = rested at hidle hsame hrested ⊢
  refine .of_run [.tick, .join] ((hrested.run _).can_return_draining ?_)
  cases hsweeping : rested.sweeping with
  | true =>
    simp [Session.run, Session.step, hidle .router, hidle .sweeper, hsame, hstage, hsweeping]
  | false => simp [Session.run, Session.step, request, hidle .router, hsame, hstage, hsweeping]

/-- However a run stands, it can be brought to its end. -/
theorem Sound.can_return (h : Sound n answer r w messages s) : CanReturn n answer s := by
  cases hstage : s.stage with
  | returned => exact ⟨[], hstage⟩
  | draining => exact h.can_return_draining hstage
  | joining => exact h.can_return_joining hstage
  | reading =>
    obtain ⟨schedule, hidle, hsame⟩ := h.can_rest
    have hrested := h.run schedule
    refine .of_run schedule ?_
    generalize s.run n answer schedule = rested at hidle hsame hrested ⊢
    refine .of_run [.cancel, .poll 0] ((hrested.run _).can_return_joining ?_)
    simp [Session.run, Session.step, hidle .router, hsame, hstage]

end Session
end LogRelay
