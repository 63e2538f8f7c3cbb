import LogRelay.Proofs.Passage

/-! Runs of the registry. Any operations may follow one another, each along a visit of its own, and
any answerer may be asked; a run that is cut short after an operation is a run as well. -/

namespace LogRelay

structure Turn where
  before : Registry
  operation : Operation
  exchanges : List Exchange
  outcome : Outcome
  after : Registry

structure History (σ : Type) where
  turns : List Turn
  registry : Registry
  state : σ

variable {σ : Type} (answer : σ → Inquiry → Reply × σ)

def Registry.history (r : Registry) : List (Visit × Operation) → σ → History σ
  | [], s => ⟨[], r, s⟩
  | (v, op) :: rest, s =>
    let held := (op.course v r).run answer s
    let later := held.result.1.history rest held.state
    { later with turns := ⟨r, op, held.exchanges, held.result.2, held.result.1⟩ :: later.turns }

namespace Turn

/-- Whether the operation can take this turn, if it is answered as it was here. -/
def Possible (t : Turn) : Prop :=
  ∃ v, (t.operation.course v t.before).Yields t.exchanges (t.after, t.outcome)

variable {t : Turn}

theorem Possible.passage (h : t.Possible) (id : SourceId) :
    Passage t.before.limits id t.operation t.outcome (t.before.batches.find? id)
      (madeFor id t.exchanges) (t.after.batches.find? id) :=
  h.elim fun _ hyields => Operation.course_passage hyields id

theorem Possible.limits (h : t.Possible) : t.after.limits = t.before.limits :=
  h.elim fun _ hyields => Operation.course_limits hyields

end Turn

theorem history_induction {answer} (P : List Turn → Registry → σ → Prop)
    (step : ∀ turns t s s', t.Possible → Dialogue.Answered answer s t.exchanges s' →
      P turns t.before s → P (turns ++ [t]) t.after s')
    (r : Registry) (ops : List (Visit × Operation)) (s : σ) :
    P [] r s → P (r.history answer ops s).turns (r.history answer ops s).registry
      (r.history answer ops s).state := by
  -- The turns so far are carried along, since `P` speaks of all of them.
  have extend (turns : List Turn) (h : P turns r s) :
      P (turns ++ (r.history answer ops s).turns) (r.history answer ops s).registry
        (r.history answer ops s).state := by
    induction ops generalizing turns r s with
    | nil => simpa [Registry.history] using h
    | cons first rest ih =>
      obtain ⟨v, op⟩ := first
      let held := (op.course v r).run answer s
      let t : Turn := ⟨r, op, held.exchanges, held.result.2, held.result.1⟩
      have hpossible : t.Possible := ⟨v, Dialogue.run_yields answer (op.course v r) s⟩
      have hanswered := Dialogue.run_answered answer (op.course v r) s
      have hnext := step turns t s held.state hpossible hanswered h
      have hrest := ih held.result.1 held.state (turns ++ [t]) hnext
      rwa [List.append_assoc] at hrest
  exact extend []

theorem history_throughout {σ : Type} (answer : σ → Inquiry → Reply × σ)
    (P : List Turn → Registry → Prop)
    (step : ∀ turns t, t.Possible → P turns t.before → P (turns ++ [t]) t.after)
    (r : Registry) (ops : List (Visit × Operation)) (s : σ) (hstart : P [] r) :
    P (r.history answer ops s).turns (r.history answer ops s).registry ∧
      ∀ before t after, (r.history answer ops s).turns = before ++ t :: after →
        t.Possible ∧ P before t.before := by
  refine history_induction (fun turns r _ => P turns r ∧
    ∀ before t after, turns = before ++ t :: after → t.Possible ∧ P before t.before) ?_ r ops s
    ⟨hstart, fun before t after h => by simp at h⟩
  rintro turns t - - ht - ⟨hnow, hearlier⟩
  refine ⟨step turns t ht hnow, fun before u after h => ?_⟩
  rcases List.eq_nil_or_concat after with rfl | ⟨front, last, rfl⟩
  · obtain ⟨rfl, rfl⟩ : turns = before ∧ t = u := by simpa using h
    exact ⟨ht, hnow⟩
  · have hsplit : turns ++ [t] = (before ++ u :: front) ++ [last] := by simpa using h
    exact hearlier before u front (List.append_inj' hsplit rfl).1

theorem history_possible {σ : Type} (answer : σ → Inquiry → Reply × σ) (r : Registry)
    (ops : List (Visit × Operation)) (s : σ) :
    ∀ t ∈ (r.history answer ops s).turns, t.Possible := by
  refine history_induction (fun turns _ _ => ∀ t ∈ turns, t.Possible) ?_ r ops s
    (List.forall_mem_nil _)
  intro turns t _ _ ht _ h u hu
  rcases List.mem_append.mp hu with hu | hu
  · exact h u hu
  · rw [List.mem_singleton.mp hu]
    exact ht

theorem history_answered {σ : Type} (answer : σ → Inquiry → Reply × σ) (r : Registry)
    (ops : List (Visit × Operation)) (s : σ) :
    Dialogue.Answered answer s ((r.history answer ops s).turns.flatMap (·.exchanges))
      (r.history answer ops s).state := by
  refine history_induction (fun turns _ s' =>
    Dialogue.Answered answer s (turns.flatMap (·.exchanges)) s') ?_ r ops s rfl
  intro turns t mid s' _ hanswered h
  rw [List.flatMap_append, List.flatMap_singleton]
  exact h.append hanswered

end LogRelay
