import LogRelay.Remote.Call

/-! What a dialogue can come to. A fact about every outcome it can yield is a fact about every
answerer: whatever `Dialogue.run` comes to, the dialogue yields. -/

namespace LogRelay.Dialogue

variable {Q A α β σ : Type}

/-- With these exchanges, the dialogue ends in this result. -/
inductive Yields : Dialogue Q A α → List (Q × A) → α → Prop where
  | done (a : α) : Yields (done a) [] a
  | ask {q : Q} {next : A → Dialogue Q A α} {answer : A} {ex : List (Q × A)} {a : α}
      (h : Yields (next answer) ex a) : Yields (ask q next) ((q, answer) :: ex) a

@[simp] theorem yields_done {a b : α} {ex : List (Q × A)} :
    (done a).Yields ex b ↔ ex = [] ∧ b = a := by
  constructor
  · intro h
    cases h
    exact ⟨rfl, rfl⟩
  · rintro ⟨rfl, rfl⟩
    exact .done b

@[simp] theorem yields_ask {q : Q} {next : A → Dialogue Q A α} {ex : List (Q × A)} {a : α} :
    (ask q next).Yields ex a ↔
      ∃ answer rest, ex = (q, answer) :: rest ∧ (next answer).Yields rest a := by
  constructor
  · intro h
    cases h with
    | ask h => exact ⟨_, _, rfl, h⟩
  · rintro ⟨answer, rest, rfl, h⟩
    exact .ask h

theorem yields_bind {d : Dialogue Q A α} {f : α → Dialogue Q A β} {ex : List (Q × A)} {b : β} :
    (d.bind f).Yields ex b ↔
      ∃ first a second, d.Yields first a ∧ (f a).Yields second b ∧ ex = first ++ second := by
  induction d generalizing ex with
  | done a =>
    constructor
    · intro h
      exact ⟨[], a, ex, .done a, h, rfl⟩
    · rintro ⟨first, a', second, hfirst, hsecond, rfl⟩
      obtain ⟨rfl, rfl⟩ := yields_done.mp hfirst
      exact hsecond
  | ask q next ih =>
    constructor
    · intro h
      obtain ⟨answer, rest, rfl, hrest⟩ := yields_ask.mp h
      obtain ⟨first, a, second, hfirst, hsecond, rfl⟩ := (ih answer).mp hrest
      exact ⟨(q, answer) :: first, a, second, .ask hfirst, hsecond, rfl⟩
    · rintro ⟨first, a, second, hfirst, hsecond, rfl⟩
      obtain ⟨answer, rest, rfl, hrest⟩ := yields_ask.mp hfirst
      exact .ask ((ih answer).mpr ⟨rest, a, second, hrest, hsecond, rfl⟩)

theorem run_yields (answer : σ → Q → A × σ) (d : Dialogue Q A α) (s : σ) :
    d.Yields (d.run answer s).exchanges (d.run answer s).result := by
  induction d generalizing s with
  | done a => exact .done a
  | ask q next ih => exact .ask (ih (answer s q).1 (answer s q).2)

theorem run_bind (answer : σ → Q → A × σ) (d : Dialogue Q A α) (f : α → Dialogue Q A β) (s : σ) :
    (d.bind f).run answer s =
      let first := d.run answer s
      let second := (f first.result).run answer first.state
      ⟨second.result, second.state, first.exchanges ++ second.exchanges⟩ := by
  induction d generalizing s with
  | done a => rfl
  | ask q next ih => simp only [bind, run, ih, List.cons_append]

def Answered (answer : σ → Q → A × σ) : σ → List (Q × A) → σ → Prop
  | s, [], s' => s' = s
  | s, (q, a) :: ex, s' => (answer s q).1 = a ∧ Answered answer (answer s q).2 ex s'

theorem run_answered (answer : σ → Q → A × σ) (d : Dialogue Q A α) (s : σ) :
    Answered answer s (d.run answer s).exchanges (d.run answer s).state := by
  induction d generalizing s with
  | done a => rfl
  | ask q next ih => exact ⟨rfl, ih (answer s q).1 (answer s q).2⟩

theorem Answered.append {answer : σ → Q → A × σ} {s mid s' : σ} {ex ex' : List (Q × A)}
    (h : Answered answer s ex mid) (h' : Answered answer mid ex' s') :
    Answered answer s (ex ++ ex') s' := by
  induction ex generalizing s with
  | nil =>
    obtain rfl : mid = s := h
    exact h'
  | cons x rest ih => exact ⟨h.1, ih h.2⟩

theorem Answered.given {answer : σ → Q → A × σ} {s s' : σ} {ex : List (Q × A)}
    (h : Answered answer s ex s') : ∀ x ∈ ex, ∃ mid, (answer mid x.1).1 = x.2 := by
  induction ex generalizing s with
  | nil => exact List.forall_mem_nil _
  | cons x rest ih => exact List.forall_mem_cons.mpr ⟨⟨s, h.1⟩, ih h.2⟩

end LogRelay.Dialogue
