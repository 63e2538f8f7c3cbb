import LogRelay.Batch

/-! Calls to the remote, and dialogues: computations that ask and go on with the answer. -/

namespace LogRelay

inductive Call where
  | openStream (destination : Destination)
  | submit (destination : Destination) (token : Option Token) (events : List LogEvent)
  deriving DecidableEq, Repr

def Call.destination : Call → Destination
  | openStream d => d
  | submit d _ _ => d

abbrev Answer := Except RemoteError (Option Token)

-- `none` stands for an answer that does not come in time.
abbrev Reply := Option Answer

/-- A computation that asks questions of type `Q`, each answered by an `A`. -/
inductive Dialogue (Q A : Type) (α : Type) where
  | done (a : α)
  | ask (q : Q) (next : A → Dialogue Q A α)

namespace Dialogue

variable {Q A α β σ : Type}

def bind : Dialogue Q A α → (α → Dialogue Q A β) → Dialogue Q A β
  | done a, f => f a
  | ask q next, f => ask q fun answer => (next answer).bind f

structure Transcript (Q A σ α : Type) where
  result : α
  state : σ
  exchanges : List (Q × A)

def run (answer : σ → Q → A × σ) : Dialogue Q A α → σ → Transcript Q A σ α
  | done a, s => ⟨a, s, []⟩
  | ask q next, s =>
    let (a, s) := answer s q
    let t := run answer (next a) s
    { t with exchanges := (q, a) :: t.exchanges }

end Dialogue
end LogRelay
