import LogRelay.Remote.Call

/-! A remote that follows a script. It keeps a current token per stream and accepts the
submissions that carry it; scripted steps, taken one per call, go before that. -/

namespace LogRelay

namespace Script

inductive Act where
  | usual
  | fail (e : RemoteError)
  | give (token : Option Token)
  deriving DecidableEq

structure Step where
  hangs : Bool := false
  -- Nanoseconds until the answer.
  delay : Nat := 0
  act : Act := .usual
  deriving DecidableEq

end Script

/-- Streams are known by the paths of their destinations. -/
structure Script where
  streams : List (String × Option Token) := []
  opens : List (String × List Script.Step) := []
  submits : List (String × List Script.Step) := []
  issued : List (String × Nat) := []

namespace Script

def lookup {α : Type} (key : String) (l : List (String × α)) : Option α :=
  (l.find? fun e => e.1 = key).map (·.2)

def assign {α : Type} (key : String) (a : α) (l : List (String × α)) : List (String × α) :=
  (key, a) :: l.filter fun e => e.1 ≠ key

def dequeue (key : String) (l : List (String × List Step)) : Step × List (String × List Step) :=
  match lookup key l with
  | some (step :: rest) => (step, assign key rest l)
  | _ => ({}, l)

def token (s : Script) (key : String) : Option Token := (lookup key s.streams).join

def setToken (s : Script) (key : String) (token : Option Token) : Script :=
  { s with streams := assign key token s.streams }

def begin (s : Script) : Call → Step × Script
  | .openStream d =>
    let (step, opens) := dequeue d.path s.opens
    (step, { s with opens })
  | .submit d _ _ =>
    let (step, submits) := dequeue d.path s.submits
    (step, { s with submits })

def accept (s : Script) (key : String) (token : Option Token) : Answer × Script :=
  if token = s.token key then
    let n := (lookup key s.issued).getD 0 + 1
    let next := some ("T" ++ n.repr)
    (.ok next, { s.setToken key next with issued := assign key n s.issued })
  else (.error (.invalidSequenceToken (s.token key)), s)

def finish (s : Script) (step : Step) : Call → Answer × Script
  | .openStream d => match step.act with
    | .usual => (.ok (s.token d.path), s)
    | .fail e => (.error e, s)
    | .give token => (.ok token, s)
  | .submit d token _ => match step.act with
    | .usual => s.accept d.path token
    | .fail e => (.error e, s)
    | .give next => (.ok next, s.setToken d.path next)

end Script
end LogRelay
