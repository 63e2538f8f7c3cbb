import LogRelay.Registry.Basic

/-! What the answer to a submission makes of the batch: its events stay or go, and its token is
the one for the next submission. -/

namespace LogRelay

def Answer.closes : Answer → Bool
  | .ok _ | .error (.dataAlreadyAccepted _) | .error (.invalidParameter _) => true
  | _ => false

def Answer.stores : Answer → Bool
  | .ok _ | .error (.dataAlreadyAccepted _) => true
  | _ => false

def Answer.next (sent : Option Token) : Answer → Option Token
  | .ok returned => returned
  | .error (.dataAlreadyAccepted expected) => expected
  | .error (.invalidSequenceToken (some expected)) => some expected
  | .error _ => sent

namespace Batch

variable (b : Batch) (a : Answer)

theorem isEmpty_iff : b.isEmpty = true ↔ b.events = [] := List.isEmpty_iff

/-- An answer does two things to a batch, whichever it is: it decides whether the events stay,
and what token comes next. -/
theorem settle_fst : (b.settle a).1 =
    if a.closes then b.successor (a.next b.token) else { b with token := a.next b.token } := by
  rcases a with e | _
  · rcases e with _ | _ | (_ | _) | _ <;> rfl
  · rfl

@[simp] theorem settle_destination : (b.settle a).1.destination = b.destination := by
  rw [settle_fst]
  split <;> rfl

@[simp] theorem settle_limits : (b.settle a).1.limits = b.limits := by
  rw [settle_fst]
  split <;> rfl

@[simp] theorem settle_token : (b.settle a).1.token = a.next b.token := by
  rw [settle_fst]
  split <;> rfl

theorem settle_events : (b.settle a).1.events = if a.closes then [] else b.events := by
  rw [settle_fst]
  split <;> rfl

theorem settle_bytes : (b.settle a).1.bytes = if a.closes then 0 else b.bytes := by
  rw [settle_fst]
  split <;> rfl

theorem settle_isOk : (b.settle a).2.isOk = a.stores := by
  rcases a with e | _
  · cases e <;> rfl
  · rfl

variable (e : LogEvent)

@[simp] theorem append_token : (b.append e).token = b.token := rfl

@[simp] theorem inOrder_message : (b.inOrder e).message = e.message := by
  unfold inOrder
  split <;> rfl

end Batch
end LogRelay
