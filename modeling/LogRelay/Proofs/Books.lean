import LogRelay.Proofs.Accounting
import LogRelay.Proofs.Backlog

/-! The counters against the calls and the answers of a run. Each counter is a sum over the
submissions and the openings so far, and the events accepted are all accounted for. -/

namespace LogRelay

namespace Answer

def rejects : Answer → Bool
  | .error (.invalidParameter _) => true
  | _ => false

def reconciles : Answer → Bool
  | .error (.dataAlreadyAccepted _) | .error (.invalidSequenceToken (some _)) => true
  | _ => false

theorem closes_eq (a : Answer) : a.closes = (a.stores || a.rejects) := by
  rcases a with e | _
  · cases e <;> rfl
  · rfl

theorem not_stores_of_rejects {a : Answer} (h : a.rejects = true) : a.stores = false := by
  rcases a with e | _
  · cases e <;> first | rfl | exact absurd h (by simp [rejects])
  · exact absurd h (by simp [rejects])

end Answer

def Submission.discards (s : Submission) : Bool :=
  s.last && !(s.answer.stores || s.answer.rejects)

def totalSize (subs : List Submission) : Nat := (subs.map Submission.size).sum

theorem totalSize_append (subs subs' : List Submission) :
    totalSize (subs ++ subs') = totalSize subs + totalSize subs' := by
  simp [totalSize]

theorem totalSize_filter_cons (p : Submission → Bool) (s : Submission) (subs : List Submission) :
    totalSize ((s :: subs).filter p) =
      (if p s then s.size else 0) + totalSize (subs.filter p) := by
  rw [List.filter_cons]
  split
  · rfl
  · exact (Nat.zero_add _).symm

theorem Submission.released_eq (s : Submission) :
    s.released = (if s.answer.stores then s.size else 0) +
      (if s.answer.rejects then s.size else 0) + if s.discards then s.size else 0 := by
  have hcloses := s.answer.closes_eq
  unfold released closes discards
  rw [hcloses]
  cases hrejects : s.answer.rejects with
  | true =>
    have hstores := Answer.not_stores_of_rejects hrejects
    simp [hstores]
  | false => cases s.answer.stores <;> cases s.last <;> simp

theorem sum_released (subs : List Submission) :
    (subs.map Submission.released).sum =
      totalSize (subs.filter (·.answer.stores)) + totalSize (subs.filter (·.answer.rejects)) +
        totalSize (subs.filter (·.discards)) := by
  induction subs with
  | nil => rfl
  | cons s subs ih =>
    rw [List.map_cons, List.sum_cons, ih, s.released_eq]
    simp only [totalSize_filter_cons]
    omega

def openedAnswer? : Exchange → Option Answer
  | (⟨r, _, .openStream _⟩, reply) => some (r.heed reply)
  | (⟨_, _, .submit _ _ _⟩, _) => none

namespace Tally

def called (t : Tally) (subs : List Submission) (openings : List Answer) : Tally :=
  { t with
    eventsSubmitted := t.eventsSubmitted + totalSize (subs.filter (·.answer.stores))
    eventsRejected := t.eventsRejected + totalSize (subs.filter (·.answer.rejects))
    flushesSucceeded := t.flushesSucceeded + subs.countP (·.answer.stores)
    flushesFailed := t.flushesFailed + subs.countP (!·.answer.stores)
    provisionFailures := t.provisionFailures + openings.countP (!·.isOk)
    tokenReconciliations := t.tokenReconciliations + subs.countP (·.answer.reconciles) }

theorem called_called (t : Tally) (subs subs' : List Submission)
    (openings openings' : List Answer) : (t.called subs openings).called subs' openings' =
      t.called (subs ++ subs') (openings ++ openings') := by
  simp [called, totalSize_append, Nat.add_assoc]

theorem exchanged_eq (t : Tally) (last : Bool) (x : Exchange) :
    t.exchanged x = t.called (Submission.ofExchange? last x).toList (openedAnswer? x).toList := by
  obtain ⟨⟨r, id, call⟩, reply⟩ := x
  cases call with
  | openStream d =>
    simp only [exchanged, Submission.ofExchange?, openedAnswer?]
    rcases r.heed reply with e | next <;> rfl
  | submit d token events =>
    simp only [exchanged, Submission.ofExchange?, openedAnswer?]
    rcases r.heed reply with e | next
    · rcases e with _ | _ | (_ | _) | _ <;> rfl
    · rfl

theorem foldl_exchanged (t : Tally) (last : Exchange → Bool) (ex : List Exchange) :
    ex.foldl exchanged t =
      t.called (ex.filterMap fun x => Submission.ofExchange? (last x) x)
        (ex.filterMap openedAnswer?) := by
  induction ex generalizing t with
  | nil => rfl
  | cons x ex ih =>
    rw [List.foldl_cons, ih, exchanged_eq t (last x), called_called]
    simp only [List.filterMap_cons]
    cases Submission.ofExchange? (last x) x <;> cases openedAnswer? x <;> rfl

end Tally

def Outcome.isHandled : Outcome → Bool
  | handled _ => true
  | _ => false

theorem Tally.concluded_eq (t : Tally) (outcome : Outcome) : ∃ dropped oversized : Nat,
    t.concluded outcome = { t with
      eventsAccepted := t.eventsAccepted + if outcome.appends then 1 else 0
      eventsDropped := t.eventsDropped + dropped
      eventsOversized := t.eventsOversized + oversized } ∧
    (if outcome.appends then 1 else 0) + dropped + oversized =
      if outcome.isHandled then 1 else 0 := by
  rcases outcome with _ | (_ | _ | (_ | _ | _))
  case handled.appended | handled.flushedAndAppended => exact ⟨0, 0, rfl, rfl⟩
  case handled.dropped.oversized => exact ⟨0, 1, rfl, rfl⟩
  case handled.dropped.unknownSource | handled.dropped.flushFailed => exact ⟨1, 0, rfl, rfl⟩
  all_goals exact ⟨0, 0, rfl, rfl⟩

theorem Operation.handles_eq {op : Operation} {v : Visit} {r r' : Registry} {ex : List Exchange}
    {outcome : Outcome} (h : (op.course v r).Yields ex (r', outcome)) :
    op.handles = outcome.isHandled := by
  cases op with
  | start id d =>
    obtain ⟨_, -, rfl⟩ := answer_yields (f := fun _ => .finished) (c := r.start id d) h
    rfl
  | stop id =>
    obtain ⟨_, -, rfl⟩ := answer_yields (f := fun _ => .finished) (c := r.stop id) h
    rfl
  | handle id e | flush id | sweep | shutdown =>
    obtain ⟨_, -, rfl⟩ := answer_yields h
    rfl
  | contains id | size | copyBatch id =>
    obtain ⟨-, hout⟩ := Dialogue.yields_done.mp h
    obtain ⟨-, rfl⟩ := Prod.mk.inj hout
    rfl

def Turn.openings (t : Turn) : List Answer := t.exchanges.filterMap openedAnswer?

/-- The counters, told from how often an event was handed in, the submissions, and the answers to
the openings. -/
structure Books (calls : Nat) (subs : List Submission) (openings : List Answer) (r : Registry) :
    Prop where
  calls_eq : calls = r.tally.eventsAccepted + r.tally.eventsDropped + r.tally.eventsOversized
  flushesSucceeded : r.tally.flushesSucceeded = subs.countP (·.answer.stores)
  eventsSubmitted : r.tally.eventsSubmitted = totalSize (subs.filter (·.answer.stores))
  flushesFailed : r.tally.flushesFailed = subs.countP (!·.answer.stores)
  eventsRejected : r.tally.eventsRejected = totalSize (subs.filter (·.answer.rejects))
  tokenReconciliations : r.tally.tokenReconciliations = subs.countP (·.answer.reconciles)
  provisionFailures : r.tally.provisionFailures = openings.countP (!·.isOk)
  eventsAccepted : r.tally.eventsAccepted = r.tally.eventsSubmitted + r.tally.eventsRejected +
    r.backlog + totalSize (subs.filter (·.discards))

namespace Books

variable {calls : Nat} {subs : List Submission} {openings : List Answer}

theorem opened (limits : Limits) (callTimeout : Duration) :
    Books 0 [] [] (.new limits callTimeout) := ⟨rfl, rfl, rfl, rfl, rfl, rfl, rfl, rfl⟩

theorem turn {t : Turn} (h : Books calls subs openings t.before) (ht : t.Possible) :
    Books (calls + if t.operation.handles then 1 else 0) (subs ++ t.allSubmissions)
      (openings ++ t.openings) t.after := by
  have hbalance := ht.balance
  have hhandles : t.operation.handles = t.outcome.isHandled :=
    ht.elim fun _ hyields => Operation.handles_eq hyields
  have happends : (t.outcome.isHandled && t.outcome.appends) = t.outcome.appends := by
    rcases t.outcome with _ | (_ | _ | _) <;> rfl
  obtain ⟨dropped, oversized, hconcluded, hone⟩ :=
    (t.before.tally.called t.allSubmissions t.openings).concluded_eq t.outcome
  have htally := ht.tally
  rw [Tally.foldl_exchanged _ fun x => t.operation.ends x.1.source] at htally
  replace htally := htally.trans hconcluded
  rw [hhandles, happends, sum_released] at hbalance
  constructor
  · have hcalls := h.calls_eq
    simp only [htally, Tally.called, hhandles]
    omega
  · simp only [htally, Tally.called, h.flushesSucceeded, List.countP_append]
  · simp only [htally, Tally.called, h.eventsSubmitted, List.filter_append, totalSize_append]
  · simp only [htally, Tally.called, h.flushesFailed, List.countP_append]
  · simp only [htally, Tally.called, h.eventsRejected, List.filter_append, totalSize_append]
  · simp only [htally, Tally.called, h.tokenReconciliations, List.countP_append]
  · simp only [htally, Tally.called, h.provisionFailures, List.countP_append]
  · have haccepted := h.eventsAccepted
    simp only [htally, Tally.called, List.filter_append, totalSize_append]
    omega

end Books

theorem history_operations {σ : Type} (answer : σ → Inquiry → Reply × σ) (r : Registry)
    (ops : List (Visit × Operation)) (s : σ) :
    (r.history answer ops s).turns.map (·.operation) = ops.map (·.2) := by
  induction ops generalizing r s with
  | nil => rfl
  | cons first rest ih =>
    obtain ⟨v, op⟩ := first
    simp only [Registry.history, List.map_cons, ih]

/-- After every run, whatever was answered: every counter is the sum that its name says, and an
event that was accepted was submitted or rejected, is pending, or was in a last submission that
failed. -/
theorem books_balance {σ : Type} (limits : Limits) (callTimeout : Duration)
    (answer : σ → Inquiry → Reply × σ) (ops : List (Visit × Operation)) (s : σ) :
    let run := (Registry.new limits callTimeout).history answer ops s
    Books (ops.countP (·.2.handles)) (run.turns.flatMap (·.allSubmissions))
      (run.turns.flatMap (·.openings)) run.registry := by
  intro run
  have hcalls : ops.countP (·.2.handles) = run.turns.countP (·.operation.handles) := by
    have hops := congrArg (List.countP Operation.handles)
      (history_operations answer (.new limits callTimeout) ops s)
    rw [List.countP_map, List.countP_map] at hops
    exact hops.symm
  rw [hcalls]
  refine history_induction (fun turns r _ => Books (turns.countP (·.operation.handles))
    (turns.flatMap (·.allSubmissions)) (turns.flatMap (·.openings)) r) ?_ _ ops s
    (Books.opened limits callTimeout)
  intro turns t _ _ ht _ h
  have hnext := h.turn ht
  rw [List.countP_append, List.countP_singleton, List.flatMap_append, List.flatMap_append,
    List.flatMap_singleton, List.flatMap_singleton]
  exact hnext

end LogRelay
