import LogRelay.Proofs.History

/-! Lifetimes of a source. One begins with the start that installed a batch for it, and ends with
the stop or the shutdown that removed the batch. The turns of a run are read off into a record of
the lifetimes, with what was submitted and accepted in each. -/

namespace LogRelay

structure Submission where
  destination : Destination
  token : Option Token
  events : List LogEvent
  answer : Answer
  -- Whether a stop or a shutdown made it.
  last : Bool

namespace Submission

def ofBatch (b : Batch) (answer : Answer) (last : Bool) : Submission :=
  ⟨b.destination, b.token, b.events, answer, last⟩

def ofExchange? (last : Bool) : Exchange → Option Submission
  | (⟨r, _, .submit d token events⟩, reply) => some ⟨d, token, events, r.heed reply, last⟩
  | (⟨_, _, .openStream _⟩, _) => none

/-- Whether the registry lets go of the batch, whatever the reason. -/
def closes (s : Submission) : Bool := s.last || s.answer.closes

end Submission

structure Lifetime where
  destination : Destination
  -- The token that opening the stream gave; none if that failed.
  opened : Option Token
  submissions : List Submission := []
  accepted : List LogEvent := []

def Lifetime.extend (l : Lifetime) (submissions : List Submission) (accepted : List LogEvent) :
    Lifetime :=
  { l with submissions := l.submissions ++ submissions, accepted := l.accepted ++ accepted }

structure Record where
  past : List Lifetime := []
  current : Option Lifetime := none

def Record.lifetimes (c : Record) : List Lifetime := c.past ++ c.current.toList

def openedWith? : Exchange → Option Token
  | (⟨r, _, .openStream _⟩, reply) => (r.heed reply).toOption.join
  | (⟨_, _, .submit _ _ _⟩, _) => none

namespace Turn

variable (t : Turn) (id : SourceId)

def submissions : List Submission :=
  (madeFor id t.exchanges).filterMap (Submission.ofExchange? (t.operation.ends id))

def accepted : List LogEvent := t.operation.admitted id t.outcome

def opened : Option Token := (madeFor id t.exchanges).findSome? openedWith?

end Turn

namespace Record

/-- Adds a turn to the record of a source. A start that finds the source registered adds nothing
but what is in the turn. -/
def note (id : SourceId) (c : Record) (t : Turn) : Record :=
  match c.current with
  | none =>
    match t.operation with
    | .start s d =>
      if s = id then { c with current := some { destination := d, opened := t.opened id } } else c
    | _ => c
  | some l =>
    let l := l.extend (t.submissions id) (t.accepted id)
    if t.operation.ends id then ⟨c.past ++ [l], none⟩ else { c with current := some l }

def of (id : SourceId) (turns : List Turn) : Record := turns.foldl (note id) {}

theorem of_append (id : SourceId) (turns : List Turn) (t : Turn) :
    of id (turns ++ [t]) = (of id turns).note id t := by
  rw [of, List.foldl_append]
  rfl

variable {id : SourceId} {c : Record} {t : Turn} {l : Lifetime}

theorem note_absent (hc : c.current = none) (h : ∀ d, t.operation ≠ .start id d) :
    c.note id t = c := by
  unfold note
  rw [hc]
  dsimp only
  split
  · rename_i s d hop
    exact if_neg fun hs : s = id => h d (hs ▸ hop)
  · rfl

theorem note_start {d : Destination} (hc : c.current = none) (h : t.operation = .start id d) :
    c.note id t = { c with current := some { destination := d, opened := t.opened id } } := by
  unfold note
  simp only [hc, h, if_true]

theorem note_during (hc : c.current = some l) (h : t.operation.ends id = false) :
    c.note id t = { c with current := some (l.extend (t.submissions id) (t.accepted id)) } := by
  unfold note
  simp only [hc, h, Bool.false_eq_true, if_false]

theorem note_end (hc : c.current = some l) (h : t.operation.ends id = true) :
    c.note id t = ⟨c.past ++ [l.extend (t.submissions id) (t.accepted id)], none⟩ := by
  unfold note
  simp only [hc, h, if_true]

theorem lifetimes_note (hc : c.current = some l) :
    (c.note id t).lifetimes = c.past ++ [l.extend (t.submissions id) (t.accepted id)] := by
  cases h : t.operation.ends id with
  | false =>
    rw [note_during hc h]
    rfl
  | true =>
    rw [note_end hc h]
    exact List.append_nil _

end Record

@[simp] theorem Lifetime.extend_nil (l : Lifetime) : l.extend [] [] = l := by
  simp [extend]

theorem Lifetime.extend_extend (l : Lifetime) (subs : List Submission) (es : List LogEvent) :
    (l.extend subs []).extend [] es = l.extend subs es := by
  simp [extend]

theorem Flushed.submissions {id : SourceId} {b b' : Batch} {ex : List Exchange}
    (h : Flushed id b ex b') (last : Bool) :
    (b.events = [] ∧ ex.filterMap (Submission.ofExchange? last) = [] ∧ b' = b) ∨
      ∃ a, b.events ≠ [] ∧
        ex.filterMap (Submission.ofExchange? last) = [.ofBatch b a last] ∧
        b' = (b.settle a).1 := by
  cases h with
  | empty h => exact Or.inl ⟨h, rfl, rfl⟩
  | asked r reply h => exact Or.inr ⟨r.heed reply, h, rfl, rfl⟩

theorem Turn.Possible.submissions {t : Turn} (h : t.Possible) (id : SourceId) :
    t.submissions id = [] ∨ ∃ b a, t.before.batches.find? id = some b ∧ b.events ≠ [] ∧
      t.submissions id = [.ofBatch b a (t.operation.ends id)] := by
  have hway := h.passage id
  have hflush {b b' : Batch} {ex : List Exchange} (hf : Flushed id b ex b') :
      ex.filterMap (Submission.ofExchange? (t.operation.ends id)) = [] ∨
        ∃ c a, some b = some c ∧ c.events ≠ [] ∧
          ex.filterMap (Submission.ofExchange? (t.operation.ends id)) =
            [.ofBatch c a (t.operation.ends id)] := by
    rcases hf.submissions (t.operation.ends id) with ⟨-, hsubs, -⟩ | ⟨a, hb, hsubs, -⟩
    · exact Or.inl hsubs
    · exact Or.inr ⟨b, a, rfl, hb, hsubs⟩
  rw [Turn.submissions]
  generalize t.before.batches.find? id = before, madeFor id t.exchanges = ex,
    t.after.batches.find? id = after at hway
  cases hway with
  | absent | started | kept | appended => exact Or.inl rfl
  | flushed _ hf | removed _ hf | refused _ _ _ hf | overflowed _ _ _ hf => exact hflush hf

end LogRelay
