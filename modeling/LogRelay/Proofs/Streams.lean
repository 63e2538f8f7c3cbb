import LogRelay.Proofs.History

/-! A remote that checks tokens. Each destination has a stream with a current token and the events
stored so far; only a submission that carries the current token is stored. Such a remote is not a
part of the program: what it does is stated as a law that an answerer may be assumed to obey. -/

namespace LogRelay

structure Stream where
  -- `none` until the stream has been written to.
  token : Option Token := none
  stored : List LogEvent := []

abbrev Streams := Destination → Stream

def RemoteError.passing : RemoteError → Bool
  | invalidSequenceToken _ | dataAlreadyAccepted _ | invalidParameter _ => false
  | _ => true

def Reply.fails : Reply → Bool
  | none => true
  | some (.error e) => e.passing
  | some (.ok _) => false

/-- What a call may be answered by its stream, and what the stream is then. Opening gives the
current token. A submission may fail without effect; else it is stored if its token is the current
one, which a new one replaces, and refused with the current one if not. -/
inductive Stream.Serves (s : Stream) : Call → Reply → Stream → Prop where
  | opens (d : Destination) : Serves s (.openStream d) (some (.ok s.token)) s
  | fails (d : Destination) (token : Option Token) (events : List LogEvent) (reply : Reply)
      (h : reply.fails = true) : Serves s (.submit d token events) reply s
  | stores (d : Destination) (events : List LogEvent) (next : Option Token) :
      Serves s (.submit d s.token events) (some (.ok next)) ⟨next, s.stored ++ events⟩
  | refuses (d : Destination) (token : Option Token) (events : List LogEvent)
      (h : token ≠ s.token) :
      Serves s (.submit d token events) (some (.error (.invalidSequenceToken s.token))) s

theorem Stream.Serves.decided {s s' : Stream} {d : Destination} {sent : Option Token}
    {events : List LogEvent} {reply : Reply} (h : s.Serves (.submit d sent events) reply s')
    (hprompt : reply.fails = false) :
    (sent = s.token ∧ ∃ next, reply = some (.ok next) ∧ s' = ⟨next, s.stored ++ events⟩) ∨
      (sent ≠ s.token ∧ reply = some (.error (.invalidSequenceToken s.token)) ∧ s' = s) := by
  cases h with
  | fails _ _ _ _ hfails => exact absurd (hprompt.symm.trans hfails) Bool.false_ne_true
  | stores _ _ next => exact Or.inl ⟨rfl, next, rfl, rfl⟩
  | refuses _ _ _ hstale => exact Or.inr ⟨hstale, rfl, rfl⟩

def Streams.Serve (w : Streams) (call : Call) (reply : Reply) (w' : Streams) : Prop :=
  (w call.destination).Serves call reply (w' call.destination) ∧
    ∀ d, d ≠ call.destination → w' d = w d

/-- An answerer that serves streams, which nobody else writes to. -/
structure ChecksTokens {σ : Type} (answer : σ → Inquiry → Reply × σ) (streams : σ → Streams) :
    Prop where
  serves : ∀ s q, (streams s).Serve q.call (answer s q).1 (streams (answer s q).2)

def Stream.Held : Stream → List Exchange → Stream → Prop
  | s, [], s' => s' = s
  | s, x :: rest, s' => ∃ mid, s.Serves x.1.call x.2 mid ∧ mid.Held rest s'

def exchangesAt (d : Destination) (ex : List Exchange) : List Exchange :=
  ex.filter fun x => x.1.call.destination = d

theorem exchangesAt_singleton (d : Destination) (x : Exchange) :
    exchangesAt d [x] = if x.1.call.destination = d then [x] else [] := by
  by_cases hd : x.1.call.destination = d <;> simp [exchangesAt, hd]

theorem ChecksTokens.held {σ : Type} {answer : σ → Inquiry → Reply × σ} {streams : σ → Streams}
    (h : ChecksTokens answer streams) {s s' : σ} {ex : List Exchange}
    (hanswered : Dialogue.Answered answer s ex s') (d : Destination) :
    (streams s d).Held (exchangesAt d ex) (streams s' d) := by
  induction ex generalizing s with
  | nil =>
    obtain rfl : s' = s := hanswered
    rfl
  | cons x rest ih =>
    obtain ⟨q, reply⟩ := x
    obtain ⟨rfl, hrest⟩ := hanswered
    obtain ⟨hserves, hothers⟩ := h.serves s q
    have hheld := ih hrest
    by_cases hd : q.call.destination = d
    · rw [exchangesAt, List.filter_cons_of_pos (by simpa using hd)]
      exact ⟨streams (answer s q).2 d, hd ▸ hserves, hheld⟩
    · -- Another destination's exchange: the stream is as it was.
      rw [exchangesAt, List.filter_cons_of_neg (by simpa using hd)]
      rwa [hothers d (Ne.symm hd)] at hheld

def storedBy (x : Exchange) : List LogEvent :=
  match x.1.call with
  | .openStream _ => []
  | .submit _ _ events => if (x.1.registry.heed x.2).stores then events else []

def Turn.flushedTo (d : Destination) (t : Turn) : List LogEvent :=
  (exchangesAt d t.exchanges).flatMap storedBy

theorem heed_of_fails {reply : Reply} (h : reply.fails = true) (r : Registry) :
    ∃ e : RemoteError, r.heed reply = .error e ∧ e.passing = true := by
  rcases reply with _ | (e | _)
  · exact ⟨.timeout r.callTimeout, rfl, rfl⟩
  · exact ⟨e, rfl, h⟩
  · cases h

theorem stores_of_passing {e : RemoteError} (h : e.passing = true) :
    Answer.stores (.error e) = false := by
  cases e <;> first | rfl | cases h

theorem next_of_passing {e : RemoteError} (h : e.passing = true) (sent : Option Token) :
    Answer.next sent (.error e) = sent := by
  cases e <;> first | rfl | cases h

theorem Stream.Serves.stored {s s' : Stream} {x : Exchange} (h : s.Serves x.1.call x.2 s') :
    s'.stored = s.stored ++ storedBy x := by
  obtain ⟨⟨r, id, call⟩, reply⟩ := x
  cases h with
  | opens d => simp [storedBy]
  | fails d token events _ hfails =>
    obtain ⟨e, hheed, hpassing⟩ := heed_of_fails hfails r
    simp [storedBy, hheed, stores_of_passing hpassing]
  | stores d events next => simp [storedBy, Registry.heed, Answer.stores]
  | refuses d token events _ => simp [storedBy, Registry.heed, Answer.stores]

theorem Stream.Held.stored {s s' : Stream} {ex : List Exchange} (h : s.Held ex s') :
    s'.stored = s.stored ++ ex.flatMap storedBy := by
  induction ex generalizing s with
  | nil =>
    obtain rfl : s' = s := h
    simp
  | cons x rest ih =>
    obtain ⟨mid, hserves, hrest⟩ := h
    rw [ih hrest, hserves.stored, List.flatMap_cons, List.append_assoc]

/-! ### A remote that serves every call at once -/

def Streams.serve (w : Streams) (q : Inquiry) : Reply × Streams :=
  match q.call with
  | .openStream d => (some (.ok (w d).token), w)
  | .submit d token events =>
    if token = (w d).token then
      let next := some ((w d).token.getD "" ++ "+")
      (some (.ok next), fun e => if e = d then ⟨next, (w d).stored ++ events⟩ else w e)
    else (some (.error (.invalidSequenceToken (w d).token)), w)

theorem Streams.serve_fails (w : Streams) (q : Inquiry) : (serve w q).1.fails = false := by
  unfold serve
  split
  · rfl
  · split <;> rfl

theorem Streams.serve_checksTokens : ChecksTokens serve id where
  serves w q := by
    obtain ⟨r, source, call⟩ := q
    cases call with
    | openStream d => exact ⟨.opens d, fun _ _ => rfl⟩
    | submit d token events =>
      by_cases htoken : token = (w d).token
      · subst htoken
        simp only [serve, if_true]
        refine ⟨?_, fun e he => if_neg he⟩
        simp only [id, Call.destination, if_true]
        exact .stores d events _
      · simp only [serve, htoken, if_false]
        exact ⟨.refuses d token events htoken, fun _ _ => rfl⟩

end LogRelay
