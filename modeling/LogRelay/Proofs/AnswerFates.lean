import LogRelay.Gateway.Client
import LogRelay.Proofs.Books
import LogRelay.Proofs.Responses
import LogRelay.Proofs.TokenChain

/-! What becomes of a batch, told from what the wire brought for its submission: any status with any
body, an exchange that broke, or no answer in time. -/

namespace LogRelay

open Gateway

def Gateway.Response.Confirms (response : Response) (next : Option Token) : Prop :=
  ∃ body, response.Succeeds body ∧
    (body = [] ∧ next = none ∨ ∃ v, Json.readDeep? body = some v ∧ putAnswer? v = some next)

theorem Gateway.Response.confirms_iff {response : Response} {next : Option Token} :
    response.Confirms next ↔ response.Says putAnswer? next := by
  have hempty : putAnswer? (.object []) = some none := by decide
  simp only [Confirms, Says, hempty, Option.some.injEq, eq_comm (a := none)]

def unexplained : RemoteError → Bool
  | .transport | .undecodable | .timeout _ => true
  | .api _ kind _ => kind = "Unknown"
  | _ => false

namespace Registry

variable (r : Registry) (response : Response)

def hear : Answer := r.heed (response.decode putAnswer?)

theorem hear_ok_iff {next : Option Token} :
    r.hear response = .ok next ↔ response.Confirms next := by
  have hheed (reply : Reply) : r.heed reply = .ok next ↔ reply = some (.ok next) := by
    cases reply <;> simp [heed]
  rw [hear, hheed, Response.decode_ok_iff, Response.confirms_iff]

variable {response} in
theorem hear_refusal {status : Nat} {c : Complaint} (h : response.Refuses status c) :
    r.hear response = .error (c.error status) := by
  rw [hear, h.decode]
  rfl

theorem hear_cases : (∃ next, r.hear response = .ok next) ∨
    (∃ status c, response.Refuses status c) ∨
      ∃ e, unexplained e = true ∧ r.hear response = .error e := by
  rcases response with ⟨status, body⟩ | _ | _
  · by_cases hstatus : 200 ≤ status ∧ status < 300
    · have hhear : r.hear (.answered status body) = success putAnswer? body := by
        simp [hear, heed, Response.decode, hstatus]
      rw [hhear]
      unfold success
      split
      · exact Or.inl ⟨_, rfl⟩
      · exact Or.inr (Or.inr ⟨.undecodable, rfl, rfl⟩)
    · cases hc : Json.readDeep? body >>= complaint? with
      | some c => exact Or.inr (Or.inl ⟨status, c, body, ⟨rfl, hstatus⟩, hc⟩)
      | none =>
        refine Or.inr (Or.inr ⟨.api status "Unknown" (Utf8.decodeLossy body), rfl, ?_⟩)
        simp only [hear, heed, Response.decode, errorOf, hc]
        simp [hstatus]
  · exact Or.inr (Or.inr ⟨.transport, rfl, rfl⟩)
  · exact Or.inr (Or.inr ⟨.timeout r.callTimeout, rfl, rfl⟩)

theorem hear_error_iff {P : RemoteError → Prop} (hP : ∀ e, unexplained e = true → ¬P e) :
    (∃ e, r.hear response = .error e ∧ P e) ↔
      ∃ status c, response.Refuses status c ∧ P (c.error status) := by
  constructor
  · rintro ⟨e, he, hPe⟩
    rcases r.hear_cases response with ⟨next, hok⟩ | ⟨status, c, hc⟩ | ⟨e', hunexplained, he'⟩
    · cases he.symm.trans hok
    · obtain rfl : e = c.error status := Except.error.inj (he.symm.trans (r.hear_refusal hc))
      exact ⟨status, c, hc, hPe⟩
    · obtain rfl : e = e' := Except.error.inj (he.symm.trans he')
      exact absurd hPe (hP e hunexplained)
  · rintro ⟨status, c, hc, hPc⟩
    exact ⟨c.error status, r.hear_refusal hc, hPc⟩

variable {response} {expected : Option Token}

theorem hear_dataAlreadyAccepted :
    r.hear response = .error (.dataAlreadyAccepted expected) ↔
      response.Complains "DataAlreadyAcceptedException" expected := by
  have hiff := r.hear_error_iff response (P := (· = .dataAlreadyAccepted expected))
    (by rintro _ he rfl; cases he)
  simpa [Complaint.error_dataAlreadyAccepted, Response.complains_iff] using hiff

theorem hear_invalidSequenceToken :
    r.hear response = .error (.invalidSequenceToken expected) ↔
      response.Complains "InvalidSequenceTokenException" expected := by
  have hiff := r.hear_error_iff response (P := (· = .invalidSequenceToken expected))
    (by rintro _ he rfl; cases he)
  simpa [Complaint.error_invalidSequenceToken, Response.complains_iff] using hiff

theorem hear_rejects : (r.hear response).rejects = true ↔
    ∃ expected, response.Complains "InvalidParameterException" expected := by
  have hrejects (a : Answer) : a.rejects = true ↔
      ∃ e, a = .error e ∧ ∃ message, e = .invalidParameter message := by
    rcases a with e | _
    · cases e <;> simp [Answer.rejects]
    · simp [Answer.rejects]
  have hiff := r.hear_error_iff response (P := fun e => ∃ message, e = .invalidParameter message)
    (by rintro _ he ⟨_, rfl⟩; cases he)
  rw [hrejects, hiff]
  simp only [Complaint.error_invalidParameter, Response.complains_iff]
  constructor
  · rintro ⟨status, c, hc, hkind⟩
    exact ⟨c.expected, status, c, hc, hkind, rfl⟩
  · rintro ⟨_, status, c, hc, hkind, -⟩
    exact ⟨status, c, hc, hkind⟩

end Registry

/-- The batch after the response to its submission. It is left empty by a success that can be read,
with the next token of that; by a refusal as already accepted, with the token that it names; and by
a refusal for good, with its token as it was. With every other response it keeps its events, and its
token unless the refusal is for that and names another. -/
structure Batch.Fate (b : Batch) (response : Response) (a : Answer) (b' : Batch) : Prop where
  empty_iff : b'.events = [] ↔ (∃ next, response.Confirms next) ∨
    (∃ expected, response.Complains "DataAlreadyAcceptedException" expected) ∨
    ∃ expected, response.Complains "InvalidParameterException" expected
  confirmed : ∀ next, response.Confirms next → b' = b.successor next
  repeated : ∀ expected, response.Complains "DataAlreadyAcceptedException" expected →
    b' = b.successor expected
  refused : ∀ expected, response.Complains "InvalidParameterException" expected →
    b' = b.successor b.token
  rejects_iff : a.rejects = true ↔
    ∃ expected, response.Complains "InvalidParameterException" expected
  stale : ∀ token, response.Complains "InvalidSequenceTokenException" (some token) →
    b' = { b with token := some token }
  kept : b'.events ≠ [] →
    (∀ token, ¬response.Complains "InvalidSequenceTokenException" (some token)) → b' = b

theorem Batch.fate (r : Registry) {b : Batch} (response : Response) (hb : b.events ≠ []) :
    b.Fate response (r.hear response) (b.settle (r.hear response)).1 where
  empty_iff := by
    simp only [← r.hear_ok_iff, ← r.hear_dataAlreadyAccepted, ← r.hear_rejects]
    rw [Batch.settle_events]
    rcases r.hear response with e | next
    · cases e <;> simp [Answer.closes, Answer.rejects, hb]
    · simp [Answer.closes]
  confirmed next h := by
    rw [(r.hear_ok_iff response).mpr h]
    rfl
  repeated expected h := by
    rw [r.hear_dataAlreadyAccepted.mpr h]
    rfl
  refused expected h := by
    have hrejects := r.hear_rejects.mpr ⟨expected, h⟩
    generalize r.hear response = a at hrejects
    rcases a with e | next
    · cases e <;> first | rfl | exact absurd hrejects Bool.false_ne_true
    · exact absurd hrejects Bool.false_ne_true
  rejects_iff := r.hear_rejects
  stale token h := by
    rw [r.hear_invalidSequenceToken.mpr h]
    rfl
  kept hpending hsame := by
    simp only [← r.hear_invalidSequenceToken] at hsame
    generalize r.hear response = a at hpending hsame
    rcases a with e | next
    · rcases e with _ | _ | (_ | token) | _
      case invalidSequenceToken.some => exact absurd rfl (hsame token)
      all_goals first | rfl | exact absurd rfl hpending
    · exact absurd rfl hpending

namespace Turn

variable {t : Turn} {id : SourceId} {b : Batch}

def Leaves (t : Turn) (id : SourceId) (b : Batch) : Prop :=
  if t.operation.ends id then t.after.batches.find? id = none
  else t.after.batches.find? id = some b ∨
    ∃ e, t.operation = .handle id e ∧ t.accepted id = [e] ∧
      t.after.batches.find? id = some (b.append e)

theorem Possible.asks (ht : t.Possible) (hb : t.before.batches.find? id = some b)
    (hpending : b.events ≠ []) (hspares : ¬t.Spares id b) : madeFor id t.exchanges ≠ [] := by
  obtain ⟨v, hyields⟩ := ht
  have hflush {ex : List Exchange} {b' : Batch} (hf : Flushed id b ex b') : ex ≠ [] := by
    cases hf with
    | empty hempty => exact absurd hempty hpending
    | asked => exact List.cons_ne_nil _ _
  have hown {ex : List Exchange} {c c' : Batch} (hc : t.before.batches.find? id = some c)
      (hf : Flushed id c ex c') : madeFor id ex ≠ [] := by
    obtain rfl := Option.some.inj (hb.symm.trans hc)
    rw [hf.madeFor_self]
    exact hflush hf
  unfold Spares at hspares
  cases hop : t.operation with
  | start | contains | size | copyBatch => simp [hop] at hspares
  | stop k =>
    rw [hop] at hyields hspares
    obtain rfl : k = id := not_not.mp hspares
    obtain ⟨⟨⟩, hc, -⟩ := Operation.answer_yields (f := fun _ => .finished) hyields
    rcases Registry.stop_yields hc with ⟨hnone, -⟩ | ⟨_, _, hsome, hf, -⟩
    · cases hb.symm.trans hnone
    · exact hown hsome hf
  | handle k e =>
    rw [hop] at hyields hspares
    obtain ⟨hk, hfull, hsize⟩ : ¬k ≠ id ∧ ¬b.accepts e = true ∧
        t.outcome ≠ .handled (.dropped .oversized) := by simpa [not_or] using hspares
    obtain rfl : k = id := not_not.mp hk
    obtain ⟨outcome, hc, hout⟩ := Operation.answer_yields hyields
    have hhandled := Registry.handle_yields hc
    generalize t.exchanges = ex, t.after = r' at hhandled
    cases hhandled with
    | unknown hnone => cases hb.symm.trans hnone
    | oversized => exact absurd hout hsize
    | fits hsome _ hroom =>
      obtain rfl := Option.some.inj (hb.symm.trans hsome)
      exact absurd hroom hfull
    | overflows hsome _ _ hsubmit => exact hown hsome (Registry.submit_flushed hsubmit)
  | flush k =>
    rw [hop] at hyields hspares
    obtain rfl : k = id := not_not.mp hspares
    obtain ⟨_, hc, -⟩ := Operation.answer_yields hyields
    rcases Registry.flush_yields hc with ⟨hnone, -⟩ | ⟨_, _, hsome, hf, -⟩
    · cases hb.symm.trans hnone
    · exact hown hsome hf
  | sweep =>
    rw [hop] at hyields
    obtain ⟨_, hc, -⟩ := Operation.answer_yields hyields
    have hswept := Registry.sweepOver_yields (v.nodup t.before.batches) hc
    obtain ⟨_, -, hf⟩ := hswept.visited id (Visit.mem.mpr (hb ▸ rfl)) b hb
    exact hflush hf
  | shutdown =>
    rw [hop] at hyields
    obtain ⟨_, hc, -⟩ := Operation.answer_yields hyields
    obtain ⟨-, -, -, hvisited⟩ := Registry.shutdown_yields hc
    obtain ⟨_, hf⟩ := hvisited id b hb
    exact hflush hf

theorem Possible.flushed (ht : t.Possible) (hb : t.before.batches.find? id = some b)
    (hasks : madeFor id t.exchanges ≠ []) :
    ∃ b', Flushed id b (madeFor id t.exchanges) b' ∧ t.Leaves id b' := by
  have hway := ht.passage id
  rw [hb] at hway
  unfold Leaves accepted
  generalize madeFor id t.exchanges = ex, t.after.batches.find? id = after at hway hasks
  cases hway with
  | kept | appended => exact absurd rfl hasks
  | flushed hop hf =>
    refine ⟨_, hf, ?_⟩
    rw [(Operation.of_flushes t.outcome hop).1]
    exact Or.inl rfl
  | overflowed hop ho _ hf =>
    refine ⟨_, hf, ?_⟩
    rw [Operation.admitted_of_taken hop ho, hop]
    exact Or.inr ⟨_, rfl, rfl, rfl⟩
  | refused hop _ _ hf =>
    refine ⟨_, hf, ?_⟩
    rw [hop]
    exact Or.inl rfl
  | removed hop hf =>
    refine ⟨_, hf, ?_⟩
    rw [hop]
    rfl

end Turn

def Gateway.overWire {σ : Type} (pages : Nat) (answer : σ → Request → Response × σ) (s : σ)
    (q : Inquiry) : Reply × σ :=
  let held := (reply pages q.call).run answer s
  (held.result, held.state)

def Exchange.Over (pages : Nat) (x : Exchange) (wire : List (Request × Response)) : Prop :=
  (reply pages x.1.call).Yields wire x.2

theorem Exchange.over_submission {pages : Nat} {r : Registry} {id : SourceId} {b : Batch}
    {answered : Reply} {wire : List (Request × Response)} :
    Exchange.Over pages (r.submission id b, answered) wire ↔ ∃ response,
      wire = [(.putEvents b.destination b.token b.events, response)] ∧
        answered = response.decode putAnswer? := by
  simp only [Exchange.Over, Registry.submission, reply, submit, exchange, Dialogue.yields_ask,
    Dialogue.yields_done]
  constructor
  · rintro ⟨response, _, rfl, rfl, rfl⟩
    exact ⟨response, rfl, rfl⟩
  · rintro ⟨response, rfl, rfl⟩
    exact ⟨response, [], rfl, rfl, rfl⟩

/-- One request was made in this turn for what the batch had pending, and whatever came back for it
over the wire tells the fate of the batch. -/
def Turn.Decides {σ : Type} (pages : Nat) (answer : σ → Request → Response × σ) (t : Turn)
    (id : SourceId) (b : Batch) : Prop :=
  ∃ x a, madeFor id t.exchanges = [x] ∧ t.submissions id = [.ofBatch b a (t.operation.ends id)] ∧
    (∃ before wire after, x.Over pages wire ∧ Dialogue.Answered answer before wire after) ∧
    ∀ wire, x.Over pages wire → ∃ response b',
      wire = [(.putEvents b.destination b.token b.events, response)] ∧
        b.Fate response a b' ∧ t.Leaves id b'

theorem Turn.Possible.decides {σ : Type} {pages : Nat} {answer : σ → Request → Response × σ}
    {t : Turn} {id : SourceId} {b : Batch} (ht : t.Possible)
    (hwire : ∀ x ∈ t.exchanges, ∃ before wire after,
      x.Over pages wire ∧ Dialogue.Answered answer before wire after)
    (hb : t.before.batches.find? id = some b) (hpending : b.events ≠ []) :
    t.Spares id b ∧ t.submissions id = [] ∨ t.Decides pages answer id b := by
  by_cases hspares : t.Spares id b
  · exact Or.inl ⟨hspares, ht.spares hb hspares⟩
  refine Or.inr ?_
  obtain ⟨b', hf, hleaves⟩ := ht.flushed hb (ht.asks hb hpending hspares)
  generalize hmade : madeFor id t.exchanges = ex at hf
  cases hf with
  | empty hempty => exact absurd hempty hpending
  | asked r answered =>
    have hmem : (r.submission id b, answered) ∈ t.exchanges := by
      refine (List.mem_filter.mp (?_ : _ ∈ madeFor id t.exchanges)).1
      rw [hmade]
      exact List.mem_singleton_self _
    refine ⟨_, r.heed answered, hmade, ?_, hwire _ hmem, fun wire hover => ?_⟩
    · rw [Turn.submissions, hmade]
      rfl
    · obtain ⟨response, rfl, rfl⟩ := Exchange.over_submission.mp hover
      exact ⟨response, _, rfl, b.fate r response hpending, hleaves⟩

theorem Turn.Possible.eventsRejected {t : Turn} (ht : t.Possible) :
    t.after.tally.eventsRejected = t.before.tally.eventsRejected +
      totalSize (t.allSubmissions.filter (·.answer.rejects)) := by
  have htally := ht.tally
  rw [Tally.foldl_exchanged _ fun x => t.operation.ends x.1.source] at htally
  obtain ⟨dropped, oversized, hconcluded, -⟩ :=
    (t.before.tally.called t.allSubmissions t.openings).concluded_eq t.outcome
  rw [htally.trans hconcluded]
  rfl

end LogRelay
