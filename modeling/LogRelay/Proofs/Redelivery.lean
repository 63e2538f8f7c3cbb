import LogRelay.Proofs.Accounting
import LogRelay.Proofs.Ledgers
import LogRelay.Proofs.Synchrony

/-! One source that ships to a remote whose answers get lost. A batch that was stored without the
registry knowing is known to the remote when it comes again, but only if nothing was appended to it
in the meantime. -/

namespace LogRelay

structure KeepsLedger {σ : Type} (d : Destination) (answer : σ → Inquiry → Reply × σ)
    (ledger : σ → Ledger) : Prop where
  serves : ∀ s q, q.call.destination = d →
    (ledger s).Serves q.call (answer s q).1 (ledger (answer s q).2)

namespace Operation

def ships : Operation → Bool
  | start _ _ | stop _ | shutdown => false
  | _ => true

def appendsTo (id : SourceId) (b : Batch) : Operation → Bool
  | handle s e => s = id && b.accepts e
  | _ => false

theorem ends_of_ships {op : Operation} (h : op.ships = true) (id : SourceId) :
    op.ends id = false := by
  cases op <;> first | rfl | cases h

theorem not_start_of_ships {op : Operation} (h : op.ships = true) (id : SourceId)
    (d : Destination) : op ≠ .start id d := by
  rintro rfl
  cases h

end Operation

namespace Registry

structure Alone (r : Registry) (id : SourceId) (b : Batch) : Prop where
  found : r.batches.find? id = some b
  only : ∀ k, k ≠ id → r.batches.find? k = none

/-- Nothing is ever appended to the source's batch while the remote has it stored as it is. -/
def Patient {σ : Type} (answer : σ → Inquiry → Reply × σ) (ledger : σ → Ledger) (id : SourceId) :
    Registry → List (Visit × Operation) → σ → Prop
  | _, [], _ => True
  | r, (v, op) :: rest, s =>
    let held := (op.course v r).run answer s
    (∀ b ∈ r.batches.find? id, (ledger s).last = some (b.token, b.events) →
      op.appendsTo id b = false) ∧ Patient answer ledger id held.result.1 rest held.state

instance decidablePatient {σ : Type} (answer : σ → Inquiry → Reply × σ) (ledger : σ → Ledger)
    (id : SourceId) : ∀ (r : Registry) (ops : List (Visit × Operation)) (s : σ),
      Decidable (r.Patient answer ledger id ops s)
  | _, [], _ => .isTrue trivial
  | r, (v, op) :: rest, s =>
    let held := (op.course v r).run answer s
    have : Decidable (held.result.1.Patient answer ledger id rest held.state) :=
      decidablePatient answer ledger id _ rest _
    inferInstanceAs (Decidable ((∀ b ∈ r.batches.find? id, _ → _) ∧ _))

end Registry

/-- What the source's events have come to: the remote's side is explained by what is counted and
what is pending, and so are the events that were accepted. -/
structure Account (R : List LogEvent → List LogEvent → Prop) (base : List LogEvent) (w : Ledger)
    (b : Batch) (accepted counted : List LogEvent) : Prop where
  explains : w.Explains R base counted b
  conserved : messages accepted = messages counted ++ messages b.events

section OneSource

variable {σ : Type} {answer : σ → Inquiry → Reply × σ} {ledger : σ → Ledger} {s s' : σ}
  {id : SourceId} {b b' : Batch} {ex : List Exchange} {accepted counted base : List LogEvent}
  {R : List LogEvent → List LogEvent → Prop}

theorem KeepsLedger.submission (h : KeepsLedger b.destination answer ledger) {r : Registry}
    {reply : Reply} (hanswered : Dialogue.Answered answer s [(r.submission id b, reply)] s') :
    (ledger s).Serves (.submit b.destination b.token b.events) reply (ledger s') := by
  obtain ⟨rfl, rfl⟩ := hanswered
  exact h.serves s (r.submission id b) rfl

theorem Account.flush (hR : ∀ c n es, R c n → R (c ++ es) (n ++ es))
    (h : Account R base (ledger s) b accepted counted)
    (hremote : KeepsLedger b.destination answer ledger) (hf : Flushed id b ex b')
    (hanswered : Dialogue.Answered answer s ex s') :
    Account R base (ledger s') b' accepted (counted ++ ex.flatMap storedBy) := by
  cases hf with
  | empty =>
    obtain rfl : s' = s := hanswered
    rwa [List.flatMap_nil, List.append_nil]
  | asked r reply =>
    have hserves := hremote.submission hanswered
    rw [List.flatMap_singleton]
    refine ⟨h.explains.submit hR hserves r, ?_⟩
    have hadds : storedBy (r.submission id b, reply) =
        if (r.heed reply).closes then b.events else [] := by
      rw [hserves.closes_eq_stores r]
      rfl
    rw [h.conserved, hadds, Batch.settle_events]
    cases (r.heed reply).closes <;> simp

theorem Account.append (h : Account R base (ledger s) b accepted counted) (e : LogEvent)
    (hdoubt : (ledger s).last = some (b.token, b.events) → ∀ c n es, R c n → R c (n ++ es)) :
    Account R base (ledger s) (b.append e) (accepted ++ [e]) counted := by
  refine ⟨h.explains.append e hdoubt, ?_⟩
  rw [messages_append, h.conserved, messages_appended, List.append_assoc]

theorem Account.sublist {w : Ledger} (h : Account List.Sublist base w b accepted counted) :
    ∃ new, w.stored = base ++ new ∧ counted.Sublist new := by
  cases h.explains with
  | settled new hstored hnew _ => exact ⟨new, hstored, hnew⟩
  | unsettled new hstored hnew _ =>
    exact ⟨new ++ b.events, hstored, hnew.trans (List.sublist_append_left _ _)⟩

theorem Account.in_order {w : Ledger} (h : Account Eq base w b accepted counted) :
    ∃ new, w.stored = base ++ new ∧ counted <+: new ∧ messages new <+: messages accepted := by
  cases h.explains with
  | settled _ hstored hnew _ =>
    refine ⟨counted, hnew ▸ hstored, List.prefix_rfl, ?_⟩
    rw [h.conserved]
    exact List.prefix_append _ _
  | unsettled _ hstored hnew _ =>
    have hall : messages accepted = messages (counted ++ b.events) := by
      rw [h.conserved, messages_append]
    exact ⟨counted ++ b.events, hnew ▸ hstored, List.prefix_append _ _, hall ▸ List.prefix_rfl⟩

theorem Flushed.leaves_new (hf : Flushed id b ex b') {e : LogEvent} (hfull : b.accepts e = false)
    (hroom : b'.accepts e = true) (hremote : KeepsLedger b.destination answer ledger)
    (hanswered : Dialogue.Answered answer s ex s') :
    (ledger s').last ≠ some (b'.token, b'.events) := by
  cases hf with
  | empty => exact absurd (hfull.symm.trans hroom) Bool.false_ne_true
  | asked r reply hpending =>
    have hserves := hremote.submission hanswered
    cases hcloses : (r.heed reply).closes with
    | false =>
      -- With the events that it had, the batch has as little room.
      rw [Batch.settle_fst, hcloses] at hroom
      exact absurd (hfull.symm.trans hroom) Bool.false_ne_true
    | true =>
      rw [hserves.last_of_stores (hserves.closes_eq_stores r ▸ hcloses), Batch.settle_events,
        hcloses, if_pos rfl]
      intro heq
      exact hpending (congrArg Prod.snd (Option.some.inj heq))

namespace Turn

variable {t : Turn}

theorem Possible.alone (h : t.Possible) (hships : t.operation.ships = true)
    (halone : t.before.Alone id b) :
    madeFor id t.exchanges = t.exchanges ∧ exchangesAt b.destination t.exchanges = t.exchanges := by
  have hall : ∀ x ∈ t.exchanges, x.1.source = id ∧ x.1.call.destination = b.destination := by
    intro x hx
    obtain ⟨c, hc, hcall⟩ := h.asked (Operation.not_start_of_ships hships) hx
    have hsource : x.1.source = id := by
      by_contra hne
      exact absurd ((halone.only _ hne).symm.trans hc) (by simp)
    obtain rfl : c = b := by
      rw [hsource, halone.found] at hc
      exact (Option.some.inj hc).symm
    exact ⟨hsource, by rw [hcall]; rfl⟩
  refine ⟨madeFor_eq_self fun x hx => (hall x hx).1, List.filter_eq_self.mpr fun x hx => ?_⟩
  simpa using (hall x hx).2

theorem Possible.only (h : t.Possible) (hships : t.operation.ships = true)
    (halone : t.before.Alone id b) : ∀ k, k ≠ id → t.after.batches.find? k = none := by
  intro k hk
  have hway := h.passage k
  rw [halone.only k hk] at hway
  generalize madeFor k t.exchanges = ex, t.after.batches.find? k = after at hway
  cases hway with
  | absent => rfl
  | started _ d _ hop => exact absurd hop (Operation.not_start_of_ships hships k d)

theorem Possible.account (hR : ∀ c n es, R c n → R (c ++ es) (n ++ es)) (h : t.Possible)
    (hships : t.operation.ships = true) (halone : t.before.Alone id b)
    (hremote : KeepsLedger b.destination answer ledger)
    (hanswered : Dialogue.Answered answer s t.exchanges s')
    (hdoubt : (ledger s).last = some (b.token, b.events) →
      t.operation.appendsTo id b = true → ∀ c n es, R c n → R c (n ++ es))
    (hbefore : Account R base (ledger s) b accepted counted) :
    ∃ b', t.after.Alone id b' ∧ b'.destination = b.destination ∧
      Account R base (ledger s') b' (accepted ++ t.accepted id)
        (counted ++ t.flushedTo b.destination) := by
  obtain ⟨hmine, hhere⟩ := h.alone hships halone
  have honly := h.only hships halone
  have hway := h.passage id
  rw [halone.found, hmine] at hway
  rw [Turn.flushedTo, hhere, Turn.accepted]
  generalize t.exchanges = ex at hway hanswered
  generalize hafter : t.after.batches.find? id = after at hway
  cases hway with
  | kept _ _ hno =>
    obtain rfl : s' = s := hanswered
    refine ⟨b, ⟨hafter, honly⟩, rfl, ?_⟩
    rwa [hno, List.append_nil, List.flatMap_nil, List.append_nil]
  | @flushed _ b' _ hop hf =>
    refine ⟨b', ⟨hafter, honly⟩, hf.destination, ?_⟩
    rw [(Operation.of_flushes t.outcome hop).2, List.append_nil]
    exact hbefore.flush hR hremote hf hanswered
  | @appended _ e hop ho hroom =>
    obtain rfl : s' = s := hanswered
    refine ⟨b.append e, ⟨hafter, honly⟩, rfl, ?_⟩
    rw [Operation.admitted_of_taken hop (Or.inl ho), List.flatMap_nil, List.append_nil]
    exact hbefore.append e fun hlast =>
      hdoubt hlast (by rw [hop]; simpa [Operation.appendsTo] using hroom)
  | @overflowed _ b' e _ hop ho hfull hf hroom =>
    have hsame : b'.destination = b.destination := hf.destination
    refine ⟨b'.append e, ⟨hafter, honly⟩, hsame, ?_⟩
    rw [Operation.admitted_of_taken hop ho]
    have hnew := hf.leaves_new hfull hroom hremote hanswered
    exact (hbefore.flush hR hremote hf hanswered).append e fun hlast => absurd hlast hnew
  | @refused _ b' e _ hop ho _ hf _ =>
    refine ⟨b', ⟨hafter, honly⟩, hf.destination, ?_⟩
    have hno : t.operation.admitted id t.outcome = [] := by rw [hop, ho]; rfl
    rw [hno, List.append_nil]
    exact hbefore.flush hR hremote hf hanswered
  | removed hop => exact absurd ((Operation.ends_of_ships hships id).symm.trans hop) (by simp)

end Turn

theorem Registry.account_history (hR : ∀ c n es, R c n → R (c ++ es) (n ++ es)) {r : Registry}
    {ops : List (Visit × Operation)} (hops : ∀ x ∈ ops, x.2.ships = true) (halone : r.Alone id b)
    (hremote : KeepsLedger b.destination answer ledger)
    (hdoubt : r.Patient answer ledger id ops s ∨ ∀ c n es, R c n → R c (n ++ es))
    (hbefore : Account R base (ledger s) b accepted counted) :
    let run := r.history answer ops s
    let shipped := run.turns.flatMap (·.flushedTo b.destination)
    run.registry.tally.eventsSubmitted = r.tally.eventsSubmitted + shipped.length ∧
      ∃ b', run.registry.Alone id b' ∧ Account R base (ledger run.state) b'
        (accepted ++ run.turns.flatMap (·.accepted id)) (counted ++ shipped) := by
  induction ops generalizing r s b accepted counted with
  | nil =>
    refine ⟨rfl, b, halone, ?_⟩
    simpa [Registry.history] using hbefore
  | cons first rest ih =>
    obtain ⟨v, op⟩ := first
    obtain ⟨hships, hrest⟩ := List.forall_mem_cons.mp hops
    let held := (op.course v r).run answer s
    let t : Turn := ⟨r, op, held.exchanges, held.result.2, held.result.1⟩
    have ht : t.Possible := ⟨v, Dialogue.run_yields answer (op.course v r) s⟩
    have hanswered := Dialogue.run_answered answer (op.course v r) s
    have hnow : (ledger s).last = some (b.token, b.events) → op.appendsTo id b = true →
        ∀ c n es, R c n → R c (n ++ es) := by
      intro hlast happends
      rcases hdoubt with ⟨hpatient, -⟩ | hgrows
      · exact absurd ((hpatient b halone.found hlast).symm.trans happends) (by simp)
      · exact hgrows
    obtain ⟨c, hc, hd, haccount⟩ := ht.account hR hships halone hremote hanswered hnow hbefore
    obtain ⟨htally, b', hb', hlater⟩ := ih hrest hc (hd ▸ hremote)
      (hdoubt.imp_left fun hpatient => hpatient.2) haccount
    have hadds : (t.exchanges.flatMap storedBy) = t.flushedTo b.destination := by
      rw [Turn.flushedTo, (ht.alone hships halone).2]
    have hturns : (r.history answer ((v, op) :: rest) s).turns =
        t :: (held.result.1.history answer rest held.state).turns := rfl
    rw [hd] at htally hlater
    simp only [hturns, List.flatMap_cons, List.length_append]
    refine ⟨htally.trans ?_, b', hb', ?_⟩
    · have hturn : held.result.1.tally.eventsSubmitted =
          r.tally.eventsSubmitted + (t.flushedTo b.destination).length :=
        hadds ▸ ht.eventsSubmitted
      rw [hturn, Nat.add_assoc]
    · rwa [List.append_assoc, List.append_assoc] at hlater

variable (answer s id) in
theorem Registry.start_alone (limits : Limits) (callTimeout : Duration) (v : Visit)
    (d : Destination) :
    let started := (Registry.new limits callTimeout).history answer [(v, .start id d)] s
    started.registry.tally.eventsSubmitted = 0 ∧
      ∃ token, started.registry.Alone id (.fresh d token limits) := by
  let r : Registry := .new limits callTimeout
  let opened := r.heed (answer s ⟨r, id, .openStream d⟩).1
  have htally : ((({} : Tally).opened opened).concluded .finished).eventsSubmitted = 0 := by
    cases opened <;> rfl
  have hfind (k : SourceId) : (r.batches.insert id (.fresh d opened.toOption.join limits)).find? k =
      if k = id then some (.fresh d opened.toOption.join limits) else none :=
    Roster.find?_insert r.batches id k _
  exact ⟨htally, opened.toOption.join, (hfind id).trans (if_pos rfl),
    fun k hk => (hfind k).trans (if_neg hk)⟩

end OneSource

/-- One source, and a remote that stores what comes with the current token, knows the batch again
that it stored last, and may lose any answer. However events, flushes and sweeps follow one another
after a start, the events that the registry counts as submitted are the first that it accepted, and
all of them are stored. If no event is appended to a batch while the remote has it stored as it is,
the registry not knowing, then what is stored are the first accepted events in order, each once,
those counted before any others. The source may start with any token but the one that the batch
stored last was sent with. -/
theorem stored_once {σ : Type} (limits : Limits) (callTimeout : Duration)
    (answer : σ → Inquiry → Reply × σ) (ledger : σ → Ledger) (id : SourceId) (d : Destination)
    (hremote : KeepsLedger d answer ledger) (v : Visit) (s : σ)
    (hstart : let started := (Registry.new limits callTimeout).history answer [(v, .start id d)] s
      ∀ b ∈ started.registry.batches.find? id, ∀ x ∈ (ledger started.state).last, x.1 ≠ b.token)
    (ops : List (Visit × Operation)) (hops : ∀ x ∈ ops, x.2.ships = true) :
    let started := (Registry.new limits callTimeout).history answer [(v, .start id d)] s
    let run := started.registry.history answer ops started.state
    let accepted := run.turns.flatMap (·.accepted id)
    let counted := run.turns.flatMap (·.flushedTo d)
    ∃ new, (ledger run.state).stored = (ledger started.state).stored ++ new ∧
      run.registry.tally.eventsSubmitted = counted.length ∧
      messages counted <+: messages accepted ∧ counted.Sublist new ∧
      (started.registry.Patient answer ledger id ops started.state →
        counted <+: new ∧ messages new <+: messages accepted) := by
  obtain ⟨hzero, token, halone⟩ := Registry.start_alone answer s id limits callTimeout v d
  intro started run accepted counted
  -- Before anything is shipped there is nothing to account for, however much is to be known.
  have hfirst (R : List LogEvent → List LogEvent → Prop) (hnil : R [] []) :
      Account R (ledger started.state).stored (ledger started.state) (.fresh d token limits) []
        [] := by
    refine ⟨.settled [] (List.append_nil _).symm hnil fun events hlast => ?_, rfl⟩
    exact absurd rfl (hstart _ halone.found _ hlast)
  obtain ⟨htally, b, -, haccount⟩ := Registry.account_history (R := List.Sublist)
    (fun _ _ es h => h.append_right es) hops halone hremote
    (.inr fun _ _ es h => h.trans (List.sublist_append_left _ es)) (hfirst _ .slnil)
  obtain ⟨new, hstored, hnew⟩ := haccount.sublist
  have hpending : messages accepted = messages counted ++ messages b.events := haccount.conserved
  refine ⟨new, hstored, htally.trans ?_, hpending ▸ List.prefix_append _ _, hnew,
    fun hpatient => ?_⟩
  · rw [hzero, Nat.zero_add]
    rfl
  · obtain ⟨-, _, -, hsame⟩ := Registry.account_history (R := Eq)
      (fun _ _ es h => h ▸ rfl) hops halone hremote (.inl hpatient) (hfirst _ rfl)
    obtain ⟨new', hstored', hexact⟩ := hsame.in_order
    obtain rfl : new' = new := List.append_cancel_left (hstored'.symm.trans hstored)
    exact hexact

namespace Ledger

def store (w : Ledger) (events : List LogEvent) : Ledger where
  token := some (w.token.getD "" ++ "+")
  stored := w.stored ++ events
  last := some (w.token, events)
  moved := by
    intro x hx heq
    obtain rfl := Option.some.inj hx
    cases hw : w.token with
    | none => simp [hw] at heq
    | some t =>
      have hlength := congrArg String.length (Option.some.inj (hw.symm.trans heq))
      simp [hw] at hlength

def serveOrLose (s : Ledger × List Bool) (q : Inquiry) : Reply × Ledger × List Bool :=
  let served : Reply × Ledger :=
    match q.call with
    | .openStream _ => (some (.ok s.1.token), s.1)
    | .submit _ token events =>
      if token = s.1.token then (some (.ok (s.1.store events).token), s.1.store events)
      else if s.1.last = some (token, events) then
        (some (.error (.dataAlreadyAccepted s.1.token)), s.1)
      else (some (.error (.invalidSequenceToken s.1.token)), s.1)
  (if s.2.head? = some true then none else served.1, served.2, s.2.tail)

theorem serveOrLose_keepsLedger (d : Destination) : KeepsLedger d serveOrLose Prod.fst where
  serves s q _ := by
    obtain ⟨r, id, call⟩ := q
    cases call with
    | openStream e => exact .opens e _
    | submit e token events =>
      by_cases htoken : token = s.1.token
      · subst htoken
        simp only [serveOrLose, if_true]
        refine .stores e events _ _ ?_ rfl rfl
        split
        · exact .inr rfl
        · exact .inl rfl
      · by_cases hlast : s.1.last = some (token, events)
        · simp only [serveOrLose, htoken, hlast, if_true, if_false]
          split
          · exact .fails e token events none rfl
          · exact .repeats e token events hlast
        · simp only [serveOrLose, htoken, hlast, if_false]
          split
          · exact .fails e token events none rfl
          · exact .refuses e token events htoken hlast

def unwritten : Ledger := ⟨none, [], none, nofun⟩

end Ledger

def retried : List (Visit × Operation) :=
  [.handle "a" ⟨1, "x"⟩, .flush "a", .flush "a", .handle "a" ⟨2, "y"⟩, .sweep].map (.byName, ·)

theorem stored_once_retried :
    let started := (Registry.new {} .zero).history Ledger.serveOrLose
      [(.byName, .start "a" ⟨"g", "s"⟩)] (.unwritten, [false, true])
    let run := started.registry.history Ledger.serveOrLose retried started.state
    let accepted := run.turns.flatMap (·.accepted "a")
    KeepsLedger ⟨"g", "s"⟩ Ledger.serveOrLose Prod.fst ∧
      started.registry.Patient Ledger.serveOrLose Prod.fst "a" retried started.state ∧
      accepted = [⟨1, "x"⟩, ⟨2, "y"⟩] ∧ run.registry.tally.eventsSubmitted = 2 ∧
      ∃ new, run.state.1.stored = started.state.1.stored ++ new ∧
        messages new <+: messages accepted := by
  have hpatient : ((Registry.new {} .zero).history Ledger.serveOrLose
      [(.byName, .start "a" ⟨"g", "s"⟩)] (.unwritten, [false, true])).registry.Patient
        Ledger.serveOrLose Prod.fst "a" retried ((Registry.new {} .zero).history Ledger.serveOrLose
          [(.byName, .start "a" ⟨"g", "s"⟩)] (.unwritten, [false, true])).state := by decide +kernel
  obtain ⟨new, hstored, -, -, -, honce⟩ := stored_once {} .zero Ledger.serveOrLose Prod.fst "a"
    ⟨"g", "s"⟩ (Ledger.serveOrLose_keepsLedger _) .byName (.unwritten, [false, true])
    (by decide +kernel) retried (by decide +kernel)
  exact ⟨Ledger.serveOrLose_keepsLedger _, hpatient, by decide +kernel, by decide +kernel, new,
    hstored, (honce hpatient).2⟩

def interrupted : List (Visit × Operation) :=
  [.handle "a" ⟨1, "x"⟩, .flush "a", .handle "a" ⟨2, "y"⟩, .flush "a", .flush "a"].map (.byName, ·)

/-- Patience is needed: a batch that has grown since it was stored is stored again. So is a first
token that no stored batch was sent with: an event that equals the only one stored, and is sent with
the same token since the stream was not opened, counts as stored though it is not. -/
theorem stored_twice_interrupted :
    let started := (Registry.new {} .zero).history Ledger.serveOrLose
      [(.byName, .start "a" ⟨"g", "s"⟩)] (.unwritten, [false, true])
    let run := started.registry.history Ledger.serveOrLose interrupted started.state
    let written := Ledger.unwritten.store [⟨1, "x"⟩]
    let mistaken := (Registry.new {} .zero).history Ledger.serveOrLose
      ([.start "a" ⟨"g", "s"⟩, .handle "a" ⟨1, "x"⟩, .flush "a"].map (.byName, ·)) (written, [true])
    KeepsLedger ⟨"g", "s"⟩ Ledger.serveOrLose Prod.fst ∧
      (run.turns.flatMap (·.accepted "a") = [⟨1, "x"⟩, ⟨2, "y"⟩] ∧
        run.registry.tally.eventsSubmitted = 2 ∧
        run.state.1.stored = [⟨1, "x"⟩, ⟨1, "x"⟩, ⟨2, "y"⟩]) ∧
      mistaken.registry.tally.eventsSubmitted = 1 ∧ mistaken.state.1.stored = written.stored :=
  ⟨Ledger.serveOrLose_keepsLedger _, ⟨by decide +kernel, by decide +kernel, by decide +kernel⟩,
    by decide +kernel, by decide +kernel⟩

end LogRelay
