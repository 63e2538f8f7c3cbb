import LogRelay.Proofs.Courses

/-! Two dialogues with one remote, of which the second asks what the first asks for one source. The
remote answers by destination: what it was asked of others makes no difference to it. -/

namespace LogRelay

/-- The second dialogue asks what the first asks for the source, and nothing else. However both are
answered, the ends are related if the answers for the source agree. -/
inductive Follows {α β : Type} (id : SourceId) (R : α → β → Prop) :
    Dialogue Inquiry Reply α → Dialogue Inquiry Reply β → Prop where
  | done {a : α} {b : β} (h : R a b) : Follows id R (.done a) (.done b)
  | aside {q : Inquiry} {next : Reply → Dialogue Inquiry Reply α} {c : Dialogue Inquiry Reply β}
      (hq : q.source ≠ id) (h : ∀ reply, Follows id R (next reply) c) :
      Follows id R (.ask q next) c
  | ask {q q' : Inquiry} {next : Reply → Dialogue Inquiry Reply α}
      {next' : Reply → Dialogue Inquiry Reply β} (hq : q.source = id) (hq' : q'.source = id)
      (hcall : q'.call = q.call) (h : ∀ reply, Follows id R (next reply) (next' reply)) :
      Follows id R (.ask q next) (.ask q' next')

section
variable {α β α' β' : Type} {id : SourceId} {R : α → β → Prop} {S : α' → β' → Prop}

theorem Follows.bind {c : Dialogue Inquiry Reply α} {c' : Dialogue Inquiry Reply β}
    {f : α → Dialogue Inquiry Reply α'} {f' : β → Dialogue Inquiry Reply β'}
    (h : Follows id R c c') (hf : ∀ a b, R a b → Follows id S (f a) (f' b)) :
    Follows id S (c.bind f) (c'.bind f') := by
  induction h with
  | done h => exact hf _ _ h
  | aside hq _ ih => exact .aside hq ih
  | ask hq hq' hcall _ ih => exact .ask hq hq' hcall ih

theorem Dialogue.bind_done {Q A : Type} (c : Dialogue Q A α) : c.bind .done = c := by
  induction c with
  | done a => rfl
  | ask q next ih => exact congrArg (Dialogue.ask q) (funext ih)

theorem Follows.then_aside {c : Dialogue Inquiry Reply α} {c' : Dialogue Inquiry Reply β}
    {f : α → Dialogue Inquiry Reply α'} {S : α' → β → Prop} (h : Follows id R c c')
    (hf : ∀ a b, R a b → Follows id S (f a) (.done b)) : Follows id S (c.bind f) c' := by
  have hbind := h.bind hf
  rwa [Dialogue.bind_done] at hbind

end

/-! ### A remote that answers by destination -/

def callsTo (d : Destination) (calls : List Call) : List Call :=
  calls.filter fun c => c.destination = d

def byDestination (remote : List Call → Call → Reply) (calls : List Call) (q : Inquiry) :
    Reply × List Call :=
  (remote (callsTo q.call.destination calls) q.call, calls ++ [q.call])

def Concur (D : Destination → Prop) (calls calls' : List Call) : Prop :=
  ∀ d, D d → callsTo d calls = callsTo d calls'

theorem callsTo_snoc (d : Destination) (calls : List Call) (c : Call) :
    callsTo d (calls ++ [c]) = if c.destination = d then callsTo d calls ++ [c] else
      callsTo d calls := by
  by_cases hd : c.destination = d <;> simp [callsTo, hd]

theorem Concur.both {D : Destination → Prop} {calls calls' : List Call}
    (h : Concur D calls calls') (c : Call) : Concur D (calls ++ [c]) (calls' ++ [c]) := by
  intro d hd
  rw [callsTo_snoc, callsTo_snoc, h d hd]

theorem Concur.aside {D : Destination → Prop} {calls calls' : List Call}
    (h : Concur D calls calls') {c : Call} (hc : ¬ D c.destination) :
    Concur D (calls ++ [c]) calls' := by
  intro d hd
  have hne : c.destination ≠ d := fun heq => hc (heq ▸ hd)
  rw [callsTo_snoc, if_neg hne, h d hd]

def Exchange.content (x : Exchange) : SourceId × Call × Reply := (x.1.source, x.1.call, x.2)

theorem Follows.run {α β : Type} {id : SourceId} {R : α → β → Prop} {D : Destination → Prop}
    {c : Dialogue Inquiry Reply α} {c' : Dialogue Inquiry Reply β} (h : Follows id R c c')
    (remote : List Call → Call → Reply) {calls calls' : List Call} (hcalls : Concur D calls calls')
    (hown : ∀ x ∈ (c.run (byDestination remote) calls).exchanges,
      x.1.source = id ↔ D x.1.call.destination) :
    let held := c.run (byDestination remote) calls
    let held' := c'.run (byDestination remote) calls'
    R held.result held'.result ∧ Concur D held.state held'.state ∧
      (madeFor id held.exchanges).map Exchange.content = held'.exchanges.map Exchange.content := by
  induction h generalizing calls calls' with
  | done h => exact ⟨h, hcalls, rfl⟩
  | @aside q next c hq _ ih =>
    obtain ⟨hfirst, hrest⟩ := List.forall_mem_cons.mp hown
    have hother : ¬ D q.call.destination := fun hd => hq (hfirst.mpr hd)
    obtain ⟨hresult, hstate, hex⟩ := ih _ (hcalls.aside hother) hrest
    refine ⟨hresult, hstate, ?_⟩
    rw [← hex]
    exact congrArg _ (List.filter_cons_of_neg (by simpa using hq))
  | @ask q q' next next' hq hq' hcall _ ih =>
    obtain ⟨hfirst, hrest⟩ := List.forall_mem_cons.mp hown
    have hsame : callsTo q.call.destination calls = callsTo q.call.destination calls' :=
      hcalls _ (hfirst.mp hq)
    have hserved : byDestination remote calls' q' =
        (remote (callsTo q.call.destination calls) q.call, calls' ++ [q.call]) := by
      rw [byDestination, hcall, hsame]
    obtain ⟨hresult, hstate, hex⟩ := ih _ (hcalls.both q.call) hrest
    simp only [Dialogue.run, hserved]
    refine ⟨hresult, hstate, ?_⟩
    rw [madeFor, List.filter_cons_of_pos (by simpa using hq), List.map_cons, List.map_cons, ← hex]
    simp only [Exchange.content, hq, hq', hcall, byDestination]
    rfl

end LogRelay
