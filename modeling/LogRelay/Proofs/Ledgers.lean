import LogRelay.Proofs.Conservation
import LogRelay.Proofs.Streams

/-! A remote whose answers get lost. Its stream remembers the batch that was stored last, so that it
can tell a repetition from a stale submission; what the registry holds back is then either settled
or stored already, unknown to the registry. -/

namespace LogRelay

structure Ledger where
  token : Option Token := none
  stored : List LogEvent := []
  last : Option (Option Token × List LogEvent) := none
  moved : ∀ x ∈ last, x.1 ≠ token

namespace Ledger

/-- What a call may be answered, and what becomes of the stream. A submission that carries the
current token is stored, though the answer may be lost; the batch stored last is known again when it
comes with the token that it was stored with; any other is refused. A call or the answer to it may
get lost in any case. -/
inductive Serves (w : Ledger) : Call → Reply → Ledger → Prop where
  | opens (d : Destination) (reply : Reply) : Serves w (.openStream d) reply w
  | fails (d : Destination) (token : Option Token) (events : List LogEvent) (reply : Reply)
      (h : reply.fails = true) : Serves w (.submit d token events) reply w
  | stores (d : Destination) (events : List LogEvent) (reply : Reply) (w' : Ledger)
      (hreply : reply = some (.ok w'.token) ∨ reply.fails = true)
      (hstored : w'.stored = w.stored ++ events) (hlast : w'.last = some (w.token, events)) :
      Serves w (.submit d w.token events) reply w'
  | repeats (d : Destination) (token : Option Token) (events : List LogEvent)
      (hlast : w.last = some (token, events)) :
      Serves w (.submit d token events) (some (.error (.dataAlreadyAccepted w.token))) w
  | refuses (d : Destination) (token : Option Token) (events : List LogEvent)
      (hstale : token ≠ w.token) (hnew : w.last ≠ some (token, events)) :
      Serves w (.submit d token events) (some (.error (.invalidSequenceToken w.token))) w

/-- Every account of what was stored since is one of these. If it is settled, no batch was stored
with the token at hand that the pending events could repeat or go on from. If it is not, the pending
events are at the end of what is stored. -/
inductive Explains (R : List LogEvent → List LogEvent → Prop) (base counted : List LogEvent)
    (w : Ledger) (b : Batch) : Prop where
  | settled (new : List LogEvent) (hstored : w.stored = base ++ new) (hR : R counted new)
      (hclear : ∀ events, w.last = some (b.token, events) → ¬ b.events <+: events)
  | unsettled (new : List LogEvent) (hstored : w.stored = base ++ (new ++ b.events))
      (hR : R counted new) (hlast : w.last = some (b.token, b.events))

end Ledger

theorem settle_of_fails (b : Batch) {reply : Reply} (h : reply.fails = true) (r : Registry) :
    (b.settle (r.heed reply)).1 = b ∧ (r.heed reply).stores = false := by
  obtain ⟨e, hheed, hpassing⟩ := heed_of_fails h r
  have hstores := stores_of_passing hpassing
  have hcloses : Answer.closes (.error e) = false := by
    cases e <;> first | rfl | cases hpassing
  rw [hheed, Batch.settle_fst, hcloses, next_of_passing hpassing]
  exact ⟨rfl, hstores⟩

namespace Ledger

variable {w w' : Ledger} {d : Destination} {id : SourceId} {b b' : Batch} {reply : Reply}
  {R : List LogEvent → List LogEvent → Prop} {base counted : List LogEvent}

theorem Serves.closes_eq_stores {token : Option Token} {events : List LogEvent}
    (h : w.Serves (.submit d token events) reply w') (r : Registry) :
    (r.heed reply).closes = (r.heed reply).stores := by
  have hfails (hf : reply.fails = true) : (r.heed reply).closes = (r.heed reply).stores := by
    obtain ⟨e, hheed, hpassing⟩ := heed_of_fails hf r
    rw [hheed, stores_of_passing hpassing]
    cases e <;> first | rfl | cases hpassing
  cases h with
  | fails _ _ _ _ hf => exact hfails hf
  | stores _ _ _ _ hreply =>
    rcases hreply with rfl | hf
    · rfl
    · exact hfails hf
  | repeats => rfl
  | refuses => rfl

theorem Serves.last_of_stores {token : Option Token} {events : List LogEvent}
    (h : w.Serves (.submit d token events) reply w') {r : Registry}
    (hs : (r.heed reply).stores = true) : w'.last = some (token, events) := by
  cases h with
  | fails _ _ _ _ hf =>
    have hno := (settle_of_fails (.fresh d token {}) hf r).2
    exact absurd (hno.symm.trans hs) Bool.false_ne_true
  | stores _ _ _ _ _ _ hlast => exact hlast
  | repeats _ _ _ hlast => exact hlast
  | refuses => cases hs

theorem Explains.submit (hR : ∀ c n es, R c n → R (c ++ es) (n ++ es))
    (h : w.Explains R base counted b)
    (hserves : w.Serves (.submit b.destination b.token b.events) reply w') (r : Registry) :
    w'.Explains R base (counted ++ storedBy (r.submission id b, reply))
      (b.settle (r.heed reply)).1 := by
  have hstoredBy : storedBy (r.submission id b, reply) =
      if (r.heed reply).stores then b.events else [] := rfl
  have hfailed (hf : reply.fails = true) :
      (b.settle (r.heed reply)).1 = b ∧
        counted ++ storedBy (r.submission id b, reply) = counted := by
    obtain ⟨hsame, hno⟩ := settle_of_fails b hf r
    rw [hstoredBy, hno]
    exact ⟨hsame, List.append_nil _⟩
  generalize hsent : b.token = sent at hserves
  generalize hevents : b.events = events at hserves
  cases hserves with
  | fails _ _ _ _ hf =>
    obtain ⟨hsame, hcounted⟩ := hfailed hf
    rwa [hsame, hcounted]
  | stores _ _ _ _ hreply hstored hlast =>
    cases h with
    | unsettled new _ _ hdoubt =>
      -- The token of a batch that was stored is not the current one.
      exact absurd hsent (w.moved _ hdoubt)
    | settled new hbefore hnew _ =>
      rw [hbefore, List.append_assoc] at hstored
      rcases hreply with rfl | hf
      · have hnext : (b.settle (r.heed (some (.ok w'.token)))).1 = b.successor w'.token := rfl
        have hadds : storedBy (r.submission id b, some (.ok w'.token)) = events := hevents
        rw [hnext, hadds]
        refine .settled (new ++ events) hstored (hR _ _ _ hnew) fun _ hsome => ?_
        exact absurd rfl (w'.moved _ hsome)
      · obtain ⟨hsame, hcounted⟩ := hfailed hf
        rw [hsame, hcounted]
        exact .unsettled new (hevents ▸ hstored) hnew (by rw [hlast, hsent, hevents])
  | repeats _ _ _ hlast =>
    cases h with
    | settled _ _ _ hclear =>
      exact absurd (hevents ▸ List.prefix_rfl) (hclear events (hsent ▸ hlast))
    | unsettled new hbefore hnew _ =>
      have hnext : (b.settle (r.heed (some (.error (.dataAlreadyAccepted w.token))))).1 =
          b.successor w.token := rfl
      have hadds : storedBy (r.submission id b, some (.error (.dataAlreadyAccepted w.token))) =
          b.events := rfl
      rw [hnext, hadds]
      refine .settled (new ++ b.events) hbefore (hR _ _ _ hnew) fun _ hsome => ?_
      exact absurd rfl (w.moved _ hsome)
  | refuses _ _ _ _ hnew =>
    cases h with
    | unsettled _ _ _ hdoubt => exact absurd (hsent ▸ hevents ▸ hdoubt) hnew
    | settled new hbefore hcount hclear =>
      have hno : storedBy (r.submission id b, some (.error (.invalidSequenceToken w.token))) = [] :=
        rfl
      rw [hno, List.append_nil]
      refine .settled new hbefore hcount fun held hsome => ?_
      -- Either the batch keeps its token, or it adopts one that no batch was stored with.
      revert hsome
      cases htoken : w.token with
      | none => exact fun hsome => hclear held hsome
      | some current => exact fun hsome => absurd htoken.symm (w.moved _ hsome)

-- Appending keeps the account, unless it makes the batch another one than the remote stored.
theorem Explains.append (h : w.Explains R base counted b) (e : LogEvent)
    (hdoubt : w.last = some (b.token, b.events) → ∀ c n es, R c n → R c (n ++ es)) :
    w.Explains R base counted (b.append e) := by
  have hlonger {events : List LogEvent} (hpre : (b.append e).events <+: events) :
      b.events <+: events := (List.prefix_append _ _).trans hpre
  cases h with
  | settled new hstored hR hclear =>
    exact .settled new hstored hR fun events hsome hpre => hclear events hsome (hlonger hpre)
  | unsettled new hstored hR hlast =>
    refine .settled (new ++ b.events) hstored (hdoubt hlast _ _ _ hR) fun events hsome hpre => ?_
    obtain rfl : b.events = events := by
      have hpair := Option.some.inj (hlast.symm.trans hsome)
      exact congrArg Prod.snd hpair
    have hle : b.events.length + 1 ≤ b.events.length := by
      simpa [Batch.append] using hpre.length_le
    omega

end Ledger
end LogRelay
