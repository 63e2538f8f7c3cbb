import LogRelay.Proofs.Synchrony

/-! The registry and a remote that checks tokens agree through whole runs, with failures and
restarts in any order, on the tokens and on what is stored. -/

namespace LogRelay

theorem ChecksTokens.stored {σ : Type} {answer : σ → Inquiry → Reply × σ} {streams : σ → Streams}
    (h : ChecksTokens answer streams) (r : Registry) (ops : List (Visit × Operation)) (s : σ)
    (d : Destination) : (streams (r.history answer ops s).state d).stored =
      (streams s d).stored ++ (r.history answer ops s).turns.flatMap (·.flushedTo d) := by
  refine history_induction (fun turns _ s' => (streams s' d).stored =
    (streams s d).stored ++ turns.flatMap (·.flushedTo d)) ?_ r ops s (by simp)
  intro turns t s₁ s₂ _ hanswered hstored
  have hheld := (h.held hanswered d).stored
  rw [hheld, hstored, List.flatMap_append, List.flatMap_singleton, List.append_assoc]
  rfl

/-- Every run against a remote that checks tokens and fails as it likes, with no two sources on one
stream at a time: the batches hold the current tokens of their streams, no submission is refused for
its token, and each stream holds what it held at first and then the batches that were flushed to it,
one after the other. A run that is cut short is a run, so this is so after every operation. -/
theorem batches_in_step {σ : Type} (limits : Limits) (callTimeout : Duration)
    (answer : σ → Inquiry → Reply × σ) (streams : σ → Streams)
    (hremote : ChecksTokens answer streams) (ops : List (Visit × Operation)) (s : σ)
    (hapart : ∀ t ∈ ((Registry.new limits callTimeout).history answer ops s).turns,
      t.after.Apart) :
    let run := (Registry.new limits callTimeout).history answer ops s
    (∀ id b, run.registry.batches.find? id = some b →
      b.token = (streams run.state b.destination).token) ∧
    (∀ t ∈ run.turns, ∀ x ∈ t.exchanges, x.2.refuses = false) ∧
    ∀ d, (streams run.state d).stored = (streams s d).stored ++
      run.turns.flatMap (·.flushedTo d) := by
  have hinvariant := @history_induction σ answer
    (fun turns r s' => (∀ t ∈ turns, t.after.Apart) → r.Apart ∧ r.InStep (streams s') ∧
      ∀ t ∈ turns, ∀ x ∈ t.exchanges, x.2.refuses = false) ?_ (.new limits callTimeout) ops s
    fun _ => ⟨List.nodup_nil, nofun, List.forall_mem_nil _⟩
  · obtain ⟨-, hstep, hserved⟩ := hinvariant hapart
    exact ⟨hstep, hserved, hremote.stored _ ops s⟩
  · intro turns t s₁ s₂ ht hanswered ih hall
    obtain ⟨hbefore, hstep, hserved⟩ := ih fun u hu => hall u (List.mem_append_left _ hu)
    obtain ⟨hafter, hnow⟩ := ht.inStep hbefore (hremote.held hanswered) hstep
    refine ⟨hall t (by simp), hafter, fun u hu => ?_⟩
    rcases List.mem_append.mp hu with hu | hu
    · exact hserved u hu
    · rw [List.mem_singleton.mp hu]
      exact hnow

def Streams.serveOrLapse (s : Streams × List Bool) (q : Inquiry) : Reply × Streams × List Bool :=
  match q.call with
  | .openStream d => (some (.ok (s.1 d).token), s)
  | .submit d token events =>
    if s.2.head? = some true then (none, s.1, s.2.tail)
    else if token = (s.1 d).token then
      let next := some ((s.1 d).token.getD "" ++ "+")
      (some (.ok next), Function.update s.1 d ⟨next, (s.1 d).stored ++ events⟩, s.2.tail)
    else (some (.error (.invalidSequenceToken (s.1 d).token)), s.1, s.2.tail)

theorem Streams.serveOrLapse_checksTokens : ChecksTokens serveOrLapse Prod.fst where
  serves s q := by
    obtain ⟨r, id, call⟩ := q
    cases call with
    | openStream d => exact ⟨.opens d, fun _ _ => rfl⟩
    | submit d token events =>
      by_cases hlapse : s.2.head? = some true
      · simp only [serveOrLapse, hlapse, if_true]
        exact ⟨.fails d token events none rfl, fun _ _ => rfl⟩
      · by_cases htoken : token = (s.1 d).token
        · simp only [serveOrLapse, hlapse, htoken, if_true, if_false]
          refine ⟨?_, fun e he => Function.update_of_ne he _ _⟩
          simp only [Call.destination, Function.update_self]
          exact .stores d events _
        · simp only [serveOrLapse, hlapse, htoken, if_false]
          exact ⟨.refuses d token events htoken, fun _ _ => rfl⟩

def handover : List (Visit × Operation) :=
  [.start "a" ⟨"g", "s"⟩, .handle "a" ⟨5, "x"⟩, .flush "a", .handle "a" ⟨3, "y"⟩, .stop "a",
    .start "b" ⟨"g", "s"⟩, .start "c" ⟨"g", "t"⟩, .handle "b" ⟨4, "z"⟩, .sweep].map (.byName, ·)

theorem batches_in_step_handover :
    let run := (Registry.new {} .zero).history Streams.serveOrLapse handover (fun _ => {}, [true])
    ChecksTokens Streams.serveOrLapse Prod.fst ∧ (∀ t ∈ run.turns, t.after.Apart) ∧
      (run.state.1 ⟨"g", "s"⟩).stored = [⟨5, "x"⟩, ⟨5, "y"⟩, ⟨4, "z"⟩] := by
  have hapart : ∀ t ∈ ((Registry.new {} .zero).history Streams.serveOrLapse handover
      (fun _ => {}, [true])).turns, t.after.Apart := by decide +kernel
  have hstep := batches_in_step {} .zero Streams.serveOrLapse Prod.fst
    Streams.serveOrLapse_checksTokens handover (fun _ => {}, [true]) hapart
  refine ⟨Streams.serveOrLapse_checksTokens, hapart, (hstep.2.2 ⟨"g", "s"⟩).trans ?_⟩
  decide +kernel

end LogRelay
