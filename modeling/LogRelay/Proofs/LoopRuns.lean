import LogRelay.Loop
import LogRelay.Proofs.Draining

/-! What the loop makes of its signals: the messages of the stream in order, with sweeps in between,
and when no more are to come, the end of the run. -/

namespace LogRelay

def Occurrence.messages (l : List Occurrence) : List HostMessage :=
  (l.filterMap (·.message?)).map (·.2)

theorem Occurrence.messages_append (l l' : List Occurrence) :
    messages (l ++ l') = messages l ++ messages l' := by
  simp [messages]

namespace Signal

-- What is read before the end of the stream.
def reads : List Signal → List Bytes
  | read bytes :: rest => bytes :: reads rest
  | turn _ _ :: rest => reads rest
  | ended _ :: _ | [] => []

-- A line that is still open has brought no message so far, like one that a failure cuts off.
def ending : List Signal → Ending
  | read _ :: rest | turn _ _ :: rest => ending rest
  | ended e :: _ => e
  | [] => .failure

end Signal

namespace Loop

inductive Next (l : Loop) (clock : Nat) (now : Int) : Option Occurrence × Loop → Prop
  | sweep {s : Sweeper} (hs : s = { l.sweeper.take clock 0 with sweep := none })
      (hdue : l.sweeper.due ≤ clock) (hgoesOn : l.waiting = [] → l.ended = false)
      (hfair : l.waiting ≠ [] → l.swept = false) :
      Next l clock now (some .sweep, { l with sweeper := s, swept := true })
  | message {m : HostMessage} {rest : List HostMessage} (hwaiting : l.waiting = m :: rest) :
      Next l clock now (some (.message now m), { l with waiting := rest, swept := false })
  | cancel (hnone : l.waiting = []) (hended : l.ended = true) : Next l clock now (some .cancel, l)
  | idle (hnone : l.waiting = []) (hgoesOn : l.ended = false) (hearly : clock < l.sweeper.due) :
      Next l clock now (none, l)

theorem next_cases (l : Loop) (clock : Nat) (now : Int) : Next l clock now (l.next clock now) := by
  unfold next
  cases hwaiting : l.waiting with
  | cons m rest =>
    dsimp only
    split
    · rename_i hsweep
      rw [Bool.and_eq_true, decide_eq_true_eq, Bool.not_eq_true'] at hsweep
      exact .sweep rfl hsweep.1 (by simp [hwaiting]) fun _ => hsweep.2
    · exact .message hwaiting
  | nil =>
    dsimp only
    split
    · rename_i hended
      exact .cancel hwaiting hended
    · rename_i hgoesOn
      split
      · rename_i hdue
        exact .sweep rfl hdue (fun _ => by simpa using hgoesOn) (absurd hwaiting)
      · rename_i hearly
        exact .idle hwaiting (by simpa using hgoesOn) (Nat.lt_of_not_le hearly)

/-! ### The messages -/

-- What the loop has still to put out, if these signals follow.
def coming (l : Loop) (signals : List Signal) : List HostMessage :=
  l.waiting ++ bif l.ended then [] else
    (RawLine.ofReads l.maxLine l.framer (Signal.ending signals) (Signal.reads signals)).filterMap
      HostMessage.ofRawLine

theorem coming_fresh {l : Loop} (hwaiting : l.waiting = []) (hgoesOn : l.ended = false)
    (hframer : l.framer = {}) (signals : List Signal) : l.coming signals =
      HostMessage.ofReads l.maxLine (Signal.ending signals) (Signal.reads signals) := by
  rw [coming, hwaiting, hgoesOn, hframer, HostMessage.ofReads]
  simp

theorem coming_start (c : Config) (clock : Nat) (signals : List Signal) :
    (start c clock).coming signals =
      HostMessage.ofReads c.batching.limits.maxLine (Signal.ending signals)
        (Signal.reads signals) := by
  have hlimit : (start c clock).maxLine = c.batching.limits.maxLine := rfl
  have hfresh := coming_fresh (l := start c clock) rfl rfl rfl signals
  rw [hfresh, hlimit]

theorem coming_turn (l : Loop) (clock : Nat) (now : Int) (rest : List Signal) :
    l.coming (.turn clock now :: rest) = l.coming rest := rfl

theorem coming_next (l : Loop) (clock : Nat) (now : Int) (rest : List Signal) :
    Occurrence.messages (l.next clock now).1.toList ++ (l.next clock now).2.coming rest =
      l.coming rest := by
  have hnext := l.next_cases clock now
  generalize l.next clock now = out at hnext
  cases hnext with
  | sweep | cancel | idle => rfl
  | message hwaiting =>
    rw [coming, coming, hwaiting]
    rfl

theorem coming_heed (l : Loop) (signal : Signal) (rest : List Signal) :
    Occurrence.messages (l.heed signal).1.toList ++ (l.heed signal).2.coming rest =
      l.coming (signal :: rest) := by
  cases signal with
  | read bytes =>
    cases hended : l.ended with
    | true => simp [heed, coming, hended, Occurrence.messages]
    | false => simp [heed, feed, await, coming, hended, Occurrence.messages, Signal.reads,
        Signal.ending, RawLine.ofReads]
  | ended e =>
    cases hended : l.ended with
    | true => simp [heed, coming, hended, Occurrence.messages]
    | false => simp [heed, finish, await, coming, hended, Occurrence.messages, Signal.reads,
        Signal.ending]
  | turn clock now =>
    rw [coming_turn]
    exact l.coming_next clock now rest

theorem heed_cancel {l l' : Loop} {signal : Signal} (h : l.heed signal = (some .cancel, l'))
    (rest : List Signal) : l.coming rest = [] := by
  cases signal with
  | read | ended => cases h
  | turn clock now =>
    have hnext := l.next_cases clock now
    rw [show l.next clock now = _ from h] at hnext
    cases hnext with
    | cancel hnone hended => simp [coming, hnone, hended]

theorem messages_run_prefix (l : Loop) (signals : List Signal) :
    Occurrence.messages (l.run signals) <+: l.coming signals := by
  induction signals generalizing l with
  | nil => exact List.nil_prefix
  | cons signal rest ih =>
    have hstep := l.coming_heed signal rest
    rw [run, ← hstep]
    split
    · rename_i l' hheed
      rw [hheed]
      exact ih l'
    · exact List.nil_prefix
    · rename_i o l' _ hheed
      have hmessages : Occurrence.messages (o :: l'.run rest) =
          Occurrence.messages [o] ++ Occurrence.messages (l'.run rest) :=
        Occurrence.messages_append [o] (l'.run rest)
      rw [hheed, hmessages]
      exact (List.prefix_append_right_inj _).mpr (ih l')

/-! ### The end -/

theorem run_cancelled {l : Loop} {signals : List Signal} (h : .cancel ∈ l.run signals) :
    ∃ before, l.run signals = before ++ [.cancel] ∧ .cancel ∉ before ∧
      Occurrence.messages before = l.coming signals := by
  induction signals generalizing l with
  | nil => cases h
  | cons signal rest ih =>
    have hstep := l.coming_heed signal rest
    revert h
    rw [run]
    split
    · rename_i l' hheed
      rw [hheed] at hstep
      rw [← hstep]
      exact ih
    · rename_i l' hheed
      exact fun _ => ⟨[], rfl, List.not_mem_nil, (heed_cancel hheed _).symm⟩
    · rename_i o l' hgoesOn hheed
      intro h
      have ho : .cancel ≠ o := fun heq => hgoesOn (heq ▸ rfl)
      obtain ⟨before, hrun, hno, hmessages⟩ := ih ((List.mem_cons.mp h).resolve_left ho)
      refine ⟨o :: before, congrArg (o :: ·) hrun, by simp [ho, hno], ?_⟩
      rw [hheed] at hstep
      rw [← hstep, ← hmessages]
      exact Occurrence.messages_append [o] before

-- How many turns there may be before the last one.
def turnsLeft (l : Loop) : Nat := 2 * l.waiting.length + bif l.swept then 0 else 1

theorem next_ended {l : Loop} (hended : l.ended = true) (clock : Nat) (now : Int) :
    (l.next clock now).1 = some .cancel ∨
      ((l.next clock now).1.isSome ∧ (l.next clock now).2.ended = true ∧
        (l.next clock now).2.turnsLeft < l.turnsLeft) := by
  have hnext := l.next_cases clock now
  generalize l.next clock now = out at hnext
  cases hnext with
  | sweep hs hdue hgoesOn hfair =>
    have hwaiting : l.waiting ≠ [] := fun hnone => by simp [hgoesOn hnone] at hended
    exact .inr ⟨rfl, hended, by simp [turnsLeft, hfair hwaiting]⟩
  | message hwaiting =>
    refine .inr ⟨rfl, hended, ?_⟩
    simp only [turnsLeft, hwaiting, List.length_cons, cond_false]
    omega
  | cancel => exact .inl rfl
  | idle hnone hgoesOn => simp [hgoesOn] at hended

/-- Once the stream is over, the loop comes to its end when it gets enough turns. -/
theorem run_ended {l : Loop} (hended : l.ended = true) (turns : List (Nat × Int))
    (henough : l.turnsLeft < turns.length) :
    .cancel ∈ l.run (turns.map fun t => .turn t.1 t.2) := by
  induction turns generalizing l with
  | nil => exact absurd henough (Nat.not_lt_zero _)
  | cons t rest ih =>
    have hnext := next_ended hended t.1 t.2
    rw [List.map_cons, run, heed]
    generalize l.next t.1 t.2 = out at hnext
    obtain ⟨o, l'⟩ := out
    rcases hnext with hlast | ⟨hsome, hended', hless⟩
    · obtain rfl : o = some .cancel := hlast
      exact List.mem_singleton_self _
    · have hlater : .cancel ∈ l'.run (rest.map fun t => .turn t.1 t.2) := by
        apply ih hended'
        rw [List.length_cons] at henough
        exact Nat.lt_of_lt_of_le hless (Nat.le_of_lt_succ henough)
      obtain ⟨o, rfl⟩ := Option.isSome_iff_exists.mp hsome
      cases o with
      | cancel => exact List.mem_singleton_self _
      | message | sweep => exact List.mem_cons_of_mem _ hlater

end Loop

theorem Shipping.runFrom_cancel (n : Naming) {before : List Occurrence} (hgoesOn : .cancel ∉ before)
    (dispatched : Nat) (r : Registry) :
    runFrom n dispatched r (before ++ [.cancel]) = runFrom n dispatched r before := by
  induction before generalizing dispatched r with
  | nil => rfl
  | cons o rest ih =>
    obtain ⟨ho, hrest⟩ := not_or.mp (mt List.mem_cons.mpr hgoesOn)
    cases o with
    | cancel => exact absurd rfl ho
    | message | sweep => simp only [List.cons_append, runFrom, ih hrest]

/-- Whatever is read, and whenever it is the loop's turn: the messages of the stream come out in
order. When the loop comes to its end, all have come out, and what the registry does for it is a
whole run: each occurrence has been dealt with in its turn, and no source is left. -/
theorem Loop.run_ships {σ : Type} (host : String) (c : Config) (answer : σ → Inquiry → Reply × σ)
    (w : σ) (clock : Nat) (signals : List Signal) :
    let occurrences := (start c clock).run signals
    let stream := HostMessage.ofReads c.batching.limits.maxLine (Signal.ending signals)
      (Signal.reads signals)
    let held := (Shipping.run host c occurrences).run answer w
    let serial := (Shipping.registry c).history answer
      (occurrences.map fun o => (Visit.byName, (Shipping.naming host c).asks o)) w
    Occurrence.messages occurrences <+: stream ∧
      (.cancel ∈ occurrences →
        Occurrence.messages occurrences = stream ∧ held.result.2.dispatched = stream.length ∧
          held.result.1 = serial.registry ∧ held.exchanges = serial.calls ∧
          serial.registry.batches = Roster.empty) := by
  intro occurrences stream held serial
  have hstream : (start c clock).coming signals = stream := coming_start c clock signals
  refine ⟨hstream ▸ messages_run_prefix _ signals, fun hcancel => ?_⟩
  obtain ⟨before, hrun, hgoesOn, hmessages⟩ := run_cancelled hcancel
  have hoccurrences : occurrences = before ++ [.cancel] := hrun
  have hall : Occurrence.messages before = stream := hmessages.trans hstream
  have hops : occurrences.map (fun o => (Visit.byName, (Shipping.naming host c).asks o)) =
      (before.map (Shipping.naming host c).asks ++ [Operation.shutdown]).map (Visit.byName, ·) := by
    simp [hoccurrences, Naming.asks]
  obtain ⟨hregistry, hdispatched, hcalls, -⟩ :=
    Shipping.runFrom_history (Shipping.naming host c) answer hgoesOn 0 (Shipping.registry c) w
  have hheld : held = (Shipping.runFrom (Shipping.naming host c) 0 (Shipping.registry c) before).run
      answer w := by
    simp only [held, Shipping.run, hoccurrences, Shipping.runFrom_cancel _ hgoesOn]
  have hserial : serial = (Shipping.registry c).history answer
      ((before.map (Shipping.naming host c).asks ++ [Operation.shutdown]).map (Visit.byName, ·))
        w :=
    congrArg ((Shipping.registry c).history answer · w) hops
  refine ⟨?_, ?_, ?_, ?_, ?_⟩
  · rw [hoccurrences, Occurrence.messages_append, hall]
    exact List.append_nil _
  · rw [hheld, hdispatched, ← hall, Occurrence.messages, List.length_map, Nat.zero_add]
  · rw [hheld, hserial]
    exact hregistry
  · rw [hheld, hserial]
    exact hcalls
  · rw [hserial, List.map_append, List.map_singleton]
    exact Registry.batches_history_shutdown answer _ _ Visit.byName w

end LogRelay
