import LogRelay.Proofs.Sessions
import LogRelay.Timeline.Basic

/-! A sweeper on a clock. Its task looks for a cancellation before it looks for a tick, and sweeps
along with the other callers of the registry; sweeps may take any time, ticks may be due at any time
after the first one, and the task may be cancelled at any time. -/

namespace LogRelay

def Phase.isIdle : Phase → Bool
  | idle => true
  | _ => false

theorem Phase.isIdle_iff {p : Phase} : p.isIdle = true ↔ p = idle := by
  cases p <;> simp [isIdle]

def Action.requestsAs {ι : Type} [DecidableEq ι] (i : ι) : Action ι → Bool
  | request j _ => j = i
  | _ => false

/-! ### What a sweep comes to -/

theorem Dialogue.bind_assoc {Q A α β γ : Type} (d : Dialogue Q A α) (f : α → Dialogue Q A β)
    (g : β → Dialogue Q A γ) : (d.bind f).bind g = d.bind fun a => (f a).bind g := by
  induction d with
  | done a => rfl
  | ask q next ih =>
    simp only [bind]
    exact congrArg (ask q) (funext ih)

theorem Registry.sweepOver_append (r : Registry) (report : SweepReport)
    (front rest : List SourceId) :
    r.sweepOver report (front ++ rest) =
      (r.sweepOver report front).bind fun out => out.1.sweepOver out.2 rest := by
  induction front generalizing r report with
  | nil => rfl
  | cons id front ih =>
    simp only [List.cons_append, sweepOver]
    split
    · exact ih r report
    · split
      · exact ih r report
      · rw [Dialogue.bind_assoc]
        exact congrArg _ (funext fun out => ih out.1 (report.add out.2))

/-- The turn is a sweep in the order of the visit. When it comes to a source, what is pending there
is submitted before it goes on. -/
structure Turn.Sweeps (v : Visit) (t : Turn) : Prop where
  operation : t.operation = .sweep
  visits : ∀ id ∈ t.before.batches.ids, ∃ front rest ex later r report,
    v.order t.before.batches.ids = front ++ id :: rest ∧ t.exchanges = ex ++ later ∧
    (t.before.sweepOver {} front).Yields ex (r, report) ∧
    ∀ b, r.batches.find? id = some b → b.events ≠ [] →
      ∃ reply, later.head? = some (⟨r, id, .submit b.destination b.token b.events⟩, reply)

theorem Turn.sweeps {v : Visit} {t : Turn} (hop : t.operation = .sweep)
    (hyields : (t.operation.course v t.before).Yields t.exchanges (t.after, t.outcome)) :
    t.Sweeps v := by
  refine ⟨hop, fun id hid => ?_⟩
  have hvisited : id ∈ v.order t.before.batches.ids := (v.perm _).mem_iff.mpr hid
  obtain ⟨front, rest, horder⟩ := List.append_of_mem hvisited
  rw [hop] at hyields
  obtain ⟨ex, ⟨r', report'⟩, _, hsweep, hdone, hsplit⟩ := Dialogue.yields_bind.mp hyields
  obtain ⟨rfl, -⟩ := Dialogue.yields_done.mp hdone
  rw [Registry.sweep, horder, Registry.sweepOver_append] at hsweep
  obtain ⟨first, ⟨r, report⟩, later, hfront, hlater, rfl⟩ := Dialogue.yields_bind.mp hsweep
  refine ⟨front, rest, first, later, r, report, horder, by simpa using hsplit, hfront,
    fun b hb hpending => ?_⟩
  have hfull : b.isEmpty = false := by
    simpa [Batch.isEmpty] using hpending
  simp only [Registry.sweepOver, hb, hfull, Registry.flush, Registry.submit, Dialogue.bind,
    Bool.false_eq_true, if_false] at hlater
  obtain ⟨reply, more, rfl, -⟩ := Dialogue.yields_ask.mp hlater
  exact ⟨reply, rfl⟩

/-! ### The turns of a caller -/

theorem Registry.history_zip {σ : Type} (answer : σ → Inquiry → Reply × σ) (r : Registry)
    (ops : List (Visit × Operation)) (w : σ) :
    ∀ x ∈ ops.zip (r.history answer ops w).turns, x.2.operation = x.1.2 ∧
      (x.2.operation.course x.1.1 x.2.before).Yields x.2.exchanges (x.2.after, x.2.outcome) := by
  induction ops generalizing r w with
  | nil => exact List.forall_mem_nil _
  | cons first rest ih =>
    obtain ⟨v, op⟩ := first
    exact List.forall_mem_cons.mpr ⟨⟨rfl, Dialogue.run_yields answer (op.course v r) w⟩, ih _ _⟩

namespace Shared

variable {ι σ : Type} [DecidableEq ι] (answer : σ → Inquiry → Reply × σ) (r : Registry) (w : σ)

def turnsOf (s : Shared ι σ) (i : ι) : List (Visit × Turn) :=
  ((s.acquired.zip (oneByOne answer r w s.acquired).turns).filter (·.1.1 = i)).map
    fun x => (x.1.2.1, x.2)

variable {answer r w} {s : Shared ι σ} {i : ι}

theorem length_turnsOf :
    (s.turnsOf answer r w i).length = (s.acquired.filter (·.1 = i)).length := by
  have hlength : s.acquired.length ≤ (oneByOne answer r w s.acquired).turns.length := by
    simp [oneByOne, Registry.history_length]
  calc (s.turnsOf answer r w i).length
    _ = ((s.acquired.zip (oneByOne answer r w s.acquired).turns).filter (·.1.1 = i)).length :=
      List.length_map ..
    _ = (((s.acquired.zip (oneByOne answer r w s.acquired).turns).map (·.1)).filter
        (·.1 = i)).length := by
      rw [List.filter_map, List.length_map]
      rfl
    _ = (s.acquired.filter (·.1 = i)).length := by rw [List.map_fst_zip hlength]

theorem mem_turnsOf {x : Visit × Turn} (hx : x ∈ s.turnsOf answer r w i) :
    (i, x.1, x.2.operation) ∈ s.acquired ∧
      (x.2.operation.course x.1 x.2.before).Yields x.2.exchanges (x.2.after, x.2.outcome) := by
  simp only [turnsOf, List.mem_map, List.mem_filter, decide_eq_true_eq] at hx
  obtain ⟨⟨⟨j, v, op⟩, t⟩, ⟨hzip, rfl⟩, rfl⟩ := hx
  have hhistory : ((v, op), t) ∈ (s.acquired.map (·.2)).zip
      (oneByOne answer r w s.acquired).turns := by
    rw [List.zip_map_left]
    exact List.mem_map_of_mem hzip
  obtain ⟨hop, hyields⟩ := Registry.history_zip answer r _ w _ hhistory
  exact ⟨hop ▸ (List.of_mem_zip hzip).1, hyields⟩

theorem Held.mem_turns {before : List (ι × Visit × Operation)} {k : ι} {v : Visit}
    {op : Operation} {ex : List Exchange} {c : Course Outcome}
    (h : Held answer r w s before k v op ex c) (hi : i ≠ k) {x : Visit × Turn}
    (hx : x ∈ s.turnsOf answer r w i) : x.2 ∈ (oneByOne answer r w before).turns := by
  have hlength : before.length = (oneByOne answer r w before).turns.length := by
    simp [oneByOne, Registry.history_length]
  obtain ⟨last, hturns⟩ : ∃ last, (oneByOne answer r w s.acquired).turns =
      (oneByOne answer r w before).turns ++ [last] := by
    rw [oneByOne, h.acquired, List.map_append, List.map_singleton, Registry.history_snoc]
    exact ⟨_, rfl⟩
  rw [turnsOf, hturns, h.acquired, List.zip_append hlength, List.filter_append] at hx
  simp only [List.zip_cons_cons, List.zip_nil_left, List.filter_cons, Ne.symm hi, decide_false,
    Bool.false_eq_true, if_false, List.filter_nil, List.append_nil, List.mem_map,
    List.mem_filter] at hx
  obtain ⟨⟨e, t⟩, ⟨hzip, -⟩, rfl⟩ := hx
  exact (List.of_mem_zip hzip).2

theorem Serial.calls_answered (h : Serial answer r w s) (hi : (s.phase i).course? = none)
    {x : Visit × Turn} (hx : x ∈ s.turnsOf answer r w i) : x.2.exchanges <:+: s.ended := by
  have hcalls {turns : List Turn} (hturn : x.2 ∈ turns) :
      x.2.exchanges <:+: turns.flatMap (·.exchanges) :=
    List.infix_of_mem_flatten (List.mem_map_of_mem hturn)
  cases h with
  | free h =>
    rw [h.ended]
    simp only [turnsOf, List.mem_map, List.mem_filter] at hx
    obtain ⟨⟨_, t⟩, ⟨hzip, -⟩, rfl⟩ := hx
    exact hcalls (List.of_mem_zip hzip).2
  | @held before k v op ex c h =>
    have hne : i ≠ k := by
      rintro rfl
      rw [h.course, if_pos rfl] at hi
      cases hi
    rw [h.ended]
    exact (hcalls (h.mem_turns hne hx)).trans (List.prefix_append _ ex).isInfix

section OneCaller

variable (answer)

theorem step_other {a : Action ι} (ha : a.requestsAs i = false) :
    (s.step answer a).asked i = s.asked i ∧
      (s.phase i = .idle → (s.step answer a).phase i = .idle) := by
  have hwork (hrequests : a.requests = false) : (s.step answer a).asked i = s.asked i ∧
      (s.phase i = .idle → (s.step answer a).phase i = .idle) :=
    ⟨asked_work answer hrequests i, idle_work hrequests⟩
  cases a with
  | request j op =>
    have hne : i ≠ j := fun heq => of_decide_eq_false ha heq.symm
    cases hj : s.phase j with
    | idle =>
      rw [step_request answer hj, asked_request_other _ hne, enter_other s hne]
      exact ⟨rfl, id⟩
    | waiting | holding | calling => simp [step, hj]
  | acquire | beginCall | endCall | release => exact hwork rfl

end OneCaller

end Shared

/-! ### The task -/

/-- A sweeper's task, the clock, and the other callers; with a record of when sweeps began and were
over, and of when the task was cancelled and ended. -/
structure Sweeping (ι σ : Type) where
  shared : Shared ι σ
  now : Nat
  sweeper : Sweeper
  begun : List Nat := []
  finished : List Nat := []
  cancelled : Option Nat := none
  ended : Option Nat := none

namespace Sweeping

inductive Step (ι : Type) where
  | pass (duration : Nat)
  | cancel
  -- The task is about to wait for a cancellation or a tick. The tick after this one will be due at
  -- the time given.
  | poll (next : Nat)
  | work (a : Action ι)

variable {ι σ : Type}

def opened (r : Registry) (w : σ) (id start interval : Nat) : Sweeping ι σ where
  shared := { registry := r, remote := w }
  now := start
  sweeper := .start id start interval

def atHead (s : Sweeping ι σ) : Bool := s.ended.isNone && s.sweeper.sweep.isNone

def stirs (s : Sweeping ι σ) (time : Nat) : Bool :=
  s.atHead && (s.sweeper.cancelled || s.sweeper.due < time)

variable [DecidableEq ι] (answer : σ → Inquiry → Reply × σ) (me : ι)

/-- The clock stands still while the task has something to do. A cancellation counts before a tick
that is due as well. A step that cannot be taken now changes nothing. -/
def step (s : Sweeping ι σ) : Step ι → Sweeping ι σ
  | .pass duration =>
    if s.stirs (s.now + duration) then s else { s with now := s.now + duration }
  | .cancel =>
    { s with
      sweeper := { s.sweeper with cancelled := true }
      cancelled := some (s.cancelled.getD s.now) }
  | .poll next =>
    if !s.atHead then s
    else if s.sweeper.cancelled then { s with ended := some s.now }
    else if s.sweeper.due ≤ s.now then
      { s with
        shared := s.shared.step answer (.request me .sweep)
        sweeper := { s.sweeper with sweep := some s.begun.length, due := next }
        begun := s.begun ++ [s.now] }
    else s
  | .work a =>
    if a.requestsAs me then s
    else
      let shared := s.shared.step answer a
      if s.sweeper.sweep.isSome && (shared.phase me).isIdle then
        { s with
          shared
          sweeper := { s.sweeper with sweep := none }
          finished := s.finished ++ [s.now] }
      else { s with shared }

def run (s : Sweeping ι σ) (schedule : List (Step ι)) : Sweeping ι σ :=
  schedule.foldl (step answer me) s

inductive Moves (s : Sweeping ι σ) : Sweeping ι σ → Prop where
  | stay : Moves s s
  | pass (duration : Nat) (h : s.stirs (s.now + duration) = false) :
      Moves s { s with now := s.now + duration }
  | cancel : Moves s { s with
      sweeper := { s.sweeper with cancelled := true }
      cancelled := some (s.cancelled.getD s.now) }
  | finish (hhead : s.atHead = true) (hcancelled : s.sweeper.cancelled = true) :
      Moves s { s with ended := some s.now }
  | sweep (next : Nat) (hhead : s.atHead = true) (hcancelled : s.sweeper.cancelled = false)
      (hdue : s.sweeper.due ≤ s.now) : Moves s { s with
        shared := s.shared.step answer (.request me .sweep)
        sweeper := { s.sweeper with sweep := some s.begun.length, due := next }
        begun := s.begun ++ [s.now] }
  | swept {a : Action ι} (ha : a.requestsAs me = false) (hsweep : s.sweeper.sweep ≠ none)
      (hidle : (s.shared.step answer a).phase me = .idle) : Moves s { s with
        shared := s.shared.step answer a
        sweeper := { s.sweeper with sweep := none }
        finished := s.finished ++ [s.now] }
  | work {a : Action ι} (ha : a.requestsAs me = false)
      (h : s.sweeper.sweep = none ∨ (s.shared.step answer a).phase me ≠ .idle) :
      Moves s { s with shared := s.shared.step answer a }

variable {answer me} {s : Sweeping ι σ}

theorem step_moves (e : Step ι) : Moves answer me s (s.step answer me e) := by
  cases e with
  | pass duration =>
    rw [step]
    split
    · exact .stay
    · rename_i h
      exact .pass duration (Bool.eq_false_iff.mpr h)
  | cancel => exact .cancel
  | poll next =>
    rw [step]
    split
    · exact .stay
    · rename_i hhead
      have hhead : s.atHead = true := by simpa using hhead
      split
      · rename_i hcancelled
        exact .finish hhead hcancelled
      · rename_i hcancelled
        split
        · rename_i hdue
          exact .sweep next hhead (Bool.eq_false_iff.mpr hcancelled) hdue
        · exact .stay
  | work a =>
    rw [step]
    split
    · exact .stay
    · rename_i ha
      have ha : a.requestsAs me = false := Bool.eq_false_iff.mpr ha
      dsimp only
      split
      · rename_i h
        rw [Bool.and_eq_true, Phase.isIdle_iff, Option.isSome_iff_ne_none] at h
        exact .swept ha h.1 h.2
      · rename_i h
        rw [Bool.and_eq_true, Phase.isIdle_iff, Option.isSome_iff_ne_none] at h
        exact .work ha (Classical.or_iff_not_imp_left.mpr fun hne hidle => h ⟨hne, hidle⟩)

theorem step_poll_take (hhead : s.atHead = true) (hcancelled : s.sweeper.cancelled = false)
    (hdue : s.sweeper.due ≤ s.now) :
    let taken := s.sweeper.take s.now s.begun.length
    (s.step answer me (.poll taken.due)).sweeper = taken := by
  intro taken
  rw [step, if_neg (by simp [hhead]), if_neg (by simp [hcancelled]), if_pos hdue]
  rfl

theorem run_induction (P : Sweeping ι σ → Prop)
    (hmoves : ∀ s s', Moves answer me s s' → P s → P s') (h : P s) (schedule : List (Step ι)) :
    P (s.run answer me schedule) := by
  unfold run
  induction schedule generalizing s with
  | nil => exact h
  | cons e rest ih => exact ih (hmoves s _ (step_moves e) h)

/-! ### What holds throughout -/

omit [DecidableEq ι] in
theorem getElem?_snoc {times : List Nat} {k now time : Nat}
    (h : (times ++ [now])[k]? = some time) :
    times[k]? = some time ∨ k = times.length ∧ time = now := by
  rcases Nat.lt_or_ge k times.length with hk | hk
  · rw [List.getElem?_append_left hk] at h
    exact .inl h
  · rw [List.getElem?_append_right hk, List.getElem?_singleton] at h
    split at h
    · exact .inr ⟨by omega, (Option.some.inj h).symm⟩
    · cases h

def rested (s : Sweeping ι σ) (time : Nat) : Nat := max time (s.finished.getLast?.getD time)

structure Sound (answer : σ → Inquiry → Reply × σ) (me : ι) (r : Registry) (w : σ) (first : Nat)
    (s : Sweeping ι σ) : Prop where
  serial : Shared.Serial answer r w s.shared
  asked : s.shared.asked me = List.replicate s.begun.length .sweep
  idle : s.sweeper.sweep = none ↔ s.shared.phase me = .idle
  counted : s.begun.length = s.finished.length + if s.sweeper.sweep.isSome then 1 else 0
  due : s.begun = [] → s.sweeper.due = first
  early : ∀ b ∈ s.begun, first ≤ b ∧ b ≤ s.now
  past : ∀ o ∈ s.finished, o ≤ s.now
  spans : ∀ k o : Nat, s.finished[k]? = some o → ∃ b, s.begun[k]? = some b ∧ b ≤ o
  apart : ∀ k l b : Nat, k < l → s.begun[l]? = some b → ∃ o, s.finished[k]? = some o ∧ o ≤ b
  told : s.sweeper.cancelled = s.cancelled.isSome
  since : ∀ c ∈ s.cancelled, c ≤ s.now
  -- The clock has not gone on since the task came to its head, or was cancelled there.
  prompt : s.atHead = true → ∀ c ∈ s.cancelled, s.now = s.rested c
  ended : ∀ e ∈ s.ended, s.sweeper.sweep = none ∧ ∃ c ∈ s.cancelled, e = s.rested c

variable {r : Registry} {w : σ} {first : Nat} {s' : Sweeping ι σ}

theorem Sound.opened (r : Registry) (w : σ) (id start interval : Nat) :
    Sound answer me r w (start + interval) (opened r w id start interval) where
  serial := .free .initial
  asked := rfl
  idle := iff_of_true rfl rfl
  counted := rfl
  due _ := rfl
  early := List.forall_mem_nil _
  past := List.forall_mem_nil _
  spans := nofun
  apart := nofun
  told := rfl
  since := nofun
  prompt := nofun
  ended := nofun

omit [DecidableEq ι] in
theorem atHead_iff : s.atHead = true ↔ s.ended = none ∧ s.sweeper.sweep = none := by
  simp [atHead]

theorem Sound.rested_now (h : Sound answer me r w first s) : s.rested s.now = s.now := by
  unfold rested
  cases hlast : s.finished.getLast? with
  | none => exact Nat.max_self _
  | some o => exact Nat.max_eq_left (h.past o (List.mem_of_getLast? hlast))

theorem Sound.pass (h : Sound answer me r w first s) {duration : Nat}
    (hstirs : s.stirs (s.now + duration) = false) :
    Sound answer me r w first { s with now := s.now + duration } := by
  refine { h with
    early := fun b hb => ⟨(h.early b hb).1, Nat.le_add_right_of_le (h.early b hb).2⟩
    past := fun o ho => Nat.le_add_right_of_le (h.past o ho)
    since := fun c hc => Nat.le_add_right_of_le (h.since c hc)
    prompt := fun hhead c hc => ?_ }
  have hhead : s.atHead = true := hhead
  have htold := h.told
  rw [Option.mem_def.mp hc] at htold
  simp [stirs, hhead, htold] at hstirs

theorem Sound.cancel (h : Sound answer me r w first s) :
    Sound answer me r w first { s with
      sweeper := { s.sweeper with cancelled := true }
      cancelled := some (s.cancelled.getD s.now) } := by
  refine { h with
    told := rfl, since := fun c hc => ?_, prompt := fun hhead c hc => ?_, ended := fun e he => ?_ }
  · obtain rfl := Option.some.inj hc
    cases hcancelled : s.cancelled with
    | none => exact Nat.le_refl _
    | some c => exact h.since c hcancelled
  · obtain rfl := Option.some.inj hc
    cases hcancelled : s.cancelled with
    | none => exact h.rested_now.symm
    | some c => exact h.prompt hhead c hcancelled
  · obtain ⟨hsweep, c, hc, heq⟩ := h.ended e he
    refine ⟨hsweep, c, ?_, heq⟩
    rw [Option.mem_def.mp hc]
    rfl

theorem Sound.finish (h : Sound answer me r w first s) (hhead : s.atHead = true)
    (hcancelled : s.sweeper.cancelled = true) :
    Sound answer me r w first { s with ended := some s.now } := by
  obtain ⟨hended, hsweep⟩ := atHead_iff.mp hhead
  refine { h with prompt := nofun, ended := fun e he => ⟨hsweep, ?_⟩ }
  obtain rfl := Option.some.inj he
  obtain ⟨c, hc⟩ := Option.isSome_iff_exists.mp (h.told.symm.trans hcancelled)
  exact ⟨c, hc, h.prompt hhead c hc⟩

theorem Sound.sweep (h : Sound answer me r w first s) (next : Nat) (hhead : s.atHead = true)
    (hdue : s.sweeper.due ≤ s.now) :
    Sound answer me r w first { s with
      shared := s.shared.step answer (.request me .sweep)
      sweeper := { s.sweeper with sweep := some s.begun.length, due := next }
      begun := s.begun ++ [s.now] } := by
  obtain ⟨hended, hsweep⟩ := atHead_iff.mp hhead
  have hidle := h.idle.mp hsweep
  have hcounted : s.begun.length = s.finished.length := by
    have hcounted := h.counted
    rwa [hsweep] at hcounted
  have hstep := Shared.step_request answer hidle .sweep
  have hfirst : first ≤ s.now := by
    cases hbegun : s.begun with
    | nil => exact h.due hbegun ▸ hdue
    | cons b _ =>
      obtain ⟨hfirst, hnow⟩ := h.early b (hbegun ▸ List.mem_cons_self)
      exact Nat.le_trans hfirst hnow
  refine {
    serial := h.serial.next (.request me .sweep)
    asked := ?_
    idle := iff_of_false nofun ?_
    counted := ?_
    due := fun hnil => absurd hnil (by simp)
    early := List.forall_mem_append.mpr
      ⟨h.early, List.forall_mem_singleton.mpr ⟨hfirst, Nat.le_refl _⟩⟩
    past := h.past
    spans := fun k o ho => ?_
    apart := fun k l b hkl hb => ?_
    told := h.told
    since := h.since
    prompt := fun hhead' => by simp [atHead] at hhead'
    ended := fun e he => by cases hended.symm.trans he }
  · rw [hstep, Shared.asked_request_self hidle, h.asked, List.length_append,
      List.length_singleton, List.replicate_succ']
  · rw [hstep, Shared.enter_self]
    nofun
  · simp [hcounted]
  · obtain ⟨b, hb, hle⟩ := h.spans k o ho
    have hk : k < s.begun.length := (List.getElem?_eq_some_iff.mp hb).1
    exact ⟨b, (List.getElem?_append_left hk).trans hb, hle⟩
  · rcases getElem?_snoc hb with hb | ⟨rfl, rfl⟩
    · exact h.apart k l b hkl hb
    · have hk : k < s.finished.length := hcounted ▸ hkl
      exact ⟨s.finished[k], List.getElem?_eq_getElem hk, h.past _ (List.getElem_mem hk)⟩

theorem Sound.swept (h : Sound answer me r w first s) {a : Action ι}
    (ha : a.requestsAs me = false) (hsweep : s.sweeper.sweep ≠ none)
    (hidle : (s.shared.step answer a).phase me = .idle) :
    Sound answer me r w first { s with
      shared := s.shared.step answer a
      sweeper := { s.sweeper with sweep := none }
      finished := s.finished ++ [s.now] } := by
  have hsome : s.sweeper.sweep.isSome = true := Option.isSome_iff_ne_none.mpr hsweep
  refine { h with
    serial := h.serial.next a
    asked := (Shared.step_other answer ha).1.trans h.asked
    idle := iff_of_true rfl hidle
    counted := ?_
    past := List.forall_mem_append.mpr ⟨h.past, List.forall_mem_singleton.mpr (Nat.le_refl _)⟩
    spans := fun k o ho => ?_
    apart := fun k l b hkl hb => ?_
    prompt := fun _ c hc => ?_
    ended := fun e he => absurd (h.ended e he).1 hsweep }
  · simpa [hsome] using h.counted
  · rcases getElem?_snoc ho with ho | ⟨rfl, rfl⟩
    · exact h.spans k o ho
    · -- What is over now is the sweep that the last tick began.
      have hk : s.finished.length < s.begun.length := by
        have hcounted := h.counted
        rw [hsome, if_pos rfl] at hcounted
        omega
      exact ⟨_, List.getElem?_eq_getElem hk, (h.early _ (List.getElem_mem hk)).2⟩
  · obtain ⟨o, ho, hle⟩ := h.apart k l b hkl hb
    have hk : k < s.finished.length := (List.getElem?_eq_some_iff.mp ho).1
    exact ⟨o, (List.getElem?_append_left hk).trans ho, hle⟩
  · have hc := h.since c hc
    simp [rested, hc]

theorem Sound.work (h : Sound answer me r w first s) {a : Action ι}
    (ha : a.requestsAs me = false)
    (hstill : s.sweeper.sweep = none ∨ (s.shared.step answer a).phase me ≠ .idle) :
    Sound answer me r w first { s with shared := s.shared.step answer a } := by
  obtain ⟨hasked, hidle⟩ := Shared.step_other answer (s := s.shared) ha
  refine { h with
    serial := h.serial.next a
    asked := hasked.trans h.asked
    idle := ⟨fun hsweep => hidle (h.idle.mp hsweep), fun hphase => ?_⟩ }
  exact hstill.resolve_right (not_not.mpr hphase)

theorem Sound.moves (h : Sound answer me r w first s) (hmoves : Moves answer me s s') :
    Sound answer me r w first s' := by
  cases hmoves with
  | stay => exact h
  | pass duration hstirs => exact h.pass hstirs
  | cancel => exact h.cancel
  | finish hhead hcancelled => exact h.finish hhead hcancelled
  | sweep next hhead _ hdue => exact h.sweep next hhead hdue
  | swept ha hsweep hidle => exact h.swept ha hsweep hidle
  | work ha hstill => exact h.work ha hstill

theorem Sound.run (h : Sound answer me r w first s) (schedule : List (Step ι)) :
    Sound answer me r w first (s.run answer me schedule) :=
  run_induction (Sound answer me r w first) (fun _ _ hmoves h => h.moves hmoves) h schedule

theorem begun_of_cancelled (h : s.sweeper.cancelled = true) (schedule : List (Step ι)) :
    (s.run answer me schedule).begun = s.begun := by
  refine (run_induction (fun s' => s'.sweeper.cancelled = true ∧ s'.begun = s.begun) ?_ ⟨h, rfl⟩
    schedule).2
  rintro s₁ s₂ hmoves ⟨hcancelled, hbegun⟩
  cases hmoves with
  | sweep _ _ hgoesOn _ => cases hcancelled.symm.trans hgoesOn
  | cancel => exact ⟨rfl, hbegun⟩
  | stay | pass | finish | swept | work => exact ⟨hcancelled, hbegun⟩

theorem Sound.swept_all (h : Sound answer me r w first s) (hrest : s.sweeper.sweep = none) :
    s.finished.length = s.begun.length ∧
      (s.shared.turnsOf answer r w me).length = s.begun.length ∧
      ∀ x ∈ s.shared.turnsOf answer r w me,
        x.2.Sweeps x.1 ∧ x.2.exchanges <:+: s.shared.ended := by
  have hidle := h.idle.mp hrest
  -- The task waits for nothing, so it has had the lock for all that it asked for.
  have hasked : (s.shared.acquired.filter (·.1 = me)).map (·.2.2) =
      List.replicate s.begun.length .sweep := by
    have hasked := h.asked
    rw [Shared.asked, hidle] at hasked
    exact (List.append_nil _).symm.trans hasked
  refine ⟨?_, ?_, fun x hx => ?_⟩
  · have hcounted := h.counted
    rw [hrest] at hcounted
    exact hcounted.symm
  · rw [Shared.length_turnsOf, ← List.length_map (·.2.2), hasked, List.length_replicate]
  · obtain ⟨hacquired, hyields⟩ := Shared.mem_turnsOf hx
    have hop : x.2.operation ∈ List.replicate s.begun.length Operation.sweep := by
      rw [← hasked]
      exact List.mem_map.mpr ⟨_, List.mem_filter.mpr ⟨hacquired, decide_eq_true rfl⟩, rfl⟩
    exact ⟨Turn.sweeps (List.eq_of_mem_replicate hop) hyields,
      h.serial.calls_answered (congrArg Phase.course? hidle) hx⟩

/-- Whatever the callers do, whenever ticks are due and whenever the task is cancelled: no sweep
begins before one interval has passed, or before the sweep before it is over, or after a
cancellation, even one at the time of a tick. At the head of its loop the task has been through all
its sweeps, and each of them came to every source. It ends when it has been cancelled and comes to
the head of its loop, at that very time. -/
theorem run_disciplined (answer : σ → Inquiry → Reply × σ) (me : ι) (r : Registry) (w : σ)
    (id start interval : Nat) (schedule : List (Step ι)) :
    let s := (opened r w id start interval).run answer me schedule
    (∀ b ∈ s.begun, start + interval ≤ b) ∧
    (∀ k o : Nat, s.finished[k]? = some o → ∃ b, s.begun[k]? = some b ∧ b ≤ o) ∧
    (∀ k l b : Nat, k < l → s.begun[l]? = some b → ∃ o, s.finished[k]? = some o ∧ o ≤ b) ∧
    (∀ before after, schedule = before ++ .cancel :: after →
      s.begun = ((opened r w id start interval).run answer me before).begun) ∧
    (s.sweeper.sweep = none → s.finished.length = s.begun.length ∧
      (s.shared.turnsOf answer r w me).length = s.begun.length ∧
      ∀ x ∈ s.shared.turnsOf answer r w me,
        x.2.Sweeps x.1 ∧ x.2.exchanges <:+: s.shared.ended) ∧
    (∀ e, s.ended = some e →
      s.sweeper.sweep = none ∧ ∃ c, s.cancelled = some c ∧ e = s.rested c) ∧
    (s.cancelled.isSome → s.atHead = true →
      (∀ next, (s.step answer me (.poll next)).ended = some s.now) ∧
      ∀ duration, s.step answer me (.pass duration) = s) := by
  intro s
  have hsound : Sound answer me r w (start + interval) s :=
    (Sound.opened r w id start interval).run schedule
  refine ⟨fun b hb => (hsound.early b hb).1, hsound.spans, hsound.apart, ?_, hsound.swept_all,
    hsound.ended, fun hcancelled hhead => ?_⟩
  · rintro before after rfl
    have hsplit : s = ((opened r w id start interval).run answer me before |>.step answer me
        .cancel).run answer me after := List.foldl_append ..
    rw [hsplit, begun_of_cancelled rfl]
    rfl
  · have hflag : s.sweeper.cancelled = true := hsound.told.trans hcancelled
    exact ⟨fun next => by simp [step, hhead, hflag], fun d => by simp [step, stirs, hhead, hflag]⟩

namespace Overdue

def remote (n : Nat) (_ : Inquiry) : Reply × Nat := (some (.ok none), n + 1)

def stocked : Registry :=
  { Registry.new {} .zero with
    batches := Roster.empty.insert "a" ((Batch.fresh ⟨"g", "s"⟩ none {}).append ⟨0, "x"⟩) }

def spawned : Sweeping Bool Nat := opened stocked 0 7 5 10

def sweeps : List (Step Bool) :=
  [.pass 10, .poll 25, .work (.acquire true .byName), .work (.beginCall true), .pass 25,
    .work (.endCall true), .work (.release true), .poll 50, .work (.acquire true .byName),
    .pass 10, .work (.release true)]

def final : Sweeping Bool Nat := spawned.run remote true (sweeps ++ .cancel :: [.poll 60])

end Overdue

open Overdue

theorem run_disciplined_overdue :
    final.begun = [15, 40] ∧ final.finished = [40, 50] ∧ final.sweeper.due = 50 ∧
      (∃ c, final.cancelled = some c ∧ 50 = final.rested c) ∧
      final.begun = (spawned.run remote true sweeps).begun ∧
      (final.shared.turnsOf remote stocked 0 true).length = 2 ∧
      ∀ x ∈ final.shared.turnsOf remote stocked 0 true, x.2.Sweeps x.1 := by
  obtain ⟨-, -, -, hcancel, hall, hended, -⟩ :=
    run_disciplined remote true stocked 0 7 5 10 (sweeps ++ .cancel :: [.poll 60])
  have hend : final.ended = some 50 := by decide +kernel
  obtain ⟨hrest, hcancelled⟩ := hended 50 hend
  obtain ⟨-, hturns, hswept⟩ := hall hrest
  have hbegun : final.begun = [15, 40] := by decide +kernel
  exact ⟨hbegun, by decide +kernel, by decide +kernel, hcancelled,
    hcancel sweeps [.poll 60] rfl, hturns.trans (congrArg List.length hbegun),
    fun x hx => (hswept x hx).1⟩

end Sweeping
end LogRelay
