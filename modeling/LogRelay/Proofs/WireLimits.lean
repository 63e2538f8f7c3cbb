import LogRelay.Proofs.LifetimeInvariant

/-! The limits of the wire. A batch keeps a running total of its bytes, and appending looks at no
limit; that the limits hold rests on the registry, which asks whether there is room each time. The
total is a machine word: it is what the events are charged as long as no sum on the way wraps. -/

namespace LogRelay

namespace Limits

/-- What the remote charges for a list of events, counted afresh. -/
def charge (l : Limits) : List LogEvent → Nat
  | [] => 0
  | e :: rest => e.message.utf8ByteSize + l.eventOverhead + l.charge rest

def Admits (l : Limits) (es : List LogEvent) : Prop :=
  es.length ≤ l.maxEvents ∧ l.charge es ≤ l.maxBytes

def Takes (l : Limits) (es : List LogEvent) : Prop :=
  es.length ≤ l.maxEvents ∧ Word.wrap (l.charge es) ≤ l.maxBytes

/-- As long as events that follow one another are within the limits, adding the next one makes no
sum that wraps. -/
def AddsUp (l : Limits) (es : List LogEvent) : Prop :=
  ∀ front e, front ++ [e] <:+: es → l.Admits front → l.charge (front ++ [e]) < Word.bound

variable {l : Limits} {es es' : List LogEvent} {e : LogEvent}

theorem charge_append (l : Limits) (es es' : List LogEvent) :
    l.charge (es ++ es') = l.charge es + l.charge es' := by
  induction es with
  | nil => simp [charge]
  | cons e rest ih =>
    rw [List.cons_append, charge, charge, ih]
    omega

theorem charge_snoc (l : Limits) (es : List LogEvent) (e : LogEvent) :
    l.charge (es ++ [e]) = l.charge es + (e.message.utf8ByteSize + l.eventOverhead) :=
  l.charge_append es [e]

theorem wrap_charge_snoc (l : Limits) (es : List LogEvent) (e : LogEvent) :
    Word.wrap (l.charge (es ++ [e])) = Word.add (Word.wrap (l.charge es)) (l.wireSize e) := by
  rw [charge_snoc, ← Word.wrap_add_wrap]
  rfl

theorem Admits.part {before after : List LogEvent} (h : l.Admits (before ++ es ++ after)) :
    l.Admits es := by
  obtain ⟨hcount, hbytes⟩ := h
  simp only [List.length_append, charge_append] at hcount hbytes
  constructor <;> omega

theorem admits_nil (l : Limits) : l.Admits [] := ⟨Nat.zero_le _, Nat.zero_le _⟩

theorem Admits.takes (h : l.Admits es) : l.Takes es :=
  ⟨h.1, Nat.le_trans (Word.wrap_le _) h.2⟩

theorem takes_iff (h : l.charge es < Word.bound) : l.Takes es ↔ l.Admits es := by
  rw [Takes, Word.wrap_of_lt h, Admits]

theorem addsUp_of_bounded
    (h : ∀ e ∈ es, l.maxBytes + (e.message.utf8ByteSize + l.eventOverhead) < Word.bound) :
    l.AddsUp es := by
  intro front e hpart hfront
  have he : e ∈ es := hpart.subset (List.mem_append_right front (List.mem_singleton_self e))
  rw [charge_snoc]
  exact Nat.lt_of_le_of_lt (Nat.add_le_add_right hfront.2 _) (h e he)

theorem AddsUp.part (h : l.AddsUp es) (hpart : es' <:+: es) : l.AddsUp es' :=
  fun front e hfront => h front e (hfront.trans hpart)

theorem AddsUp.of_snoc (h : l.AddsUp (es ++ [e])) : l.AddsUp es :=
  h.part (List.prefix_append es [e]).isInfix

theorem AddsUp.charge_lt (h : l.AddsUp (es ++ [e])) (hes : l.Admits es) :
    l.charge (es ++ [e]) < Word.bound :=
  h es e (List.infix_refl _) hes

theorem AddsUp.wireSize_eq (h : l.AddsUp [e]) :
    l.wireSize e = e.message.utf8ByteSize + l.eventOverhead := by
  have hsum : l.charge ([] ++ [e]) < Word.bound := AddsUp.charge_lt h l.admits_nil
  exact Word.add_of_lt hsum

theorem Admits.charge_lt (h : l.Admits es) (hsums : l.AddsUp es) : l.charge es < Word.bound := by
  rcases es.eq_nil_or_concat with rfl | ⟨front, e, rfl⟩
  · have hbound : 0 < Word.bound := by decide
    exact hbound
  · rw [List.concat_eq_append] at h hsums ⊢
    have hfront : l.Admits ([] ++ front ++ [e]) := h
    exact hsums.charge_lt hfront.part

end Limits

namespace Batch

structure Sound (limits : Limits) (b : Batch) : Prop where
  limits_eq : b.limits = limits
  bytes_eq : b.bytes = Word.wrap (limits.charge b.events)
  taken : limits.Takes b.events
  admitted : limits.AddsUp b.events → limits.Admits b.events

variable {limits : Limits} {b : Batch}

theorem sound_fresh (limits : Limits) (d : Destination) (token : Option Token) :
    Sound limits (.fresh d token limits) :=
  ⟨rfl, rfl, limits.admits_nil.takes, fun _ => limits.admits_nil⟩

theorem Sound.bytes_le (h : b.Sound limits) : b.bytes ≤ limits.maxBytes := by
  rw [h.bytes_eq]
  exact h.taken.2

theorem Sound.settle (h : b.Sound limits) (a : Answer) : (b.settle a).1.Sound limits := by
  have hlimits : (b.settle a).1.limits = limits := (b.settle_limits a).trans h.limits_eq
  cases ha : a.closes with
  | true =>
    have hbatch : (b.settle a).1 = b.successor (a.next b.token) := by simp [settle_fst, ha]
    rw [hbatch, successor, h.limits_eq]
    exact sound_fresh limits b.destination (a.next b.token)
  | false =>
    have hevents : (b.settle a).1.events = b.events := by simp [settle_events, ha]
    have hbytes : (b.settle a).1.bytes = b.bytes := by simp [settle_bytes, ha]
    refine ⟨hlimits, ?_, ?_, ?_⟩
    · rw [hevents, hbytes, h.bytes_eq]
    · rw [hevents]
      exact h.taken
    · rw [hevents]
      exact h.admitted

theorem Sound.accepts_iff (h : b.Sound limits) (e : LogEvent) :
    b.accepts e = true ↔ limits.Takes (b.events ++ [e]) := by
  simp only [accepts, size, h.limits_eq, h.bytes_eq, Limits.Takes, Limits.wrap_charge_snoc,
    List.length_append, List.length_singleton, Bool.and_eq_true, decide_eq_true_eq,
    Nat.succ_le_iff]

theorem Sound.accepts_iff_admits (h : b.Sound limits) {e : LogEvent}
    (hsums : limits.AddsUp (b.events ++ [e])) :
    b.accepts e = true ↔ limits.Admits (b.events ++ [e]) := by
  have hevents : limits.Admits b.events := h.admitted hsums.of_snoc
  exact (h.accepts_iff e).trans (Limits.takes_iff (hsums.charge_lt hevents))

theorem Sound.append (h : b.Sound limits) {e : LogEvent} (hroom : b.accepts e = true) :
    (b.append e).Sound limits := by
  -- The timestamp may be raised on the way in, which costs nothing.
  have hsize : (b.inOrder e).message.utf8ByteSize = e.message.utf8ByteSize := by simp
  have hcharge : limits.charge (b.append e).events = limits.charge (b.events ++ [e]) := by
    rw [Limits.charge_snoc, ← hsize, ← Limits.charge_snoc]
    rfl
  have hlength : (b.append e).events.length = (b.events ++ [e]).length := by simp [Batch.append]
  have htakes : limits.Takes (b.append e).events := by
    rw [Limits.Takes, hcharge, hlength]
    exact (h.accepts_iff e).mp hroom
  refine ⟨h.limits_eq, ?_, htakes, fun hsums => ?_⟩
  · rw [hcharge, Limits.wrap_charge_snoc, ← h.bytes_eq, ← h.limits_eq]
    rfl
  · have hevents : limits.Admits b.events := h.admitted hsums.of_snoc
    exact (Limits.takes_iff (hsums.charge_lt hevents)).mp htakes

end Batch

-- A submission that the remote can take: of something, and within the limits.
def Submission.Fits (limits : Limits) (x : Submission) : Prop :=
  x.events ≠ [] ∧ limits.Takes x.events ∧ (limits.AddsUp x.events → limits.Admits x.events)

end LogRelay
