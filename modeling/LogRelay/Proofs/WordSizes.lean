import LogRelay.Proofs.Admission
import LogRelay.Proofs.LineLimit
import LogRelay.Proofs.UnsetVariables
import LogRelay.Shipping

/-! Sizes that stay within machine words. Here a sum or product that does not fit in a word is a
fault. With the limits of a configuration that meets its conditions there are no faults, so nothing
wraps. -/

namespace LogRelay

namespace Word

def add? (a b : Nat) : Option Nat := if a + b < bound then some (a + b) else none

def mul? (a b : Nat) : Option Nat := if a * b < bound then some (a * b) else none

theorem add?_eq {a b : Nat} (h : a + b < bound) : add? a b = some (a + b) := if_pos h

theorem add?_eq_add {a b : Nat} (h : a + b < bound) : add? a b = some (add a b) := by
  rw [add?_eq h, add_of_lt h]

theorem mul?_eq_mul {a b : Nat} (h : a * b < bound) : mul? a b = some (mul a b) := by
  rw [mul_of_lt h]
  exact if_pos h

def half : Nat := 0x8000000000000000

theorem half_add_lt : half + Config.mostBytes + Config.mostBytes < bound := by
  unfold half Config.mostBytes bound
  omega

end Word

open Word (add? mul? add?_eq add?_eq_add mul?_eq_mul)

/-! ### Limits -/

namespace Limits

def wireSize? (l : Limits) (e : LogEvent) : Option Nat :=
  add? e.message.utf8ByteSize l.eventOverhead

def oversized? (l : Limits) (e : LogEvent) : Option Bool := do
  let size ← l.wireSize? e
  return l.maxBytes < size

def maxLine? (l : Limits) : Option Nat := do
  let escaped ← mul? l.maxBytes 6
  add? escaped lineEnvelope

/-- What a configuration may set: some room for a message, and no more than a megabyte of it. -/
structure Valid (l : Limits) : Prop where
  overhead_lt : l.eventOverhead < l.maxBytes
  bytes_le : l.maxBytes ≤ Config.mostBytes

end Limits

theorem Config.valid_of_problems {c : Config} (h : c.problems = []) : c.batching.limits.Valid := by
  simp only [problems, batchingProblems, List.append_eq_nil_iff] at h
  obtain ⟨⟨⟨-, ⟨⟨-, hoverhead⟩, hbytes⟩, -⟩, -⟩, -⟩ := h
  exact ⟨of_decide_eq_true (demand_eq_nil.mp hoverhead),
    of_decide_eq_true (demand_eq_nil.mp hbytes)⟩

theorem Config.problems_of_parse {env : Environment} {text : String} {c : Config}
    (h : parse env text = .ok c) : c.problems = [] := by
  cases hnames : Reference.sortedNames (Reference.expand env text) with
  | cons n ns =>
    rw [parse_of_names hnames] at h
    cases h
  | nil =>
    rw [parse_of_no_names hnames] at h
    unfold readExpanded at h
    split at h
    · cases h
    · unfold validate at h
      split at h
      · rename_i hempty
        cases h
        exact List.isEmpty_iff.mp hempty
      · cases h

section Sizes

variable {l : Limits} (hl : l.Valid)
include hl

theorem Limits.maxLine?_eq : l.maxLine? = some l.maxLine := by
  have hbytes : l.maxBytes ≤ 1048576 := hl.bytes_le
  have hescaped : l.maxBytes * 6 < Word.bound := by
    unfold Word.bound
    omega
  have hline : l.maxBytes * 6 + lineEnvelope < Word.bound := by
    unfold Word.bound lineEnvelope
    omega
  rw [← Word.mul_of_lt hescaped] at hline
  rw [maxLine?, mul?_eq_mul hescaped, Option.bind_eq_bind, Option.bind_some, add?_eq_add hline,
    maxLine]

theorem Limits.oversized_empty (timestamp : Int) : l.oversized ⟨timestamp, ""⟩ = false := by
  have hoverhead : l.eventOverhead < Word.bound := by
    have hlt := hl.overhead_lt
    have hbytes := hl.bytes_le
    have hbound := Word.half_add_lt
    omega
  have hsize : l.wireSize ⟨timestamp, ""⟩ = l.eventOverhead := Word.zero_add hoverhead
  rw [oversized, hsize]
  exact decide_eq_false (Nat.not_lt_of_gt hl.overhead_lt)

variable {e : LogEvent} (he : e.message.utf8ByteSize < Word.half)
include he

theorem Limits.total_lt : l.maxBytes + (e.message.utf8ByteSize + l.eventOverhead) < Word.bound := by
  have hoverhead := hl.overhead_lt
  have hbytes := hl.bytes_le
  have hbound := Word.half_add_lt
  omega

theorem Limits.wireSize?_eq : l.wireSize? e = some (l.wireSize e) :=
  add?_eq_add (Nat.lt_of_le_of_lt (Nat.le_add_left _ _) (total_lt hl he))

theorem Limits.oversized?_eq : l.oversized? e = some (l.oversized e) := by
  rw [oversized?, wireSize?_eq hl he]
  rfl

-- With valid limits the laws that ask for sums which do not wrap hold as they stand.
omit he in
theorem Limits.Valid.addsUp {es : List LogEvent}
    (hes : ∀ e ∈ es, e.message.utf8ByteSize < Word.half) : l.AddsUp es :=
  addsUp_of_bounded fun e he => total_lt hl (hes e he)

end Sizes

/-! ### Batches -/

namespace Batch

-- The bytes are added up only if the count leaves room.
def accepts? (b : Batch) (e : LogEvent) : Option Bool :=
  if b.size < b.limits.maxEvents then do
    let size ← b.limits.wireSize? e
    let total ← add? b.bytes size
    return total ≤ b.limits.maxBytes
  else some false

-- Appending may only be asked for where there is room.
def append? (b : Batch) (e : LogEvent) : Option Batch := do
  guard (← b.accepts? e)
  let size ← b.limits.wireSize? e
  let bytes ← add? b.bytes size
  return { b with events := b.events ++ [b.inOrder e], bytes }

variable {l : Limits} (hl : l.Valid) {b : Batch} (hb : b.Sound l) {e : LogEvent}
  (he : e.message.utf8ByteSize < Word.half)
include hl hb he

theorem Sound.add?_eq : add? b.bytes (l.wireSize e) = some (Word.add b.bytes (l.wireSize e)) := by
  have hsize : l.wireSize e ≤ e.message.utf8ByteSize + l.eventOverhead := Word.add_le _ _
  exact add?_eq_add (Nat.lt_of_le_of_lt (Nat.add_le_add hb.bytes_le hsize) (Limits.total_lt hl he))

theorem Sound.accepts?_eq : b.accepts? e = some (b.accepts e) := by
  have hsize := Limits.wireSize?_eq hl he
  have htotal := hb.add?_eq hl he
  simp only [accepts?, accepts, hb.limits_eq, hsize]
  by_cases hcount : b.size < l.maxEvents
  · simp [hcount, htotal]
  · simp [hcount]

theorem Sound.append?_eq (hroom : b.accepts e = true) : b.append? e = some (b.append e) := by
  have haccepts := hb.accepts?_eq hl he
  have hsize := Limits.wireSize?_eq hl he
  have htotal := hb.add?_eq hl he
  rw [hroom] at haccepts
  rw [← hb.limits_eq] at hsize htotal
  simp only [append?, haccepts, hsize, htotal, Option.bind_eq_bind, Option.bind_some, guard,
    if_true]
  rfl

end Batch

/-! ### Events -/

namespace Registry

def room? (r : Registry) (b : Batch) (e : LogEvent) : Option Bool := do
  let size ← r.limits.wireSize? e
  if size ≤ r.limits.maxBytes then b.accepts? e else none

def admit? (r : Registry) (id : SourceId) (b : Batch) (e : LogEvent) (taken : EventOutcome)
    (full : Dialogue Inquiry Reply (Option (Registry × EventOutcome))) :
    Dialogue Inquiry Reply (Option (Registry × EventOutcome)) :=
  match r.room? b e with
  | none => .done none
  | some true => .done ((b.append? e).map fun b => ((r.put id b).count (·.accepted), taken))
  | some false => full

def handle? (r : Registry) (id : SourceId) (e : LogEvent) :
    Dialogue Inquiry Reply (Option (Registry × EventOutcome)) :=
  match r.batches.find? id with
  | none => .done (some (r.count (·.dropped), .dropped .unknownSource))
  | some b =>
    match r.limits.oversized? e with
    | none => .done none
    | some true => .done (some (r.count (·.oversized), .dropped .oversized))
    | some false => r.admit? id b e .appended
        ((r.submit id b).bind fun (r, b, stored) =>
          r.admit? id b e (if stored.isOk then .flushedAndAppended else .appended)
            (.done (some ((r.put id b).count (·.dropped), .dropped .flushFailed))))

variable {r : Registry} {id : SourceId} {e : LogEvent}

theorem room?_eq {b : Batch} (hl : r.limits.Valid) (hb : b.Sound r.limits)
    (he : e.message.utf8ByteSize < Word.half) (hsize : r.limits.oversized e = false) :
    r.room? b e = some (b.accepts e) := by
  have hfits : r.limits.wireSize e ≤ r.limits.maxBytes :=
    Nat.le_of_not_lt (of_decide_eq_false hsize)
  rw [room?, Limits.wireSize?_eq hl he, Option.bind_eq_bind, Option.bind_some, if_pos hfits]
  exact hb.accepts?_eq hl he

theorem admit?_eq {b : Batch} (hl : r.limits.Valid) (hb : b.Sound r.limits)
    (he : e.message.utf8ByteSize < Word.half) (hsize : r.limits.oversized e = false)
    (taken : EventOutcome) (full : Dialogue Inquiry Reply (Option (Registry × EventOutcome))) :
    r.admit? id b e taken full =
      if b.accepts e then .done (some ((r.put id (b.append e)).count (·.accepted), taken))
      else full := by
  rw [admit?, room?_eq hl hb he hsize]
  cases hroom : b.accepts e with
  | true =>
    rw [hb.append?_eq hl he hroom]
    rfl
  | false => rfl

theorem handle?_eq (hl : r.limits.Valid) (hsound : ∀ b ∈ r.batches.find? id, b.Sound r.limits)
    (he : e.message.utf8ByteSize < Word.half) :
    r.handle? id e = (r.handle id e).bind fun out => .done (some out) := by
  unfold handle? handle
  cases hfound : r.batches.find? id with
  | none => rfl
  | some b =>
    have hb : b.Sound r.limits := hsound b hfound
    rw [Limits.oversized?_eq hl he]
    dsimp only
    cases hsize : r.limits.oversized e with
    | true => rfl
    | false =>
      rw [admit?_eq hl hb he hsize]
      dsimp only
      cases hroom : b.accepts e with
      | true => rfl
      | false =>
        -- Whatever the answer leaves of the batch is sound, so the second look is like the first.
        by_cases hempty : b.events = []
        · rw [submit_empty r id hempty]
          simp only [Dialogue.bind, admit?_eq hl hb he hsize, hroom]
          rfl
        · rw [submit_pending r id hempty]
          simp only [Dialogue.bind, Bool.false_eq_true, if_false, Dialogue.ask.injEq, true_and]
          funext reply
          have hsettled := hb.settle (r.heed reply)
          rw [admit?_eq (r := r.count (·.submitted b.size (r.heed reply))) hl hsettled he hsize]
          split <;> rfl

end Registry

/-! ### Lines -/

namespace Framer

-- The lengths are added up for a line over the limit, and before for one that may be.
def absorb? (limit : Nat) (f : Framer) (piece : Bytes) : Option Framer := do
  let fits ← if f.discarded = 0 then do
      let size ← add? f.kept.size piece.length
      pure (decide (size ≤ limit))
    else pure false
  if fits then return { f with kept := f.kept ++ piece }
  let size ← add? f.kept.size piece.length
  let discarded ← add? f.discarded size
  return ⟨#[], discarded⟩

def feedFrom? (limit : Nat) :
    Nat → List RawLine → Framer → Bytes → Option (List RawLine × Framer)
  | 0, acc, f, _ => some (acc, f)
  | fuel + 1, acc, f, bytes => do
    let piece := bytes.takeWhile (· != lineFeed)
    let f ← f.absorb? limit piece
    match bytes.dropWhile (· != lineFeed) with
    | [] => return (acc, f)
    | _ :: bytes =>
      let _ ← add? piece.length 1
      feedFrom? limit fuel (f.close :: acc) {} bytes

def feed? (limit : Nat) (f : Framer) (bytes : Bytes) : Option (List RawLine × Framer) := do
  let (lines, f) ← feedFrom? limit (bytes.length + 1) [] f bytes
  return (lines.reverse, f)

end Framer

def RawLine.ofReads? (limit : Nat) (f : Framer) (ending : Ending) :
    List Bytes → Option (List RawLine)
  | [] => match ending with
    | .endOfInput => some f.rest
    | .failure => some []
  | bytes :: reads => do
    let (lines, f) ← f.feed? limit bytes
    let later ← ofReads? limit f ending reads
    return lines ++ later

open Framer (lineFeed)

def ShortLines (text : Bytes) : Prop := ∀ line ∈ linesOf .endOfInput text, line.length < Word.half

section ShortLines

variable {line text more : Bytes}

theorem ShortLines.rest (h : ShortLines (text ++ more)) : ShortLines (openLine text ++ more) := by
  unfold ShortLines at h ⊢
  rw [linesOf_append] at h
  exact (List.forall_mem_append.mp h).2

theorem ShortLines.next (hline : lineFeed ∉ line) (h : ShortLines (line ++ lineFeed :: more)) :
    line.length < Word.half ∧ ShortLines more := by
  have hlines : linesOf .endOfInput (line ++ lineFeed :: more) =
      line :: linesOf .endOfInput more := by
    unfold linesOf
    rw [completeLines_line hline, openLine_line hline, List.cons_append]
  unfold ShortLines at h
  rw [hlines] at h
  exact List.forall_mem_cons.mp h

theorem ShortLines.progress (hline : lineFeed ∉ line) (h : ShortLines (line ++ more)) :
    line.length < Word.half := by
  by_cases hmore : lineFeed ∈ more
  · obtain ⟨piece, rest, rfl, hpiece⟩ := List.eq_append_cons_of_mem hmore
    rw [← List.append_assoc] at h
    have hwhole := (ShortLines.next (by simp [hline, hpiece]) h).1
    rw [List.length_append] at hwhole
    omega
  · have hopen : lineFeed ∉ line ++ more := by simp [hline, hmore]
    by_cases hnil : line ++ more = []
    · rw [(List.append_eq_nil_iff.mp hnil).1]
      decide
    · have hlines : linesOf .endOfInput (line ++ more) = [line ++ more] := by
        unfold linesOf
        simp only [completeLines_open hopen, openLine_open hopen, List.nil_append, if_neg hnil]
      have hwhole := h (line ++ more) (hlines ▸ List.mem_singleton_self _)
      rw [List.length_append] at hwhole
      omega

end ShortLines

namespace Framer

variable {limit : Nat} {line piece bytes more : Bytes}

theorem absorb?_of (h : (line ++ piece).length < Word.half) :
    (of limit line).absorb? limit piece = some ((of limit line).absorb limit piece) := by
  have hbound := Word.half_add_lt
  rw [List.length_append] at h
  unfold of absorb? absorb
  by_cases hline : line.length ≤ limit
  · have hsum : add? line.length piece.length = some (line.length + piece.length) :=
      add?_eq (by omega)
    by_cases hfits : line.length + piece.length ≤ limit
    · simp [hline, hsum, hfits]
    · have htotal : add? 0 (line.length + piece.length) = some (line.length + piece.length) := by
        rw [add?_eq (by omega), Nat.zero_add]
      simp [hline, hsum, hfits, htotal]
  · have hpos : line.length ≠ 0 := by omega
    have hpiece : add? 0 piece.length = some piece.length := by
      rw [add?_eq (by omega), Nat.zero_add]
    have htotal : add? line.length piece.length = some (line.length + piece.length) :=
      add?_eq (by omega)
    simp [hline, hpos, hpiece, htotal]

theorem feedFrom?_open (h : lineFeed ∉ piece) (fuel : Nat) (acc : List RawLine) (f : Framer) :
    feedFrom? limit (fuel + 1) acc f piece = (do
      let f ← f.absorb? limit piece
      return (acc, f)) := by
  rw [feedFrom?]
  simp only [takeWhile_open h, dropWhile_open h]

theorem feedFrom?_line (h : lineFeed ∉ piece) (fuel : Nat) (acc : List RawLine) (f : Framer)
    (rest : Bytes) : feedFrom? limit (fuel + 1) acc f (piece ++ lineFeed :: rest) = (do
      let f ← f.absorb? limit piece
      let _ ← add? piece.length 1
      feedFrom? limit fuel (f.close :: acc) {} rest) := by
  rw [feedFrom?]
  simp only [takeWhile_line h, dropWhile_line h]

theorem feedFrom?_of (h : lineFeed ∉ line) (hshort : ShortLines (line ++ bytes ++ more))
    {fuel : Nat} (hfuel : bytes.length < fuel) (acc : List RawLine) :
    feedFrom? limit fuel acc (of limit line) bytes =
      some (feedFrom limit fuel acc (of limit line) bytes) := by
  obtain ⟨fuel, rfl⟩ : ∃ n, fuel = n + 1 := ⟨fuel - 1, by omega⟩
  induction bytes using text_induction generalizing line fuel acc with
  | progress piece hpiece =>
    have hlength := hshort.progress (by simp [h, hpiece])
    rw [feedFrom?_open hpiece, absorb?_of hlength, feedFrom_open hpiece]
    rfl
  | next piece rest hpiece ih =>
    have hline : lineFeed ∉ line ++ piece := by simp [h, hpiece]
    have htext : line ++ (piece ++ lineFeed :: rest) ++ more =
        (line ++ piece) ++ lineFeed :: (rest ++ more) := by simp
    rw [htext] at hshort
    obtain ⟨hlength, hrest⟩ := hshort.next hline
    have hcounted : add? piece.length 1 = some (piece.length + 1) := by
      have hbound := Word.half_add_lt
      rw [List.length_append] at hlength
      apply add?_eq
      unfold Config.mostBytes at hbound
      omega
    obtain ⟨fuel, rfl⟩ : ∃ n, fuel = n + 1 := by
      simp only [List.length_append, List.length_cons] at hfuel
      exact ⟨fuel - 1, by omega⟩
    have hlater : feedFrom? limit (fuel + 1) (((of limit line).absorb limit piece).close :: acc)
        (of limit []) rest = some (feedFrom limit (fuel + 1)
          (((of limit line).absorb limit piece).close :: acc) (of limit []) rest) := by
      apply ih List.not_mem_nil hrest
      simp only [List.length_append, List.length_cons] at hfuel
      omega
    rw [of_nil] at hlater
    rw [feedFrom?_line hpiece, absorb?_of hlength, feedFrom_line hpiece]
    simp only [Option.bind_eq_bind, Option.bind_some, hcounted, hlater]

theorem feed?_of (h : lineFeed ∉ line) (hshort : ShortLines (line ++ bytes ++ more)) :
    (of limit line).feed? limit bytes = some ((of limit line).feed limit bytes) := by
  rw [feed?, feedFrom?_of h hshort (Nat.lt_succ_self bytes.length) []]
  rfl

end Framer

theorem RawLine.ofReads?_of (limit : Nat) (ending : Ending) {line : Bytes} (h : lineFeed ∉ line)
    {reads : List Bytes} (hshort : ShortLines (line ++ reads.flatten)) :
    ofReads? limit (.of limit line) ending reads =
      some (ofReads limit (.of limit line) ending reads) := by
  induction reads generalizing line with
  | nil => cases ending <;> rfl
  | cons bytes reads ih =>
    rw [List.flatten_cons, ← List.append_assoc] at hshort
    have hlater := ih (lineFeed_not_mem_openLine (line ++ bytes)) hshort.rest
    rw [ofReads?, ofReads, Framer.feed?_of h hshort, Framer.feed_of h]
    simp only [Option.bind_eq_bind, Option.bind_some, hlater]
    rfl

/-- With a configuration that parsing accepts, in any state that the registry can come to: no sum
or product of sizes leaves the words, so events are handled and lines are cut by words as they are
by numbers; a batch is asked for room only if the event is within the limit on bytes, and appended
to only where there is room; and a message without text is never too large. -/
theorem sizes_within_words {env : Environment} {text : String} {c : Config}
    (hparse : Config.parse env text = .ok c) {σ : Type} (answer : σ → Inquiry → Reply × σ)
    (ops : List (Visit × Operation)) (s : σ) :
    let l := c.batching.limits
    let r := ((Shipping.registry c).history answer ops s).registry
    l.maxLine? = some l.maxLine ∧
    (∀ timestamp, l.oversized ⟨timestamp, ""⟩ = false) ∧
    (∀ id e, e.message.utf8ByteSize < Word.half →
      l.wireSize? e = some (l.wireSize e) ∧ l.oversized? e = some (l.oversized e) ∧
      (∀ b ∈ r.batches.find? id, b.accepts? e = some (b.accepts e) ∧
        (b.accepts e = true → b.append? e = some (b.append e))) ∧
      r.handle? id e = (r.handle id e).bind fun out => .done (some out)) ∧
    ∀ limit ending reads, ShortLines reads.flatten →
      RawLine.ofReads? limit {} ending reads = some (RawLine.ofReads limit {} ending reads) := by
  intro l r
  have hl : l.Valid := Config.valid_of_problems (Config.problems_of_parse hparse)
  obtain ⟨hlimits, hsound⟩ := Registry.history_sound l c.remote.callTimeout answer ops s
  have hlimits : r.limits = l := hlimits
  refine ⟨Limits.maxLine?_eq hl, Limits.oversized_empty hl, fun id e he => ?_,
    fun limit ending reads hshort => ?_⟩
  · refine ⟨Limits.wireSize?_eq hl he, Limits.oversized?_eq hl he, fun b hb => ?_, ?_⟩
    · have hb : b.Sound l := hsound id b hb
      exact ⟨hb.accepts?_eq hl he, hb.append?_eq hl he⟩
    · exact Registry.handle?_eq (hlimits ▸ hl) (hlimits ▸ hsound id) he
  · have hreads := RawLine.ofReads?_of limit ending List.not_mem_nil hshort
    rwa [Framer.of_nil] at hreads

theorem sizes_within_words_defaults :
    let c : Config := { remote := { endpoint := "http://h" } }
    let ops : List (Visit × Operation) := [(.byName, .start "a" ⟨"g", "s"⟩)]
    let run := (Shipping.registry c).history (fun (s : Unit) _ => (none, s)) ops ()
    let e : LogEvent := ⟨0, "x"⟩
    let reads : List Bytes := [[0x61, 0x0A], [0x62]]
    Config.parse (fun _ => none) "remote:\n  endpoint: http://h\n" = .ok c ∧
    e.message.utf8ByteSize < Word.half ∧ ShortLines reads.flatten ∧
    run.registry.handle? "a" e = (run.registry.handle "a" e).bind (fun out => .done (some out)) ∧
    RawLine.ofReads? c.batching.limits.maxLine {} .endOfInput reads =
      some [.whole [0x61], .whole [0x62]] := by
  intro c ops run e reads
  have hparse : Config.parse (fun _ => none) "remote:\n  endpoint: http://h\n" = .ok c := by
    decide +kernel
  have he : e.message.utf8ByteSize < Word.half := by decide +kernel
  have hshort : ShortLines reads.flatten := by
    unfold ShortLines
    decide +kernel
  have hcut : RawLine.ofReads c.batching.limits.maxLine {} .endOfInput reads =
      [.whole [0x61], .whole [0x62]] := by decide +kernel
  obtain ⟨-, -, hevents, hlines⟩ :=
    sizes_within_words hparse (fun (s : Unit) _ => (none, s)) ops ()
  refine ⟨hparse, he, hshort, (hevents "a" e he).2.2.2, ?_⟩
  rw [hlines _ .endOfInput reads hshort, hcut]

end LogRelay
