import LogRelay.Host.LineInput
import LogRelay.Proofs.LineFraming

/-! Lines taken from a stream one at a time. The state of a line in progress is that of the bytes
taken since its beginning, whatever the reads are, so its size is bounded and its length is not
lost; and a call takes one line and its line feed, no more. -/

namespace LogRelay

open Framer (lineFeed)

structure Framer.Accounts (limit : Nat) (line : Bytes) (f : Framer) : Prop where
  bounded : f.kept.size ≤ limit
  apart : f.discarded = 0 ∨ f.kept = #[]
  counted : f.discarded + f.kept.size = line.length

theorem Framer.accounts_of (limit : Nat) (line : Bytes) : (of limit line).Accounts limit line := by
  unfold of
  split
  · rename_i hfits
    exact ⟨hfits, .inl rfl, by simp⟩
  · exact ⟨Nat.zero_le limit, .inr rfl, by simp⟩

theorem Framer.last_of (limit : Nat) (line : Bytes) (ending : Ending) :
    (of limit line).last ending = match ending with
      | .endOfInput => if line = [] then .error .endOfInput else .ok (.of limit line)
      | .failure => .error .failure := by
  cases ending with
  | endOfInput =>
    rw [Framer.last, Framer.rest_of]
    by_cases hline : line = [] <;> simp [hline]
  | failure => rfl

namespace LineInput

variable {limit : Nat} {f : Framer} {i : LineInput}

/-! ### One turn -/

theorem bytes_fill (i : LineInput) : i.fill.bytes = i.bytes := by
  obtain ⟨buffer, reads, ending, hreads⟩ := i
  cases buffer <;> cases reads <;> rfl

theorem ending_fill (i : LineInput) : i.fill.ending = i.ending := by
  obtain ⟨buffer, reads, ending, hreads⟩ := i
  cases buffer <;> cases reads <;> rfl

theorem bytes_of_fill_nil (h : i.fill.buffer = []) : i.bytes = [] := by
  obtain ⟨buffer, reads, ending, hreads⟩ := i
  cases buffer with
  | cons b buffer => cases h
  | nil =>
    cases reads with
    | nil => rfl
    | cons read reads => exact absurd (h ▸ List.mem_cons_self) hreads

theorem step_end (h : i.fill.buffer = []) :
    i.step limit f = .answer (f.last i.fill.ending) i.fill := by
  simp [step, h]

theorem step_line {piece rest : Bytes} (hpiece : lineFeed ∉ piece)
    (h : i.fill.buffer = piece ++ lineFeed :: rest) :
    i.step limit f =
      .answer (.ok (f.absorb limit piece).close) { i.fill with buffer := rest } := by
  have htake : i.fill.piece = piece := by rw [LineInput.piece, h, Framer.takeWhile_line hpiece]
  simp [step, h, htake, consume]

theorem step_open (hne : i.fill.buffer ≠ []) (h : lineFeed ∉ i.fill.buffer) :
    i.step limit f = .more (f.absorb limit i.fill.buffer) { i.fill with buffer := [] } := by
  have htake : i.fill.piece = i.fill.buffer := Framer.takeWhile_open h
  simp [step, hne, htake, consume]

theorem more_of_step {f' : Framer} {j : LineInput} (h : i.step limit f = .more f' j) :
    ∃ piece, lineFeed ∉ piece ∧ i.bytes = piece ++ j.bytes ∧ f' = f.absorb limit piece := by
  by_cases hne : i.fill.buffer = []
  · rw [step_end hne] at h
    cases h
  by_cases hopen : lineFeed ∈ i.fill.buffer
  · obtain ⟨piece, rest, hbuffer, hpiece⟩ := List.eq_append_cons_of_mem hopen
    rw [step_line hpiece hbuffer] at h
    cases h
  · rw [step_open hne hopen] at h
    cases h
    exact ⟨i.fill.buffer, hopen, (bytes_fill i).symm, rfl⟩

/-! ### One call -/

inductive AtTurn (limit : Nat) (i : LineInput) : Framer → LineInput → Prop
  | start : AtTurn limit i {} i
  | next {f f' : Framer} {j j' : LineInput} (h : AtTurn limit i f j)
      (hstep : j.step limit f = .more f' j') : AtTurn limit i f' j'

theorem AtTurn.taken {j : LineInput} (h : AtTurn limit i f j) :
    ∃ taken, lineFeed ∉ taken ∧ i.bytes = taken ++ j.bytes ∧ f = .of limit taken := by
  induction h with
  | start => exact ⟨[], List.not_mem_nil, rfl, (Framer.of_nil limit).symm⟩
  | next _ hstep ih =>
    obtain ⟨taken, htaken, hbytes, rfl⟩ := ih
    obtain ⟨piece, hpiece, hmore, rfl⟩ := more_of_step hstep
    refine ⟨taken ++ piece, by simp [htaken, hpiece], ?_, Framer.absorb_of limit taken piece⟩
    rw [hbytes, hmore, List.append_assoc]

theorem nextLineFrom_eq (limit : Nat) (f : Framer) (i : LineInput) :
    i.nextLineFrom limit f = match i.step limit f with
      | .more f rest => rest.nextLineFrom limit f
      | .answer a rest => (a, rest) := by
  rw [nextLineFrom]
  split <;> simp_all

/-- How a call ends: with the line feed of its line, or with the stream. -/
inductive Called (limit : Nat) (line : Bytes) (i : LineInput) :
    Except Ending RawLine × LineInput → Prop
  | line {piece : Bytes} {rest : LineInput} (hpiece : lineFeed ∉ piece)
      (hbytes : i.bytes = piece ++ lineFeed :: rest.bytes) (hending : rest.ending = i.ending) :
      Called limit line i (.ok (.of limit (line ++ piece)), rest)
  | last {rest : LineInput} (hopen : lineFeed ∉ i.bytes) (hbytes : rest.bytes = [])
      (hending : rest.ending = i.ending) :
      Called limit line i ((Framer.of limit (line ++ i.bytes)).last i.ending, rest)

theorem Called.after {line piece : Bytes} {j : LineInput} {out : Except Ending RawLine × LineInput}
    (h : Called limit (line ++ piece) j out) (hpiece : lineFeed ∉ piece)
    (hbytes : i.bytes = piece ++ j.bytes) (hending : j.ending = i.ending) :
    Called limit line i out := by
  cases h with
  | @line more rest hmore hrest hsame =>
    rw [List.append_assoc]
    refine .line (by simp [hpiece, hmore]) ?_ (hsame.trans hending)
    rw [hbytes, hrest, List.append_assoc]
  | last hopen hrest hsame =>
    rw [List.append_assoc, ← hbytes, hending]
    exact .last (by simp [hbytes, hpiece, hopen]) hrest (hsame.trans hending)

theorem nextLineFrom_of (limit : Nat) (line : Bytes) (i : LineInput) :
    Called limit line i (i.nextLineFrom limit (.of limit line)) := by
  rw [nextLineFrom_eq]
  by_cases hne : i.fill.buffer = []
  · have hbytes := bytes_of_fill_nil hne
    have hlast : Called limit line i ((Framer.of limit (line ++ i.bytes)).last i.ending, i.fill) :=
      .last (by simp [hbytes]) (by rw [bytes_fill, hbytes]) (ending_fill i)
    rw [step_end hne, ending_fill]
    simpa [hbytes] using hlast
  by_cases hopen : lineFeed ∈ i.fill.buffer
  · obtain ⟨piece, rest, hbuffer, hpiece⟩ := List.eq_append_cons_of_mem hopen
    rw [step_line hpiece hbuffer, Framer.absorb_of, Framer.close_of]
    refine .line hpiece ?_ (ending_fill i)
    rw [← bytes_fill, bytes, hbuffer]
    simp [bytes]
  · have hstep : i.step limit {} = _ := step_open hne hopen
    have hless := turns_lt_of_step hstep
    rw [step_open hne hopen, Framer.absorb_of]
    exact (nextLineFrom_of limit _ _).after hopen (bytes_fill i).symm (ending_fill i)
termination_by i.turns

theorem nextLine_called (limit : Nat) (i : LineInput) : Called limit [] i (i.nextLine limit) := by
  have hcalled := nextLineFrom_of limit [] i
  rwa [Framer.of_nil] at hcalled

def lines (limit : Nat) (i : LineInput) : List RawLine :=
  RawLine.ofReads limit {} i.ending (i.buffer :: i.reads)

theorem lines_eq (limit : Nat) (i : LineInput) :
    i.lines limit = (linesOf i.ending i.bytes).map (RawLine.of limit) := by
  have hlines := RawLine.ofReads_of limit i.ending List.not_mem_nil (i.buffer :: i.reads)
  rwa [Framer.of_nil, List.nil_append, List.flatten_cons] at hlines

/-- At every turn of a call, before it and after it, no more is kept of the line than the limit
allows, either nothing is discarded or nothing is kept, and both together are as many bytes as have
been taken of the line. So a call answers with the line if it is within the limit, else with its
exact length, and has taken that line with its line feed and no more; what is left at the end of the
input is a line too. The lines of a stream are the answers of the calls, one after another. -/
theorem lines_one_by_one (limit : Nat) (i : LineInput) :
    (∀ f j, i.AtTurn limit f j → ∃ taken, lineFeed ∉ taken ∧ i.bytes = taken ++ j.bytes ∧
      f.Accounts limit taken ∧
      (f.absorb limit j.fill.piece).Accounts limit (taken ++ j.fill.piece)) ∧
    (lineFeed ∈ i.bytes → ∃ line, lineFeed ∉ line ∧
      i.bytes = line ++ lineFeed :: (i.nextLine limit).2.bytes ∧
      (i.nextLine limit).1 =
        .ok (if line.length ≤ limit then .whole line else .overlong line.length)) ∧
    (lineFeed ∉ i.bytes → (i.nextLine limit).2.bytes = [] ∧
      (i.nextLine limit).1 = match i.ending with
        | .endOfInput => if i.bytes = [] then .error .endOfInput else .ok
            (if i.bytes.length ≤ limit then .whole i.bytes else .overlong i.bytes.length)
        | .failure => .error .failure) ∧
    i.lines limit = match i.nextLine limit with
      | (.ok line, rest) => line :: rest.lines limit
      | (.error _, _) => [] := by
  refine ⟨fun f j h => ?_, ?_⟩
  · obtain ⟨taken, htaken, hbytes, rfl⟩ := h.taken
    refine ⟨taken, htaken, hbytes, Framer.accounts_of limit taken, ?_⟩
    rw [Framer.absorb_of]
    exact Framer.accounts_of limit _
  have hcalled := i.nextLine_called limit
  generalize i.nextLine limit = out at hcalled
  cases hcalled with
  | @line piece rest hpiece hbytes hending =>
    have hmem : lineFeed ∈ i.bytes := by simp [hbytes]
    refine ⟨fun _ => ⟨piece, hpiece, hbytes, rfl⟩, fun h => absurd hmem h, ?_⟩
    rw [lines_eq, hbytes, linesOf_line _ hpiece, List.map_cons, ← hending, ← lines_eq]
    rfl
  | @last rest hopen hbytes hending =>
    have hlast := Framer.last_of limit i.bytes i.ending
    refine ⟨fun h => absurd h hopen, fun _ => ⟨hbytes, hlast⟩, ?_⟩
    have hrest : rest.lines limit = [] := by
      rw [lines_eq, hbytes]
      cases rest.ending <;> rfl
    rw [lines_eq, linesOf_open _ hopen, List.nil_append, hlast]
    cases i.ending with
    | failure => rfl
    | endOfInput =>
      by_cases hnone : i.bytes = []
      · simp [hnone]
      · simp [hnone, hrest]

example :
    let i : LineInput := ⟨[], [[0x61, 0x62], [0x63, 0x0A, 0x64], [0x0A]], .endOfInput, by decide⟩
    (i.nextLine 2).1 = .ok (.overlong 3) ∧
      ((i.nextLine 2).2.nextLine 2).1 = .ok (.whole [0x64]) := by
  decide +kernel

end LineInput
end LogRelay
