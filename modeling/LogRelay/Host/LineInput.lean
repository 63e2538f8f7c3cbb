import LogRelay.Host.Framing

/-! A stream from which lines are taken one at a time. A call takes reads until a line is complete,
and what a read holds beyond that line stays in the buffer for the next call. -/

namespace LogRelay

structure LineInput where
  buffer : Bytes
  reads : List Bytes
  ending : Ending
  -- A read of no bytes would be the end of the stream.
  reads_ne_nil : [] ∉ reads

-- The answer at the end of the stream: what there is of a last line, but not after a failure.
def Framer.last (f : Framer) : Ending → Except Ending RawLine
  | .endOfInput => match f.rest with
    | [] => .error .endOfInput
    | line :: _ => .ok line
  | .failure => .error .failure

namespace LineInput

def bytes (i : LineInput) : Bytes := i.buffer ++ i.reads.flatten

def fill (i : LineInput) : LineInput :=
  match i.buffer, h : i.reads with
  | [], read :: reads =>
    ⟨read, reads, i.ending, fun hmem => i.reads_ne_nil (h ▸ List.mem_cons_of_mem read hmem)⟩
  | _, _ => i

def consume (i : LineInput) (n : Nat) : LineInput := { i with buffer := i.buffer.drop n }

def piece (i : LineInput) : Bytes := i.buffer.takeWhile (· != Framer.lineFeed)

inductive Step where
  | more (f : Framer) (rest : LineInput)
  | answer (a : Except Ending RawLine) (rest : LineInput)

/-- One turn takes what is buffered of the line, with the line feed if that is there. -/
def step (limit : Nat) (f : Framer) (i : LineInput) : Step :=
  let i := i.fill
  if i.buffer.isEmpty then .answer (f.last i.ending) i
  else
    let f := f.absorb limit i.piece
    if i.piece.length < i.buffer.length then .answer (.ok f.close) (i.consume (i.piece.length + 1))
    else .more f (i.consume i.piece.length)

def turns (i : LineInput) : Nat := i.reads.length + if i.buffer.isEmpty then 0 else 1

theorem reads_fill_lt {i : LineInput} (h : i.fill.buffer.isEmpty = false) :
    i.fill.reads.length < i.turns := by
  obtain ⟨buffer, reads, ending, hreads⟩ := i
  cases buffer with
  | nil =>
    cases reads with
    | nil => cases h
    | cons read reads => simp [fill, turns]
  | cons b buffer => simp [fill, turns]

theorem turns_lt_of_step {limit : Nat} {f f' : Framer} {i rest : LineInput}
    (h : i.step limit f = .more f' rest) : rest.turns < i.turns := by
  unfold step at h
  dsimp only at h
  split at h
  · cases h
  rename_i hfull
  split at h
  · cases h
  rename_i hpiece
  cases h
  have hempty : i.fill.buffer.drop i.fill.piece.length = [] :=
    List.drop_eq_nil_of_le (Nat.le_of_not_lt hpiece)
  simpa [turns, consume, hempty] using reads_fill_lt (by simpa using hfull)

def nextLineFrom (limit : Nat) (f : Framer) (i : LineInput) : Except Ending RawLine × LineInput :=
  match _h : i.step limit f with
  | .more f rest => nextLineFrom limit f rest
  | .answer a rest => (a, rest)
termination_by i.turns
decreasing_by exact turns_lt_of_step ‹_›

def nextLine (limit : Nat) (i : LineInput) : Except Ending RawLine × LineInput :=
  i.nextLineFrom limit {}

end LineInput
end LogRelay
