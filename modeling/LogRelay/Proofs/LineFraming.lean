import Mathlib.Data.List.TakeWhile
import LogRelay.Host.Framing

/-! The lines of a byte stream, however it is cut into reads. What the framer keeps of a line in
progress is determined by the bytes of that line so far, so the cuts leave no trace. -/

namespace LogRelay

open Framer (lineFeed)

def completeLines (text : Bytes) : List Bytes := (text.splitOn lineFeed).dropLast

def openLine (text : Bytes) : Bytes := (text.splitOn lineFeed).getLastD []

/-- The lines of a text. What stands after the last line feed counts only if the input ends there
and if there is anything. -/
def linesOf (ending : Ending) (text : Bytes) : List Bytes :=
  completeLines text ++
    match ending with
    | .endOfInput => if openLine text = [] then [] else [openLine text]
    | .failure => []

section Lines

variable {line : Bytes}

theorem completeLines_open (h : lineFeed ∉ line) : completeLines line = [] := by
  unfold completeLines
  rw [List.splitOn_eq_singleton h]
  rfl

theorem openLine_open (h : lineFeed ∉ line) : openLine line = line := by
  unfold openLine
  rw [List.splitOn_eq_singleton h]
  rfl

theorem completeLines_line (h : lineFeed ∉ line) (text : Bytes) :
    completeLines (line ++ lineFeed :: text) = line :: completeLines text := by
  unfold completeLines
  rw [List.splitOn_append_cons_self_of_not_mem h]
  exact List.dropLast_cons_of_ne_nil (List.splitOn_ne_nil lineFeed text)

theorem openLine_line (h : lineFeed ∉ line) (text : Bytes) :
    openLine (line ++ lineFeed :: text) = openLine text := by
  unfold openLine
  rw [List.splitOn_append_cons_self_of_not_mem h]
  have hrest := List.splitOn_ne_nil lineFeed text
  simp only [List.getLastD_eq_getLast?, List.getLast?_cons_of_ne_nil hrest]

theorem text_induction {P : Bytes → Prop} (progress : ∀ line, lineFeed ∉ line → P line)
    (next : ∀ line text, lineFeed ∉ line → P text → P (line ++ lineFeed :: text)) (text : Bytes) :
    P text := by
  by_cases h : lineFeed ∈ text
  · obtain ⟨line, rest, rfl, hline⟩ := List.eq_append_cons_of_mem h
    exact next line rest hline (text_induction progress next rest)
  · exact progress text h
termination_by text.length
decreasing_by
  subst_vars
  simp +arith

theorem lineFeed_not_mem_openLine (text : Bytes) : lineFeed ∉ openLine text := by
  induction text using text_induction with
  | progress line h => rwa [openLine_open h]
  | next line text h ih => rwa [openLine_line h]

theorem completeLines_append (text more : Bytes) :
    completeLines (text ++ more) = completeLines text ++ completeLines (openLine text ++ more) := by
  induction text using text_induction with
  | progress line h => rw [completeLines_open h, openLine_open h, List.nil_append]
  | next line text h ih =>
    rw [List.append_assoc, List.cons_append, completeLines_line h, ih, completeLines_line h,
      openLine_line h, List.cons_append]

theorem openLine_append (text more : Bytes) :
    openLine (text ++ more) = openLine (openLine text ++ more) := by
  induction text using text_induction with
  | progress line h => rw [openLine_open h]
  | next line text h ih => rw [List.append_assoc, List.cons_append, openLine_line h, ih,
      openLine_line h]

theorem linesOf_append (ending : Ending) (text more : Bytes) :
    linesOf ending (text ++ more) =
      completeLines text ++ linesOf ending (openLine text ++ more) := by
  unfold linesOf
  rw [completeLines_append, openLine_append, List.append_assoc]

theorem linesOf_line (ending : Ending) (h : lineFeed ∉ line) (text : Bytes) :
    linesOf ending (line ++ lineFeed :: text) = line :: linesOf ending text := by
  unfold linesOf
  rw [completeLines_line h, openLine_line h]
  rfl

theorem linesOf_open (ending : Ending) (h : lineFeed ∉ line) :
    linesOf ending line = match ending with
      | .endOfInput => if line = [] then [] else [line]
      | .failure => [] := by
  unfold linesOf
  rw [completeLines_open h, openLine_open h, List.nil_append]

end Lines

/-! ### The framer -/

def RawLine.of (limit : Nat) (line : Bytes) : RawLine :=
  if line.length ≤ limit then .whole line else .overlong line.length

namespace Framer

/-- What is kept of a line in progress: all of it, or its length. -/
def of (limit : Nat) (line : Bytes) : Framer :=
  if line.length ≤ limit then ⟨line.toArray, 0⟩ else ⟨#[], line.length⟩

variable (limit : Nat) (line : Bytes)

theorem of_nil : of limit [] = {} := by simp [of]

theorem absorb_of (piece : Bytes) :
    (of limit line).absorb limit piece = of limit (line ++ piece) := by
  unfold of absorb
  by_cases hline : line.length ≤ limit
  · simp [hline, List.length_append]
  · have hover : ¬ line.length + piece.length ≤ limit := by omega
    have hpos : line.length ≠ 0 := by omega
    simp [hline, hover, hpos]

theorem close_of : (of limit line).close = RawLine.of limit line := by
  unfold of close RawLine.of
  by_cases hline : line.length ≤ limit
  · simp [hline]
  · have hpos : 0 < line.length := by omega
    simp [hline, hpos]

theorem rest_of : (of limit line).rest = if line = [] then [] else [RawLine.of limit line] := by
  unfold rest
  rw [close_of]
  unfold of
  by_cases hline : line.length ≤ limit
  · simp [hline]
  · have hne : line ≠ [] := by
      rintro rfl
      simp at hline
    simp [hline, hne]

/-! #### One read -/

section Feed

variable {limit line} {piece : Bytes}

theorem not_lineFeed (h : lineFeed ∉ piece) : ∀ b ∈ piece, (b != lineFeed) = true := by
  intro b hb
  have hne : b ≠ lineFeed := fun heq => h (heq ▸ hb)
  simpa using hne

theorem takeWhile_open (h : lineFeed ∉ piece) : piece.takeWhile (· != lineFeed) = piece :=
  List.takeWhile_eq_self_iff.mpr (not_lineFeed h)

theorem dropWhile_open (h : lineFeed ∉ piece) : piece.dropWhile (· != lineFeed) = [] :=
  List.dropWhile_eq_nil_iff.mpr (not_lineFeed h)

theorem takeWhile_line (h : lineFeed ∉ piece) (rest : Bytes) :
    (piece ++ lineFeed :: rest).takeWhile (· != lineFeed) = piece := by
  rw [List.takeWhile_append_of_pos (not_lineFeed h), List.takeWhile_cons_of_neg (by simp),
    List.append_nil]

theorem dropWhile_line (h : lineFeed ∉ piece) (rest : Bytes) :
    (piece ++ lineFeed :: rest).dropWhile (· != lineFeed) = lineFeed :: rest := by
  rw [List.dropWhile_append_of_pos (not_lineFeed h), List.dropWhile_cons_of_neg (by simp)]

theorem feedFrom_open (h : lineFeed ∉ piece) (fuel : Nat) (acc : List RawLine) (f : Framer) :
    feedFrom limit (fuel + 1) acc f piece = (acc, f.absorb limit piece) := by
  unfold feedFrom
  simp only [takeWhile_open h, dropWhile_open h]

theorem feedFrom_line (h : lineFeed ∉ piece) (fuel : Nat) (acc : List RawLine) (f : Framer)
    (rest : Bytes) : feedFrom limit (fuel + 1) acc f (piece ++ lineFeed :: rest) =
      feedFrom limit fuel ((f.absorb limit piece).close :: acc) {} rest := by
  rw [feedFrom]
  simp only [takeWhile_line h, dropWhile_line h]

theorem feedFrom_of (h : lineFeed ∉ line) (bytes : Bytes) {fuel : Nat}
    (hfuel : bytes.length < fuel) (acc : List RawLine) :
    feedFrom limit fuel acc (of limit line) bytes =
      (((completeLines (line ++ bytes)).map (RawLine.of limit)).reverse ++ acc,
        of limit (openLine (line ++ bytes))) := by
  obtain ⟨fuel, rfl⟩ : ∃ n, fuel = n + 1 := ⟨fuel - 1, by omega⟩
  induction bytes using text_induction generalizing line fuel acc with
  | progress piece hpiece =>
    have hline : lineFeed ∉ line ++ piece := by simp [h, hpiece]
    rw [feedFrom_open hpiece, absorb_of, completeLines_open hline, openLine_open hline]
    rfl
  | next piece rest hpiece ih =>
    have hline : lineFeed ∉ line ++ piece := by simp [h, hpiece]
    have hlen : rest.length + 1 < fuel + 1 := by
      simp only [List.length_append, List.length_cons] at hfuel
      omega
    obtain ⟨fuel, rfl⟩ : ∃ n, fuel = n + 1 := ⟨fuel - 1, by omega⟩
    -- The line feed closes the line, and what follows it begins with nothing kept.
    have hrest := ih List.not_mem_nil (RawLine.of limit (line ++ piece) :: acc) fuel (by omega)
    rw [of_nil, List.nil_append] at hrest
    rw [feedFrom_line hpiece, absorb_of, close_of, hrest, ← List.append_assoc,
      completeLines_line hline, openLine_line hline]
    simp

theorem feed_of (h : lineFeed ∉ line) (bytes : Bytes) :
    (of limit line).feed limit bytes = ((completeLines (line ++ bytes)).map (RawLine.of limit),
      of limit (openLine (line ++ bytes))) := by
  unfold feed
  rw [feedFrom_of h bytes (Nat.lt_succ_self bytes.length) []]
  simp

end Feed
end Framer

theorem RawLine.ofReads_of (limit : Nat) (ending : Ending) {line : Bytes} (h : lineFeed ∉ line)
    (reads : List Bytes) :
    ofReads limit (.of limit line) ending reads =
      (linesOf ending (line ++ reads.flatten)).map (RawLine.of limit) := by
  induction reads generalizing line with
  | nil =>
    rw [List.flatten_nil, List.append_nil]
    unfold linesOf
    rw [completeLines_open h, openLine_open h, List.nil_append]
    cases ending with
    | endOfInput =>
      rw [ofReads, Framer.rest_of]
      split <;> rfl
    | failure => rfl
  | cons bytes reads ih =>
    have hopen := lineFeed_not_mem_openLine (line ++ bytes)
    unfold ofReads
    rw [Framer.feed_of h, List.flatten_cons, ← List.append_assoc, linesOf_append, List.map_append,
      ← ih hopen]

namespace HostMessage

def ofLine? (line : Bytes) : Option HostMessage :=
  match readLine line with
  | .message m => some m
  | _ => none

theorem ofRawLine_of (limit : Nat) (line : Bytes) :
    ofRawLine (RawLine.of limit line) = if line.length ≤ limit then ofLine? line else none := by
  unfold RawLine.of
  split <;> rfl

/-- Whatever the limit, and however the input is cut into reads and ends: the messages are those of
the lines within the limit, in order. -/
theorem ofReads_eq_lines (limit : Nat) (ending : Ending) (reads : List Bytes) :
    ofReads limit ending reads =
      ((linesOf ending reads.flatten).filter (·.length ≤ limit)).filterMap ofLine? := by
  have hlines := RawLine.ofReads_of limit ending List.not_mem_nil reads
  rw [Framer.of_nil, List.nil_append] at hlines
  unfold ofReads
  rw [hlines, List.filterMap_map, List.filterMap_filter]
  congr 1
  funext line
  simp [ofRawLine_of]

end HostMessage
end LogRelay
