import LogRelay.Batch
import LogRelay.Host.Message

/-! Lines of a byte stream that arrives in pieces. No more than a limit is kept of any line. -/

namespace LogRelay

inductive RawLine where
  | whole (bytes : Bytes)
  -- A line over the limit, of which only the length is left.
  | overlong (length : Nat)
  deriving DecidableEq, Repr

structure Framer where
  kept : Array UInt8 := #[]
  discarded : Nat := 0
  deriving DecidableEq, Repr

namespace Framer

def absorb (limit : Nat) (f : Framer) (piece : Bytes) : Framer :=
  if f.discarded = 0 && f.kept.size + piece.length ≤ limit then
    { f with kept := f.kept ++ piece }
  else ⟨#[], f.discarded + (f.kept.size + piece.length)⟩

def close (f : Framer) : RawLine :=
  if 0 < f.discarded then .overlong f.discarded else .whole f.kept.toList

def rest (f : Framer) : List RawLine :=
  if f.discarded = 0 && f.kept.isEmpty then [] else [f.close]

def lineFeed : UInt8 := 0x0A

/-- Takes in one read. The lines that it completes are collected in reverse; `fuel` is more than
the number of bytes. -/
def feedFrom (limit : Nat) : Nat → List RawLine → Framer → Bytes → List RawLine × Framer
  | 0, acc, f, _ => (acc, f)
  | fuel + 1, acc, f, bytes =>
    let f := f.absorb limit (bytes.takeWhile (· != lineFeed))
    match bytes.dropWhile (· != lineFeed) with
    | [] => (acc, f)
    | _ :: bytes => feedFrom limit fuel (f.close :: acc) {} bytes

def feed (limit : Nat) (f : Framer) (bytes : Bytes) : List RawLine × Framer :=
  let (lines, f) := feedFrom limit (bytes.length + 1) [] f bytes
  (lines.reverse, f)

end Framer

inductive Ending where
  | endOfInput
  | failure
  deriving DecidableEq, Repr

-- The lines of a stream. A line that a failure cuts off is lost.
def RawLine.ofReads (limit : Nat) (f : Framer) (ending : Ending) : List Bytes → List RawLine
  | [] => match ending with
    | .endOfInput => f.rest
    | .failure => []
  | bytes :: reads =>
    let (lines, f) := f.feed limit bytes
    lines ++ ofReads limit f ending reads

namespace HostMessage

def ofRawLine : RawLine → Option HostMessage
  | .overlong _ => none
  | .whole line => match readLine line with
    | .message m => some m
    | _ => none

def ofReads (limit : Nat) (ending : Ending) (reads : List Bytes) : List HostMessage :=
  (RawLine.ofReads limit {} ending reads).filterMap ofRawLine

end HostMessage

def lineEnvelope : Nat := 1024

/-- The longest line that can hold a message of acceptable size: escapes make six bytes of one. -/
def Limits.maxLine (l : Limits) : Nat := Word.add (Word.mul l.maxBytes 6) lineEnvelope

end LogRelay
