import LogRelay.Duration.Basic
import LogRelay.Duration.Unit
import LogRelay.Text.Blank

/-! Reading written durations: numbers with units, added up. White space may stand around and
inside numbers, not inside units. -/

namespace LogRelay.Duration

inductive Phase where
  | opening
  | between
  | whole (n : Nat)
  | fraction (n numerator places : Nat)
  | unit (n : Nat) (part : Option (Nat × Nat)) (name : List Char)
  deriving DecidableEq, Repr

def digit? (c : Char) : Option Nat :=
  if '0' ≤ c && c ≤ '9' then some (c.toNat - '0'.toNat) else none

def isUnitLetter (c : Char) : Bool :=
  ('a' ≤ c && c ≤ 'z') || ('A' ≤ c && c ≤ 'Z') || c == '\u00B5'

def word? (n : Nat) : Option Nat := if n < 0x10000000000000000 then some n else none

-- The part of a unit that a fraction takes, as seconds and nanoseconds. It must be whole.
def portion? (u : TimeUnit) (numerator places : Nat) : Option (Nat × Nat) := do
  let fine ← u.fineNanos
  let scaled ← word? (numerator * (if fine = 0 then u.secs else fine))
  if scaled % Nat.pow 10 places ≠ 0 then none
  else if fine = 0 then some (scaled / Nat.pow 10 places, 0)
  else some (0, scaled / Nat.pow 10 places)

def addTerm? (d : Duration) (n : Nat) (part : Option (Nat × Nat)) (name : List Char) :
    Option Duration := do
  let u ← TimeUnit.ofName? (String.ofList name.reverse)
  let d ← d.plus? (← word? (n * u.secs)) (← word? (n * u.nanos))
  match part with
  | none => some d
  | some (numerator, places) =>
    let (secs, nanos) ← portion? u numerator places
    d.plus? secs nanos

def step : Duration × Phase → Char → Option (Duration × Phase)
  | (d, .opening), c =>
    match digit? c with
    | some v => some (d, .whole v)
    | none => if isBlank c then some (d, .opening) else none
  | (d, .between), c =>
    match digit? c with
    | some v => some (d, .whole v)
    | none => if isBlank c then some (d, .between) else none
  | (d, .whole n), c =>
    match digit? c with
    | some v => (word? (10 * n + v)).map fun n => (d, .whole n)
    | none =>
      if isBlank c then some (d, .whole n)
      else if isUnitLetter c then some (d, .unit n none [c])
      else if c = '.' then some (d, .fraction n 0 0)
      else none
  | (d, .fraction n numerator places), c =>
    match digit? c with
    | some v => do
      let _ ← word? (Nat.pow 10 (places + 1))
      return (d, .fraction n (← word? (10 * numerator + v)) (places + 1))
    | none =>
      if isBlank c then some (d, .fraction n numerator places)
      else if isUnitLetter c && places ≠ 0 then some (d, .unit n (some (numerator, places)) [c])
      else none
  | (d, .unit n part name), c =>
    match digit? c with
    | some v => (d.addTerm? n part name).map fun d => (d, .whole v)
    | none =>
      if isBlank c then (d.addTerm? n part name).map fun d => (d, .between)
      else if isUnitLetter c then some (d, .unit n part (c :: name))
      else none

def finish : Duration × Phase → Option Duration
  | (d, .between) => some d
  | (d, .unit n part name) => d.addTerm? n part name
  | _ => none

def read? (s : String) : Option Duration :=
  if s = "0" then some zero
  else s.toList.foldlM step (zero, .opening) >>= finish

end LogRelay.Duration
