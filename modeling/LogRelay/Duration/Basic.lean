/-! Spans of time with nanosecond precision, below 2^64 seconds. -/

namespace LogRelay

structure Duration where
  secs : Nat
  nanos : Nat
  secs_lt : secs < 0x10000000000000000 := by decide
  nanos_lt : nanos < 1000000000 := by decide
  deriving DecidableEq

namespace Duration

def zero : Duration := ⟨0, 0, by decide, by decide⟩

def ofParts? (secs nanos : Nat) : Option Duration :=
  if hs : secs < 0x10000000000000000 then
    if hn : nanos < 1000000000 then some ⟨secs, nanos, hs, hn⟩ else none
  else none

def ofNanos (n : Nat) : Duration :=
  if h : n / 1000000000 < 0x10000000000000000 then
    ⟨n / 1000000000, n % 1000000000, h, Nat.mod_lt _ (by decide)⟩
  else ⟨0xFFFFFFFFFFFFFFFF, 999999999, by decide, by decide⟩

def ofMillis (n : Nat) : Duration := ofNanos (n * 1000000)

def toNanos (d : Duration) : Nat := d.secs * 1000000000 + d.nanos

def isZero (d : Duration) : Bool := d.secs = 0 && d.nanos = 0

/-- Adds seconds and nanoseconds. The nanoseconds alone must stay below 2^64 before they are
carried. -/
def plus? (d : Duration) (secs nanos : Nat) : Option Duration :=
  let n := d.nanos + nanos
  if n < 0x10000000000000000 then
    ofParts? (d.secs + secs + n / 1000000000) (n % 1000000000)
  else none

end Duration
end LogRelay
