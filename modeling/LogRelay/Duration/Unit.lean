/-! The units of written durations and their names. -/

namespace LogRelay

inductive TimeUnit where
  | nanosecond | microsecond | millisecond | second | minute | hour | day | week | month | year
  deriving DecidableEq, Repr

namespace TimeUnit

def ofName? (s : String) : Option TimeUnit :=
  if ["nanos", "nsec", "ns"].contains s then some nanosecond
  else if ["usec", "us", "\u00B5s"].contains s then some microsecond
  else if ["millis", "msec", "ms"].contains s then some millisecond
  else if ["seconds", "second", "secs", "sec", "s"].contains s then some second
  else if ["minutes", "minute", "min", "mins", "m"].contains s then some minute
  else if ["hours", "hour", "hrs", "hr", "h"].contains s then some hour
  else if ["days", "day", "d"].contains s then some day
  else if ["weeks", "week", "wks", "wk", "w"].contains s then some week
  else if ["months", "month", "M"].contains s then some month
  else if ["years", "year", "yrs", "yr", "y"].contains s then some year
  else none

/-- Whole seconds of a unit of at least a second: a year has 365.25 days, a month 30.44. -/
def secs : TimeUnit → Nat
  | nanosecond | microsecond | millisecond => 0
  | second => 1
  | minute => 60
  | hour => 3600
  | day => 86400
  | week => 604800
  | month => 2630016
  | year => 31557600

def nanos : TimeUnit → Nat
  | nanosecond => 1
  | microsecond => 1000
  | millisecond => 1000000
  | _ => 0

-- Fractions of units up to the minute count nanoseconds, those of longer ones whole seconds; a
-- nanosecond has none.
def fineNanos : TimeUnit → Option Nat
  | nanosecond => none
  | microsecond => some 1000
  | millisecond => some 1000000
  | second => some 1000000000
  | minute => some 60000000000
  | _ => some 0

end TimeUnit
end LogRelay
