import LogRelay.Duration.Basic

/-! Written forms of durations: one that reads back exactly, and a short one with a point. -/

namespace LogRelay.Duration

def term (name : String) (n : Nat) : List String := if n = 0 then [] else [n.repr ++ name]

def longTerm (name : String) (n : Nat) : List String :=
  term (if 1 < n then name ++ "s" else name) n

def terms (d : Duration) : List String :=
  let inYear := d.secs % 31557600
  let inMonth := inYear % 2630016
  let inDay := inMonth % 86400
  longTerm "year" (d.secs / 31557600) ++
  longTerm "month" (inYear / 2630016) ++
  longTerm "day" (inMonth / 86400) ++
  term "h" (inDay / 3600) ++
  term "m" (inDay % 3600 / 60) ++
  term "s" (inDay % 60) ++
  term "ms" (d.nanos / 1000000) ++
  term "us" (d.nanos / 1000 % 1000) ++
  term "ns" (d.nanos % 1000)

def write (d : Duration) : String :=
  if d.isZero then "0s" else " ".intercalate d.terms

-- `places` decimal digits of `n`, without the zeros at the end, after a point.
def decimals (places n : Nat) : List Char :=
  let ds := Nat.toDigits 10 n
  let ds := List.replicate (places - ds.length) '0' ++ ds
  match (ds.reverse.dropWhile (· == '0')).reverse with
  | [] => []
  | ds => '.' :: ds

/-- The span in the largest of seconds, milli-, micro- and nanoseconds that it reaches. -/
def brief (d : Duration) : String :=
  if 0 < d.secs then d.secs.repr ++ String.ofList (decimals 9 d.nanos) ++ "s"
  else if 1000000 ≤ d.nanos then
    (d.nanos / 1000000).repr ++ String.ofList (decimals 6 (d.nanos % 1000000)) ++ "ms"
  else if 1000 ≤ d.nanos then
    (d.nanos / 1000).repr ++ String.ofList (decimals 3 (d.nanos % 1000)) ++ "\u00B5s"
  else d.nanos.repr ++ "ns"

end LogRelay.Duration
