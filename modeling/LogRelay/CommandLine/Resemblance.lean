/-! How alike two words are, by the letters that they share in about the same places. -/

namespace LogRelay.Resemblance

def take? (c : Char) (lo hi : Nat) : List (Char × Bool) → Option (List (Char × Bool))
  | [] => none
  | (d, taken) :: rest =>
    if lo = 0 && 0 < hi && c = d && !taken then some ((d, true) :: rest)
    else (take? c (lo - 1) (hi - 1) rest).map ((d, taken) :: ·)

-- Matches letters in order, the first of them at place `i`, with letters not further away than
-- `range`. The result holds those that found a partner, and the other word with its letters taken.
def pairUp (range : Nat) : Nat → List Char → List (Char × Bool) → List Char × List (Char × Bool)
  | _, [], other => ([], other)
  | i, c :: rest, other =>
    match take? c (i - range) (i + range + 1) other with
    | some other =>
      let (found, other) := pairUp range (i + 1) rest other
      (c :: found, other)
    | none => pairUp range (i + 1) rest other

/-- Whether the mean of three shares is at least seven tenths: the letters matched in either word,
and the matched letters less half of those in another order. -/
def holds (s t : String) : Bool :=
  let a := s.toList
  let b := t.toList
  let range := max a.length b.length / 2 - 1
  let (found, b') := pairUp range 0 a (b.map (·, false))
  let partners := (b'.filter (·.2)).map (·.1)
  let m := found.length
  let swaps := ((found.zip partners).filter fun (x, y) => x ≠ y).length / 2
  0 < m && 21 * (a.length * b.length * m) ≤
    10 * (m * m * b.length + m * m * a.length + (m - swaps) * a.length * b.length)

example : holds "confg" "config" = true ∧ holds "rum" "run" = true := by decide +kernel

example : holds "ship" "run" = false := by decide +kernel

end LogRelay.Resemblance
