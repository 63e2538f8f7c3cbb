import LogRelay.Text.Utf8

/-! JSON numbers as they are spelled. A numeral is an integer only if it is spelled as one; all
others stand for floating-point values. -/

namespace LogRelay

structure Numeral where
  negative : Bool
  whole : Bytes
  fraction : Bytes
  exponent : Option (Bool × Bytes)
  deriving DecidableEq, Repr

namespace Numeral

def isDigit (b : UInt8) : Bool := 0x30 ≤ b && b ≤ 0x39

def digitsValue (ds : Bytes) : Nat := ds.foldl (fun n b => 10 * n + (b.toNat - 0x30)) 0

def digitsOf (n : Nat) : Bytes := (Nat.toDigits 10 n).map fun c => c.toNat.toUInt8

def ofInt (n : Int) : Numeral := ⟨n < 0, digitsOf n.natAbs, [], none⟩

-- Minus zero counts as a floating-point value.
def toInt? (n : Numeral) : Option Int :=
  if n.fraction.isEmpty && n.exponent.isNone then
    if n.negative then
      if digitsValue n.whole = 0 then none else some (-(digitsValue n.whole : Int))
    else some (digitsValue n.whole)
  else none

def digits? (bs : Bytes) : Option (Bytes × Bytes) :=
  let ds := bs.takeWhile isDigit
  if ds.isEmpty then none else some (ds, bs.dropWhile isDigit)

def whole? (bs : Bytes) : Option (Bytes × Bytes) := do
  let (ds, rest) ← digits? bs
  if ds.head? = some 0x30 && ds.length ≠ 1 then none else some (ds, rest)

def fraction? : Bytes → Option (Bytes × Bytes)
  | 0x2E :: rest => digits? rest
  | bs => some ([], bs)

def exponent? (bs : Bytes) : Option (Option (Bool × Bytes) × Bytes) :=
  match bs with
  | [] => some (none, [])
  | e :: rest =>
    if e = 0x65 || e = 0x45 then
      match rest with
      | 0x2D :: more => (digits? more).map fun (ds, rest) => (some (true, ds), rest)
      | 0x2B :: more => (digits? more).map fun (ds, rest) => (some (false, ds), rest)
      | more => (digits? more).map fun (ds, rest) => (some (false, ds), rest)
    else some (none, e :: rest)

def unsigned? (negative : Bool) (bs : Bytes) : Option (Numeral × Bytes) := do
  let (whole, bs) ← whole? bs
  let (fraction, bs) ← fraction? bs
  let (exponent, bs) ← exponent? bs
  return (⟨negative, whole, fraction, exponent⟩, bs)

def read? : Bytes → Option (Numeral × Bytes)
  | 0x2D :: rest => unsigned? true rest
  | bs => unsigned? false bs

def spell (n : Numeral) : Bytes :=
  (if n.negative then [0x2D] else []) ++ n.whole ++
    (if n.fraction.isEmpty then [] else 0x2E :: n.fraction) ++
    match n.exponent with
    | none => []
    | some (negative, ds) => 0x65 :: (if negative then [0x2D] else []) ++ ds

-- The nearest number of 53 significant bits; a tie goes to the even one.
def nearest53 (n : Nat) : Nat :=
  if n < 0x20000000000000 then n
  else
    let cut := n.log2 - 52
    let kept := n >>> cut
    let rest := n % (1 <<< cut)
    let half := 1 <<< (cut - 1)
    (if half < rest || (rest = half && kept % 2 = 1) then kept + 1 else kept) <<< cut

def significand : Nat → Nat → Bytes → Nat × Nat
  | n, used, [] => (n, used)
  | n, used, b :: rest =>
    let next := 10 * n + (b.toNat - 0x30)
    if next < 0x10000000000000000 then significand next (used + 1) rest else (n, used)

-- Products from here on round to infinity as doubles.
def overflow : Nat := (1 <<< 1024) - (1 <<< 970)

/-- Whether the value, computed as significand times power of ten in double precision, is finite.
An exponent that does not fit 32 bits is too large whatever the digits' number. -/
def finite (n : Numeral) : Bool :=
  let (value, used) := significand 0 0 (n.whole ++ n.fraction)
  let shift : Int := (n.whole.length : Int) - used
  let fits (scale : Int) : Bool :=
    value = 0 || scale < 0 ||
      (scale ≤ 308 && nearest53 value * nearest53 (Nat.pow 10 scale.toNat) < overflow)
  match n.exponent with
  | none => fits shift
  | some (true, ds) => digitsValue ds ≥ 0x80000000 || fits (shift - digitsValue ds)
  | some (false, ds) =>
    if digitsValue ds ≥ 0x80000000 then value = 0 else fits (shift + digitsValue ds)

end Numeral
end LogRelay
