import LogRelay.Text.Utf8

/-! The insides of JSON strings: how a text is spelled and what a spelling says.
`decode?_encode` says that what is written is read back. -/

namespace LogRelay.Quoted

def hexDigit (n : UInt8) : UInt8 := if n < 10 then 0x30 + n else 0x57 + n

def hexValue? (b : UInt8) : Option Nat :=
  if 0x30 ≤ b && b ≤ 0x39 then some (b.toNat - 0x30)
  else if 0x41 ≤ b && b ≤ 0x46 then some (b.toNat - 0x37)
  else if 0x61 ≤ b && b ≤ 0x66 then some (b.toNat - 0x57)
  else none

def unit? (a b c d : UInt8) : Option Nat := do
  return 0x1000 * (← hexValue? a) + 0x100 * (← hexValue? b) + 0x10 * (← hexValue? c)
    + (← hexValue? d)

-- Control characters, the quote and the backslash are escaped, with a letter where there is one.
def escape (b : UInt8) : Bytes :=
  if b = 0x22 then [0x5C, 0x22]
  else if b = 0x5C then [0x5C, 0x5C]
  else if b = 0x08 then [0x5C, 0x62]
  else if b = 0x09 then [0x5C, 0x74]
  else if b = 0x0A then [0x5C, 0x6E]
  else if b = 0x0C then [0x5C, 0x66]
  else if b = 0x0D then [0x5C, 0x72]
  else if b < 0x20 then [0x5C, 0x75, 0x30, 0x30, hexDigit (b >>> 4), hexDigit (b &&& 0xF)]
  else [b]

def encode (s : String) : Bytes := (Utf8.encode s).flatMap escape

def letter? (b : UInt8) : Option UInt8 :=
  if b = 0x22 || b = 0x5C || b = 0x2F then some b
  else if b = 0x62 then some 0x08
  else if b = 0x66 then some 0x0C
  else if b = 0x6E then some 0x0A
  else if b = 0x72 then some 0x0D
  else if b = 0x74 then some 0x09
  else none

def isHighSurrogate (n : Nat) : Bool := 0xD800 ≤ n && n < 0xDC00

def isLowSurrogate (n : Nat) : Bool := 0xDC00 ≤ n && n < 0xE000

def scalarBytes (n : Nat) : Bytes := String.utf8EncodeChar (Char.ofNat n)

/-- The bytes that a spelling stands for, after the reverse of `acc`. A surrogate without its
partner stands for nothing. -/
def unescapeFrom (acc : Bytes) : Bytes → Option Bytes
  | [] => some acc.reverse
  | 0x5C :: 0x75 :: a :: b :: c :: d :: rest =>
    match unit? a b c d with
    | none => none
    | some high =>
      if isLowSurrogate high then none
      else if isHighSurrogate high then
        match rest with
        | 0x5C :: 0x75 :: a :: b :: c :: d :: rest =>
          match unit? a b c d with
          | none => none
          | some low =>
            if isLowSurrogate low then
              let n := 0x10000 + 0x400 * (high - 0xD800) + (low - 0xDC00)
              unescapeFrom ((scalarBytes n).reverse ++ acc) rest
            else none
        | _ => none
      else unescapeFrom ((scalarBytes high).reverse ++ acc) rest
  | 0x5C :: b :: rest =>
    match letter? b with
    | none => none
    | some c => unescapeFrom (c :: acc) rest
  | b :: rest => if b = 0x5C then none else unescapeFrom (b :: acc) rest

def unescape (bs : Bytes) : Option Bytes := unescapeFrom [] bs

def decode? (bs : Bytes) : Option String := unescape bs >>= Utf8.decode?

theorem unit?_control : ∀ n : Nat, n < 32 →
    unit? 0x30 0x30 (hexDigit (n.toUInt8 >>> 4)) (hexDigit (n.toUInt8 &&& 0xF)) = some n := by
  decide

theorem scalarBytes_control : ∀ n : Nat, n < 32 → scalarBytes n = [n.toUInt8] := by
  decide

theorem unescapeFrom_control (acc rest : Bytes) {b : UInt8} (h : b < 0x20) :
    unescapeFrom acc
      (0x5C :: 0x75 :: 0x30 :: 0x30 :: hexDigit (b >>> 4) :: hexDigit (b &&& 0xF) :: rest) =
      unescapeFrom (b :: acc) rest := by
  have hn : b.toNat < 32 := by simpa [UInt8.lt_iff_toNat_lt] using h
  have hb : b.toNat.toUInt8 = b := by simp
  have hu := unit?_control b.toNat hn
  rw [hb] at hu
  rw [unescapeFrom]
  have hlow : isLowSurrogate b.toNat = false := by simp [isLowSurrogate]; omega
  have hhigh : isHighSurrogate b.toNat = false := by simp [isHighSurrogate]; omega
  simp only [hu, hlow, hhigh, scalarBytes_control _ hn, hb]
  simp

theorem unescapeFrom_escape (acc : Bytes) (b : UInt8) (rest : Bytes) :
    unescapeFrom acc (escape b ++ rest) = unescapeFrom (b :: acc) rest := by
  unfold escape
  split
  · subst_vars; simp [unescapeFrom, letter?]
  split
  · subst_vars; simp [unescapeFrom, letter?]
  split
  · subst_vars; simp [unescapeFrom, letter?]
  split
  · subst_vars; simp [unescapeFrom, letter?]
  split
  · subst_vars; simp [unescapeFrom, letter?]
  split
  · subst_vars; simp [unescapeFrom, letter?]
  split
  · subst_vars; simp [unescapeFrom, letter?]
  rename_i hslash _ _ _ _ _
  split
  · rename_i h
    exact unescapeFrom_control acc rest h
  · rw [List.singleton_append, unescapeFrom]
    · simp [hslash]
    · intro a b c d r h; simp_all
    · intro b r h; simp_all

theorem unescapeFrom_flatMap (acc bs : Bytes) :
    unescapeFrom acc (bs.flatMap escape) = some (acc.reverse ++ bs) := by
  induction bs generalizing acc with
  | nil => simp [unescapeFrom]
  | cons b bs ih => rw [List.flatMap_cons, unescapeFrom_escape, ih]; simp

theorem decode?_encode (s : String) : decode? (encode s) = some s := by
  simp [decode?, encode, unescape, unescapeFrom_flatMap, Utf8.decode?_encode]

/-- The spelling up to the closing quote, after the reverse of `acc`, and what follows the quote.
The shape of the escapes is checked, what they stand for is not. -/
def closeFrom (acc : Bytes) : Bytes → Option (Bytes × Bytes)
  | [] => none
  | 0x22 :: rest => some (acc.reverse, rest)
  | 0x5C :: 0x75 :: a :: b :: c :: d :: rest =>
    if (unit? a b c d).isSome then closeFrom (d :: c :: b :: a :: 0x75 :: 0x5C :: acc) rest
    else none
  | 0x5C :: b :: rest => if (letter? b).isSome then closeFrom (b :: 0x5C :: acc) rest else none
  | b :: rest => if b = 0x5C || b < 0x20 then none else closeFrom (b :: acc) rest

def close? (bs : Bytes) : Option (Bytes × Bytes) := closeFrom [] bs

end LogRelay.Quoted
