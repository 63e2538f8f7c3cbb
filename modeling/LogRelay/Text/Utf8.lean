/-! UTF-8 texts as lists of bytes. `decode?_encode` says that a text survives the trip. -/

namespace LogRelay

abbrev Bytes := List UInt8

namespace Utf8

def encode (s : String) : Bytes := s.toByteArray.data.toList

def decode? (bs : Bytes) : Option String := String.fromUTF8? ⟨bs.toArray⟩

theorem decode?_encode (s : String) : decode? (encode s) = some s := by
  simp [decode?, encode, String.fromUTF8?, String.fromUTF8, s.isValidUTF8]

theorem encode_of_decode? {bs : Bytes} {s : String} (h : decode? bs = some s) : encode s = bs := by
  simp only [decode?, String.fromUTF8?] at h
  split at h
  · injection h with h
    subst h
    simp [encode, String.fromUTF8]
  · simp at h

-- The bytes that may follow a lead byte: how many, and the range of the first of them. `none` for a
-- byte that leads no character of several bytes.
def continuation (lead : UInt8) : Option (Nat × UInt8 × UInt8) :=
  if 0xC2 ≤ lead && lead ≤ 0xDF then some (1, 0x80, 0xBF)
  else if lead == 0xE0 then some (2, 0xA0, 0xBF)
  else if lead == 0xED then some (2, 0x80, 0x9F)
  else if 0xE1 ≤ lead && lead ≤ 0xEF then some (2, 0x80, 0xBF)
  else if lead == 0xF0 then some (3, 0x90, 0xBF)
  else if 0xF1 ≤ lead && lead ≤ 0xF3 then some (3, 0x80, 0xBF)
  else if lead == 0xF4 then some (3, 0x80, 0x8F)
  else none

def tail : Nat → UInt8 → UInt8 → Bytes → Bytes
  | n + 1, lo, hi, b :: rest =>
    if lo ≤ b && b ≤ hi then b :: tail n 0x80 0xBF rest else []
  | _, _, _, _ => []

def replacement : Bytes := [0xEF, 0xBF, 0xBD]

/-- The bytes with every maximal ill-formed part replaced by U+FFFD. `fuel` is at least their
number. The output is collected in reverse. -/
def repairFrom : Nat → Bytes → Bytes → Bytes
  | fuel + 1, acc, b :: rest =>
    if b < 0x80 then repairFrom fuel (b :: acc) rest
    else match continuation b with
      | none => repairFrom fuel (replacement.reverse ++ acc) rest
      | some (n, lo, hi) =>
        let more := tail n lo hi rest
        let part := if more.length = n then b :: more else replacement
        repairFrom fuel (part.reverse ++ acc) (rest.drop more.length)
  | _, acc, _ => acc.reverse

def repair (bs : Bytes) : Bytes := repairFrom bs.length [] bs

def decodeLossy (bs : Bytes) : String := (decode? (repair bs)).getD ""

end Utf8
end LogRelay
