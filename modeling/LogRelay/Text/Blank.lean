/-! White space: the Unicode property, and the narrower ASCII set of line input. -/

namespace LogRelay

def isBlank (c : Char) : Bool :=
  ('\t' ≤ c && c ≤ '\r') || c == ' ' || c == '\u0085' || c == '\u00A0' || c == '\u1680' ||
    ('\u2000' ≤ c && c ≤ '\u200A') || c == '\u2028' || c == '\u2029' || c == '\u202F' ||
    c == '\u205F' || c == '\u3000'

-- Space, tab, line feed, form feed and carriage return; not the vertical tab.
def isBlankByte (b : UInt8) : Bool :=
  b == 0x20 || b == 0x09 || b == 0x0A || b == 0x0C || b == 0x0D

def blankText (s : String) : Bool := s.toList.all isBlank

end LogRelay
