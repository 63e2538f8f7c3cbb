import LogRelay.Text.Unseen

/-! Texts in literal form, as they appear inside diagnostics. -/

namespace LogRelay.Literal

def hexDigits (n : Nat) : List Char := Nat.toDigits 16 n

-- A character that is not seen by itself is shown by name where it has one, by its code otherwise;
-- a quote and a backslash take a backslash.
def escape (c : Char) : List Char :=
  match c with
  | '"' => ['\\', '"']
  | '\\' => ['\\', '\\']
  | '\n' => ['\\', 'n']
  | '\r' => ['\\', 'r']
  | '\t' => ['\\', 't']
  | '\x00' => ['\\', '0']
  | c =>
    if Unseen.holds c then ['\\', 'u', '\x7b'] ++ hexDigits c.toNat ++ ['\x7d']
    else [c]

def quote (s : String) : String :=
  String.ofList ('"' :: s.toList.flatMap escape ++ ['"'])

def option : Option String → String
  | none => "None"
  | some s => "Some(" ++ quote s ++ ")"

def list (items : List String) : String :=
  "[" ++ ", ".intercalate (items.map quote) ++ "]"

end LogRelay.Literal
