import LogRelay.Text.Utf8
import Mathlib.Data.List.Lex

/-! Texts in the order of their code points are in the order of their UTF-8 bytes: of two
characters, the bytes of the greater one are greater at the first place where they differ. -/

namespace LogRelay.Utf8

def Before (xs ys : Bytes) : Prop := ∀ s t, xs ++ s < ys ++ t

variable {xs ys : Bytes} {x y : UInt8} {m n : Nat}

theorem Before.head (h : x < y) : Before (x :: xs) (y :: ys) := fun _ _ => .rel h

theorem Before.append (h : Before xs ys) (xs' ys' : Bytes) : Before (xs ++ xs') (ys ++ ys') :=
  fun s t => by simpa only [List.append_assoc] using h (xs' ++ s) (ys' ++ t)

end LogRelay.Utf8
