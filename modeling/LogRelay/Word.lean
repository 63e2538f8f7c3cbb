/-! Sizes are machine words of 64 bits. A sum or product that does not fit in one loses its upper
bits. -/

namespace LogRelay.Word

def bound : Nat := 0x10000000000000000

def wrap (n : Nat) : Nat := n % bound

def add (a b : Nat) : Nat := wrap (a + b)

def mul (a b : Nat) : Nat := wrap (a * b)

variable {a b n : Nat}

theorem wrap_of_lt (h : n < bound) : wrap n = n := Nat.mod_eq_of_lt h

theorem wrap_le (n : Nat) : wrap n ≤ n := Nat.mod_le n bound

theorem add_of_lt (h : a + b < bound) : add a b = a + b := wrap_of_lt h

theorem mul_of_lt (h : a * b < bound) : mul a b = a * b := wrap_of_lt h

theorem add_lt (a b : Nat) : add a b < bound := Nat.mod_lt (a + b) (by decide)

theorem zero_add (h : n < bound) : add 0 n = n := by rw [add, Nat.zero_add, wrap_of_lt h]

theorem add_le (a b : Nat) : add a b ≤ a + b := wrap_le (a + b)

theorem wrap_add_wrap (a b : Nat) : add (wrap a) (wrap b) = wrap (a + b) :=
  (Nat.add_mod a b bound).symm

end LogRelay.Word
