import Mathlib.Data.List.Induction
import LogRelay.Json.Record
import LogRelay.Proofs.JsonGrammar

/-! What is written of strings and integers is a spelling of them, and a number is finite if it is
an integer that fits 64 bits. -/

namespace LogRelay

namespace Quoted

theorem escape_cases (b : UInt8) :
    (∃ l, escape b = [0x5C, l] ∧ (letter? l).isSome = true ∧ 0x20 ≤ l) ∨
    (b < 0x20 ∧
      escape b = [0x5C, 0x75, 0x30, 0x30, hexDigit (b >>> 4), hexDigit (b &&& 0xF)]) ∨
    (escape b = [b] ∧ b ≠ 0x22 ∧ b ≠ 0x5C ∧ ¬b < 0x20) := by
  unfold escape
  split
  · exact Or.inl ⟨0x22, rfl, by decide⟩
  split
  · exact Or.inl ⟨0x5C, rfl, by decide⟩
  split
  · exact Or.inl ⟨0x62, rfl, by decide⟩
  split
  · exact Or.inl ⟨0x74, rfl, by decide⟩
  split
  · exact Or.inl ⟨0x6E, rfl, by decide⟩
  split
  · exact Or.inl ⟨0x66, rfl, by decide⟩
  split
  · exact Or.inl ⟨0x72, rfl, by decide⟩
  split
  · rename_i hcontrol
    exact Or.inr (Or.inl ⟨hcontrol, rfl⟩)
  · rename_i hquote hslash _ _ _ _ _ hcontrol
    exact Or.inr (Or.inr ⟨rfl, hquote, hslash, hcontrol⟩)

theorem hexDigits_of_control {b : UInt8} (h : b < 0x20) :
    (unit? 0x30 0x30 (hexDigit (b >>> 4)) (hexDigit (b &&& 0xF))).isSome = true ∧
      (0x20 : UInt8) ≤ hexDigit (b >>> 4) ∧ (0x20 : UInt8) ≤ hexDigit (b &&& 0xF) := by
  have hall : ∀ n : Nat, n < 32 → (0x20 : UInt8) ≤ hexDigit (n.toUInt8 >>> 4) ∧
      (0x20 : UInt8) ≤ hexDigit (n.toUInt8 &&& 0xF) := by decide
  have hn : b.toNat < 32 := by simpa [UInt8.lt_iff_toNat_lt] using h
  have hunit := unit?_control b.toNat hn
  have hdigits := hall b.toNat hn
  rw [show b.toNat.toUInt8 = b by simp] at hunit hdigits
  exact ⟨by simp [hunit], hdigits⟩

theorem spelling_flatMap (bs : Bytes) : Spelling (bs.flatMap escape) := by
  induction bs with
  | nil => exact .nil
  | cons b bs ih =>
    rw [List.flatMap_cons]
    rcases escape_cases b with ⟨l, heq, hletter, -⟩ | ⟨hcontrol, heq⟩ | ⟨heq, hquote, hslash, hge⟩
    · exact heq ▸ .letter hletter ih
    · exact heq ▸ .unit (hexDigits_of_control hcontrol).1 ih
    · exact heq ▸ .plain hquote hslash hge ih

theorem spelling_encode (s : String) : Spelling (encode s) := spelling_flatMap _

theorem spells_encode (s : String) : Spells (encode s) (Utf8.encode s) :=
  (decode?_eq_some_iff (spelling_encode s)).mp (decode?_encode s)

theorem encode_printable (s : String) : ∀ b ∈ encode s, 0x20 ≤ b := by
  intro c hc
  obtain ⟨b, -, hcb⟩ := List.mem_flatMap.mp hc
  rcases escape_cases b with ⟨l, heq, -, hge⟩ | ⟨hcontrol, heq⟩ | ⟨heq, -, -, hge⟩
  · rw [heq] at hcb
    simp only [List.mem_cons, List.not_mem_nil, or_false] at hcb
    rcases hcb with rfl | rfl
    · decide
    · exact hge
  · have hdigits := (hexDigits_of_control hcontrol).2
    rw [heq] at hcb
    simp only [List.mem_cons, List.not_mem_nil, or_false] at hcb
    rcases hcb with rfl | rfl | rfl | rfl | rfl | rfl
    · decide
    · decide
    · decide
    · decide
    · exact hdigits.1
    · exact hdigits.2
  · rw [heq, List.mem_singleton] at hcb
    subst hcb
    exact UInt8.not_lt.mp hge

end Quoted

namespace Numeral

/-! ### Digits -/

theorem digitsOf_of_lt : ∀ n < 10, digitsOf n = [(0x30 + n).toUInt8] := by decide

theorem digitsOf_of_le {n : Nat} (h : 10 ≤ n) :
    digitsOf n = digitsOf (n / 10) ++ digitsOf (n % 10) := by
  have hlast : digitsOf (n % 10) = [(n % 10).digitChar].map fun c => c.toNat.toUInt8 := by
    rw [← Nat.toDigits_of_lt_base (Nat.mod_lt n (by decide))]
    rfl
  rw [hlast]
  unfold digitsOf
  rw [Nat.toDigits_of_base_le (by decide) h, List.map_append]

/-- A decimal is one digit, or a decimal and another digit. -/
theorem digits_induction {P : Nat → Prop} (digit : ∀ n < 10, P n)
    (more : ∀ n, 10 ≤ n → P (n / 10) → P n) (n : Nat) : P n := by
  by_cases h : n < 10
  · exact digit n h
  · exact more n (by omega) (digits_induction digit more (n / 10))

theorem digit_byte : ∀ n < 10, isDigit (0x30 + n).toUInt8 = true ∧
    (0x30 + n).toUInt8.toNat - 0x30 = n := by decide

theorem isDigit_of_mem_digitsOf (n : Nat) : ∀ b ∈ digitsOf n, isDigit b = true := by
  induction n using digits_induction with
  | digit n h =>
    rw [digitsOf_of_lt n h]
    simpa using (digit_byte n h).1
  | more n h ih =>
    have hlt : n % 10 < 10 := Nat.mod_lt n (by decide)
    rw [digitsOf_of_le h, digitsOf_of_lt _ hlt, List.forall_mem_append]
    exact ⟨ih, by simpa using (digit_byte _ hlt).1⟩

theorem digitsOf_ne_nil (n : Nat) : digitsOf n ≠ [] := by
  simp [digitsOf, Nat.toDigits_ne_nil]

theorem digitsValue_digitsOf (n : Nat) : digitsValue (digitsOf n) = n := by
  unfold digitsValue
  induction n using digits_induction with
  | digit n h =>
    rw [digitsOf_of_lt n h]
    simpa using (digit_byte n h).2
  | more n h ih =>
    have hlt : n % 10 < 10 := Nat.mod_lt n (by decide)
    rw [digitsOf_of_le h, digitsOf_of_lt _ hlt, List.foldl_append, ih, List.foldl_cons,
      List.foldl_nil, (digit_byte _ hlt).2]
    omega

theorem head_digitsOf {n : Nat} (h : (digitsOf n).head? = some 0x30) : n = 0 := by
  induction n using digits_induction with
  | digit n hlt =>
    have hzero : ∀ n < 10, (0x30 + n).toUInt8 = 0x30 → n = 0 := by decide
    rw [digitsOf_of_lt n hlt] at h
    exact hzero n hlt (by simpa using h)
  | more n hle ih =>
    obtain ⟨b, bs, hb⟩ := List.exists_cons_of_ne_nil (digitsOf_ne_nil (n / 10))
    rw [digitsOf_of_le hle, hb, List.cons_append] at h
    rw [hb] at ih
    have := ih h
    omega

/-! ### Integers -/

theorem spell_of_neg {i : Int} (hi : i < 0) : (ofInt i).spell = 0x2D :: digitsOf i.natAbs := by
  simp [spell, ofInt, hi]

theorem spell_of_nonneg {i : Int} (hi : ¬i < 0) : (ofInt i).spell = digitsOf i.natAbs := by
  simp [spell, ofInt, hi]

theorem whole_digitsOf (n : Nat) : Whole (digitsOf n) := by
  refine ⟨⟨digitsOf_ne_nil n, isDigit_of_mem_digitsOf n⟩, fun hzero => ?_⟩
  rw [head_digitsOf hzero]
  decide

theorem spells_ofInt (i : Int) : Spells (ofInt i).spell (ofInt i) := by
  have hwhole := whole_digitsOf i.natAbs
  by_cases hi : i < 0
  · rw [spell_of_neg hi]
    simpa [ofInt, hi] using Spells.negative hwhole .none .none
  · rw [spell_of_nonneg hi]
    simpa [ofInt, hi] using Spells.positive hwhole .none .none

theorem toInt?_ofInt (i : Int) : (ofInt i).toInt? = some i := by
  unfold toInt? ofInt
  simp only [List.isEmpty_nil, Option.isNone_none, Bool.and_self, if_true, digitsValue_digitsOf]
  by_cases hi : i < 0
  · have hne : i.natAbs ≠ 0 := by omega
    simp only [hi, decide_true, if_true, hne, if_false, Option.some.injEq]
    omega
  · simp only [hi, decide_false, Bool.false_eq_true, if_false, Option.some.injEq]
    omega

theorem digitsOf_byte {b : UInt8} (h : isDigit b = true) :
    b.toNat - 0x30 < 10 ∧ digitsOf (b.toNat - 0x30) = [b] := by
  simp only [isDigit, Bool.and_eq_true, decide_eq_true_eq, UInt8.le_iff_toNat_le] at h
  have hlow : 0x30 ≤ b.toNat := h.1
  have hhigh : b.toNat ≤ 0x39 := h.2
  have hlt : b.toNat - 0x30 < 10 := by omega
  refine ⟨hlt, ?_⟩
  rw [digitsOf_of_lt _ hlt, Nat.add_sub_cancel' hlow]
  simp

theorem digitsOf_digitsValue {ds : Bytes} (h : Whole ds) : digitsOf (digitsValue ds) = ds := by
  induction ds using List.reverseRecOn with
  | nil => exact absurd rfl h.1.1
  | append_singleton ds b ih =>
    obtain ⟨⟨-, hdigits⟩, hzero⟩ := h
    obtain ⟨hlt, hb⟩ := digitsOf_byte (hdigits b (by simp))
    have hvalue : digitsValue (ds ++ [b]) = 10 * digitsValue ds + (b.toNat - 0x30) := by
      simp [digitsValue]
    by_cases hds : ds = []
    · subst hds
      rw [hvalue]
      simpa [digitsValue] using hb
    · have hhead : ds.head? ≠ some 0x30 := fun hhead => hds (by
        have hone := hzero (by rw [List.head?_append, hhead]; rfl)
        simpa using hone)
      have hrest := ih ⟨⟨hds, fun b hb => hdigits b (by simp [hb])⟩, fun h => absurd h hhead⟩
      have hpos : digitsValue ds ≠ 0 := by
        intro hnone
        rw [hnone] at hrest
        exact hhead (by rw [← hrest]; decide)
      rw [hvalue, digitsOf_of_le (by omega), show (10 * digitsValue ds + (b.toNat - 0x30)) / 10 =
        digitsValue ds by omega, Nat.mul_add_mod, Nat.mod_eq_of_lt hlt, hrest, hb]

theorem eq_ofInt_of_toInt? {bs : Bytes} {n : Numeral} {i : Int} (h : Spells bs n)
    (hint : n.toInt? = some i) : n = ofInt i := by
  have hwhole : Whole n.whole := by
    cases h with
    | positive hwhole | negative hwhole => exact hwhole
  have hdigits := digitsOf_digitsValue hwhole
  obtain ⟨negative, whole, fraction, exponent⟩ := n
  unfold toInt? at hint
  split at hint
  · rename_i hplain
    simp only [Bool.and_eq_true, List.isEmpty_iff, Option.isNone_iff_eq_none] at hplain
    obtain ⟨rfl, rfl⟩ := hplain
    split at hint
    · rename_i hnegative
      split at hint
      · cases hint
      · rename_i hpos
        obtain rfl := Option.some.inj hint
        dsimp only at hnegative hpos hdigits
        subst hnegative
        have hneg : 0 < digitsValue whole := by omega
        simp [ofInt, hneg, hdigits]
    · rename_i hnegative
      obtain rfl := Option.some.inj hint
      dsimp only at hnegative hdigits
      simp [ofInt, hdigits, hnegative]
  · cases hint

/-! ### Values -/

theorem le_foldl_digits (ds : Bytes) (n : Nat) :
    n ≤ ds.foldl (fun n b => 10 * n + (b.toNat - 0x30)) n := by
  induction ds generalizing n with
  | nil => exact Nat.le_refl n
  | cons b ds ih =>
    have := ih (10 * n + (b.toNat - 0x30))
    rw [List.foldl_cons]
    omega

theorem significand_of_lt {ds : Bytes} {n : Nat} (used : Nat)
    (h : ds.foldl (fun n b => 10 * n + (b.toNat - 0x30)) n < 0x10000000000000000) :
    significand n used ds =
      (ds.foldl (fun n b => 10 * n + (b.toNat - 0x30)) n, used + ds.length) := by
  induction ds generalizing n used with
  | nil => rfl
  | cons b ds ih =>
    rw [List.foldl_cons] at h
    have hnext := Nat.lt_of_le_of_lt (le_foldl_digits ds _) h
    simp only [significand, hnext, if_true, ih (used + 1) h, List.foldl_cons, List.length_cons]
    rw [Nat.add_right_comm, Nat.add_assoc]

theorem nearest53_le (n : Nat) : nearest53 n ≤ 2 * n := by
  unfold nearest53
  split
  · omega
  · rename_i hn
    have hpow : 2 ^ (n.log2 - 52) ≤ n :=
      Nat.le_trans (Nat.pow_le_pow_right (by decide) (Nat.sub_le ..)) (Nat.log2_self_le (by omega))
    have hfloor : n / 2 ^ (n.log2 - 52) * 2 ^ (n.log2 - 52) ≤ n := Nat.div_mul_le_self ..
    simp only [Nat.shiftRight_eq_div_pow, Nat.shiftLeft_eq]
    split
    · rw [Nat.add_mul]
      omega
    · omega

theorem finite_ofInt {i : Int} (h : i.natAbs < 0x10000000000000000) : (ofInt i).finite = true := by
  have hvalue := digitsValue_digitsOf i.natAbs
  unfold digitsValue at hvalue
  have hfits := h
  rw [← hvalue] at hfits
  have hsig := significand_of_lt 0 hfits
  rw [hvalue, Nat.zero_add] at hsig
  have hround := nearest53_le i.natAbs
  have hone : nearest53 1 = 1 := by decide
  have hover : 2 * 0x10000000000000000 ≤ overflow := by decide
  have hlt : nearest53 i.natAbs < overflow := by omega
  unfold finite ofInt
  simp [hsig, hone, hlt]

theorem isDigit_printable {b : UInt8} (h : isDigit b = true) : 0x20 ≤ b := by
  simp only [isDigit, Bool.and_eq_true, decide_eq_true_eq] at h
  exact UInt8.le_trans (by decide) h.1

theorem mem_spell_ofInt {i : Int} {b : UInt8} (h : b ∈ (ofInt i).spell) :
    b = 0x2D ∨ isDigit b = true := by
  by_cases hi : i < 0
  · rw [spell_of_neg hi, List.mem_cons] at h
    exact h.imp_right (isDigit_of_mem_digitsOf _ b)
  · rw [spell_of_nonneg hi] at h
    exact Or.inr (isDigit_of_mem_digitsOf _ b h)

theorem spell_printable (i : Int) : ∀ b ∈ (ofInt i).spell, 0x20 ≤ b := by
  intro b hb
  rcases mem_spell_ofInt hb with rfl | hdigit
  · decide
  · exact isDigit_printable hdigit

end Numeral
end LogRelay
