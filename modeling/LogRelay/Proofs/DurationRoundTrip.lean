import LogRelay.Duration.Reader
import LogRelay.Duration.Writer
import Mathlib.Algebra.GroupWithZero.Nat
import Mathlib.Data.List.Forall2

/-! Written durations are read back. A duration is written as amounts of units from the year down to
the nanosecond; the reader adds them up again, and no sum or product on the way to the whole is
larger than the whole. -/

namespace LogRelay.Duration

/-! ### Digits -/

theorem digit?_of_isDigit {c : Char} (h : c.isDigit = true) :
    digit? c = some (c.toNat - '0'.toNat) := if_pos h

theorem le_ofDigitChars (ds : List Char) (n : Nat) : n ≤ Nat.ofDigitChars 10 ds n := by
  induction ds generalizing n with
  | nil => exact Nat.le_refl n
  | cons c ds ih =>
    have hgrown := ih (10 * n + (c.toNat - '0'.toNat))
    rw [Nat.ofDigitChars_cons]
    omega

theorem foldlM_digits (d : Duration) {ds : List Char} (hds : ∀ c ∈ ds, c.isDigit = true) {n : Nat}
    (hn : Nat.ofDigitChars 10 ds n < 0x10000000000000000) :
    ds.foldlM step (d, .whole n) = some (d, .whole (Nat.ofDigitChars 10 ds n)) := by
  induction ds generalizing n with
  | nil => rfl
  | cons c ds ih =>
    obtain ⟨hc, hds⟩ := List.forall_mem_cons.mp hds
    rw [Nat.ofDigitChars_cons] at hn ⊢
    have hword : 10 * n + (c.toNat - '0'.toNat) < 0x10000000000000000 :=
      Nat.lt_of_le_of_lt (le_ofDigitChars ds _) hn
    have hstep : step (d, .whole n) c = some (d, .whole (10 * n + (c.toNat - '0'.toNat))) := by
      simp only [step, digit?_of_isDigit hc, word?, if_pos hword, Option.map_some]
    rw [List.foldlM_cons, hstep]
    exact ih hds hn

def Awaits (p : Phase) : Prop := p = .opening ∨ p = .between

theorem foldlM_repr (d : Duration) {p : Phase} (hp : Awaits p) {n : Nat}
    (hn : n < 0x10000000000000000) :
    n.repr.toList.foldlM step (d, p) = some (d, .whole n) := by
  rw [Nat.toList_repr]
  have hdigits : ∀ c ∈ Nat.toDigits 10 n, c.isDigit = true := fun c =>
    Nat.isDigit_of_mem_toDigits (by decide) (by decide)
  have hvalue : Nat.ofDigitChars 10 (Nat.toDigits 10 n) 0 = n := Nat.ofDigitChars_ten_toDigits
  obtain ⟨c, ds, hcons⟩ := List.exists_cons_of_ne_nil (Nat.toDigits_ne_nil (b := 10) (n := n))
  rw [hcons] at hdigits hvalue ⊢
  obtain ⟨hc, hds⟩ := List.forall_mem_cons.mp hdigits
  have hstep : step (d, p) c = some (d, .whole (10 * 0 + (c.toNat - '0'.toNat))) := by
    rcases hp with rfl | rfl
    · simp only [step, digit?_of_isDigit hc, Nat.mul_zero, Nat.zero_add]
    · simp only [step, digit?_of_isDigit hc, Nat.mul_zero, Nat.zero_add]
  rw [Nat.ofDigitChars_cons] at hvalue
  rw [List.foldlM_cons, hstep, Option.bind_eq_bind, Option.bind_some,
    foldlM_digits d hds (hvalue ▸ hn), hvalue]

/-! ### Terms -/

theorem apart_of_isUnitLetter {c : Char} (h : isUnitLetter c = true) :
    digit? c = none ∧ isBlank c = false := by
  simp [isUnitLetter, digit?, isBlank, Char.le_def, UInt32.le_iff_toNat_le, Char.ext_iff,
    ← UInt32.toNat_inj] at h ⊢
  omega

structure Named (u : TimeUnit) (name : String) : Prop where
  known : TimeUnit.ofName? name = some u
  letters : name.toList.all isUnitLetter = true

abbrev Amount := Nat × TimeUnit

def Says (text : String) (a : Amount) : Prop := ∃ name, Named a.2 name ∧ text = a.1.repr ++ name

/-- The second duration is the first one with these amounts added. -/
structure Adds (d : Duration) (as : List Amount) (d' : Duration) : Prop where
  secs : d'.secs = d.secs + (as.map fun a => a.1 * a.2.secs).sum
  nanos : d'.nanos = d.nanos + (as.map fun a => a.1 * a.2.nanos).sum

variable {d d' : Duration} {a : Amount} {as : List Amount} {name : String}

theorem foldlM_letters {ls : List Char} (hls : ls.all isUnitLetter = true) (n : Nat)
    (front : List Char) : ls.foldlM step (d, .unit n none front) =
      some (d, .unit n none (ls.reverse ++ front)) := by
  induction ls generalizing front with
  | nil => rfl
  | cons c ls ih =>
    obtain ⟨hletter, hls⟩ := Bool.and_eq_true_iff.mp (List.all_cons ▸ hls)
    obtain ⟨hdigit, hblank⟩ := apart_of_isUnitLetter hletter
    have hstep : step (d, .unit n none front) c = some (d, .unit n none (c :: front)) := by
      simp [step, hdigit, hblank, hletter]
    rw [List.foldlM_cons, hstep, Option.bind_eq_bind, Option.bind_some, ih hls]
    simp

theorem Named.foldlM (h : Named a.2 name) (n : Nat) :
    name.toList.foldlM step (d, .whole n) = some (d, .unit n none name.toList.reverse) := by
  have hletters := h.letters
  cases hname : name.toList with
  | nil =>
    obtain rfl : name = "" := String.toList_inj.mp hname
    cases h.known
  | cons c ls =>
    rw [hname] at hletters
    obtain ⟨hletter, hls⟩ := Bool.and_eq_true_iff.mp (List.all_cons ▸ hletters)
    obtain ⟨hdigit, hblank⟩ := apart_of_isUnitLetter hletter
    have hstep : step (d, .whole n) c = some (d, .unit n none [c]) := by
      simp [step, hdigit, hblank, hletter]
    rw [List.foldlM_cons, hstep, Option.bind_eq_bind, Option.bind_some, foldlM_letters hls]
    simp

theorem Adds.nil_eq (h : Adds d [] d') : d' = d := by
  obtain ⟨hsecs, hnanos⟩ := h
  cases d
  cases d'
  simp_all

theorem Adds.first (h : Adds d (a :: as) d') : ∃ d₁, Adds d [a] d₁ ∧ Adds d₁ as d' := by
  obtain ⟨hsecs, hnanos⟩ := h
  simp only [List.map_cons, List.sum_cons] at hsecs hnanos
  have hsecs_lt := d'.secs_lt
  have hnanos_lt := d'.nanos_lt
  refine ⟨⟨d.secs + a.1 * a.2.secs, d.nanos + a.1 * a.2.nanos, by omega, by omega⟩, ⟨?_, ?_⟩,
    ⟨?_, ?_⟩⟩
  · simp
  · simp
  · simp only [hsecs, Nat.add_assoc]
  · simp only [hnanos, Nat.add_assoc]

theorem unit_pos (u : TimeUnit) : 1 ≤ u.secs ∨ 1 ≤ u.nanos := by
  cases u <;> decide

theorem Adds.count_lt (h : Adds d [a] d') : a.1 < 0x10000000000000000 := by
  have hsecs := h.secs
  have hnanos := h.nanos
  simp only [List.map_cons, List.map_nil, List.sum_cons, List.sum_nil] at hsecs hnanos
  have hsecs_lt := d'.secs_lt
  have hnanos_lt := d'.nanos_lt
  rcases unit_pos a.2 with hpos | hpos
  · have hle : a.1 ≤ a.1 * a.2.secs := Nat.le_mul_of_pos_right _ hpos
    omega
  · have hle : a.1 ≤ a.1 * a.2.nanos := Nat.le_mul_of_pos_right _ hpos
    omega

theorem Adds.addTerm? (h : Adds d [a] d') (hname : Named a.2 name) :
    d.addTerm? a.1 none name.toList.reverse = some d' := by
  obtain ⟨secs, nanos, hsecs_lt, hnanos_lt⟩ := d'
  obtain ⟨rfl, rfl⟩ : secs = d.secs + a.1 * a.2.secs ∧ nanos = d.nanos + a.1 * a.2.nanos := by
    simpa using And.intro h.secs h.nanos
  have hsecs : a.1 * a.2.secs < 0x10000000000000000 := by omega
  have hnanos : a.1 * a.2.nanos < 0x10000000000000000 := by omega
  have hsum : d.nanos + a.1 * a.2.nanos < 0x10000000000000000 := by omega
  have hcarry : (d.nanos + a.1 * a.2.nanos) / 1000000000 = 0 := Nat.div_eq_of_lt hnanos_lt
  have hrest : (d.nanos + a.1 * a.2.nanos) % 1000000000 = d.nanos + a.1 * a.2.nanos :=
    Nat.mod_eq_of_lt hnanos_lt
  simp only [Duration.addTerm?, List.reverse_reverse, String.ofList_toList, hname.known, word?,
    if_pos hsecs, if_pos hnanos, Option.bind_eq_bind, Option.bind_some, plus?, if_pos hsum, hcarry,
    hrest, Nat.add_zero, ofParts?, dif_pos hsecs_lt, dif_pos hnanos_lt]

theorem Says.foldlM {t : String} (h : Says t a) (hadds : Adds d [a] d') {p : Phase}
    (hp : Awaits p) : ∃ name, d.addTerm? a.1 none name = some d' ∧
      t.toList.foldlM step (d, p) = some (d, .unit a.1 none name) := by
  obtain ⟨name, hname, rfl⟩ := h
  refine ⟨name.toList.reverse, hadds.addTerm? hname, ?_⟩
  rw [String.toList_append, List.foldlM_append, foldlM_repr d hp hadds.count_lt,
    Option.bind_eq_bind, Option.bind_some, hname.foldlM]

-- After a space the next term is read, with what the ones before it come to.
theorem foldlM_terms {ts : List String} (h : List.Forall₂ Says ts as) (hne : ts ≠ [])
    (hadds : Adds d as d') {p : Phase} (hp : Awaits p) :
    (" ".intercalate ts).toList.foldlM step (d, p) >>= finish = some d' := by
  induction h generalizing d p with
  | nil => exact absurd rfl hne
  | @cons t a ts as hsays hrest ih =>
    obtain ⟨d₁, hfirst, hlater⟩ := hadds.first
    obtain ⟨name, hterm, hread⟩ := hsays.foldlM hfirst hp
    cases hrest with
    | nil =>
      obtain rfl : d' = d₁ := hlater.nil_eq
      rw [String.intercalate_singleton, hread]
      exact hterm
    | @cons u b us bs hnext hmore =>
      have hspace : step (d, .unit a.1 none name) ' ' = some (d₁, .between) := by
        have hdigit : digit? ' ' = none := by decide
        have hblank : isBlank ' ' = true := by decide
        simp only [step, hdigit, hblank, if_true, hterm, Option.map_some]
      have htext : (" ".intercalate (t :: u :: us)).toList =
          t.toList ++ ' ' :: (" ".intercalate (u :: us)).toList := by
        simp [String.toList_intercalate, List.intercalate]
      rw [htext, List.foldlM_append, hread]
      simp only [Option.bind_eq_bind, Option.bind_some, List.foldlM_cons, hspace]
      exact ih (List.cons_ne_nil _ _) hlater (.inr rfl)

/-! ### The terms of a duration -/

/-- How often each unit goes into what the ones before it leave over. -/
def divideInto (size : TimeUnit → Nat) : Nat → List TimeUnit → List Amount
  | _, [] => []
  | n, u :: us => (n / size u, u) :: divideInto size (n % size u) us

-- Nothing is left over when the last unit has size one.
theorem sum_divideInto {size : TimeUnit → Nat} {n : Nat} {us : List TimeUnit}
    (hlast : us.getLast?.map size = some 1) :
    ((divideInto size n us).map fun a => a.1 * size a.2).sum = n := by
  induction us generalizing n with
  | nil => cases hlast
  | cons u us ih =>
    rw [divideInto, List.map_cons, List.sum_cons]
    cases us with
    | nil =>
      obtain hu : size u = 1 := by simpa using hlast
      simp [divideInto, hu]
    | cons v us =>
      rw [ih (by simpa using hlast)]
      exact Nat.div_add_mod' n (size u)

theorem sum_divideInto_zero {size size' : TimeUnit → Nat} {n : Nat} {us : List TimeUnit}
    (hus : ∀ u ∈ us, size' u = 0) :
    ((divideInto size n us).map fun a => a.1 * size' a.2).sum = 0 := by
  induction us generalizing n with
  | nil => rfl
  | cons u us ih =>
    obtain ⟨hu, hus⟩ := List.forall_mem_cons.mp hus
    rw [divideInto, List.map_cons, List.sum_cons, hu, Nat.mul_zero, ih hus]

def amounts (d : Duration) : List Amount :=
  divideInto TimeUnit.secs d.secs [.year, .month, .day, .hour, .minute, .second] ++
  divideInto TimeUnit.nanos d.nanos [.millisecond, .microsecond, .nanosecond]

theorem adds_amounts (d : Duration) : Adds zero d.amounts d := by
  constructor
  · rw [amounts, List.map_append, List.sum_append, sum_divideInto (by decide),
      sum_divideInto_zero (by decide)]
    exact (Nat.zero_add d.secs).symm
  · rw [amounts, List.map_append, List.sum_append, sum_divideInto_zero (by decide),
      sum_divideInto (by decide), Nat.zero_add]
    exact (Nat.zero_add d.nanos).symm

theorem amounts_eq (d : Duration) :
    let inYear := d.secs % 31557600
    let inMonth := inYear % 2630016
    let inDay := inMonth % 86400
    d.amounts = [(d.secs / 31557600, .year)] ++ [(inYear / 2630016, .month)] ++
      [(inMonth / 86400, .day)] ++ [(inDay / 3600, .hour)] ++ [(inDay % 3600 / 60, .minute)] ++
      [(inDay % 60, .second)] ++ [(d.nanos / 1000000, .millisecond)] ++
      [(d.nanos / 1000 % 1000, .microsecond)] ++ [(d.nanos % 1000, .nanosecond)] := by
  have hsecond (n : Nat) : n % 3600 % 60 = n % 60 := by omega
  have hmicro (n : Nat) : n % 1000000 / 1000 = n / 1000 % 1000 := by omega
  have hnano (n : Nat) : n % 1000000 % 1000 = n % 1000 := by omega
  simp only [amounts, divideInto, TimeUnit.secs, TimeUnit.nanos, List.cons_append, List.nil_append,
    Nat.div_one, hsecond, hmicro, hnano]

theorem Adds.nonzero (h : Adds d as d') : Adds d (as.filter (·.1 ≠ 0)) d' := by
  have hsum (size : TimeUnit → Nat) :
      ((as.filter (·.1 ≠ 0)).map fun a => a.1 * size a.2).sum =
        (as.map fun a => a.1 * size a.2).sum := by
    clear h
    induction as with
    | nil => rfl
    | cons a as ih =>
      by_cases ha : a.1 = 0
      · simp only [List.filter_cons, ha, ne_eq, not_true_eq_false, decide_false, Bool.false_eq_true,
          if_false, ih, List.map_cons, List.sum_cons, Nat.zero_mul, Nat.zero_add]
      · simp only [List.filter_cons, ha, ne_eq, not_false_eq_true, decide_true, if_true, ih,
          List.map_cons, List.sum_cons]
  exact ⟨by rw [hsum]; exact h.secs, by rw [hsum]; exact h.nanos⟩

theorem term_reads {u : TimeUnit} {n : Nat} (h : Named u name) :
    List.Forall₂ Says (term name n) ([(n, u)].filter (·.1 ≠ 0)) := by
  by_cases hn : n = 0
  · simp [term, hn]
  · simp only [term, hn, ne_eq, not_false_eq_true, decide_true, List.filter_cons_of_pos,
      List.filter_nil, if_false]
    exact .cons ⟨name, h, rfl⟩ .nil

theorem longTerm_reads {u : TimeUnit} {n : Nat} (hone : Named u name)
    (hmany : Named u (name ++ "s")) :
    List.Forall₂ Says (longTerm name n) ([(n, u)].filter (·.1 ≠ 0)) := by
  unfold longTerm
  split
  · exact term_reads hmany
  · exact term_reads hone

theorem terms_say (d : Duration) : List.Forall₂ Says d.terms (d.amounts.filter (·.1 ≠ 0)) := by
  have hyear : Named .year "year" := ⟨by decide +kernel, by decide +kernel⟩
  have hyears : Named .year ("year" ++ "s") := ⟨by decide +kernel, by decide +kernel⟩
  have hmonth : Named .month "month" := ⟨by decide +kernel, by decide +kernel⟩
  have hmonths : Named .month ("month" ++ "s") := ⟨by decide +kernel, by decide +kernel⟩
  have hday : Named .day "day" := ⟨by decide +kernel, by decide +kernel⟩
  have hdays : Named .day ("day" ++ "s") := ⟨by decide +kernel, by decide +kernel⟩
  have hhour : Named .hour "h" := ⟨by decide +kernel, by decide +kernel⟩
  have hminute : Named .minute "m" := ⟨by decide +kernel, by decide +kernel⟩
  have hsecond : Named .second "s" := ⟨by decide +kernel, by decide +kernel⟩
  have hmilli : Named .millisecond "ms" := ⟨by decide +kernel, by decide +kernel⟩
  have hmicro : Named .microsecond "us" := ⟨by decide +kernel, by decide +kernel⟩
  have hnano : Named .nanosecond "ns" := ⟨by decide +kernel, by decide +kernel⟩
  rw [amounts_eq, terms]
  simp only [List.filter_append]
  refine List.rel_append ?_ (term_reads hnano)
  refine List.rel_append ?_ (term_reads hmicro)
  refine List.rel_append ?_ (term_reads hmilli)
  refine List.rel_append ?_ (term_reads hsecond)
  refine List.rel_append ?_ (term_reads hminute)
  refine List.rel_append ?_ (term_reads hhour)
  refine List.rel_append ?_ (longTerm_reads hday hdays)
  exact List.rel_append (longTerm_reads hyear hyears) (longTerm_reads hmonth hmonths)

theorem foldlM_write (d : Duration) :
    d.write.toList.foldlM step (zero, .opening) >>= finish = some d := by
  unfold write
  split
  case isTrue hzero =>
    obtain rfl : d = zero := by
      cases d
      simp_all [isZero, zero]
    decide +kernel
  case isFalse hzero =>
    have hadds : Adds zero (d.amounts.filter (·.1 ≠ 0)) d := d.adds_amounts.nonzero
    have hsay := d.terms_say
    refine foldlM_terms hsay (fun hnil => hzero ?_) hadds (.inl rfl)
    rw [hnil] at hsay
    rw [List.forall₂_nil_left_iff.mp hsay] at hadds
    rw [hadds.nil_eq]
    rfl

theorem read?_write (d : Duration) : read? d.write = some d := by
  have hread := d.foldlM_write
  have hzero : "0".toList.foldlM step (zero, .opening) >>= finish = none := by decide +kernel
  unfold read?
  split
  case isTrue hlone =>
    rw [hlone, hzero] at hread
    cases hread
  case isFalse => exact hread

end LogRelay.Duration
