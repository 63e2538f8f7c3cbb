import Mathlib.Data.List.TakeWhile
import LogRelay.Json.Reader

/-! The texts of a JSON value, as a grammar. Whatever white space and whichever spelling of a number
a text of it has, the reader finds that value in it and stops at its end, unless it is nested too
deep. -/

namespace LogRelay

namespace Quoted

inductive Spelling : Bytes → Prop
  | nil : Spelling []
  | plain {b : UInt8} {bs : Bytes} (hquote : b ≠ 0x22) (hslash : b ≠ 0x5C) (hge : ¬b < 0x20)
      (h : Spelling bs) : Spelling (b :: bs)
  | letter {l : UInt8} {bs : Bytes} (hl : (letter? l).isSome = true) (h : Spelling bs) :
      Spelling (0x5C :: l :: bs)
  | unit {a b c d : UInt8} {bs : Bytes} (hunit : (unit? a b c d).isSome = true)
      (h : Spelling bs) : Spelling (0x5C :: 0x75 :: a :: b :: c :: d :: bs)

/-- A spelling and the bytes that it stands for: each by itself, or by a letter, or those of one
character by its number, in one unit or a pair. -/
inductive Spells : Bytes → Bytes → Prop
  | nil : Spells [] []
  | plain {b : UInt8} {bs text : Bytes} (hquote : b ≠ 0x22) (hslash : b ≠ 0x5C) (hge : ¬b < 0x20)
      (h : Spells bs text) : Spells (b :: bs) (b :: text)
  | letter {l b : UInt8} {bs text : Bytes} (hl : letter? l = some b) (h : Spells bs text) :
      Spells (0x5C :: l :: bs) (b :: text)
  | unit {a b c d : UInt8} {n : Nat} {bs text : Bytes} (hunit : unit? a b c d = some n)
      (hlow : isLowSurrogate n = false) (hhigh : isHighSurrogate n = false) (h : Spells bs text) :
      Spells (0x5C :: 0x75 :: a :: b :: c :: d :: bs) (scalarBytes n ++ text)
  | pair {a b c d a' b' c' d' : UInt8} {high low : Nat} {bs text : Bytes}
      (hunit : unit? a b c d = some high) (hhigh : isHighSurrogate high = true)
      (hunit' : unit? a' b' c' d' = some low) (hlow : isLowSurrogate low = true)
      (h : Spells bs text) :
      Spells (0x5C :: 0x75 :: a :: b :: c :: d :: 0x5C :: 0x75 :: a' :: b' :: c' :: d' :: bs)
        (scalarBytes (0x10000 + 0x400 * (high - 0xD800) + (low - 0xDC00)) ++ text)

theorem Spells.spelling {bs text : Bytes} (h : Spells bs text) : Spelling bs := by
  induction h with
  | nil => exact .nil
  | plain hquote hslash hge _ ih => exact .plain hquote hslash hge ih
  | letter hl _ ih => exact .letter (by simp [hl]) ih
  | unit hunit _ _ _ ih => exact .unit (by simp [hunit]) ih
  | pair hunit _ hunit' _ _ ih => exact .unit (by simp [hunit]) (.unit (by simp [hunit']) ih)

theorem letter?_unit : letter? 0x75 = none := by decide

theorem closeFrom_spelling {bs : Bytes} (h : Spelling bs) (acc rest : Bytes) :
    closeFrom acc (bs ++ 0x22 :: rest) = some (acc.reverse ++ bs, rest) := by
  induction h generalizing acc with
  | nil => simp [closeFrom]
  | @plain b bs hquote hslash hge _ ih =>
    rw [List.cons_append, closeFrom]
    · simp [hslash, hge, ih]
    · exact hquote
    · intro a b c d r h
      exact absurd h hslash
    · intro b r h
      exact absurd h hslash
  | @letter l bs hl _ ih =>
    rw [List.cons_append, List.cons_append, closeFrom]
    · simp [hl, ih]
    · rintro a b c d r rfl
      simp [letter?_unit] at hl
  | unit hunit _ ih => simp [closeFrom, hunit, ih]

theorem close?_spelling {bs : Bytes} (h : Spelling bs) (rest : Bytes) :
    close? (bs ++ 0x22 :: rest) = some (bs, rest) := closeFrom_spelling h [] rest

theorem spelling_of_closeFrom {acc bs spelling rest : Bytes}
    (h : closeFrom acc bs = some (spelling, rest)) :
    ∃ bs', spelling = acc.reverse ++ bs' ∧ bs = bs' ++ 0x22 :: rest ∧ Spelling bs' := by
  fun_induction closeFrom acc bs with
  | case1 | case4 | case6 | case7 => cases h
  | case2 acc =>
    cases h
    exact ⟨[], (List.append_nil _).symm, rfl, .nil⟩
  | case3 acc a b c d more hunit ih =>
    obtain ⟨bs', rfl, rfl, hbs⟩ := ih h
    exact ⟨_, by simp, by simp, .unit hunit hbs⟩
  | case5 acc l more _ hl ih =>
    obtain ⟨bs', rfl, rfl, hbs⟩ := ih h
    exact ⟨_, by simp, by simp, .letter hl hbs⟩
  | case8 acc b more hquote _ _ hplain ih =>
    obtain ⟨bs', rfl, rfl, hbs⟩ := ih h
    simp only [Bool.or_eq_true, decide_eq_true_eq, not_or] at hplain
    exact ⟨_, by simp, by simp, .plain hquote hplain.1 hplain.2 hbs⟩

-- The string ends at the first quote that no spelling can hold.
theorem close?_eq_some_iff {bs spelling rest : Bytes} :
    close? bs = some (spelling, rest) ↔ Spelling spelling ∧ bs = spelling ++ 0x22 :: rest := by
  constructor
  · intro h
    obtain ⟨bs', rfl, hbs, hspelling⟩ := spelling_of_closeFrom h
    exact ⟨hspelling, hbs⟩
  · rintro ⟨h, rfl⟩
    exact close?_spelling h rest

theorem spelling_iff {bs : Bytes} : Spelling bs ↔ close? (bs ++ [0x22]) = some (bs, []) := by
  rw [close?_eq_some_iff, and_iff_left rfl]

instance : DecidablePred Spelling := fun _ => decidable_of_iff _ spelling_iff.symm

theorem unescapeFrom_of_spells {bs text : Bytes} (h : Spells bs text) (acc : Bytes) :
    unescapeFrom acc bs = some (acc.reverse ++ text) := by
  induction h generalizing acc with
  | nil => simp [unescapeFrom]
  | plain hquote hslash hge _ ih =>
    rw [unescapeFrom]
    · simp [hslash, ih]
    · intro a b c d r h
      exact absurd h hslash
    · intro b r h
      exact absurd h hslash
  | letter hl _ ih =>
    rw [unescapeFrom]
    · simp [hl, ih]
    · rintro a b c d r rfl
      simp [letter?_unit] at hl
  | unit hunit hlow hhigh _ ih =>
    rw [unescapeFrom]
    simp [hunit, hlow, hhigh, ih]
  | @pair _ _ _ _ _ _ _ _ high _ _ _ hunit hhigh hunit' hlow _ ih =>
    have hnot : isLowSurrogate high = false := by
      simp only [isHighSurrogate, isLowSurrogate, Bool.and_eq_true, decide_eq_true_eq,
        Bool.and_eq_false_iff, decide_eq_false_iff_not] at hhigh ⊢
      omega
    rw [unescapeFrom]
    simp [hunit, hnot, hhigh, hunit', hlow, ih]

theorem spells_of_unescapeFrom {acc bs bytes : Bytes} (h : unescapeFrom acc bs = some bytes)
    (hspelling : Spelling bs) : ∃ text, bytes = acc.reverse ++ text ∧ Spells bs text := by
  fun_induction unescapeFrom acc bs with
  | case1 acc =>
    cases h
    exact ⟨[], (List.append_nil _).symm, .nil⟩
  | case2 | case3 | case4 | case6 | case7 | case9 | case11 => cases h
  | case5 acc _ _ _ _ high hunit _ hhigh _ _ _ _ rest low hunit' hlow n ih =>
    cases hspelling with
    | plain _ hslash => exact absurd rfl hslash
    | letter hl => simp [letter?_unit] at hl
    | unit _ hrest =>
      cases hrest with
      | plain _ hslash => exact absurd rfl hslash
      | letter hl => simp [letter?_unit] at hl
      | unit _ hrest =>
        obtain ⟨text, hbytes, htext⟩ := ih h hrest
        refine ⟨_, ?_, .pair hunit hhigh hunit' hlow htext⟩
        simp [hbytes, n]
  | case8 acc _ _ _ _ rest n hunit hlow hhigh ih =>
    cases hspelling with
    | plain _ hslash => exact absurd rfl hslash
    | letter hl => simp [letter?_unit] at hl
    | unit _ hrest =>
      obtain ⟨text, rfl, htext⟩ := ih h hrest
      exact ⟨scalarBytes n ++ text, by simp,
        .unit hunit (Bool.not_eq_true _ ▸ hlow) (Bool.not_eq_true _ ▸ hhigh) htext⟩
  | case10 acc l rest hshape b hl ih =>
    cases hspelling with
    | plain _ hslash => exact absurd rfl hslash
    | letter _ hrest =>
      obtain ⟨text, rfl, htext⟩ := ih h hrest
      exact ⟨b :: text, by simp, .letter hl htext⟩
    | unit => exact absurd rfl (hshape _ _ _ _ _ rfl)
  | case12 acc b rest hshape hshape' hslash ih =>
    cases hspelling with
    | plain hquote _ hge hrest =>
      obtain ⟨text, rfl, htext⟩ := ih h hrest
      exact ⟨b :: text, by simp, .plain hquote hslash hge htext⟩
    | letter => exact absurd rfl hslash
    | unit => exact absurd rfl hslash

theorem unescape_eq_some_iff {bs text : Bytes} (h : Spelling bs) :
    unescape bs = some text ↔ Spells bs text := by
  constructor
  · intro hread
    obtain ⟨text', rfl, htext⟩ := spells_of_unescapeFrom hread h
    exact htext
  · exact fun htext => unescapeFrom_of_spells htext []

instance (bs text : Bytes) : Decidable (Spells bs text) :=
  decidable_of_iff (Spelling bs ∧ unescape bs = some text)
    ⟨fun h => (unescape_eq_some_iff h.1).mp h.2,
      fun h => ⟨h.spelling, (unescape_eq_some_iff h.spelling).mpr h⟩⟩

theorem decode?_eq_some_iff {bs : Bytes} {s : String} (h : Spelling bs) :
    decode? bs = some s ↔ Spells bs (Utf8.encode s) := by
  rw [← unescape_eq_some_iff h]
  refine Option.bind_eq_some_iff.trans ⟨?_, ?_⟩
  · rintro ⟨text, htext, hs⟩
    rwa [Utf8.encode_of_decode? hs]
  · exact fun htext => ⟨_, htext, Utf8.decode?_encode s⟩

end Quoted

namespace Numeral

/-! ### Numbers -/

def Digits (ds : Bytes) : Prop := ds ≠ [] ∧ ∀ b ∈ ds, isDigit b = true

instance (ds : Bytes) : Decidable (Digits ds) :=
  decidable_of_iff ((!ds.isEmpty && ds.all isDigit) = true) (by simp [Digits])

def Whole (ds : Bytes) : Prop := Digits ds ∧ (ds.head? = some 0x30 → ds.length = 1)

instance (ds : Bytes) : Decidable (Whole ds) :=
  decidable_of_iff (Digits ds ∧ (ds.head? != some 0x30 || ds.length == 1) = true)
    (by simp [Whole, imp_iff_not_or])

inductive SpellsFraction : Bytes → Bytes → Prop
  | none : SpellsFraction [] []
  | point {ds : Bytes} (h : Digits ds) : SpellsFraction (0x2E :: ds) ds

inductive SpellsExponent : Bytes → Option (Bool × Bytes) → Prop
  | none : SpellsExponent [] none
  | unsigned {e : UInt8} {ds : Bytes} (he : e = 0x65 ∨ e = 0x45) (h : Digits ds) :
      SpellsExponent (e :: ds) (some (false, ds))
  | plus {e : UInt8} {ds : Bytes} (he : e = 0x65 ∨ e = 0x45) (h : Digits ds) :
      SpellsExponent (e :: 0x2B :: ds) (some (false, ds))
  | minus {e : UInt8} {ds : Bytes} (he : e = 0x65 ∨ e = 0x45) (h : Digits ds) :
      SpellsExponent (e :: 0x2D :: ds) (some (true, ds))

inductive Spells : Bytes → Numeral → Prop
  | positive {whole fs fraction es : Bytes} {exponent : Option (Bool × Bytes)}
      (hwhole : Whole whole) (hfraction : SpellsFraction fs fraction)
      (hexponent : SpellsExponent es exponent) :
      Spells (whole ++ (fs ++ es)) ⟨false, whole, fraction, exponent⟩
  | negative {whole fs fraction es : Bytes} {exponent : Option (Bool × Bytes)}
      (hwhole : Whole whole) (hfraction : SpellsFraction fs fraction)
      (hexponent : SpellsExponent es exponent) :
      Spells (0x2D :: (whole ++ (fs ++ es))) ⟨true, whole, fraction, exponent⟩

def prolongs (b : UInt8) : Bool := isDigit b || b == 0x2E || b == 0x65 || b == 0x45

/-- What follows does not prolong a numeral. -/
def Delimits (rest : Bytes) : Prop := ∀ b ∈ rest.head?, prolongs b = false

theorem prolongs_eq_false {b : UInt8} (h : prolongs b = false) :
    isDigit b = false ∧ b ≠ 0x2E ∧ b ≠ 0x65 ∧ b ≠ 0x45 := by
  simpa [prolongs, and_assoc] using h

theorem Digits.head {ds : Bytes} (h : Digits ds) : ∃ b bs, ds = b :: bs ∧ isDigit b = true := by
  obtain ⟨b, bs, rfl⟩ := List.exists_cons_of_ne_nil h.1
  exact ⟨b, bs, rfl, h.2 b List.mem_cons_self⟩

theorem digits?_append {ds rest : Bytes} (h : Digits ds)
    (hrest : ∀ b ∈ rest.head?, isDigit b = false) : digits? (ds ++ rest) = some (ds, rest) := by
  have hstop : rest.takeWhile isDigit = [] ∧ rest.dropWhile isDigit = rest := by
    cases rest with
    | nil => exact ⟨rfl, rfl⟩
    | cons b rest => simp [hrest b rfl]
  unfold digits?
  rw [List.takeWhile_append_of_pos h.2, List.dropWhile_append_of_pos h.2, hstop.1, hstop.2]
  simp [h.1]

theorem whole?_append {ds rest : Bytes} (h : Whole ds)
    (hrest : ∀ b ∈ rest.head?, isDigit b = false) : whole? (ds ++ rest) = some (ds, rest) := by
  unfold whole?
  rw [digits?_append h.1 hrest]
  by_cases hzero : ds.head? = some 0x30
  · simp [h.2 hzero]
  · simp [hzero]

section Delimited

variable {rest : Bytes} (hrest : Delimits rest)

include hrest

theorem exponent?_append {es : Bytes} {exponent : Option (Bool × Bytes)}
    (h : SpellsExponent es exponent) : exponent? (es ++ rest) = some (exponent, rest) := by
  have hstop : ∀ b ∈ rest.head?, isDigit b = false := fun b hb =>
    (prolongs_eq_false (hrest b hb)).1
  cases h with
  | none =>
    cases rest with
    | nil => rfl
    | cons b rest =>
      obtain ⟨-, -, hlower, hupper⟩ := prolongs_eq_false (hrest b rfl)
      simp [exponent?, hlower, hupper]
  | unsigned he h =>
    obtain ⟨b, bs, rfl, hb⟩ := h.head
    have hread := digits?_append h hstop
    have hminus : b ≠ 0x2D := by rintro rfl; exact absurd hb (by decide)
    have hplus : b ≠ 0x2B := by rintro rfl; exact absurd hb (by decide)
    simp only [List.cons_append] at hread ⊢
    simp [exponent?, he, hread, hminus, hplus]
  | plus he h => simp [exponent?, he, digits?_append h hstop]
  | minus he h => simp [exponent?, he, digits?_append h hstop]

theorem head_exponent {es : Bytes} {exponent : Option (Bool × Bytes)}
    (h : SpellsExponent es exponent) :
    ∀ b ∈ (es ++ rest).head?, isDigit b = false ∧ b ≠ 0x2E := by
  cases h with
  | none => exact fun b hb => (prolongs_eq_false (hrest b hb)).imp_right And.left
  | unsigned he | plus he | minus he =>
    intro b hb
    obtain rfl := Option.some.inj hb
    rcases he with rfl | rfl <;> decide

theorem unsigned?_append {whole fs fraction es : Bytes} {exponent : Option (Bool × Bytes)}
    (hwhole : Whole whole) (hfraction : SpellsFraction fs fraction)
    (hexponent : SpellsExponent es exponent) (negative : Bool) :
    unsigned? negative (whole ++ (fs ++ es) ++ rest) =
      some (⟨negative, whole, fraction, exponent⟩, rest) := by
  have hhead := head_exponent hrest hexponent
  have hdigit : ∀ b ∈ (fs ++ (es ++ rest)).head?, isDigit b = false := by
    cases hfraction with
    | none => exact fun b hb => (hhead b hb).1
    | point =>
      intro b hb
      obtain rfl := Option.some.inj hb
      decide
  have hread : fraction? (fs ++ (es ++ rest)) = some (fraction, es ++ rest) := by
    cases hfraction with
    | point h => exact digits?_append h fun b hb => (hhead b hb).1
    | none =>
      rw [List.nil_append]
      unfold fraction?
      split
      · exact absurd rfl (hhead _ (by simp [*])).2
      · rfl
  unfold unsigned?
  rw [List.append_assoc, List.append_assoc, whole?_append hwhole hdigit]
  simp [hread, exponent?_append hrest hexponent]

theorem read?_append {bs : Bytes} {n : Numeral} (h : Spells bs n) :
    read? (bs ++ rest) = some (n, rest) := by
  cases h with
  | negative hwhole hfraction hexponent =>
    exact unsigned?_append hrest hwhole hfraction hexponent true
  | @positive whole fs fraction es exponent hwhole hfraction hexponent =>
    rw [← unsigned?_append hrest hwhole hfraction hexponent false, read?]
    -- A digit is not a minus sign.
    intro rest' heq
    obtain ⟨b, bs, rfl, hb⟩ := hwhole.1.head
    rw [List.cons_append, List.cons_append, List.cons.injEq] at heq
    rw [heq.1] at hb
    exact absurd hb (by decide)

end Delimited

theorem Spells.head {bs : Bytes} {n : Numeral} (h : Spells bs n) :
    ∃ b bs', bs = b :: bs' ∧ (b = 0x2D ∨ isDigit b = true) := by
  cases h with
  | negative => exact ⟨_, _, rfl, .inl rfl⟩
  | positive hwhole =>
    obtain ⟨b, bs, rfl, hb⟩ := hwhole.1.head
    exact ⟨b, _, rfl, .inr hb⟩

end Numeral

namespace Json

open Numeral (Delimits prolongs isDigit)

/-! ### White space -/

def Space (bs : Bytes) : Prop := ∀ b ∈ bs, isSpace b = true

instance (bs : Bytes) : Decidable (Space bs) :=
  decidable_of_iff (bs.all isSpace = true) List.all_eq_true

theorem skipSpace_space {bs : Bytes} (h : Space bs) (rest : Bytes) :
    skipSpace (bs ++ rest) = skipSpace rest := List.dropWhile_append_of_pos h

theorem skipSpace_eq_nil {bs : Bytes} : skipSpace bs = [] ↔ Space bs := List.dropWhile_eq_nil_iff

theorem skipSpace_cons {b : UInt8} (h : isSpace b = false) (bs : Bytes) :
    skipSpace (b :: bs) = b :: bs := List.dropWhile_cons_of_neg (by simp [h])

def opens (b : UInt8) : Bool := !isSpace b && b != 0x5D && b != 0x7D

theorem skipSpace_opens {b : UInt8} (h : opens b = true) (bs : Bytes) :
    skipSpace (b :: bs) = b :: bs := by
  simp only [opens, Bool.and_eq_true, Bool.not_eq_true'] at h
  exact skipSpace_cons h.1.1 bs

theorem isSpace_not_prolongs {b : UInt8} (h : isSpace b = true) : prolongs b = false := by
  simp only [isSpace, Bool.or_eq_true, beq_iff_eq] at h
  rcases h with ((rfl | rfl) | rfl) | rfl <;> decide

theorem delimits_cons {b : UInt8} (h : prolongs b = false) (rest : Bytes) :
    Delimits (b :: rest) := by
  intro b' hb'
  rwa [← Option.some.inj hb']

theorem delimits_space {bs : Bytes} (h : Space bs) {b : UInt8} (hb : prolongs b = false)
    (rest : Bytes) : Delimits (bs ++ b :: rest) := by
  cases bs with
  | nil => exact delimits_cons hb rest
  | cons b' bs => exact delimits_cons (isSpace_not_prolongs (h b' List.mem_cons_self)) _

/-! ### The grammar -/

section Grammar

variable {α : Type}

inductive Series (Item : Bytes → α → Prop) : Bytes → List α → Prop
  | last {bs after : Bytes} {a : α} (h : Item bs a) (hafter : Space after) :
      Series Item (bs ++ after) [a]
  | more {bs after before rest : Bytes} {a : α} {as : List α} (h : Item bs a)
      (hafter : Space after) (hbefore : Space before) (hrest : Series Item rest as) :
      Series Item (bs ++ (after ++ 0x2C :: (before ++ rest))) (a :: as)

inductive Enclosed (Item : Bytes → α → Prop) : Bytes → List α → Prop
  | none {before : Bytes} (hbefore : Space before) : Enclosed Item before []
  | some {before bs : Bytes} {as : List α} (hbefore : Space before) (h : Series Item bs as) :
      Enclosed Item (before ++ bs) as

inductive Member (Value : Bytes → Json → Prop) : Bytes → Bytes × Json → Prop
  | mk {key before after bs : Bytes} {v : Json} (hkey : Quoted.Spelling key)
      (hbefore : Space before) (hafter : Space after) (h : Value bs v) :
      Member Value (quoted key ++ (before ++ 0x3A :: (after ++ bs))) (key, v)

inductive Spells : Bytes → Json → Prop
  | null : Spells [0x6E, 0x75, 0x6C, 0x6C] null
  | true : Spells [0x74, 0x72, 0x75, 0x65] (bool Bool.true)
  | false : Spells [0x66, 0x61, 0x6C, 0x73, 0x65] (bool Bool.false)
  | number {bs : Bytes} {n : Numeral} (h : Numeral.Spells bs n) : Spells bs (number n)
  | string {spelling : Bytes} (h : Quoted.Spelling spelling) :
      Spells (quoted spelling) (string spelling)
  | array {bs : Bytes} {items : List Json} (h : Enclosed Spells bs items) :
      Spells (0x5B :: (bs ++ [0x5D])) (array items)
  | object {bs : Bytes} {members : List (Bytes × Json)} (h : Enclosed (Member Spells) bs members) :
      Spells (0x7B :: (bs ++ [0x7D])) (object members)

theorem Series.spelled {Item : Bytes → α → Prop} {bs : Bytes} {as : List α}
    (h : Series Item bs as) : ∀ a ∈ as, ∃ bs, Item bs a := by
  induction h with
  | last h => exact List.forall_mem_singleton.mpr ⟨_, h⟩
  | more h _ _ _ ih => exact List.forall_mem_cons.mpr ⟨⟨_, h⟩, ih⟩

theorem Enclosed.spelled {Item : Bytes → α → Prop} {bs : Bytes} {as : List α}
    (h : Enclosed Item bs as) : ∀ a ∈ as, ∃ bs, Item bs a := by
  cases h with
  | none => exact List.forall_mem_nil _
  | some _ h => exact h.spelled

theorem Spells.member_spelled {bs : Bytes} {members : List (Bytes × Json)}
    (h : Spells bs (.object members)) :
    ∀ m ∈ members, Quoted.Spelling m.1 ∧ ∃ bs, Spells bs m.2 := by
  cases h with
  | object h =>
    intro m hm
    obtain ⟨bs, hbs⟩ := h.spelled m hm
    cases hbs with
    | mk hkey _ _ h => exact ⟨hkey, _, h⟩

end Grammar

def nests : Nat → Json → Bool
  | 0, array _ => false
  | 0, object _ => false
  | depth + 1, array items => items.all (nests depth)
  | depth + 1, object members => members.all fun m => nests depth m.2
  | _, _ => true

/-! ### What the reader makes of it -/

section Items

variable {α : Type} {Item : Bytes → α → Prop} {item : Bytes → Option (α × Bytes)} {ok : α → Bool}
  {close : UInt8}

/-- The item is read from its spelling, and nothing of what follows with it; if it is not one that
the reader takes, the reader stops. -/
structure Scans (item : Bytes → Option (α × Bytes)) (ok : Bool) (bs : Bytes) (a : α) : Prop where
  starts : ∃ b bs', bs = b :: bs' ∧ opens b = true
  back : ∀ rest, Delimits rest → item (bs ++ rest) = if ok then some (a, rest) else none

theorem Scans.skipSpace {taken : Bool} {bs : Bytes} {a : α} (h : Scans item taken bs a)
    (rest : Bytes) : skipSpace (bs ++ rest) = bs ++ rest := by
  obtain ⟨b, bs, rfl, hb⟩ := h.starts
  exact skipSpace_opens hb _

theorem Series.length_le {bs : Bytes} {as : List α} (h : Series Item bs as) :
    as.length ≤ bs.length + 1 := by
  induction h with
  | last => simp
  | more _ _ _ _ ih =>
    simp only [List.length_append, List.length_cons] at ih ⊢
    omega

variable (hscan : ∀ {bs a}, Item bs a → Scans item (ok a) bs a)
  (hclose : close = 0x5D ∨ close = 0x7D)

include hscan in
theorem Series.starts {bs : Bytes} {as : List α} (h : Series Item bs as) :
    ∃ b bs', bs = b :: bs' ∧ opens b = true := by
  cases h with
  | last h | more h =>
    obtain ⟨b, bs, rfl, hb⟩ := (hscan h).starts
    exact ⟨b, _, rfl, hb⟩

include hclose

theorem close_neutral : isSpace close = false ∧ prolongs close = false ∧ close ≠ 0x2C := by
  rcases hclose with rfl | rfl <;> decide

include hscan

theorem series_spells {bs : Bytes} {as : List α} (h : Series Item bs as) {fuel : Nat}
    (hfuel : as.length ≤ fuel) (acc : List α) (rest : Bytes) :
    series close item fuel acc (bs ++ close :: rest) =
      if as.all ok then some (acc.reverse ++ as, rest) else none := by
  obtain ⟨hspace, hprolongs, hcomma⟩ := close_neutral hclose
  induction h generalizing fuel acc with
  | @last bs after a h hafter =>
    obtain ⟨fuel, rfl⟩ := Nat.exists_eq_add_of_le' hfuel
    rw [List.append_assoc, List.length_singleton, series,
      (hscan h).back _ (delimits_space hafter hprolongs rest)]
    cases hok : ok a with
    | false => simp [hok]
    | true => simp [hok, skipSpace_space hafter, skipSpace_cons hspace]
  | @more bs after before text a as h hafter hbefore hseries ih =>
    obtain ⟨fuel, rfl⟩ := Nat.exists_eq_add_of_le' hfuel
    have hnext : skipSpace (before ++ (text ++ close :: rest)) = text ++ close :: rest := by
      obtain ⟨b, bs', rfl, hb⟩ := hseries.starts hscan
      rw [skipSpace_space hbefore]
      exact skipSpace_opens hb _
    have hback := (hscan h).back (after ++ 0x2C :: (before ++ (text ++ close :: rest)))
      (delimits_space hafter (by decide) _)
    have hrest := ih (Nat.le_add_left as.length fuel) (a :: acc)
    simp only [List.append_assoc, List.cons_append, List.length_cons, ← Nat.add_assoc]
    rw [series, hback]
    cases hok : ok a with
    | false => simp [hok]
    | true =>
      have hopens : opens 0x2C = true := by decide
      simp only [if_true, skipSpace_space hafter, skipSpace_opens hopens, hcomma.symm, if_false,
        hnext, hrest, List.all_cons, hok, Bool.true_and]
      simp

theorem enclosed_spells {bs : Bytes} {as : List α} (h : Enclosed Item bs as) (rest : Bytes) :
    enclosed close item (bs ++ close :: rest) = if as.all ok then some (as, rest) else none := by
  cases h with
  | none hbefore =>
    rw [enclosed, skipSpace_space hbefore, skipSpace_cons (close_neutral hclose).1]
    simp
  | @some before bs as hbefore h =>
    have hlength : as.length ≤ (before ++ (bs ++ close :: rest)).length := by
      have hle := h.length_le
      simp only [List.length_append, List.length_cons]
      omega
    have hseries := series_spells hscan hclose h hlength [] rest
    obtain ⟨b, bs', rfl, hb⟩ := h.starts hscan
    have hne : b ≠ close := by
      simp only [opens, Bool.and_eq_true, bne_iff_ne] at hb
      rcases hclose with rfl | rfl
      · exact hb.1.2
      · exact hb.2
    rw [List.append_assoc, enclosed, skipSpace_space hbefore, List.cons_append, skipSpace_opens hb]
    simp only [hne, if_false]
    exact hseries

end Items

/-! ### Values -/

section Values

variable {depth : Nat}

theorem value_number {b : UInt8} (h : b = 0x2D ∨ isDigit b = true) (bs : Bytes) :
    value depth (b :: bs) = (Numeral.read? (b :: bs)).map fun (n, rest) => (number n, rest) := by
  have hne : b ≠ 0x6E ∧ b ≠ 0x74 ∧ b ≠ 0x66 ∧ b ≠ 0x22 ∧ b ≠ 0x5B ∧ b ≠ 0x7B := by
    refine ⟨?_, ?_, ?_, ?_, ?_, ?_⟩ <;>
      (rintro rfl; exact absurd h (by decide))
  obtain ⟨hn, ht, hf, hquote, hbracket, hbrace⟩ := hne
  simp [value, hn, ht, hf, hquote, hbracket, hbrace]

theorem opens_number {b : UInt8} (h : b = 0x2D ∨ isDigit b = true) : opens b = true := by
  have hne : ∀ c : UInt8, isDigit c = false → c ≠ 0x2D → b ≠ c := by
    rintro c hc hminus rfl
    rcases h with rfl | h
    · exact hminus rfl
    · rw [h] at hc
      exact Bool.noConfusion hc
  have hspace : isSpace b = false := by
    simp only [isSpace, Bool.or_eq_false_iff, beq_eq_false_iff_ne]
    exact ⟨⟨⟨hne _ (by decide) (by decide), hne _ (by decide) (by decide)⟩,
      hne _ (by decide) (by decide)⟩, hne _ (by decide) (by decide)⟩
  simp only [opens, hspace, Bool.not_false, Bool.true_and, Bool.and_eq_true, bne_iff_ne]
  exact ⟨hne _ (by decide) (by decide), hne _ (by decide) (by decide)⟩

theorem value_zero_bracket (bs : Bytes) : value 0 (0x5B :: bs) = none := by
  simp [value, Numeral.read?, Numeral.unsigned?, Numeral.whole?, Numeral.digits?, isDigit]

theorem value_zero_brace (bs : Bytes) : value 0 (0x7B :: bs) = none := by
  simp [value, Numeral.read?, Numeral.unsigned?, Numeral.whole?, Numeral.digits?, isDigit]

theorem scans_member (hvalue : ∀ {bs v}, Spells bs v → Scans (value depth) (v.nests depth) bs v)
    {bs : Bytes} {m : Bytes × Json} (h : Member Spells bs m) :
    Scans (member (value depth)) (m.2.nests depth) bs m := by
  obtain @⟨key, before, after, bs, v, hkey, hbefore, hafter, h⟩ := h
  refine ⟨⟨0x22, _, rfl, by decide⟩, fun rest hrest => ?_⟩
  have hclose := Quoted.close?_spelling hkey (before ++ 0x3A :: (after ++ (bs ++ rest)))
  have hv := hvalue h
  have hcolon : skipSpace (0x3A :: (after ++ (bs ++ rest))) = 0x3A :: (after ++ (bs ++ rest)) :=
    skipSpace_opens (by decide) _
  simp only [quoted, List.cons_append, List.append_assoc, List.nil_append, member, hclose,
    skipSpace_space hbefore, hcolon, skipSpace_space hafter, hv.skipSpace, hv.back rest hrest]
  cases v.nests depth <;> rfl

theorem value_brace (hvalue : ∀ {bs v}, Spells bs v → Scans (value depth) (v.nests depth) bs v)
    {bs : Bytes} {members : List (Bytes × Json)} (h : Enclosed (Member Spells) bs members)
    (rest : Bytes) : value (depth + 1) (0x7B :: (bs ++ [0x7D]) ++ rest) =
      if (object members).nests (depth + 1) then some (object members, rest) else none := by
  have henclosed := enclosed_spells (scans_member hvalue) (.inr rfl) h rest
  rw [List.cons_append, List.append_assoc, List.singleton_append, value, henclosed, nests]
  cases members.all fun m => m.2.nests depth <;> rfl

theorem scans_number {bs : Bytes} {n : Numeral} (h : Numeral.Spells bs n) :
    Scans (value depth) true bs (number n) := by
  obtain ⟨b, bs, rfl, hb⟩ := h.head
  refine ⟨⟨b, bs, rfl, opens_number hb⟩, fun rest hrest => ?_⟩
  have hread := Numeral.read?_append hrest h
  rw [List.cons_append] at hread ⊢
  rw [value_number hb, hread]
  rfl

theorem scans_string {spelling : Bytes} (h : Quoted.Spelling spelling) :
    Scans (value depth) true (quoted spelling) (string spelling) := by
  refine ⟨⟨0x22, _, rfl, by decide⟩, fun rest _ => ?_⟩
  have hclose := Quoted.close?_spelling h rest
  simp only [quoted, List.cons_append, List.append_assoc, List.nil_append, value, hclose,
    Option.map_some, if_true]

theorem nests_scalar {v : Json} (harray : ∀ items, v ≠ array items)
    (hobject : ∀ members, v ≠ object members) : v.nests depth = true := by
  unfold nests
  split <;> simp_all

theorem scans_value (depth : Nat) {bs : Bytes} {v : Json} (h : Spells bs v) :
    Scans (value depth) (v.nests depth) bs v := by
  cases h with
  | null =>
    rw [nests_scalar (by simp) (by simp)]
    exact ⟨⟨0x6E, _, rfl, by decide⟩, fun rest _ => by simp [value]⟩
  | true =>
    rw [nests_scalar (by simp) (by simp)]
    exact ⟨⟨0x74, _, rfl, by decide⟩, fun rest _ => by simp [value]⟩
  | false =>
    rw [nests_scalar (by simp) (by simp)]
    exact ⟨⟨0x66, _, rfl, by decide⟩, fun rest _ => by simp [value]⟩
  | number h =>
    rw [nests_scalar (by simp) (by simp)]
    exact scans_number h
  | string h =>
    rw [nests_scalar (by simp) (by simp)]
    exact scans_string h
  | @array bs items h =>
    refine ⟨⟨0x5B, _, rfl, by decide⟩, fun rest _ => ?_⟩
    cases depth with
    | zero => exact value_zero_bracket _
    | succ depth =>
      have henclosed := enclosed_spells (scans_value depth) (.inl rfl) h rest
      rw [List.cons_append, List.append_assoc, List.singleton_append, value, henclosed, nests]
      cases items.all (nests depth) <;> rfl
  | object h =>
    refine ⟨⟨0x7B, _, rfl, by decide⟩, fun rest _ => ?_⟩
    cases depth with
    | zero => exact value_zero_brace _
    | succ depth => exact value_brace (scans_value depth) h rest

theorem value_object {bs : Bytes} {members : List (Bytes × Json)} (h : Spells bs (object members))
    (rest : Bytes) : value depth (bs ++ rest) =
      if (object members).nests depth then some (object members, rest) else none := by
  cases h with
  | object h =>
    cases depth with
    | zero => exact value_zero_brace _
    | succ depth => exact value_brace (scans_value depth) h rest

theorem starts_of_spells {bs : Bytes} {v : Json} (h : Spells bs v) (rest : Bytes) :
    skipSpace (bs ++ rest) = bs ++ rest := (scans_value 0 h).skipSpace rest

theorem read?_spells {bs before after : Bytes} {v : Json} (h : Spells bs v)
    (hbefore : Space before) (hafter : Space after) :
    read? depth (before ++ bs ++ after) = if v.nests depth then some v else none := by
  have hdelimits : Delimits after := by
    intro b hb
    exact isSpace_not_prolongs (hafter b (List.mem_of_mem_head? hb))
  have hscan := scans_value depth h
  rw [read?, List.append_assoc, skipSpace_space hbefore, hscan.skipSpace, hscan.back _ hdelimits]
  cases v.nests depth with
  | false => rfl
  | true => simp [skipSpace_eq_nil.mpr hafter]

theorem read?_object {bs before after : Bytes} {members : List (Bytes × Json)} {v : Json}
    (h : Spells bs (object members)) (hbefore : Space before)
    (hread : read? depth (before ++ bs ++ after) = some v) :
    v = object members ∧ v.nests depth = true ∧ Space after := by
  rw [read?, List.append_assoc, skipSpace_space hbefore, starts_of_spells h,
    value_object h] at hread
  cases hnests : (object members).nests depth with
  | false => simp [hnests] at hread
  | true =>
    simp only [hnests, if_true] at hread
    split at hread
    · rename_i hafter
      cases hread
      exact ⟨rfl, hnests, skipSpace_eq_nil.mp (List.isEmpty_iff.mp hafter)⟩
    · cases hread

end Values

end Json
end LogRelay
