import LogRelay.Config.Reference
import Mathlib.Data.List.Basic

/-! References in a text, told from the text alone: where one stands, and that there is one way only
to write a text as literals with all its references between them. Replacing references is a matter
of that way of writing; how the text is searched leaves no trace. -/

namespace LogRelay.Reference

def IsName (name : List Char) : Prop :=
  ∃ c rest, name = c :: rest ∧ (c.isAlpha = true ∨ c = '_') ∧
    ∀ d ∈ rest, d.isAlphanum = true ∨ d = '_'

def Stands (text before name : List Char) : Prop :=
  IsName name ∧ ∃ after, text = before ++ (spell name ++ after)

/-- A text as literals, any of them empty, with references between them. -/
inductive Parted where
  | plain (literal : List Char)
  | before (literal name : List Char) (rest : Parted)
  deriving DecidableEq

namespace Parted

def text : Parted → List Char
  | plain literal => literal
  | before literal name rest => literal ++ (spell name ++ rest.text)

def filled (env : Environment) : Parted → List Char
  | plain literal => literal
  | before literal name rest =>
    literal ++ (((env (String.ofList name)).map String.toList).getD (spell name) ++ rest.filled env)

def HasAt : Parted → List Char → List Char → Prop
  | plain _, _, _ => False
  | before literal name rest, front, wanted => front = literal ∧ wanted = name ∨
    ∃ more, front = literal ++ (spell name ++ more) ∧ rest.HasAt more wanted

/-- It is the text, and the references between the literals are all that stand in the text. -/
structure Parts (p : Parted) (s : List Char) : Prop where
  text_eq : p.text = s
  hasAt_iff : ∀ front name, p.HasAt front name ↔ Stands s front name

end Parted

/-! ### One reference -/

section Spelling

variable {name name' s t rest : List Char}

theorem isNameStart_iff {c : Char} : isNameStart c = true ↔ c.isAlpha = true ∨ c = '_' := by
  have hletter : c.isAlpha =
      (decide ('A' ≤ c ∧ c ≤ 'Z') || (decide ('a' ≤ c) && decide (c ≤ 'z'))) := rfl
  simp [isNameStart, hletter]

theorem isNameChar_iff {c : Char} : isNameChar c = true ↔ c.isAlphanum = true ∨ c = '_' := by
  have halphanum : c.isAlphanum = (c.isAlpha || (decide ('0' ≤ c) && decide (c ≤ '9'))) := rfl
  simp [isNameChar, isNameStart_iff, halphanum, or_right_comm]

theorem isName_cons_iff {c : Char} {cs : List Char} : IsName (c :: cs) ↔
    isNameStart c = true ∧ ∀ d ∈ cs, isNameChar d = true := by
  simp [IsName, isNameStart_iff, isNameChar_iff]

theorem IsName.chars (h : IsName name) : ∀ c ∈ name, isNameChar c = true := by
  obtain ⟨c, rest, rfl, -⟩ := id h
  obtain ⟨hc, hrest⟩ := isName_cons_iff.mp h
  exact List.forall_mem_cons.mpr ⟨by simp [isNameChar, hc], hrest⟩

theorem IsName.dollar_not_mem (h : IsName name) : '$' ∉ name := fun hmem =>
  absurd (h.chars _ hmem) (by decide)

theorem name?_eq_some_iff : name? s = some name ↔ Stands s [] name := by
  unfold name?
  constructor
  · intro h
    split at h
    · rename_i hopening
      obtain ⟨rest, rfl⟩ := List.isPrefixOf_iff_prefix.mp hopening
      rw [List.drop_left] at h
      have hsplit := List.takeWhile_append_dropWhile (p := isNameChar) (l := rest)
      have hall := List.all_takeWhile (p := isNameChar) (l := rest)
      dsimp only at h
      split at h
      · rename_i c cs d ds htake hdrop
        obtain ⟨⟨hc, rfl⟩, rfl⟩ : (isNameStart c = true ∧ d = closing) ∧ c :: cs = name := by
          simpa [htake] using h
        rw [htake, hdrop] at hsplit
        rw [htake] at hall
        have hcs : ∀ d ∈ cs, isNameChar d = true := fun d hd =>
          List.all_eq_true.mp hall d (List.mem_cons_of_mem c hd)
        refine ⟨isName_cons_iff.mpr ⟨hc, hcs⟩, ds, ?_⟩
        simp [spell, ← hsplit]
      · cases h
    · cases h
  · rintro ⟨hname, after, rfl⟩
    have hchars := hname.chars
    obtain ⟨c, cs, rfl, -⟩ := id hname
    have hc := (isName_cons_iff.mp hname).1
    have htext : [] ++ (spell (c :: cs) ++ after) = opening ++ ((c :: cs) ++ closing :: after) := by
      simp [spell]
    have hclosing : isNameChar closing = false := by decide
    rw [htext, if_pos (List.isPrefixOf_iff_prefix.mpr (List.prefix_append ..)), List.drop_left]
    dsimp only
    rw [List.takeWhile_append_of_pos hchars, List.dropWhile_append_of_pos hchars,
      List.takeWhile_cons_of_neg (by simp [hclosing]), List.append_nil,
      List.dropWhile_cons_of_neg (by simp [hclosing])]
    simp [hc]

theorem name?_spell (h : IsName name) (rest : List Char) : name? (spell name ++ rest) = some name :=
  name?_eq_some_iff.mpr ⟨h, rest, rfl⟩

theorem spell_eq_dollar_cons (name : List Char) :
    spell name = '$' :: (opening.tail ++ (name ++ [closing])) := by
  simp [spell, opening]

theorem dollar_not_mem_tail (h : IsName name) {front back : List Char}
    (hspell : spell name = front ++ back) (hfront : front ≠ []) : '$' ∉ back := by
  obtain ⟨c, front, rfl⟩ := List.exists_cons_of_ne_nil hfront
  rw [spell_eq_dollar_cons, List.cons_append, List.cons.injEq] at hspell
  intro hmem
  have htail : '$' ∈ opening.tail ++ (name ++ [closing]) := by
    rw [hspell.2]
    exact List.mem_append_right front hmem
  simp [h.dollar_not_mem, opening, closing] at htail

end Spelling

/-! ### Cutting a text -/

theorem cutFrom_eq (n : Nat) (s : List Char) : cutFrom n s = cut (s.drop n) := by
  induction n generalizing s with
  | zero => rfl
  | succ n ih =>
    cases s with
    | nil => rfl
    | cons c rest => exact ih rest

theorem cut_nil : cut [] = [] := rfl

theorem cut_spell {name : List Char} (h : IsName name) (rest : List Char) :
    cut (spell name ++ rest) = .reference name :: cut rest := by
  have hname := name?_spell h rest
  rw [spell_eq_dollar_cons, List.cons_append] at hname ⊢
  rw [cut, cutFrom, hname]
  simp only [cutFrom_eq]
  congr 2
  simp [opening, Nat.add_comm]

theorem cut_cons {c : Char} {rest : List Char} (h : name? (c :: rest) = none) :
    cut (c :: rest) = .literal c :: cut rest := by
  rw [cut, cutFrom, h]
  rfl

theorem reading_induction {P : List Char → Prop} (nil : P [])
    (reference : ∀ name rest, IsName name → P rest → P (spell name ++ rest))
    (literal : ∀ c rest, name? (c :: rest) = none → P rest → P (c :: rest)) (s : List Char) :
    P s := by
  match s with
  | [] => exact nil
  | c :: rest =>
    cases h : name? (c :: rest) with
    | none => exact literal c rest h (reading_induction nil reference literal rest)
    | some name =>
      obtain ⟨hname, after, heq⟩ := name?_eq_some_iff.mp h
      have hlt : after.length < (c :: rest).length := by
        rw [heq]
        simp +arith [spell, opening]
      rw [heq]
      exact reference name after hname (reading_induction nil reference literal after)
termination_by s.length
decreasing_by
  · exact Nat.lt_succ_self rest.length
  · exact hlt

/-- No reference that begins in the first part goes on in the second. -/
def Seam (s t : List Char) : Prop :=
  ∀ name front back, IsName name → spell name = front ++ back → front <:+ s → back <+: t →
    front = [] ∨ back = []

theorem Seam.of_suffix {s s' t : List Char} (h : Seam s t) (hs : s' <:+ s) : Seam s' t :=
  fun name front back hname hspell hfront hback =>
    h name front back hname hspell (hfront.trans hs) hback

-- A reference has a dollar sign at its front only.
theorem seam_dollar (s : List Char) {t : List Char} (ht : t.head? = some '$') : Seam s t := by
  rintro name front back hname hspell - ⟨rest, hrest⟩
  refine or_iff_not_imp_left.mpr fun hfront => ?_
  cases back with
  | nil => rfl
  | cons c back =>
    obtain rfl : c = '$' := by simpa [← hrest] using ht
    exact absurd List.mem_cons_self (dollar_not_mem_tail hname hspell hfront)

theorem cut_append {s t : List Char} (h : Seam s t) : cut (s ++ t) = cut s ++ cut t := by
  induction s using reading_induction with
  | nil => rfl
  | reference name rest hname ih =>
    rw [List.append_assoc, cut_spell hname, cut_spell hname, ih (h.of_suffix ⟨_, rfl⟩),
      List.cons_append]
  | literal c rest hnone ih =>
    have hnone' : name? (c :: (rest ++ t)) = none := by
      refine Option.eq_none_iff_forall_ne_some.mpr fun name hsome => ?_
      obtain ⟨hname, after, heq⟩ := name?_eq_some_iff.mp hsome
      -- Such a reference would end in the first part, or go on in the second.
      rcases List.append_eq_append_iff.mp (show (c :: rest) ++ t = spell name ++ after from heq)
        with ⟨back, hspell, hback⟩ | ⟨more, hspell, -⟩
      · have hnil := (h name (c :: rest) back hname hspell List.suffix_rfl ⟨after, hback.symm⟩)
        obtain rfl := hnil.resolve_left (List.cons_ne_nil c rest)
        have hfound := name?_spell hname []
        rw [hspell, List.append_nil, List.append_nil, hnone] at hfound
        cases hfound
      · have hfound := name?_spell hname more
        rw [← hspell, hnone] at hfound
        cases hfound
    have hrest := ih (h.of_suffix (List.suffix_cons c rest))
    rw [List.cons_append, cut_cons hnone', cut_cons hnone, hrest, List.cons_append]

theorem cut_around {name : List Char} (hname : IsName name) (before after : List Char) :
    cut (before ++ (spell name ++ after)) = cut before ++ .reference name :: cut after := by
  rw [cut_append (seam_dollar before (by simp [spell_eq_dollar_cons])), cut_spell hname]

/-! ### Where references stand -/

section Places

variable {front name : List Char}

theorem not_stands_nil : ¬Stands [] front name := by
  rintro ⟨-, after, h⟩
  simp [spell, opening] at h

theorem stands_cons {c : Char} {rest : List Char} (h : name? (c :: rest) = none) :
    Stands (c :: rest) front name ↔ ∃ more, front = c :: more ∧ Stands rest more name := by
  constructor
  · rintro ⟨hname, after, heq⟩
    cases front with
    | nil => cases h.symm.trans (name?_eq_some_iff.mpr ⟨hname, after, heq⟩)
    | cons d more =>
      obtain ⟨rfl, rfl⟩ := List.cons.inj heq
      exact ⟨more, rfl, hname, after, rfl⟩
  · rintro ⟨more, rfl, hname, after, rfl⟩
    exact ⟨hname, after, rfl⟩

theorem stands_spell {first : List Char} (hfirst : IsName first) (rest : List Char) :
    Stands (spell first ++ rest) front name ↔
      front = [] ∧ name = first ∨ ∃ more, front = spell first ++ more ∧ Stands rest more name := by
  constructor
  · rintro ⟨hname, after, heq⟩
    rcases List.append_eq_append_iff.mp heq with ⟨more, rfl, hrest⟩ | ⟨back, hspell, hback⟩
    · exact Or.inr ⟨more, rfl, hname, after, hrest⟩
    · cases back with
      | nil =>
        rw [List.append_nil] at hspell
        exact Or.inr ⟨[], by simp [hspell], hname, after, by simpa using hback.symm⟩
      | cons c back =>
        by_cases hfront : front = []
        · subst hfront
          have hsame := name?_eq_some_iff.mpr ⟨hname, after, heq⟩
          rw [name?_spell hfirst] at hsame
          exact Or.inl ⟨rfl, (Option.some.inj hsame).symm⟩
        · -- The second reference would have its dollar sign within the first.
          obtain rfl : '$' = c := by
            rw [spell_eq_dollar_cons, List.cons_append] at hback
            exact (List.cons.inj hback).1
          exact absurd List.mem_cons_self (dollar_not_mem_tail hfirst hspell hfront)
  · rintro (⟨rfl, rfl⟩ | ⟨more, rfl, hname, after, rfl⟩)
    · exact ⟨hfirst, rest, rfl⟩
    · exact ⟨hname, after, by simp⟩

theorem cut_free {s : List Char} (h : ∀ front name, ¬Stands s front name) :
    cut s = s.map .literal := by
  induction s using reading_induction with
  | nil => rfl
  | reference name rest hname _ => exact absurd ⟨hname, rest, rfl⟩ (h [] name)
  | literal c rest hnone ih =>
    rw [cut_cons hnone, ih fun front name hstands =>
      h (c :: front) name ((stands_cons hnone).mpr ⟨front, rfl, hstands⟩), List.map_cons]

end Places

/-! ### One way to part a text -/

namespace Parted

def pieces : Parted → List Piece
  | plain literal => literal.map .literal
  | before literal name rest => literal.map .literal ++ .reference name :: rest.pieces

def push (c : Char) : Parted → Parted
  | plain literal => plain (c :: literal)
  | before literal name rest => before (c :: literal) name rest

def ofPieces : List Piece → Parted
  | [] => plain []
  | .literal c :: rest => (ofPieces rest).push c
  | .reference name :: rest => before [] name (ofPieces rest)

variable {p : Parted} {s front name : List Char}

theorem ofPieces_pieces (p : Parted) : ofPieces p.pieces = p := by
  induction p with
  | plain literal =>
    induction literal with
    | nil => rfl
    | cons c literal ih => exact congrArg (push c) ih
  | before literal name rest ih =>
    induction literal with
    | nil => simp [pieces, ofPieces, ih]
    | cons c literal ihl => exact congrArg (push c) ihl

theorem text_push (c : Char) (p : Parted) : (p.push c).text = c :: p.text := by
  cases p <;> rfl

theorem hasAt_push (c : Char) (p : Parted) (front name : List Char) :
    (p.push c).HasAt front name ↔ ∃ more, front = c :: more ∧ p.HasAt more name := by
  cases p with
  | plain literal => simp [push, HasAt]
  | before literal first rest =>
    simp only [push, HasAt]
    constructor
    · rintro (⟨rfl, rfl⟩ | ⟨more, rfl, hrest⟩)
      · exact ⟨literal, rfl, Or.inl ⟨rfl, rfl⟩⟩
      · exact ⟨_, rfl, Or.inr ⟨more, rfl, hrest⟩⟩
    · rintro ⟨more, rfl, ⟨rfl, rfl⟩ | ⟨more, rfl, hrest⟩⟩
      · exact Or.inl ⟨rfl, rfl⟩
      · exact Or.inr ⟨more, rfl, hrest⟩

theorem parts_ofPieces (s : List Char) : (ofPieces (cut s)).Parts s := by
  induction s using reading_induction with
  | nil => exact ⟨rfl, fun _ _ => ⟨False.elim, not_stands_nil⟩⟩
  | reference name rest hname ih =>
    rw [cut_spell hname]
    refine ⟨by simp [ofPieces, text, ih.text_eq], fun front wanted => ?_⟩
    simp only [ofPieces, HasAt, List.nil_append, ih.hasAt_iff, stands_spell hname]
  | literal c rest hnone ih =>
    rw [cut_cons hnone]
    refine ⟨by simp [ofPieces, text_push, ih.text_eq], fun front wanted => ?_⟩
    simp only [ofPieces, hasAt_push, ih.hasAt_iff, stands_cons hnone]

theorem Parts.rest {literal first : List Char} {rest : Parted}
    (h : (before literal first rest).Parts s) : rest.Parts rest.text := by
  obtain ⟨rfl, hhas⟩ := h
  refine ⟨rfl, fun front name => ?_⟩
  have hlater := hhas (literal ++ (spell first ++ front)) name
  have hpast : literal ++ (spell first ++ front) ≠ literal := by simp [spell, opening]
  simpa [HasAt, hpast, Stands, text] using hlater

theorem Parts.cut_eq (h : p.Parts s) : cut s = p.pieces := by
  induction p generalizing s with
  | plain literal =>
    obtain ⟨rfl, hhas⟩ := h
    exact cut_free fun front name hstands => (hhas front name).mpr hstands
  | before literal first rest ih =>
    have hrest := ih h.rest
    obtain ⟨rfl, hhas⟩ := h
    have hfirst : IsName first := ((hhas literal first).mp (Or.inl ⟨rfl, rfl⟩)).1
    -- A reference within the literal would come before all that the text has.
    have hfree : ∀ front name, ¬Stands literal front name := by
      rintro front name ⟨hname, after, heq⟩
      have hlength := congrArg List.length heq
      have hlong : 0 < (spell name).length := by simp [spell, opening]
      simp only [List.length_append] at hlength
      have hstands : Stands (before literal first rest).text front name :=
        ⟨hname, after ++ (spell first ++ rest.text), by simp [text, heq]⟩
      rcases (hhas front name).mpr hstands with ⟨rfl, -⟩ | ⟨more, rfl, -⟩
      · omega
      · simp only [List.length_append] at hlength
        omega
    rw [text, cut_around hfirst, cut_free hfree, hrest, pieces]

theorem Parts.eq_ofPieces (h : p.Parts s) : p = ofPieces (cut s) := by
  rw [h.cut_eq, ofPieces_pieces]

end Parted

/-! ### Replacing references -/

theorem flatMap_render_literal (env : Environment) (literal : List Char) :
    (literal.map Piece.literal).flatMap (render env) = literal := by
  induction literal with
  | nil => rfl
  | cons c literal ih => simpa [render] using ih

theorem Parted.filled_eq (env : Environment) (p : Parted) :
    p.filled env = p.pieces.flatMap (render env) := by
  induction p with
  | plain literal => exact (flatMap_render_literal env literal).symm
  | before literal name rest ih =>
    rw [pieces, List.flatMap_append, flatMap_render_literal, List.flatMap_cons, ← ih, filled]
    cases henv : env (String.ofList name) <;> simp [render, henv]

theorem toList_expand (env : Environment) (text : String) :
    (expand env text).toList = (cut text.toList).flatMap (render env) := String.toList_ofList

section Within

variable {u w v : List Char}

def Within (u w v : List Char) : Prop :=
  ∀ front name, Stands (u ++ (w ++ v)) front name → ∃ more, front = u ++ more ∧ Stands w more name

theorem Within.seam_left (h : Within u w v) : Seam u (w ++ v) := by
  rintro name front back hname hspell ⟨more, rfl⟩ ⟨after, hafter⟩
  obtain ⟨_, hplace, -⟩ := h more name ⟨hname, after, by simp [hspell, ← hafter]⟩
  have hlength := congrArg List.length hplace
  simp only [List.length_append] at hlength
  exact Or.inl (List.length_eq_zero_iff.mp (by omega))

theorem Within.seam_right (h : Within u w v) : Seam w v := by
  rintro name front back hname hspell ⟨more, rfl⟩ ⟨after, rfl⟩
  obtain ⟨_, hplace, -, rest, hrest⟩ := h (u ++ more) name ⟨hname, after, by simp [hspell]⟩
  obtain rfl := List.append_cancel_left hplace
  have hlength := congrArg List.length hrest
  simp only [List.length_append, hspell] at hlength
  exact Or.inr (List.length_eq_zero_iff.mp (by omega))

theorem Within.free_left (h : Within u w v) : ∀ front name, ¬Stands u front name := by
  rintro front name ⟨hname, after, rfl⟩
  obtain ⟨_, hplace, -⟩ := h front name ⟨hname, after ++ (w ++ v), by simp⟩
  have hlength := congrArg List.length hplace
  simp [spell, opening] at hlength

theorem Within.free_right (h : Within u w v) : ∀ front name, ¬Stands v front name := by
  rintro front name ⟨hname, after, rfl⟩
  obtain ⟨_, hplace, -, rest, hrest⟩ := h (u ++ (w ++ front)) name ⟨hname, after, by simp⟩
  obtain rfl := List.append_cancel_left hplace
  have hlength := congrArg List.length hrest
  simp [spell, opening] at hlength

end Within

/-- A text with its references is a series of literals and references in one way only, and its
expansion is that series with the values of the variables that are set in the places of their
references. So values are not searched for references. Where all references stand within a stretch
of the text, be it a part of something that looks like a reference, nothing around it changes. -/
theorem expand_once (env : Environment) (text : String) :
    (∃! p : Parted, p.Parts text.toList) ∧
    (∀ p : Parted, p.Parts text.toList → (expand env text).toList = p.filled env) ∧
    ∀ u w v, text.toList = u ++ (w ++ v) → Within u w v →
      (expand env text).toList = u ++ ((expand env (String.ofList w)).toList ++ v) := by
  refine ⟨⟨_, Parted.parts_ofPieces _, fun p hp => hp.eq_ofPieces⟩, fun p hp => ?_, ?_⟩
  · rw [toList_expand, hp.cut_eq, Parted.filled_eq]
  · intro u w v htext hwithin
    rw [toList_expand, toList_expand, String.toList_ofList, htext, cut_append hwithin.seam_left,
      cut_append hwithin.seam_right, cut_free hwithin.free_left, cut_free hwithin.free_right,
      List.flatMap_append, List.flatMap_append, flatMap_render_literal, flatMap_render_literal]

example : let env : Environment := fun name => if name = "A" then some "$env\x7bB\x7d" else none
    ["$env\x7b\x7d", "$env\x7b1A\x7d", "$env\x7bA", "$env\x7b$env\x7bA\x7d\x7d",
        "$$env\x7bA\x7d", "$env\x7bC\x7d"].map (expand env) =
      ["$env\x7b\x7d", "$env\x7b1A\x7d", "$env\x7bA", "$env\x7b$env\x7bB\x7d\x7d",
        "$$env\x7bB\x7d", "$env\x7bC\x7d"] := by
  decide +kernel

end LogRelay.Reference
