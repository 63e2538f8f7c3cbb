import LogRelay.Config.Load
import LogRelay.Proofs.References

/-! The report of variables that are not set. It is drawn up from the expanded text, where what
values bring in, or make up with the text around them, cannot be told from the text's own
references. -/

namespace LogRelay

open Reference

namespace Reference

def expansion (env : Environment) (s : List Char) : List Char := (cut s).flatMap (render env)

variable {env : Environment} {text name : String}

theorem mem_names : name ∈ names text ↔ ∃ front, Stands text.toList front name.toList := by
  have hpieces (s : List Char) :
      Piece.reference name.toList ∈ cut s ↔ ∃ front, Stands s front name.toList := by
    induction s using reading_induction with
    | nil => simp [cut_nil, not_stands_nil]
    | reference first rest hfirst ih =>
      rw [cut_spell hfirst, List.mem_cons, ih]
      simp only [stands_spell hfirst, exists_or, Piece.reference.injEq]
      refine or_congr ⟨fun h => ⟨[], rfl, h⟩, fun ⟨_, _, h⟩ => h⟩ ?_
      exact ⟨fun ⟨front, h⟩ => ⟨_, front, rfl, h⟩, fun ⟨_, front, _, h⟩ => ⟨front, h⟩⟩
    | literal c rest hnone ih =>
      rw [cut_cons hnone, List.mem_cons, ih]
      simp only [stands_cons hnone, reduceCtorEq, false_or]
      exact ⟨fun ⟨front, h⟩ => ⟨_, front, rfl, h⟩, fun ⟨_, front, _, h⟩ => ⟨front, h⟩⟩
  rw [← hpieces, names, List.mem_filterMap]
  constructor
  · rintro ⟨_ | first, hmem, heq⟩
    · cases heq
    · obtain rfl := Option.some.inj heq
      rwa [String.toList_ofList]
  · intro hmem
    exact ⟨_, hmem, by simp⟩

theorem stands_expand {before : List Char} (hunset : env name = none)
    (h : Stands text.toList before name.toList) :
    Stands (expand env text).toList (expansion env before) name.toList := by
  obtain ⟨hname, after, heq⟩ := h
  refine ⟨hname, expansion env after, ?_⟩
  rw [toList_expand, heq, cut_around hname, List.flatMap_append, List.flatMap_cons]
  simp [render, hunset, expansion]

/-! ### The list of names -/

theorem pairwise_lt_eraseDups {l : List String} (h : l.Pairwise (· ≤ ·)) :
    l.eraseDups.Pairwise (· < ·) := by
  match l with
  | [] => exact .nil
  | a :: rest =>
    obtain ⟨ha, hrest⟩ := List.pairwise_cons.mp h
    have hshorter := List.length_filter_le (fun b => !b == a) rest
    rw [List.eraseDups_cons]
    refine List.pairwise_cons.mpr ⟨fun b hb => ?_, pairwise_lt_eraseDups (hrest.filter _)⟩
    obtain ⟨hb, hne⟩ := List.mem_filter.mp (List.mem_eraseDups.mp hb)
    exact Std.lt_of_le_of_ne (ha b hb) (Ne.symm (by simpa using hne))
termination_by l.length

theorem mem_sortedNames : name ∈ sortedNames text ↔ name ∈ names text := by
  rw [sortedNames, List.mem_eraseDups, List.mem_mergeSort]

theorem sortedNames_sorted (text : String) : (sortedNames text).Pairwise (· < ·) := by
  refine pairwise_lt_eraseDups ?_
  have htrans : ∀ a b c : String, decide (a ≤ b) = true → decide (b ≤ c) = true →
      decide (a ≤ c) = true := by
    simp only [decide_eq_true_eq]
    exact fun a b c => String.le_trans
  have htotal : ∀ a b : String, (decide (a ≤ b) || decide (b ≤ a)) = true := by
    simpa using String.le_total
  have hsorted := List.pairwise_mergeSort htrans htotal (names text)
  exact hsorted.imp fun h => by simpa using h

end Reference

namespace Config

def Unset (env : Environment) (text name : String) : Prop :=
  env name = none ∧ ∃ front, Stands text.toList front name.toList

/-- A reference that stands in the expanded text where the text itself has none that was left as it
is: values have brought it in, or have made it up with what stands around them. -/
def Formed (env : Environment) (text name : String) : Prop :=
  ∃ front, Stands (expand env text).toList front name.toList ∧
    ∀ before, Stands text.toList before name.toList → env name = none →
      front ≠ expansion env before

def readExpanded (text : String) : Except ConfigError Config :=
  match ofText? text with
  | none => .error .malformed
  | some c => validate c

/-- Parsing complains just when the text refers to variables that are not set, and names them in
order, each once; else what is read is the text with the values in place of all its references. -/
structure ReportsUnset (env : Environment) (text : String) : Prop where
  complains_iff : (∃ names, parse env text = .error (.unsetVariables names)) ↔
    ∃ name, Unset env text name
  named : ∀ names, parse env text = .error (.unsetVariables names) →
    names.Pairwise (· < ·) ∧ ∀ name, name ∈ names ↔ Unset env text name
  reads : (∀ name, ¬Unset env text name) → ∀ p : Parted, p.Parts text.toList →
    parse env text = readExpanded (String.ofList (p.filled env))

variable {env : Environment} {text : String}

theorem parse_of_names {n : String} {ns : List String}
    (h : sortedNames (expand env text) = n :: ns) :
    parse env text = .error (.unsetVariables (n :: ns)) := by
  simp only [parse, h]

theorem parse_of_no_names (h : sortedNames (expand env text) = []) :
    parse env text = readExpanded (expand env text) := by
  simp only [parse, h]
  rfl

theorem readExpanded_ne_unset (text : String) (names : List String) :
    readExpanded text ≠ .error (.unsetVariables names) := by
  unfold readExpanded validate
  split
  · simp
  · split <;> simp

theorem parse_eq_unset_iff {names : List String} :
    parse env text = .error (.unsetVariables names) ↔
      names ≠ [] ∧ sortedNames (expand env text) = names := by
  cases h : sortedNames (expand env text) with
  | nil =>
    rw [parse_of_no_names h]
    refine ⟨fun hread => absurd hread (readExpanded_ne_unset _ _), ?_⟩
    rintro ⟨hne, rfl⟩
    exact absurd rfl hne
  | cons n ns =>
    rw [parse_of_names h]
    constructor
    · rintro ⟨⟩
      exact ⟨List.cons_ne_nil n ns, rfl⟩
    · rintro ⟨-, rfl⟩
      rfl

theorem mem_names_expand {name : String} :
    name ∈ sortedNames (expand env text) ↔ Unset env text name ∨ Formed env text name := by
  rw [mem_sortedNames, mem_names]
  constructor
  · rintro ⟨front, hstands⟩
    by_cases hleft : ∃ before, Stands text.toList before name.toList ∧ env name = none ∧
        front = expansion env before
    · obtain ⟨before, hbefore, hunset, -⟩ := hleft
      exact Or.inl ⟨hunset, before, hbefore⟩
    · exact Or.inr ⟨front, hstands, fun before hbefore hunset heq =>
        hleft ⟨before, hbefore, hunset, heq⟩⟩
  · rintro (⟨hunset, before, hbefore⟩ | ⟨front, hstands, -⟩)
    · exact ⟨_, stands_expand hunset hbefore⟩
    · exact ⟨front, hstands⟩

theorem complains_iff : (∃ names, parse env text = .error (.unsetVariables names)) ↔
    ∃ name, Unset env text name ∨ Formed env text name := by
  simp only [parse_eq_unset_iff, ← mem_names_expand, exists_eq_right']
  exact ⟨List.exists_mem_of_ne_nil _, fun ⟨_, hmem⟩ => List.ne_nil_of_mem hmem⟩

theorem named_iff {names : List String} (h : parse env text = .error (.unsetVariables names)) :
    names.Pairwise (· < ·) ∧ ∀ name, name ∈ names ↔ Unset env text name ∨ Formed env text name := by
  obtain ⟨-, rfl⟩ := parse_eq_unset_iff.mp h
  exact ⟨sortedNames_sorted _, fun _ => mem_names_expand⟩

theorem reportsUnset_iff :
    ReportsUnset env text ↔ ∀ name, Formed env text name → Unset env text name := by
  constructor
  · intro h name hformed
    obtain ⟨names, hparse⟩ := complains_iff.mpr ⟨name, Or.inr hformed⟩
    exact ((h.named names hparse).2 name).mp (((named_iff hparse).2 name).mpr (Or.inr hformed))
  · intro h
    have hall (name : String) :
        Unset env text name ∨ Formed env text name ↔ Unset env text name :=
      or_iff_left_of_imp (h name)
    refine ⟨by simp only [complains_iff, hall], fun names hparse => ?_, fun hset p hp => ?_⟩
    · simpa only [hall] using named_iff hparse
    · have hnone : sortedNames (expand env text) = [] :=
        List.eq_nil_iff_forall_not_mem.mpr fun name hmem =>
          hset name ((hall name).mp (mem_names_expand.mp hmem))
      have hfilled := congrArg (fun p => String.ofList (p.filled env)) hp.eq_ofPieces
      rw [parse_of_no_names hnone, hfilled, Parted.filled_eq, ← (Parted.parts_ofPieces _).cut_eq]
      rfl

/-- Every text that refers to a variable that is not set is refused, with a sorted list of names
that has all of these, each once, and besides only names of references that values have formed in
the expanded text. So the report is as it should be just when values form no reference, or none
but to variables that it lists anyway. -/
theorem unset_variables_reported (env : Environment) (text : String) :
    ((∃ names, parse env text = .error (.unsetVariables names)) ↔
      ∃ name, Unset env text name ∨ Formed env text name) ∧
    (∀ names, parse env text = .error (.unsetVariables names) →
      names.Pairwise (· < ·) ∧
        ∀ name, name ∈ names ↔ Unset env text name ∨ Formed env text name) ∧
    (ReportsUnset env text ↔ ∀ name, Formed env text name → Unset env text name) :=
  ⟨complains_iff, fun _ => named_iff, reportsUnset_iff⟩

/-- The values of the two variables are given, and the second is reported as not set. -/
theorem unset_reported_of_value :
    let env : Environment := fun name =>
      if name = "A" then some "$env\x7bB\x7d" else if name = "B" then some "b" else none
    let text := "remote:\n  endpoint: http://h\ndestination:\n  group: $env\x7bA\x7d\n"
    (∀ name, ¬Unset env text name) ∧ env "B" = some "b" ∧
      parse env text = .error (.unsetVariables ["B"]) ∧ ¬ReportsUnset env text := by
  intro env text
  have hnames : names text = ["A"] := by decide +kernel
  have hset : ∀ name, ¬Unset env text name := by
    rintro name ⟨hunset, hstands⟩
    have hmem := mem_names.mpr hstands
    rw [hnames, List.mem_singleton] at hmem
    subst hmem
    exact absurd hunset (by decide)
  have hlist : sortedNames (expand env text) = ["B"] := by decide +kernel
  have hparse := parse_of_names hlist
  refine ⟨hset, by decide, hparse, fun h => ?_⟩
  obtain ⟨name, hname⟩ := h.complains_iff.mp ⟨_, hparse⟩
  exact hset name hname

end Config
end LogRelay
