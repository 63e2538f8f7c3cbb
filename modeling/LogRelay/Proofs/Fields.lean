import Mathlib.Data.List.Forall2
import LogRelay.Json.Record

/-! What is found of a record: each key is decoded, and each field has no more than one value under
its names. -/

namespace LogRelay

section Results

variable {α β : Type}

theorem mapM_eq_some_iff {f : α → Option β} {as : List α} {bs : List β} :
    as.mapM f = some bs ↔ List.Forall₂ (fun a b => f a = some b) as bs := by
  induction as generalizing bs with
  | nil => cases bs <;> simp
  | cons a as ih =>
    rw [List.mapM_cons]
    constructor
    · intro h
      obtain ⟨b, hb, h⟩ := Option.bind_eq_some_iff.mp h
      obtain ⟨rest, hrest, h⟩ := Option.bind_eq_some_iff.mp h
      cases h
      exact .cons hb (ih.mp hrest)
    · rintro (_ | ⟨hb, hrest⟩)
      simp [hb, ih.mpr hrest]

theorem getElem?_of_forall₂ {R : α → β → Prop} {as : List α} {bs : List β}
    (h : List.Forall₂ R as bs) {i : Nat} {a : α} (ha : as[i]? = some a) :
    ∃ b, bs[i]? = some b ∧ R a b := by
  induction h generalizing i with
  | nil => cases ha
  | cons hab _ ih =>
    cases i with
    | zero =>
      cases ha
      exact ⟨_, rfl, hab⟩
    | succ i => exact ih ha

end Results

section Slots

variable {α : Type} {names : List String} {members : List (String × α)}

def only? : List α → Option (Option α)
  | [] => some none
  | [a] => some (some a)
  | _ :: _ :: _ => none

theorem only?_eq_some_iff {as : List α} {o : Option α} : only? as = some o ↔ as = o.toList := by
  rcases as with _ | ⟨a, _ | ⟨b, more⟩⟩ <;> cases o <;> simp [only?, eq_comm]

theorem slot?_eq_only? (names : List String) (members : List (String × α)) :
    slot? names members = only? ((members.filter (·.1 ∈ names)).map (·.2)) := by
  induction members with
  | nil => rfl
  | cons m members ih =>
    rw [slot?, ih, List.filter_cons]
    generalize members.filter (·.1 ∈ names) = found
    by_cases hk : m.1 ∈ names <;>
      rcases found with _ | ⟨a, _ | ⟨b, more⟩⟩ <;> simp [only?, hk]

theorem slot?_eq_some_iff {o : Option α} :
    slot? names members = some o ↔ (members.filter (·.1 ∈ names)).map (·.2) = o.toList := by
  rw [slot?_eq_only?, only?_eq_some_iff]

end Slots

namespace Json

variable {members : List (Bytes × Json)} {decoded : List (String × Json)}

theorem decodeKeys?_eq_some_iff : decodeKeys? members = some decoded ↔
    List.Forall₂ (fun m d => Quoted.decode? m.1 = some d.1 ∧ m.2 = d.2) members decoded := by
  have hmember : ∀ (m : Bytes × Json) (d : String × Json),
      (Quoted.decode? m.1).map (fun k => (k, m.2)) = some d ↔
        Quoted.decode? m.1 = some d.1 ∧ m.2 = d.2 := by
    rintro m ⟨k, v⟩
    simp [Option.map_eq_some_iff]
  rw [decodeKeys?, mapM_eq_some_iff]
  simp only [hmember]

theorem fieldsOfMembers?_eq_some_iff {names : List (List String)} {members : List (String × Json)}
    {f : Fields} : fieldsOfMembers? names members = some f ↔ f.positional = false ∧
      List.Forall₂ (fun field o => slot? field members = some o) names f.slots := by
  obtain ⟨positional, slots⟩ := f
  rw [fieldsOfMembers?, Option.map_eq_some_iff]
  constructor
  · rintro ⟨slots', hslots, heq⟩
    cases heq
    exact ⟨rfl, mapM_eq_some_iff.mp hslots⟩
  · rintro ⟨rfl, hslots⟩
    exact ⟨slots, mapM_eq_some_iff.mpr hslots, rfl⟩

end Json
end LogRelay
