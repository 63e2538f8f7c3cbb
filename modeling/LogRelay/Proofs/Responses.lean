import LogRelay.Gateway.Wire
import Mathlib.Tactic.SplitIfs

/-! What a response over the wire says, told from its status and its body: what a success holds, and
what a refusal complains of. -/

namespace LogRelay

def AfterLast (c : Char) (s part : String) : Prop :=
  c ∉ part.toList ∧ (s = part ∨ ∃ front, s.toList = front ++ c :: part.toList)

theorem takeWhile_ne_iff {c : Char} {l part : List Char} : l.takeWhile (· != c) = part ↔
    c ∉ part ∧ (l = part ∨ ∃ rest, l = part ++ c :: rest) := by
  have hkept {part : List Char} (hc : c ∉ part) : ∀ x ∈ part, (x != c) = true := by
    intro x hx
    have hne : x ≠ c := fun h => hc (h ▸ hx)
    simpa using hne
  constructor
  · rintro rfl
    refine ⟨fun hc => by simpa using List.all_eq_true.mp List.all_takeWhile c hc, ?_⟩
    have hsplit := List.takeWhile_append_dropWhile (p := (· != c)) (l := l)
    cases hrest : l.dropWhile (· != c) with
    | nil => exact Or.inl (by simpa [hrest] using hsplit.symm)
    | cons x rest =>
      have hx : x = c := by
        have hhead := List.head?_dropWhile_not (· != c) l
        simpa [hrest] using hhead
      exact Or.inr ⟨rest, by simpa [hrest, hx] using hsplit.symm⟩
  · rintro ⟨hc, rfl | ⟨rest, rfl⟩⟩
    · have hall := @List.takeWhile_append_of_pos _ (· != c) l [] (hkept hc)
      simpa using hall
    · rw [List.takeWhile_append_of_pos (hkept hc)]
      simp

namespace Gateway

open Json

theorem bareKind_eq_iff {type kind : String} : bareKind type = kind ↔ AfterLast '#' type kind := by
  have hlist : bareKind type = kind ↔
      type.toList.reverse.takeWhile (· != '#') = kind.toList.reverse := by
    rw [bareKind, ← String.toList_inj, String.toList_ofList, List.reverse_eq_iff]
  rw [hlist, takeWhile_ne_iff, AfterLast, List.mem_reverse, List.reverse_inj, String.toList_inj]
  refine and_congr_right fun _ => or_congr_right ⟨?_, ?_⟩
  · rintro ⟨rest, hrest⟩
    refine ⟨rest.reverse, ?_⟩
    have hfront := congrArg List.reverse hrest
    simpa using hfront
  · rintro ⟨front, hfront⟩
    exact ⟨front.reverse, by simp [hfront]⟩

/-- The body of a refusal, with its type as it stands there and the token that it names. -/
def ErrorBody (body : Bytes) (type : String) (expected : Option Token) : Prop :=
  ∃ v f, readDeep? body = some v ∧
    fields? [["__type"], ["message", "Message"], ["expectedSequenceToken"]] v = some f ∧
    f.withDefault 0 string? "" = some type ∧ (f.optional 1 string?).isSome ∧
    f.optional 2 string? = some expected

theorem complaint_iff {body : Bytes} {kind : String} {expected : Option Token} :
    (∃ c, readDeep? body >>= complaint? = some c ∧ c.kind = kind ∧ c.expected = expected) ↔
      ∃ type, ErrorBody body type expected ∧ AfterLast '#' type kind := by
  simp only [ErrorBody, complaint?, Option.bind_eq_bind, Option.bind_eq_some_iff,
    Option.isSome_iff_exists, ← bareKind_eq_iff]
  constructor
  · rintro ⟨_, ⟨v, hv, f, hf, type, htype, message, hmessage, token, htoken, ⟨⟩⟩, rfl, rfl⟩
    exact ⟨type, ⟨v, f, hv, hf, htype, ⟨message, hmessage⟩, htoken⟩, rfl⟩
  · rintro ⟨type, ⟨v, f, hv, hf, htype, ⟨message, hmessage⟩, htoken⟩, rfl⟩
    exact ⟨_, ⟨v, hv, f, hf, type, htype, message, hmessage, expected, htoken, rfl⟩, rfl, rfl⟩

namespace Response

variable {response : Response} {kind : String} {expected : Option Token}

def Succeeds (response : Response) (body : Bytes) : Prop :=
  ∃ status, response = .answered status body ∧ 200 ≤ status ∧ status < 300

def Fails (response : Response) (status : Nat) (body : Bytes) : Prop :=
  response = .answered status body ∧ ¬(200 ≤ status ∧ status < 300)

-- A success whose body is read so. No body at all is read as an object without members.
def Says {α : Type} (response : Response) (read : Json → Option α) (a : α) : Prop :=
  ∃ body, response.Succeeds body ∧
    (body = [] ∧ read (.object []) = some a ∨ ∃ v, readDeep? body = some v ∧ read v = some a)

def Complains (response : Response) (kind : String) (expected : Option Token) : Prop :=
  ∃ status body type, response.Fails status body ∧ ErrorBody body type expected ∧
    AfterLast '#' type kind

def Refuses (response : Response) (status : Nat) (c : Complaint) : Prop :=
  ∃ body, response.Fails status body ∧ readDeep? body >>= complaint? = some c

theorem complains_iff : response.Complains kind expected ↔
    ∃ status c, response.Refuses status c ∧ c.kind = kind ∧ c.expected = expected := by
  constructor
  · rintro ⟨status, body, type, hfails, hbody, hkind⟩
    obtain ⟨c, hc, hkind, hexpected⟩ := complaint_iff.mpr ⟨type, hbody, hkind⟩
    exact ⟨status, c, ⟨body, hfails, hc⟩, hkind, hexpected⟩
  · rintro ⟨status, c, ⟨body, hfails, hc⟩, hkind, hexpected⟩
    obtain ⟨type, hbody, hkind⟩ := complaint_iff.mp ⟨c, hc, hkind, hexpected⟩
    exact ⟨status, body, type, hfails, hbody, hkind⟩

example : (answered 400 (record [("__type", .text "logs#ThrottlingException")]).compact).Complains
    "ThrottlingException" none :=
  complains_iff.mpr ⟨400, ⟨"ThrottlingException", "", none⟩, ⟨_, ⟨rfl, by decide⟩, rfl⟩, rfl, rfl⟩

end Response

section Decode

variable {α : Type} {read : Json → Option α} {a : α} {body : Bytes} {response : Response}

theorem success_ok_iff : success read body = .ok a ↔
    body = [] ∧ read (.object []) = some a ∨ ∃ v, readDeep? body = some v ∧ read v = some a := by
  unfold success
  rcases body with _ | ⟨byte, body⟩
  · have hnothing : readDeep? [] = none := by decide
    cases hread : read (.object []) <;> simp [hread, hnothing]
  · cases hv : readDeep? (byte :: body) with
    | none => simp
    | some v => cases hread : read v <;> simp [hread]

theorem Response.decode_ok_iff : response.decode read = some (.ok a) ↔ response.Says read a := by
  rcases response with ⟨status, body⟩ | _ | _
  · have hbody : Says (.answered status body) read a ↔ (200 ≤ status ∧ status < 300) ∧
        success read body = .ok a := by
      rw [success_ok_iff]
      constructor
      · rintro ⟨_, ⟨_, ⟨⟩, hstatus⟩, hread⟩
        exact ⟨hstatus, hread⟩
      · rintro ⟨hstatus, hread⟩
        exact ⟨body, ⟨status, rfl, hstatus⟩, hread⟩
    rw [hbody]
    by_cases hstatus : 200 ≤ status ∧ status < 300 <;> simp [Response.decode, hstatus]
  · simp [Response.decode, Says, Succeeds]
  · simp [Response.decode, Says, Succeeds]

theorem Response.Refuses.decode {status : Nat} {c : Complaint} (h : response.Refuses status c) :
    response.decode read = some (.error (c.error status)) := by
  obtain ⟨body, ⟨rfl, hstatus⟩, hc⟩ := h
  simp [Response.decode, hstatus, errorOf, hc]

end Decode

namespace Complaint

variable {c : Complaint} {status : Nat} {expected : Option Token}

theorem error_dataAlreadyAccepted : c.error status = .dataAlreadyAccepted expected ↔
    c.kind = "DataAlreadyAcceptedException" ∧ c.expected = expected := by
  unfold error
  split_ifs <;> simp_all

theorem error_invalidSequenceToken : c.error status = .invalidSequenceToken expected ↔
    c.kind = "InvalidSequenceTokenException" ∧ c.expected = expected := by
  unfold error
  split_ifs <;> simp_all

theorem error_invalidParameter : (∃ message, c.error status = .invalidParameter message) ↔
    c.kind = "InvalidParameterException" := by
  unfold error
  split_ifs <;> simp_all

theorem error_notFound : (∃ message, c.error status = .notFound message) ↔
    c.kind = "ResourceNotFoundException" := by
  unfold error
  split_ifs <;> simp_all

theorem error_alreadyExists : (∃ message, c.error status = .alreadyExists message) ↔
    c.kind = "ResourceAlreadyExistsException" := by
  unfold error
  split_ifs <;> simp_all

end Complaint

theorem Response.Complains.alreadyExists {α : Type} {read : Json → Option α} {response : Response}
    {expected : Option Token}
    (h : response.Complains "ResourceAlreadyExistsException" expected) :
    ∃ message, response.decode read = some (.error (.alreadyExists message)) := by
  obtain ⟨status, c, hc, hkind, -⟩ := Response.complains_iff.mp h
  obtain ⟨message, hmessage⟩ : ∃ message, c.error status = .alreadyExists message :=
    Complaint.error_alreadyExists.mpr hkind
  exact ⟨message, hmessage ▸ hc.decode⟩

end Gateway
end LogRelay
