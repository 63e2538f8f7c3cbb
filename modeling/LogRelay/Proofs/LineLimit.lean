import LogRelay.Config.Basic
import LogRelay.Proofs.Fields
import LogRelay.Proofs.JsonSpans
import LogRelay.Proofs.LineFraming

/-! A line that holds a message of acceptable size is within the limit, however the message is
spelled, unless what surrounds the message takes more than the room that is left for it. -/

namespace LogRelay

theorem Config.demand_eq_nil {condition : Bool} {p : Problem} :
    demand condition p = [] ↔ condition = true := by
  unfold demand
  split <;> simp_all

namespace HostMessage

variable {source message : String} {time : Option Int}

def Quotes (text spelling : Bytes) : Prop :=
  ∃ before after, text = before ++ Json.quoted spelling ++ after

theorem Quotes.mono {text longer spelling : Bytes} (h : Quotes text spelling)
    (hsuffix : text <:+ longer) : Quotes longer spelling := by
  obtain ⟨before, after, rfl⟩ := h
  obtain ⟨front, rfl⟩ := hsuffix
  exact ⟨front ++ before, after, by simp⟩

end HostMessage
end LogRelay
