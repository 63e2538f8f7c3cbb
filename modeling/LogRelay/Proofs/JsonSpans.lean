import LogRelay.Proofs.JsonGrammar

/-! Where in a text the strings of its value stand, and how long the spelling of a string may be.
A reader leaves an end of the text, so what it has read stands in front of that. -/

namespace LogRelay

namespace Quoted

end Quoted

/-! ### What readers leave -/

namespace Numeral

end Numeral

namespace Json

section Items

variable {α : Type} {close : UInt8} {item : Bytes → Option (α × Bytes)}

def FoundIn (item : Bytes → Option (α × Bytes)) (a : α) (bs : Bytes) : Prop :=
  ∃ here rest, here <:+ bs ∧ item here = some (a, rest)

theorem FoundIn.mono {a : α} {bs bs' : Bytes} (h : FoundIn item a bs) (hbs : bs <:+ bs') :
    FoundIn item a bs' := by
  obtain ⟨here, rest, hhere, hitem⟩ := h
  exact ⟨here, rest, hhere.trans hbs, hitem⟩

end Items

section Values

variable {read : Bytes → Option (Json × Bytes)}

end Values
end Json
end LogRelay
