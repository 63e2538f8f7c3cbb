/-! Named members of a record, in the order in which they were written. -/

namespace LogRelay

/-- The one value among the members with one of the names, if there is any; a second one is
refused. -/
def slot? {α : Type} (names : List String) : List (String × α) → Option (Option α)
  | [] => some none
  | (k, v) :: rest =>
    match slot? names rest with
    | none => none
    | some found =>
      if names.contains k then (if found.isSome then none else some (some v)) else some found

end LogRelay
