/-! Finite maps from source names, kept in the order of the names. A name is ordered by its code
points, which is the order of its UTF-8 bytes. -/

namespace LogRelay

abbrev SourceId := String

structure Roster (α : Type) where
  entries : List (SourceId × α)
  ordered : entries.Pairwise (fun a b => a.1 < b.1)

namespace Roster

variable {α : Type}

def empty : Roster α := ⟨[], List.Pairwise.nil⟩

def find? (r : Roster α) (id : SourceId) : Option α :=
  (r.entries.find? fun e => e.1 = id).map (·.2)

def contains (r : Roster α) (id : SourceId) : Bool := (r.find? id).isSome

def ids (r : Roster α) : List SourceId := r.entries.map (·.1)

def size (r : Roster α) : Nat := r.entries.length

def place (id : SourceId) (a : α) : List (SourceId × α) → List (SourceId × α)
  | [] => [(id, a)]
  | e :: rest =>
    if id < e.1 then (id, a) :: e :: rest
    else if id = e.1 then (id, a) :: rest
    else e :: place id a rest

theorem mem_place {id : SourceId} {a : α} {l : List (SourceId × α)} {e : SourceId × α}
    (h : e ∈ place id a l) : e = (id, a) ∨ e ∈ l := by
  induction l with
  | nil => simpa [place] using h
  | cons x rest ih =>
    simp only [place] at h
    split at h
    · simpa using h
    · split at h
      · rcases List.mem_cons.mp h with rfl | h
        · exact Or.inl rfl
        · exact Or.inr (List.mem_cons_of_mem _ h)
      · rcases List.mem_cons.mp h with rfl | h
        · exact Or.inr (List.mem_cons_self ..)
        · exact (ih h).elim Or.inl fun h => Or.inr (List.mem_cons_of_mem _ h)

theorem place_ordered {id : SourceId} {a : α} {l : List (SourceId × α)}
    (h : l.Pairwise (fun a b => a.1 < b.1)) :
    (place id a l).Pairwise (fun a b => a.1 < b.1) := by
  induction l with
  | nil => simp [place]
  | cons x rest ih =>
    obtain ⟨hx, hrest⟩ := List.pairwise_cons.mp h
    simp only [place]
    split
    · rename_i hlt
      refine List.pairwise_cons.mpr ⟨fun e he => ?_, h⟩
      rcases List.mem_cons.mp he with rfl | he
      · exact hlt
      · exact String.lt_trans hlt (hx e he)
    · rename_i hnlt
      split
      · rename_i heq
        refine List.pairwise_cons.mpr ⟨fun e he => ?_, hrest⟩
        simpa [heq] using hx e he
      · rename_i hne
        refine List.pairwise_cons.mpr ⟨fun e he => ?_, ih hrest⟩
        rcases mem_place he with rfl | he
        · rcases Std.lt_trichotomy id x.1 with hlt | heq | hgt
          · exact absurd hlt hnlt
          · exact absurd heq hne
          · exact hgt
        · exact hx e he

def insert (r : Roster α) (id : SourceId) (a : α) : Roster α :=
  ⟨place id a r.entries, place_ordered r.ordered⟩

def erase (r : Roster α) (id : SourceId) : Roster α :=
  ⟨r.entries.filter fun e => e.1 ≠ id, r.ordered.filter _⟩

def set (r : Roster α) (id : SourceId) (a : α) : Roster α :=
  ⟨r.entries.map fun e => if e.1 = id then (e.1, a) else e, by
    refine List.pairwise_map.mpr (r.ordered.imp ?_)
    intro x y hxy
    split <;> split <;> exact hxy⟩

end Roster

namespace Roster

variable {α : Type}

theorem find?_eq_some {r : Roster α} {id : SourceId} {a : α} :
    r.find? id = some a ↔ (id, a) ∈ r.entries := by
  obtain ⟨l, h⟩ := r
  simp only [find?]
  induction l with
  | nil => simp
  | cons x rest ih =>
    obtain ⟨hx, hrest⟩ := List.pairwise_cons.mp h
    by_cases hid : x.1 = id
    · have hrest' : (id, a) ∉ rest := fun hm => String.lt_irrefl _ (hid ▸ hx _ hm)
      subst hid
      simp [hrest', Prod.ext_iff, eq_comm]
    · have hne : (id, a) ≠ x := fun he => hid (he ▸ rfl)
      simpa [List.find?_cons, hid, hne] using ih hrest

@[simp] theorem find?_empty (id : SourceId) : (empty : Roster α).find? id = none := rfl

theorem find?_insert (r : Roster α) (id k : SourceId) (a : α) :
    (r.insert id a).find? k = if k = id then some a else r.find? k := by
  have hplace (l : List (SourceId × α)) : (place id a l).find? (fun e => e.1 = k) =
      if k = id then some (id, a) else l.find? fun e => e.1 = k := by
    induction l with
    | nil => by_cases hk : k = id <;> simp [place, hk, Ne.symm]
    | cons x rest ih =>
      simp only [place]
      split
      · by_cases hk : k = id <;> simp [List.find?_cons, hk, Ne.symm]
      · split
        · rename_i heq
          by_cases hk : k = id <;> simp [← heq, hk, Ne.symm]
        · rename_i hne
          by_cases hk : k = id
          · subst hk
            simpa [List.find?_cons, Ne.symm hne] using ih
          · simp [List.find?_cons, ih, hk]
  simp only [find?, insert, hplace]
  split <;> rfl

theorem find?_erase (r : Roster α) (id k : SourceId) :
    (r.erase id).find? k = if k = id then none else r.find? k := by
  ext a
  by_cases hk : k = id
  · simp [find?_eq_some, erase, hk]
  · simp [find?_eq_some, erase, hk]

theorem find?_set (r : Roster α) (id k : SourceId) (a : α) :
    (r.set id a).find? k = if k = id then (r.find? k).map fun _ => a else r.find? k := by
  have hkeys : (fun e : SourceId × α => decide (e.1 = k)) ∘
      (fun e => if e.1 = id then (e.1, a) else e) = fun e => decide (e.1 = k) := by
    funext e
    simp only [Function.comp]
    split <;> rfl
  simp only [find?, set, List.find?_map, hkeys]
  cases hfound : r.entries.find? fun e => decide (e.1 = k) with
  | none => simp
  | some e =>
    have he : e.1 = k := by simpa using List.find?_some hfound
    by_cases hk : k = id <;> simp [he, hk]

@[simp] theorem ids_set (r : Roster α) (id : SourceId) (a : α) : (r.set id a).ids = r.ids := by
  simp only [ids, set, List.map_map]
  refine List.map_congr_left fun e _ => ?_
  simp only [Function.comp]
  split <;> rfl

theorem ids_nodup (r : Roster α) : r.ids.Nodup := by
  refine List.pairwise_map.mpr (r.ordered.imp ?_)
  intro x y hlt heq
  exact String.lt_irrefl _ (heq ▸ hlt)

theorem mem_ids {r : Roster α} {id : SourceId} : id ∈ r.ids ↔ (r.find? id).isSome := by
  simp only [ids, List.mem_map, Option.isSome_iff_exists, find?_eq_some]
  constructor
  · rintro ⟨⟨_, a⟩, ha, rfl⟩
    exact ⟨a, ha⟩
  · rintro ⟨a, ha⟩
    exact ⟨_, ha, rfl⟩

end Roster

/-- An order in which to go through the sources: any, as long as none is left out or come to
twice. -/
structure Visit where
  order : List SourceId → List SourceId
  perm (ids : List SourceId) : (order ids).Perm ids

def Visit.byName : Visit := ⟨id, fun _ => .refl _⟩

def Roster.along {α : Type} (r : Roster α) (v : Visit) : List (SourceId × α) :=
  (v.order r.ids).filterMap fun id => (r.find? id).map (id, ·)

theorem Visit.nodup {α : Type} (v : Visit) (r : Roster α) : (v.order r.ids).Nodup :=
  (v.perm r.ids).nodup_iff.mpr r.ids_nodup

theorem Visit.mem {α : Type} {v : Visit} {r : Roster α} {id : SourceId} :
    id ∈ v.order r.ids ↔ (r.find? id).isSome := (v.perm r.ids).mem_iff.trans Roster.mem_ids

theorem Roster.mem_along {α : Type} {r : Roster α} {v : Visit} {id : SourceId} {a : α} :
    (id, a) ∈ r.along v ↔ r.find? id = some a := by
  simp only [along, List.mem_filterMap, Option.map_eq_some_iff, Prod.mk.injEq]
  constructor
  · rintro ⟨_, _, _, ha, rfl, rfl⟩
    exact ha
  · intro ha
    exact ⟨id, Visit.mem.mpr (ha ▸ rfl), a, ha, rfl, rfl⟩

theorem Roster.along_ids {α : Type} (r : Roster α) (v : Visit) :
    (r.along v).map (·.1) = v.order r.ids := by
  have hall (l : List SourceId) (hl : ∀ id ∈ l, (r.find? id).isSome) :
      (l.filterMap fun id => (r.find? id).map (id, ·)).map (·.1) = l := by
    induction l with
    | nil => rfl
    | cons id rest ih =>
      obtain ⟨a, ha⟩ := Option.isSome_iff_exists.mp (hl id (List.mem_cons_self ..))
      have hrest := ih fun k hk => hl k (List.mem_cons_of_mem _ hk)
      simpa [ha] using hrest
  exact hall _ fun _ => Visit.mem.mp

end LogRelay
