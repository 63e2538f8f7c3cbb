import LogRelay.Proofs.Fields
import LogRelay.Proofs.JsonSpelling

/-! The compact form of a value is one of its texts, so the value is read back from it. Records are
read back if their values are. -/

namespace LogRelay.Json

/-! ### Series -/

section Series

variable {α : Type} {Item : Bytes → α → Prop} {spell : α → Bytes}

def separated (spell : α → Bytes) : List α → Bytes
  | [] => []
  | a :: as => spell a ++ as.flatMap fun x => 0x2C :: spell x

theorem space_nil : Space [] := List.forall_mem_nil _

theorem series_separated {a : α} {as : List α} (h : ∀ x ∈ a :: as, Item (spell x) x) :
    Series Item (separated spell (a :: as)) (a :: as) := by
  induction as generalizing a with
  | nil => exact .last (h a List.mem_cons_self) space_nil
  | cons next as ih =>
    have hrest := ih fun x hx => h x (List.mem_cons_of_mem a hx)
    have hmore := Series.more (h a List.mem_cons_self) space_nil space_nil hrest
    simpa [separated] using hmore

theorem enclosed_separated {as : List α} (h : ∀ x ∈ as, Item (spell x) x) :
    Enclosed Item (separated spell as) as := by
  cases as with
  | nil => exact .none space_nil
  | cons a as =>
    have hsome := Enclosed.some space_nil (series_separated h)
    rwa [List.nil_append] at hsome

end Series

/-! ### Values -/

def memberSpelling (m : Bytes × Json) : Bytes := quoted m.1 ++ 0x3A :: m.2.compact

theorem compactMembers_eq (ms : List (Bytes × Json)) :
    compactMembers ms = ms.flatMap (fun m => 0x2C :: memberSpelling m) ++ [0x7D] := by
  induction ms with
  | nil => rfl
  | cons m ms ih =>
    rw [compactMembers, ih, List.flatMap_cons]
    simp [memberSpelling]

theorem compact_object (ms : List (Bytes × Json)) :
    (object ms).compact = 0x7B :: (separated memberSpelling ms ++ [0x7D]) := by
  cases ms with
  | nil => rfl
  | cons m ms =>
    rw [compact, compactMembers_eq, separated]
    simp [memberSpelling]

theorem compactItems_eq (vs : List Json) :
    compactItems vs = vs.flatMap (fun v => 0x2C :: v.compact) ++ [0x5D] := by
  induction vs with
  | nil => rfl
  | cons v vs ih =>
    rw [compactItems, ih, List.flatMap_cons]
    simp

theorem compact_array (vs : List Json) :
    (array vs).compact = 0x5B :: (separated compact vs ++ [0x5D]) := by
  cases vs with
  | nil => rfl
  | cons v vs =>
    rw [compact, compactItems_eq, separated]
    simp

theorem spells_text (s : String) : Spells (text s).compact (text s) :=
  .string (Quoted.spelling_encode s)

theorem spells_int (i : Int) : Spells (int i).compact (int i) := .number (Numeral.spells_ofInt i)

theorem spells_array {vs : List Json} (h : ∀ v ∈ vs, Spells v.compact v) :
    Spells (array vs).compact (array vs) := by
  rw [compact_array]
  exact .array (enclosed_separated h)

theorem spells_record {members : List (String × Json)} (h : ∀ m ∈ members, Spells m.2.compact m.2) :
    Spells (record members).compact (record members) := by
  rw [record, compact_object]
  refine .object (enclosed_separated fun m hm => ?_)
  obtain ⟨⟨k, v⟩, hkv, rfl⟩ := List.mem_map.mp hm
  exact .mk (Quoted.spelling_encode k) space_nil space_nil (h _ hkv)

theorem nests_record {depth : Nat} {members : List (String × Json)}
    (h : ∀ m ∈ members, m.2.nests depth = true) : (record members).nests (depth + 1) = true := by
  simpa [record, nests] using fun k v hm => h (k, v) hm

theorem read?_compact {depth : Nat} {v : Json} (h : Spells v.compact v)
    (hdepth : v.nests depth = true) : read? depth v.compact = some v := by
  have hread : read? depth ([] ++ v.compact ++ []) = _ := read?_spells h space_nil space_nil
  simpa [hdepth] using hread

/-! ### Soundness -/

theorem sound_text (s : String) : (text s).sound = true := by
  simp [text, sound, Quoted.decode?_encode]

theorem sound_int {i : Int} (h : i.natAbs < 0x10000000000000000) : (int i).sound = true :=
  Numeral.finite_ofInt h

theorem sound_record {members : List (String × Json)} (h : ∀ m ∈ members, m.2.sound = true) :
    (record members).sound = true := by
  rw [record, sound]
  induction members with
  | nil => rfl
  | cons m members ih =>
    have hrest := ih fun m hm => h m (List.mem_cons_of_mem _ hm)
    simp [soundMembers, Quoted.decode?_encode, h m List.mem_cons_self, hrest]

theorem mapM_map {α β : Type} {encode : α → β} {read : β → Option α}
    (h : ∀ a, read (encode a) = some a) (l : List α) : (l.map encode).mapM read = some l := by
  rw [mapM_eq_some_iff, List.forall₂_map_left_iff, List.forall₂_same]
  exact fun a _ => h a

theorem decodeKeys?_encode (members : List (String × Json)) :
    decodeKeys? (members.map fun m => (Quoted.encode m.1, m.2)) = some members := by
  apply mapM_map
  rintro ⟨k, v⟩
  simp [Quoted.decode?_encode]

theorem fields?_record (names : List (List String)) (members : List (String × Json)) :
    fields? names (record members) = fieldsOfMembers? names members := by
  rw [record, fields?, decodeKeys?_encode]
  rfl

/-! ### One line -/

def Printable (bs : Bytes) : Prop := ∀ b ∈ bs, (0x20 : UInt8) ≤ b

theorem Printable.append {bs bs' : Bytes} (h : Printable bs) (h' : Printable bs') :
    Printable (bs ++ bs') := List.forall_mem_append.mpr ⟨h, h'⟩

theorem Printable.cons {b : UInt8} {bs : Bytes} (hb : 0x20 ≤ b) (h : Printable bs) :
    Printable (b :: bs) := List.forall_mem_cons.mpr ⟨hb, h⟩

theorem printable_quoted (s : String) : Printable (quoted (Quoted.encode s)) := by
  have hclose : Printable [0x22] := by simp [Printable]
  exact .append (.cons (by decide) (Quoted.encode_printable s)) hclose

theorem printable_text (s : String) : Printable (text s).compact := printable_quoted s

theorem printable_int (i : Int) : Printable (int i).compact := Numeral.spell_printable i

theorem printable_record {members : List (String × Json)}
    (h : ∀ m ∈ members, Printable m.2.compact) : Printable (record members).compact := by
  have hmember : ∀ m ∈ members, Printable (memberSpelling (Quoted.encode m.1, m.2)) := fun m hm =>
    .append (printable_quoted m.1) (.cons (by decide) (h m hm))
  have hclose : Printable [0x7D] := by simp [Printable]
  rw [record, compact_object]
  refine .cons (by decide) (.append ?_ hclose)
  cases members with
  | nil => simp [Printable, separated]
  | cons m members =>
    refine .append (hmember m List.mem_cons_self) ?_
    intro b hb
    obtain ⟨m', hm', hb⟩ := List.mem_flatMap.mp hb
    obtain ⟨m'', hm'', rfl⟩ := List.mem_map.mp hm'
    exact Printable.cons (by decide) (hmember m'' (List.mem_cons_of_mem m hm'')) b hb

end LogRelay.Json
