import LogRelay.Proofs.Fields
import LogRelay.Proofs.HostStream

/-! A message is told by the members of an object, not by the text of it. What stands under a name
decides; the order of the members, the white space, the spelling of the strings and the members of
other names do not. -/

namespace LogRelay

namespace HostMessage

open Json (Spells Space Fields space_nil)

/-! ### Values under a name -/

def valuesOf (names : List String) (members : List (Bytes × Json)) : List Json :=
  members.filterMap fun m => (Quoted.decode? m.1).bind fun k => if k ∈ names then some m.2 else none

theorem map_filter_decoded {members : List (Bytes × Json)} {named : List (String × Json)}
    (h : Json.decodeKeys? members = some named) (names : List String) :
    (named.filter (·.1 ∈ names)).map (·.2) = valuesOf names members := by
  rw [Json.decodeKeys?_eq_some_iff] at h
  induction h with
  | nil => rfl
  | @cons m d _ _ hm _ ih =>
    obtain ⟨hkey, hv⟩ := hm
    rw [valuesOf, List.filterMap_cons, ← valuesOf, ← ih, List.filter_cons, hkey]
    by_cases hk : d.1 ∈ names <;> simp [hk, hv]

theorem slot?_decoded {members : List (Bytes × Json)} {named : List (String × Json)}
    (h : Json.decodeKeys? members = some named) {names : List String} {o : Option Json} :
    slot? names named = some o ↔ valuesOf names members = o.toList := by
  rw [slot?_eq_some_iff, map_filter_decoded h]

theorem slot?_untyped {members : List (Bytes × Json)} {named : List (String × Json)}
    (h : Json.decodeKeys? members = some named) {names : List String} (hnames : typeName ∉ names)
    {o : Option Json} : slot? names (named.filter fun m => m.1 ≠ typeName) = some o ↔
      valuesOf names members = o.toList := by
  have hsame : (named.filter fun m => m.1 ≠ typeName).filter (·.1 ∈ names) =
      named.filter (·.1 ∈ names) := by
    rw [List.filter_filter]
    refine List.filter_congr fun m _ => ?_
    by_cases htype : m.1 = typeName
    · simp [htype, hnames]
    · simp [htype]
  rw [slot?_eq_some_iff, hsame, map_filter_decoded h]

theorem Kind.ofName?_eq_some_iff {s : String} {k : Kind} :
    Kind.ofName? s = some k ↔ s = k.name := by
  constructor
  · intro h
    unfold Kind.ofName? at h
    split_ifs at h with hstart hstop hlog <;> cases h <;> assumption
  · rintro rfl
    cases k <;> rfl

theorem Kind.name_inj {k k' : Kind} (h : k.name = k'.name) : k = k' :=
  Option.some.inj ((ofName?_eq_some_iff.mpr rfl).symm.trans (ofName?_eq_some_iff.mpr h))

theorem Kind.typeName_not_mem (k : Kind) : ∀ field ∈ k.fieldNames, typeName ∉ field := by
  cases k <;> decide

theorem Kind.singleton_mem_of_mem_flatten (k : Kind) {name : String}
    (h : name ∈ k.fieldNames.flatten) : [name] ∈ k.fieldNames := by
  cases k <;> simpa [fieldNames] using h

theorem fieldsOfMembers?_untyped {members : List (Bytes × Json)} {named : List (String × Json)}
    (h : Json.decodeKeys? members = some named) {k : Kind} {f : Fields} :
    Json.fieldsOfMembers? k.fieldNames (named.filter fun m => m.1 ≠ typeName) = some f ↔
      f.positional = false ∧
        List.Forall₂ (fun field o => valuesOf field members = o.toList) k.fieldNames f.slots := by
  have hnames := k.typeName_not_mem
  rw [Json.fieldsOfMembers?_eq_some_iff]
  refine and_congr_right fun _ => ⟨fun hslots => ?_, fun hvalues => ?_⟩
  · exact ((List.forall₂_and_left _ _).mpr ⟨hnames, hslots⟩).imp fun field o hfield =>
      (slot?_untyped h hfield.1).mp hfield.2
  · exact ((List.forall₂_and_left _ _).mpr ⟨hnames, hvalues⟩).imp fun field o hfield =>
      (slot?_untyped h hfield.1).mpr hfield.2

theorem ofJson?_eq_some_iff {members : List (Bytes × Json)} {named : List (String × Json)}
    (h : Json.decodeKeys? members = some named) {m : HostMessage} :
    ofJson? (.object members) = some m ↔ ∃ tag k slots, valuesOf [typeName] members = [tag] ∧
      tag.string? = some (Kind.name k) ∧
      List.Forall₂ (fun field o => valuesOf field members = o.toList) k.fieldNames slots ∧
      ofFields? ⟨false, slots⟩ k = some m := by
  constructor
  · intro hread
    obtain ⟨named', hnamed, hread⟩ := Option.bind_eq_some_iff.mp hread
    obtain rfl := Option.some.inj (h.symm.trans hnamed)
    obtain ⟨slot, hslot, hread'⟩ := Option.bind_eq_some_iff.mp hread
    obtain ⟨tag, rfl, htag⟩ := Option.bind_eq_some_iff.mp hread'
    obtain ⟨name, hname, hkind⟩ := Option.bind_eq_some_iff.mp htag
    obtain ⟨k, hk, hfields⟩ := Option.bind_eq_some_iff.mp hkind
    obtain ⟨⟨positional, slots⟩, hslots, hmessage⟩ := Option.bind_eq_some_iff.mp hfields
    obtain ⟨rfl, hvalues⟩ := (fieldsOfMembers?_untyped h).mp hslots
    obtain rfl := Kind.ofName?_eq_some_iff.mp hk
    exact ⟨tag, k, slots, (slot?_decoded h).mp hslot, hname, hvalues, hmessage⟩
  · rintro ⟨tag, k, slots, htag, hname, hvalues, hmessage⟩
    have hslot : slot? [typeName] named = some (some tag) := (slot?_decoded h).mpr htag
    have hkind := Kind.ofName?_eq_some_iff.mpr (rfl : k.name = k.name)
    have hfields : Json.fieldsOfMembers? k.fieldNames _ = some ⟨false, slots⟩ :=
      (fieldsOfMembers?_untyped h).mpr ⟨rfl, hvalues⟩
    refine Option.bind_eq_some_iff.mpr ⟨named, h, ?_⟩
    simp only [hslot, Option.bind_eq_bind, Option.bind_some, hname, hkind]
    exact Option.bind_eq_some_iff.mpr ⟨_, hfields, hmessage⟩

/-! ### Members that tell a message -/

def Named (name : String) (m : Bytes × Json) : Prop := Quoted.Spells m.1 (Utf8.encode name)

instance (name : String) (m : Bytes × Json) : Decidable (Named name m) :=
  inferInstanceAs (Decidable (Quoted.Spells m.1 (Utf8.encode name)))

inductive TellsText (s : String) : Json → Prop
  | mk {spelling : Bytes} (h : Quoted.Spells spelling (Utf8.encode s)) :
      TellsText s (.string spelling)

def TellsTime (time : Int) (v : Json) : Prop :=
  (-0x8000000000000000 ≤ time ∧ time < 0x8000000000000000) ∧ v = .int time

inductive MayTell {α : Type} (name : String) (Tells : α → Json → Prop) :
    Option α → List (Bytes × Json) → Prop
  | omitted : MayTell name Tells none []
  | null {m : Bytes × Json} (hname : Named name m) (hnull : m.2 = .null) :
      MayTell name Tells none [m]
  | given {m : Bytes × Json} {a : α} (hname : Named name m) (h : Tells a m.2) :
      MayTell name Tells (some a) [m]

inductive Tells : HostMessage → List (Bytes × Json) → Prop
  | start {s : String} {group stream : Option String} {source : Bytes × Json}
      {groups streams : List (Bytes × Json)} (hname : Named "source" source)
      (hsource : TellsText s source.2) (hgroup : MayTell "group" TellsText group groups)
      (hstream : MayTell "stream" TellsText stream streams) :
      Tells (start s group stream) (source :: (groups ++ streams))
  | stop {s : String} {source : Bytes × Json} (hname : Named "source" source)
      (hsource : TellsText s source.2) : Tells (stop s) [source]
  | log {s text : String} {time : Option Int} {source message : Bytes × Json}
      {times : List (Bytes × Json)} (hname : Named "source" source)
      (hsource : TellsText s source.2) (hname' : Named "message" message)
      (hmessage : TellsText text message.2) (htime : MayTell "timestamp" TellsTime time times) :
      Tells (log s text time) (source :: message :: times)

def Kind.names (k : Kind) : List String := typeName :: k.fieldNames.flatten

/-- The members of a message, type and all, in any order among others with names that its kind does
not know. -/
def Holds (Foreign : Json → Prop) (m : HostMessage) (members : List (Bytes × Json)) : Prop :=
  ∃ tag own others, Named typeName tag ∧ TellsText m.kind.name tag.2 ∧ m.Tells own ∧
    members.Perm (tag :: own ++ others) ∧
    ∀ x ∈ others, (∃ name, Named name x ∧ name ∉ m.kind.names) ∧ Foreign x.2

theorem named_encode (name : String) (v : Json) : Named name (Quoted.encode name, v) :=
  Quoted.spells_encode name

theorem tellsText_text (s : String) : TellsText s (.text s) := ⟨Quoted.spells_encode s⟩

theorem decode?_of_named {name : String} {m : Bytes × Json} (h : Named name m) :
    Quoted.decode? m.1 = some name := (Quoted.decode?_eq_some_iff h.spelling).mpr h

theorem TellsText.string? {s : String} {v : Json} (h : TellsText s v) : v.string? = some s := by
  obtain ⟨h⟩ := h
  exact (Quoted.decode?_eq_some_iff h.spelling).mpr h

section Values

variable {names : List String} {name : String} {m : Bytes × Json} {members : List (Bytes × Json)}

@[simp]
theorem valuesOf_nil : valuesOf names [] = [] := rfl

theorem valuesOf_cons_named (h : Named name m) : valuesOf names (m :: members) =
    if name ∈ names then m.2 :: valuesOf names members else valuesOf names members := by
  rw [valuesOf, List.filterMap_cons, decode?_of_named h, ← valuesOf]
  by_cases hname : name ∈ names <;> simp [hname]

theorem valuesOf_append (members members' : List (Bytes × Json)) :
    valuesOf names (members ++ members') = valuesOf names members ++ valuesOf names members' :=
  List.filterMap_append

-- Members of other names, wherever they stand, do not count.
theorem valuesOf_of_perm {own others : List (Bytes × Json)} {o : Option Json}
    (hperm : members.Perm (own ++ others))
    (hothers : ∀ x ∈ others, ∃ name, Named name x ∧ name ∉ names)
    (hown : valuesOf names own = o.toList) : valuesOf names members = o.toList := by
  have hnone : valuesOf names others = [] := by
    refine List.filterMap_eq_nil_iff.mpr fun x hx => ?_
    obtain ⟨name, hname, hunknown⟩ := hothers x hx
    simp [decode?_of_named hname, hunknown]
  have hvalues : (valuesOf names members).Perm o.toList := by
    have := hperm.filterMap fun m =>
      (Quoted.decode? m.1).bind fun k => if k ∈ names then some m.2 else none
    rwa [← valuesOf, ← valuesOf, valuesOf_append, hnone, List.append_nil, hown] at this
  cases o with
  | none => exact List.perm_nil.mp hvalues
  | some v => exact List.perm_singleton.mp hvalues

theorem MayTell.found {α : Type} {T : α → Json → Prop} {o : Option α} {read : Json → Option α}
    (h : MayTell name T o members) (hread : ∀ a v, T a v → read v = some a)
    (hnull : read .null = none) :
    ∃ v : Option Json, (∀ names, valuesOf names members = if name ∈ names then v.toList else []) ∧
      ∀ (f : Fields) (i : Nat), f.slots[i]? = some v → f.optional i read = some o := by
  cases h with
  | omitted =>
    exact ⟨none, fun names => by simp [valuesOf], fun f i h => by simp [Fields.optional, h]⟩
  | @null m hname hm =>
    exact ⟨some .null, fun names => by rw [valuesOf_cons_named hname, hm]; rfl,
      fun f i h => by simp [Fields.optional, h]⟩
  | @given m a hname h =>
    refine ⟨some m.2, fun names => by rw [valuesOf_cons_named hname]; rfl, fun f i hslot => ?_⟩
    have hv := hread a m.2 h
    have hne : m.2 ≠ .null := by
      intro heq
      rw [heq, hnull] at hv
      cases hv
    simp [Fields.optional, hslot, hv]

end Values

theorem TellsTime.int64? {time : Int} {v : Json} (h : TellsTime time v) : v.int64? = some time := by
  obtain ⟨hfits, rfl⟩ := h
  exact int64?_int hfits

theorem Tells.found {m : HostMessage} {own : List (Bytes × Json)} (h : m.Tells own) :
    ∃ slots, valuesOf [typeName] own = [] ∧
      List.Forall₂ (fun field o => valuesOf field own = o.toList) m.kind.fieldNames slots ∧
      ofFields? ⟨false, slots⟩ m.kind = some m := by
  cases h with
  | @start s group stream source groups streams hname hsource hgroup hstream =>
    obtain ⟨v, hgroups, hread⟩ := hgroup.found (fun _ _ => TellsText.string?) rfl
    obtain ⟨v', hstreams, hread'⟩ := hstream.found (fun _ _ => TellsText.string?) rfl
    have hown : ∀ names, valuesOf names (source :: (groups ++ streams)) = _ := fun names =>
      valuesOf_cons_named hname
    refine ⟨[some source.2, v, v'], ?_, .cons ?_ (.cons ?_ (.cons ?_ .nil)), ?_⟩
    · simp [hown, valuesOf_append, hgroups, hstreams, typeName]
    · simp [hown, valuesOf_append, hgroups, hstreams]
    · simp [hown, valuesOf_append, hgroups, hstreams]
    · simp [hown, valuesOf_append, hgroups, hstreams]
    · simp [ofFields?, Fields.required, hread, hread', hsource.string?, kind]
  | @stop s source hname hsource =>
    have hown : ∀ names, valuesOf names [source] = _ := fun names => valuesOf_cons_named hname
    refine ⟨[some source.2], ?_, .cons ?_ .nil, ?_⟩
    · simp [hown, typeName]
    · simp [hown]
    · simp [ofFields?, Fields.required, hsource.string?, kind]
  | @log s text time source message times hname hsource hname' hmessage htime =>
    obtain ⟨v, htimes, hread⟩ := htime.found (fun _ _ => TellsTime.int64?) rfl
    have hown : ∀ names, valuesOf names (source :: message :: times) = _ := fun names =>
      valuesOf_cons_named hname
    have hrest : ∀ names, valuesOf names (message :: times) = _ := fun names =>
      valuesOf_cons_named hname'
    refine ⟨[some source.2, some message.2, v], ?_, .cons ?_ (.cons ?_ (.cons ?_ .nil)), ?_⟩
    · simp [hown, hrest, htimes, typeName]
    · simp [hown, hrest, htimes]
    · simp [hown, hrest, htimes]
    · simp [hown, hrest, htimes]
    · simp [ofFields?, Fields.required, hread, hsource.string?, hmessage.string?, kind]

theorem ofJson?_of_holds {Foreign : Json → Prop} {m : HostMessage}
    {members : List (Bytes × Json)} {named : List (String × Json)}
    (h : Json.decodeKeys? members = some named) (hholds : m.Holds Foreign members) :
    ofJson? (.object members) = some m := by
  obtain ⟨tag, own, others, htag, htype, htells, hperm, hothers⟩ := hholds
  obtain ⟨slots, hnone, hslots, hread⟩ := htells.found
  -- A name of the kind stands for what the message's own members hold under it.
  have hvalues : ∀ (names : List String) (o : Option Json), (∀ name ∈ names, name ∈ m.kind.names) →
      valuesOf names (tag :: own) = o.toList → valuesOf names members = o.toList :=
    fun names o hnames => valuesOf_of_perm hperm fun x hx =>
      (hothers x hx).1.imp fun name hname => ⟨hname.1, fun hmem => hname.2 (hnames name hmem)⟩
  refine (ofJson?_eq_some_iff h).mpr ⟨tag.2, m.kind, slots, ?_, htype.string?, ?_, hread⟩
  · refine hvalues [typeName] (some tag.2) (by simp [Kind.names]) ?_
    rw [valuesOf_cons_named htag, hnone]
    simp
  · have hnames : ∀ field ∈ m.kind.fieldNames, field ∈ m.kind.fieldNames ∧ typeName ∉ field :=
      fun field hfield => ⟨hfield, m.kind.typeName_not_mem field hfield⟩
    refine ((List.forall₂_and_left _ _).mpr ⟨hnames, hslots⟩).imp ?_
    rintro field o ⟨⟨hfield, htype⟩, ho⟩
    refine hvalues field o (fun name hname => ?_) ?_
    · exact List.mem_cons_of_mem _ (List.mem_flatten.mpr ⟨field, hfield, hname⟩)
    · rw [valuesOf_cons_named htag, if_neg htype, ho]

/-! ### Values that a reader takes -/

/-- All strings of the value stand for texts, all numbers are finite, and it may stand as a member
of a line. -/
def Admitted (v : Json) : Prop := v.nests (maxDepth - 1) = true ∧ v.sound = true

theorem sound_object_iff {members : List (Bytes × Json)} : (Json.object members).sound = true ↔
    ∀ x ∈ members, (Quoted.decode? x.1).isSome = true ∧ x.2.sound = true := by
  rw [Json.sound]
  induction members with
  | nil => simp [Json.soundMembers]
  | cons m members ih =>
    obtain ⟨key, v⟩ := m
    simp [Json.soundMembers, ih]

theorem decodeKeys?_of_sound {members : List (Bytes × Json)}
    (h : (Json.object members).sound = true) : ∃ named, Json.decodeKeys? members = some named := by
  rw [sound_object_iff] at h
  induction members with
  | nil => exact ⟨[], rfl⟩
  | cons m members ih =>
    obtain ⟨rest, hrest⟩ := ih fun x hx => h x (List.mem_cons_of_mem m hx)
    obtain ⟨k, hk⟩ := Option.isSome_iff_exists.mp (h m List.mem_cons_self).1
    refine ⟨(k, m.2) :: rest, Json.decodeKeys?_eq_some_iff.mpr (.cons ⟨hk, rfl⟩ ?_)⟩
    exact Json.decodeKeys?_eq_some_iff.mp hrest

theorem TellsText.admitted {s : String} {v : Json} (h : TellsText s v) : Admitted v := by
  have hread := h.string?
  obtain ⟨h⟩ := h
  exact ⟨rfl, Option.isSome_of_eq_some hread⟩

theorem TellsTime.admitted {time : Int} {v : Json} (h : TellsTime time v) : Admitted v := by
  obtain ⟨hfits, rfl⟩ := h
  exact ⟨rfl, Json.sound_int (by omega)⟩

theorem MayTell.admitted {α : Type} {name : String} {T : α → Json → Prop} {o : Option α}
    {members : List (Bytes × Json)} (h : MayTell name T o members)
    (hvalue : ∀ a v, T a v → Admitted v) :
    ∀ x ∈ members, (∃ name, Named name x) ∧ Admitted x.2 := by
  intro x hx
  cases h with
  | omitted => cases hx
  | null hname hnull =>
    obtain rfl := List.mem_singleton.mp hx
    exact ⟨⟨name, hname⟩, hnull ▸ ⟨rfl, rfl⟩⟩
  | given hname h =>
    obtain rfl := List.mem_singleton.mp hx
    exact ⟨⟨name, hname⟩, hvalue _ _ h⟩

theorem Tells.admitted {m : HostMessage} {own : List (Bytes × Json)} (h : m.Tells own) :
    ∀ x ∈ own, (∃ name, Named name x) ∧ Admitted x.2 := by
  cases h with
  | start hname hsource hgroup hstream =>
    refine List.forall_mem_cons.mpr
      ⟨⟨⟨_, hname⟩, hsource.admitted⟩, List.forall_mem_append.mpr ⟨?_, ?_⟩⟩
    · exact hgroup.admitted fun _ _ => TellsText.admitted
    · exact hstream.admitted fun _ _ => TellsText.admitted
  | stop hname hsource => exact List.forall_mem_singleton.mpr ⟨⟨_, hname⟩, hsource.admitted⟩
  | log hname hsource hname' hmessage htime =>
    refine List.forall_mem_cons.mpr ⟨⟨⟨_, hname⟩, hsource.admitted⟩,
      List.forall_mem_cons.mpr ⟨⟨⟨_, hname'⟩, hmessage.admitted⟩, ?_⟩⟩
    exact htime.admitted fun _ _ => TellsTime.admitted

theorem Holds.admitted {m : HostMessage} {members : List (Bytes × Json)}
    (h : m.Holds Admitted members) :
    (Json.object members).nests maxDepth = true ∧ (Json.object members).sound = true := by
  obtain ⟨tag, own, others, htag, htype, htells, hperm, hothers⟩ := h
  have hall : ∀ x ∈ members, (∃ name, Named name x) ∧ Admitted x.2 := by
    intro x hx
    rcases List.mem_append.mp (hperm.mem_iff.mp hx) with hx | hx
    · rcases List.mem_cons.mp hx with rfl | hx
      · exact ⟨⟨typeName, htag⟩, htype.admitted⟩
      · exact htells.admitted x hx
    · exact ⟨(hothers x hx).1.imp fun _ => And.left, (hothers x hx).2⟩
  refine ⟨List.all_eq_true.mpr fun x hx => (hall x hx).2.1, sound_object_iff.mpr fun x hx => ?_⟩
  obtain ⟨⟨name, hname⟩, -, hsound⟩ := hall x hx
  exact ⟨Option.isSome_of_eq_some (decode?_of_named hname), hsound⟩

/-! ### Members that tell none -/

def Kind.required : Kind → List String
  | start => ["source"]
  | stop => ["source"]
  | log => ["source", "message"]

def Typed (k : Kind) (members : List (Bytes × Json)) : Prop :=
  ∃ x ∈ members, Named typeName x ∧ TellsText k.name x.2

/-- The ways in which the members of an object tell no message. -/
inductive Faulty (members : List (Bytes × Json)) : Prop
  | untyped (h : ∀ k, ¬Typed k members)
  | repeated {k : Kind} {name : String} {x y : Bytes × Json} (hk : Typed k members)
      (hname : name ∈ k.names) (h : [x, y].Sublist members) (hx : Named name x) (hy : Named name y)
  | missing {k : Kind} {name : String} (hk : Typed k members) (hname : name ∈ k.required)
      (h : ∀ x ∈ members, ¬Named name x)
  | untimely {x : Bytes × Json} (hk : Typed .log members) (hx : x ∈ members)
      (hname : Named "timestamp" x) (hnull : x.2 ≠ .null) (h : ∀ time, ¬TellsTime time x.2)
  | unread (h : (Json.object members).nests maxDepth = false ∨ (Json.object members).sound = false)

section Read

variable {members : List (Bytes × Json)}

theorem mem_valuesOf {name : String} (hkeys : ∀ x ∈ members, Quoted.Spelling x.1) {v : Json} :
    v ∈ valuesOf [name] members ↔ ∃ x ∈ members, Named name x ∧ x.2 = v := by
  simp only [valuesOf, List.mem_filterMap, Option.bind_eq_some_iff, List.mem_singleton,
    Option.ite_none_right_eq_some, Option.some.injEq]
  refine exists_congr fun x => and_congr_right fun hx => ?_
  constructor
  · rintro ⟨k, hk, rfl, hv⟩
    exact ⟨(Quoted.decode?_eq_some_iff (hkeys x hx)).mp hk, hv⟩
  · rintro ⟨hname, hv⟩
    exact ⟨name, decode?_of_named hname, rfl, hv⟩

theorem tellsText_of_string? {v : Json} {bs : Bytes} {s : String} (h : Spells bs v)
    (hread : v.string? = some s) : TellsText s v := by
  cases h with
  | string hspelling => exact ⟨(Quoted.decode?_eq_some_iff hspelling).mp hread⟩
  | null | true | false | number | array | object => cases hread

theorem tellsTime_of_int64? {v : Json} {bs : Bytes} {time : Int} (h : Spells bs v)
    (hread : v.int64? = some time) : TellsTime time v := by
  cases h with
  | number hnumber =>
    obtain ⟨hint, hfits⟩ := Option.filter_eq_some_iff.mp hread
    rw [Numeral.eq_ofInt_of_toInt? hnumber hint]
    exact ⟨by simpa using hfits, rfl⟩
  | null | true | false | string | array | object => cases hread

theorem required_found {α : Type} {f : Fields} {i : Nat} {read : Json → Option α} {a : α}
    (h : f.required i read = some a) : ∃ v, f.slots[i]? = some (some v) := by
  obtain ⟨v, hslot, -⟩ := Option.bind_eq_some_iff.mp h
  exact ⟨v, Option.join_eq_some_iff.mp hslot⟩

theorem found_of_ofFields? {f : Fields} {k : Kind} {m : HostMessage} (h : ofFields? f k = some m)
    {name : String} (hname : name ∈ k.required) :
    ∃ (i : Nat) (v : Json), k.fieldNames[i]? = some [name] ∧ f.slots[i]? = some (some v) := by
  cases k with
  | start | stop =>
    obtain rfl := List.mem_singleton.mp hname
    obtain ⟨_, hsource, -⟩ := Option.bind_eq_some_iff.mp h
    obtain ⟨v, hv⟩ := required_found hsource
    exact ⟨0, v, rfl, hv⟩
  | log =>
    obtain ⟨_, hsource, h'⟩ := Option.bind_eq_some_iff.mp h
    obtain ⟨_, hmessage, -⟩ := Option.bind_eq_some_iff.mp h'
    rcases List.mem_cons.mp hname with rfl | hname
    · obtain ⟨v, hv⟩ := required_found hsource
      exact ⟨0, v, rfl, hv⟩
    · obtain rfl := List.mem_singleton.mp hname
      obtain ⟨v, hv⟩ := required_found hmessage
      exact ⟨1, v, rfl, hv⟩

theorem time_of_ofFields? {f : Fields} {m : HostMessage} (h : ofFields? f .log = some m) {v : Json}
    (hslot : f.slots[2]? = some (some v)) : v = .null ∨ ∃ time, v.int64? = some time := by
  obtain ⟨_, -, h⟩ := Option.bind_eq_some_iff.mp h
  obtain ⟨_, -, h⟩ := Option.bind_eq_some_iff.mp h
  obtain ⟨_, htime, -⟩ := Option.bind_eq_some_iff.mp h
  simp only [Fields.optional, hslot, Option.join_some] at htime
  split at htime
  · rename_i hnone
    cases hnone
  · rename_i hnull
    exact .inl (Option.some.inj hnull)
  · rename_i v' _ hv
    obtain rfl := Option.some.inj hv
    obtain ⟨time, htime, -⟩ := Option.map_eq_some_iff.mp htime
    exact .inr ⟨time, htime⟩

theorem ofJson?_faulty (hspelled : ∀ x ∈ members, Quoted.Spelling x.1 ∧ ∃ bs, Spells bs x.2)
    (h : Faulty members) (hnests : (Json.object members).nests maxDepth = true)
    (hsound : (Json.object members).sound = true) : ofJson? (.object members) = none := by
  refine Option.eq_none_iff_forall_ne_some.mpr fun m hread => ?_
  obtain ⟨named, hnamed⟩ := decodeKeys?_of_sound hsound
  obtain ⟨tag, k, slots, htag, hname, hslots, hmessage⟩ := (ofJson?_eq_some_iff hnamed).mp hread
  have hvalues : ∀ name v, v ∈ valuesOf [name] members ↔ ∃ x ∈ members, Named name x ∧ x.2 = v :=
    fun name v => mem_valuesOf fun x hx => (hspelled x hx).1
  have hkind : ∀ k', Typed k' members → k' = k := by
    rintro k' ⟨x, hx, htype, htext⟩
    have hmem := (hvalues typeName x.2).mpr ⟨x, hx, htype, rfl⟩
    obtain rfl := List.mem_singleton.mp (htag ▸ hmem)
    exact Kind.name_inj (Option.some.inj (htext.string?.symm.trans hname))
  cases h with
  | untyped h =>
    obtain ⟨x, hx, htype, rfl⟩ := (hvalues typeName tag).mp (htag ▸ List.mem_cons_self)
    obtain ⟨-, bs, hbs⟩ := hspelled x hx
    exact h k ⟨x, hx, htype, tellsText_of_string? hbs hname⟩
  | @repeated k' name x y hk hknown hsub hx hy =>
    obtain rfl := hkind k' hk
    obtain ⟨o, ho⟩ : ∃ o : Option Json, valuesOf [name] members = o.toList := by
      rcases List.mem_cons.mp hknown with rfl | hknown
      · exact ⟨some tag, htag⟩
      · obtain ⟨i, hfield⟩ := List.mem_iff_getElem?.mp (k'.singleton_mem_of_mem_flatten hknown)
        obtain ⟨o, -, ho⟩ := getElem?_of_forall₂ hslots hfield
        exact ⟨o, ho⟩
    have htwo : [x.2, y.2].Sublist o.toList := by
      have hvalues := hsub.filterMap fun m =>
        (Quoted.decode? m.1).bind fun k => if k ∈ [name] then some m.2 else none
      rw [← valuesOf, ← valuesOf, valuesOf_cons_named hx, valuesOf_cons_named hy, ho] at hvalues
      simpa using hvalues
    have hle := htwo.length_le
    cases o <;> simp at hle
  | @missing k' name hk hrequired h =>
    obtain rfl := hkind k' hk
    obtain ⟨i, v, hfield, hslot⟩ := found_of_ofFields? hmessage hrequired
    obtain ⟨o, ho, hvalue⟩ := getElem?_of_forall₂ hslots hfield
    obtain rfl := Option.some.inj (ho.symm.trans hslot)
    obtain ⟨x, hx, hname, -⟩ := (hvalues name v).mp (hvalue ▸ List.mem_cons_self)
    exact h x hx hname
  | @untimely x hk hx htime hnull h =>
    obtain rfl := hkind .log hk
    have hfield : Kind.log.fieldNames[2]? = some ["timestamp"] := rfl
    obtain ⟨o, ho, hvalue⟩ := getElem?_of_forall₂ hslots hfield
    have hmem := (hvalues "timestamp" x.2).mpr ⟨x, hx, htime, rfl⟩
    obtain rfl : o = some x.2 := by
      rw [hvalue] at hmem
      exact Option.mem_toList.mp hmem
    rcases time_of_ofFields? hmessage ho with hv | ⟨time, hread⟩
    · exact hnull hv
    · obtain ⟨-, bs, hbs⟩ := hspelled x hx
      exact h time (tellsTime_of_int64? hbs hread)
  | unread h =>
    rcases h with h | h
    · exact Bool.noConfusion (hnests.symm.trans h)
    · exact Bool.noConfusion (hsound.symm.trans h)

end Read

/-! ### Lines -/

theorem not_blank_of_brace {line : Bytes} (h : 0x7B ∈ line) : line.all isBlankByte = false :=
  List.all_eq_false.mpr ⟨0x7B, h, by decide⟩

theorem readLine_of_read? {line : Bytes} (hblank : line.all isBlankByte = false) {v : Json}
    {m : HostMessage} (hread : Json.read? maxDepth line = some v) (hsound : v.sound = true)
    (hm : ofJson? v = some m) : readLine line = .message m := by
  have hv : (Json.read? maxDepth line).filter Json.sound = some v := by simp [hread, hsound]
  simp [readLine, hblank, hv, hm]

theorem readLine_malformed {line : Bytes} (hblank : line.all isBlankByte = false)
    (h : ∀ v, Json.read? maxDepth line = some v → v.sound = true → ofJson? v = none) :
    readLine line = .malformed := by
  have hnone : ((Json.read? maxDepth line).filter Json.sound >>= ofJson?) = none := by
    refine Option.eq_none_iff_forall_ne_some.mpr fun m hm => ?_
    obtain ⟨v, hv, hm⟩ := Option.bind_eq_some_iff.mp hm
    obtain ⟨hread, hsound⟩ := Option.filter_eq_some_iff.mp hv
    rw [h v hread hsound] at hm
    cases hm
  simp only [readLine, hblank, hnone, Bool.false_eq_true, if_false]

/-- Where a line begins with an object, its members alone decide. If they hold a message, that is
read, whatever else they hold and however all of it is spelled; if they are faulty, or more than
white space follows, the line is malformed. -/
theorem readLine_by_members {object before : Bytes} {members : List (Bytes × Json)}
    (hobject : Spells object (.object members)) (hbefore : Space before) (after : Bytes) :
    (∀ m, m.Holds Admitted members → Space after →
      readLine (before ++ object ++ after) = .message m) ∧
    (Faulty members ∨ ¬Space after → readLine (before ++ object ++ after) = .malformed) := by
  have hblank : (before ++ object ++ after).all isBlankByte = false := by
    refine not_blank_of_brace ?_
    cases hobject
    simp
  refine ⟨fun m hholds hafter => ?_, fun h => readLine_malformed hblank fun v hread hsound => ?_⟩
  · obtain ⟨hnests, hsound⟩ := hholds.admitted
    obtain ⟨named, hnamed⟩ := decodeKeys?_of_sound hsound
    have hread : Json.read? maxDepth (before ++ object ++ after) = _ :=
      Json.read?_spells hobject hbefore hafter
    rw [hnests, if_pos rfl] at hread
    exact readLine_of_read? hblank hread hsound (ofJson?_of_holds hnamed hholds)
  · obtain ⟨rfl, hnests, hafter⟩ := Json.read?_object hobject hbefore hread
    rcases h with h | h
    · exact ofJson?_faulty hobject.member_spelled h hnests hsound
    · exact absurd hafter h

theorem readLine_by_members_disordered :
    let line := "\x7b \"x\" : [ 1.5E+3, \x7b\"type\":\"stop\"\x7d] ," ++
      "\"mess\\u0061ge\":\"\\ud83d\\uDE00\\/\",\n\"timestamp\": null," ++
      "\"x\":\x7b \x7d,\"t\\u0079pe\" : \"log\",\"source\":\"a\"\x7d"
    let line' := "\x7b\"timestamp\":-0,\"type\":\"log\",\"source\":\"a\",\"message\":\"\"\x7d"
    readLine ([0x09] ++ Utf8.encode line ++ [0x20, 0x0D]) = .message (log "a" "😀/" none) ∧
      readLine ([0x09] ++ Utf8.encode line ++ [0x7D]) = .malformed ∧
      readLine ([] ++ Utf8.encode line' ++ []) = .malformed := by
  intro line line'
  let float : Json := .number ⟨false, [0x31], [0x35], some (false, [0x33])⟩
  let stop : Json := .object [(Utf8.encode "type", .string (Utf8.encode "stop"))]
  let x : Bytes × Json := (Utf8.encode "x", .array [float, stop])
  let message : Bytes × Json :=
    (Utf8.encode "mess\\u0061ge", .string (Utf8.encode "\\ud83d\\uDE00\\/"))
  let time : Bytes × Json := (Utf8.encode "timestamp", .null)
  let x' : Bytes × Json := (Utf8.encode "x", .object [])
  let tag : Bytes × Json := (Utf8.encode "t\\u0079pe", .string (Utf8.encode "log"))
  let source : Bytes × Json := (Utf8.encode "source", .string (Utf8.encode "a"))
  have hspace : Space [0x20] := by decide
  have hfeed : Space [0x0A] := by decide
  have hfloat : Spells _ float :=
    .number (.positive (by decide) (.point (by decide)) (.plus (.inr rfl) (by decide)))
  have hstop : Spells _ stop := .object (.some space_nil
    (.last (.mk (by decide) space_nil space_nil (.string (by decide))) space_nil))
  have hx : Spells _ x.2 :=
    .array (.some hspace (.more hfloat space_nil hspace (.last hstop space_nil)))
  have hmembers : Spells _ (.object [x, message, time, x', tag, source]) := .object (.some hspace
    (.more (.mk (by decide) hspace hspace hx) hspace space_nil
    (.more (.mk (by decide) space_nil space_nil (.string (by decide))) space_nil hfeed
    (.more (.mk (by decide) space_nil hspace .null) space_nil space_nil
    (.more (.mk (by decide) space_nil space_nil (.object (.none hspace))) space_nil space_nil
    (.more (.mk (by decide) hspace hspace (.string (by decide))) space_nil space_nil
    (.last (.mk (by decide) space_nil space_nil (.string (by decide))) space_nil)))))))
  have hline : Spells (Utf8.encode line) (.object [x, message, time, x', tag, source]) :=
    Eq.subst (motive := fun bs => Spells bs _) (by decide +kernel) hmembers
  have hholds : (log "a" "😀/" none).Holds Admitted [x, message, time, x', tag, source] := by
    refine ⟨tag, [source, message, time], [x, x'], by decide +kernel, ⟨by decide +kernel⟩,
      .log (by decide +kernel) ⟨by decide +kernel⟩ (by decide +kernel) ⟨by decide +kernel⟩
        (.null (by decide +kernel) rfl), ?_, ?_⟩
    · have hperm : [0, 1, 2, 3, 4, 5].Perm [4, 5, 1, 2, 0, (3 : Fin 6)] := by decide
      exact hperm.map [x, message, time, x', tag, source].get
    · have hunknown : Named "x" x ∧ "x" ∉ Kind.log.names := by decide +kernel
      have hunknown' : Named "x" x' ∧ "x" ∉ Kind.log.names := by decide +kernel
      simp only [List.forall_mem_cons]
      exact ⟨⟨⟨"x", hunknown⟩, by decide +kernel, by decide +kernel⟩,
        ⟨⟨"x", hunknown'⟩, by decide +kernel, by decide +kernel⟩, List.forall_mem_nil _⟩
  obtain ⟨hread, -⟩ := readLine_by_members hline (show Space [0x09] by decide) [0x20, 0x0D]
  obtain ⟨-, hbrace⟩ := readLine_by_members hline (show Space [0x09] by decide) [0x7D]
  refine ⟨hread _ hholds (by decide), hbrace (.inr (by decide)), ?_⟩
  let minus : Json := .number ⟨true, [0x30], [], none⟩
  let members := [("timestamp", minus), ("type", .text "log"), ("source", .text "a"),
    ("message", .text "")]
  have hrecord : Spells (Json.record members).compact (.record members) := by
    refine Json.spells_record (List.forall_mem_cons.mpr ⟨?_, ?_⟩)
    · exact .number (.negative (by decide) .none .none)
    · simp [Json.spells_text]
  have hline' : Spells (Utf8.encode line') (.record members) :=
    Eq.subst (motive := fun bs => Spells bs _) (by decide +kernel) hrecord
  have hfaulty : Faulty (members.map fun m => (Quoted.encode m.1, m.2)) := by
    have htyped : Typed .log (members.map fun m => (Quoted.encode m.1, m.2)) :=
      ⟨_, .tail _ (.head _), named_encode _ _, tellsText_text _⟩
    have hminus : minus.int64? = none := by decide +kernel
    refine .untimely htyped (.head _) (named_encode _ _) Json.noConfusion fun time htime => ?_
    exact absurd (htime.int64?.symm.trans hminus) (by simp)
  obtain ⟨-, hfloats⟩ := readLine_by_members hline' Json.space_nil []
  exact hfloats (.inl hfaulty)

theorem stop_beside (s name : String) (hname : name ∉ Kind.stop.names) {v : Json}
    (hspells : Spells v.compact v) {Foreign : Json → Prop} (hv : Foreign v) :
    ∃ members,
      Spells (Json.record [(name, v), (typeName, .text "stop"), ("source", .text s)]).compact
        (.object members) ∧ (stop s).Holds Foreign members := by
  have hlast : ∀ x tag source : Bytes × Json, [x, tag, source].Perm ([tag, source] ++ [x]) :=
    fun x tag source => (List.perm_append_comm : ([x] ++ [tag, source]).Perm _)
  refine ⟨_, Json.spells_record (List.forall_mem_cons.mpr ⟨hspells, ?_⟩), ?_⟩
  · simp [Json.spells_text]
  · refine ⟨_, [_], [_], named_encode _ _, tellsText_text _,
      .stop (named_encode _ _) (tellsText_text s), hlast _ _ _, ?_⟩
    exact List.forall_mem_singleton.mpr ⟨⟨name, named_encode name v, hname⟩, hv⟩

/-- Not every value may stand beside a message: a number must be finite, and half of a surrogate
pair is no text, though nobody knows the name. -/
theorem foreign_values_refused :
    let shallow : Json → Prop := fun v => v.nests (maxDepth - 1) = true
    let infinite := "\x7b\"x\":1e400,\"type\":\"stop\",\"source\":\"a\"\x7d"
    let half := "\x7b\"x\":\"\\ud800\",\"type\":\"stop\",\"source\":\"a\"\x7d"
    (∃ members, Spells (Utf8.encode infinite) (.object members) ∧
      (stop "a").Holds shallow members ∧ readLine (Utf8.encode infinite) = .malformed) ∧
    ∃ members, Spells (Utf8.encode half) (.object members) ∧
      (stop "a").Holds shallow members ∧ readLine (Utf8.encode half) = .malformed := by
  intro shallow infinite half
  let number : Json := .number ⟨false, [0x31], [], some (false, [0x34, 0x30, 0x30])⟩
  let string : Json := .string (Utf8.encode "\\ud800")
  have hnumber : Spells _ number :=
    .number (.positive (by decide) .none (.unsigned (.inl rfl) (by decide)))
  have hstring : Spells string.compact string := .string (by decide)
  obtain ⟨members, hspells, hholds⟩ : ∃ members, _ ∧ (stop "a").Holds shallow members :=
    stop_beside "a" "x" (by decide) (show Spells number.compact number from hnumber) rfl
  obtain ⟨members', hspells', hholds'⟩ : ∃ members, _ ∧ (stop "a").Holds shallow members :=
    stop_beside "a" "x" (by decide) hstring rfl
  refine ⟨⟨members, ?_, hholds, by decide +kernel⟩, ⟨members', ?_, hholds', by decide +kernel⟩⟩
  · exact Eq.subst (motive := fun bs => Spells bs _) (by decide +kernel) hspells
  · exact Eq.subst (motive := fun bs => Spells bs _) (by decide +kernel) hspells'

end HostMessage
end LogRelay
