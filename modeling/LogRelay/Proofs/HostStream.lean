import LogRelay.Proofs.JsonRoundTrip
import LogRelay.Proofs.LineFraming

/-! A host's messages, written one a line and read back, however the stream is cut. -/

namespace LogRelay

namespace HostMessage

def Fits : HostMessage → Prop
  | log _ _ (some time) => -0x8000000000000000 ≤ time ∧ time < 0x8000000000000000
  | _ => True

def write (ms : List HostMessage) : Bytes :=
  ms.flatMap fun m => m.toJson.compact ++ [Framer.lineFeed]

variable {m : HostMessage}

open Json

/-! ### One message -/

theorem int64?_int {i : Int} (h : -0x8000000000000000 ≤ i ∧ i < 0x8000000000000000) :
    (int i).int64? = some i := by
  simp [int, int64?, Numeral.toInt?_ofInt, h]

theorem string?_text (s : String) : (text s).string? = some s := Quoted.decode?_encode s

def kind : HostMessage → Kind
  | start .. => .start
  | stop _ => .stop
  | log .. => .log

def members : HostMessage → List (String × Json)
  | start s group stream =>
    ("source", text s) :: (optionMember "group" text group ++ optionMember "stream" text stream)
  | stop s => [("source", text s)]
  | log s message time => ("source", text s) :: ("message", text message) ::
      optionMember "timestamp" int time

theorem toJson_eq (m : HostMessage) :
    m.toJson = record ((typeName, text m.kind.name) :: m.members) := by
  cases m <;> rfl

theorem mem_optionMember {α : Type} {name : String} {f : α → Json} {o : Option α}
    {x : String × Json} (h : x ∈ optionMember name f o) : ∃ a, o = some a ∧ x = (name, f a) := by
  cases o with
  | none => exact absurd h List.not_mem_nil
  | some a => exact ⟨a, rfl, List.mem_singleton.mp h⟩

theorem mem_members {x : String × Json} (h : x ∈ m.members) :
    x.1 ≠ typeName ∧ ((∃ s, x.2 = text s) ∨
      ∃ source message time, m = log source message (some time) ∧ x.2 = int time) := by
  unfold typeName
  cases m with
  | start s group stream =>
    rcases List.mem_cons.mp h with rfl | h
    · exact ⟨by simp, Or.inl ⟨s, rfl⟩⟩
    rcases List.mem_append.mp h with h | h
    · obtain ⟨g, -, rfl⟩ := mem_optionMember h
      exact ⟨by simp, Or.inl ⟨g, rfl⟩⟩
    · obtain ⟨t, -, rfl⟩ := mem_optionMember h
      exact ⟨by simp, Or.inl ⟨t, rfl⟩⟩
  | stop s =>
    obtain rfl := List.mem_singleton.mp h
    exact ⟨by simp, Or.inl ⟨s, rfl⟩⟩
  | log s message time =>
    rcases List.mem_cons.mp h with rfl | h
    · exact ⟨by simp, Or.inl ⟨s, rfl⟩⟩
    rcases List.mem_cons.mp h with rfl | h
    · exact ⟨by simp, Or.inl ⟨message, rfl⟩⟩
    · obtain ⟨i, rfl, rfl⟩ := mem_optionMember h
      exact ⟨by simp, Or.inr ⟨s, message, i, rfl, rfl⟩⟩

theorem forall_values {P : Json → Prop} (htext : ∀ s, P (text s))
    (htime : ∀ source message time, m = log source message (some time) → P (int time)) :
    ∀ x ∈ (typeName, text m.kind.name) :: m.members, P x.2 := by
  intro x hx
  rcases List.mem_cons.mp hx with rfl | hx
  · exact htext _
  · rcases (mem_members hx).2 with ⟨s, hs⟩ | ⟨source, message, time, hm, ht⟩
    · exact hs ▸ htext s
    · exact ht ▸ htime source message time hm

theorem ofJson?_record (k : Kind) {fields : List (String × Json)}
    (h : ∀ x ∈ fields, x.1 ≠ typeName) :
    ofJson? (record ((typeName, text k.name) :: fields)) =
      (fieldsOfMembers? k.fieldNames fields).bind fun f => ofFields? f k := by
  have hkind : Kind.ofName? k.name = some k := by cases k <;> rfl
  have hslot : slot? [typeName] fields = some none := by
    induction fields with
    | nil => rfl
    | cons x fields ih =>
      have hx := h x List.mem_cons_self
      have hrest := ih fun y hy => h y (List.mem_cons_of_mem x hy)
      simp [slot?, hrest, hx]
  have hfilter : fields.filter (fun x => !decide (x.1 = typeName)) = fields :=
    List.filter_eq_self.mpr fun x hx => by simp [h x hx]
  rw [record, ofJson?, decodeKeys?_encode]
  simp [slot?, hslot, string?_text, hkind, hfilter]

theorem optional_map {α : Type} {f : Fields} {i : Nat} {read : Json → Option α} {write : α → Json}
    {o : Option α} (hslot : f.slots[i]? = some (o.map write))
    (hread : ∀ a, o = some a → read (write a) = some a ∧ write a ≠ null) :
    f.optional i read = some o := by
  unfold Fields.optional
  rw [hslot]
  cases o with
  | none => rfl
  | some a =>
    obtain ⟨hread, hnull⟩ := hread a rfl
    simp only [Option.map_some, Option.join_some]
    rw [hread]
    rfl

theorem ofJson?_toJson (h : m.Fits) : ofJson? m.toJson = some m := by
  rw [toJson_eq, ofJson?_record _ fun x hx => (mem_members hx).1]
  cases m with
  | start s group stream =>
    let fields : Fields := ⟨false, [some (text s), group.map text, stream.map text]⟩
    have hslots : fieldsOfMembers? Kind.start.fieldNames (start s group stream).members =
        some fields := by
      cases group <;> cases stream <;> rfl
    have hgroup : fields.optional 1 string? = some group :=
      optional_map rfl fun g _ => ⟨string?_text g, Json.noConfusion⟩
    have hstream : fields.optional 2 string? = some stream :=
      optional_map rfl fun t _ => ⟨string?_text t, Json.noConfusion⟩
    rw [kind, hslots]
    simp [ofFields?, Fields.required, hgroup, hstream, fields, string?_text]
  | stop s =>
    let fields : Fields := ⟨false, [some (text s)]⟩
    have hslots : fieldsOfMembers? Kind.stop.fieldNames (stop s).members = some fields := rfl
    rw [kind, hslots]
    simp [ofFields?, Fields.required, fields, string?_text]
  | log s message time =>
    let fields : Fields := ⟨false, [some (text s), some (text message), time.map int]⟩
    have hslots : fieldsOfMembers? Kind.log.fieldNames (log s message time).members =
        some fields := by
      cases time <;> rfl
    have hread : ∀ i, time = some i → (int i).int64? = some i ∧ int i ≠ null := by
      rintro i rfl
      exact ⟨int64?_int h, Json.noConfusion⟩
    have htime : fields.optional 2 int64? = some time := optional_map rfl hread
    rw [kind, hslots]
    simp [ofFields?, Fields.required, htime, fields, string?_text]

theorem spells_toJson (m : HostMessage) : Spells m.toJson.compact m.toJson := by
  rw [toJson_eq]
  exact spells_record (forall_values (P := fun v => Spells v.compact v) spells_text
    fun _ _ time _ => spells_int time)

theorem nests_toJson (m : HostMessage) : m.toJson.nests maxDepth = true := by
  rw [toJson_eq]
  exact nests_record (forall_values (P := fun v => v.nests 126 = true) (fun _ => rfl)
    fun _ _ _ _ => rfl)

theorem sound_toJson (h : m.Fits) : m.toJson.sound = true := by
  rw [toJson_eq]
  refine sound_record (forall_values (P := fun v => v.sound = true) sound_text
    fun source message time hm => sound_int ?_)
  subst hm
  have hfits : -0x8000000000000000 ≤ time ∧ time < 0x8000000000000000 := h
  omega

theorem printable_toJson (m : HostMessage) : Printable m.toJson.compact := by
  rw [toJson_eq]
  exact printable_record (forall_values (P := fun v => Printable v.compact) printable_text
    fun _ _ time _ => printable_int time)

theorem lineFeed_not_mem_line (m : HostMessage) : Framer.lineFeed ∉ m.toJson.compact := fun h =>
  absurd (m.printable_toJson _ h) (by decide)

theorem line_ne_nil (m : HostMessage) : m.toJson.compact ≠ [] := by
  rw [toJson_eq, record, compact_object]
  exact List.cons_ne_nil _ _

theorem ofLine?_line (h : m.Fits) : ofLine? m.toJson.compact = some m := by
  have hread : (Json.read? maxDepth m.toJson.compact).filter Json.sound = some m.toJson := by
    simp [read?_compact m.spells_toJson m.nests_toJson, sound_toJson h]
  have hblank : m.toJson.compact.all isBlankByte = false := by
    rw [toJson_eq, record, compact_object]
    rfl
  unfold ofLine? readLine
  simp [hread, hblank, ofJson?_toJson h]

/-! ### The stream -/

theorem write_cons (m : HostMessage) (ms : List HostMessage) :
    write (m :: ms) = m.toJson.compact ++ Framer.lineFeed :: write ms := by
  simp [write]

theorem completeLines_write (ms : List HostMessage) :
    completeLines (write ms) = ms.map fun m => m.toJson.compact := by
  induction ms with
  | nil => rfl
  | cons m ms ih =>
    rw [write_cons, completeLines_line m.lineFeed_not_mem_line, ih, List.map_cons]

theorem openLine_write (ms : List HostMessage) : openLine (write ms) = [] := by
  induction ms with
  | nil => rfl
  | cons m ms ih =>
    rw [write_cons, openLine_line m.lineFeed_not_mem_line, ih]

theorem linesOf_write {ms : List HostMessage} {ending : Ending} {text : Bytes}
    (h : text = write ms ∨ ending = .endOfInput ∧ text ++ [Framer.lineFeed] = write ms) :
    linesOf ending text = ms.map fun m => m.toJson.compact := by
  rcases h with rfl | ⟨rfl, htext⟩
  · unfold linesOf
    rw [completeLines_write, openLine_write]
    cases ending <;> simp
  · have hopen := lineFeed_not_mem_openLine text
    have hclosed : completeLines text ++ [openLine text] = ms.map fun m => m.toJson.compact := by
      rw [← completeLines_write, ← htext, completeLines_append, completeLines_line hopen]
      rfl
    have hne : openLine text ≠ [] := by
      have hmem : openLine text ∈ ms.map fun m => m.toJson.compact := by simp [← hclosed]
      obtain ⟨m, -, hm⟩ := List.mem_map.mp hmem
      rw [← hm]
      exact m.line_ne_nil
    simp only [linesOf, hne, if_false, hclosed]

/-- Whatever the messages say and however their stream is cut into reads, a limit that no line is
over lets all of them be read back, with or without the last line feed. -/
theorem ofReads_write {ms : List HostMessage} (hfits : ∀ m ∈ ms, m.Fits) {limit : Nat}
    (hlimit : ∀ m ∈ ms, m.toJson.compact.length ≤ limit) {ending : Ending} {reads : List Bytes}
    (hreads : reads.flatten = write ms ∨
      ending = .endOfInput ∧ reads.flatten ++ [Framer.lineFeed] = write ms) :
    ofReads limit ending reads = ms := by
  have hlines := RawLine.ofReads_of limit ending List.not_mem_nil reads
  rw [Framer.of_nil, List.nil_append, linesOf_write hreads] at hlines
  unfold ofReads
  rw [hlines]
  clear hlines hreads
  induction ms with
  | nil => rfl
  | cons m ms ih =>
    have hback : ofRawLine (RawLine.of limit m.toJson.compact) = some m := by
      rw [ofRawLine_of, if_pos (hlimit m List.mem_cons_self),
        ofLine?_line (hfits m List.mem_cons_self)]
    rw [List.map_cons, List.map_cons, List.filterMap_cons_some hback,
      ih (fun m hm => hfits m (List.mem_cons_of_mem _ hm))
        fun m hm => hlimit m (List.mem_cons_of_mem _ hm)]

theorem ofReads_write_cut :
    let ms := [start "a\"b" none (some "s"), log "a\"b" "\n\\é\u0000" (some (-0x8000000000000000)),
      log "" "{}" none, stop "a\"b"]
    let text := write ms
    ofReads 100 .endOfInput [text.take 45, [], (text.drop 45).dropLast] = ms :=
  ofReads_write (by simp [Fits]) (by decide +kernel) (Or.inr ⟨rfl, by decide +kernel⟩)

end HostMessage
end LogRelay
