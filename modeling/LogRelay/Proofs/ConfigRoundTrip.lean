import LogRelay.Config.Load
import LogRelay.Config.Writer
import LogRelay.Proofs.DurationRoundTrip
import LogRelay.Proofs.JsonSpelling
import LogRelay.Proofs.WordSizes

/-! A configuration that is written out in full is read back. Texts are written quoted, so none of
them is taken for a missing option; every setting is named once, so no default comes in. -/

namespace LogRelay

open SettingTree

namespace Yaml

/-! ### Numbers -/

theorem hexDigit?_of_isDigit {c : Char} (h : c.isDigit = true) :
    (hexDigit? c).filter (· < 10) = some (c.toNat - '0'.toNat) := by
  have hvalue : hexDigit? c = some (c.toNat - '0'.toNat) := if_pos h
  have hmost : c.toNat ≤ '9'.toNat := by
    simp only [Char.isDigit, Bool.and_eq_true, decide_eq_true_eq] at h
    exact h.2
  have hlt : c.toNat - '0'.toNat < 10 := by
    have hnine : '9'.toNat = '0'.toNat + 9 := rfl
    omega
  rw [hvalue, Option.filter_some, if_pos (decide_eq_true hlt)]

theorem digits?_toDigits (n : Nat) : digits? 10 (Nat.toDigits 10 n) = some n := by
  have hfold {ds : List Char} (hds : ∀ c ∈ ds, c.isDigit = true) (n : Nat) :
      ds.foldlM (fun n c => ((hexDigit? c).filter (· < 10)).map fun d => 10 * n + d) n =
        some (Nat.ofDigitChars 10 ds n) := by
    induction ds generalizing n with
    | nil => rfl
    | cons c ds ih =>
      obtain ⟨hc, hds⟩ := List.forall_mem_cons.mp hds
      rw [List.foldlM_cons, hexDigit?_of_isDigit hc, Nat.ofDigitChars_cons]
      exact ih hds _
  have hempty : (Nat.toDigits 10 n).isEmpty = false :=
    List.isEmpty_eq_false_iff.mpr Nat.toDigits_ne_nil
  have hdigits : ∀ c ∈ Nat.toDigits 10 n, c.isDigit = true := fun c =>
    Nat.isDigit_of_mem_toDigits (by decide) (by decide)
  rw [digits?, hempty, if_neg Bool.false_ne_true, hfold hdigits, Nat.ofDigitChars_ten_toDigits]

theorem head_toDigits {n : Nat} (h : (Nat.toDigits 10 n).head? = some '0') : n = 0 := by
  induction n using Numeral.digits_induction with
  | digit n hlt =>
    have hzero : ∀ n < 10, n.digitChar = '0' → n = 0 := by decide
    rw [Nat.toDigits_of_lt_base hlt] at h
    exact hzero n hlt (Option.some.inj h)
  | more n hle ih =>
    obtain ⟨c, cs, hc⟩ := List.exists_cons_of_ne_nil (Nat.toDigits_ne_nil (b := 10) (n := n / 10))
    rw [Nat.toDigits_of_base_le (by decide) hle, hc, List.cons_append] at h
    rw [hc] at ih
    have := ih h
    omega

-- Only zero begins with a zero, so no number looks like one of another base.
theorem unsigned?_repr (n : Nat) : unsigned? n.repr.toList = some n := by
  rw [Nat.toList_repr]
  by_cases hzero : n = 0
  · subst hzero
    decide
  have hvalue := digits?_toDigits n
  have hhead : (Nat.toDigits 10 n).head? ≠ some '0' := fun h => hzero (head_toDigits h)
  have hplus : (Nat.toDigits 10 n).head? ≠ some '+' := fun h => by
    have hmem : '+' ∈ Nat.toDigits 10 n := List.mem_of_mem_head? h
    have hdigit : '+'.isDigit = true := Nat.isDigit_of_mem_toDigits (by decide) (by decide) hmem
    cases hdigit
  unfold unsigned?
  rw [if_neg hplus]
  split
  case h_5 => exact hvalue
  all_goals
    rename_i heq
    rw [heq] at hhead
    exact absurd rfl hhead

/-! ### Nodes -/

namespace Document

variable {α : Type} (d : Document)

theorem natural?_number {n : Nat} (h : n < Word.bound) : d.natural? (number n).toNode = some n := by
  have hword : decide (n < 0x10000000000000000) = true := decide_eq_true h
  simp only [natural?, toNode, deref, decide_true, Bool.true_or, if_true, unsigned?_repr,
    Option.filter_some, hword]

theorem optional?_absent (read : Node → Option α) : d.optional? read absent.toNode = some none := by
  have hnull : isNullText "null" = true := by decide
  simp only [optional?, toNode, deref, hnull, Bool.or_true, if_true]

theorem optional?_option (o : Option String) :
    d.optional? d.text? (SettingTree.option o).toNode = some o := by
  cases o with
  | none => exact d.optional?_absent d.text?
  | some s => rfl

theorem optional?_group (read : Node → Option α) (members : List (String × SettingTree)) :
    d.optional? read (group members).toNode = (read (group members).toNode).map some := rfl

theorem section?_group (members : List (String × SettingTree)) :
    d.section? (group members).toNode = some (members.map fun m => (m.1, m.2.toNode)) := by
  have hentries : (toEntries members).mapM (fun e => (d.text? e.1).map fun k => (k, e.2)) =
      some (members.map fun m => (m.1, m.2.toNode)) := by
    induction members with
    | nil => rfl
    | cons m members ih =>
      simp only [toEntries, List.mapM_cons, ih, List.map_cons]
      rfl
  exact hentries

end Document
end Yaml

/-! ### Sections -/

namespace Setting

variable {α : Type} {es : Entries} {name : String} {n : Yaml.Node} {read : Yaml.Node → Option α}

theorem required_of_slot? (h : slot? [name] es = some (some n)) :
    required es name read = read n := by
  simp only [required, h, Option.bind_eq_bind, Option.bind_some]

theorem withDefault_of_slot? (h : slot? [name] es = some (some n)) (default : α) :
    withDefault es name read default = read n := by
  simp only [withDefault, h, Option.bind_eq_bind, Option.bind_some]

end Setting

structure Limits.InWords (l : Limits) : Prop where
  maxEvents : l.maxEvents < Word.bound
  maxBytes : l.maxBytes < Word.bound
  eventOverhead : l.eventOverhead < Word.bound

namespace Config

open Setting Yaml

def remoteTree (r : RemoteSettings) : SettingTree :=
  group [
    ("endpoint", text r.endpoint),
    ("request_timeout", text r.requestTimeout.write),
    ("call_timeout", text r.callTimeout.write)]

def destinationTree (s : DestinationSettings) : SettingTree :=
  group [("group", option s.group), ("stream_prefix", option s.streamPrefix)]

def batchingTree (b : BatchingSettings) : SettingTree :=
  group [
    ("max_events", number b.limits.maxEvents),
    ("max_bytes", number b.limits.maxBytes),
    ("event_overhead", number b.limits.eventOverhead),
    ("sweep_interval", text b.sweepInterval.write)]

def statusTree : Option StatusSettings → SettingTree
  | none => absent
  | some s => group [("listen", text s.listen)]

theorem settings_eq (c : Config) : c.settings = group [
    ("remote", remoteTree c.remote),
    ("destination", destinationTree c.destination),
    ("batching", batchingTree c.batching),
    ("status", statusTree c.status)] := rfl

variable (d : Document)

theorem readDuration?_text (span : Duration) :
    readDuration? d (text span.write).toNode = some span := span.read?_write

theorem readRemote?_remoteTree (r : RemoteSettings) :
    readRemote? d (remoteTree r).toNode = some r := by
  simp only [readRemote?, remoteTree, d.section?_group, List.map_cons, List.map_nil,
    Option.bind_eq_bind, Option.bind_some]
  rw [required_of_slot? rfl, withDefault_of_slot? rfl, withDefault_of_slot? rfl,
    readDuration?_text, readDuration?_text]
  rfl

theorem readDestination?_destinationTree (s : DestinationSettings) :
    readDestination? d (destinationTree s).toNode = some s := by
  simp only [readDestination?, destinationTree, d.section?_group, List.map_cons, List.map_nil,
    Option.bind_eq_bind, Option.bind_some]
  rw [withDefault_of_slot? rfl, withDefault_of_slot? rfl, d.optional?_option, d.optional?_option]
  rfl

theorem readBatching?_batchingTree {b : BatchingSettings} (h : b.limits.InWords) :
    readBatching? d (batchingTree b).toNode = some b := by
  simp only [readBatching?, batchingTree, d.section?_group, List.map_cons, List.map_nil,
    Option.bind_eq_bind, Option.bind_some]
  rw [withDefault_of_slot? rfl, withDefault_of_slot? rfl, withDefault_of_slot? rfl,
    withDefault_of_slot? rfl, d.natural?_number h.maxEvents, d.natural?_number h.maxBytes,
    d.natural?_number h.eventOverhead, readDuration?_text]
  rfl

theorem optional?_statusTree (s : Option StatusSettings) :
    d.optional? (readStatus? d) (statusTree s).toNode = some s := by
  cases s with
  | none => exact d.optional?_absent _
  | some s =>
    rw [statusTree, d.optional?_group]
    simp only [readStatus?, d.section?_group, List.map_cons, List.map_nil, Option.bind_eq_bind,
      Option.bind_some]
    rw [required_of_slot? rfl]
    rfl

theorem ofDocument?_toDocument {c : Config} (h : c.batching.limits.InWords) :
    ofDocument? c.toDocument = some c := by
  simp only [ofDocument?, toDocument, Document.ofNode, settings_eq, Document.section?_group,
    List.map_cons, List.map_nil, Option.bind_eq_bind, Option.bind_some]
  rw [required_of_slot? rfl, withDefault_of_slot? rfl, withDefault_of_slot? rfl,
    withDefault_of_slot? rfl, readRemote?_remoteTree, readDestination?_destinationTree,
    readBatching?_batchingTree _ h, optional?_statusTree]
  rfl

/-- What is written of a configuration is read as that configuration: no setting is lost, no
default comes in, and no duration overflows on the way. One that met the conditions still does. -/
theorem written_read_back (c : Config) (h : c.batching.limits.InWords) :
    ofDocument? c.toDocument = some c ∧
      (validate c = .ok c → (ofDocument? c.toDocument).map validate = some (.ok c)) := by
  have hread := ofDocument?_toDocument h
  exact ⟨hread, fun hvalid => by rw [hread, Option.map_some, hvalid]⟩

def extreme : Config where
  remote := {
    endpoint := "http://"
    requestTimeout := .ofNanos 18446744073709551615999999999
    callTimeout := .ofNanos 1 }
  destination := { group := some "null", streamPrefix := some "" }
  batching := { limits := { maxEvents := 1, maxBytes := 1048576, eventOverhead := 0 } }
  status := some { listen := "[::1]:0" }

theorem written_read_back_extreme :
    extreme.remote.requestTimeout.write =
      "584542046090years 7months 15days 17h 5m 3s 999ms 999us 999ns" ∧
    ofDocument? extreme.toDocument = some extreme ∧
    (ofDocument? extreme.toDocument).map validate = some (.ok extreme) := by
  have hwritten : extreme.remote.requestTimeout.write =
      "584542046090years 7months 15days 17h 5m 3s 999ms 999us 999ns" := by decide +kernel
  have hvalid : validate extreme = .ok extreme := by
    have hproblems : extreme.problems = [] := by decide +kernel
    rw [validate, hproblems]
    rfl
  obtain ⟨hread, hvalidated⟩ := written_read_back extreme ⟨by decide, by decide, by decide⟩
  exact ⟨hwritten, hread, hvalidated hvalid⟩

end Config
end LogRelay
