import LogRelay.Proofs.UnsetVariables

/-! What a configuration has to meet, condition by condition, and that parsing complains of just the
conditions that fail: of each of them once, in the order of the sections. -/

namespace LogRelay

theorem Duration.isZero_iff {d : Duration} : d.isZero = true ↔ d = zero := by
  obtain ⟨secs, nanos, hsecs, hnanos⟩ := d
  simp [isZero, zero]

namespace Config

open Reference

def Schemed (endpoint : String) : Prop :=
  ∃ rest, endpoint = "http://" ++ rest ∨ endpoint = "https://" ++ rest

structure Valid (c : Config) : Prop where
  scheme : Schemed c.remote.endpoint
  requestTimeout : c.remote.requestTimeout ≠ .zero
  callTimeout : c.remote.callTimeout ≠ .zero
  maxEvents : 1 ≤ c.batching.limits.maxEvents ∧ c.batching.limits.maxEvents ≤ 10000
  eventOverhead : c.batching.limits.eventOverhead < c.batching.limits.maxBytes
  maxBytes : c.batching.limits.maxBytes ≤ 1048576
  sweepInterval : c.batching.sweepInterval ≠ .zero
  listen : ∀ s ∈ c.status, ∃ address, SocketAddress.parse? s.listen = some address
  group : ∀ g ∈ c.destination.group, ∃ x ∈ g.toList, isBlank x = false

/-- The problem is one of this configuration: a condition that it does not meet. -/
inductive Violates (c : Config) : Problem → Prop where
  | scheme (h : ¬Schemed c.remote.endpoint) : Violates c (.endpointScheme c.remote.endpoint)
  | requestTimeout (h : c.remote.requestTimeout = .zero) : Violates c .zeroRequestTimeout
  | callTimeout (h : c.remote.callTimeout = .zero) : Violates c .zeroCallTimeout
  | maxEvents (h : c.batching.limits.maxEvents = 0 ∨ 10000 < c.batching.limits.maxEvents) :
      Violates c (.eventCount c.batching.limits.maxEvents)
  | eventOverhead (h : c.batching.limits.maxBytes ≤ c.batching.limits.eventOverhead) :
      Violates c (.bytesWithinOverhead c.batching.limits.maxBytes c.batching.limits.eventOverhead)
  | maxBytes (h : 1048576 < c.batching.limits.maxBytes) :
      Violates c (.tooManyBytes c.batching.limits.maxBytes)
  | sweepInterval (h : c.batching.sweepInterval = .zero) : Violates c .zeroSweepInterval
  | listen {s : StatusSettings} (hs : c.status = some s)
      (h : ∀ address, SocketAddress.parse? s.listen ≠ some address) :
      Violates c (.listenAddress s.listen)
  | group {g : String} (hg : c.destination.group = some g) (h : ∀ x ∈ g.toList, isBlank x = true) :
      Violates c .blankGroup

namespace Problem

def setting : Problem → String
  | endpointScheme _ => "remote.endpoint"
  | zeroRequestTimeout => "remote.request_timeout"
  | zeroCallTimeout => "remote.call_timeout"
  | eventCount _ => "batching.max_events"
  | bytesWithinOverhead _ _ | tooManyBytes _ => "batching.max_bytes"
  | zeroSweepInterval => "batching.sweep_interval"
  | listenAddress _ => "status.listen"
  | blankGroup => "destination.group"

def place : Problem → Nat
  | endpointScheme _ => 0
  | zeroRequestTimeout => 1
  | zeroCallTimeout => 2
  | eventCount _ => 3
  | bytesWithinOverhead _ _ => 4
  | tooManyBytes _ => 5
  | zeroSweepInterval => 6
  | listenAddress _ => 7
  | blankGroup => 8

end Problem

/-! ### The conditions, one by one -/

theorem hasScheme_iff {endpoint : String} : hasScheme endpoint = true ↔ Schemed endpoint := by
  have hprefix (scheme : String) : scheme.toList.isPrefixOf endpoint.toList = true ↔
      ∃ rest, endpoint = scheme ++ rest := by
    rw [List.isPrefixOf_iff_prefix]
    constructor
    · rintro ⟨rest, hrest⟩
      refine ⟨String.ofList rest, String.toList_inj.mp ?_⟩
      rw [String.toList_append, String.toList_ofList, hrest]
    · rintro ⟨rest, rfl⟩
      exact ⟨rest.toList, String.toList_append.symm⟩
  simp only [hasScheme, Bool.or_eq_true, hprefix, Schemed, exists_or]

theorem blankText_iff {s : String} : blankText s = true ↔ ∀ x ∈ s.toList, isBlank x = true :=
  List.all_eq_true

theorem mem_demand {condition : Bool} {p q : Problem} :
    q ∈ demand condition p ↔ ¬condition = true ∧ q = p := by
  unfold demand
  split <;> simp_all

theorem demand_sublist (condition : Bool) (p : Problem) : (demand condition p).Sublist [p] := by
  unfold demand
  split
  · exact List.nil_sublist _
  · exact List.Sublist.refl _

section Sections

variable {c : Config} {p : Problem}

theorem mem_remoteProblems {r : RemoteSettings} : p ∈ remoteProblems r ↔
    ¬Schemed r.endpoint ∧ p = .endpointScheme r.endpoint ∨
    r.requestTimeout = .zero ∧ p = .zeroRequestTimeout ∨
    r.callTimeout = .zero ∧ p = .zeroCallTimeout := by
  simp only [remoteProblems, List.mem_append, mem_demand, hasScheme_iff, Bool.not_eq_true',
    Bool.not_eq_false, Duration.isZero_iff, or_assoc]

theorem mem_batchingProblems {b : BatchingSettings} : p ∈ batchingProblems b ↔
    (b.limits.maxEvents = 0 ∨ 10000 < b.limits.maxEvents) ∧ p = .eventCount b.limits.maxEvents ∨
    b.limits.maxBytes ≤ b.limits.eventOverhead ∧
      p = .bytesWithinOverhead b.limits.maxBytes b.limits.eventOverhead ∨
    1048576 < b.limits.maxBytes ∧ p = .tooManyBytes b.limits.maxBytes ∨
    b.sweepInterval = .zero ∧ p = .zeroSweepInterval := by
  have hcount (n : Nat) : ¬(1 ≤ n ∧ n ≤ mostEvents) ↔ n = 0 ∨ 10000 < n := by
    unfold mostEvents
    omega
  have hbytes (n : Nat) : ¬n ≤ mostBytes ↔ 1048576 < n := Nat.not_le
  simp only [batchingProblems, List.mem_append, mem_demand, Bool.and_eq_true, decide_eq_true_eq,
    hcount, hbytes, Nat.not_lt, Bool.not_eq_true', Bool.not_eq_false, Duration.isZero_iff,
    or_assoc]

theorem mem_statusProblems {status : Option StatusSettings} : p ∈ statusProblems status ↔
    ∃ s, status = some s ∧ (∀ address, SocketAddress.parse? s.listen ≠ some address) ∧
      p = .listenAddress s.listen := by
  cases status with
  | none => simp [statusProblems]
  | some s => simp [statusProblems, mem_demand, Option.eq_none_iff_forall_ne_some]

theorem mem_destinationProblems {d : DestinationSettings} : p ∈ destinationProblems d ↔
    ∃ g, d.group = some g ∧ (∀ x ∈ g.toList, isBlank x = true) ∧ p = .blankGroup := by
  unfold destinationProblems
  cases d.group with
  | none => simp
  | some g => simp [mem_demand, blankText_iff]

theorem mem_problems : p ∈ c.problems ↔ c.Violates p := by
  simp only [problems, List.mem_append, mem_remoteProblems, mem_batchingProblems,
    mem_statusProblems, mem_destinationProblems]
  constructor
  · rintro ((((⟨h, rfl⟩ | ⟨h, rfl⟩ | ⟨h, rfl⟩) | ⟨h, rfl⟩ | ⟨h, rfl⟩ | ⟨h, rfl⟩ | ⟨h, rfl⟩) |
      ⟨s, hs, h, rfl⟩) | ⟨g, hg, h, rfl⟩)
    · exact .scheme h
    · exact .requestTimeout h
    · exact .callTimeout h
    · exact .maxEvents h
    · exact .eventOverhead h
    · exact .maxBytes h
    · exact .sweepInterval h
    · exact .listen hs h
    · exact .group hg h
  · intro h
    cases h with
    | scheme h | requestTimeout h | callTimeout h => simp [h]
    | maxEvents h | eventOverhead h | maxBytes h | sweepInterval h => simp [h]
    | listen hs h => exact .inl (.inr ⟨_, hs, h, rfl⟩)
    | group hg h => exact .inr ⟨_, hg, h, rfl⟩

theorem valid_iff : c.Valid ↔ ∀ p, ¬c.Violates p := by
  constructor
  · intro h p hp
    cases hp with
    | scheme hp => exact hp h.scheme
    | requestTimeout hp => exact h.requestTimeout hp
    | callTimeout hp => exact h.callTimeout hp
    | maxEvents hp =>
      have hcount := h.maxEvents
      omega
    | eventOverhead hp => exact Nat.not_lt_of_ge hp h.eventOverhead
    | maxBytes hp => exact Nat.not_lt_of_ge h.maxBytes hp
    | sweepInterval hp => exact h.sweepInterval hp
    | listen hs hp =>
      obtain ⟨address, haddress⟩ := h.listen _ hs
      exact hp address haddress
    | group hg hp =>
      obtain ⟨x, hx, hseen⟩ := h.group _ hg
      exact Bool.false_ne_true (hseen.symm.trans (hp x hx))
  · intro h
    exact {
      scheme := by_contra fun hc => h _ (.scheme hc)
      requestTimeout := fun hc => h _ (.requestTimeout hc)
      callTimeout := fun hc => h _ (.callTimeout hc)
      maxEvents := by
        by_contra hc
        exact h _ (.maxEvents (by omega))
      eventOverhead := Nat.lt_of_not_le fun hc => h _ (.eventOverhead hc)
      maxBytes := Nat.le_of_not_lt fun hc => h _ (.maxBytes hc)
      sweepInterval := fun hc => h _ (.sweepInterval hc)
      listen := fun s hs => by
        by_contra hc
        exact h _ (.listen hs (not_exists.mp hc))
      group := fun g hg => by
        by_contra hc
        refine h _ (.group hg fun x hx => ?_)
        by_contra hseen
        exact hc ⟨x, hx, by simpa using hseen⟩ }

theorem remoteProblems_sublist (r : RemoteSettings) : (remoteProblems r).Sublist
    ([.endpointScheme r.endpoint] ++ [.zeroRequestTimeout] ++ [.zeroCallTimeout]) :=
  ((demand_sublist ..).append (demand_sublist ..)).append (demand_sublist ..)

theorem batchingProblems_sublist (b : BatchingSettings) : (batchingProblems b).Sublist
    ([.eventCount b.limits.maxEvents] ++
      [.bytesWithinOverhead b.limits.maxBytes b.limits.eventOverhead] ++
      [.tooManyBytes b.limits.maxBytes] ++ [.zeroSweepInterval]) :=
  (((demand_sublist ..).append (demand_sublist ..)).append (demand_sublist ..)).append
    (demand_sublist ..)

theorem statusProblems_sublist (status : Option StatusSettings) :
    ∃ listen, (statusProblems status).Sublist [.listenAddress listen] := by
  cases status with
  | none => exact ⟨"", List.nil_sublist _⟩
  | some s => exact ⟨s.listen, demand_sublist ..⟩

theorem destinationProblems_sublist (d : DestinationSettings) :
    (destinationProblems d).Sublist [.blankGroup] := by
  unfold destinationProblems
  cases d.group with
  | none => exact List.nil_sublist _
  | some g => exact demand_sublist ..

theorem problems_ordered (c : Config) : c.problems.Pairwise fun p q => p.place < q.place := by
  obtain ⟨listen, hstatus⟩ := statusProblems_sublist c.status
  have hall := (((remoteProblems_sublist c.remote).append
    (batchingProblems_sublist c.batching)).append hstatus).append
    (destinationProblems_sublist c.destination)
  refine List.Pairwise.sublist hall ?_
  simp [Problem.place]

end Sections

/-! ### What is said about them -/

namespace Problem

theorem prefix_append {a m : String} (h : a.toList <+: m.toList) (t : String) :
    a.toList <+: (m ++ t).toList := by
  rw [String.toList_append]
  exact h.trans (List.prefix_append _ _)

theorem message_names_setting (p : Problem) : (p.setting ++ ":").toList <+: p.message.toList := by
  cases p with
  | endpointScheme | listenAddress =>
    refine prefix_append (prefix_append ?_ _) _
    simp only [setting]
    decide +kernel
  | eventCount | tooManyBytes =>
    refine prefix_append (prefix_append (prefix_append ?_ _) _) _
    simp only [setting]
    decide +kernel
  | bytesWithinOverhead =>
    refine prefix_append (prefix_append (prefix_append (prefix_append ?_ _) _) _) _
    simp only [setting]
    decide +kernel
  | zeroRequestTimeout | zeroCallTimeout | zeroSweepInterval | blankGroup => decide +kernel

def settings : List String :=
  ["remote.endpoint", "remote.request_timeout", "remote.call_timeout", "batching.max_events",
    "batching.max_bytes", "batching.sweep_interval", "status.listen", "destination.group"]

theorem setting_mem (p : Problem) : p.setting ∈ settings := by
  cases p <;> simp [setting, settings]

theorem setting_eq_of_message {p q : Problem} (h : p.message = q.message) :
    p.setting = q.setting := by
  have hnames : ∀ a ∈ settings, ∀ b ∈ settings,
      (a ++ ":").toList <+: (b ++ ":").toList → a = b := by decide +kernel
  have hp := p.message_names_setting
  rw [h] at hp
  rcases List.prefix_or_prefix_of_prefix hp q.message_names_setting with hshort | hshort
  · exact hnames _ p.setting_mem _ q.setting_mem hshort
  · exact (hnames _ q.setting_mem _ p.setting_mem hshort).symm

theorem append_cancel_front {a n s t u v w : String}
    (h : a ++ n ++ s ++ t ++ u = a ++ n ++ v ++ w) :
    s.toList ++ (t.toList ++ u.toList) = v.toList ++ w.toList := by
  have hlist := congrArg String.toList h
  simp only [String.toList_append, List.append_assoc] at hlist
  exact List.append_cancel_left (List.append_cancel_left hlist)

theorem bytes_messages_ne (n overhead : Nat) :
    (bytesWithinOverhead n overhead).message ≠ (tooManyBytes n).message := by
  intro h
  have hlist := append_cancel_front h
  have hlong : 1 < " must exceed event_overhead (".toList.length := by decide +kernel
  have hshort : 1 < " exceeds ".toList.length := by decide +kernel
  have hdiffer : " must exceed event_overhead (".toList[1]? ≠ " exceeds ".toList[1]? := by
    decide +kernel
  have hsecond := congrArg (·[1]?) hlist
  exact hdiffer <| by
    rwa [← List.getElem?_append_left hlong, ← List.getElem?_append_left hshort]

end Problem

theorem Violates.message_ne {c : Config} {p q : Problem} (hp : c.Violates p) (hq : c.Violates q)
    (h : p.place < q.place) : p.message ≠ q.message := by
  intro hmessage
  have hsetting := Problem.setting_eq_of_message hmessage
  -- Only the two conditions on the number of bytes share a setting.
  cases hp <;> cases hq <;> simp [Problem.place, Problem.setting] at h hsetting
  exact Problem.bytes_messages_ne _ _ hmessage

theorem messages_nodup (c : Config) : (c.problems.map Problem.message).Nodup := by
  refine List.pairwise_map.mpr ((problems_ordered c).imp_of_mem ?_)
  intro p q hp hq h
  exact (mem_problems.mp hp).message_ne (mem_problems.mp hq) h

/-! ### Parsing -/

theorem problems_eq_nil_iff {c : Config} : c.problems = [] ↔ c.Valid := by
  rw [valid_iff, List.eq_nil_iff_forall_not_mem]
  simp only [mem_problems]

theorem valid_of_defaults {endpoint : String} (h : Schemed endpoint) :
    Valid { remote := { endpoint } } where
  scheme := h
  requestTimeout := (by decide : Duration.ofMillis 5000 ≠ .zero)
  callTimeout := (by decide : Duration.ofMillis 10000 ≠ .zero)
  maxEvents := (by decide : 1 ≤ 1000 ∧ 1000 ≤ 10000)
  eventOverhead := (by decide : 28 < 32768)
  maxBytes := (by decide : 32768 ≤ 1048576)
  sweepInterval := (by decide : Duration.ofMillis 10000 ≠ .zero)
  listen _ hs := by cases hs
  group _ hg := by cases hg

theorem validate_of_valid {c : Config} (h : c.Valid) : validate c = .ok c := by
  rw [validate, problems_eq_nil_iff.mpr h]
  rfl

theorem validate_of_not_valid {c : Config} (h : ¬c.Valid) :
    validate c = .error (.invalid c.problems) := by
  rw [validate, if_neg]
  rwa [List.isEmpty_iff, problems_eq_nil_iff]

theorem parse_of_read {env : Environment} {text : String} {c : Config}
    (hread : ofText? (expand env text) = some c)
    (hset : ∀ before name, ¬Stands (expand env text).toList before name) :
    parse env text = validate c := by
  have hnames : sortedNames (expand env text) = [] := by
    refine List.eq_nil_iff_forall_not_mem.mpr fun name hmem => ?_
    obtain ⟨before, hstands⟩ := mem_names.mp (mem_sortedNames.mp hmem)
    exact hset _ _ hstands
  rw [parse_of_no_names hnames, readExpanded, hread]

/-- A text that holds a configuration, with no reference left in it once it is expanded, is parsed
to just that configuration if it meets all conditions. If not, the answer has one message for each
condition that fails and no other, whichever fail together, in the order of the sections. -/
theorem parse_validates {env : Environment} {text : String} {c : Config}
    (hread : ofText? (expand env text) = some c)
    (hset : ∀ before name, ¬Stands (expand env text).toList before name) :
    (∀ c', parse env text = .ok c' ↔ c.Valid ∧ c' = c) ∧
    (¬c.Valid → ∃ problems, parse env text = .error (.invalid problems) ∧
      (∀ p, p ∈ problems ↔ c.Violates p) ∧
      problems.Pairwise (fun p q => p.place < q.place) ∧
      (problems.map Problem.message).Nodup) := by
  rw [parse_of_read hread hset]
  refine ⟨fun c' => ?_, fun hinvalid => ?_⟩
  · by_cases hvalid : c.Valid
    · rw [validate_of_valid hvalid, Except.ok.injEq]
      exact ⟨fun h => ⟨hvalid, h.symm⟩, fun h => h.2.symm⟩
    · rw [validate_of_not_valid hvalid]
      exact ⟨nofun, fun h => absurd h.1 hvalid⟩
  · exact ⟨c.problems, validate_of_not_valid hinvalid, fun _ => mem_problems, problems_ordered c,
      messages_nodup c⟩

def faultyText : String :=
  "\x7bremote: \x7bendpoint: $env\x7bA\x7d, call_timeout: 0s\x7d, " ++
  "batching: \x7bmax_events: 0, max_bytes: 9\x7d\x7d"

def faulty : Config where
  remote := { endpoint := "b", callTimeout := .zero }
  batching := { limits := { maxEvents := 0, maxBytes := 9 } }

theorem parse_validates_faulty :
    let env : Environment := fun name => if name = "A" then some "b" else none
    ofText? (expand env faultyText) = some faulty ∧
      (∀ before name, ¬Stands (expand env faultyText).toList before name) ∧ ¬faulty.Valid ∧
      ∃ problems, parse env faultyText = .error (.invalid problems) ∧
        (∀ p, p ∈ problems ↔ faulty.Violates p) ∧
        problems = [.endpointScheme "b", .zeroCallTimeout, .eventCount 0,
          .bytesWithinOverhead 9 28] := by
  intro env
  have hread : ofText? (expand env faultyText) = some faulty := by decide +kernel
  have hnames : names (expand env faultyText) = [] := by decide +kernel
  have hset (before name : List Char) : ¬Stands (expand env faultyText).toList before name := by
    intro h
    have hmem := mem_names.mpr ⟨before, (String.toList_ofList (l := name)).symm ▸ h⟩
    rw [hnames] at hmem
    cases hmem
  have hproblems : faulty.problems = [.endpointScheme "b", .zeroCallTimeout, .eventCount 0,
      .bytesWithinOverhead 9 28] := by decide +kernel
  have hinvalid : ¬faulty.Valid := by
    rw [← problems_eq_nil_iff, hproblems]
    nofun
  obtain ⟨problems, hparse, hviolates, -⟩ := (parse_validates hread hset).2 hinvalid
  refine ⟨hread, hset, hinvalid, problems, hparse, hviolates, ?_⟩
  rw [parse_of_read hread hset, validate_of_not_valid hinvalid] at hparse
  cases hparse
  exact hproblems

/-- The text holds a configuration that meets all conditions; it is refused all the same, before it
is read, for the reference that is left in it. -/
theorem valid_refused_for_reference :
    let env : Environment := fun _ => none
    let text := "remote:\n  endpoint: http://h/$env\x7bA\x7d\n"
    let c : Config := { remote := { endpoint := "http://h/$env\x7bA\x7d" } }
    ofText? (expand env text) = some c ∧ c.Valid ∧ (∀ c', parse env text ≠ .ok c') ∧
      ∀ problems, parse env text ≠ .error (.invalid problems) := by
  intro env text c
  have hread : ofText? (expand env text) = some c := by decide +kernel
  have hvalid : c.Valid := valid_of_defaults ⟨"h/$env\x7bA\x7d", .inl rfl⟩
  have hlist : sortedNames (expand env text) = ["A"] := by decide +kernel
  have hparse := parse_of_names hlist
  rw [hparse]
  exact ⟨hread, hvalid, nofun, nofun⟩

end Config
end LogRelay
