import LogRelay.Proofs.Provisioning

/-! Opening a stream at a remote where other clients are at work: the result, and what is there
afterwards. -/

namespace LogRelay

open Gateway

namespace Provider

variable {σ : Type} {p : Provider σ} {d : Destination}

theorem MadeOnce.append {q : Request} {reason : List (Request × Response) → Prop}
    {before ex after : List (Request × Response)} (h : MadeOnce q reason ex)
    (hbefore : ∀ x ∈ before, x.1.action ≠ q.action) (hafter : ∀ x ∈ after, x.1.action ≠ q.action)
    (hreason : ∀ front, reason front → reason (before ++ front)) :
    MadeOnce q reason (before ++ ex ++ after) := by
  rcases h with hnone | ⟨front, response, rest, rfl, hothers, hfront⟩
  · refine Or.inl fun x hx => ?_
    rcases List.mem_append.mp hx with hx | hx
    · exact (List.mem_append.mp hx).elim (hbefore x) (hnone x)
    · exact hafter x hx
  · refine Or.inr ⟨before ++ front, response, rest ++ after, by simp, fun x hx => ?_,
      hreason front hfront⟩
    simp only [List.mem_append] at hx hothers
    rcases hx with (hx | hx) | (hx | hx)
    · exact hbefore x hx
    · exact hothers x (Or.inl hx)
    · exact hothers x (Or.inr hx)
    · exact hafter x hx

/-- What a call to open a stream came to. -/
structure Opened (p : Provider σ) (d : Destination) (s : σ) (t : Option Token)
    (ex : List (Request × Response)) (s' : σ) : Prop where
  -- The token is one that the stream had during the call.
  had : ∃ m, p.During s ex m ∧ (p.stock m).streams d = some t
  group : (p.stock s').groups d.group
  stream : ((p.stock s').streams d).isSome
  groupOnce : MadeOnce (.createGroup d.group)
    (fun before => d.group ∉ before.flatMap groupsShown) ex
  streamOnce : MadeOnce (.createStream d)
    (fun before => ∀ i ∈ before.flatMap streamsShown, i.name ≠ d.stream) ex
  groupKnown : (p.stock s).groups d.group → ∀ x ∈ ex, x.1.action ≠ .createGroup
  streamKnown : ((p.stock s).streams d).isSome → ∀ x ∈ ex, x.1.action ≠ .createStream
  -- What the pages of a listing show counts as one list, whether they were fetched or not, and only
  -- streams of this very name count in it.
  listed : ∃ m infos, p.During s ex m ∧ p.ListsStreams d m infos ∧
    t = (infos.find? (·.name = d.stream)).bind (·.token)
  seen : t = ((ex.flatMap streamsShown).find? (·.name = d.stream)).bind (·.token)
  alone : (∀ s, (p.stock (p.others s)).streams d = (p.stock s).streams d) →
    t = ((p.stock s).streams d).join

theorem Opened.of_made (h : p.Provides d) {s mid s' : σ} {t : Option Token}
    {first second : List (Request × Response)}
    (hfirst : Dialogue.Answered p.answer s first mid)
    (hsecond : Dialogue.Answered p.answer mid second s')
    (hgroup : GroupMade d (p.stock s) (p.stock mid) first) (hstream : StreamMade p d mid t second) :
    Opened p d s t (first ++ second) s' := by
  have hopening : ∀ x ∈ first ++ second, Opening d x.1 := fun x hx =>
    (List.mem_append.mp hx).elim (fun hx => (hgroup.asked x hx).1) fun hx => (hstream.asked x hx).1
  have hanswered := hfirst.append hsecond
  have hfirstGrows := h.grows (fun x hx => (hgroup.asked x hx).1) hfirst
  have hsecondGrows := h.grows (fun x hx => (hstream.asked x hx).1) hsecond
  -- Each part asks for its own object only.
  have hfirstOther : ∀ x ∈ first, x.1.action ≠ .createStream ∧ x.1.action ≠ .describeStreams := by
    intro x hx
    rcases (hgroup.asked x hx).2 with haction | haction <;> simp [haction]
  have hsecondOther : ∀ x ∈ second, x.1.action ≠ .createGroup := by
    intro x hx
    rcases (hstream.asked x hx).2 with haction | haction <;> simp [haction]
  have hnoStreams : first.flatMap streamsShown = [] :=
    List.flatMap_eq_nil_iff.mpr fun x hx => if_neg (hfirstOther x hx).2
  obtain ⟨m, hm, htoken⟩ := hstream.had
  have hm := hm.after hfirst
  obtain ⟨m', infos, hm', hlisted⟩ := hstream.listed
  refine
    { had := ⟨m, hm, htoken⟩
      group := hsecondGrows.groups _ hgroup.there
      stream := (h.grows_after hopening hanswered hm).streams d (by simp [htoken])
      groupOnce := ?_
      streamOnce := ?_
      groupKnown := fun hknown x hx =>
        (List.mem_append.mp hx).elim (hgroup.known hknown x) (hsecondOther x)
      streamKnown := fun hknown x hx =>
        (List.mem_append.mp hx).elim (fun hx => (hfirstOther x hx).1)
          (hstream.known (hfirstGrows.streams d hknown) x)
      listed := ⟨m', infos, hm'.after hfirst, hlisted⟩
      seen := ?_
      alone := fun hothers => ?_ }
  · exact hgroup.once.append (List.forall_mem_nil _) hsecondOther fun _ hfront => hfront
  · have honce := hstream.once.append (fun x hx => (hfirstOther x hx).1) (List.forall_mem_nil _)
      fun front hfront => by rwa [List.flatMap_append, hnoStreams]
    rwa [List.append_nil] at honce
  · rw [List.flatMap_append, hnoStreams]
    exact hstream.seen
  · rcases h.alone hothers hopening hm with hsame | ⟨hnone, hmade⟩
    · rw [← hsame, htoken]
      rfl
    · rw [hnone, ← Option.some.inj (hmade.symm.trans htoken)]
      rfl

end Provider

/-- At a remote where other clients make groups and streams and write to streams, opening a stream
succeeds, however many pages the listings come in: with a token that the stream had during the
call, and with the group and the stream there. No object is created that a listing has shown, or
twice. Only the stream of the very name counts, wherever it comes in the listings. -/
theorem stream_opens {σ : Type} (p : Provider σ) (d : Destination) (h : p.Provides d) (s : σ) :
    ∃ enough t ex s',
      (∀ pages, enough ≤ pages → (openStream pages d).run p.answer s = ⟨some (.ok t), s', ex⟩) ∧
        p.Opened d s t ex s' := by
  obtain ⟨first, mid, hfirst, hgroup⟩ := h.makeGroup s
  obtain ⟨t, second, s', hsecond, hstream⟩ := h.makeStream hgroup.there
  have hopen : Settles p.answer (fun pages => openStream pages d) s (.ok t) (first ++ second) s' :=
    Settles.andOk (f := fun pages _ => makeStream pages d) hfirst hsecond
  obtain ⟨enough, hrun⟩ := hopen
  exact ⟨enough, t, first ++ second, s', hrun,
    .of_made h hfirst.answered hsecond.answered hgroup hstream⟩

/-! ### A stream that someone else makes first -/

structure Booth where
  clock : Nat
  group : Bool
  stream : Option Bool

namespace Booth

def groupsPage (names : List String) (next : Option String) : Response :=
  .answered 200 (Json.record ([("logGroups", .array (names.map fun n =>
    .record [("logGroupName", .text n)]))] ++ Request.optionMember "nextToken" next)).compact

def streamsPage (infos : List StreamInfo) (next : Option String) : Response :=
  .answered 200 (Json.record ([("logStreams", .array (infos.map fun i =>
    .record ([("logStreamName", .text i.name)] ++
      Request.optionMember "uploadSequenceToken" i.token)))] ++
    Request.optionMember "nextToken" next)).compact

def refusal (kind : String) : Response :=
  .answered 400 (Json.record [("__type", .text kind)]).compact

def groups (s : Booth) : List String := if s.group then ["app-old", "app"] else ["app-old"]

def token (written : Bool) : Option Token := if written then some "7" else none

def infos (s : Booth) : List StreamInfo := s.stream.toList.map fun written => ⟨"web", token written⟩

def continues (q : Request) : Bool :=
  match q.action, q.body with
  | .describeGroups, .object members => 1 < members.length
  | .describeStreams, .object members => 2 < members.length
  | _, _ => false

def provider : Provider Booth where
  stock s :=
    { groups := fun g => g ∈ s.groups
      streams := fun d =>
        if d = ⟨"app", "web-old"⟩ then some (some "3")
        else if d = ⟨"app", "web"⟩ then s.stream.map token else none }
  others s :=
    { s with
      clock := s.clock + 1
      stream := if s.clock = 5 && s.group then some true else s.stream }
  serve s q :=
    match q.action with
    | .describeGroups =>
      (if continues q then groupsPage s.groups none else groupsPage [] (some "2"), s)
    | .describeStreams =>
      (if continues q then streamsPage s.infos none
        else streamsPage [⟨"web-old", some "3"⟩] (some "2"), s)
    | .createGroup =>
      if s.group then (refusal "ResourceAlreadyExistsException", s)
      else (.answered 200 [], { s with group := true })
    | .createStream =>
      if !s.group then (refusal "ResourceNotFoundException", s)
      else if s.stream.isSome then (refusal "ResourceAlreadyExistsException", s)
      else (.answered 200 [], { s with stream := some false })
    | .putEvents => (.broken, s)

theorem groupsPage_read (s : Booth) :
    (groupsPage s.groups none).Says groupPage? ⟨s.groups, none⟩ := by
  obtain ⟨clock, _ | _, stream⟩ := s <;> exact Response.decode_ok_iff.mp rfl

theorem streamsPage_read (s : Booth) :
    (streamsPage s.infos none).Says streamPage? ⟨s.infos, none⟩ := by
  obtain ⟨clock, group, _ | _ | _⟩ := s <;> exact Response.decode_ok_iff.mp rfl

theorem refusal_complains :
    (refusal "ResourceAlreadyExistsException").Complains "ResourceAlreadyExistsException" none :=
  Response.complains_iff.mpr ⟨400, ⟨"ResourceAlreadyExistsException", "", none⟩,
    ⟨_, ⟨rfl, by decide⟩, rfl⟩, rfl, rfl⟩

theorem group_iff (s : Booth) : (provider.stock s).groups "app" ↔ s.group = true := by
  obtain ⟨clock, _ | _, stream⟩ := s <;> simp [provider, groups]

theorem others_isSome (s : Booth) (h : s.stream.isSome) : (provider.others s).stream.isSome := by
  simp only [provider]
  split
  · rfl
  · exact h

theorem grows_others (s : Booth) :
    (provider.stock s).Grows (provider.stock (provider.others s)) := by
  refine ⟨fun _ => id, fun d hd => ?_⟩
  by_cases hold : d = ⟨"app", "web-old"⟩
  · rw [hold]
    rfl
  · by_cases hweb : d = ⟨"app", "web"⟩
    · rw [hweb] at hd ⊢
      have hthere := others_isSome s (by simpa [provider] using hd)
      exact Option.isSome_map.trans hthere
    · simp [provider, hold, hweb] at hd

theorem lists_groups (s : Booth) : provider.ListsGroups ⟨"app", "web"⟩ s s.groups := by
  have hfirst : (provider.answer s (.describeGroups "app" none)).1.Says groupPage?
      ⟨[], some "2"⟩ := Response.decode_ok_iff.mp rfl
  have hsecond : (provider.answer (provider.answer s (.describeGroups "app" none)).2
      (.describeGroups "app" (some "2"))).1.Says groupPage? ⟨s.groups, none⟩ := groupsPage_read s
  refine .more hfirst (List.forall_mem_nil _) (.last hsecond fun g hg => ?_)
  exact ⟨s, Or.inl (Or.inr (.now _ _)), hg⟩

theorem lists_streams (s : Booth) : provider.ListsStreams ⟨"app", "web"⟩ s
    (⟨"web-old", some "3"⟩ :: (provider.others (provider.others s)).infos) := by
  let second := provider.others (provider.others s)
  have hfirst : (provider.answer s (.describeStreams ⟨"app", "web"⟩ none)).1.Says streamPage?
      ⟨[⟨"web-old", some "3"⟩], some "2"⟩ := Response.decode_ok_iff.mp rfl
  have hsecond : (provider.answer (provider.answer s (.describeStreams ⟨"app", "web"⟩ none)).2
      (.describeStreams ⟨"app", "web"⟩ (some "2"))).1.Says streamPage? ⟨second.infos, none⟩ :=
    streamsPage_read second
  refine .more hfirst ?_ (.last hsecond fun i hi => ?_)
  · rintro _ (_ | ⟨_, ⟨⟩⟩)
    exact ⟨s, Or.inr (.now _ _), rfl⟩
  · obtain ⟨written, hwritten, rfl⟩ := List.mem_map.mp hi
    refine ⟨second, Or.inr (.others _ _ _), ?_⟩
    have hstream : second.stream = some written := Option.mem_toList.mp hwritten
    simp [provider, hstream]

theorem provides : provider.Provides ⟨"app", "web"⟩ where
  others_grow := grows_others
  looks s q hq := by
    rcases hq with hq | hq <;> simp only [provider, hq]
  listsGroups s := ⟨s.groups, lists_groups s, fun _ hg _ => hg⟩
  listsStreams s _ := by
    refine ⟨_, lists_streams s, fun name hname _ => ?_⟩
    by_cases hold : name = "web-old"
    · exact ⟨_, List.mem_cons_self .., hold.symm⟩
    · by_cases hweb : name = "web"
      · have hthere : (provider.others (provider.others s)).stream.isSome :=
          others_isSome _ (others_isSome s (by simpa [provider, hweb] using hname))
        obtain ⟨written, hwritten⟩ := Option.isSome_iff_exists.mp hthere
        refine ⟨⟨"web", token written⟩, ?_, hweb.symm⟩
        simp [infos, hwritten]
      · simp [provider, hold, hweb] at hname
  createsGroup s h := by
    obtain ⟨clock, group, stream⟩ := s
    obtain rfl : group = false := by simpa [group_iff] using h
    refine ⟨Response.decode_ok_iff.mp rfl, ?_⟩
    have hserved : (provider.serve ⟨clock, false, stream⟩ (.createGroup "app")).2 =
        ⟨clock, true, stream⟩ := rfl
    rw [hserved]
    refine (Stock.mk.injEq ..).mpr ⟨?_, rfl⟩
    funext g
    simp [provider, groups, or_comm]
  keepsGroup s h := by
    obtain ⟨clock, group, stream⟩ := s
    obtain rfl : group = true := (group_iff _).mp h
    exact ⟨⟨none, refusal_complains⟩, rfl⟩
  createsStream s h hnone := by
    obtain ⟨clock, group, stream⟩ := s
    obtain rfl : group = true := (group_iff _).mp h
    obtain rfl : stream = none := by simpa [provider] using hnone
    refine ⟨Response.decode_ok_iff.mp rfl, ?_⟩
    have hserved : (provider.serve ⟨clock, true, none⟩ (.createStream ⟨"app", "web"⟩)).2 =
        ⟨clock, true, some false⟩ := rfl
    rw [hserved]
    refine (Stock.mk.injEq ..).mpr ⟨rfl, ?_⟩
    funext d
    by_cases hweb : d = ⟨"app", "web"⟩ <;> simp [provider, hweb, token]
  keepsStream s h hthere := by
    obtain ⟨clock, group, stream⟩ := s
    obtain rfl : group = true := (group_iff _).mp h
    obtain ⟨written, rfl⟩ : ∃ written, stream = some written := by
      simpa [provider, Option.isSome_iff_exists] using hthere
    exact ⟨⟨none, refusal_complains⟩, rfl⟩
  needsGroup s h := by
    obtain ⟨clock, group, stream⟩ := s
    obtain rfl : group = false := by simpa [group_iff] using h
    rfl

end Booth

theorem stream_opens_raced : Booth.provider.Provides ⟨"app", "web"⟩ ∧
    ∃ enough ex s', (∀ pages, enough ≤ pages →
        (openStream pages ⟨"app", "web"⟩).run Booth.provider.answer ⟨0, false, none⟩ =
          ⟨some (.ok (some "7")), s', ex⟩) ∧
      Booth.provider.Opened ⟨"app", "web"⟩ ⟨0, false, none⟩ (some "7") ex s' := by
  obtain ⟨enough, t, ex, s', hrun, hopened⟩ :=
    stream_opens Booth.provider ⟨"app", "web"⟩ Booth.provides ⟨0, false, none⟩
  have hresult : ((openStream (enough + 2) ⟨"app", "web"⟩).run Booth.provider.answer
      ⟨0, false, none⟩).result = some (.ok (some "7")) := rfl
  rw [hrun (enough + 2) (Nat.le_add_right ..)] at hresult
  obtain rfl : t = some "7" := Except.ok.inj (Option.some.inj hresult)
  exact ⟨Booth.provides, enough, ex, s', hrun, hopened⟩

end LogRelay
