import LogRelay.Proofs.Searching
import Mathlib.Data.List.Basic

/-! What making a group and a stream comes to at a remote where other clients are at work. -/

namespace LogRelay

open Gateway

namespace Provider

variable {σ : Type} {p : Provider σ} {d : Destination}

/-! ### Requests and what they leave -/

inductive Opening (d : Destination) : Request → Prop where
  | findGroup (page : Option String) : Opening d (.describeGroups d.group page)
  | makeGroup : Opening d (.createGroup d.group)
  | findStream (page : Option String) : Opening d (.describeStreams d page)
  | makeStream : Opening d (.createStream d)

variable {s s' m : σ} {ex : List (Request × Response)}

theorem Provides.serves (h : p.Provides d) {q : Request} (hq : Opening d q) (s : σ) :
    p.stock (p.serve s q).2 = p.stock s ∨ p.stock (p.serve s q).2 = (p.stock s).withGroup d.group ∨
      (p.stock s).streams d = none ∧ p.stock (p.serve s q).2 = (p.stock s).withStream d := by
  cases hq with
  | findGroup => exact Or.inl (h.looks s _ (Or.inl rfl))
  | findStream => exact Or.inl (h.looks s _ (Or.inr rfl))
  | makeGroup =>
    by_cases hgroup : (p.stock s).groups d.group
    · exact Or.inl (h.keepsGroup s hgroup).2
    · exact Or.inr (Or.inl (h.createsGroup s hgroup).2)
  | makeStream =>
    by_cases hgroup : (p.stock s).groups d.group
    · cases hstream : (p.stock s).streams d with
      | none => exact Or.inr (Or.inr ⟨rfl, (h.createsStream s hgroup hstream).2⟩)
      | some _ => exact Or.inl (h.keepsStream s hgroup (by simp [hstream])).2
    · exact Or.inl (h.needsGroup s hgroup)

theorem Provides.serve_grows (h : p.Provides d) {q : Request} (hq : Opening d q) (s : σ) :
    (p.stock s).Grows (p.stock (p.serve s q).2) := by
  rcases h.serves hq s with hsame | hgroup | ⟨-, hstream⟩
  · exact hsame ▸ .refl _
  · exact hgroup ▸ Stock.grows_withGroup _ _
  · exact hstream ▸ Stock.grows_withStream _ _

theorem Provides.grows (h : p.Provides d) (hex : ∀ x ∈ ex, Opening d x.1)
    (hanswered : Dialogue.Answered p.answer s ex s') : (p.stock s).Grows (p.stock s') := by
  induction ex generalizing s with
  | nil =>
    obtain rfl : s' = s := hanswered
    exact .refl _
  | cons x rest ih =>
    obtain ⟨hx, hrest⟩ := List.forall_mem_cons.mp hex
    exact ((h.others_grow s).trans (h.serve_grows hx _)).trans (ih hrest hanswered.2)

theorem Provides.grows_after (h : p.Provides d) (hex : ∀ x ∈ ex, Opening d x.1)
    (hanswered : Dialogue.Answered p.answer s ex s') (hm : p.During s ex m) :
    (p.stock m).Grows (p.stock s') := by
  induction hm with
  | now => exact h.grows hex hanswered
  | others s x ex =>
    obtain ⟨hx, hrest⟩ := List.forall_mem_cons.mp hex
    exact (h.serve_grows hx (p.others s)).trans (h.grows hrest hanswered.2)
  | later _ ih => exact ih (List.forall_mem_cons.mp hex).2 hanswered.2

theorem Provides.alone (h : p.Provides d)
    (hothers : ∀ s, (p.stock (p.others s)).streams d = (p.stock s).streams d)
    (hex : ∀ x ∈ ex, Opening d x.1) (hm : p.During s ex m) :
    (p.stock m).streams d = (p.stock s).streams d ∨
      (p.stock s).streams d = none ∧ (p.stock m).streams d = some none := by
  induction hm with
  | now => exact Or.inl rfl
  | others s => exact Or.inl (hothers s)
  | @later s m x ex hm ih =>
    -- Either the stream is made right now, or it is for the rest as it was for the whole.
    obtain ⟨hx, hrest⟩ := List.forall_mem_cons.mp hex
    have hrest := ih hrest
    rw [answer] at hrest
    rw [← hothers s]
    rcases h.serves hx (p.others s) with hsame | hgroup | ⟨hnone, hmade⟩
    · rwa [hsame] at hrest
    · rwa [hgroup] at hrest
    · rw [hmade] at hrest
      refine Or.inr ⟨hnone, ?_⟩
      simpa [Stock.withStream] using hrest

/-! ### The group -/

def groupsShown (x : Request × Response) : List String :=
  if x.1.action = .describeGroups then shown groupPage? x else []

def streamsShown (x : Request × Response) : List StreamInfo :=
  if x.1.action = .describeStreams then shown streamPage? x else []

/-- No request of this kind is made; or this one is, once, and there is reason for it in what came
before. -/
def MadeOnce (q : Request) (reason : List (Request × Response) → Prop)
    (ex : List (Request × Response)) : Prop :=
  (∀ x ∈ ex, x.1.action ≠ q.action) ∨ ∃ before response after,
    ex = before ++ (q, response) :: after ∧ (∀ x ∈ before ++ after, x.1.action ≠ q.action) ∧
      reason before

theorem Provides.findGroup (h : p.Provides d) (s : σ) : ∃ found look s',
    Settles p.answer (fun pages => Gateway.findGroup pages d.group) s (.ok found) look s' ∧
      (∀ x ∈ look, Opening d x.1 ∧ x.1.action = .describeGroups) ∧
      (found = none → d.group ∉ look.flatMap groupsShown ∧ ¬(p.stock s).groups d.group) ∧
      ∀ g, found = some g → (p.stock s').groups d.group := by
  obtain ⟨names, hlisting, hall⟩ := h.listsGroups s
  obtain ⟨look, s', hlook, hsearched⟩ := Listing.search hlisting (· = d.group)
  have hasked : ∀ x ∈ look, Opening d x.1 ∧ x.1.action = .describeGroups := by
    intro x hx
    obtain ⟨page, hpage⟩ := hsearched.asked x hx
    exact hpage ▸ ⟨.findGroup page, rfl⟩
  have hshown : look.flatMap groupsShown = look.flatMap (shown groupPage?) :=
    List.flatMap_congr fun x hx => if_pos (hasked x hx).2
  refine ⟨_, look, s', hlook, hasked, fun hnone => ⟨?_, fun hgroup => ?_⟩, fun g hfound => ?_⟩
  · rw [hshown]
    intro hmem
    simpa using List.find?_eq_none.mp (hsearched.seen.trans hnone) d.group hmem
  · have hlisted := hall d.group hgroup List.prefix_rfl
    simpa using List.find?_eq_none.mp hnone d.group hlisted
  · obtain rfl : g = d.group := by simpa using List.find?_some hfound
    obtain ⟨m, hm | hm, hgroup⟩ := hsearched.so _ hfound
    · exact hm.elim
    · have hgrows := h.grows_after (fun x hx => (hasked x hx).1) hlook.answered hm
      exact hgrows.groups _ hgroup

theorem Provides.createGroup (h : p.Provides d) (s : σ) : ∃ r,
    (p.answer s (.createGroup d.group)).1.decode nothing? = some r ∧
      (r = .ok () ∨ ∃ message, r = .error (.alreadyExists message)) ∧
      (p.stock (p.answer s (.createGroup d.group)).2).groups d.group := by
  rw [answer]
  by_cases hgroup : (p.stock (p.others s)).groups d.group
  · obtain ⟨⟨e, hcomplains⟩, hstock⟩ := h.keepsGroup _ hgroup
    obtain ⟨message, hdecode⟩ := hcomplains.alreadyExists
    exact ⟨_, hdecode, Or.inr ⟨message, rfl⟩, hstock ▸ hgroup⟩
  · obtain ⟨hdone, hstock⟩ := h.createsGroup _ hgroup
    refine ⟨_, Response.decode_ok_iff.mpr hdone, Or.inl rfl, ?_⟩
    rw [hstock]
    exact Or.inl rfl

structure GroupMade (d : Destination) (w w' : Stock) (ex : List (Request × Response)) : Prop where
  asked : ∀ x ∈ ex, Opening d x.1 ∧ (x.1.action = .describeGroups ∨ x.1.action = .createGroup)
  there : w'.groups d.group
  once : MadeOnce (.createGroup d.group) (fun before => d.group ∉ before.flatMap groupsShown) ex
  known : w.groups d.group → ∀ x ∈ ex, x.1.action ≠ .createGroup

theorem Provides.makeGroup (h : p.Provides d) (s : σ) : ∃ ex s',
    Settles p.answer (fun pages => Gateway.makeGroup pages d.group) s (.ok ()) ex s' ∧
      GroupMade d (p.stock s) (p.stock s') ex := by
  obtain ⟨found, look, mid, hlook, hasked, hunseen, hgroup⟩ := h.findGroup s
  have hother : ∀ x ∈ look, x.1.action ≠ .createGroup := fun x hx => by simp [(hasked x hx).2]
  cases found with
  | some g =>
    refine ⟨look ++ [], mid, hlook.andOk (settles_finish _ _), ?_⟩
    rw [List.append_nil]
    exact ⟨fun x hx => ⟨(hasked x hx).1, Or.inl (hasked x hx).2⟩, hgroup g rfl, Or.inl hother,
      fun _ => hother⟩
  | none =>
    obtain ⟨hunseen, hunknown⟩ := hunseen rfl
    obtain ⟨r, hdecode, hr, hgroup⟩ := h.createGroup mid
    refine ⟨look ++ ([_] ++ []), (p.answer mid (.createGroup d.group)).2,
      hlook.andOk ((settles_exchange hdecode).andThen ?_), ?_⟩
    · rcases hr with rfl | ⟨message, rfl⟩
      · exact settles_finish _ _
      · exact settles_finish _ _
    refine ⟨?_, hgroup, Or.inr ⟨look, _, [], rfl, ?_, hunseen⟩, fun h => absurd h hunknown⟩
    · intro x hx
      rcases List.mem_append.mp hx with hx | hx
      · exact ⟨(hasked x hx).1, Or.inl (hasked x hx).2⟩
      · obtain rfl := List.mem_singleton.mp hx
        exact ⟨.makeGroup, Or.inr rfl⟩
    · rwa [List.append_nil]

/-! ### The stream -/

structure StreamSought (p : Provider σ) (d : Destination) (s : σ) (found : Option StreamInfo)
    (look : List (Request × Response)) : Prop where
  asked : ∀ x ∈ look, Opening d x.1 ∧ x.1.action = .describeStreams
  listed : ∃ infos, p.ListsStreams d s infos ∧ infos.find? (·.name = d.stream) = found
  seen : (look.flatMap streamsShown).find? (·.name = d.stream) = found
  unknown : found = none → (p.stock s).streams d = none
  had : ∀ i, found = some i → ∃ m, p.During s look m ∧ (p.stock m).streams d = some i.token

theorem Provides.findStream (h : p.Provides d) {s : σ} (hgroup : (p.stock s).groups d.group) :
    ∃ found look s',
      Settles p.answer (fun pages => Gateway.findStream pages d) s (.ok found) look s' ∧
        StreamSought p d s found look := by
  obtain ⟨infos, hlisting, hall⟩ := h.listsStreams s hgroup
  obtain ⟨look, s', hlook, hsearched⟩ := Listing.search hlisting (·.name = d.stream)
  have hasked : ∀ x ∈ look, Opening d x.1 ∧ x.1.action = .describeStreams := by
    intro x hx
    obtain ⟨page, hpage⟩ := hsearched.asked x hx
    exact hpage ▸ ⟨.findStream page, rfl⟩
  have hshown : look.flatMap streamsShown = look.flatMap (shown streamPage?) :=
    List.flatMap_congr fun x hx => if_pos (hasked x hx).2
  refine ⟨_, look, s', hlook, hasked, ⟨infos, hlisting, rfl⟩, hshown ▸ hsearched.seen, ?_, ?_⟩
  · intro hnone
    cases hstream : (p.stock s).streams d with
    | none => rfl
    | some t =>
      obtain ⟨i, hi, hname⟩ := hall d.stream (Option.isSome_iff_exists.mpr ⟨t, hstream⟩)
        List.prefix_rfl
      exact absurd (List.find?_eq_none.mp hnone i hi) (by simpa using hname)
  · intro i hfound
    have hname : i.name = d.stream := by simpa using List.find?_some hfound
    obtain ⟨m, hm | hm, hstream⟩ := hsearched.so i hfound
    · exact hm.elim
    · rw [hname] at hstream
      exact ⟨m, hm, hstream⟩

theorem Provides.createStream (h : p.Provides d) {s : σ} (hgroup : (p.stock s).groups d.group) :
    ∃ r, (p.answer s (.createStream d)).1.decode nothing? = some r ∧
      (r = .ok () ∧ (p.stock (p.answer s (.createStream d)).2).streams d = some none ∨
        ∃ message, r = .error (.alreadyExists message) ∧
          ((p.stock (p.answer s (.createStream d)).2).streams d).isSome) := by
  have hgroup := (h.others_grow s).groups _ hgroup
  rw [answer]
  cases hstream : (p.stock (p.others s)).streams d with
  | none =>
    obtain ⟨hdone, hstock⟩ := h.createsStream _ hgroup hstream
    refine ⟨_, Response.decode_ok_iff.mpr hdone, Or.inl ⟨rfl, ?_⟩⟩
    simp [hstock, Stock.withStream]
  | some t =>
    have hthere : ((p.stock (p.others s)).streams d).isSome := by simp [hstream]
    obtain ⟨⟨e, hcomplains⟩, hstock⟩ := h.keepsStream _ hgroup hthere
    obtain ⟨message, hdecode⟩ := hcomplains.alreadyExists
    exact ⟨_, hdecode, Or.inr ⟨message, rfl, hstock ▸ hthere⟩⟩

/-- What making a stream came to: it has had the token meanwhile, which is what a listing as a whole
said of it, and it was created unless a page showed it. What was there before is not created. -/
structure StreamMade (p : Provider σ) (d : Destination) (s : σ) (t : Option Token)
    (ex : List (Request × Response)) : Prop where
  asked : ∀ x ∈ ex, Opening d x.1 ∧ (x.1.action = .describeStreams ∨ x.1.action = .createStream)
  had : ∃ m, p.During s ex m ∧ (p.stock m).streams d = some t
  listed : ∃ m infos, p.During s ex m ∧ p.ListsStreams d m infos ∧
    t = (infos.find? (·.name = d.stream)).bind (·.token)
  seen : t = ((ex.flatMap streamsShown).find? (·.name = d.stream)).bind (·.token)
  once : MadeOnce (.createStream d) (fun before => ∀ i ∈ before.flatMap streamsShown,
    i.name ≠ d.stream) ex
  known : ((p.stock s).streams d).isSome → ∀ x ∈ ex, x.1.action ≠ .createStream

variable {look again : List (Request × Response)}

theorem StreamSought.made {i : StreamInfo} (h : StreamSought p d s (some i) look) :
    StreamMade p d s i.token look := by
  have hother : ∀ x ∈ look, x.1.action ≠ .createStream := fun x hx => by simp [(h.asked x hx).2]
  obtain ⟨infos, hlisted, hfound⟩ := h.listed
  exact
    { asked := fun x hx => ⟨(h.asked x hx).1, Or.inl (h.asked x hx).2⟩
      had := h.had i rfl
      listed := ⟨s, infos, .now _ _, hlisted, by rw [hfound]; rfl⟩
      seen := by rw [h.seen]; rfl
      once := Or.inl hother
      known := fun _ => hother }

theorem StreamSought.created (h : StreamSought p d s none look) {t : Option Token}
    (response : Response) (hagain : ∀ x ∈ again, Opening d x.1 ∧ x.1.action = .describeStreams)
    (had : ∃ m, p.During s (look ++ (.createStream d, response) :: again) m ∧
      (p.stock m).streams d = some t)
    (hlisted : ∃ m infos, p.During s (look ++ (.createStream d, response) :: again) m ∧
      p.ListsStreams d m infos ∧ t = (infos.find? (·.name = d.stream)).bind (·.token))
    (hseen : t = ((again.flatMap streamsShown).find? (·.name = d.stream)).bind (·.token)) :
    StreamMade p d s t (look ++ (.createStream d, response) :: again) where
  asked x hx := by
    rcases List.mem_append.mp hx with hx | hx
    · exact ⟨(h.asked x hx).1, Or.inl (h.asked x hx).2⟩
    · rcases List.mem_cons.mp hx with rfl | hx
      · exact ⟨.makeStream, Or.inr rfl⟩
      · exact ⟨(hagain x hx).1, Or.inl (hagain x hx).2⟩
  had := had
  listed := hlisted
  seen := by
    have hcreate : streamsShown (.createStream d, response) = [] := rfl
    rw [List.flatMap_append, List.flatMap_cons, hcreate, List.nil_append, List.find?_append, h.seen]
    exact hseen
  once := by
    refine Or.inr ⟨look, response, again, rfl, fun x hx => ?_, fun i hi => ?_⟩
    · have haction := (List.mem_append.mp hx).elim (fun hx => (h.asked x hx).2)
        fun hx => (hagain x hx).2
      rw [haction]
      exact nofun
    · simpa using List.find?_eq_none.mp h.seen i hi
  known hknown := by simp [h.unknown rfl] at hknown

theorem Provides.makeStream (h : p.Provides d) {s : σ} (hgroup : (p.stock s).groups d.group) :
    ∃ t ex s', Settles p.answer (fun pages => Gateway.makeStream pages d) s (.ok t) ex s' ∧
      StreamMade p d s t ex := by
  obtain ⟨found, look, mid, hlook, hsought⟩ := h.findStream hgroup
  cases found with
  | some i =>
    refine ⟨i.token, look ++ [], mid, hlook.andOk (settles_finish _ _), ?_⟩
    rw [List.append_nil]
    exact hsought.made
  | none =>
    have hgrows := h.grows (fun x hx => (hsought.asked x hx).1) hlook.answered
    have hmid : (p.stock mid).groups d.group := hgrows.groups _ hgroup
    have hlater {again : List (Request × Response)} {m : σ}
        (hm : p.During (p.answer mid (.createStream d)).2 again m) :
        p.During s (look ++ (.createStream d, (p.answer mid (.createStream d)).1) :: again) m :=
      .after hlook.answered (.later hm)
    obtain ⟨r, hdecode, ⟨rfl, hstream⟩ | ⟨message, rfl, hthere⟩⟩ := h.createStream hmid
    · refine ⟨none, look ++ ([_] ++ []), (p.answer mid (.createStream d)).2,
        hlook.andOk ((settles_exchange hdecode).andThen (settles_finish _ _)), ?_⟩
      obtain ⟨infos, hlisted, hfound⟩ := hsought.listed
      exact hsought.created _ (List.forall_mem_nil _) ⟨_, hlater (.now _ []), hstream⟩
        ⟨s, infos, .now _ _, hlisted, by rw [hfound]; rfl⟩ rfl
    · -- Someone else was faster. The listing that begins only now has to show the stream.
      have hafter := (h.others_grow mid).trans (h.serve_grows .makeStream _)
      obtain ⟨found, again, s', hsecond, hagain⟩ := h.findStream (hafter.groups _ hmid)
      cases found with
      | none =>
        rw [answer] at hthere
        simp [hagain.unknown rfl] at hthere
      | some i =>
        have hmade := hagain.made
        obtain ⟨m, hm, hstream⟩ := hmade.had
        obtain ⟨m', infos, hm', hlisted, hfound⟩ := hmade.listed
        refine ⟨i.token, look ++ ([_] ++ (again ++ [])), s', hlook.andOk
          ((settles_exchange hdecode).andThen (hsecond.andOk (settles_finish _ _))), ?_⟩
        rw [List.append_nil, List.singleton_append]
        exact hsought.created _ hagain.asked ⟨m, hlater hm, hstream⟩
          ⟨m', infos, hlater hm', hlisted, hfound⟩ hmade.seen

end Provider
end LogRelay
