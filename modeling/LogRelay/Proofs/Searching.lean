import LogRelay.Proofs.Stock

/-! Talks that come to a result if enough pages can be fetched in time, and searches through the
listings of a remote where other clients are at work. -/

namespace LogRelay

open Gateway

namespace Gateway

variable {σ α β : Type} {answer : σ → Request → Response × σ}

/-- If enough pages can be fetched in time, the talk comes to this result with these exchanges,
however many more could be. -/
def Settles (answer : σ → Request → Response × σ) (talk : Nat → Talk α) (s : σ)
    (r : Except RemoteError α) (ex : List (Request × Response)) (s' : σ) : Prop :=
  ∃ enough, ∀ pages, enough ≤ pages → (talk pages).run answer s = ⟨some r, s', ex⟩

theorem settles_finish (s : σ) (r : Except RemoteError α) :
    Settles answer (fun _ => Talk.finish r) s r [] s := ⟨0, fun _ _ => rfl⟩

theorem settles_exchange {s : σ} {q : Request} {read : Json → Option α} {r : Except RemoteError α}
    (h : (answer s q).1.decode read = some r) :
    Settles answer (fun _ => exchange q read) s r [(q, (answer s q).1)] (answer s q).2 :=
  ⟨0, fun _ _ => by simp [exchange, Dialogue.run, h]⟩

theorem Settles.andThen {talk : Nat → Talk α} {f : Nat → Except RemoteError α → Talk β}
    {s mid s' : σ} {r : Except RemoteError α} {r' : Except RemoteError β}
    {ex ex' : List (Request × Response)} (h : Settles answer talk s r ex mid)
    (h' : Settles answer (fun pages => f pages r) mid r' ex' s') :
    Settles answer (fun pages => (talk pages).andThen (f pages)) s r' (ex ++ ex') s' := by
  obtain ⟨enough, h⟩ := h
  obtain ⟨enough', h'⟩ := h'
  refine ⟨max enough enough', fun pages hpages => ?_⟩
  have hfirst := h pages (by omega)
  have hsecond := h' pages (by omega)
  simp only [Talk.andThen, Dialogue.run_bind, hfirst, hsecond]

theorem Settles.andOk {talk : Nat → Talk α} {f : Nat → α → Talk β} {s mid s' : σ} {a : α}
    {r' : Except RemoteError β} {ex ex' : List (Request × Response)}
    (h : Settles answer talk s (.ok a) ex mid)
    (h' : Settles answer (fun pages => f pages a) mid r' ex' s') :
    Settles answer (fun pages => (talk pages).andOk (f pages)) s r' (ex ++ ex') s' := h.andThen h'

theorem Settles.page {talk : Nat → Talk α} {s s' : σ} {r : Except RemoteError α}
    {ex : List (Request × Response)}
    (h : Settles answer (fun pages => talk (pages + 1)) s r ex s') :
    Settles answer talk s r ex s' := by
  obtain ⟨enough, h⟩ := h
  refine ⟨enough + 1, fun pages hpages => ?_⟩
  obtain ⟨fewer, rfl⟩ : ∃ fewer, pages = fewer + 1 := ⟨pages - 1, by omega⟩
  exact h fewer (by omega)

theorem Settles.answered {talk : Nat → Talk α} {s s' : σ} {r : Except RemoteError α}
    {ex : List (Request × Response)} (h : Settles answer talk s r ex s') :
    Dialogue.Answered answer s ex s' := by
  obtain ⟨enough, h⟩ := h
  have hanswered := Dialogue.run_answered answer (talk enough) s
  rwa [h enough (Nat.le_refl _)] at hanswered

def shown (read : Json → Option (Page α)) (x : Request × Response) : List α :=
  match x.2.decode read with
  | some (.ok page) => page.items
  | _ => []

theorem shown_page {read : Json → Option (Page α)} {x : Request × Response} {page : Page α}
    (h : x.2.Says read page) : shown read x = page.items := by
  unfold shown
  rw [Response.decode_ok_iff.mpr h]

section Search

variable {ask : Option String → Request} {read : Json → Option (Page α)} {s s' : σ}
  {page : Option String} {items : List α}

theorem search_ends (wanted : α → Bool) {next : Option String}
    (hpage : (answer s (ask page)).1.Says read ⟨items, next⟩)
    (hends : items.find? wanted = none → next = none) :
    Settles answer (fun pages => search (fun page => exchange (ask page) read) wanted pages page) s
      (.ok (items.find? wanted)) [(ask page, (answer s (ask page)).1)] (answer s (ask page)).2 := by
  have hfetch := settles_exchange (Response.decode_ok_iff.mpr hpage)
  refine Settles.page (hfetch.andOk ?_)
  cases hfound : items.find? wanted with
  | some a => simpa [hfound] using settles_finish _ _
  | none =>
    obtain rfl := hends hfound
    simpa [hfound] using settles_finish _ _

theorem search_goesOn {wanted : α → Bool} {next : String} {r : Except RemoteError (Option α)}
    {ex : List (Request × Response)}
    (hpage : (answer s (ask page)).1.Says read ⟨items, some next⟩)
    (hnone : items.find? wanted = none)
    (hrest : Settles answer
      (fun pages => search (fun page => exchange (ask page) read) wanted pages (some next))
      (answer s (ask page)).2 r ex s') :
    Settles answer (fun pages => search (fun page => exchange (ask page) read) wanted pages page)
      s r ((ask page, (answer s (ask page)).1) :: ex) s' := by
  have hfetch := settles_exchange (Response.decode_ok_iff.mpr hpage)
  refine Settles.page (hfetch.andOk ?_)
  simpa [hnone] using hrest

end Search

end Gateway

namespace Provider

variable {σ α : Type} {p : Provider σ} {d : Destination}

theorem During.append {s m : σ} {ex : List (Request × Response)} (h : p.During s ex m)
    (ex' : List (Request × Response)) : p.During s (ex ++ ex') m := by
  induction h with
  | now => exact .now _ _
  | others => exact .others _ _ _
  | later _ ih => exact .later ih

theorem During.after {s mid m : σ} {ex ex' : List (Request × Response)}
    (hanswered : Dialogue.Answered p.answer s ex mid) (h : p.During mid ex' m) :
    p.During s (ex ++ ex') m := by
  induction ex generalizing s with
  | nil =>
    obtain rfl : mid = s := hanswered
    exact h
  | cons x rest ih => exact .later (ih hanswered.2)

structure Searched (p : Provider σ) (ask : Option String → Request)
    (read : Json → Option (Page α)) (holds : Stock → α → Prop) (wanted : α → Bool)
    (since : σ → Prop) (s : σ) (found : Option α) (ex : List (Request × Response)) : Prop where
  asked : ∀ x ∈ ex, ∃ page, x.1 = ask page
  seen : (ex.flatMap (shown read)).find? wanted = found
  so : ∀ a, found = some a → ∃ m, (since m ∨ p.During s ex m) ∧ holds (p.stock m) a

/-- A search finds what is wanted in the listing as a whole, wherever the pages are cut. -/
theorem Listing.search {ask : Option String → Request} {read : Json → Option (Page α)}
    {holds : Stock → α → Prop} {since : σ → Prop} {s : σ} {page : Option String} {items : List α}
    (h : p.Listing ask read holds since s page items) (wanted : α → Bool) :
    ∃ ex s', Settles p.answer
        (fun pages => search (fun page => exchange (ask page) read) wanted pages page) s
        (.ok (items.find? wanted)) ex s' ∧
      Searched p ask read holds wanted since s (items.find? wanted) ex := by
  -- One page that ends the search.
  have hends {since : σ → Prop} {s : σ} {page next : Option String} {items : List α}
      (hpage : (p.answer s (ask page)).1.Says read ⟨items, next⟩)
      (htrue : ∀ a ∈ items, ∃ m, (since m ∨ p.During s [(ask page, (p.answer s (ask page)).1)] m) ∧
        holds (p.stock m) a) :
      Searched p ask read holds wanted since s (items.find? wanted)
        [(ask page, (p.answer s (ask page)).1)] := by
    refine ⟨fun x hx => ⟨page, congrArg Prod.fst (List.mem_singleton.mp hx)⟩, ?_, fun a ha => ?_⟩
    · rw [List.flatMap_singleton, shown_page hpage]
    · exact htrue a (List.mem_of_find?_eq_some ha)
  induction h with
  | last hpage htrue => exact ⟨_, _, search_ends wanted hpage fun _ => rfl, hends hpage htrue⟩
  | @more since s page items rest next hpage htrue _ ih =>
    rw [List.find?_append]
    cases hfound : items.find? wanted with
    | some a =>
      have hsearch := search_ends wanted hpage (by simp [hfound])
      have hsearched := hends hpage htrue
      rw [hfound] at hsearch hsearched
      exact ⟨_, _, hsearch, hsearched⟩
    | none =>
      -- What this page could show, the later ones may show as well: `since` grows with each page.
      obtain ⟨ex, s', hsearch, hrest⟩ := ih
      refine ⟨_, s', search_goesOn hpage hfound hsearch, ?_, ?_, fun a ha => ?_⟩
      · exact List.forall_mem_cons.mpr ⟨⟨page, rfl⟩, hrest.asked⟩
      · rw [List.flatMap_cons, shown_page hpage, List.find?_append, hfound, hrest.seen]
      · obtain ⟨m, hm, hholds⟩ := hrest.so a ha
        refine ⟨m, ?_, hholds⟩
        rcases hm with (hm | hm) | hm
        · exact Or.inl hm
        · exact Or.inr (hm.append ex)
        · exact Or.inr (.later hm)

end Provider
end LogRelay
