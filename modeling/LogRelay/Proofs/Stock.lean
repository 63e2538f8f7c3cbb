import LogRelay.Gateway.Client
import LogRelay.Proofs.Dialogue
import LogRelay.Proofs.Responses

/-! A remote that has groups and streams, which other clients make and write to as well. It is not a
part of the program: what it does is stated as a law that an answerer may be assumed to obey. -/

namespace LogRelay

open Gateway

structure Stock where
  groups : String → Prop
  -- The token of a stream, if there is one; `some none` until the stream has been written to.
  streams : Destination → Option (Option Token)

namespace Stock

structure Grows (w w' : Stock) : Prop where
  groups : ∀ g, w.groups g → w'.groups g
  streams : ∀ d, (w.streams d).isSome → (w'.streams d).isSome

theorem Grows.refl (w : Stock) : w.Grows w := ⟨fun _ => id, fun _ => id⟩

theorem Grows.trans {w mid w' : Stock} (h : w.Grows mid) (h' : mid.Grows w') : w.Grows w' :=
  ⟨fun g hg => h'.groups g (h.groups g hg), fun d hd => h'.streams d (h.streams d hd)⟩

def withGroup (w : Stock) (g : String) : Stock := { w with groups := fun k => k = g ∨ w.groups k }

def withStream (w : Stock) (d : Destination) : Stock :=
  { w with streams := fun k => if k = d then some none else w.streams k }

theorem grows_withGroup (w : Stock) (g : String) : w.Grows (w.withGroup g) :=
  ⟨fun _ => Or.inr, fun _ => id⟩

theorem grows_withStream (w : Stock) (d : Destination) : w.Grows (w.withStream d) := by
  refine ⟨fun _ => id, fun k hk => ?_⟩
  by_cases hkd : k = d
  · simp [withStream, hkd]
  · simpa [withStream, hkd] using hk

end Stock

/-- A remote with the other clients: they may do something before each request is served. -/
structure Provider (σ : Type) where
  stock : σ → Stock
  others : σ → σ
  serve : σ → Request → Response × σ

namespace Provider

variable {σ α : Type} (p : Provider σ)

def answer (s : σ) (q : Request) : Response × σ := p.serve (p.others s) q

inductive During : σ → List (Request × Response) → σ → Prop where
  | now (s : σ) (ex : List (Request × Response)) : During s ex s
  | others (s : σ) (x : Request × Response) (ex : List (Request × Response)) :
      During s (x :: ex) (p.others s)
  | later {s m : σ} {x : Request × Response} {ex : List (Request × Response)}
      (h : During (p.answer s x.1).2 ex m) : During s (x :: ex) m

/-- The rest of a listing. A page shows what is there, or was at a moment since the listing began;
each leads to the next, and one of them is the last. -/
inductive Listing (ask : Option String → Request) (read : Json → Option (Page α))
    (holds : Stock → α → Prop) : (σ → Prop) → σ → Option String → List α → Prop where
  | last {since : σ → Prop} {s : σ} {page : Option String} {items : List α}
      (hpage : (p.answer s (ask page)).1.Says read ⟨items, none⟩)
      (htrue : ∀ a ∈ items, ∃ m, (since m ∨ p.During s [(ask page, (p.answer s (ask page)).1)] m) ∧
        holds (p.stock m) a) :
      Listing ask read holds since s page items
  | more {since : σ → Prop} {s : σ} {page : Option String} {items rest : List α} {next : String}
      (hpage : (p.answer s (ask page)).1.Says read ⟨items, some next⟩)
      (htrue : ∀ a ∈ items, ∃ m, (since m ∨ p.During s [(ask page, (p.answer s (ask page)).1)] m) ∧
        holds (p.stock m) a)
      (hrest : Listing ask read holds
        (fun m => since m ∨ p.During s [(ask page, (p.answer s (ask page)).1)] m)
        (p.answer s (ask page)).2 (some next) rest) :
      Listing ask read holds since s page (items ++ rest)

def ListsGroups (d : Destination) (s : σ) (names : List String) : Prop :=
  p.Listing (.describeGroups d.group) groupPage? Stock.groups (fun _ => False) s none names

def ListsStreams (d : Destination) (s : σ) (infos : List StreamInfo) : Prop :=
  p.Listing (.describeStreams d) streamPage?
    (fun w i => w.streams ⟨d.group, i.name⟩ = some i.token) (fun _ => False) s none infos

/-- Other clients delete nothing. A listing comes to an end, and shows all that was there with the
prefix when it began. Creating fails just when there is such an object already. -/
structure Provides (d : Destination) : Prop where
  others_grow : ∀ s, (p.stock s).Grows (p.stock (p.others s))
  looks : ∀ s q, q.action = .describeGroups ∨ q.action = .describeStreams →
    p.stock (p.serve s q).2 = p.stock s
  listsGroups : ∀ s, ∃ names, p.ListsGroups d s names ∧
    ∀ g, (p.stock s).groups g → d.group.toList <+: g.toList → g ∈ names
  listsStreams : ∀ s, (p.stock s).groups d.group → ∃ infos, p.ListsStreams d s infos ∧
    ∀ name, ((p.stock s).streams ⟨d.group, name⟩).isSome → d.stream.toList <+: name.toList →
      ∃ i ∈ infos, i.name = name
  createsGroup : ∀ s, ¬(p.stock s).groups d.group →
    (p.serve s (.createGroup d.group)).1.Says nothing? () ∧
      p.stock (p.serve s (.createGroup d.group)).2 = (p.stock s).withGroup d.group
  keepsGroup : ∀ s, (p.stock s).groups d.group →
    (∃ e, (p.serve s (.createGroup d.group)).1.Complains "ResourceAlreadyExistsException" e) ∧
      p.stock (p.serve s (.createGroup d.group)).2 = p.stock s
  createsStream : ∀ s, (p.stock s).groups d.group → (p.stock s).streams d = none →
    (p.serve s (.createStream d)).1.Says nothing? () ∧
      p.stock (p.serve s (.createStream d)).2 = (p.stock s).withStream d
  keepsStream : ∀ s, (p.stock s).groups d.group → ((p.stock s).streams d).isSome →
    (∃ e, (p.serve s (.createStream d)).1.Complains "ResourceAlreadyExistsException" e) ∧
      p.stock (p.serve s (.createStream d)).2 = p.stock s
  needsGroup : ∀ s, ¬(p.stock s).groups d.group →
    p.stock (p.serve s (.createStream d)).2 = p.stock s

end Provider
end LogRelay
