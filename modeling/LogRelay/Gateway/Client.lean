import LogRelay.Gateway.Wire

/-! Calls as dialogues over the wire. Opening a stream looks for the group and the stream, and
creates what is missing. -/

namespace LogRelay.Gateway

/-- A dialogue over the wire; `none` if its time is over before it comes to a result. -/
abbrev Talk (α : Type) := Dialogue Request Response (Option (Except RemoteError α))

namespace Talk

variable {α β : Type}

def finish (r : Except RemoteError α) : Talk α := .done (some r)

def andThen (t : Talk α) (f : Except RemoteError α → Talk β) : Talk β :=
  t.bind fun
    | none => .done none
    | some r => f r

def andOk (t : Talk α) (f : α → Talk β) : Talk β :=
  t.andThen fun
    | .ok a => f a
    | .error e => finish (.error e)

end Talk

open Talk

def exchange {α : Type} (r : Request) (read : Json → Option α) : Talk α :=
  .ask r fun response => .done (response.decode read)

/-- Goes through a listing page by page up to the first item wanted. As many pages as `pages` can
be fetched in the time for a call. -/
def search {α : Type} (fetch : Option String → Talk (Page α)) (wanted : α → Bool) :
    Nat → Option String → Talk (Option α)
  | 0, _ => .done none
  | pages + 1, token => (fetch token).andOk fun page =>
    match page.items.find? wanted, page.next with
    | some a, _ => finish (.ok (some a))
    | none, some next => search fetch wanted pages (some next)
    | none, none => finish (.ok none)

def findGroup (pages : Nat) (group : String) : Talk (Option String) :=
  search (fun token => exchange (.describeGroups group token) groupPage?) (· = group) pages none

def findStream (pages : Nat) (d : Destination) : Talk (Option StreamInfo) :=
  search (fun token => exchange (.describeStreams d token) streamPage?) (·.name = d.stream)
    pages none

-- Someone else may create the group at the same time.
def makeGroup (pages : Nat) (group : String) : Talk Unit :=
  (findGroup pages group).andOk fun
    | some _ => finish (.ok ())
    | none => (exchange (.createGroup group) nothing?).andThen fun
      | .ok () | .error (.alreadyExists _) => finish (.ok ())
      | .error e => finish (.error e)

-- Someone else may create the stream at the same time; it may have a token then.
def makeStream (pages : Nat) (d : Destination) : Talk (Option Token) :=
  (findStream pages d).andOk fun
    | some s => finish (.ok s.token)
    | none => (exchange (.createStream d) nothing?).andThen fun
      | .ok () => finish (.ok none)
      | .error (.alreadyExists _) => (findStream pages d).andOk fun found =>
        finish (.ok (found.bind (·.token)))
      | .error e => finish (.error e)

def openStream (pages : Nat) (d : Destination) : Talk (Option Token) :=
  (makeGroup pages d.group).andOk fun () => makeStream pages d

def submit (d : Destination) (token : Option Token) (events : List LogEvent) :
    Talk (Option Token) :=
  exchange (.putEvents d token events) putAnswer?

def reply (pages : Nat) : Call → Dialogue Request Response Reply
  | .openStream d => openStream pages d
  | .submit d token events => submit d token events

end LogRelay.Gateway
