import LogRelay.CommandLine.Refusal

/-! The arguments of the command line: an action, given by nested command words, and options
between them. -/

namespace LogRelay.CommandLine

inductive Action where
  | run
  | initConfig (toOutput : Bool)
  | validateConfig
  deriving DecidableEq, Repr

structure Invocation where
  config : Option String
  action : Action
  deriving DecidableEq, Repr

def Scope.action? (toOutput : Bool) : Scope → Option Action
  | top | run => some .run
  | configInit => some (.initConfig toOutput)
  | configValidate => some .validateConfig
  | config | help | configHelp => none

inductive Parsed where
  | invocation (i : Invocation)
  | help (on : Scope)
  | refused (why : Refusal)
  deriving DecidableEq, Repr

structure Options where
  config : Option String := none
  toOutput : Bool := false
  given : List Flag := []
  -- A name of a file that was not examined yet. The inner `none` still waits for the name.
  held : Option (Option String) := none
  deriving DecidableEq, Repr

namespace Options

def awaits (o : Options) : Bool := o.held = some none

def used (o : Options) : List Flag :=
  if o.held.join.isSome && !o.given.contains .config then o.given ++ [.config] else o.given

def name (o : Options) (s : Scope) (file : String) : Except Refusal Options :=
  if o.config.isSome then .error (.repeated s .config)
  else if file.isEmpty then .error .missingValue
  else .ok { o with config := some file, given := o.given ++ [.config], held := none }

/-- Examines what is held. This is put off until the next option or the end, and an inner command
comes first. -/
def settle (o : Options) (s : Scope) : Except Refusal Options :=
  match o.held with
  | none => .ok o
  | some none => .error .missingValue
  | some (some file) => o.name s file

def setToOutput (o : Options) (s : Scope) : Except Refusal Options :=
  if o.toOutput then .error (.repeated s .toOutput)
  else .ok { o with toOutput := true, given := o.given ++ [.toOutput] }

end Options

inductive Shape where
  | ending
  | long (name : String) (value : Option String)
  | short (letter : Char)
  | plain

def Shape.of (word : String) : Shape :=
  match word.toList with
  | ['-', '-'] => .ending
  | '-' :: '-' :: rest =>
    let name := rest.takeWhile (· ≠ '=')
    .long (String.ofList name) ((rest.drop name.length).tail?.map String.ofList)
  | '-' :: letter :: _ => .short letter
  | _ => .plain

def helpScope (s : Scope) : List String → Parsed
  | [] => .help s
  | word :: rest => match s.enter? word with
    | some inner => helpScope inner rest
    | none => .refused (.unrecognized s word none)

def finish (s : Scope) (o : Options) : Parsed :=
  match o.settle s with
  | .error why => .refused why
  | .ok o => match s.action? o.toOutput with
    | some action => .invocation ⟨o.config, action⟩
    | none => .refused (if o.given.isEmpty then .bare s else .missingCommand s)

/-- What an inner command asks for, inside a scope with options of its own. The options of the
inner command go before them. -/
def Parsed.inside (inner : Parsed) (s : Scope) (o : Options) : Parsed :=
  match inner with
  | .invocation i => match o.settle s with
    | .ok o => .invocation { i with config := i.config <|> o.config }
    | .error why => .refused why
  | p => p

def parseIn (s : Scope) (o : Options) : List String → Parsed
  | [] => finish s o
  | word :: rest =>
    match if o.awaits then none else s.enter? word with
    | some inner =>
      if inner.isHelp then helpScope s rest else (parseIn inner {} rest).inside s o
    | none =>
      match Shape.of word with
      | .ending => match rest with
        | [] => finish s o
        | next :: _ => .refused (.strayBehind s next)
      | .long name value =>
        match s.flags.find? (·.word = name), value with
        | none, _ => .refused (.unknownFlag s o.used name rest)
        | some .config, none => match o.settle s with
          | .ok o => parseIn s { o with held := some none } rest
          | .error why => .refused why
        | some .config, some file => match o.settle s >>= (·.name s file) with
          | .ok o => parseIn s o rest
          | .error why => .refused why
        | some f, some value => .refused (.extraValue s (o.used ++ [f]) f value)
        | some .toOutput, none => match o.settle s >>= (·.setToOutput s) with
          | .ok o => parseIn s o rest
          | .error why => .refused why
        | some .help, none => match o.settle s with
          | .ok _ => .help s
          | .error why => .refused why
      | .short letter =>
        if letter = 'h' && s.flags.contains .help then match o.settle s with
          | .ok _ => .help s
          | .error why => .refused why
        else .refused (.unexpected s [] (String.ofList ['-', letter]) none)
      | .plain =>
        if o.awaits then parseIn s { o with held := some (some word) } rest
        else .refused (.stray s word)

def parse (args : List String) : Parsed := parseIn .top {} args

end LogRelay.CommandLine
