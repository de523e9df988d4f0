import DocScaffold.CommandLine.Word

/-!
# Reading a command line

Flags of the program stand in front of the command, all others behind it. Words that no command takes
are reported together, after all else has been found in order.
-/

namespace DocScaffold.CommandLine

/-- What a command is asked to do. -/
inductive Request
  | generate (path : Text) (line : Int) (config : Option Text) (switches : List (Switch × Bool))
  | signature (path : Text) (line : Int)
  | serve (host : Text) (port : Int)

structure Invocation where
  isVerbose : Bool
  logFile : Option Text
  request : Request

/-- Why a command line asks for nothing that can be done. -/
inductive Halt
  | help
  | fault (e : Fault)

/-- What has been read of a command line. -/
structure Given where
  isVerbose : Bool := false
  logFile : Option Text := none
  path : Option Text := none
  line : Option Int := none
  config : Option Text := none
  switches : List (Switch × Bool) := []
  host : Text := "127.0.0.1".toList
  port : Int := 8000

namespace Given

/-- Takes a flag without a value. -/
def raise (g : Given) : Flag → Except Halt Given
  | .help => .error .help
  | .verbose => .ok { g with isVerbose := true }
  | f => .ok { g with switches := g.switches ++ f.switch?.toList }

def raiseAll (g : Given) : List Flag → Except Halt Given
  | [] => .ok g
  | f :: rest => do raiseAll (← g.raise f) rest

/-- The number that the value of a flag writes. -/
def number (f : Flag) (value : Text) : Except Halt Int :=
  match value.integer? with
  | some i => .ok i
  | none => .error (.fault (.notInteger f value))

/-- Takes a flag with its value. An empty name of a file names none. -/
def assign (g : Given) (f : Flag) (value : Text) : Except Halt Given := do
  match f with
  | .logFile => return { g with logFile := if value.isEmpty then none else some value }
  | .config => return { g with config := if value.isEmpty then none else some value }
  | .host => return { g with host := value }
  | .line => return { g with line := some (← number f value) }
  | .port => return { g with port := ← number f value }
  | _ => return g

end Given

/-- The flags that stand behind `first` in one word, and what follows the last letter that is one. -/
def spread (first : Flag) : Text → Except Halt (List Flag × Option Text)
  | [] => .ok ([first], none)
  | c :: rest =>
    if c = '-' then .error (.fault (.unwantedValue first (c :: rest)))
    else match Flag.ofLetter? c with
      | none => .ok ([first], some ('-' :: c :: rest))
      | some next =>
        match rest with
        | '=' :: value => .error (.fault (.unwantedValue next value))
        | rest => do
          let (flags, left) ← spread next rest
          return (first :: flags, left)

/-- Reads words; the second part holds those that are not taken. The first operand is the path if one
is wanted, and a double dash beside it goes with it. -/
def readWords (takesPath : Bool) (g : Given) : List Word → Except Halt (Given × List Text)
  | [] => .ok (g, [])
  | ⟨_, .flag f (some value)⟩ :: rest => do
    if f.takesValue then readWords takesPath (← g.assign f value) rest
    else .error (.fault (.unwantedValue f value))
  | ⟨_, .flag f none⟩ :: rest => do
    if f.takesValue then
      match rest with
      | ⟨value, .operand⟩ :: rest => readWords takesPath (← g.assign f value) rest
      | _ => .error (.fault (.missingValue f))
    else readWords takesPath (← g.raise f) rest
  | ⟨_, .letters first behind⟩ :: rest => do
    let (flags, left) ← spread first behind
    let (g, extras) ← readWords takesPath (← g.raiseAll flags) rest
    return (g, left.toList ++ extras)
  | ⟨s, .unknown⟩ :: rest => do
    let (g, extras) ← readWords takesPath g rest
    return (g, s :: extras)
  | ⟨s, .operand⟩ :: rest =>
    if takesPath && g.path.isNone then
      match rest with
      | ⟨_, .separator⟩ :: rest => readWords takesPath { g with path := some s } rest
      | rest => readWords takesPath { g with path := some s } rest
    else do
      let (g, extras) ← readWords takesPath g rest
      return (g, s :: extras)
  | ⟨s, .separator⟩ :: rest =>
    match takesPath && g.path.isNone, rest with
    | true, ⟨path, .operand⟩ :: rest => readWords takesPath { g with path := some path } rest
    | _, rest => do
      let (g, extras) ← readWords takesPath g rest
      return (g, s :: extras)

/-- The words in front of the command, and those from the command on. -/
def splitAtCommand : List Word → List Word × List Word
  | [] => ([], [])
  | ⟨s, .operand⟩ :: rest => ([], ⟨s, .operand⟩ :: rest)
  | ⟨s, .separator⟩ :: [] => ([⟨s, .separator⟩], [])
  | ⟨s, .separator⟩ :: rest => ([], ⟨s, .separator⟩ :: rest)
  | ⟨s, .flag f none⟩ :: ⟨value, .operand⟩ :: rest =>
    if f.takesValue then
      let (front, back) := splitAtCommand rest
      (⟨s, .flag f none⟩ :: ⟨value, .operand⟩ :: front, back)
    else ([⟨s, .flag f none⟩], ⟨value, .operand⟩ :: rest)
  | w :: rest =>
    let (front, back) := splitAtCommand rest
    (w :: front, back)

/-- The request of a command, if all that it needs is given. -/
def Command.request (c : Command) (g : Given) : Except Halt Request :=
  match c, g.path, g.line with
  | .serve, _, _ => .ok (.serve g.host g.port)
  | .generate, some path, some line => .ok (.generate path line g.config g.switches)
  | .signature, some path, some line => .ok (.signature path line)
  | _, path, line => .error (.fault (.missing
      ((if path.isNone then ["path".toList] else []) ++
        (if line.isNone then Flag.line.spellings else []))))

/-- A halt together with the command that speaks, if one does. -/
structure Refusal where
  speaker : Option Command
  halt : Halt

def Refusal.fault (speaker : Option Command) (e : Fault) : Refusal := ⟨speaker, .fault e⟩

/-- The invocation that the words of a command line write. -/
def read (args : List Text) : Except Refusal Invocation := do
  let words ← (Word.classify programFlags args).mapError (.fault none)
  let (front, back) := splitAtCommand words
  let (g, extras) ← (readWords false {} front).mapError (⟨none, ·⟩)
  match back with
  | [] => .error (.fault none (.missing ["command".toList]))
  | w :: rest =>
    match Command.ofName? w.text with
    | none => .error (.fault none (.unknownCommand w.text))
    | some c =>
      let words ← (Word.classify c.flags (rest.map (·.text))).mapError (.fault (some c))
      let (g, more) ← (readWords c.takesPath g words).mapError (⟨some c, ·⟩)
      let request ← (c.request g).mapError (⟨some c, ·⟩)
      match extras ++ more with
      | [] => return ⟨g.isVerbose, g.logFile, request⟩
      | words => .error (.fault none (.unrecognized words))

end DocScaffold.CommandLine
