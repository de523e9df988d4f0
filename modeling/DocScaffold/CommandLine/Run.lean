import DocScaffold.CommandLine.Invocation
import DocScaffold.CommandLine.Session
import DocScaffold.Setup

/-!
# Running a command

A run ends with an exit code, unless a fault that no command answers for cuts it short.
-/

namespace DocScaffold.CommandLine

/-- What a run leaves behind. -/
structure Report where
  code : Nat
  output : Text
  errors : Text
  disk : Disk
  /-- The host and the port that the service is to listen on. -/
  service : Option (Text × Int) := none

/-- What cuts a run short. -/
inductive Failure
  | log (e : FileError)
  | setup (e : Generator.SetupError)
  | source (e : Disk.TextError)

namespace Session

def succeed (s : Session) (output : Text) : Report := ⟨0, output, s.console, s.disk, none⟩

/-- Ends with a message. -/
def fail (s : Session) (message : Text) : Report :=
  ⟨1, [], s.console ++ message ++ ['\n'], s.disk, none⟩

end Session

/-- Goes on with the lines of a file and the line of the cursor. -/
def withSource (s : Session) (path : Text) (line : Int) (f : List Text → Nat → Report) :
    Except Failure Report :=
  let p := Path.ofText path
  match s.disk.readText p with
  | .error (.undecodable e) => .error (.source (.undecodable e))
  | .error (.file .nul) => .error (.source (.file .nul))
  | .error (.file e) =>
    .ok (s.fail ("Cannot read ".toList ++ path ++ ": ".toList ++ e.message p))
  | .ok text =>
    match Declaration.cursorLine line with
    | .error e => .ok (s.fail e.message)
    | .ok cursor => .ok (f text.lines cursor)

/-- Prints the template of the declaration behind the cursor. -/
def printTemplate (s : Session) (g : Generator) (o : Options) (lines : List Text) (cursor : Nat) :
    Report :=
  let nothing : Text := "No documentable item follows line ".toList ++ Text.ofNat cursor
  let sought := Declaration.search lines cursor
  let s := s.write (Log.Trace.search cursor sought)
  match sought.declaration? with
  | none => s.fail nothing
  | some d =>
    let outcome := g.document d.signature o
    let s := s.write (Log.Trace.found d.signature :: Log.Trace.outcome d.signature outcome)
    match outcome.template? with
    | none => s.fail nothing
    | some t => s.succeed (t ++ ['\n'])

/-- Prints the declaration behind the cursor. -/
def printSignature (s : Session) (lines : List Text) (cursor : Nat) : Report :=
  let sought := Declaration.search lines cursor
  let s := s.write (Log.Trace.search cursor sought)
  match sought.declaration? with
  | none => s.fail ("No item follows line ".toList ++ Text.ofNat cursor)
  | some d => s.succeed (d.signature ++ ['\n'])

/-- The options of settings with switches set. -/
def optionsWith (o : Options) (switches : List (Switch × Bool)) : Options :=
  switches.foldl (fun o (switch, value) => switch.set value o) o

def answer (y : Yaml.Reader) (s : Session) : Request → Except Failure Report
  | .generate path line config switches =>
    let place := match config with
      | some place => Path.ofText place
      | none => (Path.ofText path).parent
    match Generator.setUp y s.disk place with
    | .error e =>
      if e.isTold then .ok (s.fail ("Invalid configuration: ".toList ++ e.message))
      else .error (.setup e)
    | .ok (g, options) =>
      let options := optionsWith options switches
      let s := s.write [Log.Trace.options options]
      withSource s path line (printTemplate s g options)
  | .signature path line => withSource s path line (printSignature s)
  | .serve host port => .ok { s.succeed [] with service := some (host, port) }

/-- Runs a command with a reader of settings; the clock tells the time of one record after another. -/
def run (y : Yaml.Reader) (clock : Nat → Text) (d : Disk) (i : Invocation) : Except Failure Report :=
  match Session.open? d clock i.isVerbose i.logFile with
  | .error e => .error (.log e)
  | .ok s => answer y s i.request

end DocScaffold.CommandLine
