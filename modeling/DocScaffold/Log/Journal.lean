import DocScaffold.Files.Disk
import DocScaffold.Log.Record

/-!
# A journal over several configurations

Records are delivered to handlers. A configuration removes the handlers of the one before it and adds
its own; files that have been written stay and are appended to. A log file that cannot be opened leaves
the console alone.
-/

namespace DocScaffold.Log

/-- Where a handler writes. -/
inductive Outlet
  | console
  /-- The open file at a place. -/
  | file (place : List Text)
  deriving DecidableEq

/-- A handler writes the records that reach its level. -/
structure Handler where
  level : Level
  outlet : Outlet
  deriving DecidableEq

/-- The files that a process logs to, among others, and where it logs to. -/
structure Journal where
  disk : Disk
  threshold : Level
  attached : List Handler

/-- Something that happens to a journal. -/
inductive Event
  | configure (verbose : Bool) (sink : Option Path)
  | log (r : Record)

namespace Journal

/-- The journal of a process that has not been configured. -/
def new (d : Disk) : Journal := ⟨d, .warning, []⟩

/-- How many handlers there are. -/
def handlers (j : Journal) : Nat := j.attached.length

def removeHandler (j : Journal) (h : Handler) : Journal := { j with attached := j.attached.erase h }

def addHandler (j : Journal) (h : Handler) : Journal := { j with attached := j.attached ++ [h] }

/-- Adds a handler for the file that a path names by its letters alone. The file is opened at once. -/
def addFile (j : Journal) (level : Level) (p : Path) : Except FileError Journal := do
  let (place, disk) ← j.disk.openFile ⟨['/'], j.disk.resolve p⟩
  return { j with disk }.addHandler ⟨level, .file place⟩

/-- Takes up a configuration in place of the one before it; the first part is the fault that it raises,
if any. -/
def reconfigure (j : Journal) (verbose : Bool) (sink : Option Path) : Option FileError × Journal :=
  let level := Level.threshold verbose
  let j := { j.attached.foldl removeHandler j with threshold := level }
  let j := j.addHandler ⟨level, .console⟩
  match sink with
  | none => (none, j)
  | some p =>
    match j.addFile level p with
    | .error e => (some e, j)
    | .ok j => (none, j)

/-- Hands a record to handlers one after another; the first part is what the console shows. The handler
of a file tags the record, for the handlers behind it as well. -/
def deliver (disk : Disk) (r : Record) : List Handler → Text × Disk
  | [] => ([], disk)
  | h :: rest =>
    if r.passes h.level then
      match h.outlet with
      | .console =>
        let (shown, disk) := deliver disk r rest
        (r.consoleLine ++ shown, disk)
      | .file place => deliver (disk.extend place (Utf8.encode r.tagged.fileLine)) r.tagged rest
    else deliver disk r rest

/-- Writes a record that reaches the level of the journal. -/
def write (j : Journal) (r : Record) : Text × Journal :=
  if r.passes j.threshold then
    let (shown, disk) := deliver j.disk r j.attached
    (shown, { j with disk })
  else ([], j)

/-- What the console shows of an event, or the fault that it raises, and the journal behind it. -/
def step (j : Journal) : Event → Except FileError Text × Journal
  | .configure verbose sink =>
    match j.reconfigure verbose sink with
    | (some e, j) => (.error e, j)
    | (none, j) => (.ok [], j)
  | .log r =>
    let (shown, j) := j.write r
    (.ok shown, j)

/-- The journal behind some events. -/
def runAll (j : Journal) (events : List Event) : Journal := events.foldl (fun j e => (j.step e).2) j

end Journal

end DocScaffold.Log
