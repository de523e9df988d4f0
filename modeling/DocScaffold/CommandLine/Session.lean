import DocScaffold.Log.Journal
import DocScaffold.Log.Trace

/-!
# What a run has written so far
-/

namespace DocScaffold.CommandLine

structure Session where
  journal : Log.Journal
  /-- The times of the records to come. -/
  clock : Nat → Text
  /-- What the console has shown. -/
  console : Text

namespace Session

/-- The disk behind what has been logged. -/
def disk (s : Session) : Disk := s.journal.disk

/-- A session in which nothing has been written; a log file is opened at once. -/
def open? (d : Disk) (clock : Nat → Text) (isVerbose : Bool) (logFile : Option Text) :
    Except FileError Session :=
  match (Log.Journal.new d).reconfigure isVerbose (logFile.map Path.ofText) with
  | (some e, _) => .error e
  | (none, journal) => .ok ⟨journal, clock, []⟩

/-- Logs a note. -/
def log (s : Session) (n : Log.Note) : Session :=
  let (shown, journal) := s.journal.write (n (s.clock 0))
  ⟨journal, fun i => s.clock (i + 1), s.console ++ shown⟩

/-- Logs notes one after another. -/
def write (s : Session) (notes : List Log.Note) : Session := notes.foldl log s

end Session

end DocScaffold.CommandLine
