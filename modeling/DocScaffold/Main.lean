import DocScaffold.CommandLine.Run
import DocScaffold.CommandLine.Usage
import DocScaffold.Host.Yaml.Document

/-!
# The program

The outer layer of the command line: it looks at the files that a run can touch and at the clock, runs
the command on what it saw, and writes what the run leaves behind.
-/

namespace DocScaffold.Main

open CommandLine

def partsOf (name : String) : List Text := (Path.ofText name.toList).parts

/-- The absolute name of a place. -/
def nameOf (place : List Text) : String := String.ofList (Path.text ⟨['/'], place⟩)

/-- What lies at a place. -/
def look (place : List Text) : IO (Option Tree) := do
  try
    let found ← IO.FS.realPath (nameOf place)
    if ← found.isDir then return some .emptyDirectory
    if ← found.pathExists then
      return some (.file (← IO.FS.readBinFile (nameOf place)).toList)
    return none
  catch _ => return none

/-- A place and all the places on the way to it, the outermost first. -/
def wayTo (place : List Text) : List (List Text) := (List.range (place.length + 1)).map place.take

/-- The places that a run can read or write. -/
def touched (here : List Text) (home : Text → Option (List Text)) (i : Invocation) : List (List Text) :=
  let resolved (name : Text) : List Text := (Path.ofText name).resolve here
  let expanded (name : Text) : List Text :=
    (((Path.ofText name).expand? home).map (·.resolve here)).getD []
  let settingsFor (place : List Text) : List (List Text) :=
    wayTo place ++ (wayTo place).map Settings.fileIn
  let log := (i.logFile.map fun name => wayTo (resolved name)).getD []
  wayTo here ++ log ++ match i.request with
  | .generate path _ none _ => wayTo (resolved path) ++ settingsFor (expanded path).dropLast
  | .generate path _ (some config) _ => wayTo (resolved path) ++ settingsFor (expanded config)
  | .signature path _ => wayTo (resolved path)
  | .serve .. => []

/-- Adds what lies at a place to a tree. Directories that are known keep their entries. -/
def note (tree : Tree) (place : List Text) : IO Tree := do
  match tree.get? place, ← look place with
  | none, some found => return tree.put found place
  | _, _ => return tree

/-- Writes the file at a place if it has changed. -/
def save (before after : Disk) (place : List Text) : IO Unit := do
  match before.get? place, after.get? place with
  | some (.file old), some (.file new) =>
    if old ≠ new then IO.FS.writeBinFile (nameOf place) ⟨new.toArray⟩
  | none, some (.file new) => IO.FS.writeBinFile (nameOf place) ⟨new.toArray⟩
  | _, _ => return ()

/-- A number with zeros in front. -/
def padded (width n : Nat) : Text :=
  let digits := Text.ofNat n
  List.replicate (width - digits.length) '0' ++ digits

/-- The year, the month and the day that come so many days behind the first of March of the year 0. -/
def dateOf (days : Nat) : Nat × Nat × Nat :=
  let (era, day) := (days / 146097, days % 146097)
  let year := (day - day / 1460 + day / 36524 - day / 146096) / 365
  let rest := day - (365 * year + year / 4 - year / 100)
  -- Counted from March on, the months before the last come in fives of 153 days.
  let month := (5 * rest + 2) / 153
  let isNext := 10 ≤ month
  (era * 400 + year + (if isNext then 1 else 0), if isNext then month - 9 else month + 3,
    rest - (153 * month + 2) / 5 + 1)

/-- How log files tell the time: in UTC, with milliseconds. -/
def stamp (seconds millis : Nat) : Text :=
  let (year, month, day) := dateOf (seconds / 86400 + 719468)
  let clock := [seconds / 3600 % 24, seconds / 60 % 60, seconds % 60].map (padded 2)
  List.intercalate ['-'] [padded 4 year, padded 2 month, padded 2 day] ++ ' ' ::
    List.intercalate [':'] clock ++ ',' :: padded 3 millis

/-- The time by which files are written. -/
def now : IO Text := do
  let time ← IO.FS.withTempFile fun _ path => return (← path.metadata).modified
  return stamp time.sec.toNat (time.nsec.toNat / 1000000)

def failureText : Failure → Text
  | .log e => "Cannot write the log: ".toList ++ e.reason
  | .setup e => e.message
  | .source (.file e) => e.reason
  | .source (.undecodable e) => e.message

def perform (i : Invocation) : IO UInt32 := do
  let here := partsOf (← IO.currentDir).toString
  let own := partsOf ((← IO.getEnv "HOME").getD "/")
  let home (user : Text) : Option (List Text) := if user.isEmpty then some own else none
  let tree ← (touched here home i).foldlM note Tree.emptyDirectory
  let disk : Disk := ⟨tree, here, home⟩
  -- The records of a run all tell the time of its start.
  let start ← now
  match run .ofProgram (fun _ => start) disk i with
  | .error e =>
    IO.eprintln (String.ofList (failureText e))
    return 1
  | .ok report =>
    if let some name := i.logFile then save disk report.disk (disk.resolve (.ofText name))
    IO.print (String.ofList report.output)
    IO.eprint (String.ofList report.errors)
    if let some (host, port) := report.service then
      IO.eprintln (String.ofList ("No listener is built in for ".toList ++ host ++ ":".toList ++
        Text.ofInt port))
    return UInt32.ofNat report.code

end DocScaffold.Main

open DocScaffold CommandLine in
/-- Reads the command line and does what it asks for. -/
def main (args : List String) : IO UInt32 := do
  match CommandLine.read (args.map String.toList) with
  | .ok i => Main.perform i
  | .error r =>
    match r.halt with
    | .help =>
      IO.println (String.ofList (usage r.speaker))
      return 0
    | .fault e =>
      IO.eprintln (String.ofList (usage r.speaker))
      IO.eprintln (String.ofList (speaker r.speaker ++ ": error: ".toList ++ e.message))
      return 2
