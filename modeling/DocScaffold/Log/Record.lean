import DocScaffold.Text.Basic

/-!
# Log records

A record goes to the console and to a log file, each with a line format of its own. In the file it is
tagged with the kind of item that it concerns.
-/

namespace DocScaffold.Log

/-- The name of the program, which is also that of the root of its loggers. -/
def programName : Text := "rustdocstring".toList

/-- How grave a record is. -/
structure Level where
  rank : Int
  deriving DecidableEq

namespace Level

def debug : Level := ⟨10⟩

def info : Level := ⟨20⟩

def warning : Level := ⟨30⟩

def error : Level := ⟨40⟩

def critical : Level := ⟨50⟩

/-- The levels that have names. -/
def named : List (Level × Text) := [
  (⟨0⟩, "NOTSET".toList),
  (debug, "DEBUG".toList),
  (info, "INFO".toList),
  (warning, "WARNING".toList),
  (error, "ERROR".toList),
  (critical, "CRITICAL".toList)]

/-- A level without a name is called by its rank. -/
def name (l : Level) : Text :=
  match named.find? (·.1 == l) with
  | some (_, name) => name
  | none => "Level ".toList ++ Text.ofInt l.rank

/-- The least level that is let through. -/
def threshold (verbose : Bool) : Level := if verbose then debug else info

end Level

/-- The full name of a logger below the root; the empty name is the root's own. -/
def fullName (logger : Text) : Text :=
  if logger.isEmpty then programName else programName ++ '.' :: logger

/-- A record; `logger` is the name below the root, `subject` the kind of item if it is given. -/
structure Record where
  /-- When it is made, as log files tell it. -/
  time : Text
  level : Level
  logger : Text
  subject : Option Text
  message : Text

namespace Record

def passes (r : Record) (threshold : Level) : Bool := threshold.rank ≤ r.level.rank

/-- The loggers of the single kinds have names that begin so. -/
def kindPrefix : Text := "analyzers.".toList

/-- The kind given, else the kind that the logger is named for, else a dash. -/
def tag (r : Record) : Text :=
  match r.subject with
  | some (c :: rest) => c :: rest
  | _ =>
    if kindPrefix.isPrefixOf r.logger then r.logger.drop kindPrefix.length else "-".toList

def consoleLine (r : Record) : Text :=
  "[".toList ++ programName ++ "] ".toList ++ r.level.name ++ " ".toList ++ r.message ++ "\n".toList

/-- The record with its tag for the kind. -/
def tagged (r : Record) : Record := { r with subject := some r.tag }

/-- The line of the log file. -/
def fileLine (r : Record) : Text :=
  r.time ++ " ".toList ++ r.level.name ++ " [".toList ++ r.tag ++ "] ".toList ++
    fullName r.logger ++ ": ".toList ++ r.message ++ "\n".toList

end Record

end DocScaffold.Log
