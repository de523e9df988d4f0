import DocScaffold.Log.Record
import DocScaffold.Settings.Basic

/-!
# Commands and their flags

A flag is written in full, or by any beginning of its long spelling that no other flag of the command
shares.
-/

namespace DocScaffold.CommandLine

inductive Command
  | generate
  | signature
  | serve
  deriving DecidableEq

inductive Flag
  | help
  | verbose
  | logFile
  | line
  | config
  | noExamples
  | examplesOnlyPublic
  | safetyDetails
  | gateStructExamples
  | host
  | port
  deriving DecidableEq

namespace Flag

/-- The spellings, the one of a single letter first. -/
def spellings : Flag → List Text
  | help => ["-h".toList, "--help".toList]
  | verbose => ["-v".toList, "--verbose".toList]
  | logFile => ["--log-file".toList]
  | line => ["--line".toList]
  | config => ["--config".toList]
  | noExamples => ["--no-examples".toList]
  | examplesOnlyPublic => ["--examples-only-public".toList]
  | safetyDetails => ["--safety-details".toList]
  | gateStructExamples => ["--gate-struct-examples".toList]
  | host => ["--host".toList]
  | port => ["--port".toList]

/-- How messages name a flag. -/
def label (f : Flag) : Text := List.intercalate ['/'] f.spellings

/-- A flag with a value takes the next word when none is written with it. -/
def takesValue : Flag → Bool
  | logFile | line | config | host | port => true
  | _ => false

/-- The flags of one letter; they take no value. -/
def ofLetter? : Char → Option Flag
  | 'h' => some help
  | 'v' => some verbose
  | _ => none

/-- The switch that a flag sets, with its position. -/
def switch? : Flag → Option (Switch × Bool)
  | noExamples => some (.includeExamples, false)
  | examplesOnlyPublic => some (.examplesOnlyExposed, true)
  | safetyDetails => some (.safetyDetails, true)
  | gateStructExamples => some (.gateStructExamples, true)
  | _ => none

end Flag

namespace Command

def name : Command → Text
  | generate => "generate".toList
  | signature => "signature".toList
  | serve => "serve".toList

def all : List Command := [generate, signature, serve]

def ofName? (s : Text) : Option Command := all.find? fun c => c.name == s

/-- Whether a command works on a file. -/
def takesPath : Command → Bool
  | generate | signature => true
  | serve => false

def flags : Command → List Flag
  | generate => [.help, .verbose, .line, .config, .noExamples, .examplesOnlyPublic,
      .safetyDetails, .gateStructExamples]
  | signature => [.help, .verbose, .line]
  | serve => [.help, .verbose, .host, .port]

end Command

/-- The flags in front of the command. -/
def programFlags : List Flag := [.help, .verbose, .logFile]

/-- The name under which a command speaks; without a command, the program's. -/
def speaker : Option Command → Text
  | none => Log.programName
  | some c => Log.programName ++ ' ' :: c.name

/-- What is wrong with a command line. -/
inductive Fault
  | ambiguous (word : Text) (spellings : List Text)
  | missingValue (f : Flag)
  | unwantedValue (f : Flag) (value : Text)
  | notInteger (f : Flag) (value : Text)
  | unknownCommand (name : Text)
  | missing (names : List Text)
  | unrecognized (words : List Text)

namespace Fault

def about (f : Flag) (problem : Text) : Text := "argument ".toList ++ f.label ++ ": ".toList ++ problem

def message : Fault → Text
  | ambiguous word spellings =>
    "ambiguous option: ".toList ++ word ++ " could match ".toList ++ Text.listed spellings
  | missingValue f => about f "expected one argument".toList
  | unwantedValue f value => about f ("ignored explicit argument ".toList ++ value.quote)
  | notInteger f value => about f ("invalid int value: ".toList ++ value.quote)
  | unknownCommand name =>
    "argument command: invalid choice: ".toList ++ name.quote ++ " (choose from ".toList ++
      Text.listed (Command.all.map fun c => c.name.quote) ++ ")".toList
  | missing names => "the following arguments are required: ".toList ++ Text.listed names
  | unrecognized words => "unrecognized arguments: ".toList ++ Text.unwords words

end Fault

end DocScaffold.CommandLine
