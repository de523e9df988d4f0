import DocScaffold.Files.Disk
import DocScaffold.Settings.Switch
import DocScaffold.Yaml.Reader

/-!
# Settings

Settings are read from a mapping. A switch has two spellings; the one with underscores is looked up
first, and a null under it hides the other. What stands under the key `rustdocstring` takes precedence
over the entries around it.
-/

namespace DocScaffold

/-- Settings together with the parts of the directory that they hold for. -/
structure Settings where
  directory : List Text := []
  options : Options := {}
  /-- The names of the kinds to document; none stands for all of them. -/
  enabled : List Text := []

namespace Settings

open Yaml

/-- The name of a settings file. -/
def fileName : Text := ".rustdocstring.yml".toList

inductive Error
  /-- The file is no YAML. -/
  | malformed (explanation : Text)
  /-- A value cannot be built or shown. -/
  | raised (e : Raised)
  | notMapping
  | notBoolean (switch : Switch) (shown : Text)
  | undecodable (e : Utf8.Error)
  | file (e : FileError)
  /-- The path leads to the home of somebody unknown. -/
  | noHome

def Error.message : Error → Text
  | malformed explanation =>
    "Failed to parse ".toList ++ fileName ++ ": ".toList ++ explanation
  | raised e => e.message
  | notMapping => fileName ++ " must contain a mapping at the root".toList
  | notBoolean switch shown =>
    "'".toList ++ switch.key ++ "' must be a boolean, got ".toList ++ shown
  | undecodable e => e.message
  | file e => e.reason
  | noHome => "Could not determine home directory.".toList

/-- The words that turn a switch on. -/
def affirmations : List Text := ["true".toList, "yes".toList, "1".toList]

/-- The words that turn a switch off. -/
def denials : List Text := ["false".toList, "no".toList, "0".toList]

/-- The position of a switch that a value names. -/
def asBool? : Value → Option Bool
  | .bool b => some b
  | .integer i => some (i != 0)
  | .text s =>
    let word := s.trim.lower
    if affirmations.contains word then some true
    else if denials.contains word then some false
    else none
  | _ => none

/-- The mapping under a key; empty if there is none. -/
def group (d : Document) (m : Mapping) (name : Text) : Mapping :=
  ((Value.get? name m).bind d.mapping?).getD []

/-- The value for a switch, under the first of its spellings that occurs. -/
def found? (m : Mapping) (s : Switch) : Option Value :=
  match Value.get? s.key m with
  | some v => some v
  | none => Value.get? s.camelKey m

/-- The fault of a switch whose value is no truth value. -/
def refuse (d : Document) (s : Switch) (v : Value) : Error :=
  match d.shown v with
  | .ok shown => .notBoolean s shown
  | .error e => .raised e

/-- Sets switches in their order; a null leaves a switch as it is. -/
def setSwitches (d : Document) (m : Mapping) (o : Options) : List Switch → Except Error Options
  | [] => .ok o
  | s :: rest =>
    match found? m s with
    | none | some .null => setSwitches d m o rest
    | some v =>
      match asBool? v with
      | some b => setSwitches d m (s.set b o) rest
      | none => .error (refuse d s v)

/-- The names under the key `enabled`: one text, or the scalars of a sequence. -/
def namesIn (d : Document) (m : Mapping) : Except Error (List Text) :=
  match Value.get? "enabled".toList m with
  | none => .ok []
  | some v => (d.names v).mapError .raised

/-- The names to choose kinds by, if any are given. -/
def names? (s : Settings) : Option (List Text) := if s.enabled.isEmpty then none else some s.enabled

/-- The settings that a mapping of a document holds for a directory. -/
def ofMapping (directory : List Text) (d : Document) (m : Mapping) : Except Error Settings := do
  let m := Value.overlay m (group d m "rustdocstring".toList)
  let options ← setSwitches d m {} Switch.all
  let enabled ← namesIn d (group d m "analyzers".toList)
  return { directory, options, enabled }

/-- The settings that a text holds for a directory. A blank text and a null set nothing. -/
def read (y : Reader) (directory : List Text) (s : Text) : Except Error Settings :=
  if s.trim.isEmpty then .ok { directory }
  else match y.read s with
    | .error (.malformed explanation) => .error (.malformed explanation)
    | .error (.raised e) => .error (.raised e)
    | .ok d =>
      match d.root, d.mapping? d.root with
      | .null, _ => .ok { directory }
      | _, some m => ofMapping directory d m
      | _, none => .error .notMapping

end Settings

end DocScaffold
