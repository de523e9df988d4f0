import DocScaffold.Generator
import DocScaffold.Settings.Location

/-!
# Generators set up by settings
-/

namespace DocScaffold.Generator

/-- Why settings give no generator. -/
inductive SetupError
  | settings (e : Settings.Error)
  | unknownNames (e : UnknownNames)

namespace SetupError

def message : SetupError → Text
  | settings e => e.message
  | unknownNames e => e.message

/-- Whether a fault is told to the user as a message. What the disk refuses, a home that is unknown and
what is raised for anything but a wrong value are not. -/
def isTold : SetupError → Bool
  | settings (.file e) => e = .nul
  | settings .noHome => false
  | settings (.raised e) => e.isWrongValue
  | _ => true

end SetupError

/-- The generator for the kinds named. -/
def named (enabled : Option (List Text)) : Except SetupError Generator :=
  (select enabled).mapError .unknownNames

/-- The generator that the settings governing a path ask for, and their options. -/
def setUp (y : Yaml.Reader) (d : Disk) (p : Path) : Except SetupError (Generator × Options) := do
  let settings ← (Settings.load y d p).mapError .settings
  return (← named settings.names?, settings.options)

end DocScaffold.Generator
