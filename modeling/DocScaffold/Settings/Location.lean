import DocScaffold.Settings.Basic

/-!
# Where settings are found

A path that names a settings file stands for that file. Any other path starts a search in its
directory, which goes on through the directories around.
-/

namespace DocScaffold.Settings

/-- The parts of a settings file of a directory. -/
def fileIn (directory : List Text) : List Text := directory ++ [fileName]

/-- The nearest directory with a settings file among one, given by its parts with the last one first,
and those around it. -/
def nearest? (d : Disk) : List Text → Option (List Text)
  | [] => if d.isFile (fileIn []) then some [] else none
  | part :: around =>
    let directory := (part :: around).reverse
    if d.isFile (fileIn directory) then some directory else nearest? d around

/-- The directory in which a search starts: a place itself, or the place around it if it is none. -/
def startFor (d : Disk) (place : List Text) : List Text :=
  if d.isDirectory place then place else place.dropLast

/-- The directory whose settings govern a place. -/
def directoryFor (d : Disk) (place : List Text) : List Text :=
  if place.getLast? = some fileName then place.dropLast
  else (nearest? d (startFor d place).reverse).getD (startFor d place)

/-- The settings file that is looked for first. -/
def firstFile (d : Disk) (place : List Text) : List Text :=
  if place.getLast? = some fileName then place else fileIn (startFor d place)

/-- The settings that hold for a directory; without a settings file nothing is set. -/
def loadFrom (y : Yaml.Reader) (d : Disk) (directory : List Text) : Except Error Settings :=
  if (d.get? (fileIn directory)).isNone then .ok { directory }
  else match d.readText ⟨['/'], fileIn directory⟩ with
    | .error (.file e) => .error (.file e)
    | .error (.undecodable e) => .error (.undecodable e)
    | .ok s => read y directory s

/-- The settings that govern a place. Nothing is found behind a name that is too long. -/
def loadAt (y : Yaml.Reader) (d : Disk) (place : List Text) : Except Error Settings :=
  if d.isTooLong place || d.isTooLong (firstFile d place) then .error (.file .nameTooLong)
  else loadFrom y d (directoryFor d place)

/-- The settings that govern a path. -/
def load (y : Yaml.Reader) (d : Disk) (p : Path) : Except Error Settings :=
  if p.hasNul then .error (.file .nul)
  else match p.expand? d.home with
    | none => .error .noHome
    | some p => loadAt y d (d.resolve p)

end DocScaffold.Settings
