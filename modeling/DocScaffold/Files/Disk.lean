import DocScaffold.Files.Tree
import DocScaffold.Text.Quoted
import DocScaffold.Text.Utf8

/-!
# Files as seen from a working directory

Opening a file walks along its path, and every part on the way has to be a directory. A path with a
NUL is not even tried.
-/

namespace DocScaffold

structure Disk where
  tree : Tree
  /-- The parts of the working directory. -/
  here : List Text
  /-- The parts of the home directory of a user; the empty name is that of whoever asks. -/
  home : Text → Option (List Text)

/-- Why a file cannot be opened. -/
inductive FileError
  | notFound
  | notDirectory
  | isDirectory
  /-- A name on the way, or the path as a whole, is too long. -/
  | nameTooLong
  | nul
  deriving DecidableEq

def FileError.reason : FileError → Text
  | .notFound => "[Errno 2] No such file or directory".toList
  | .notDirectory => "[Errno 20] Not a directory".toList
  | .isDirectory => "[Errno 21] Is a directory".toList
  | .nameTooLong => "[Errno 36] File name too long".toList
  | .nul => "embedded null byte".toList

/-- The message about a path. -/
def FileError.message (e : FileError) (p : Path) : Text :=
  e.reason ++ ": ".toList ++ p.text.quote

namespace Disk

/-- The most bytes of a name. -/
def nameLimit : Nat := 255

/-- Paths have fewer bytes. -/
def pathLimit : Nat := 4096

/-- The place that a path names by its letters alone. -/
def resolve (d : Disk) (p : Path) : List Text := p.resolve d.here

/-- What lies at a place. -/
def get? (d : Disk) (place : List Text) : Option Tree := d.tree.get? place

def isFile (d : Disk) (place : List Text) : Bool := ((d.get? place).map Tree.isFile).getD false

def isDirectory (d : Disk) (place : List Text) : Bool :=
  ((d.get? place).map Tree.isDirectory).getD false

/-- Walks along parts from a place, given by its parts with the last one first, to the place where
they end. -/
def walk (d : Disk) (place : List Text) : List Text → Except FileError (List Text)
  | [] => .ok place.reverse
  | part :: rest =>
    match d.get? place.reverse with
    | none => .error .notFound
    | some (.file _) => .error .notDirectory
    | some (.directory _) =>
      if nameLimit < (Utf8.encode part).length then .error .nameTooLong
      else if part = ['.', '.'] then walk d place.tail rest
      else walk d (part :: place) rest

/-- The place where a path ends. -/
def find (d : Disk) (p : Path) : Except FileError (List Text) :=
  if p.hasNul then .error .nul
  else if pathLimit ≤ (Utf8.encode p.text).length then .error .nameTooLong
  else d.walk (if p.isAbsolute then [] else d.here.reverse) p.parts

/-- Whether a name on the way to a place is too long, or the way as a whole. -/
def isTooLong (d : Disk) (place : List Text) : Bool :=
  match d.find ⟨['/'], place⟩ with
  | .error .nameTooLong => true
  | _ => false

/-- The bytes of a file. -/
def readBytes (d : Disk) (p : Path) : Except FileError (List UInt8) := do
  match d.get? (← d.find p) with
  | some (.file bytes) => return bytes
  | some (.directory _) => .error .isDirectory
  | none => .error .notFound

/-- Opens the file at the end of a path for writing; it is made if it is not there. -/
def openFile (d : Disk) (p : Path) : Except FileError (List Text × Disk) := do
  let place ← d.find p
  match d.get? place with
  | some (.file _) => return (place, d)
  | some (.directory _) => .error .isDirectory
  | none => return (place, { d with tree := d.tree.put (.file []) place })

/-- Writes behind the end of an open file. -/
def extend (d : Disk) (place : List Text) (bytes : List UInt8) : Disk :=
  match d.get? place with
  | some (.file old) => { d with tree := d.tree.put (.file (old ++ bytes)) place }
  | _ => d

/-- Why a file holds no text. -/
inductive TextError
  | file (e : FileError)
  | undecodable (e : Utf8.Error)

/-- The text of a file with plain line ends. -/
def readText (d : Disk) (p : Path) : Except TextError Text :=
  match d.readBytes p with
  | .error e => .error (.file e)
  | .ok bytes =>
    match Utf8.decode bytes with
    | .error e => .error (.undecodable e)
    | .ok s => .ok s.plainBreaks

end Disk

end DocScaffold
