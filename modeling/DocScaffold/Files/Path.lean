import DocScaffold.Text.Basic

/-!
# Paths

A path is kept without empty parts and without `.`; a part `..` stays.
-/

namespace DocScaffold

structure Path where
  /-- What an absolute path begins with: one slash or two; nothing for a relative path. -/
  root : Text
  parts : List Text
  deriving DecidableEq

namespace Path

/-- The parts between slashes, without empty parts and `.`. -/
def partsOf (s : Text) : List Text :=
  (Text.splitOn '/' s).filter fun part => !(part.isEmpty || part == ['.'])

/-- Exactly two slashes in front are kept; more count as one. -/
def rootOf : Text → Text
  | '/' :: '/' :: '/' :: _ => ['/']
  | '/' :: '/' :: _ => ['/', '/']
  | '/' :: _ => ['/']
  | _ => []

def ofText (s : Text) : Path := ⟨rootOf s, partsOf s⟩

def text (p : Path) : Text :=
  if p.root.isEmpty && p.parts.isEmpty then ['.']
  else p.root ++ List.intercalate ['/'] p.parts

def isAbsolute (p : Path) : Bool := !p.root.isEmpty

def hasNul (p : Path) : Bool := p.parts.any (·.contains '\x00')

/-- The path of the directory around. -/
def parent (p : Path) : Path := { p with parts := p.parts.dropLast }

/-- The path in which a leading `~` with the name of a user behind it has been replaced by the home of
that user. -/
def expand? (home : Text → Option (List Text)) (p : Path) : Option Path :=
  match p.root, p.parts with
  | [], ('~' :: user) :: rest => (home user).map fun place => ⟨['/'], place ++ rest⟩
  | _, _ => some p

/-- Takes every `..` with the part in front of it away, from a place given by its parts, the last one
first. Above the root is the root. -/
def resolveFrom (place : List Text) : List Text → List Text
  | [] => place.reverse
  | part :: rest =>
    if part = ['.', '.'] then resolveFrom place.tail rest else resolveFrom (part :: place) rest

/-- The parts, from the root on, of the place that a path names by its letters alone, as seen from a
working directory. -/
def resolve (here : List Text) (p : Path) : List Text :=
  resolveFrom (if p.isAbsolute then [] else here.reverse) p.parts

end Path

end DocScaffold
