import DocScaffold.Files.Path

/-!
# Trees of files

A place in a tree is named by the parts of the way to it.
-/

namespace DocScaffold

inductive Tree
  | file (bytes : List UInt8)
  | directory (entries : List (Text × Tree))

namespace Tree

def emptyDirectory : Tree := directory []

def isDirectory : Tree → Bool
  | directory _ => true
  | file _ => false

def isFile : Tree → Bool
  | file _ => true
  | directory _ => false

/-- The entries of a directory. -/
def entries : Tree → List (Text × Tree)
  | directory es => es
  | file _ => []

def child? (name : Text) (t : Tree) : Option Tree := (t.entries.find? (·.1 == name)).map (·.2)

/-- What lies at the end of the parts. -/
def get? (t : Tree) : List Text → Option Tree
  | [] => some t
  | part :: rest => (t.child? part).bind fun u => get? u rest

/-- Sets an entry, in its place if there is one. -/
def setEntry (name : Text) (t : Tree) : List (Text × Tree) → List (Text × Tree)
  | [] => [(name, t)]
  | (n, u) :: rest => if n = name then (n, t) :: rest else (n, u) :: setEntry name t rest

/-- Puts a tree at the end of the parts; directories on the way are made. -/
def put (t new : Tree) : List Text → Tree
  | [] => new
  | part :: rest =>
    directory (setEntry part (put ((t.child? part).getD emptyDirectory) new rest) t.entries)

end Tree

end DocScaffold
