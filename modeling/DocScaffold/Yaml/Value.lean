import DocScaffold.Number.Shortest
import DocScaffold.Text.CodePoint
import DocScaffold.Yaml.Moment

/-!
# Values of YAML

A collection is named by its place. Of the keys of a mapping no two are equal; numbers and truth values
are equal when they are equal as numbers.
-/

namespace DocScaffold.Yaml

inductive Value
  | null
  | bool (b : Bool)
  | integer (i : Int)
  | float (x : Double)
  | text (s : Text)
  /-- Code points that are no text. -/
  | codes (cs : Codes)
  | bytes (bs : List UInt8)
  | moment (m : Moment)
  | collection (place : Nat)
  deriving DecidableEq

/-- Entries in the order in which their keys first occur. -/
abbrev Mapping := List (Value × Value)

namespace Value

/-- The integer that a number or a truth value equals. -/
def keyInteger? : Value → Option Int
  | bool b => some (if b then 1 else 0)
  | integer i => some i
  | float x => x.toInt?
  | _ => none

def sameKey (a b : Value) : Bool :=
  match a, b with
  | null, null => true
  | text s, text t => s == t
  | codes s, codes t => s == t
  | bytes s, bytes t => s == t
  | moment m, moment n => m.isSame n
  | float x, float y => x.sameValue y
  | _, _ =>
    match a.keyInteger?, b.keyInteger? with
    | some i, some j => i == j
    | _, _ => false

/-- Collections are no keys. -/
def isKey : Value → Bool
  | collection _ => false
  | _ => true

/-- Sets the value of a key. -/
def put (key value : Value) : Mapping → Mapping
  | [] => [(key, value)]
  | (k, v) :: rest => if k.sameKey key then (k, value) :: rest else (k, v) :: put key value rest

def get? (name : Text) (m : Mapping) : Option Value :=
  (m.find? fun (k, _) => k.sameKey (text name)).map (·.2)

/-- The entries of the second mapping take precedence. -/
def overlay (base top : Mapping) : Mapping := top.foldl (fun m (k, v) => put k v m) base

end Value

end DocScaffold.Yaml
