import DocScaffold.Item.Entry

/-!
# Structs

A struct with named fields or with a tuple body. A unit struct, also one with empty braces, has
nothing to document and is not read.
-/

namespace DocScaffold.Item

structure Struct where
  name : Text
  isTuple : Bool
  fields : List Member
  isExposed : Bool

/-- The first index from `i` on whose token satisfies `p`. -/
def indexFrom (p : Token → Bool) (ts : List Token) (i : Nat) : Option Nat :=
  ((ts.drop i).findIdx? p).map (· + i)

namespace Struct

/-- Named fields; an entry without a name or a type is left out. -/
def namedFields (body : Text) : List Member :=
  let members := body.entries.map fun entry => Member.ofEntry entry.withoutAttributes.withoutVisibility
  members.filter fun m => !m.name.isEmpty && !m.type.isEmpty

/-- The name of a tuple field is `field_` with its place. -/
def fieldName (i : Nat) : Text := "field_".toList ++ Text.ofNat i

def tupleFields (body : Text) : List Member :=
  let types := body.entries.map fun entry => entry.withoutAttributes.withoutVisibility
  (types.filter fun type => !type.isEmpty).mapIdx fun i type => ⟨fieldName i, type⟩

/-- The index of the token that opens the body, or of what stands in its place. -/
def bodyIndex? (ts : List Token) (keyword : Nat) : Option Nat := do
  let i ← Token.skipAngles ts (keyword + 2)
  let t ← ts[i]?
  if t.isIdent "where" then indexFrom (fun u => u.isPunct ['{'] || u.isPunct [';']) ts i
  else return i

/-- Reads the struct that a declaration begins or contains. -/
def parse? (s : Text) : Option Struct := do
  let ts := s.tokens
  let keyword ← Token.findKeyword Keyword.struct.text ts
  let name ← ts[keyword + 1]?
  let i ← bodyIndex? ts keyword
  let opener ← ts[i]?
  if opener.isPunct ['('] then
    let body ← Token.bodyText s ts i
    return ⟨name.value, true, tupleFields body, s.isExposed⟩
  else if opener.isPunct ['{'] then
    let body ← Token.bodyText s ts i
    if body.trim.isEmpty then none
    else return ⟨name.value, false, namedFields body, s.isExposed⟩
  else none

end Struct

end DocScaffold.Item
