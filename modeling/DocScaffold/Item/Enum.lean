import DocScaffold.Item.Struct

/-!
# Enums and their variants
-/

namespace DocScaffold.Item

/-- What a variant carries. -/
inductive Payload
  | unit
  | tuple (types : List Text)
  | struct (fields : List Text)
  | unknown
  deriving DecidableEq

/-- A variant; `raw` is its text with single spaces and without attributes. -/
structure Variant where
  payload : Payload
  name : Text
  raw : Text
  deriving DecidableEq

namespace Variant

/-- The text between an opening character and a closing one that ends the text. -/
def enclosed? (opener closer : Char) (s : Text) : Option Text :=
  match s with
  | c :: rest =>
    if c == opener && rest.getLast? == some closer && !rest.dropLast.isEmpty then some rest.dropLast
    else none
  | [] => none

/-- The name of a struct field of a variant. -/
def fieldOf (entry : Text) : Text :=
  (Member.ofEntry entry.withoutAttributes.withoutVisibility).name

/-- Classifies a variant by what stands behind its name; one that is not written in a known shape goes
by its whole text. -/
def ofEntry (entry : Text) : Variant :=
  let raw := entry.withoutAttributes.collapse
  let name := raw.takeWhile Text.isWord
  let rest := raw.dropWhile Text.isWord
  if name.isEmpty then ⟨.unknown, raw, raw⟩
  else if rest.isEmpty then ⟨.unit, name, raw⟩
  else
    let payload := Text.trimStart rest
    match enclosed? '(' ')' payload, enclosed? '{' '}' payload with
    | some types, _ => ⟨.tuple (types.entries.map Text.withoutVisibility), name, raw⟩
    | none, some fields => ⟨.struct (fields.entries.map fieldOf), name, raw⟩
    | none, none => ⟨.unknown, raw, raw⟩

end Variant

structure Enum where
  name : Text
  variants : List Variant
  isExposed : Bool

namespace Enum

/-- What stands in front of the payload of the first variant: an example builds its value with it. -/
def defaultVariant (e : Enum) : Text :=
  match e.variants with
  | v :: _ => Text.trim (v.raw.takeWhile fun c => c != '(' && c != '{')
  | [] => []

/-- The text without line comments. -/
def uncommented (s : Text) : Text :=
  Text.trim (List.intercalate ['\n'] (s.lines.map Text.beforeLineComment))

/-- The index of the brace that opens the body. -/
def bodyIndex? (ts : List Token) (keyword : Nat) : Option Nat := do
  let i ← Token.skipAngles ts (keyword + 2)
  let t ← ts[i]?
  if t.isIdent "where" then indexFrom (·.isPunct ['{']) ts i
  else if t.isPunct ['{'] then return i
  else none

/-- Reads the enum that a declaration begins or contains; one without variants is not read. -/
def parse? (s : Text) : Option Enum := do
  let text := uncommented s
  let ts := text.tokens
  let keyword ← Token.findKeyword Keyword.enum.text ts
  let name ← ts[keyword + 1]?
  let i ← bodyIndex? ts keyword
  let body ← Token.bodyText text ts i
  let variants := (body.entries.map Variant.ofEntry).filter fun v => !v.raw.isEmpty
  if variants.isEmpty then none else return ⟨name.value, variants, s.isExposed⟩

end Enum

end DocScaffold.Item
