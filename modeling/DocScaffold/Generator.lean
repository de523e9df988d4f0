import DocScaffold.Declaration.Search
import DocScaffold.Doc.Template
import DocScaffold.Item.Class

/-!
# Generating templates

A generator documents the kinds of items that it was made for.
-/

namespace DocScaffold

structure Generator where
  kinds : List Item.Kind

namespace Generator

/-- What becomes of a declaration. -/
inductive Outcome
  | template (kind : Item.Kind) (text : Text)
  | rejected (kind : Item.Kind)
  | disabled (kind : Item.Kind)
  | unsupported (keyword : Option Keyword)

def Outcome.template? : Outcome → Option Text
  | .template _ text => some text
  | _ => none

/-- The template with the kind of its item. -/
def Outcome.found? : Outcome → Option (Item.Kind × Text)
  | .template kind text => some (kind, text)
  | _ => none

/-- A generator for all kinds. -/
def full : Generator := ⟨Item.Kind.all⟩

/-- Inserts a name into names in ascending order, once. -/
def insertName (name : Text) : List Text → List Text
  | [] => [name]
  | n :: rest =>
    if name = n then n :: rest
    else if name < n then name :: n :: rest
    else n :: insertName name rest

/-- Names that no kind has, in ascending order. -/
structure UnknownNames where
  names : List Text

def UnknownNames.message (e : UnknownNames) : Text :=
  "Unknown analyzers requested: ".toList ++ Text.listed e.names

/-- The generator for the kinds named, without regard to case; for all kinds when none are asked
for. -/
def select (enabled : Option (List Text)) : Except UnknownNames Generator :=
  match enabled with
  | none => .ok full
  | some names =>
    let names := names.map Text.lower
    let known := Item.Kind.all.map (·.name)
    match (names.filter fun n => !known.contains n).foldr insertName [] with
    | [] => .ok ⟨Item.Kind.all.filter fun kind => names.contains kind.name⟩
    | unknown => .error ⟨unknown⟩

/-- Documents a declaration. -/
def document (g : Generator) (s : Text) (o : Options) : Outcome :=
  match Item.Class.of s with
  | .unsupported keyword => .unsupported keyword
  | .documented kind =>
    if g.kinds.contains kind then
      match Item.template? kind s o with
      | some text => .template kind text
      | none => .rejected kind
    else .disabled kind

/-- Documents the declaration behind the cursor. -/
def documentBehind (g : Generator) (lines : List Text) (cursor : Nat) (o : Options) :
    Option Outcome :=
  (Declaration.search lines cursor).declaration?.map fun d => g.document d.signature o

/-- The template for the declaration behind a cursor, which may stand in front of the first line. -/
def templateBehind (g : Generator) (lines : List Text) (cursor : Int) (o : Options) :
    Except Declaration.CursorError (Option (Item.Kind × Text)) := do
  return (g.documentBehind lines (← Declaration.cursorLine cursor) o).bind Outcome.found?

/-- Whether a line ends in the sign that asks for a template. -/
def isTrigger (line : Text) : Bool := line.trimEnd.endsWith "///"

end Generator

end DocScaffold
