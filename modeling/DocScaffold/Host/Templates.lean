import DocScaffold.Doc.Engine
import DocScaffold.Doc.Example
import DocScaffold.Text.Quoted

/-!
# The templates of examples

The engine that the program is run with knows three templates. What a template needs is read in the order
in which it stands there, and the first thing that is missing, or of a kind that does not fit, is a fault.
-/

namespace DocScaffold

namespace Templates

inductive Value
  | flag (b : Bool)
  | text (s : Text)
  | list (items : List Value)
  | mapping (entries : List (Text × Value))

inductive Fault
  | unknownTemplate
  | undefined (name : Text)
  | noAttribute (kind name : Text)
  | notIterable (kind : Text)
  | noLength (kind : Text)
  deriving DecidableEq

def Fault.message : Fault → Option Text
  | unknownTemplate => none
  | undefined name => some ("'".toList ++ name ++ "' is undefined".toList)
  | noAttribute kind name =>
    some ("'".toList ++ kind ++ " object' has no attribute '".toList ++ name ++ "'".toList)
  | notIterable kind => some ("'".toList ++ kind ++ "' object is not iterable".toList)
  | noLength kind => some ("object of type '".toList ++ kind ++ "' has no len()".toList)

namespace Value

/-- The name of the kind of a value. -/
def kind : Value → Text
  | flag _ => "bool".toList
  | text _ => "str".toList
  | list _ => "list".toList
  | mapping _ => "dict".toList

/-- What is empty or false does not hold. -/
def holds : Value → Bool
  | flag b => b
  | text s => !s.isEmpty
  | list items => !items.isEmpty
  | mapping entries => !entries.isEmpty

mutual

/-- How a value shows inside another one. -/
def quoted : Value → Text
  | flag b => if b then "True".toList else "False".toList
  | text s => s.quote
  | list items => '[' :: Text.listed (quotedItems items) ++ [']']
  | mapping entries => '{' :: Text.listed (quotedEntries entries) ++ ['}']

def quotedItems : List Value → List Text
  | [] => []
  | v :: rest => quoted v :: quotedItems rest

def quotedEntries : List (Text × Value) → List Text
  | [] => []
  | (name, v) :: rest => (name.quote ++ ": ".toList ++ quoted v) :: quotedEntries rest

end

/-- How a value shows in the code. -/
def shown : Value → Text
  | text s => s
  | v => quoted v

/-- What a value is gone through by. -/
def items : Value → Except Fault (List Value)
  | flag b => .error (.notIterable (flag b).kind)
  | text s => .ok (s.map fun c => text [c])
  | list items => .ok items
  | mapping entries => .ok (entries.map fun (name, _) => text name)

def length : Value → Except Fault Nat
  | flag b => .error (.noLength (flag b).kind)
  | text s => .ok s.length
  | list items => .ok items.length
  | mapping entries => .ok entries.length

def part (v : Value) (name : Text) : Except Fault Value :=
  match v with
  | mapping entries =>
    match entries.reverse.find? (·.1 == name) with
    | some (_, value) => .ok value
    | none => .error (.noAttribute v.kind name)
  | v => .error (.noAttribute v.kind name)

end Value

/-- Values by name; the last one counts. -/
abbrev Context := List (Text × Value)

def Context.read (c : Context) (name : Text) : Except Fault Value :=
  match c.reverse.find? (·.1 == name) with
  | some (_, value) => .ok value
  | none => .error (.undefined name)

inductive Template
  | function
  | struct
  | enum
  deriving DecidableEq

namespace Template

def name : Template → Text
  | function => "function_example.j2".toList
  | struct => "struct_example.j2".toList
  | enum => "enum_example.j2".toList

def all : List Template := [function, struct, enum]

def ofName? (name : Text) : Option Template := all.find? fun t => t.name == name

/-- The arm that a value gives. -/
def readArm (v : Value) : Except Fault Example.Arm := do
  let pattern ← v.part "pattern".toList
  let handler ← v.part "handler".toList
  return ⟨pattern.shown, handler.shown⟩

/-- Reads what a template needs. A comment on safety is read for unsafe code only, and of the fields of a
tuple no more than their number. -/
def read (c : Context) : Template → Except Fault Example
  | function => do
    let isAsync ← c.read "is_async".toList
    let isUnsafe ← c.read "is_unsafe".toList
    let safety ← if isUnsafe.holds then Value.shown <$> c.read "safety_comment".toList else pure []
    let name ← c.read "name".toList
    return .call name.shown isAsync.holds isUnsafe.holds safety
  | struct => do
    let isTuple ← c.read "is_tuple".toList
    let name ← c.read "name".toList
    let fields ← c.read "fields".toList
    if isTuple.holds then
      return .construct name.shown true (List.replicate (← fields.length) [])
    else
      return .construct name.shown false ((← fields.items).map Value.shown)
  | enum => do
    let binding ← c.read "binding".toList
    let name ← c.read "name".toList
    let value ← c.read "default_variant".toList
    let arms ← c.read "arms".toList
    return .inspect binding.shown name.shown value.shown (← (← arms.items).mapM readArm)

end Template

/-- Renders the template with a name. -/
def render (name : Text) (c : Context) : Except Fault Text :=
  match Template.ofName? name with
  | none => .error .unknownTemplate
  | some t => do
    let module ← c.read "module".toList
    return (← t.read c).text module.shown

end Templates

/-- The engine of the program. -/
abbrev Engine.ofProgram : Engine where
  Value := Templates.Value
  Fault := Templates.Fault
  ofText := .text
  render := Templates.render

end DocScaffold
