import DocScaffold.Host.Web.Scalar
import DocScaffold.Service.App

/-!
# What requests carry

The fields of requests are checked one by one, and the problems of all of them are told.
-/

namespace DocScaffold.Service

abbrev Members := List (Text × Json)

/-- Checks the member with a name, which has to be there. -/
def required {α : Type} (check : List Step → Json → Checked α) (name : Text) (members : Members) :
    Checked α :=
  let place := body ++ [.member name]
  match Json.member? name members with
  | none => .error [⟨.missing, place⟩]
  | some value => check place value

def checkItems (place : List Step) (index : Nat) : List Json → Checked (List Text)
  | [] => .ok []
  | item :: rest =>
    ((checkedAt (place ++ [.item index]) (string item)).and
      (checkItems place (index + 1) rest)).map fun (s, texts) => s :: texts

def checkTexts (place : List Step) : Json → Checked (List Text)
  | .array items => checkItems place 0 items
  | _ => .error [⟨.listType, place⟩]

def checkInteger (place : List Step) (value : Json) : Checked Int := checkedAt place (integer value)

/-- The members of an object. -/
def checkObject (place : List Step) : Json → Checked Members
  | .object members => .ok members
  | _ => .error [⟨.modelType, place⟩]

/-- The lines of a buffer and the line of a cursor in it. -/
def checkCursor (members : Members) : Checked (List Text × Int) :=
  (required checkTexts "lines".toList members).and (required checkInteger "cursor_line".toList members)

/-- Checks a truth value that may be left out. -/
def checkTruth (place : List Step) (name : String) (usual : Bool) (members : Members) : Checked Bool :=
  match Json.member? name.toList members with
  | none => .ok usual
  | some value => checkedAt (place ++ [.member name.toList]) (truth value)

def checkSwitches (place : List Step) (members : Members) : Checked OptionsPayload :=
  let check := fun name usual => checkTruth place name usual members
  ((((check "include_examples" true).and (check "examples_only_for_public_or_extern" false)).and
    (check "include_safety_details" false)).and (check "gate_struct_examples" false)).map
      fun (((examples, exposed), safety), gate) => ⟨examples, exposed, safety, gate⟩

/-- Options that may be left out or null. -/
def checkOptions (members : Members) : Checked (Option OptionsPayload) :=
  let name := "options".toList
  let place := body ++ [.member name]
  match Json.member? name members with
  | none | some .null => .ok none
  | some value => do return some (← checkSwitches place (← checkObject place value))

/-- A request for the declaration behind a cursor. -/
def signatureRequest (value : Json) : Checked SignatureRequest := do
  (checkCursor (← checkObject body value)).map fun (lines, line) => ⟨lines, line⟩

/-- A request for the template of the declaration behind a cursor. -/
def templateRequest (value : Json) : Checked TemplateRequest := do
  let members ← checkObject body value
  ((checkCursor members).and (checkOptions members)).map fun ((lines, line), options) =>
    ⟨lines, line, options⟩

end DocScaffold.Service
