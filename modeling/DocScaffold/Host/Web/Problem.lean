import DocScaffold.Json.Basic
import DocScaffold.Text.Basic

/-!
# Problems with a request

Checks of independent parts report all of their problems, in the order of the parts.
-/

namespace DocScaffold.Service

/-- What is wrong with a value. -/
inductive Complaint
  | missing
  | jsonInvalid
  | modelType
  | listType
  | stringType
  | stringUnicode
  | intType
  | intParsing
  | intParsingSize
  | intFromFloat
  | finiteNumber
  | boolType
  | boolParsing
  deriving DecidableEq

def Complaint.name : Complaint → Text
  | missing => "missing".toList
  | jsonInvalid => "json_invalid".toList
  | modelType => "model_attributes_type".toList
  | listType => "list_type".toList
  | stringType => "string_type".toList
  | stringUnicode => "string_unicode".toList
  | intType => "int_type".toList
  | intParsing => "int_parsing".toList
  | intParsingSize => "int_parsing_size".toList
  | intFromFloat => "int_from_float".toList
  | finiteNumber => "finite_number".toList
  | boolType => "bool_type".toList
  | boolParsing => "bool_parsing".toList

/-- A step on the way to a value. -/
inductive Step
  | member (name : Text)
  | item (index : Nat)
  deriving DecidableEq

structure Problem where
  complaint : Complaint
  place : List Step
  deriving DecidableEq

/-- The body of a request as a place. -/
def body : List Step := [.member "body".toList]

abbrev Checked (α : Type) := Except (List Problem) α

namespace Checked

/-- Both parts, or the problems of both. -/
def and {α β : Type} (a : Checked α) (b : Checked β) : Checked (α × β) :=
  match a, b with
  | .ok x, .ok y => .ok (x, y)
  | .ok _, .error e => .error e
  | .error e, .ok _ => .error e
  | .error e, .error f => .error (e ++ f)

def map {α β : Type} (f : α → β) (a : Checked α) : Checked β := Except.map f a

end Checked

/-- A value that was read at a place, or the complaint about it. -/
def checkedAt {α : Type} (place : List Step) : Except Complaint α → Checked α
  | .ok x => .ok x
  | .error c => .error [⟨c, place⟩]

end DocScaffold.Service
