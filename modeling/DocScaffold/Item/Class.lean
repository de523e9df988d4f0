import DocScaffold.Item.Function

/-!
# The class of a declaration

A declaration that a trait or a union leads is unsupported whatever else it holds. Otherwise the first
of function, struct and enum that is found in it decides.
-/

namespace DocScaffold.Item

inductive Class
  | documented (kind : Kind)
  | unsupported (keyword : Option Keyword)
  deriving DecidableEq

/-- The first item keyword, when only modifiers stand in front of it. -/
def leadingKeyword? (s : Text) : Option Keyword := do
  let ts := s.tokens
  let i ← ts.findIdx? fun t => (Keyword.ofToken? t).isSome
  let keyword ← ts[i]?.bind Keyword.ofToken?
  if (Modifiers.before s ts i).2 = 0 then some keyword else none

def Class.of (s : Text) : Class :=
  match leadingKeyword? s with
  | some .trait => .unsupported (some .trait)
  | some .union => .unsupported (some .union)
  | _ =>
    let ts := s.tokens
    if (Function.locate? ts).isSome then .documented .function
    else if (Token.findKeyword Keyword.struct.text ts).isSome then .documented .struct
    else if (Token.findKeyword Keyword.enum.text ts).isSome then .documented .enum
    else .unsupported none

/-- A declaration that is not documented, and the keyword for which it is not. -/
structure Unsupported where
  text : Text
  keyword : Option Keyword
  deriving DecidableEq

/-- The kind that a declaration is documented as. -/
def classify (s : Text) : Except Unsupported Kind :=
  match Class.of s with
  | .documented kind => .ok kind
  | .unsupported keyword => .error ⟨s, keyword⟩

/-- The kind of a declaration that can be documented. -/
def kindOf? (s : Text) : Option Kind :=
  match Class.of s with
  | .documented kind => some kind
  | .unsupported _ => none

end DocScaffold.Item
