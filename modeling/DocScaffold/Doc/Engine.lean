import DocScaffold.Text.Basic

/-!
# Template engines

An engine renders the code of an example from a template and from values for the names that the template
reads. Which engine it is stands open, and so does what it fails at.
-/

namespace DocScaffold

structure Engine where
  Value : Type
  Fault : Type
  /-- The value that shows as a text. -/
  ofText : Text → Value
  /-- Renders the template with a name. -/
  render : Text → List (Text × Value) → Except Fault Text

namespace Engine

/-- Values by name. -/
abbrev Context (E : Engine) := List (Text × E.Value)

/-- Gives a name a value, in place of the one that it has. -/
def Context.set {E : Engine} (c : E.Context) (name : Text) (value : E.Value) : E.Context :=
  c.filter (·.1 != name) ++ [(name, value)]

end Engine

end DocScaffold
