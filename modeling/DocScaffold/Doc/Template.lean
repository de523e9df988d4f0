import DocScaffold.Doc.Draft
import DocScaffold.Doc.Options
import DocScaffold.Item.Enum
import DocScaffold.Item.Function

/-!
# Templates of functions, structs and enums
-/

namespace DocScaffold.Item

/-- A text in code quotes. -/
def quoted (s : Text) : Text := "`".toList ++ s ++ "`".toList

/-- The label of a parameter or field. -/
def Member.label (m : Member) : Text := quoted m.name ++ " (".toList ++ quoted m.type ++ ")".toList

namespace Function

/-- What the caller of an unsafe or foreign function has to ensure. -/
def obligations : List Text := [
  "- **The caller must ensure that:**",
  "  - Any internal state or memory accessed by this function is in a valid state.",
  "  - Preconditions specific to this function's logic are satisfied.",
  "  - This function is only called in the correct program state to avoid UB."]

def unsafeHeading : Text := "- **This function is `unsafe` because:**"

def safetyComment : Text := "// SAFETY: The Caller guarantees all invariants are met."

def addParameters (f : Function) (d : Draft) : Draft :=
  if f.parameters.isEmpty then d
  else f.parameters.foldl (fun d m => d.bullet m.label "Describe this parameter.")
    (d.openSection "Arguments")

def addReturns (f : Function) (d : Draft) : Draft :=
  match f.returnType with
  | none => d
  | some type => (d.openSection "Returns").bullet (quoted type) "Describe the return value."

def addSafety (f : Function) (o : Options) (d : Draft) : Draft :=
  if f.modifiers.isUnsafe || f.modifiers.isForeign then
    let d := d.openSection "Safety"
    let d := if o.safetyDetails then d.add obligations else d
    if f.modifiers.isUnsafe then
      let (slot, d) := d.placeholder "Describe unsafe behavior."
      d.add [unsafeHeading, "  - ".toList ++ slot]
    else d
  else d

def addErrors (f : Function) (d : Draft) : Draft :=
  if f.isFallible then
    let (slot, d) := (d.openSection "Errors").placeholder "Describe possible errors."
    d.add [slot]
  else d

def usage (f : Function) : Example :=
  .call f.name f.modifiers.isAsync f.modifiers.isUnsafe safetyComment

def draft (f : Function) (o : Options) : Draft :=
  let d := f.addParameters (.new "Describe this function." 2)
  let d := f.addReturns d
  let d := f.addSafety o d
  let d := f.addErrors d
  if o.admitsExample f.isExposed then d.addExample f.usage else d

end Function

namespace Struct

def usage (s : Struct) : Example := .construct s.name s.isTuple (s.fields.map (·.name))

def addFields (s : Struct) (d : Draft) : Draft :=
  let shown : Text := if s.isTuple then "Describe this tuple field." else "Describe this field."
  if s.fields.isEmpty then d
  else s.fields.foldl (fun d m => d.bullet m.label shown) (d.openSection "Fields")

def draft (s : Struct) (o : Options) : Draft :=
  let d := s.addFields (.new "Describe this struct." 2)
  if !o.gateStructExamples || o.admitsExample s.isExposed then d.addExample s.usage else d

end Struct

namespace Variant

/-- The names that a tuple pattern binds. -/
def bindings (types : List Text) : List Text := types.mapIdx fun i _ => "v".toList ++ Text.ofNat i

/-- How the list of variants shows a variant. -/
def label (v : Variant) : Text :=
  match v.payload with
  | .tuple types => v.name ++ "(".toList ++ Text.listed types ++ ")".toList
  | .struct fields => v.name ++ " \x7b ".toList ++ Text.listed fields ++ " \x7d".toList
  | _ => v.name

/-- The pattern of the arm for a variant. -/
def pattern (v : Variant) : Text :=
  match v.payload with
  | .tuple types => v.name ++ "(".toList ++ Text.listed (bindings types) ++ ")".toList
  | _ => v.label

def handler (v : Variant) : Text :=
  match v.payload with
  | .unit => "handle_unit"
  | .tuple _ => "handle_tuple"
  | .struct _ => "handle_fields"
  | .unknown => "handle_unknown"

def shown (v : Variant) : Text :=
  match v.payload with
  | .tuple _ => "Describe this tuple variant."
  | .struct _ => "Describe this field variant."
  | _ => "Describe this variant."

end Variant

namespace Enum

def usage (e : Enum) : Example :=
  .inspect e.name.lower e.name e.defaultVariant (e.variants.map fun v => ⟨v.pattern, v.handler⟩)

def addVariants (e : Enum) (d : Draft) : Draft :=
  e.variants.foldl (fun d v => d.bullet (quoted v.label) v.shown) (d.openSection "Variants")

def draft (e : Enum) (o : Options) : Draft :=
  let d := e.addVariants (.new "Describe this enum." 2)
  if o.admitsExample e.isExposed then d.addExample e.usage else d

end Enum

/-- The template of a declaration, read as an item of the given kind. -/
def template? (kind : Kind) (s : Text) (o : Options) : Option Text :=
  match kind with
  | .function => (Function.parse? s).map fun f => (f.draft o).render
  | .struct => (Struct.parse? s).map fun t => (t.draft o).render
  | .enum => (Enum.parse? s).map fun e => (e.draft o).render

end DocScaffold.Item
