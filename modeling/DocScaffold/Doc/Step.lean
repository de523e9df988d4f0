import DocScaffold.Doc.Draft
import DocScaffold.Doc.Engine

/-!
# Building a draft step by step

An example is given by the name of a template and by values for the names that the template reads. One
that cannot be rendered still opens its section and takes its slot.
-/

namespace DocScaffold.Draft

variable (E : Engine)

/-- A step on a draft. -/
inductive Step
  | placeholder (shown : Text)
  | reserve
  /-- Adds lines that are given one by one or as a list. -/
  | add (lines : List Text)
  | openSection (key : Text)
  | example (template : Text) (context : E.Context)
  | render

/-- What a step returns. -/
inductive Answer
  | nothing
  | slot (n : Int)
  | text (s : Text)
  | fault (e : E.Fault)

/-- Runs a step; the title of a section is its key in title case. -/
def run (d : Draft) : Step E → Answer E × Draft
  | .placeholder shown =>
    let (slot, d) := d.placeholder shown
    (.text slot, d)
  | .reserve =>
    let (slot, d) := d.reserve
    (.slot slot, d)
  | .add lines => (.nothing, d.add lines)
  | .openSection key => (.nothing, d.openSection key.titleCase)
  | .example template context =>
    let (module, d) := d.openExamples
    match E.render template (context.set "module" (E.ofText module)) with
    | .ok code => (.nothing, d.add code.lines)
    | .error e => (.fault e, d)
  | .render => (.text d.render, d)

/-- The draft behind some steps. -/
def runAll (d : Draft) (steps : List (Step E)) : Draft :=
  steps.foldl (fun d step => (d.run E step).2) d

end DocScaffold.Draft
