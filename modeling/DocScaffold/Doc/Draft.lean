import DocScaffold.Doc.Example
import DocScaffold.Text.Case

/-!
# Drafts of a template

A draft grows by lines at its end. A slot is a place in the template that an editor visits, in the
order of the numbers; slot 1 is the description.
-/

namespace DocScaffold

structure Draft where
  description : Text
  /-- The lines behind the description. -/
  body : List Text
  nextSlot : Int

namespace Draft

def new (description : Text) (firstSlot : Int) : Draft := ⟨description, [], firstSlot⟩

/-- A slot with its number and the text that it shows at first. -/
def slotText (slot : Int) (shown : Text) : Text :=
  "$\x7b".toList ++ Text.ofInt slot ++ ":".toList ++ shown ++ "\x7d".toList

/-- The first line follows a `///` that is already there. -/
def headLine (d : Draft) : Text := " ".toList ++ slotText 1 d.description

def lines (d : Draft) : List Text := d.headLine :: d.body

/-- Hands out the next slot. -/
def reserve (d : Draft) : Int × Draft := (d.nextSlot, { d with nextSlot := d.nextSlot + 1 })

/-- Hands out the next slot with the text that it shows. -/
def placeholder (d : Draft) (shown : Text) : Text × Draft :=
  let (slot, d) := d.reserve
  (slotText slot shown, d)

def add (d : Draft) (lines : List Text) : Draft := { d with body := d.body ++ lines }

/-- The heading of a section between blank lines. -/
def heading (title : Text) : List Text := [[], "# ".toList ++ title, []]

def openSection (d : Draft) (title : Text) : Draft := d.add (heading title)

/-- A bullet that ends in a new slot. -/
def bullet (d : Draft) (label shown : Text) : Draft :=
  let (slot, d) := d.placeholder shown
  d.add ["- ".toList ++ label ++ " - ".toList ++ slot]

/-- Opens the examples; the slot of the module comes behind all slots before it. -/
def openExamples (d : Draft) : Text × Draft := (d.openSection "Examples").placeholder "..."

def addExample (d : Draft) (e : Example) : Draft :=
  let (module, d) := d.openExamples
  d.add (e.lines module)

/-- The template: every line but the first gets its own `///`. -/
def render (d : Draft) : Text :=
  List.intercalate ['\n'] (d.headLine :: d.body.map ("/// ".toList ++ ·))

end Draft

end DocScaffold
