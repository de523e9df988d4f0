import DocScaffold.Json.Basic
import DocScaffold.Setup

/-!
# The application of the service

The handlers of the service work on requests that have been read. The declaration behind a cursor is
answered as it stands or with its template; what goes wrong on the way is answered with its message.
-/

namespace DocScaffold.Service

/-! ## Requests and replies -/

/-- The switches that a request sets; one that it leaves out has its usual position. -/
structure OptionsPayload where
  includeExamples : Bool := true
  examplesOnlyExposed : Bool := false
  safetyDetails : Bool := false
  gateStructExamples : Bool := false

def OptionsPayload.options (p : OptionsPayload) : Options where
  includeExamples := p.includeExamples
  examplesOnlyExposed := p.examplesOnlyExposed
  safetyDetails := p.safetyDetails
  gateStructExamples := p.gateStructExamples

structure SignatureRequest where
  lines : List Text
  cursorLine : Int

structure TemplateRequest where
  lines : List Text
  cursorLine : Int
  options : Option OptionsPayload := none

structure HealthReply where
  status : Text

structure SignatureReply where
  signature : Option Text := none

structure TemplateReply where
  status : Text
  template : Option Text := none
  /-- The name of the kind of item. -/
  kind : Option Text := none

/-! ### Replies as objects -/

def object (fields : List (String × Json)) : Json :=
  .object (fields.map fun (name, value) => (name.toList, value))

def textOrNull : Option Text → Json
  | some s => .string s
  | none => .null

def HealthReply.json (r : HealthReply) : Json := object [("status", .string r.status)]

def SignatureReply.json (r : SignatureReply) : Json := object [("signature", textOrNull r.signature)]

def TemplateReply.json (r : TemplateReply) : Json :=
  object [("status", .string r.status), ("template", textOrNull r.template), ("kind", textOrNull r.kind)]

/-! ## Handlers -/

/-- The declaration behind a cursor. -/
def find (lines : List Text) (cursorLine : Int) :
    Except Declaration.CursorError (Option Declaration) := do
  return (Declaration.search lines (← Declaration.cursorLine cursorLine)).declaration?

def health : HealthReply := { status := "ok".toList }

def signature (_ : Generator) (r : SignatureRequest) :
    Except Declaration.CursorError SignatureReply := do
  return { signature := (← find r.lines r.cursorLine).map (·.signature) }

def skipped : TemplateReply := { status := "skipped".toList }

/-- The reply with the template for a declaration. Its kind is told anew, from the declaration alone. -/
def templateOf (g : Generator) (o : Options) (d : Declaration) : TemplateReply :=
  match (g.document d.signature o).template? with
  | none => skipped
  | some text =>
    { status := "ok".toList, template := some text, kind := (Item.kindOf? d.signature).map (·.name) }

def template (g : Generator) (r : TemplateRequest) : Except Declaration.CursorError TemplateReply := do
  let options := (r.options.map OptionsPayload.options).getD {}
  match ← find r.lines r.cursorLine with
  | none => return skipped
  | some d => return templateOf g options d

/-! ## The application -/

structure Response where
  status : Nat
  body : Json

/-- The response to a request in which something goes wrong. -/
def refuse (message : Text) : Response := ⟨400, object [("detail", .string message)]⟩

inductive Route
  | health
  | signature
  | template
  deriving DecidableEq

namespace Route

def all : List Route := [health, signature, template]

def method : Route → Text
  | health => "GET".toList
  | signature | template => "POST".toList

def path : Route → Text
  | health => "/health".toList
  | signature => "/signature".toList
  | template => "/generate".toList

end Route

/-- What a web framework is given to serve. -/
structure App where
  /-- What comes of setting up a generator for a request. -/
  setUp : Except Generator.SetupError Generator
  health : HealthReply
  signature : Generator → SignatureRequest → Except Declaration.CursorError SignatureReply
  template : Generator → TemplateRequest → Except Declaration.CursorError TemplateReply
  refuse : Text → Response

/-- The application that sets up its generators in a given way. -/
def App.create (setUp : Except Generator.SetupError Generator) : App :=
  ⟨setUp, Service.health, Service.signature, Service.template, Service.refuse⟩

end DocScaffold.Service
