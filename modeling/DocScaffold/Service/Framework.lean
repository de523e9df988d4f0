import DocScaffold.Json.Encoding
import DocScaffold.Service.App

/-!
# Web frameworks

A framework stands between the bytes of requests and the handlers of an application. Which one it is
stands open; what the service relies on is that it hands over what a body carries
(`Framework.ServesTemplates`).
-/

namespace DocScaffold.Service

/-- A request as it is sent. -/
structure Request where
  method : Text
  target : Text
  body : List UInt8

/-- A request to a route. -/
def Request.to (route : Route) (body : List UInt8) : Request := ⟨route.method, route.path, body⟩

structure Framework where
  /-- A fault of the setup that is not told ends the service. -/
  respond : App → Request → Except Generator.SetupError Response

/-- The truth value of a field that may be left out. -/
def fieldOr (name : String) (usual : Bool) (fields : List (Text × Json)) : Json :=
  (Json.member? name.toList fields).getD (.bool usual)

/-- Whether the fields of an object are those of options; a field that is left out has its usual value. -/
structure CarriesOptions (fields : List (Text × Json)) (p : OptionsPayload) : Prop where
  includeExamples : fieldOr "include_examples" true fields = .bool p.includeExamples
  examplesOnlyExposed :
    fieldOr "examples_only_for_public_or_extern" false fields = .bool p.examplesOnlyExposed
  safetyDetails : fieldOr "include_safety_details" false fields = .bool p.safetyDetails
  gateStructExamples : fieldOr "gate_struct_examples" false fields = .bool p.gateStructExamples

/-- Whether the fields of an object are those of a request for a template, whatever other fields there
are. -/
structure Carries (fields : List (Text × Json)) (r : TemplateRequest) : Prop where
  lines : Json.member? "lines".toList fields = some (.array (r.lines.map .string))
  cursor_line : Json.member? "cursor_line".toList fields = some (.integer r.cursorLine)
  options : match r.options with
    | none => Json.member? "options".toList fields = none ∨
        Json.member? "options".toList fields = some .null
    | some p => ∃ switches, Json.member? "options".toList fields = some (.object switches) ∧
        CarriesOptions switches p

/-- The response to what a handler returns: its reply, or what the application makes of a fault. -/
def App.respond (a : App) : Except Declaration.CursorError Json → Response
  | .ok reply => ⟨200, reply⟩
  | .error e => a.refuse e.message

/-- Whether a framework hands each request for a template that a body carries to the handler, with a
generator that has been set up, and responds with what the handler returns. -/
def Framework.ServesTemplates (w : Framework) : Prop :=
  ∀ (a : App) (g : Generator) (bytes : List UInt8) (fields : List (Text × Json)) (r : TemplateRequest),
    a.setUp = .ok g → Json.readBytes bytes = .ok (.object fields) → Carries fields r →
      w.respond a (.to .template bytes) = .ok (a.respond ((a.template g r).map TemplateReply.json))

end DocScaffold.Service
