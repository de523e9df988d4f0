import DocScaffold.Host.Web.Payload
import DocScaffold.Service.Framework

/-!
# A web framework

The framework that the program is run with. A request is read in three steps, each of which can end it:
its body has to be JSON, a generator has to be set up, and what the body carries has to be right. Of what is
wrong with a body, its kind and its place are told. A client follows a redirection from a path with slashes
at its end, so that these do not count.
-/

namespace DocScaffold.Service

/-- The paths of the pages that describe the service. They can be read and nothing else. -/
def pages : List Text := ["/docs".toList, "/docs/oauth2-redirect".toList, "/openapi.json".toList,
  "/redoc".toList]

/-- Puts characters for the codes behind percent signs. -/
def withoutPercents : Text → Text
  | [] => []
  | '%' :: a :: b :: rest =>
    match Json.hexValue? a, Json.hexValue? b with
    | some a, some b => Char.ofNat (a * 16 + b) :: withoutPercents rest
    | _, _ => '%' :: withoutPercents (a :: b :: rest)
  | c :: rest => c :: withoutPercents rest

namespace Request

/-- The path that a request is for. Query and fragment name no other path, and slashes at the end are
dropped. -/
def path (r : Request) : Text :=
  let (target, _) := Text.cutAt '#' r.target
  let (path, _) := Text.cutAt '?' target
  ((withoutPercents path).reverse.dropWhile (· == '/')).reverse

/-- The method in capital letters. -/
def verb (r : Request) : Text := r.method.map Char.toUpper

end Request

/-! ## Responses of the framework -/

def detail (status : Nat) (value : Json) : Response := ⟨status, object [("detail", value)]⟩

def notFound : Response := detail 404 (.string "Not Found".toList)

def methodNotAllowed : Response := detail 405 (.string "Method Not Allowed".toList)

def stepJson : Step → Json
  | .member name => .string name
  | .item index => .integer index

def problemJson (p : Problem) : Json :=
  object [("type", .string p.complaint.name), ("loc", .array (p.place.map stepJson))]

def invalid (problems : List Problem) : Response := detail 422 (.array (problems.map problemJson))

/-- The problem of a whole body. -/
def invalidBody (c : Complaint) : Response := invalid [⟨c, body⟩]

/-! ## Serving -/

/-- Goes on with the generator that has been set up. -/
def withGenerator (a : App) (f : Generator → Response) : Except Generator.SetupError Response :=
  match a.setUp with
  | .error e => if e.isTold then .ok (a.refuse e.message) else .error e
  | .ok g => .ok (f g)

/-- Hands a request that has been checked to a handler. -/
def handle {α : Type} (a : App) (checked : Checked α) (handler : α → Except Declaration.CursorError Json) :
    Response :=
  match checked with
  | .error problems => invalid problems
  | .ok r => a.respond (handler r)

/-- Goes on with the value of a body, which may be missing. -/
def withBody (a : App) (bytes : List UInt8) (f : Generator → Json → Response) :
    Except Generator.SetupError Response :=
  if bytes.isEmpty then withGenerator a fun _ => invalidBody .missing
  else match Json.readBytes bytes with
    | .error .malformed => .ok (invalidBody .jsonInvalid)
    | .error _ => .ok (detail 400 (.string "There was an error parsing the body".toList))
    | .ok value => withGenerator a fun g => f g value

def serve (a : App) (r : Request) : Except Generator.SetupError Response :=
  match Route.all.find? fun route => route.path == r.path with
  | none =>
    if !pages.contains r.path then .ok notFound
    else if r.verb = "GET".toList || r.verb = "HEAD".toList then .ok ⟨200, .null⟩
    else .ok methodNotAllowed
  | some route =>
    if r.verb ≠ route.method then .ok methodNotAllowed
    else match route with
      | .health => .ok ⟨200, a.health.json⟩
      | .signature => withBody a r.body fun g value =>
        handle a (signatureRequest value) fun r => (a.signature g r).map SignatureReply.json
      | .template => withBody a r.body fun g value =>
        handle a (templateRequest value) fun r => (a.template g r).map TemplateReply.json

/-- The framework of the program. -/
def Framework.ofProgram : Framework := ⟨serve⟩

end DocScaffold.Service
