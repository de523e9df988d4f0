import DocScaffold.Proofs.JsonText
import DocScaffold.Service.Framework
import DocScaffold.Settings.Switch

/-!
# Requests for a template

A request is written as the object that carries its lines, its cursor and its options (`carries_request`).
What the service responds to it says what becomes of the declaration behind the cursor (`tells_template`).
-/

namespace DocScaffold.Service

open Text

/-! ## Bodies -/

/-- The payload that sets options. -/
def OptionsPayload.ofOptions (o : Options) : OptionsPayload :=
  ⟨o.includeExamples, o.examplesOnlyExposed, o.safetyDetails, o.gateStructExamples⟩

/-- A request for a template with options. -/
def TemplateRequest.ofOptions (lines : List Text) (line : Int) (o : Options) : TemplateRequest :=
  ⟨lines, line, some (.ofOptions o)⟩

/-- The switches of options as fields of an object. -/
def switchFields (o : Options) : List (Text × Json) :=
  Switch.all.map fun s => (s.key, .bool (s.get o))

def requestFields (lines : List Text) (line : Int) (o : Options) : List (Text × Json) :=
  [("lines".toList, .array (lines.map .string)), ("cursor_line".toList, .integer line),
    ("options".toList, .object (switchFields o))]

/-- The bytes of a request for a template. -/
def requestBytes (lines : List Text) (line : Int) (o : Options) : List UInt8 :=
  Utf8.encode (Json.object (requestFields lines line o)).text

theorem carries_request (lines : List Text) (line : Int) (o : Options) :
    Carries (requestFields lines line o) (.ofOptions lines line o) where
  lines := rfl
  cursor_line := rfl
  options := ⟨switchFields o, rfl, rfl, rfl, rfl, rfl⟩

theorem exact_lines (lines : List Text) :
    Json.Exact (Json.nestingLimit - 1) (.array (lines.map .string)) := by
  refine .array fun item hitem => ?_
  obtain ⟨l, -, rfl⟩ := List.mem_map.1 hitem
  exact .string l

theorem exact_request (lines : List Text) {line : Int}
    (h : (ofNat line.natAbs).length ≤ digitLimit) (o : Options) :
    Json.Exact Json.nestingLimit (.object (requestFields lines line o)) := by
  refine .object fun m hm => ?_
  simp only [requestFields, List.mem_cons, List.not_mem_nil, or_false] at hm
  rcases hm with rfl | rfl | rfl
  · exact exact_lines lines
  · exact .integer h
  · refine .object fun m hm => ?_
    obtain ⟨s, -, rfl⟩ := List.mem_map.1 hm
    exact .bool _

/-- The bytes of a request hold its fields. -/
theorem readBytes_request (lines : List Text) {line : Int}
    (h : (ofNat line.natAbs).length ≤ digitLimit) (o : Options) :
    Json.readBytes (requestBytes lines line o) = .ok (.object (requestFields lines line o)) :=
  Json.readBytes_text (exact_request lines h o)

/-- A request is not read when the line of its cursor has too many digits. -/
theorem readBytes_request_of_long (lines : List Text) {line : Int}
    (h : digitLimit < (ofNat line.natAbs).length) (o : Options) :
    Json.readBytes (requestBytes lines line o) = .error .tooManyDigits := by
  have hlines : ∀ m ∈ [("lines".toList, Json.array (lines.map .string))],
      Json.Exact (Json.nestingLimit - 1) m.2 := by
    intro m hm
    rw [List.mem_singleton.1 hm]
    exact exact_lines lines
  exact (Json.readBytes_object _).trans (Json.read_of_long hlines h)

/-! ## Responses -/

/-- Whether a response says what becomes of the declaration behind a cursor: a template with the kind of
its item, nothing, or that the cursor is in front of the first line. -/
def Response.Tells (r : Response) :
    Except Declaration.CursorError (Option (Item.Kind × Text)) → Prop
  | .ok (some (kind, text)) => r.status = 200 ∧ r.body = object
      [("status", .string "ok".toList), ("template", .string text), ("kind", .string kind.name)]
  | .ok none => r.status = 200 ∧ r.body = object
      [("status", .string "skipped".toList), ("template", .null), ("kind", .null)]
  | .error e => r.status = 400 ∧ r.body = object [("detail", .string e.message)]

/-- The reply that says what has been found. -/
def TemplateReply.ofFound : Option (Item.Kind × Text) → TemplateReply
  | none => skipped
  | some (kind, text) => { status := "ok".toList, template := some text, kind := some kind.name }

/-- A template comes with the kind of its item. -/
theorem found?_cases (g : Generator) (s : Text) (o : Options) :
    (g.document s o).found? = none ∧ (g.document s o).template? = none ∨
      ∃ kind text, (g.document s o).found? = some (kind, text) ∧
        (g.document s o).template? = some text ∧ Item.kindOf? s = some kind := by
  rw [Generator.document, Item.kindOf?]
  cases Item.Class.of s with
  | unsupported => exact .inl ⟨rfl, rfl⟩
  | documented kind =>
    dsimp only
    split
    · cases Item.template? kind s o with
      | none => exact .inl ⟨rfl, rfl⟩
      | some text => exact .inr ⟨kind, text, rfl, rfl, rfl⟩
    · exact .inl ⟨rfl, rfl⟩

theorem templateOf_eq (g : Generator) (o : Options) (d : Declaration) :
    templateOf g o d = .ofFound (g.document d.signature o).found? := by
  rw [templateOf]
  rcases found?_cases g d.signature o with ⟨hfound, htemplate⟩ | ⟨kind, text, hfound, htemplate, hkind⟩
  · rw [hfound, htemplate]
    rfl
  · rw [hfound, htemplate, hkind]
    rfl

/-- The reply to a request for a template says what the generator makes of the lines. -/
theorem template_eq (g : Generator) (lines : List Text) (line : Int) (o : Options) :
    template g (.ofOptions lines line o) = (g.templateBehind lines line o).map .ofFound := by
  simp only [template, find, Generator.templateBehind, TemplateRequest.ofOptions, bind, Except.bind, pure,
    Except.pure, Except.map]
  cases Declaration.cursorLine line with
  | error e => rfl
  | ok cursor =>
    dsimp only
    rw [Generator.documentBehind]
    cases (Declaration.search lines cursor).declaration? with
    | none => rfl
    | some d => exact congrArg Except.ok (templateOf_eq g o d)

/-- The response to a request for a template says what becomes of the declaration behind its cursor. -/
theorem tells_template (setUp : Except Generator.SetupError Generator) (g : Generator)
    (lines : List Text) (line : Int) (o : Options) :
    ((App.create setUp).respond (((App.create setUp).template g (.ofOptions lines line o)).map
      TemplateReply.json)).Tells (g.templateBehind lines line o) := by
  change ((App.create setUp).respond
    ((template g (.ofOptions lines line o)).map TemplateReply.json)).Tells _
  rw [template_eq]
  cases g.templateBehind lines line o with
  | error e => exact ⟨rfl, rfl⟩
  | ok found => cases found <;> exact ⟨rfl, rfl⟩

end DocScaffold.Service
