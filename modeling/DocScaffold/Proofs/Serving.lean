import DocScaffold.Host.Web.Serving

/-!
# What the framework of the program serves

The framework reads off a body what it carries, and hands it to the handler
(`Framework.servesTemplates_ofProgram`).
-/

namespace DocScaffold.Service

theorem checkItems_strings (place : List Step) (index : Nat) (lines : List Text) :
    checkItems place index (lines.map .string) = .ok lines := by
  induction lines generalizing index with
  | nil => rfl
  | cons l lines ih =>
    rw [List.map_cons, checkItems, ih]
    rfl

theorem checkTruth_eq {place : List Step} {name : String} {usual b : Bool} {fields : Members}
    (h : fieldOr name usual fields = .bool b) : checkTruth place name usual fields = .ok b := by
  rw [fieldOr] at h
  rw [checkTruth]
  cases hfield : Json.member? name.toList fields with
  | none =>
    rw [hfield] at h
    exact congrArg Except.ok (Json.bool.inj h)
  | some value =>
    rw [hfield] at h
    obtain rfl : value = .bool b := h
    rfl

/-- A body is read as the request that it carries. -/
theorem templateRequest_of_carries {fields : Members} {r : TemplateRequest} (h : Carries fields r) :
    templateRequest (.object fields) = .ok r := by
  obtain ⟨lines, line, options⟩ := r
  have hlines : required checkTexts "lines".toList fields = .ok lines := by
    rw [required, h.lines]
    exact checkItems_strings _ 0 lines
  have hline : required checkInteger "cursor_line".toList fields = .ok line := by
    rw [required, h.cursor_line]
    rfl
  have hoptions : checkOptions fields = .ok options := by
    have hfields := h.options
    rw [checkOptions]
    cases options with
    | none => rcases hfields with hnone | hnull <;> simp only [*]
    | some p =>
      obtain ⟨switches, hobject, hswitches⟩ := hfields
      have hchecked : checkSwitches (body ++ [.member "options".toList]) switches = .ok p := by
        simp only [checkSwitches, checkTruth_eq hswitches.includeExamples,
          checkTruth_eq hswitches.examplesOnlyExposed, checkTruth_eq hswitches.safetyDetails,
          checkTruth_eq hswitches.gateStructExamples]
        rfl
      simp only [hobject, checkObject, bind, Except.bind, hchecked]
      rfl
  change ((checkCursor fields).and (checkOptions fields)).map _ = _
  rw [checkCursor, hlines, hline, hoptions]
  rfl

theorem Framework.servesTemplates_ofProgram : Framework.ofProgram.ServesTemplates := by
  intro a g bytes fields r hgenerator hbytes hfields
  have hbody : bytes.isEmpty = false := by
    cases bytes with
    | nil =>
      have hnothing : Json.readBytes [] = .error .malformed := rfl
      exact absurd (hnothing.symm.trans hbytes) (by simp)
    | cons => rfl
  change withBody a bytes _ = _
  rw [withBody, hbody, if_neg (by decide), hbytes]
  dsimp only
  rw [templateRequest_of_carries hfields, withGenerator, hgenerator]
  rfl

end DocScaffold.Service
