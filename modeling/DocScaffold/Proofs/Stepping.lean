import DocScaffold.Doc.Step
import DocScaffold.Host.Templates

/-!
# Drafts under steps

A draft only grows at its end, and its slots are consecutive, whether or not its examples can be rendered
and whatever engine renders them (`run_behind`).
-/

namespace DocScaffold.Draft

variable {E : Engine}

/-- Whether a step takes a slot. -/
def Step.takesSlot : Step E → Bool
  | .placeholder _ | .reserve | .example _ _ => true
  | .add _ | .openSection _ | .render => false

/-- What the engine makes of a template where the slot of the module is the one with number `n`. -/
def rendered (template : Text) (c : E.Context) (n : Int) : Except E.Fault Text :=
  E.render template (c.set "module" (E.ofText (slotText n "...")))

/-- What a step answers, and adds to a draft whose next slot is `n`. -/
inductive Effect (E : Engine) (d : Draft) (n : Int) : Step E → Answer E → List Text → Prop
  | placeholder (shown : Text) : Effect E d n (.placeholder shown)
    (.text ("$\x7b".toList ++ Text.ofInt n ++ ":".toList ++ shown ++ "\x7d".toList)) []
  | reserve : Effect E d n .reserve (.slot n) []
  | add (lines : List Text) : Effect E d n (.add lines) .nothing lines
  | openSection (key : Text) :
    Effect E d n (.openSection key) .nothing [[], "# ".toList ++ key.titleCase, []]
  | built {template code : Text} {c : E.Context} (h : rendered template c n = .ok code) :
    Effect E d n (.example template c) .nothing ([[], "# Examples", []] ++ code.lines)
  | failed {template : Text} {c : E.Context} {fault : E.Fault} (h : rendered template c n = .error fault) :
    Effect E d n (.example template c) (.fault fault) [[], "# Examples", []]
  | render : Effect E d n .render (.text d.render) []

variable {d : Draft}

theorem run_example (d : Draft) (template : Text) (c : E.Context) :
    d.run E (.example template c) =
      match rendered template c d.nextSlot with
      | .ok code => (.nothing, d.openExamples.2.add code.lines)
      | .error fault => (.fault fault, d.openExamples.2) := rfl

theorem nextSlot_run (d : Draft) (step : Step E) :
    (d.run E step).2.nextSlot = d.nextSlot + if step.takesSlot then 1 else 0 := by
  cases step with
  | placeholder | reserve => rfl
  | add | openSection | render => exact (Int.add_zero _).symm
  | «example» template c =>
    rw [run_example]
    cases rendered template c d.nextSlot <;> rfl

/-- A step adds lines at the end, and an example that cannot be rendered none but its heading. -/
theorem exists_effect (d : Draft) (step : Step E) :
    ∃ added, (d.run E step).2.lines = d.lines ++ added ∧
      Effect E d d.nextSlot step (d.run E step).1 added := by
  cases step with
  | placeholder shown => exact ⟨[], (List.append_nil _).symm, .placeholder shown⟩
  | reserve => exact ⟨[], (List.append_nil _).symm, .reserve⟩
  | add lines => exact ⟨lines, rfl, .add lines⟩
  | openSection key => exact ⟨_, rfl, .openSection key⟩
  | render => exact ⟨[], (List.append_nil _).symm, .render⟩
  | «example» template c =>
    rw [run_example]
    cases h : rendered template c d.nextSlot with
    | ok code => exact ⟨_, congrArg (d.headLine :: ·) (List.append_assoc _ _ _), .built h⟩
    | error fault => exact ⟨_, rfl, .failed h⟩

theorem nextSlot_runAll (d : Draft) (steps : List (Step E)) :
    (d.runAll E steps).nextSlot = d.nextSlot + steps.countP Step.takesSlot := by
  induction steps generalizing d with
  | nil => exact (Int.add_zero _).symm
  | cons step steps ih =>
    rw [runAll, List.foldl_cons, ← runAll, ih, nextSlot_run, List.countP_cons]
    split <;> omega

/-- Behind any steps, slots are handed out from the first one on, and the next step leaves the lines as
they are and adds its own. -/
theorem run_behind (E : Engine) (description : Text) (s : Int) (front : List (Step E)) (step : Step E) :
    let d := (new description s).runAll E front
    let n := s + front.countP Step.takesSlot
    d.nextSlot = n ∧ (d.run E .render).2 = d ∧
      ∃ added, (d.run E step).2.lines = d.lines ++ added ∧ Effect E d n step (d.run E step).1 added := by
  intro d n
  have hslot : d.nextSlot = n := nextSlot_runAll (new description s) front
  refine ⟨hslot, rfl, ?_⟩
  rw [← hslot]
  exact exists_effect d step

/-- A tuple with its fields, the same without them, and a template that there is not. -/
def pairStep : Step .ofProgram := .example "struct_example.j2".toList
  [("is_tuple".toList, .flag true), ("name".toList, .text "Pair".toList),
    ("fields".toList, .list [.text "a".toList, .text "b".toList])]

def bareStep : Step .ofProgram := .example "struct_example.j2".toList
  [("is_tuple".toList, .flag true), ("name".toList, .text "Pair".toList)]

def strangeStep : Step .ofProgram := .example "trait_example.j2".toList []

/-- The draft behind an example that is rendered and one that is not. -/
def pairDraft : Draft :=
  (new "A pair.".toList 7).runAll .ofProgram [.placeholder "a".toList, pairStep, bareStep]

theorem run_behind_pair :
    pairDraft.nextSlot = 10 ∧
      pairDraft.lines = [" $\x7b1:A pair.\x7d".toList, [], "# Examples".toList, [], "```".toList,
        "use crate::$\x7b8:...\x7d;".toList, [], "let s = Pair(value, value);".toList, "```".toList,
        [], "# Examples".toList, []] ∧
      (pairDraft.run .ofProgram strangeStep).1 = .fault .unknownTemplate ∧
      (pairDraft.run .ofProgram strangeStep).2.lines =
        pairDraft.lines ++ [[], "# Examples".toList, []] ∧
      (pairDraft.run .ofProgram (.placeholder "b".toList)).1 = .text "$\x7b10:b\x7d".toList := by
  have hbehind := run_behind .ofProgram "A pair.".toList 7 [.placeholder "a".toList, pairStep, bareStep]
  obtain ⟨hslot, -, added, hlines, hstrange⟩ := hbehind strangeStep
  obtain ⟨-, -, _, -, hplaceholder⟩ := hbehind (.placeholder "b".toList)
  change pairDraft.nextSlot = 10 at hslot
  change (pairDraft.run .ofProgram strangeStep).2.lines = pairDraft.lines ++ added at hlines
  change Effect _ pairDraft 10 strangeStep (pairDraft.run .ofProgram strangeStep).1 added at hstrange
  change Effect _ pairDraft 10 _ (pairDraft.run .ofProgram (.placeholder "b".toList)).1 _ at hplaceholder
  refine ⟨hslot, by decide +kernel, ?_⟩
  rw [hlines]
  generalize (pairDraft.run .ofProgram strangeStep).1 = answer at hstrange
  generalize (pairDraft.run .ofProgram (.placeholder "b".toList)).1 = shown at hplaceholder
  cases hplaceholder
  cases hstrange with
  | built h => cases h
  | failed h => exact ⟨congrArg _ (Except.error.inj h).symm, rfl, rfl⟩

end DocScaffold.Draft
