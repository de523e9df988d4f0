import DocScaffold.Proofs.Heads
import DocScaffold.Proofs.Slots

/-!
# What a switch changes

The switches for examples decide whether the examples stand at the end of a template, and the one for
safety whether the obligations of a caller stand behind their heading. All other lines stay as they
are, with their slots (`switches_show`).
-/

namespace DocScaffold

open Text

namespace Draft

/-! ## Lines at the end of a draft -/

/-- Lines of a template behind another line. -/
def commented (lines : List Text) : Text :=
  lines.flatMap fun line => '\n' :: ("/// ".toList ++ line)

theorem slots_commented (a : Text) (ls : List Text) :
    slots (a ++ commented ls) = slots a ++ ls.flatMap slots := by
  induction ls generalizing a with
  | nil => rw [commented, List.flatMap_nil, List.append_nil, List.flatMap_nil, List.append_nil]
  | cons l ls ih =>
    have hsplit : a ++ commented (l :: ls) = (a ++ '\n' :: ("/// ".toList ++ l)) ++ commented ls := by
      rw [commented, List.flatMap_cons, List.append_assoc]
      rfl
    rw [hsplit, ih, slots_break (by decide), slots_append_of_plain (by decide), List.flatMap_cons,
      List.append_assoc]

theorem add_nil (d : Draft) : d.add [] = d := by rw [add, List.append_nil]

theorem add_add (d : Draft) (ls ms : List Text) : (d.add ls).add ms = d.add (ls ++ ms) := by
  rw [add, add, add, List.append_assoc]

/-- A step puts lines at the end of a draft that do not depend on those in front. -/
def Appends (step : Draft → Draft) : Prop :=
  ∀ description slot, ∃ lines slot', ∀ body,
    step ⟨description, body, slot⟩ = ⟨description, body ++ lines, slot'⟩

theorem Appends.comp {f g : Draft → Draft} (hf : Appends f) (hg : Appends g) :
    Appends fun d => g (f d) := by
  intro description slot
  obtain ⟨ls, slot', hf⟩ := hf description slot
  obtain ⟨ms, slot'', hg⟩ := hg description slot'
  refine ⟨ls ++ ms, slot'', fun body => ?_⟩
  dsimp only
  rw [hf, hg, List.append_assoc]

theorem appends_none : Appends fun d => d :=
  fun _ slot => ⟨[], slot, fun body => by rw [List.append_nil]⟩

theorem appends_add (lines : List Text) : Appends fun d => d.add lines :=
  fun _ slot => ⟨lines, slot, fun _ => rfl⟩

theorem appends_placeholder (shown : Text) (lines : Text → List Text) :
    Appends fun d => (d.placeholder shown).2.add (lines (d.placeholder shown).1) :=
  fun _ slot => ⟨lines (slotText slot shown), slot + 1, fun _ => rfl⟩

theorem Appends.ite {f : Draft → Draft} (hf : Appends f) (isTaken : Bool) :
    Appends fun d => if isTaken then f d else d := by
  cases isTaken with
  | false => exact appends_none
  | true => exact hf

theorem appends_finish (e : Option Example) : Appends fun d => d.finish e := by
  cases e with
  | none => exact appends_none
  | some e => exact (appends_add (heading "Examples")).comp (appends_placeholder "..." e.lines)

/-- The lines of a step stand behind those that are added before it. -/
theorem Appends.exists_render {step : Draft → Draft} (h : Appends step) (d : Draft) :
    ∃ ms, ∀ ls, (step (d.add ls)).render = d.render ++ commented (ls ++ ms) := by
  obtain ⟨ms, slot, hstep⟩ := h d.description d.nextSlot
  refine ⟨ms, fun ls => ?_⟩
  have hadded : step (d.add ls) = ⟨d.description, d.body ++ ls ++ ms, slot⟩ := hstep (d.body ++ ls)
  have hrender : (step (d.add ls)).render = (d.add (ls ++ ms)).render := by
    rw [hadded, List.append_assoc]
    rfl
  rw [hrender, render_add]
  rfl

end Draft

/-! ## The parts of a template -/

namespace Item

theorem Function.sections_congr {o o' : Options} (h : o.safetyDetails = o'.safetyDetails)
    (f : Function) : f.sections o = f.sections o' := by
  simp only [sections, addSafety, h]

/-- The subheading of an unsafe function, with its slot. -/
def Function.addUnsafe (f : Function) (d : Draft) : Draft :=
  if f.modifiers.isUnsafe then
    let (slot, d) := d.placeholder "Describe unsafe behavior."
    d.add [unsafeHeading, "  - ".toList ++ slot]
  else d

theorem Function.addSafety_eq {f : Function}
    (h : (f.modifiers.isUnsafe || f.modifiers.isForeign) = true) (o : Options) (d : Draft) :
    f.addSafety o d = f.addUnsafe (d.add (Draft.heading "Safety" ++
      if o.safetyDetails then obligations else [])) := by
  rw [addSafety, if_pos h, ← Draft.add_add]
  cases o.safetyDetails with
  | false => exact congrArg f.addUnsafe (Draft.add_nil _).symm
  | true => rfl

theorem Function.appends_addUnsafe (f : Function) : Draft.Appends f.addUnsafe :=
  (Draft.appends_placeholder "Describe unsafe behavior." fun slot =>
    [unsafeHeading, "  - ".toList ++ slot]).ite f.modifiers.isUnsafe

theorem Function.appends_addErrors (f : Function) : Draft.Appends f.addErrors :=
  ((Draft.appends_add (Draft.heading "Errors")).comp
    (Draft.appends_placeholder "Describe possible errors." fun slot => [slot])).ite f.isFallible

/-- Behind the heading for safety, an unsafe or foreign function shows the obligations if asked to, and
the same lines behind them. -/
theorem Function.exists_render {f : Function}
    (h : (f.modifiers.isUnsafe || f.modifiers.isForeign) = true) (o : Options) :
    ∃ lines, ∀ isShown, (f.draft { o with safetyDetails := isShown }).render =
      (f.addReturns (f.addParameters (.new "Describe this function." 2))).render ++
        Draft.commented (Draft.heading "Safety" ++ ((if isShown then obligations else []) ++ lines)) := by
  have happends := (f.appends_addUnsafe.comp f.appends_addErrors).comp
    (Draft.appends_finish (if o.admitsExample f.isExposed then some f.usage else none))
  obtain ⟨lines, hrender⟩ :=
    happends.exists_render (f.addReturns (f.addParameters (.new "Describe this function." 2)))
  refine ⟨lines, fun isShown => ?_⟩
  rw [f.draft_eq, sections, addSafety_eq h, ← List.append_assoc, ← hrender]
  rfl

/-- What a template is made of: all in front of the example, the example, and whether it is shown. -/
structure Parts where
  sections : Draft
  usage : Example
  isShown : Bool

def Parts.text (p : Parts) : Text :=
  (p.sections.finish (if p.isShown then some p.usage else none)).render

/-- The parts of the template of a declaration, read as an item of the given kind. -/
def parts? (kind : Kind) (s : Text) (o : Options) : Option Parts :=
  match kind with
  | .function => (Function.parse? s).map fun f => ⟨f.sections o, f.usage, o.admitsExample f.isExposed⟩
  | .struct => (Struct.parse? s).map fun t =>
    ⟨t.addFields (.new "Describe this struct." 2), t.usage,
      !o.gateStructExamples || o.admitsExample t.isExposed⟩
  | .enum => (Enum.parse? s).map fun e =>
    ⟨e.addVariants (.new "Describe this enum." 2), e.usage, o.admitsExample e.isExposed⟩

theorem template?_eq (kind : Kind) (s : Text) (o : Options) :
    template? kind s o = (parts? kind s o).map Parts.text := by
  cases kind with
  | function =>
    rw [template?, parts?, Option.map_map]
    exact congrArg (Option.map · _) (funext fun f => congrArg Draft.render (f.draft_eq o))
  | struct =>
    rw [template?, parts?, Option.map_map]
    exact congrArg (Option.map · _) (funext fun t => congrArg Draft.render (t.draft_eq o))
  | enum =>
    rw [template?, parts?, Option.map_map]
    exact congrArg (Option.map · _) (funext fun e => congrArg Draft.render (e.draft_eq o))

/-- The switches for examples decide only whether the example is shown. -/
theorem parts?_switched {o o' : Options} (h : o.safetyDetails = o'.safetyDetails) {kind : Kind}
    {s : Text} {p : Parts} (hp : parts? kind s o = some p) :
    ∃ isShown, parts? kind s o' = some { p with isShown := isShown } := by
  cases kind with
  | function =>
    obtain ⟨f, hf, rfl⟩ := Option.map_eq_some_iff.1 hp
    exact ⟨o'.admitsExample f.isExposed, by rw [parts?, hf, f.sections_congr h]; rfl⟩
  | struct =>
    obtain ⟨t, ht, rfl⟩ := Option.map_eq_some_iff.1 hp
    exact ⟨!o'.gateStructExamples || o'.admitsExample t.isExposed, by rw [parts?, ht]; rfl⟩
  | enum =>
    obtain ⟨e, he, rfl⟩ := Option.map_eq_some_iff.1 hp
    exact ⟨o'.admitsExample e.isExposed, by rw [parts?, he]; rfl⟩

end Item

namespace Generator

variable {g : Generator} {s : Text} {o o' : Options}

/-- The second template is the first with the example of the declaration behind it, whose slot comes
behind all others. -/
def AddsExample (s : Text) (o : Options) (short long : Outcome) : Prop :=
  ∃ kind p, Item.parts? kind s o = some p ∧ ∃ text text', short = .template kind text ∧
    long = .template kind text' ∧ text' = text ++ Draft.commented
      (Draft.heading "Examples" ++ p.usage.lines (Draft.slotText p.sections.nextSlot "...")) ∧
    slots text <+: slots text'

/-- The second template is the first with the obligations of a caller behind the heading for safety,
which follows the parameters and the return value of the function. -/
def AddsObligations (f : Item.Function) (short long : Outcome) : Prop :=
  ∃ front lines text text', short = .template .function text ∧ long = .template .function text' ∧
    front = f.addReturns (f.addParameters (.new "Describe this function." 2)) ∧
    text = front.render ++ Draft.commented (Draft.heading "Safety" ++ lines) ∧
    text' = front.render ++ Draft.commented
      (Draft.heading "Safety" ++ (Item.Function.obligations ++ lines)) ∧ slots text = slots text'

/-- Whether a text is documented as an unsafe or foreign function. -/
def Warns (g : Generator) (s : Text) (f : Item.Function) : Prop :=
  Item.Class.of s = .documented .function ∧ g.kinds.contains .function = true ∧
    Item.Function.parse? s = some f ∧ (f.modifiers.isUnsafe || f.modifiers.isForeign) = true

theorem addsExample_of_parts {kind : Item.Kind} {p : Item.Parts} (hp : Item.parts? kind s o = some p) :
    AddsExample s o (.template kind p.sections.render)
      (.template kind (p.sections.addExample p.usage).render) := by
  have hlong := p.sections.render_addExample_eq p.usage
  rw [Draft.render_add] at hlong
  refine ⟨kind, p, hp, _, _, rfl, rfl, hlong, ?_⟩
  rw [hlong]
  exact ⟨_, (Draft.slots_commented _ _).symm⟩

theorem document_switched (h : o.safetyDetails = o'.safetyDetails) :
    g.document s o = g.document s o' ∨ AddsExample s o (g.document s o) (g.document s o') ∨
      AddsExample s o (g.document s o') (g.document s o) := by
  rw [document, document]
  cases Item.Class.of s with
  | unsupported keyword => exact .inl rfl
  | documented kind =>
    dsimp only
    cases g.kinds.contains kind with
    | false => exact .inl rfl
    | true =>
      rw [if_pos rfl, if_pos rfl, Item.template?_eq, Item.template?_eq]
      cases hp : Item.parts? kind s o with
      | none =>
        cases hp' : Item.parts? kind s o' with
        | none => exact .inl rfl
        | some p' =>
          obtain ⟨isShown, hsome⟩ := Item.parts?_switched h.symm hp'
          simp [hp] at hsome
      | some p =>
        obtain ⟨isShown, hp'⟩ := Item.parts?_switched h hp
        have hadds := addsExample_of_parts hp
        rw [hp']
        obtain ⟨sections, usage, wasShown⟩ := p
        cases wasShown <;> cases isShown
        · exact .inl rfl
        · exact .inr (.inl hadds)
        · exact .inr (.inr hadds)
        · exact .inl rfl

theorem addsObligations_of_warns {f : Item.Function} (h : g.Warns s f) (o : Options) :
    AddsObligations f (g.document s { o with safetyDetails := false })
      (g.document s { o with safetyDetails := true }) := by
  obtain ⟨hclass, hkind, hparse, hwarns⟩ := h
  obtain ⟨lines, hrender⟩ := Item.Function.exists_render hwarns o
  have hobligations : Item.Function.obligations.flatMap slots = [] := by
    unfold Item.Function.obligations
    repeat rw [String.toList_ofList]
    decide +kernel
  have hslots : ∀ isShown, slots (f.draft { o with safetyDetails := isShown }).render =
      slots (f.addReturns (f.addParameters (.new "Describe this function." 2))).render ++
        (Draft.heading "Safety" ++ lines).flatMap slots := by
    intro isShown
    rw [hrender, Draft.slots_commented, List.flatMap_append, List.flatMap_append, List.flatMap_append]
    cases isShown with
    | false => rfl
    | true => rw [if_pos rfl, hobligations, List.nil_append]
  refine ⟨_, lines, _, _, ?_, ?_, rfl, hrender false, hrender true, (hslots false).trans (hslots true).symm⟩
  · rw [document_of_function hclass hparse, if_pos hkind]
  · rw [document_of_function hclass hparse, if_pos hkind]

theorem document_of_not_warns (h : ∀ f, ¬ g.Warns s f) (o : Options) :
    g.document s { o with safetyDetails := false } =
      g.document s { o with safetyDetails := true } := by
  rw [document, document]
  cases hclass : Item.Class.of s with
  | unsupported keyword => rfl
  | documented kind =>
    dsimp only
    cases hkind : g.kinds.contains kind with
    | false => rfl
    | true =>
      have hsame : Item.template? kind s { o with safetyDetails := false } =
          Item.template? kind s { o with safetyDetails := true } := by
        cases kind with
        | struct => rfl
        | enum => rfl
        | function =>
          rw [Item.template?, Item.template?]
          cases hparse : Item.Function.parse? s with
          | none => rfl
          | some f =>
            have hsafe : ¬ (f.modifiers.isUnsafe || f.modifiers.isForeign) = true :=
              fun hwarns => h f ⟨hclass, hkind, hparse, hwarns⟩
            have hsafety : ∀ isShown d,
                f.addSafety { o with safetyDetails := isShown } d = d := by
              intro isShown d
              rw [Item.Function.addSafety, if_neg hsafe]
            rw [Option.map_some, Option.map_some, f.draft_eq, f.draft_eq, Item.Function.sections,
              Item.Function.sections, hsafety, hsafety]
            rfl
      rw [hsame]

/-- Two templates of one declaration that agree on the details about safety are the same, or one is the
other with the example behind it. With and without these details the template of an unsafe or foreign
function differs by the obligations, and every other is the same. -/
theorem switches_show (g : Generator) (s : Text) (o o' : Options) :
    (o.safetyDetails = o'.safetyDetails → g.document s o = g.document s o' ∨
      AddsExample s o (g.document s o) (g.document s o') ∨
        AddsExample s o (g.document s o') (g.document s o)) ∧
    (∀ f, g.Warns s f → AddsObligations f (g.document s { o with safetyDetails := false })
      (g.document s { o with safetyDetails := true })) ∧
    ((∀ f, ¬ g.Warns s f) → g.document s { o with safetyDetails := false } =
      g.document s { o with safetyDetails := true }) :=
  ⟨document_switched, fun _ hwarns => addsObligations_of_warns hwarns o,
    fun hnone => document_of_not_warns hnone o⟩

def brief : Options := { includeExamples := false }

/-- The longer template is not the one that lacks the example. -/
theorem not_addsExample_of_lt {s text text' : Text} {o : Options} {short long : Outcome}
    (hshort : short.template? = some text) (hlong : long.template? = some text')
    (hlt : text'.length < text.length) : ¬ AddsExample s o short long := by
  rintro ⟨kind, p, -, t, t', rfl, rfl, happend, -⟩
  obtain rfl := Option.some.inj hshort
  obtain rfl := Option.some.inj hlong
  rw [happend, List.length_append] at hlt
  omega

theorem switches_show_fetch :
    AddsExample fetchSignature {} (full.document fetchSignature brief) (full.document fetchSignature {}) ∧
      ∃ f, full.Warns fetchSignature f ∧
        AddsObligations f (full.document fetchSignature { safetyDetails := false })
          (full.document fetchSignature { safetyDetails := true }) := by
  obtain ⟨hexample, hobligations, -⟩ := switches_show full fetchSignature {} brief
  have hclass : Item.Class.of fetchSignature = .documented .function := by decide +kernel
  have hparse : ((Item.Function.parse? fetchSignature).any fun f =>
      f.modifiers.isUnsafe || f.modifiers.isForeign) = true := by decide +kernel
  obtain ⟨f, hf, hwarns⟩ := (Option.any_eq_true ..).1 hparse
  refine ⟨?_, f, ⟨hclass, rfl, hf, hwarns⟩, hobligations f ⟨hclass, rfl, hf, hwarns⟩⟩
  have hlengths : ((full.document fetchSignature {}).template?.any fun text =>
      (full.document fetchSignature brief).template?.any fun text' => text'.length < text.length) =
        true := by decide +kernel
  obtain ⟨text, htext, hshorter⟩ := (Option.any_eq_true ..).1 hlengths
  obtain ⟨text', htext', hlt⟩ := (Option.any_eq_true ..).1 hshorter
  have hlt : text'.length < text.length := of_decide_eq_true hlt
  rcases hexample rfl with hsame | hshort | hlong
  · rw [hsame, htext'] at htext
    obtain rfl := Option.some.inj htext
    exact absurd hlt (Nat.lt_irrefl _)
  · exact absurd hshort (not_addsExample_of_lt htext htext' hlt)
  · exact hlong

end Generator

end DocScaffold
