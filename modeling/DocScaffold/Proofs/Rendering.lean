import DocScaffold.Proofs.Stepping

/-!
# Rendering examples

The examples of functions, structs and enums are what their templates give for them
(`Draft.run_usage`). Which template fails is told by what it demands of the values for the names that it
reads (`faultOf?_read`).
-/

namespace DocScaffold

namespace Templates

/-! ## Templates of examples -/

/-- The template that an example is rendered from. -/
def ofExample : Example → Template
  | .call .. => .function
  | .construct .. => .struct
  | .inspect .. => .enum

def Value.ofArm (arm : Example.Arm) : Value :=
  mapping [("pattern".toList, text arm.pattern), ("handler".toList, text arm.handler)]

/-- The values that an example is rendered from. -/
def contextOf : Example → Context
  | .call name isAsync isUnsafe safety => [("name".toList, .text name),
      ("is_async".toList, .flag isAsync), ("is_unsafe".toList, .flag isUnsafe),
      ("safety_comment".toList, .text safety)]
  | .construct name isTuple fields => [("name".toList, .text name),
      ("is_tuple".toList, .flag isTuple), ("fields".toList, .list (fields.map .text))]
  | .inspect binding name value arms => [("name".toList, .text name), ("binding".toList, .text binding),
      ("default_variant".toList, .text value), ("arms".toList, .list (arms.map .ofArm))]

theorem mapM_readArm (arms : List Example.Arm) :
    (arms.map Value.ofArm).mapM Template.readArm = .ok arms := by
  induction arms with
  | nil => rfl
  | cons arm arms ih =>
    rw [List.map_cons, List.mapM_cons, ih]
    rfl

/-- Rendering gives the code of an example. -/
theorem render_contextOf (e : Example) (module : Text) :
    Engine.ofProgram.render (ofExample e).name
      (Engine.Context.set (E := .ofProgram) (contextOf e) "module".toList (.text module)) =
        .ok (e.text module) := by
  cases e with
  | call name isAsync isUnsafe safety => cases isAsync <;> cases isUnsafe <;> rfl
  | construct name isTuple fields =>
    cases isTuple with
    | true =>
      -- Of the fields of a tuple only their number shows.
      have hcode : (Example.construct name true
          (List.replicate (fields.map Value.text).length [])).codeLines =
            (Example.construct name true fields).codeLines := by
        rw [Example.codeLines, Example.codeLines, List.map_const', List.map_const', List.length_replicate,
          List.length_map]
      refine congrArg Except.ok ?_
      change Example.text module
        (.construct name true (List.replicate (fields.map Value.text).length [])) = _
      rw [Example.text, hcode]
      rfl
    | false =>
      have hfields : (fields.map Value.text).map Value.shown = fields := by
        rw [List.map_map]
        exact List.map_id' fields
      refine congrArg Except.ok ?_
      change Example.text module (.construct name false ((fields.map Value.text).map Value.shown)) = _
      rw [hfields]
  | inspect binding name value arms =>
    change (do return (← (do
      return Example.inspect binding name value (← (arms.map Value.ofArm).mapM Template.readArm)
        : Except Fault Example)).text module) = _
    rw [mapM_readArm]
    rfl

/-! ## Faults -/

section

variable {α β : Type} {c : Context}

/-- The fault for which something cannot be read. -/
def faultOf? : Except Fault α → Option Fault
  | .ok _ => none
  | .error e => some e

/-- Whether the value for a name is there and holds. -/
def Context.holds (c : Context) (name : Text) : Bool :=
  match c.read name with
  | .ok v => v.holds
  | .error _ => false

theorem Context.holds_eq {name : Text} {v : Value} (h : c.read name = .ok v) :
    c.holds name = v.holds := by
  rw [Context.holds, h]

/-- What is demanded of the value for a name. -/
structure Demand where
  name : Text
  fault? : Value → Option Fault := fun _ => none

/-- The fault of the first demand that is not met, as there is no value for the name or another one. -/
def Context.fault? (c : Context) : List Demand → Option Fault
  | [] => none
  | demand :: rest =>
    match c.read demand.name with
    | .error e => some e
    | .ok v => (demand.fault? v).or (fault? c rest)

/-- The first part that an arm lacks. -/
def armFault? (v : Value) : Option Fault :=
  (faultOf? (v.part "pattern".toList)).or (faultOf? (v.part "handler".toList))

/-- What a template demands, in the order in which it stands there. -/
def Template.demands (c : Context) : Template → List Demand
  | function =>
    { name := "is_async".toList } :: { name := "is_unsafe".toList } ::
      (if c.holds "is_unsafe".toList then
        [{ name := "safety_comment".toList }, { name := "name".toList }]
      else [{ name := "name".toList }])
  | struct => [{ name := "is_tuple".toList }, { name := "name".toList },
      { name := "fields".toList
        fault? := fun v => if c.holds "is_tuple".toList then faultOf? v.length
          else faultOf? v.items }]
  | enum => [{ name := "binding".toList }, { name := "name".toList }, { name := "default_variant".toList },
      { name := "arms".toList
        fault? := fun v => (faultOf? v.items).or (v.items.toOption.bind (·.findSome? armFault?)) }]

theorem faultOf?_pure (x : Except Fault α) (f : α → β) :
    faultOf? (x >>= fun a => pure (f a)) = faultOf? x := by
  cases x <;> rfl

/-- What is read first is demanded first. -/
theorem faultOf?_demand {name : Text} {check : Value → Option Fault} {rest : List Demand}
    {next : Value → Except Fault α}
    (h : ∀ v, c.read name = .ok v → faultOf? (next v) = (check v).or (c.fault? rest)) :
    faultOf? (c.read name >>= next) = c.fault? (⟨name, check⟩ :: rest) := by
  rw [Context.fault?]
  cases hread : c.read name with
  | error e => rfl
  | ok v => exact h v hread

theorem faultOf?_given {name : Text} {rest : List Demand} {next : Value → Except Fault α}
    (h : ∀ v, c.read name = .ok v → faultOf? (next v) = c.fault? rest) :
    faultOf? (c.read name >>= next) = c.fault? ({ name } :: rest) :=
  faultOf?_demand fun v hv => (h v hv).trans (Option.none_or ..).symm

theorem faultOf?_readArm (v : Value) : faultOf? (Template.readArm v) = armFault? v := by
  rw [Template.readArm, armFault?]
  cases v.part "pattern".toList with
  | error e => rfl
  | ok pattern => exact (faultOf?_pure _ _).trans (Option.none_or ..).symm

theorem faultOf?_mapM_readArm (items : List Value) :
    faultOf? (items.mapM Template.readArm) = items.findSome? armFault? := by
  induction items with
  | nil => rfl
  | cons v items ih =>
    rw [List.mapM_cons, List.findSome?_cons, ← faultOf?_readArm]
    cases Template.readArm v with
    | error e => rfl
    | ok arm => exact (faultOf?_pure _ _).trans ih

/-- A template fails by the first of its demands that is not met. -/
theorem faultOf?_read (t : Template) (c : Context) : faultOf? (t.read c) = c.fault? (t.demands c) := by
  cases t with
  | function =>
    refine faultOf?_given fun isAsync _ => faultOf?_given fun isUnsafe hunsafe => ?_
    rw [Context.holds_eq hunsafe]
    by_cases hholds : isUnsafe.holds = true
    · rw [if_pos hholds, if_pos hholds, bind_map_left]
      exact faultOf?_given fun safety _ => faultOf?_given fun name _ => rfl
    · rw [if_neg hholds, if_neg hholds]
      exact faultOf?_given fun name _ => rfl
  | struct =>
    refine faultOf?_given fun isTuple htuple => faultOf?_given fun name _ =>
      faultOf?_demand fun fields _ => ?_
    rw [Context.holds_eq htuple, Context.fault?, Option.or_none]
    by_cases hholds : isTuple.holds = true
    · rw [if_pos hholds, if_pos hholds]
      exact faultOf?_pure _ _
    · rw [if_neg hholds, if_neg hholds]
      exact faultOf?_pure _ _
  | enum =>
    refine faultOf?_given fun binding _ => faultOf?_given fun name _ => faultOf?_given fun value _ =>
      faultOf?_demand fun arms _ => ?_
    cases arms.items with
    | error e => rfl
    | ok items =>
      refine (faultOf?_pure (items.mapM Template.readArm) _).trans ?_
      rw [faultOf?_mapM_readArm, Context.fault?, Option.or_none]
      rfl

/-- A text among the arms has no pattern. -/
example : faultOf? (Template.enum.read [("binding".toList, .text "shape".toList),
    ("name".toList, .text "Shape".toList), ("default_variant".toList, .text "Dot".toList),
    ("arms".toList, .list [.text "Dot".toList])]) =
      some (.noAttribute "str".toList "pattern".toList) := rfl

end

end Templates

/-- Adding an example is the step that renders its template. -/
theorem Draft.run_usage (d : Draft) (e : Example) :
    d.run .ofProgram (.example (Templates.ofExample e).name (Templates.contextOf e)) =
      (.nothing, d.addExample e) := by
  have hrender : rendered (E := .ofProgram) (Templates.ofExample e).name (Templates.contextOf e)
      d.nextSlot = .ok (e.text (slotText d.nextSlot "...")) := Templates.render_contextOf e _
  refine (run_example (E := .ofProgram) d _ _).trans ?_
  rw [hrender]
  rfl

end DocScaffold
