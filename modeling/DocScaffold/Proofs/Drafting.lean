import DocScaffold.Doc.Template
import DocScaffold.Proofs.Characters
import DocScaffold.Proofs.Fragments

/-!
# How templates are put together

Whatever is documented, its draft grows by lines without a slot and by lines that end in the next one,
and is finished by an example or by none (`Item.exists_composed`). A property of characters that holds
of all that are not reserved and of those of the declaration holds of every text that is put in.
-/

namespace DocScaffold

open Text

/-! ## Texts over a class of characters -/

/-- All characters of a text belong to a class. -/
def Text.Over (ok : Char → Prop) (s : Text) : Prop := ∀ c ∈ s, ok c

section

variable {ok : Char → Prop}

namespace Text

theorem over_nil : Over ok [] := by simp [Over]

theorem Over.append {s t : Text} (hs : Over ok s) (ht : Over ok t) : Over ok (s ++ t) := by
  intro c hc
  exact (List.mem_append.1 hc).elim (hs c) (ht c)

theorem Over.of_subset {s t : Text} (ht : Over ok t) (h : s ⊆ t) : Over ok s :=
  fun c hc => ht c (h hc)

theorem Over.intercalate {separator : Text} {parts : List Text} (hs : Over ok separator)
    (h : ∀ p ∈ parts, Over ok p) : Over ok (List.intercalate separator parts) := by
  intro c hc
  rcases mem_intercalate hc with hc | ⟨p, hp, hc⟩
  · exact hs c hc
  · exact h p hp c hc

end Text

end

/-- The classes of characters that hold all that are not reserved. -/
structure Admits (ok : Char → Prop) : Prop where
  of_unreserved : ∀ c, isReserved c = false → ok c

section

variable {ok : Char → Prop} (hok : Admits ok)

include hok

theorem Admits.over {s : Text} (h : (s.all fun c => !isReserved c) = true) : Over ok s := by
  intro c hc
  have := List.all_eq_true.1 h c hc
  exact hok.of_unreserved c (by simpa using this)

theorem Admits.over_ofNat (n : Nat) : Over ok (Text.ofNat n) :=
  fun c hc => hok.of_unreserved c (isReserved_of_isWord (isWord_ofNat hc))

theorem Admits.over_lower {s : Text} (h : Over ok s) : Over ok s.lower :=
  fun c hc => (mem_lower hc).elim (h c) (hok.of_unreserved c)

theorem Admits.over_listed {parts : List Text} (h : ∀ p ∈ parts, Over ok p) :
    Over ok (listed parts) :=
  Over.intercalate (hok.over (by decide)) h

end

/-! ## Drafts -/

namespace Draft

section

variable (ok : Char → Prop)

/-- A line that neither is a fence nor opens the examples. -/
structure Ordinary (l : Text) : Prop where
  chars : Over ok l
  head : l.head? ≠ some '`'
  title : l ≠ "# Examples".toList

/-- The drafts with `n` slots to which no example is added yet. -/
inductive Composed : Draft → Nat → Prop
  | new {description : Text} (h : Over ok description) : Composed (.new description 2) 1
  | add {d : Draft} {n : Nat} {ls : List Text} (hd : Composed d n) (h : ∀ l ∈ ls, Ordinary ok l) :
    Composed (d.add ls) n
  | slot {d : Draft} {n : Nat} {front shown : Text} (hd : Composed d n) (hfront : Over ok front)
      (hhead : ∀ c ∈ front.head?, c ≠ '`' ∧ c ≠ '#') (hshown : Over ok shown) :
    Composed ((d.placeholder shown).2.add [front ++ (d.placeholder shown).1]) (n + 1)

end

/-- The next slot is one more than there are slots. -/
theorem Composed.nextSlot_eq {ok : Char → Prop} {d : Draft} {n : Nat} (hd : Composed ok d n) :
    d.nextSlot = (n + 1 : Nat) := by
  induction hd with
  | new h => rfl
  | add hd h ih => exact ih
  | @slot d n front shown hd hfront hhead hshown ih =>
    have hnext : ((d.placeholder shown).2.add [front ++ (d.placeholder shown).1]).nextSlot =
        d.nextSlot + 1 := rfl
    rw [hnext, ih]
    rfl

/-- The draft with an example, if there is one. -/
def finish (d : Draft) : Option Example → Draft
  | some e => d.addExample e
  | none => d

theorem lines_add (d : Draft) (ls : List Text) : (d.add ls).lines = d.lines ++ ls := rfl

theorem lines_addExample (d : Draft) (e : Example) : (d.addExample e).lines =
    d.lines ++ (heading "Examples" ++ e.lines (slotText d.nextSlot "...")) := by
  rw [addExample, lines_add]
  exact List.append_assoc d.lines _ _

/-- A list of bullets shows one item a line, each with the next slot. -/
theorem body_bullets {α : Type} (d : Draft) (items : List α) (label shown : α → Text) :
    (items.foldl (fun d a => d.bullet (label a) (shown a)) d).body = d.body ++ items.mapIdx fun i a =>
      "- ".toList ++ label a ++ " - ".toList ++ slotText (d.nextSlot + i) (shown a) := by
  induction items generalizing d with
  | nil => simp
  | cons a items ih =>
    have hnext : (d.bullet (label a) (shown a)).nextSlot = d.nextSlot + 1 := rfl
    have hbody : (d.bullet (label a) (shown a)).body =
        d.body ++ ["- ".toList ++ label a ++ " - ".toList ++ slotText d.nextSlot (shown a)] := rfl
    have hslot : ∀ i : Nat, d.nextSlot + 1 + (i : Int) = d.nextSlot + ((i + 1 : Nat) : Int) := by omega
    rw [List.foldl_cons, ih, hbody, hnext, List.append_assoc, List.mapIdx_cons]
    simp only [hslot]
    simp

/-- The lines of a section that lists items; the first of them has the slot behind the description. -/
def sectionLines {α : Type} (title : Text) (items : List α) (label shown : α → Text) : List Text :=
  heading title ++ items.mapIdx fun i a =>
    "- ".toList ++ label a ++ " - ".toList ++ slotText (i + 2 : Nat) (shown a)

theorem sectionLines_map {α β : Type} (title : Text) (f : α → β) (items : List α)
    (label shown : β → Text) : sectionLines title (items.map f) label shown =
      sectionLines title items (fun a => label (f a)) fun a => shown (f a) := by
  rw [sectionLines, sectionLines, List.append_cancel_left_eq]
  exact List.ext_getElem (by simp) (by simp)

/-- A draft that lists items in one section. -/
theorem lines_section {α : Type} (description title : Text) (items : List α) (label shown : α → Text) :
    (items.foldl (fun d a => d.bullet (label a) (shown a))
      ((new description 2).openSection title)).lines =
        (" ".toList ++ slotText 1 description) :: sectionLines title items label shown := by
  have hdescription : ∀ d : Draft,
      (items.foldl (fun d a => d.bullet (label a) (shown a)) d).description = d.description := by
    induction items with
    | nil => exact fun d => rfl
    | cons a items ih => exact fun d => ih (d.bullet (label a) (shown a))
  have hslot : ∀ i : Nat, (2 : Int) + i = (i + 2 : Nat) := by omega
  have hnext : ((new description 2).openSection title).nextSlot = 2 := rfl
  have hbody : ((new description 2).openSection title).body = heading title := rfl
  rw [lines, headLine, hdescription, body_bullets, hnext, hbody, sectionLines]
  simp only [hslot]
  rfl

/-- Lines may be added before the slot is taken. -/
theorem add_placeholder (d : Draft) (shown l : Text) (ls : List Text) :
    (d.placeholder shown).2.add (ls ++ [l]) = ((d.add ls).placeholder shown).2.add [l] := by
  simp [placeholder, reserve, add]

section

variable {ok : Char → Prop} (hok : Admits ok)

include hok

theorem Ordinary.of_all {l : Text} (h : (l.all fun c => !isReserved c) = true)
    (hhead : l.head? ≠ some '`') (htitle : l ≠ "# Examples".toList) : Ordinary ok l :=
  ⟨hok.over h, hhead, htitle⟩

theorem Composed.openSection {d : Draft} {n : Nat} {title : Text} (hd : Composed ok d n)
    (h : Over ok title) (hne : title ≠ "Examples".toList) : Composed ok (d.openSection title) n := by
  refine .add hd ?_
  have hempty : Ordinary ok [] := .of_all hok (by decide) (by decide) (by decide)
  intro l hl
  simp only [heading, List.mem_cons, List.not_mem_nil, or_false] at hl
  rcases hl with rfl | rfl | rfl
  · exact hempty
  · refine ⟨(hok.over (by decide)).append h, by simp, ?_⟩
    simpa using hne
  · exact hempty

theorem Composed.bullet {d : Draft} {n : Nat} {label shown : Text} (hd : Composed ok d n)
    (hlabel : Over ok label) (hshown : Over ok shown) : Composed ok (d.bullet label shown) (n + 1) :=
  .slot hd (((hok.over (by decide)).append hlabel).append (hok.over (by decide))) (by simp) hshown

/-- A list of bullets takes one slot for each. -/
theorem Composed.bullets {α : Type} {d : Draft} {n : Nat} {items : List α} {label shown : α → Text}
    (hd : Composed ok d n) (hlabel : ∀ a ∈ items, Over ok (label a))
    (hshown : ∀ a ∈ items, Over ok (shown a)) :
    Composed ok (items.foldl (fun d a => d.bullet (label a) (shown a)) d) (n + items.length) := by
  induction items generalizing d n with
  | nil => exact hd
  | cons a items ih =>
    have hbullet := hd.bullet hok (hlabel a (by simp)) (hshown a (by simp))
    have hrest := ih hbullet (fun b hb => hlabel b (by simp [hb])) fun b hb => hshown b (by simp [hb])
    rw [List.foldl_cons, List.length_cons, Nat.add_comm items.length, ← Nat.add_assoc]
    exact hrest

end

end Draft

/-! ## Examples -/

namespace Example

/-- The texts that an example is made of are over a class of characters, and the comment of an unsafe
call is no fence. -/
def Sound (ok : Char → Prop) : Example → Prop
  | call name _ _ safety => Over ok name ∧ Over ok safety ∧ safety.head? ≠ some '`'
  | construct name _ fields => Over ok name ∧ ∀ field ∈ fields, Over ok field
  | inspect binding name value arms =>
    Over ok binding ∧ Over ok name ∧ Over ok value ∧
      ∀ arm ∈ arms, Over ok arm.pattern ∧ Over ok arm.handler

/-- The lines of the code block. -/
def blockLines (module : Text) (e : Example) : List Text :=
  [e.openingFence, "use crate::".toList ++ module ++ ";".toList, []] ++ e.codeLines ++ [fence]

theorem text_eq (module : Text) (e : Example) :
    e.text module = List.intercalate ['\n'] (e.blockLines module) := rfl

section

variable {ok : Char → Prop} (hok : Admits ok)

include hok

/-- A line of fixed text alone. -/
theorem codeLine_fixed {s : Text} (hs : (s.all fun c => !isReserved c) = true)
    (hhead : s.head? ≠ some '`') : Over ok s ∧ s.head? ≠ some '`' :=
  ⟨hok.over hs, hhead⟩

/-- A line that begins with fixed text. -/
theorem codeLine_append {s t : Text} (hs : (s.all fun c => !isReserved c) = true) (hne : s ≠ [])
    (hhead : s.head? ≠ some '`') (ht : Over ok t) : Over ok (s ++ t) ∧ (s ++ t).head? ≠ some '`' := by
  obtain ⟨c, u, rfl⟩ := List.exists_cons_of_ne_nil hne
  exact ⟨(hok.over hs).append ht, hhead⟩

theorem codeLine_call {name safety : Text} {isAsync isUnsafe : Bool}
    (he : (call name isAsync isUnsafe safety).Sound ok) {l : Text}
    (hl : l ∈ (call name isAsync isUnsafe safety).codeLines) : Over ok l ∧ l.head? ≠ some '`' := by
  obtain ⟨hname, hsafety, hhead⟩ := he
  have hcall : ∀ s : Text, (s.all fun c => !isReserved c) = true → Over ok (name ++ s) :=
    fun s hs => hname.append (hok.over hs)
  cases isAsync <;> cases isUnsafe <;>
    simp only [codeLines, List.append_assoc, List.mem_cons, List.not_mem_nil, or_false] at hl
  · subst hl
    exact codeLine_append hok (by decide) (by decide) (by decide) (hcall _ (by decide))
  · rcases hl with rfl | rfl | rfl | rfl
    · exact ⟨hsafety, hhead⟩
    · exact codeLine_fixed hok (by decide) (by decide)
    · exact codeLine_append hok (by decide) (by decide) (by decide) (hcall _ (by decide))
    · exact codeLine_fixed hok (by decide) (by decide)
  · rcases hl with rfl | rfl | rfl
    · exact codeLine_fixed hok (by decide) (by decide)
    · exact codeLine_append hok (by decide) (by decide) (by decide) (hcall _ (by decide))
    · exact codeLine_fixed hok (by decide) (by decide)
  · rcases hl with rfl | rfl | rfl | rfl
    · exact codeLine_fixed hok (by decide) (by decide)
    · exact codeLine_append hok (by decide) (by decide) (by decide) hsafety
    · exact codeLine_append hok (by decide) (by decide) (by decide) (hcall _ (by decide))
    · exact codeLine_fixed hok (by decide) (by decide)

theorem codeLine_construct {name : Text} {isTuple : Bool} {fields : List Text}
    (he : (construct name isTuple fields).Sound ok) {l : Text}
    (hl : l ∈ (construct name isTuple fields).codeLines) : Over ok l ∧ l.head? ≠ some '`' := by
  obtain ⟨hname, hfields⟩ := he
  cases isTuple with
  | true =>
    rw [codeLines, List.mem_singleton] at hl
    subst hl
    have hvalues : Over ok (listed (fields.map fun _ => "value".toList)) := by
      apply hok.over_listed
      intro p hp
      obtain ⟨-, -, rfl⟩ := List.mem_map.1 hp
      exact hok.over (by decide)
    simp only [List.append_assoc]
    exact codeLine_append hok (by decide) (by decide) (by decide)
      (hname.append ((hok.over (by decide)).append (hvalues.append (hok.over (by decide)))))
  | false =>
    simp only [codeLines, List.append_assoc, List.mem_append, List.mem_singleton, List.mem_map] at hl
    rcases hl with rfl | ⟨field, hfield, rfl⟩ | rfl
    · exact codeLine_append hok (by decide) (by decide) (by decide)
        (hname.append (hok.over (by decide)))
    · exact codeLine_append hok (by decide) (by decide) (by decide)
        ((hfields field hfield).append (hok.over (by decide)))
    · exact codeLine_fixed hok (by decide) (by decide)

theorem codeLine_inspect {binding name value : Text} {arms : List Arm}
    (he : (inspect binding name value arms).Sound ok) {l : Text}
    (hl : l ∈ (inspect binding name value arms).codeLines) : Over ok l ∧ l.head? ≠ some '`' := by
  obtain ⟨hbinding, hname, hvalue, harms⟩ := he
  simp only [codeLines, List.append_assoc, List.mem_append, List.mem_cons, List.not_mem_nil, or_false,
    List.mem_map] at hl
  rcases hl with (rfl | rfl) | ⟨arm, harm, rfl⟩ | rfl
  · exact codeLine_append hok (by decide) (by decide) (by decide)
      (hbinding.append ((hok.over (by decide)).append (hname.append ((hok.over (by decide)).append
        (hvalue.append (hok.over (by decide)))))))
  · exact codeLine_append hok (by decide) (by decide) (by decide)
      (hbinding.append (hok.over (by decide)))
  · obtain ⟨hpattern, hhandler⟩ := harms arm harm
    exact codeLine_append hok (by decide) (by decide) (by decide)
      (hname.append ((hok.over (by decide)).append (hpattern.append ((hok.over (by decide)).append
        (hhandler.append (hok.over (by decide)))))))
  · exact codeLine_fixed hok (by decide) (by decide)

theorem Sound.codeLine {e : Example} (he : e.Sound ok) {l : Text} (hl : l ∈ e.codeLines) :
    Over ok l ∧ l.head? ≠ some '`' := by
  cases e with
  | call => exact codeLine_call hok he hl
  | construct => exact codeLine_construct hok he hl
  | inspect => exact codeLine_inspect hok he hl

end

end Example

/-! ## Functions, structs and enums -/

namespace Item

/-- The number of slots in the template of a declaration: the description, each listed part, and the
module of the example. -/
def slotCount? (kind : Kind) (s : Text) (o : Options) : Option Nat :=
  match kind with
  | .function => (Function.parse? s).map fun f =>
    1 + f.parameters.length + f.returnType.isSome.toNat + f.modifiers.isUnsafe.toNat +
      f.isFallible.toNat + (o.admitsExample f.isExposed).toNat
  | .struct => (Struct.parse? s).map fun t =>
    1 + t.fields.length + (!o.gateStructExamples || o.admitsExample t.isExposed).toNat
  | .enum => (Enum.parse? s).map fun e =>
    1 + e.variants.length + (o.admitsExample e.isExposed).toNat

/-- The template of a function without its example. -/
def Function.sections (f : Function) (o : Options) : Draft :=
  f.addErrors (f.addSafety o (f.addReturns (f.addParameters (.new "Describe this function." 2))))

theorem Function.draft_eq (f : Function) (o : Options) :
    f.draft o = (f.sections o).finish (if o.admitsExample f.isExposed then some f.usage else none) := by
  unfold Function.draft
  split <;> rfl

theorem Struct.draft_eq (t : Struct) (o : Options) :
    t.draft o = (t.addFields (.new "Describe this struct." 2)).finish
      (if !o.gateStructExamples || o.admitsExample t.isExposed then some t.usage else none) := by
  unfold Struct.draft
  dsimp only
  split <;> rfl

theorem Enum.draft_eq (e : Enum) (o : Options) :
    e.draft o = (e.addVariants (.new "Describe this enum." 2)).finish
      (if o.admitsExample e.isExposed then some e.usage else none) := by
  unfold Enum.draft
  dsimp only
  split <;> rfl

section

variable {ok : Char → Prop} (hok : Admits ok)

include hok

theorem over_quoted {s : Text} (h : Over ok s) : Over ok (quoted s) :=
  ((hok.over (by decide)).append h).append (hok.over (by decide))

theorem Member.over_label {m : Member} (h : ∀ u ∈ m.texts, Over ok u) : Over ok m.label := by
  have hname : Over ok m.name := h m.name (by simp [Member.texts])
  have htype : Over ok m.type := h m.type (by simp [Member.texts])
  exact (((over_quoted hok hname).append (hok.over (by decide))).append
    (over_quoted hok htype)).append (hok.over (by decide))

namespace Function

variable {f : Function} (hf : ∀ u ∈ f.texts, Over ok u)

include hf

theorem composed_addParameters {d : Draft} {n : Nat} (hd : d.Composed ok n) :
    (f.addParameters d).Composed ok (n + f.parameters.length) := by
  unfold addParameters
  split
  · rename_i hempty
    rw [List.isEmpty_iff.1 hempty]
    exact hd
  · refine (hd.openSection hok (hok.over (by decide)) (by decide)).bullets hok ?_ ?_
    · intro m hm
      refine Member.over_label hok fun u hu => hf u ?_
      simp only [texts, List.mem_cons, List.mem_append, List.mem_flatMap]
      exact .inr (.inl ⟨m, hm, hu⟩)
    · intro m _
      exact hok.over (by decide)

theorem composed_addReturns {d : Draft} {n : Nat} (hd : d.Composed ok n) :
    (f.addReturns d).Composed ok (n + f.returnType.isSome.toNat) := by
  unfold addReturns
  split
  · rename_i hnone
    rw [hnone]
    exact hd
  · rename_i type hsome
    rw [hsome]
    have htype : Over ok type := hf type (by simp [texts, hsome])
    exact (hd.openSection hok (hok.over (by decide)) (by decide)).bullet hok
      (over_quoted hok htype) (hok.over (by decide))

omit hf in
theorem composed_addSafety (o : Options) {d : Draft} {n : Nat} (hd : d.Composed ok n) :
    (f.addSafety o d).Composed ok (n + f.modifiers.isUnsafe.toNat) := by
  have hordinary : ∀ l ∈ unsafeHeading :: obligations, Draft.Ordinary ok l := by
    intro l hl
    have hall : ((unsafeHeading :: obligations).all fun l => (l.all fun c => !isReserved c) &&
        l.head? != some '`' && l != "# Examples".toList) = true := by
      -- The kernel is slow to decode a long literal, so it is given the characters.
      unfold unsafeHeading obligations
      repeat rw [String.toList_ofList]
      decide +kernel
    have hl := List.all_eq_true.1 hall l hl
    simp only [Bool.and_eq_true, bne_iff_ne] at hl
    exact .of_all hok hl.1.1 hl.1.2 hl.2
  unfold addSafety
  split
  · have hsection : ((d.openSection "Safety".toList)).Composed ok n :=
      hd.openSection hok (hok.over (by decide)) (by decide)
    have hdetails : (if o.safetyDetails then (d.openSection "Safety".toList).add obligations
        else d.openSection "Safety".toList).Composed ok n := by
      split
      · exact hsection.add fun l hl => hordinary l (by simp [hl])
      · exact hsection
    dsimp only
    generalize (if o.safetyDetails then (d.openSection "Safety".toList).add obligations
        else d.openSection "Safety".toList) = d' at hdetails
    split
    · rename_i hflag
      rw [hflag]
      have hheading : (d'.add [unsafeHeading]).Composed ok (n + 0) :=
        hdetails.add fun l hl => hordinary l (by simp_all)
      have hfront : Over ok "  - ".toList := hok.over (by decide)
      have hshown : Over ok "Describe unsafe behavior.".toList := hok.over (by decide)
      have hslot := hheading.slot hfront (by simp) hshown
      rw [← Draft.add_placeholder] at hslot
      exact hslot
    · rename_i hsafe
      rw [Bool.not_eq_true] at hsafe
      rw [hsafe]
      exact hdetails
  · rename_i hsafe
    simp only [Bool.or_eq_true, not_or, Bool.not_eq_true] at hsafe
    rw [hsafe.1]
    exact hd

omit hf in
theorem composed_addErrors {d : Draft} {n : Nat} (hd : d.Composed ok n) :
    (f.addErrors d).Composed ok (n + f.isFallible.toNat) := by
  unfold addErrors
  split
  · rename_i hfallible
    rw [hfallible]
    have hopened : (d.openSection "Errors".toList).Composed ok n :=
      hd.openSection hok (hok.over (by decide)) (by decide)
    have hshown : Over ok "Describe possible errors.".toList := hok.over (by decide)
    exact hopened.slot over_nil (by simp) hshown
  · rename_i hsafe
    rw [Bool.not_eq_true] at hsafe
    rw [hsafe]
    exact hd

theorem composed_sections (o : Options) :
    (f.sections o).Composed ok (1 + f.parameters.length + f.returnType.isSome.toNat +
      f.modifiers.isUnsafe.toNat + f.isFallible.toNat) :=
  composed_addErrors hok (composed_addSafety hok o (composed_addReturns hok hf
    (composed_addParameters hok hf (.new (hok.over (by decide))))))

theorem sound_usage : f.usage.Sound ok :=
  ⟨hf f.name (by simp [texts]), hok.over (by decide), by decide⟩

end Function

namespace Struct

variable {t : Struct} (ht : ∀ u ∈ t.texts, Over ok u)

include ht

theorem composed_addFields {d : Draft} {n : Nat} (hd : d.Composed ok n) :
    (t.addFields d).Composed ok (n + t.fields.length) := by
  unfold addFields
  dsimp only
  split
  · rename_i hempty
    rw [List.isEmpty_iff.1 hempty]
    exact hd
  · refine (hd.openSection hok (hok.over (by decide)) (by decide)).bullets hok ?_ ?_
    · intro m hm
      refine Member.over_label hok fun u hu => ht u ?_
      simp only [texts, List.mem_cons, List.mem_flatMap]
      exact .inr ⟨m, hm, hu⟩
    · intro m _
      split
      · exact hok.over (by decide)
      · exact hok.over (by decide)

omit hok in
theorem sound_usage : t.usage.Sound ok := by
  refine ⟨ht t.name (by simp [texts]), fun field hfield => ?_⟩
  obtain ⟨m, hm, rfl⟩ := List.mem_map.1 hfield
  apply ht
  simp only [texts, List.mem_cons, List.mem_flatMap]
  exact .inr ⟨m, hm, by simp [Member.texts]⟩

end Struct

namespace Variant

variable {v : Variant} (hv : ∀ u ∈ v.texts, Over ok u)

include hv

theorem over_label : Over ok v.label := by
  obtain ⟨payload, name, raw⟩ := v
  have hname : Over ok name := hv name (by simp [texts])
  unfold label
  cases payload with
  | unit | unknown => exact hname
  | tuple types =>
    have htypes : Over ok (listed types) :=
      hok.over_listed fun type htype => hv type (by simp [texts, Payload.texts, htype])
    exact ((hname.append (hok.over (by decide))).append htypes).append (hok.over (by decide))
  | struct fields =>
    have hfields : Over ok (listed fields) :=
      hok.over_listed fun field hfield => hv field (by simp [texts, Payload.texts, hfield])
    exact ((hname.append (hok.over (by decide))).append hfields).append (hok.over (by decide))

theorem over_pattern : Over ok v.pattern := by
  unfold pattern
  split
  · rename_i types _
    have hbindings : Over ok (listed (bindings types)) := by
      apply hok.over_listed
      intro p hp
      obtain ⟨i, -, rfl⟩ := List.mem_mapIdx.1 hp
      exact (hok.over (by decide)).append (hok.over_ofNat i)
    have hname : Over ok v.name := hv v.name (by simp [texts])
    exact ((hname.append (hok.over (by decide))).append hbindings).append (hok.over (by decide))
  · exact over_label hok hv

omit hv in
theorem over_handler : Over ok v.handler := by
  unfold handler
  split <;> exact hok.over (by decide)

omit hv in
theorem over_shown : Over ok v.shown := by
  unfold shown
  split <;> exact hok.over (by decide)

end Variant

namespace Enum

variable {e : Enum} (he : ∀ u ∈ e.texts, Over ok u)

include he

omit hok in
theorem over_of_variant {v : Variant} (hv : v ∈ e.variants) : ∀ u ∈ v.texts, Over ok u := by
  intro u hu
  apply he
  simp only [texts, List.mem_cons, List.mem_flatMap]
  exact .inr ⟨v, hv, hu⟩

theorem composed_addVariants {d : Draft} {n : Nat} (hd : d.Composed ok n) :
    (e.addVariants d).Composed ok (n + e.variants.length) :=
  (hd.openSection hok (hok.over (by decide)) (by decide)).bullets hok
    (fun _ hv => over_quoted hok (Variant.over_label hok (over_of_variant he hv)))
    fun _ _ => Variant.over_shown hok

theorem sound_usage : e.usage.Sound ok := by
  have hname : Over ok e.name := he e.name (by simp [texts])
  have hvalue : Over ok e.defaultVariant := by
    intro c hc
    obtain ⟨u, hu, hc⟩ := exists_of_mem_defaultVariant hc
    exact he u hu c hc
  refine ⟨hok.over_lower hname, hname, hvalue, fun arm harm => ?_⟩
  obtain ⟨v, hv, rfl⟩ := List.mem_map.1 harm
  exact ⟨Variant.over_pattern hok (over_of_variant he hv), Variant.over_handler hok⟩

end Enum

/-- Every template is a composed draft, finished by an example or by none. -/
theorem exists_composed {kind : Kind} {s text : Text} {o : Options} (hs : Over ok s)
    (huncommented : Over ok (Enum.uncommented s)) (h : template? kind s o = some text) :
    ∃ (d : Draft) (n : Nat) (e : Option Example), d.Composed ok n ∧ (∀ x ∈ e, x.Sound ok) ∧
      slotCount? kind s o = some (n + e.isSome.toNat) ∧ text = (d.finish e).render := by
  have count : ∀ (b : Bool) (x : Example), (if b then some x else none).isSome = b := by
    rintro (_ | _) x <;> rfl
  have only : ∀ (b : Bool) (x y : Example), x.Sound ok → y ∈ (if b then some x else none) →
      y.Sound ok := by
    rintro (_ | _) x y hx hy
    · simp at hy
    · obtain rfl : x = y := by simpa using hy
      exact hx
  cases kind with
  | function =>
    obtain ⟨f, hf, rfl⟩ := Option.map_eq_some_iff.1 h
    have htexts : ∀ u ∈ f.texts, Over ok u := fun u hu => hs.of_subset (Function.texts_subset hf hu)
    refine ⟨_, _, _, Function.composed_sections hok htexts o,
      fun x hx => only _ _ x (Function.sound_usage hok htexts) hx, ?_,
      congrArg Draft.render (f.draft_eq o)⟩
    rw [slotCount?, hf, Option.map_some, count]
  | struct =>
    obtain ⟨t, ht, rfl⟩ := Option.map_eq_some_iff.1 h
    have htexts : ∀ u ∈ t.texts, Over ok u := fun u hu c hc =>
      (Struct.mem_of_mem_texts ht hu hc).elim (hs c) fun hword =>
        hok.of_unreserved c (isReserved_of_isWord hword)
    refine ⟨_, _, _, Struct.composed_addFields hok htexts (.new (hok.over (by decide))),
      fun x hx => only _ _ x (Struct.sound_usage htexts) hx, ?_, congrArg Draft.render (t.draft_eq o)⟩
    rw [slotCount?, ht, Option.map_some, count]
  | enum =>
    obtain ⟨e, he, rfl⟩ := Option.map_eq_some_iff.1 h
    have hspace : Over ok (' ' :: Enum.uncommented s) :=
      (show Over ok [' '] from hok.over (by decide)).append huncommented
    have htexts : ∀ u ∈ e.texts, Over ok u := fun u hu => hspace.of_subset (Enum.texts_subset he hu)
    refine ⟨_, _, _, Enum.composed_addVariants hok htexts (.new (hok.over (by decide))),
      fun x hx => only _ _ x (Enum.sound_usage hok htexts) hx, ?_, congrArg Draft.render (e.draft_eq o)⟩
    rw [slotCount?, he, Option.map_some, count]

end

end Item

end DocScaffold
