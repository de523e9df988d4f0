import DocScaffold.Proofs.Fields

/-!
# Variants

An enum that is written part by part is read back variant by variant, and its template covers every
variant once and in order, also in the `match` of its example (`Frame.reads_enum`). A payload is read
from its text with single spaces, so texts with single spaces are read back as they are.
-/

namespace DocScaffold

open Text

namespace Text

/-! ## Single spaces in brackets -/

theorem not_blank_of_mem_brackets {pair : Char × Char} (h : pair ∈ brackets) :
    isBlank pair.1 = false ∧ isBlank pair.2 = false := by
  simp only [brackets, List.mem_cons, List.not_mem_nil, or_false] at h
  rcases h with rfl | rfl | rfl <;> decide

theorem trimStart_bracketed {pair : Char × Char} (hpair : pair ∈ brackets) (inner : Text) :
    trimStart (bracketed pair inner) = bracketed pair inner ∧
      trimStart (' ' :: bracketed pair inner) = bracketed pair inner := by
  have hstop : List.dropWhile isBlank (bracketed pair inner) = bracketed pair inner :=
    List.dropWhile_cons_of_neg (by simp [not_blank_of_mem_brackets hpair])
  exact ⟨hstop, (List.dropWhile_cons_of_pos isBlank_space).trans hstop⟩

theorem squeeze_bracketed {pair : Char × Char} (hpair : pair ∈ brackets) {inner : Text}
    (h : squeeze inner = inner) : squeeze (bracketed pair inner) = bracketed pair inner := by
  have hblank := not_blank_of_mem_brackets hpair
  have hcloser : squeeze [pair.2] = [pair.2] := squeeze_of_not_blank (by simpa using hblank.2)
  rw [bracketed, squeeze_cons hblank.1, squeeze_append (by simpa using fun _ _ _ => hblank.2), h,
    hcloser]

theorem squeeze_space {s : Text} (h : ∀ c ∈ s.head?, isBlank c = false) :
    squeeze (' ' :: s) = ' ' :: squeeze s := by
  refine squeeze_blank isBlank_space ?_
  rw [Option.any_eq_false]
  simpa using h

theorem Solid.squeeze_append {p t : Text} (hp : Solid p) :
    Text.squeeze (p ++ t) = Text.squeeze p ++ Text.squeeze t := by
  refine Text.squeeze_append fun x hx hblank => ?_
  rw [hp.last x hx] at hblank
  exact absurd hblank (by decide)

theorem squeeze_listed {ps : List Text} (hsolid : ∀ p ∈ ps, Solid p) (h : ∀ p ∈ ps, squeeze p = p) :
    squeeze (listed ps) = listed ps := by
  induction ps with
  | nil => rfl
  | cons p ps ih =>
    have hp := h p (by simp)
    cases ps with
    | nil => simpa [listed] using hp
    | cons q ps =>
      have hrest := ih (fun r hr => hsolid r (by simp [hr])) fun r hr => h r (by simp [hr])
      rw [listed_cons_cons, (hsolid p (by simp)).squeeze_append, hp, squeeze_cons (by decide),
        squeeze_space (head_listed (hsolid q (by simp))), hrest]

theorem squeeze_body {ps : List Text} (hne : ps ≠ []) (hsolid : ∀ p ∈ ps, Solid p)
    (h : ∀ p ∈ ps, squeeze p = p) (isTrailing : Bool) :
    squeeze (body ps isTrailing) = body ps isTrailing := by
  have hend : squeeze (bodyEnd isTrailing) = bodyEnd isTrailing := by
    cases isTrailing <;> decide
  rw [body, squeeze_space (head_body hne hsolid isTrailing),
    (solid_listed hne hsolid).squeeze_append, squeeze_listed hsolid h, hend]

end Text

namespace Item

theorem Variant.enclosed?_bracketed (pair : Char × Char) {inner : Text} (hne : inner ≠ []) :
    Variant.enclosed? pair.1 pair.2 (bracketed pair inner) = some inner := by
  simp [Variant.enclosed?, bracketed, hne]

/-! ## Payloads -/

/-- What a variant carries, as it is written. -/
inductive WrittenPayload
  | unit
  | tuple (types : List Text)
  | struct (fields : List WrittenField)

namespace WrittenPayload

def text : WrittenPayload → Text
  | unit => []
  | tuple types => bracketed ('(', ')') (listed types)
  | struct fields => ' ' :: bracketed ('\x7b', '\x7d') (body (fields.map WrittenField.text) false)

/-- What is read of a payload: the types, or the names of the fields. -/
def read : WrittenPayload → Payload
  | unit => .unit
  | tuple types => .tuple types
  | struct fields => .struct (fields.map (·.member.name))

/-- A type with single spaces that a list keeps whole and that is not taken for a visibility. -/
structure IsType (t : Text) : Prop where
  solid : Solid t
  whole : isWhole t = true
  spaced : t.collapse = t
  head : ∀ u ∈ t.tokens.head?, u.isIdent "pub" = false

/-- There is something between the brackets, with single spaces, and it can be told apart. -/
def IsProper : WrittenPayload → Prop
  | unit => True
  | tuple types => types ≠ [] ∧ ∀ t ∈ types, IsType t
  | struct fields => fields ≠ [] ∧ ∀ w ∈ fields, w.IsProper ∧ w.text.collapse = w.text

theorem IsType.withoutVisibility {t : Text} (h : IsType t) : t.withoutVisibility = t := by
  have hnone : visibilityEnd? t.tokens = none := by
    have hhead := h.head
    unfold visibilityEnd?
    split
    · rfl
    · rename_i u rest htokens
      rw [htokens] at hhead
      rw [hhead u rfl]
      rfl
  rw [Text.withoutVisibility, hnone]
  exact h.solid.trim_eq

theorem entries_tuple {types : List Text} (h : (tuple types).IsProper) :
    (listed types).entries.map Text.withoutVisibility = types := by
  obtain ⟨-, htypes⟩ := h
  rw [entries_listed (fun t ht => (htypes t ht).solid) fun t ht => (htypes t ht).whole]
  exact (List.map_congr_left fun t ht => (htypes t ht).withoutVisibility).trans (List.map_id' types)

theorem entries_struct {fields : List WrittenField} (h : (struct fields).IsProper) :
    (body (fields.map WrittenField.text) false).entries.map Variant.fieldOf =
      fields.map (·.member.name) := by
  obtain ⟨hne, hfields⟩ := h
  rw [entries_body (by simpa using hne) (WrittenField.solid_texts fun w hw => (hfields w hw).1)
    (WrittenField.isWhole_texts fun w hw => (hfields w hw).1), List.map_map, List.map_inj_left]
  intro w hw
  exact congrArg Member.name (WrittenField.ofEntry_text (hfields w hw).1)

section

variable {p : WrittenPayload} (hp : p.IsProper)

include hp

theorem squeeze_text : squeeze p.text = p.text := by
  cases p with
  | unit => rfl
  | tuple types =>
    obtain ⟨-, htypes⟩ := hp
    refine squeeze_bracketed (by simp [brackets]) (squeeze_listed (fun t ht => (htypes t ht).solid) ?_)
    intro t ht
    rw [← (htypes t ht).solid.collapse_eq, (htypes t ht).spaced]
  | struct fields =>
    obtain ⟨hne, hfields⟩ := hp
    have hsolid := WrittenField.solid_texts fun w hw => (hfields w hw).1
    have hspaced : ∀ q ∈ fields.map WrittenField.text, squeeze q = q := by
      intro q hq
      rw [← (hsolid q hq).collapse_eq]
      obtain ⟨w, hw, rfl⟩ := List.mem_map.1 hq
      exact (hfields w hw).2
    rw [text, squeeze_space (by simp [bracketed]; decide),
      squeeze_bracketed (by simp [brackets]) (squeeze_body (by simpa using hne) hsolid hspaced false)]

omit hp in
theorem apart_text {name : Text} (hname : IsToken .ident name) : Apart name p.text := by
  cases p with
  | unit => simp [Apart, text]
  | tuple types => exact Apart.of_head fun x _ => apart_mark (by decide)
  | struct fields => exact Apart.of_head fun x hx => apart_space (hname.ident_solid.last x hx)

/-- Commas of a payload part no variants. -/
theorem isWhole_append_text {name : Text} (hname : IsToken .ident name) :
    isWhole (name ++ p.text) = true := by
  refine isWhole_append (hname.isWhole (by decide)) ?_ (apart_text hname)
  cases p with
  | unit => exact isWhole_filler (by decide)
  | tuple types =>
    obtain ⟨-, htypes⟩ := hp
    exact isWhole_bracketed (by simp [brackets])
      (isBalanced_listed (fun t ht => (htypes t ht).solid) fun t ht => (htypes t ht).whole)
  | struct fields =>
    obtain ⟨hne, hfields⟩ := hp
    have hgroup : isWhole (bracketed ('\x7b', '\x7d') (body (fields.map WrittenField.text) false)) =
        true :=
      isWhole_bracketed (by simp [brackets]) (isBalanced_body (by simpa using hne)
        (WrittenField.solid_texts fun w hw => (hfields w hw).1)
        (WrittenField.isWhole_texts fun w hw => (hfields w hw).1) false)
    have hspace : Apart [' '] (bracketed ('\x7b', '\x7d') (body (fields.map WrittenField.text) false)) :=
      Apart.of_head fun x hx => by
        obtain rfl : ' ' = x := by simpa using hx
        decide
    exact isWhole_append isWhole_space hgroup hspace

omit hp in
theorem last_append_text {name : Text} (hname : IsToken .ident name) :
    ∀ c ∈ (name ++ p.text).getLast?, isBlank c = false := by
  intro c hc
  cases p with
  | unit =>
    rw [text, List.append_nil] at hc
    exact hname.ident_solid.last c hc
  | tuple types =>
    rw [text, List.getLast?_append, getLast?_bracketed, Option.some_or, Option.mem_some_iff] at hc
    subst hc
    decide
  | struct fields =>
    rw [text, List.getLast?_append, List.getLast?_cons, getLast?_bracketed] at hc
    obtain rfl : '\x7d' = c := by simpa using hc
    decide

end

end WrittenPayload

/-! ## Written variants -/

/-- A variant as it is written. -/
structure WrittenVariant where
  attributes : List Text
  name : Text
  payload : WrittenPayload

namespace WrittenVariant

/-- The variant without its attributes. -/
def bare (w : WrittenVariant) : Text := w.name ++ w.payload.text

def text (w : WrittenVariant) : Text := attributesText w.attributes ++ w.bare

def read (w : WrittenVariant) : Variant := ⟨w.payload.read, w.name, w.bare⟩

/-- What attributes hold is balanced, and the name is a plain word. -/
structure IsProper (w : WrittenVariant) : Prop where
  attributes : ∀ inner ∈ w.attributes, isBalanced inner = true
  name : IsToken .ident w.name
  word : ∀ c ∈ w.name, isWord c = true
  payload : w.payload.IsProper

variable {w : WrittenVariant} (hw : w.IsProper)

include hw

theorem solid_bare : Solid w.bare := by
  refine ⟨by simp [bare, hw.name.ident_ne_nil], fun c hc => ?_,
    WrittenPayload.last_append_text hw.name⟩
  rw [bare, List.head?_append_of_ne_nil _ hw.name.ident_ne_nil] at hc
  exact hw.name.ident_solid.head c hc

theorem solid_text : Solid w.text := (spaced_attributesText hw.attributes).solid_append (solid_bare hw)

theorem isWhole_text : isWhole w.text = true :=
  (spaced_attributesText hw.attributes).isWhole_append (isWhole_attributesText hw.attributes)
    (solid_bare hw) (WrittenPayload.isWhole_append_text hw.payload hw.name)

/-- Without its attributes a variant is the text that is classified. -/
theorem collapse_text : w.text.withoutAttributes.collapse = w.bare := by
  have hhead : ∀ t ∈ w.bare.tokens.head?, t.isPunct ['#'] = false := by
    rw [bare, tokens_append (hw.name.isClosed (by decide)) (WrittenPayload.apart_text hw.name),
      tokens_eq_tokensAt, hw.name.tokensAt]
    intro t ht
    obtain rfl : _ = t := by simpa using ht
    simp [Token.isPunct]
  rw [text, withoutAttributes_text hw.attributes (solid_bare hw) hhead, (solid_bare hw).collapse_eq,
    bare, hw.name.ident_solid.squeeze_append, WrittenPayload.squeeze_text hw.payload,
    squeeze_of_not_blank (hw.name.not_blank (by decide))]

/-- A written variant is read back. -/
theorem ofEntry_text : Variant.ofEntry w.text = w.read := by
  -- The name ends where the payload begins: neither a bracket nor a space is part of a word.
  have hstop : ∀ c ∈ w.payload.text.head?, isWord c = false := by
    cases w.payload with
    | unit => simp [WrittenPayload.text]
    | tuple types => simp [WrittenPayload.text, bracketed]; decide
    | struct fields => simp [WrittenPayload.text]; decide
  have hname : w.bare.takeWhile isWord = w.name := takeWhile_append_of_head hw.word hstop
  have hrest : w.bare.dropWhile isWord = w.payload.text := dropWhile_append_of_head hw.word hstop
  have hne : w.name.isEmpty = false := by simpa using hw.name.ident_ne_nil
  have hpayload := hw.payload
  rw [Variant.ofEntry, collapse_text hw, hname, hrest, hne, read]
  cases hcase : w.payload with
  | unit => rfl
  | tuple types =>
    rw [hcase] at hpayload
    have htext : (WrittenPayload.tuple types).text.isEmpty = false := rfl
    have hstart : trimStart (WrittenPayload.tuple types).text = bracketed ('(', ')') (listed types) :=
      (trimStart_bracketed (by simp [brackets]) (listed types)).1
    have hround := Variant.enclosed?_bracketed ('(', ')')
      (solid_listed hpayload.1 fun t ht => (hpayload.2 t ht).solid).nonempty
    dsimp only at hround ⊢
    rw [htext, hstart, hround]
    simp only [WrittenPayload.entries_tuple hpayload, WrittenPayload.read, Bool.false_eq_true, if_false]
  | struct fields =>
    rw [hcase] at hpayload
    have htext : (WrittenPayload.struct fields).text.isEmpty = false := rfl
    have hstart : trimStart (WrittenPayload.struct fields).text =
        bracketed ('\x7b', '\x7d') (body (fields.map WrittenField.text) false) :=
      (trimStart_bracketed (by simp [brackets]) (body (fields.map WrittenField.text) false)).2
    -- Round brackets are tried first, and a brace is none.
    have hround : Variant.enclosed? '(' ')'
        (bracketed ('\x7b', '\x7d') (body (fields.map WrittenField.text) false)) = none := rfl
    have hcurly := Variant.enclosed?_bracketed ('\x7b', '\x7d')
      (show body (fields.map WrittenField.text) false ≠ [] by simp [body])
    dsimp only at hcurly ⊢
    rw [htext, hstart, hround, hcurly]
    simp only [WrittenPayload.entries_struct hpayload, WrittenPayload.read, Bool.false_eq_true, if_false]

/-- The name stands in front of every bracket of a payload. -/
theorem takeWhile_bare : trim (w.bare.takeWhile fun c => c != '(' && c != '\x7b') = w.name := by
  have hrun : ∀ c ∈ w.name, (c != '(' && c != '\x7b') = true := by
    intro c hc
    have hword := hw.word c hc
    rw [Bool.and_eq_true, bne_iff_ne, bne_iff_ne]
    constructor <;> rintro rfl <;> exact absurd hword (by decide)
  have hfront := hw.name.ident_solid
  rw [bare]
  cases w.payload with
  | unit =>
    rw [WrittenPayload.text, takeWhile_append_of_head hrun (by simp)]
    exact hfront.trim_eq
  | tuple types =>
    rw [WrittenPayload.text, takeWhile_append_of_head hrun (by simp [bracketed])]
    exact hfront.trim_eq
  | struct fields =>
    -- The space behind the name is taken along, and trimmed.
    have hspaced : ∀ c ∈ w.name ++ [' '], (c != '(' && c != '\x7b') = true := by
      intro c hc
      rcases List.mem_append.1 hc with hc | hc
      · exact hrun c hc
      · rw [List.mem_singleton.1 hc]
        decide
    have htrim := trim_between (show ∀ c ∈ ([] : Text), isBlank c = true by simp) hfront
      (show ∀ c ∈ [' '], isBlank c = true by simp [isBlank_space])
    rw [WrittenPayload.text, ← List.singleton_append, ← List.append_assoc,
      takeWhile_append_of_head hspaced (by simp [bracketed])]
    exact htrim

omit hw in
theorem solid_texts {variants : List WrittenVariant} (h : ∀ w ∈ variants, w.IsProper) :
    ∀ p ∈ variants.map text, Solid p :=
  List.forall_mem_map.2 fun w hw => solid_text (h w hw)

omit hw in
theorem isWhole_texts {variants : List WrittenVariant} (h : ∀ w ∈ variants, w.IsProper) :
    ∀ p ∈ variants.map text, isWhole p = true :=
  List.forall_mem_map.2 fun w hw => isWhole_text (h w hw)

/-! ## What a template shows of a variant -/

/-- The pattern of the arm: a tuple binds `v0`, `v1` and so on, and a struct its fields. -/
def pattern (w : WrittenVariant) : Text :=
  match w.payload with
  | .unit => w.name
  | .tuple types => w.name ++ "(".toList ++
    listed ((List.range types.length).map fun i => "v".toList ++ Text.ofNat i) ++ ")".toList
  | .struct fields => w.name ++ " \x7b ".toList ++ listed (fields.map (·.member.name)) ++
    " \x7d".toList

/-- The text of the bullet: a tuple shows its types, and a struct its fields. -/
def label (w : WrittenVariant) : Text :=
  match w.payload with
  | .tuple types => w.name ++ "(".toList ++ listed types ++ ")".toList
  | _ => w.pattern

omit hw in
theorem read_pattern : w.read.pattern = w.pattern := by
  obtain ⟨attributes, name, payload⟩ := w
  cases payload with
  | unit | struct fields => rfl
  | tuple types =>
    have hbindings : Variant.bindings types =
        (List.range types.length).map fun i => "v".toList ++ Text.ofNat i := by
      refine List.ext_getElem (by simp [Variant.bindings]) fun i hi _ => ?_
      simp [Variant.bindings]
    rw [pattern]
    dsimp only
    rw [← hbindings]
    rfl

omit hw in
theorem read_label : w.read.label = w.label := by
  obtain ⟨attributes, name, payload⟩ := w
  cases payload <;> rfl

end WrittenVariant

/-! ## Written enums -/

namespace Enum

/-- Variants between the braces of an enum are read back, with a comma behind the last one or not. -/
theorem variants_body {variants : List WrittenVariant} (h : ∀ w ∈ variants, w.IsProper)
    (hne : variants ≠ []) (isTrailing : Bool) :
    ((body (variants.map WrittenVariant.text) isTrailing).entries.map Variant.ofEntry).filter
      (fun v => !v.raw.isEmpty) = variants.map WrittenVariant.read := by
  have hread : (variants.map WrittenVariant.text).map Variant.ofEntry =
      variants.map WrittenVariant.read := by
    rw [List.map_map, List.map_inj_left]
    intro w hw
    exact WrittenVariant.ofEntry_text (h w hw)
  rw [entries_body (by simpa using hne) (WrittenVariant.solid_texts h) (WrittenVariant.isWhole_texts h),
    hread, List.filter_eq_self]
  intro v hv
  obtain ⟨w, hw, rfl⟩ := List.mem_map.1 hv
  simpa [WrittenVariant.read] using (WrittenVariant.solid_bare (h w hw)).nonempty

/-- The example of an enum: a value of the first variant, and a `match` with an arm for every variant. -/
def matchLines (name first : Text) (variants : List WrittenVariant) (module : Text) : List Text :=
  [Example.fence, "use crate::".toList ++ module ++ ";".toList, [],
    "let ".toList ++ name.lower ++ " = ".toList ++ name ++ "::".toList ++ first ++ ";".toList,
    "match ".toList ++ name.lower ++ " \x7b".toList] ++
    variants.map (fun w => "    ".toList ++ name ++ "::".toList ++ w.pattern ++ " => ".toList ++
      w.read.handler ++ ",".toList) ++
    ["\x7d".toList, Example.fence]

/-- The template of an enum: a bullet for every variant, and the `match`. -/
def templateLines (name first : Text) (variants : List WrittenVariant) (hasExample : Bool) :
    List Text :=
  (" ".toList ++ Draft.slotText 1 "Describe this enum.") ::
    (Draft.sectionLines "Variants" variants (fun w => quoted w.label) (fun w => w.read.shown) ++
      if hasExample then Draft.heading "Examples" ++
        matchLines name first variants (Draft.slotText (variants.length + 2 : Nat) "...")
      else []).map ("/// ".toList ++ ·)

theorem blockLines_usage {e : Enum} {variants : List WrittenVariant}
    (hvariants : e.variants = variants.map WrittenVariant.read) (module : Text) :
    e.usage.blockLines module = matchLines e.name e.defaultVariant variants module := by
  simp [usage, Example.blockLines, Example.codeLines, Example.openingFence, matchLines, hvariants,
    WrittenVariant.read_pattern, Function.comp_def]

/-- When no text of an enum with written variants ends a line, these are the lines of its template. -/
theorem lines_draft {e : Enum} (he : ∀ u ∈ e.texts, Over Inline u) {variants : List WrittenVariant}
    (hvariants : e.variants = variants.map WrittenVariant.read) (o : Options) :
    Text.lines (e.draft o).render =
      templateLines e.name e.defaultVariant variants (o.admitsExample e.isExposed) := by
  have hdescription : Over Inline "Describe this enum.".toList := admits_inline.over (by decide)
  have hcomposed := composed_addVariants admits_inline he (.new hdescription)
  have hlines : (e.addVariants (.new "Describe this enum.".toList 2)).lines =
      (" ".toList ++ Draft.slotText 1 "Describe this enum.") ::
        Draft.sectionLines "Variants" variants (fun w => quoted w.label) fun w => w.read.shown := by
    rw [addVariants, Draft.lines_section, hvariants, Draft.sectionLines_map]
    simp only [WrittenVariant.read_label]
  obtain ⟨hhead, hbody⟩ := List.cons.inj hlines
  have hslot : 1 + e.variants.length + 1 = variants.length + 2 := by
    rw [hvariants, List.length_map]
    omega
  rw [draft_eq, hcomposed.lines_switched (sound_usage admits_inline he), hhead, hbody,
    blockLines_usage hvariants, hslot, templateLines]

end Enum

namespace Frame

/-- An enum. -/
def enumText (f : Frame) (variants : List WrittenVariant) (isTrailing : Bool) : Text :=
  f.text .enum (body (variants.map WrittenVariant.text) isTrailing)

/-- Every enum written on one line is read back, and its template covers every variant. -/
theorem reads_enum {f : Frame} (hf : f.IsProper) {first : WrittenVariant}
    {rest : List WrittenVariant} (hvariants : ∀ w ∈ first :: rest, w.IsProper) {isTrailing : Bool}
    (hline : Over Inline (f.enumText (first :: rest) isTrailing)) :
    ∃ e, Enum.parse? (f.enumText (first :: rest) isTrailing) = some e ∧ e.name = f.name ∧
      e.variants = (first :: rest).map WrittenVariant.read ∧ e.defaultVariant = first.name ∧
      ∀ o, ∃ shown, template? .enum (f.enumText (first :: rest) isTrailing) o = some shown ∧
        shown.lines = Enum.templateLines f.name first.name (first :: rest)
          (o.admitsExample (f.enumText (first :: rest) isTrailing).isExposed) := by
  have hsolid := WrittenVariant.solid_texts hvariants
  have hbody : isBalanced (body ((first :: rest).map WrittenVariant.text) isTrailing) = true :=
    isBalanced_body (by simp) hsolid (WrittenVariant.isWhole_texts hvariants) isTrailing
  have hparse := Enum.parse?_text hf hbody hline
    (Enum.variants_body hvariants (by simp) isTrailing) (by simp)
  rw [← enumText] at hparse
  have hfirst : Enum.defaultVariant ⟨f.name, (first :: rest).map WrittenVariant.read,
      (f.enumText (first :: rest) isTrailing).isExposed⟩ = first.name :=
    WrittenVariant.takeWhile_bare (hvariants first (by simp))
  refine ⟨_, hparse, rfl, rfl, hfirst, fun o => ?_⟩
  have htemplate : template? .enum (f.enumText (first :: rest) isTrailing) o = _ :=
    congrArg (Option.map fun e : Enum => (e.draft o).render) hparse
  -- What is shown of a variant is made of the text and of spaces.
  have hspace : Over Inline (' ' :: Enum.uncommented (f.enumText (first :: rest) isTrailing)) :=
    (show Over Inline [' '] from admits_inline.over (by decide)).append (over_uncommented hline)
  have hlines := Enum.lines_draft (fun u hu => hspace.of_subset (Enum.texts_subset hparse hu)) rfl o
  rw [hfirst] at hlines
  exact ⟨_, htemplate, hlines⟩

/-- An enum with a variant of every shape. -/
def segment : Frame where
  visibility := .everywhere
  name := "Segment"
  generics := some "'a, T: Ord".toList
  bounds := none

def segmentVariants : List WrittenVariant :=
  [⟨["doc = \"a, (b\"".toList, "default".toList], "Point", .unit⟩,
    ⟨[], "Line", .tuple ["&'a [T; 2]".toList, "Option<T>".toList]⟩,
    ⟨[], "Curve", .struct [⟨[], .inherited, ⟨"r#type", "(u8, T)"⟩⟩, ⟨[], .inherited, ⟨"len", "usize"⟩⟩]⟩]

def segmentText : Text :=
  "pub enum Segment<'a, T: Ord> \x7b #[doc = \"a, (b\"] #[default] Point, ".toList ++
    "Line(&'a [T; 2], Option<T>), Curve \x7b r#type: (u8, T), len: usize \x7d, \x7d".toList

theorem reads_enum_segment : segment.enumText segmentVariants true = segmentText ∧
    ∃ e, Enum.parse? (segment.enumText segmentVariants true) = some e ∧ e.name = segment.name ∧
      e.variants = segmentVariants.map WrittenVariant.read ∧ e.defaultVariant = "Point".toList ∧
      ∀ o, ∃ shown, template? .enum (segment.enumText segmentVariants true) o = some shown ∧
        shown.lines = Enum.templateLines segment.name "Point" segmentVariants
          (o.admitsExample (segment.enumText segmentVariants true).isExposed) := by
  have hframe : segment.IsProper := by
    constructor
    · rintro scope h
      simp [segment] at h
    · decide +kernel
    · rintro inner h
      obtain rfl : _ = inner := by simpa [segment] using h
      unfold Token.BalancesAtEnd
      decide +kernel
    · rintro bounds h
      simp [segment] at h
  have hvariants : ∀ w ∈ segmentVariants, w.IsProper := by
    intro w hw
    simp only [segmentVariants, List.mem_cons, List.not_mem_nil, or_false] at hw
    rcases hw with rfl | rfl | rfl
    · exact ⟨by decide +kernel, by decide +kernel, List.all_eq_true.1 (by decide), trivial⟩
    · refine ⟨by simp, by decide +kernel, List.all_eq_true.1 (by decide), by simp, fun t ht => ?_⟩
      simp only [List.mem_cons, List.not_mem_nil, or_false] at ht
      rcases ht with rfl | rfl
      · exact ⟨Lexeme.solid_of_ends (d := ']') (by decide) (by decide) rfl, by decide +kernel,
          by decide +kernel, by decide +kernel⟩
      · exact ⟨Lexeme.solid_of_ends (d := '>') (by decide) (by decide) rfl, by decide +kernel,
          by decide +kernel, by decide +kernel⟩
    · refine ⟨by simp, by decide +kernel, List.all_eq_true.1 (by decide), by simp, fun v hv => ?_⟩
      simp only [List.mem_cons, List.not_mem_nil, or_false] at hv
      rcases hv with rfl | rfl
      · exact ⟨⟨by simp, by simp, ⟨by decide +kernel,
          Lexeme.solid_of_ends (d := ')') (by decide) (by decide) rfl, by decide +kernel⟩,
          fun _ => by decide⟩, by decide +kernel⟩
      · exact ⟨⟨by simp, by simp, ⟨by decide +kernel,
          Lexeme.solid_of_ends (d := 'e') (by decide) (by decide) rfl, by decide +kernel⟩,
          fun _ => by decide⟩, by decide +kernel⟩
  have hline : Over Inline (segment.enumText segmentVariants true) := over_inline (by decide +kernel)
  exact ⟨by decide +kernel, reads_enum hframe hvariants hline⟩

/-- Commas inside `<…>` part the types of a tuple, a raw identifier is no plain word, and a `pub` is taken
for a visibility wherever one may stand. -/
theorem misread_enum :
    (Enum.parse? "enum Shape \x7b Map(HashMap<K, V>) \x7d").map Enum.variants =
        some [⟨.tuple ["HashMap<K".toList, "V>".toList], "Map", "Map(HashMap<K, V>)"⟩] ∧
      (Enum.parse? "enum Step \x7b r#move \x7d").map Enum.variants =
        some [⟨.unknown, "r#move", "r#move"⟩] ∧
      (Enum.parse? "enum Flags \x7b Bits \x7b pub: u8 \x7d \x7d").map Enum.variants =
        some [⟨.struct [[]], "Bits", "Bits \x7b pub: u8 \x7d"⟩] ∧
      (Enum.parse? "enum Code \x7b Known(pub u8) \x7d").map Enum.variants =
        some [⟨.tuple ["u8".toList], "Known", "Known(pub u8)"⟩] := by
  decide +kernel

end Frame

end Item

end DocScaffold
