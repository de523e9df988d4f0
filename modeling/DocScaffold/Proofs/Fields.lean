import DocScaffold.Proofs.Frames

/-!
# Named fields

A struct that is written part by part is read back field by field, and its template lists every field
once and in order, also in the literal of its example (`Frame.reads_struct`). Types are read back when
their commas stand inside brackets: a comma inside `<…>` parts a field too.
-/

namespace DocScaffold

open Text

namespace Text

theorem Spaced.solid_append {s t : Text} (hs : Spaced s) (ht : Solid t) : Solid (s ++ t) := by
  refine ⟨by simp [ht.nonempty], fun c hc => ?_, fun c hc => ?_⟩
  · cases s with
    | nil => exact ht.head c hc
    | cons d s => exact hs.head c hc
  · rw [List.getLast?_append_of_ne_nil _ ht.nonempty] at hc
    exact ht.last c hc

theorem Spaced.isWhole_append {s t : Text} (hs : Spaced s) (hwhole : isWhole s = true)
    (ht : Solid t) (htwhole : isWhole t = true) : isWhole (s ++ t) = true :=
  Text.isWhole_append hwhole htwhole (hs.apart ht.head)

end Text

namespace Item

namespace Parameter

/-- A named parameter begins with its name. -/
theorem head_tokens_named {m : Member} (h : (named m).IsProper) :
    (named m).text.tokens.head? = some ⟨.ident, m.name, 0, m.name.length⟩ := by
  obtain ⟨hname, -, -⟩ := h
  have hapart : Apart m.name (':' :: ' ' :: m.type) :=
    Apart.of_head fun x hx => apart_colon (hname.ident_last x hx)
  rw [text, tokens_append (hname.isClosed (by decide)) hapart, tokens_eq_tokensAt, hname.tokensAt]
  simp

end Parameter

/-- A field as it is written. -/
structure WrittenField where
  attributes : List Text
  visibility : Visibility
  member : Member

namespace WrittenField

def text (w : WrittenField) : Text :=
  attributesText w.attributes ++
    (Modifiers.visibilityText w.visibility ++ (Parameter.named w.member).text)

/-- The parts can be told apart: what attributes hold is balanced, a list keeps the type whole, and the
name of a field without a visibility is not taken for one. -/
structure IsProper (w : WrittenField) : Prop where
  attributes : ∀ inner ∈ w.attributes, isBalanced inner = true
  scope : ∀ scope, w.visibility = .within scope → Modifiers.IsScope scope
  member : (Parameter.named w.member).IsProper
  name : w.visibility = .inherited → w.member.name ≠ "pub".toList

variable {w : WrittenField} (hw : w.IsProper)

include hw

theorem solid_bare :
    Solid (Modifiers.visibilityText w.visibility ++ (Parameter.named w.member).text) :=
  (Modifiers.spaced_visibilityText hw.scope).solid_append (Parameter.solid_text hw.member)

/-- Without its attributes a field begins with a word. -/
theorem head_bare : ∀ t ∈ (Modifiers.visibilityText w.visibility ++
    (Parameter.named w.member).text).tokens.head?, t.isPunct ['#'] = false := by
  have hmember := Parameter.head_tokens_named hw.member
  have happ := (Modifiers.spaced_visibilityText hw.scope).tokensAt_append
    (Parameter.solid_text hw.member).head 0
  intro t ht
  rw [tokens_eq_tokensAt, happ, tokensAt_eq_shift (0 + _)] at ht
  cases hv : w.visibility with
  | inherited =>
    have hnil : tokensAt 0 (Modifiers.visibilityText .inherited) = [] := tokensAt_nil 0
    rw [hv, hnil, List.nil_append, List.head?_map, hmember] at ht
    obtain rfl := Option.mem_some_iff.1 ht
    rfl
  | everywhere =>
    rw [hv, Modifiers.tokensAt_everywhere] at ht
    obtain rfl : _ = t := by simpa using ht
    rfl
  | within scope =>
    rw [hv, Modifiers.tokensAt_within (hw.scope scope hv)] at ht
    obtain rfl : _ = t := by simpa using ht
    rfl

theorem solid_text : Solid w.text :=
  (spaced_attributesText hw.attributes).solid_append (solid_bare hw)

theorem isWhole_text : isWhole w.text = true := by
  have hbare := (Modifiers.spaced_visibilityText hw.scope).isWhole_append
    (Modifiers.isWhole_visibilityText hw.scope) (Parameter.solid_text hw.member)
    (Parameter.isWhole_text hw.member)
  exact (spaced_attributesText hw.attributes).isWhole_append (isWhole_attributesText hw.attributes)
    (solid_bare hw) hbare

omit hw in
theorem solid_texts {fields : List WrittenField} (h : ∀ w ∈ fields, w.IsProper) :
    ∀ p ∈ fields.map text, Solid p :=
  List.forall_mem_map.2 fun w hw => solid_text (h w hw)

omit hw in
theorem isWhole_texts {fields : List WrittenField} (h : ∀ w ∈ fields, w.IsProper) :
    ∀ p ∈ fields.map text, isWhole p = true :=
  List.forall_mem_map.2 fun w hw => isWhole_text (h w hw)

/-- A written field is read back. -/
theorem ofEntry_text : Member.ofEntry w.text.withoutAttributes.withoutVisibility = w.member := by
  have hmember := Parameter.head_tokens_named hw.member
  have hvisibility := Modifiers.withoutVisibility_text hw.scope (Parameter.solid_text hw.member)
    (fun _ => Modifiers.beginsScope_of_ident fun t ht => by
      rw [hmember] at ht
      obtain rfl := Option.mem_some_iff.1 ht
      rfl)
    (fun hv t ht => by
      rw [hmember] at ht
      obtain rfl := Option.mem_some_iff.1 ht
      simpa [Token.isIdent] using hw.name hv)
  rw [text, withoutAttributes_text hw.attributes (solid_bare hw) (head_bare hw), hvisibility,
    Parameter.ofEntry_text hw.member]

end WrittenField

namespace Struct

/-- Fields between the braces of a struct are read back, with a comma behind the last one or not. -/
theorem namedFields_body {fields : List WrittenField} (h : ∀ w ∈ fields, w.IsProper)
    (hne : fields ≠ []) (isTrailing : Bool) :
    namedFields (body (fields.map WrittenField.text) isTrailing) =
      fields.map WrittenField.member := by
  have hread : (fields.map WrittenField.text).map
      (fun entry => Member.ofEntry entry.withoutAttributes.withoutVisibility) =
        fields.map WrittenField.member := by
    rw [List.map_map, List.map_inj_left]
    intro w hw
    exact WrittenField.ofEntry_text (h w hw)
  rw [namedFields, entries_body (by simpa using hne) (WrittenField.solid_texts h)
    (WrittenField.isWhole_texts h), hread, List.filter_eq_self]
  intro m hm
  obtain ⟨w, hw, rfl⟩ := List.mem_map.1 hm
  obtain ⟨hname, htype, -⟩ := (h w hw).member
  simp [hname.ident_ne_nil, htype.nonempty]

/-! ## The template -/

/-- The example of a struct with named fields: a literal with the name of every field. -/
def literalLines (name : Text) (fields : List Member) (module : Text) : List Text :=
  [Example.fence, "use crate::".toList ++ module ++ ";".toList, [],
    "let s = ".toList ++ name ++ " \x7b".toList] ++
    fields.map (fun m => "    ".toList ++ m.name ++ ": value,".toList) ++
    ["\x7d;".toList, Example.fence]

/-- The template of a struct with named fields: a bullet for every field, and the literal. -/
def templateLines (name : Text) (fields : List Member) (hasExample : Bool) : List Text :=
  (" ".toList ++ Draft.slotText 1 "Describe this struct.") ::
    (Draft.sectionLines "Fields" fields Member.label (fun _ => "Describe this field.") ++
      if hasExample then Draft.heading "Examples" ++
        literalLines name fields (Draft.slotText (fields.length + 2 : Nat) "...")
      else []).map ("/// ".toList ++ ·)

theorem blockLines_usage {t : Struct} (htuple : t.isTuple = false) (module : Text) :
    t.usage.blockLines module = literalLines t.name t.fields module := by
  rw [usage, htuple, Example.blockLines, literalLines, Example.codeLines, List.map_map]
  simp [Example.openingFence, Function.comp_def]

/-- When no text of a struct with named fields ends a line, these are the lines of its template. -/
theorem lines_draft {t : Struct} (ht : ∀ u ∈ t.texts, Over Inline u) (htuple : t.isTuple = false)
    (hne : t.fields ≠ []) (o : Options) : Text.lines (t.draft o).render =
      templateLines t.name t.fields (!o.gateStructExamples || o.admitsExample t.isExposed) := by
  have hdescription : Over Inline "Describe this struct.".toList := admits_inline.over (by decide)
  have hcomposed := composed_addFields admits_inline ht (.new hdescription)
  have hlines : (t.addFields (.new "Describe this struct.".toList 2)).lines =
      (" ".toList ++ Draft.slotText 1 "Describe this struct.") ::
        Draft.sectionLines "Fields" t.fields Member.label fun _ => "Describe this field." := by
    rw [addFields, htuple, if_neg (by simpa using hne)]
    exact Draft.lines_section _ _ _ _ _
  obtain ⟨hhead, hbody⟩ := List.cons.inj hlines
  have hslot : 1 + t.fields.length + 1 = t.fields.length + 2 := by omega
  rw [draft_eq, hcomposed.lines_switched (sound_usage ht), hhead, hbody, blockLines_usage htuple, hslot,
    templateLines]

end Struct

namespace Frame

/-- A struct with named fields. -/
def structText (f : Frame) (fields : List WrittenField) (isTrailing : Bool) : Text :=
  f.text .struct (body (fields.map WrittenField.text) isTrailing)

/-- Every struct written on one line is read back, and documented field by field. -/
theorem reads_struct {f : Frame} (hf : f.IsProper) {fields : List WrittenField}
    (hfields : ∀ w ∈ fields, w.IsProper) (hne : fields ≠ []) {isTrailing : Bool}
    (hline : Over Inline (f.structText fields isTrailing)) :
    ((∀ i, Function.beginsAt (f.structText fields isTrailing).tokens i = false) →
      Class.of (f.structText fields isTrailing) = .documented .struct) ∧
    ∃ t, Struct.parse? (f.structText fields isTrailing) = some t ∧ t.name = f.name ∧
      t.isTuple = false ∧ t.fields = fields.map WrittenField.member ∧
      ∀ o, ∃ shown, template? .struct (f.structText fields isTrailing) o = some shown ∧
        shown.lines = Struct.templateLines f.name (fields.map WrittenField.member)
          (!o.gateStructExamples || o.admitsExample (f.structText fields isTrailing).isExposed) := by
  have htexts : fields.map WrittenField.text ≠ [] := by simpa using hne
  have hsolid := WrittenField.solid_texts hfields
  have hbody : isBalanced (body (fields.map WrittenField.text) isTrailing) = true :=
    isBalanced_body htexts hsolid (WrittenField.isWhole_texts hfields) isTrailing
  have hparse := Struct.parse?_text hf hbody (trim_body htexts hsolid isTrailing)
  rw [Struct.namedFields_body hfields hne, ← structText] at hparse
  refine ⟨Class.of_text hf hbody, _, hparse, rfl, rfl, rfl, fun o => ?_⟩
  have htemplate : template? .struct (f.structText fields isTrailing) o = _ :=
    congrArg (Option.map fun t : Struct => (t.draft o).render) hparse
  -- What is shown of the struct is in its text or a word, so it ends no line.
  refine ⟨_, htemplate, Struct.lines_draft (fun u hu c hc => ?_) rfl (by simpa using hne) o⟩
  rcases Struct.mem_of_mem_texts hparse hu hc with hmem | hword
  · exact hline c hmem
  · exact admits_inline.of_unreserved c (isReserved_of_isWord hword)

/-- A struct with a part of every kind. -/
def cache : Frame where
  visibility := .within "crate"
  name := "Cache"
  generics := some "'a, K: Ord".toList
  bounds := some "K: Clone, ".toList

def cacheFields : List WrittenField :=
  [⟨["serde(rename = \"a, b\")".toList, "doc(hidden)".toList], .within "in crate::net",
    ⟨"pair", "(u8, [K; 4])"⟩⟩, ⟨[], .inherited, ⟨"r#type", "&'a Option<K>"⟩⟩]

def cacheText : Text :=
  "pub(crate) struct Cache<'a, K: Ord> where K: Clone, \x7b #[serde(rename = \"a, b\")] ".toList ++
    "#[doc(hidden)] pub(in crate::net) pair: (u8, [K; 4]), r#type: &'a Option<K>, \x7d".toList

theorem reads_struct_cache : cache.structText cacheFields true = cacheText ∧
    Class.of (cache.structText cacheFields true) = .documented .struct ∧
    ∃ t, Struct.parse? (cache.structText cacheFields true) = some t ∧ t.name = cache.name ∧
      t.isTuple = false ∧ t.fields = cacheFields.map WrittenField.member ∧
      ∀ o, ∃ shown, template? .struct (cache.structText cacheFields true) o = some shown ∧
        shown.lines = Struct.templateLines cache.name (cacheFields.map WrittenField.member)
          (!o.gateStructExamples || o.admitsExample (cache.structText cacheFields true).isExposed) := by
  have hframe : cache.IsProper := by
    constructor
    · rintro scope h
      obtain rfl : _ = scope := by simpa [cache] using h
      left
      decide
    · decide +kernel
    · rintro inner h
      obtain rfl : _ = inner := by simpa [cache] using h
      unfold Token.BalancesAtEnd
      decide +kernel
    · rintro bounds h
      obtain rfl : _ = bounds := by simpa [cache] using h
      exact ⟨⟨by decide +kernel, by simp; decide, by simp⟩, by decide +kernel⟩
  have hfields : ∀ w ∈ cacheFields, w.IsProper := by
    intro w hw
    simp only [cacheFields, List.mem_cons, List.not_mem_nil, or_false] at hw
    rcases hw with rfl | rfl
    · refine ⟨by decide +kernel, ?_, ⟨by decide +kernel, ?_, by decide +kernel⟩, by simp⟩
      · rintro scope h
        obtain rfl : _ = scope := by simpa using h
        right
        refine ⟨⟨false, "crate", ["net".toList]⟩, ?_, by decide⟩
        intro segment hsegment
        simp only [List.mem_cons, List.not_mem_nil, or_false] at hsegment
        rcases hsegment with rfl | rfl <;> decide +kernel
      · exact Lexeme.solid_of_ends (d := ')') (by decide) (by decide) rfl
    · refine ⟨by simp, by simp, ⟨by decide +kernel, ?_, by decide +kernel⟩, fun _ => by decide⟩
      exact Lexeme.solid_of_ends (d := '>') (by decide) (by decide) rfl
  have hline : Over Inline (cache.structText cacheFields true) := over_inline (by decide +kernel)
  obtain ⟨hclass, hread⟩ := reads_struct hframe hfields (by simp [cacheFields]) hline
  refine ⟨by decide +kernel, hclass fun i => ?_, hread⟩
  have hwithin : ∀ i < (cache.structText cacheFields true).tokens.length,
      Function.beginsAt (cache.structText cacheFields true).tokens i = false := by
    decide +kernel
  exact (Nat.lt_or_ge i _).elim (hwithin i) Function.beginsAt_of_length_le

/-- Commas inside `<…>` part fields, and a field named `pub` is taken for a visibility. -/
theorem misread_struct :
    (Struct.parse? "struct Index \x7b map: HashMap<K, V> \x7d").map Struct.fields =
        some [⟨"map", "HashMap<K"⟩] ∧
      (Struct.parse? "struct Flags \x7b pub: u8 \x7d").map Struct.fields = some [] := by
  decide +kernel

end Frame

end Item

end DocScaffold
