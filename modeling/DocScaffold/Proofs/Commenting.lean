import DocScaffold.Proofs.Agreement
import DocScaffold.Proofs.Drafting

/-!
# Templates are comments

A signature is one line with single spaces, so no text of the declaration ends a line of its template.
Every line of the template is then one that was added, with its `///` in front, and of these only the
first and the last line of an example are fences (`commented_of_search`).
-/

namespace DocScaffold

open Text

namespace Text

/-! ## Single spaces -/

/-- Every blank is a space with no blank beside it, and none is at an end. -/
def IsSingleSpaced (s : Text) : Prop :=
  ∀ before c after, s = before ++ c :: after → isBlank c = true →
    c = ' ' ∧ (∃ b ∈ before.getLast?, isBlank b = false) ∧ ∃ a ∈ after.head?, isBlank a = false

theorem isChain_squeeze (s : Text) :
    (squeeze s).IsChain fun c d => isBlank c = true → isBlank d = false := by
  induction s with
  | nil => exact .nil
  | cons c s ih =>
    cases hc : isBlank c with
    | false =>
      rw [squeeze_cons hc, List.isChain_cons]
      refine ⟨fun d _ hblank => ?_, ih⟩
      rw [hc] at hblank
      exact absurd hblank (by decide)
    | true =>
      cases hs : s.head?.any isBlank with
      | true => rwa [squeeze_blank_blank hc hs]
      | false =>
        rw [squeeze_blank hc hs, List.isChain_cons]
        refine ⟨fun d hd _ => ?_, ih⟩
        have hany := any_head?_squeeze s
        rw [hs, hd] at hany
        exact hany

theorem isSingleSpaced_squeeze {s : Text} (h : Solid (squeeze s)) : IsSingleSpaced (squeeze s) := by
  intro before c after hs hc
  have hchain := isChain_squeeze s
  rw [hs, List.isChain_append, List.isChain_cons] at hchain
  rw [hs] at h
  obtain ⟨-, ⟨hafter, -⟩, hbefore⟩ := hchain
  refine ⟨?_, ?_, ?_⟩
  · have hmem : c ∈ squeeze s := by
      rw [hs]
      simp
    refine (mem_squeeze hmem).resolve_left fun hnot => ?_
    rw [hc] at hnot
    exact absurd hnot (by decide)
  · cases hlast : before.getLast? with
    | none =>
      have hhead := h.head c (by rw [List.getLast?_eq_none_iff.1 hlast]; rfl)
      rw [hc] at hhead
      exact absurd hhead (by decide)
    | some b =>
      refine ⟨b, rfl, ?_⟩
      cases hb : isBlank b with
      | false => rfl
      | true => rw [← hbefore b hlast c rfl hb, hc]
  · cases hhead : after.head? with
    | none =>
      have hend := h.last c (by rw [List.head?_eq_none_iff.1 hhead]; simp)
      rw [hc] at hend
      exact absurd hend (by decide)
    | some a => exact ⟨a, rfl, hafter a hhead hc⟩

/-! ## Lines without breaks -/

/-- The characters that do not end a line. -/
abbrev Inline (c : Char) : Prop := isLineBreak c = false

theorem admits_inline : Admits Inline := by
  refine ⟨fun c hc => ?_⟩
  cases hbreak : isLineBreak c with
  | false => exact hbreak
  | true =>
    rw [isReserved_of_isLineBreak hbreak] at hc
    exact absurd hc (by decide)

theorem over_inline {s : Text} (h : (s.all fun c => !isLineBreak c) = true) : Over Inline s := by
  intro c hc
  simpa using List.all_eq_true.1 h c hc

theorem lines_cons {c : Char} (hc : Inline c) {s l : Text} {ls : List Text}
    (hs : lines s = l :: ls) : lines (c :: s) = (c :: l) :: ls := by
  have hreturn : c ≠ '\r' := by
    rintro rfl
    exact absurd hc (by decide)
  rw [lines.eq_3 c s fun rest hr _ => hreturn hr, if_neg (by simp [hc]), hs]

theorem lines_break {l : Text} (h : Over Inline l) (rest : Text) :
    lines (l ++ '\n' :: rest) = l :: lines rest := by
  induction l with
  | nil =>
    rw [List.nil_append, lines.eq_3 '\n' rest fun _ hr _ => absurd hr (by decide),
      if_pos (by decide)]
  | cons c l ih => exact lines_cons (h c (by simp)) (ih fun d hd => h d (by simp [hd]))

theorem lines_intercalate {ls : List Text} (h : ∀ l ∈ ls, Over Inline l)
    (hlast : ∀ l ∈ ls.getLast?, l ≠ []) : lines (List.intercalate ['\n'] ls) = ls := by
  induction ls with
  | nil => rfl
  | cons l ls ih =>
    cases ls with
    | nil =>
      rw [List.intercalate_singleton]
      exact lines_of_one (hlast l rfl) (h l (by simp))
    | cons m ls =>
      rw [List.intercalate_cons_cons, List.append_assoc, List.singleton_append,
        lines_break (h l (by simp)), ih (fun n hn => h n (by simp [hn])) hlast]

end Text

/-- On one line nothing is joined when the comments are taken out. -/
theorem over_uncommented {s : Text} (h : Over Inline s) : Over Inline (Item.Enum.uncommented s) := by
  rw [Item.Enum.uncommented_of_one h]
  exact h.of_subset (List.Subset.trans (trim_subset _) (beforeLineComment_subset s))

/-! ## Lines of a template -/

namespace Draft

theorem over_slotText {shown : Text} (n : Nat) (h : Over Inline shown) :
    Over Inline (slotText n shown) := by
  have hdigits : Over Inline (Text.ofInt n) := by
    rw [Text.ofInt, if_neg (by omega), Int.natAbs_natCast]
    exact admits_inline.over_ofNat n
  have hopening : Over Inline "$\x7b".toList := over_inline (by decide)
  exact (((hopening.append hdigits).append (admits_inline.over (by decide))).append h).append
    (admits_inline.over (by decide))

/-- Whatever is added before the example is no part of one. -/
theorem Composed.ordinary {d : Draft} {n : Nat} (hd : Composed Inline d n) :
    Over Inline d.headLine ∧ ∀ l ∈ d.body, Ordinary Inline l := by
  induction hd with
  | new h => exact ⟨(admits_inline.over (by decide)).append (over_slotText 1 h), by simp [Draft.new]⟩
  | add hd h ih =>
    refine ⟨ih.1, fun l hl => ?_⟩
    rcases List.mem_append.1 hl with hl | hl
    · exact ih.2 l hl
    · exact h l hl
  | @slot d n front shown hd hfront hhead hshown ih =>
    refine ⟨ih.1, fun l hl => ?_⟩
    rcases List.mem_append.1 hl with hl | hl
    · exact ih.2 l hl
    · obtain rfl := List.mem_singleton.1 hl
      have hslot : Over Inline (d.placeholder shown).1 := by
        rw [show (d.placeholder shown).1 = slotText d.nextSlot shown from rfl, hd.nextSlot_eq]
        exact over_slotText (n + 1) hshown
      have hfirst : ∀ c ∈ (front ++ (d.placeholder shown).1).head?, c ≠ '`' ∧ c ≠ '#' := by
        cases front with
        | nil =>
          intro c hc
          obtain rfl : '$' = c := by simpa [placeholder, reserve, slotText] using hc
          decide
        | cons c front => exact hhead
      refine ⟨hfront.append hslot, fun hfence => (hfirst _ hfence).1 rfl, fun htitle => ?_⟩
      rw [htitle] at hfirst
      exact (hfirst '#' rfl).2 rfl

theorem over_blockLines {x : Example} (hx : x.Sound Inline) {module : Text}
    (hmodule : Over Inline module) : ∀ l ∈ x.blockLines module, Over Inline l := by
  intro l hl
  simp only [Example.blockLines, List.mem_append, List.mem_cons, List.not_mem_nil, or_false] at hl
  rcases hl with ((rfl | rfl | rfl) | hl) | rfl
  · unfold Example.openingFence
    split
    · split <;> exact admits_inline.over (by decide)
    · exact admits_inline.over (by decide)
  · exact ((admits_inline.over (by decide)).append hmodule).append (admits_inline.over (by decide))
  · exact over_nil
  · exact (hx.codeLine admits_inline hl).1
  · exact admits_inline.over (by decide)

/-- Nothing that is put into an example ends a line. -/
theorem lines_example {x : Example} (hx : x.Sound Inline) {module : Text}
    (hmodule : Over Inline module) : x.lines module = x.blockLines module := by
  rw [Example.lines, Example.text_eq, lines_intercalate (over_blockLines hx hmodule)]
  intro l hl
  rw [Example.blockLines, List.getLast?_concat, Option.mem_some_iff] at hl
  subst hl
  decide

/-- The lines of a template are the lines of its draft, the first one without a `///` of its own. -/
theorem lines_render {d : Draft} (hhead : Over Inline d.headLine) (hbody : ∀ l ∈ d.body, Over Inline l) :
    Text.lines d.render = d.headLine :: d.body.map ("/// ".toList ++ ·) := by
  apply lines_intercalate
  · intro l hl
    rcases List.mem_cons.1 hl with rfl | hl
    · exact hhead
    · obtain ⟨line, hline, rfl⟩ := List.mem_map.1 hl
      exact (admits_inline.over (by decide)).append (hbody line hline)
  · intro l hl
    rcases List.mem_cons.1 (List.mem_of_getLast? hl) with rfl | hl
    · simp [headLine]
    · obtain ⟨line, -, rfl⟩ := List.mem_map.1 hl
      simp

end Draft

/-! ## Comments -/

namespace Text

/-- What may stand behind a `///`: a first line with the description, and comment lines. -/
structure IsComment (text : Text) : Prop where
  breaks : ∀ c ∈ text, isLineBreak c = true → c = '\n'
  lines : ∃ first rest, Text.lines text = first :: rest ∧
    first.startsWith " $\x7b1:" = true ∧ ∀ l ∈ rest, l.startsWith "/// " = true

/-- A comment line that opens or closes a block of code. -/
def isFence (l : Text) : Bool := l.startsWith "/// ```"

/-- The heading of the examples. -/
def exampleHeading : Text := "/// # Examples"

end Text

namespace Draft

theorem isComment_render {d : Draft} (hhead : Over Inline d.headLine)
    (hbody : ∀ l ∈ d.body, Over Inline l) : d.render.IsComment := by
  refine ⟨fun c hc hbreak => ?_, _, _, lines_render hhead hbody, ?_, ?_⟩
  · have hnot : ¬ Inline c := by simp [hbreak]
    rcases mem_intercalate hc with hc | ⟨l, hl, hc⟩
    · exact List.mem_singleton.1 hc
    · rcases List.mem_cons.1 hl with rfl | hl
      · exact absurd (hhead c hc) hnot
      · obtain ⟨line, hline, rfl⟩ := List.mem_map.1 hl
        have hover : Over Inline ("/// ".toList ++ line) :=
          (admits_inline.over (by decide)).append (hbody line hline)
        exact absurd (hover c hc) hnot
  · have hhead : d.headLine = " $\x7b1:".toList ++ (d.description ++ "\x7d".toList) := by
      rw [headLine, slotText, List.append_assoc]
      rfl
    rw [hhead, startsWith, List.isPrefixOf_iff_prefix]
    exact List.prefix_append _ _
  · intro l hl
    obtain ⟨line, -, rfl⟩ := List.mem_map.1 hl
    rw [startsWith, List.isPrefixOf_iff_prefix]
    exact List.prefix_append _ _

theorem countP_isFence {d : Draft} (hhead : Over Inline d.headLine)
    (hbody : ∀ l ∈ d.body, Over Inline l) :
    (Text.lines d.render).countP isFence = d.body.countP (·.startsWith "```") := by
  have hfirst : isFence d.headLine = false := rfl
  rw [lines_render hhead hbody, List.countP_cons_of_neg (by simp [hfirst]), List.countP_map]
  rfl

theorem mem_exampleHeading {d : Draft} (hhead : Over Inline d.headLine)
    (hbody : ∀ l ∈ d.body, Over Inline l) :
    exampleHeading ∈ Text.lines d.render ↔ "# Examples".toList ∈ d.body := by
  have hfirst : exampleHeading ≠ d.headLine := by
    intro h
    have hfirst : some '/' = some ' ' := congrArg List.head? h
    exact absurd hfirst (by decide)
  have htitle : exampleHeading = "/// ".toList ++ "# Examples".toList := by decide
  rw [lines_render hhead hbody, List.mem_cons, or_iff_right hfirst, htitle]
  exact List.mem_map_of_injective (List.append_right_injective _)

theorem not_fence {l : Text} (h : l.head? ≠ some '`') : l.startsWith "```" = false := by
  cases hfence : l.startsWith "```" with
  | false => rfl
  | true =>
    obtain ⟨rest, rfl⟩ := List.isPrefixOf_iff_prefix.1 hfence
    exact absurd rfl h

theorem Composed.countP_fence {d : Draft} {n : Nat} (hd : d.Composed Inline n) :
    d.body.countP (·.startsWith "```") = 0 := by
  rw [List.countP_eq_zero]
  intro l hl
  rw [not_fence (hd.ordinary.2 l hl).head]
  decide

/-- The block of an example is opened and closed, and nothing in it is a fence. -/
theorem countP_fence_blockLines {x : Example} (hx : x.Sound Inline) (module : Text) :
    (x.blockLines module).countP (·.startsWith "```") = 2 := by
  have hcode : x.codeLines.countP (·.startsWith "```") = 0 := by
    rw [List.countP_eq_zero]
    intro l hl
    rw [not_fence (hx.codeLine admits_inline hl).2]
    decide
  have hopening : x.openingFence.startsWith "```" = true := by
    unfold Example.openingFence
    split
    · split <;> decide
    · decide
  have hmodule : startsWith ("use crate::".toList ++ module ++ ";".toList) "```" = false :=
    not_fence (by simp)
  have hclosing : startsWith Example.fence "```" = true := by decide
  rw [Example.blockLines, List.countP_append, List.countP_append, hcode]
  simp only [List.countP_cons, List.countP_nil, hopening, hmodule, hclosing]
  rfl

/-- The lines that an example adds, with the slot of its module. -/
def exampleLines (slot : Nat) : Option Example → List Text
  | some x => heading "Examples" ++ x.blockLines (slotText slot "...")
  | none => []

theorem Composed.finished {d : Draft} {n : Nat} {e : Option Example} (hd : d.Composed Inline n)
    (he : ∀ x ∈ e, x.Sound Inline) : Over Inline (d.finish e).headLine ∧
      (d.finish e).body = d.body ++ exampleLines (n + 1) e ∧ ∀ l ∈ (d.finish e).body, Over Inline l := by
  obtain ⟨hhead, hordinary⟩ := hd.ordinary
  have hbody : ∀ l ∈ d.body, Over Inline l := fun l hl => (hordinary l hl).chars
  cases e with
  | none => exact ⟨hhead, (List.append_nil _).symm, hbody⟩
  | some x =>
    have hx := he x rfl
    have hmodule : Over Inline (slotText (n + 1 : Nat) "...".toList) :=
      over_slotText (n + 1) (admits_inline.over (by decide))
    have hadded : (d.addExample x).body = d.body ++ exampleLines (n + 1) (some x) := by
      have hlines := lines_addExample d x
      rw [hd.nextSlot_eq, lines_example hx hmodule] at hlines
      exact (List.cons.inj hlines).2
    refine ⟨hhead, hadded, fun l hl => ?_⟩
    rw [finish, hadded, exampleLines, List.mem_append, List.mem_append] at hl
    rcases hl with hl | hl | hl
    · exact hbody l hl
    · have hall : ((heading "Examples".toList).all fun l => l.all fun c => !isReserved c) = true := by
        decide
      exact admits_inline.over (List.all_eq_true.1 hall l hl)
    · exact over_blockLines hx hmodule l hl

/-- The lines of a template, its example included. -/
theorem Composed.lines_finish {d : Draft} {n : Nat} {e : Option Example} (hd : d.Composed Inline n)
    (he : ∀ x ∈ e, x.Sound Inline) : Text.lines (d.finish e).render =
      d.headLine :: (d.body ++ exampleLines (n + 1) e).map ("/// ".toList ++ ·) := by
  obtain ⟨hhead, hadded, hbody⟩ := hd.finished he
  have hsame : (d.finish e).headLine = d.headLine := by
    cases e <;> rfl
  rw [lines_render hhead hbody, hadded, hsame]

/-- The lines of a template with an example under a switch. -/
theorem Composed.lines_switched {d : Draft} {n : Nat} {x : Example} (hd : d.Composed Inline n)
    (hx : x.Sound Inline) (isShown : Bool) :
    Text.lines (d.finish (if isShown then some x else none)).render =
      d.headLine :: (d.body ++ if isShown then
        heading "Examples" ++ x.blockLines (slotText (n + 1 : Nat) "...") else []).map
          ("/// ".toList ++ ·) := by
  cases isShown with
  | false => exact hd.lines_finish (by simp)
  | true => exact hd.lines_finish fun y hy => Option.mem_some_iff.1 hy ▸ hx

theorem Composed.commented {d : Draft} {n : Nat} {e : Option Example} (hd : d.Composed Inline n)
    (he : ∀ x ∈ e, x.Sound Inline) : (d.finish e).render.IsComment ∧
      (Text.lines (d.finish e).render).countP isFence =
        if exampleHeading ∈ Text.lines (d.finish e).render then 2 else 0 := by
  obtain ⟨hhead, hadded, hbody⟩ := hd.finished he
  refine ⟨isComment_render hhead hbody, ?_⟩
  have htitle : "# Examples".toList ∉ d.body := fun hmem => (hd.ordinary.2 _ hmem).title rfl
  rw [countP_isFence hhead hbody, hadded, List.countP_append, hd.countP_fence]
  cases e with
  | none =>
    rw [if_neg fun hmem => htitle ?_]
    · rfl
    · rwa [mem_exampleHeading hhead hbody, hadded, exampleLines, List.append_nil] at hmem
  | some x =>
    have hheading : (heading "Examples".toList).countP (·.startsWith "```") = 0 := by decide
    rw [if_pos, exampleLines, List.countP_append, hheading, countP_fence_blockLines (he x rfl)]
    rw [mem_exampleHeading hhead hbody, hadded, exampleLines]
    exact List.mem_append_right _ (List.mem_append_left _ (by decide))

end Draft

namespace Generator

/-- Behind any cursor, the declaration found is one line with single spaces, and its template is a
comment whose only code is that of its examples, in one closed block. -/
theorem commented_of_search (lines : List Text) (cursor : Nat) :
    (∀ d, Declaration.search lines cursor = .found d →
      Solid d.signature ∧ d.signature.IsSingleSpaced) ∧
    ∀ (g : Generator) (o : Options) (kind : Item.Kind) (text : Text),
      g.documentBehind lines cursor o = some (.template kind text) →
        text.IsComment ∧
        text.lines.countP isFence = if exampleHeading ∈ text.lines then 2 else 0 := by
  have hsignature : ∀ d, Declaration.search lines cursor = .found d →
      Solid d.signature ∧ ∃ s, d.signature = squeeze s := by
    intro d hfound
    obtain ⟨heq, hsolid⟩ := Declaration.signature_eq_squeeze hfound
    exact ⟨hsolid, _, heq⟩
  refine ⟨fun d hfound => ?_, fun g o kind text htemplate => ?_⟩
  · obtain ⟨hsolid, s, heq⟩ := hsignature d hfound
    refine ⟨hsolid, ?_⟩
    rw [heq] at hsolid ⊢
    exact isSingleSpaced_squeeze hsolid
  · rw [documentBehind, Option.map_eq_some_iff] at htemplate
    obtain ⟨d, hd, hdocument⟩ := htemplate
    have hfound : Declaration.search lines cursor = .found d := by
      cases hsought : Declaration.search lines cursor with
      | found declaration =>
        rw [hsought] at hd
        exact congrArg _ (Option.some.inj hd)
      | stopped index | exhausted =>
        rw [hsought] at hd
        exact absurd hd (by simp [Declaration.Sought.declaration?])
    obtain ⟨-, s, heq⟩ := hsignature d hfound
    have hover : Over Inline d.signature := by
      rw [heq]
      exact fun c hc => isLineBreak_squeeze hc
    obtain ⟨-, -, hshown⟩ := document_eq_template.1 hdocument
    obtain ⟨draft, n, e, hdraft, he, -, rfl⟩ :=
      Item.exists_composed admits_inline hover (over_uncommented hover) hshown
    exact hdraft.commented he

/-- An enum whose lines hold separators of other lines. -/
def brokenLines : List Text := [
  "///", "pub enum Shape \x7b", "    Circle(f64),\u2028 Square \x7b side:\u000b f64 \x7d", "\x7d"]

def shapeSignature : Text := "pub enum Shape \x7b Circle(f64), Square \x7b side: f64 \x7d \x7d"

theorem commented_of_search_shape :
    (Solid shapeSignature ∧ shapeSignature.IsSingleSpaced) ∧
    ∃ text, full.documentBehind brokenLines 0 {} = some (.template .enum text) ∧
      text.IsComment ∧ text.lines.countP isFence = 2 := by
  have hfound : Declaration.search brokenLines 0 = .found ⟨shapeSignature, .enum, 1, 3⟩ := by
    decide +kernel
  have hclass : Item.Class.of shapeSignature = .documented .enum := by
    decide +kernel
  have hheading : (Item.template? .enum shapeSignature {}).any (exampleHeading ∈ lines ·) = true := by
    decide +kernel
  obtain ⟨text, htext, hexample⟩ := (Option.any_eq_true _ _).1 hheading
  have htemplate : full.documentBehind brokenLines 0 {} = some (.template .enum text) := by
    rw [documentBehind_of_found hfound, document_eq_template.2 ⟨hclass, rfl, htext⟩]
  obtain ⟨hsignature, hcomment⟩ := commented_of_search brokenLines 0
  obtain ⟨htext, hfences⟩ := hcomment full {} .enum text htemplate
  rw [if_pos (by simpa using hexample)] at hfences
  exact ⟨hsignature _ hfound, text, htemplate, htext, hfences⟩

end Generator

end DocScaffold
