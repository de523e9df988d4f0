import Mathlib.Data.List.Induction
import DocScaffold.Proofs.Pieces
import DocScaffold.Proofs.Segments

/-!
# Texts with other blanks between their lexemes

Two texts are reflows of each other when they have the same lexemes but for the blanks, quotes without a
partner and stray characters included. Attributes are taken off both alike (`Reflows.withoutAttributes`),
and both hold as many entries, since entries are counted by the lexemes that are no blanks
(`length_entries`).
-/

namespace DocScaffold

open Text

namespace Lexeme

/-- The lexemes that are no blanks. -/
def unspaced (ls : List Lexeme) : List Lexeme := ls.filter fun l => l.kind != .blank

theorem unspaced_append (ls ms : List Lexeme) : unspaced (ls ++ ms) = unspaced ls ++ unspaced ms :=
  List.filter_append ..

theorem unspaced_cons {l : Lexeme} (h : l.kind ≠ .blank) (ls : List Lexeme) :
    unspaced (l :: ls) = l :: unspaced ls :=
  List.filter_cons_of_pos (by simpa using h)

theorem unspaced_cons_of_blank {l : Lexeme} (h : l.kind = .blank) (ls : List Lexeme) :
    unspaced (l :: ls) = unspaced ls :=
  List.filter_cons_of_neg (by simp [h])

theorem unspaced_eq_nil_iff {ls : List Lexeme} : unspaced ls = [] ↔ ∀ l ∈ ls, l.kind = .blank := by
  simp [unspaced]

theorem mem_unspaced {ls : List Lexeme} {l : Lexeme} : l ∈ unspaced ls ↔ l ∈ ls ∧ l.kind ≠ .blank := by
  simp [unspaced]

/-- What holds of every blank holds of all lexemes when it holds of the others. -/
theorem forall_unspaced {P : Lexeme → Prop} (hblank : ∀ l : Lexeme, l.kind = .blank → P l)
    {ls : List Lexeme} : (∀ l ∈ unspaced ls, P l) ↔ ∀ l ∈ ls, P l := by
  constructor
  · intro h l hl
    by_cases hkind : l.kind = .blank
    · exact hblank l hkind
    · exact h l (mem_unspaced.2 ⟨hl, hkind⟩)
  · exact fun h l hl => h l (mem_unspaced.1 hl).1

/-- A lexeme that is no blank divides the lexemes as it divides those that are no blanks. -/
theorem exists_of_unspaced {ls as bs : List Lexeme} {m : Lexeme} (h : unspaced ls = as ++ m :: bs) :
    ∃ front back, ls = front ++ m :: back ∧ unspaced front = as ∧ unspaced back = bs := by
  obtain ⟨front, rest, rfl, hfront, hrest⟩ := List.filter_eq_append_iff.1 h
  obtain ⟨blanks, back, rfl, hblanks, -, hback⟩ := List.filter_eq_cons_iff.1 hrest
  refine ⟨front ++ blanks, back, by simp, ?_, hback⟩
  have hnone : unspaced blanks = [] := unspaced_eq_nil_iff.2 fun l hl => by simpa using hblanks l hl
  rw [unspaced_append, hnone, List.append_nil]
  exact hfront

/-- Blanks are no tokens. -/
theorem filterMap_unspaced (ls : List Lexeme) :
    (unspaced ls).filterMap shape? = ls.filterMap shape? := by
  induction ls with
  | nil => rfl
  | cons l ls ih =>
    by_cases hl : l.kind = .blank
    · have hnone : l.shape? = none := by rw [shape?, hl]
      rw [unspaced_cons_of_blank hl, List.filterMap_cons, hnone, ih]
    · rw [unspaced_cons hl, List.filterMap_cons, List.filterMap_cons, ih]

theorem unspaced_map_squeezed (ls : List Lexeme) :
    unspaced (ls.map squeezed) = (unspaced ls).map squeezed :=
  List.filter_map ..

/-- Without blanks the segments are those of the lexemes without blanks. -/
theorem map_unspaced_segments (depth : Int) (ls : List Lexeme) :
    (segments depth ls).map unspaced = segments depth (unspaced ls) := by
  induction ls generalizing depth with
  | nil => rfl
  | cons l ls ih =>
    by_cases hl : l.kind = .blank
    · obtain ⟨kind, text⟩ := l
      obtain rfl : kind = .blank := hl
      obtain ⟨first, more, hsegments, -⟩ := exists_segments depth ls
      have hstay : depth + rise ⟨.blank, text⟩ = depth := Int.add_zero depth
      rw [unspaced_cons_of_blank rfl, ← ih, segments, if_neg (by simp [isSign]), hstay, hsegments]
      rfl
    · rw [unspaced_cons hl, segments, segments]
      split
      · rw [List.map_cons, ih]
        rfl
      · obtain ⟨first, more, hsegments, -⟩ := exists_segments (depth + l.rise) ls
        rw [← ih, hsegments, List.modifyHead_cons, List.map_cons, List.map_cons, unspaced_cons hl]
        rfl

end Lexeme

namespace Text

open Lexeme

/-! ## Entries -/

theorem unspaced_trimStart (s : Text) :
    unspaced (lexemes (trimStart s)) = unspaced (lexemes s) := by
  have hblank : ∀ c ∈ s.takeWhile isBlank, isBlank c = true := fun c hc => of_mem_takeWhile isBlank hc
  have hgap : lexemes (s.takeWhile isBlank ++ trimStart s) =
      lexemes (s.takeWhile isBlank) ++ lexemes (trimStart s) :=
    isGap_blanks hblank fun c hc => head?_dropWhile isBlank hc
  have hnone : unspaced (lexemes (s.takeWhile isBlank)) = [] :=
    unspaced_eq_nil_iff.2 (kind_of_mem_blanks hblank)
  calc unspaced (lexemes (trimStart s))
      = unspaced (lexemes (s.takeWhile isBlank ++ trimStart s)) := by
        rw [hgap, unspaced_append, hnone, List.nil_append]
    _ = unspaced (lexemes s) := by rw [trimStart, List.takeWhile_append_dropWhile]

section Comments

variable {s : Text} (hs : ∀ l ∈ lexemes s, l.kind ≠ .lineComment)

include hs

theorem unspaced_trim : unspaced (lexemes (trim s)) = unspaced (lexemes s) := by
  obtain ⟨front, back, heq, hfront, hback⟩ := exists_lexemes_trim hs
  rw [heq, unspaced_append, unspaced_append, unspaced_eq_nil_iff.2 hfront, unspaced_eq_nil_iff.2 hback,
    List.nil_append, List.append_nil]

theorem not_lineComment_trim : ∀ l ∈ lexemes (trim s), l.kind ≠ .lineComment := by
  obtain ⟨front, back, heq, -, -⟩ := exists_lexemes_trim hs
  exact fun l hl => hs l (by simp [heq, hl])

/-- There are as many entries as there are segments that hold more than blanks. -/
theorem length_entries :
    s.entries.length = (segments 0 (unspaced (lexemes s))).countP fun segment => !segment.isEmpty := by
  rw [entries, pieces_eq, ← List.countP_eq_length_filter, List.countP_map, List.countP_map,
    ← map_unspaced_segments, List.countP_map]
  refine List.countP_congr fun segment hsegment => ?_
  have hwithin := (of_mem_segments hsegment).1
  have halone := lexemes_within hwithin
  have hcomment : ∀ l ∈ lexemes (segment.flatMap Lexeme.text), l.kind ≠ .lineComment := by
    rw [halone]
    exact fun l hl => hs l (hwithin.subset hl)
  have hempty := (trim_eq_nil_iff hcomment).trans unspaced_eq_nil_iff.symm
  rw [halone] at hempty
  simpa using not_congr hempty

/-- Single spaces leave as many entries, unless they make a character of two lone apostrophes. -/
theorem length_entries_squeeze (hquote : ∀ l ∈ lexemes s, l.isSign '\x27' = false) :
    s.squeeze.entries.length =
      (segments 0 ((unspaced (lexemes s)).map squeezed)).countP fun segment => !segment.isEmpty := by
  have hsqueeze := lexemes_squeeze hs hquote
  have hcomment : ∀ l ∈ lexemes s.squeeze, l.kind ≠ .lineComment := by
    rw [hsqueeze]
    exact List.forall_mem_map.2 hs
  rw [length_entries hcomment, hsqueeze, unspaced_map_squeezed]

end Comments

/-! ## Ends of a text -/

/-- The first lexeme begins with the text. -/
theorem exists_first_lexeme {s : Text} (hs : s ≠ []) :
    ∃ l ls, lexemes s = l :: ls ∧ l.text.head? = s.head? := by
  have htext := flatMap_text_lexemes s
  cases hls : lexemes s with
  | nil => exact absurd (by rw [← htext, hls]; rfl) hs
  | cons l ls =>
    refine ⟨l, ls, rfl, ?_⟩
    rw [← htext, hls, List.flatMap_cons,
      List.head?_append_of_ne_nil _ (text_ne_nil_of_mem_lexemes (s := s) (by simp [hls]))]

/-- The last lexeme ends with the text. -/
theorem exists_last_lexeme {s : Text} (hs : s ≠ []) :
    ∃ ls l, lexemes s = ls ++ [l] ∧ l.text.getLast? = s.getLast? := by
  have htext := flatMap_text_lexemes s
  cases hls : lexemes s using List.reverseRecOn with
  | nil => exact absurd (by rw [← htext, hls]; rfl) hs
  | append_singleton ls l =>
    refine ⟨ls, l, rfl, ?_⟩
    rw [← htext, hls, List.flatMap_append, List.flatMap_singleton,
      List.getLast?_append_of_ne_nil _ (text_ne_nil_of_mem_lexemes (s := s) (by simp [hls]))]

/-- No blank stands in front of a solid text, nor behind it. -/
theorem Solid.not_blank {s : Text} (hs : Solid s) {l : Lexeme} {ls : List Lexeme}
    (h : lexemes s = l :: ls ∨ lexemes s = ls ++ [l]) : l.kind ≠ .blank := by
  intro hkind
  have htext := flatMap_text_lexemes s
  have hmem : l ∈ lexemes s := by rcases h with h | h <;> simp [h]
  have hne := text_ne_nil_of_mem_lexemes hmem
  have hproper := proper_of_mem hmem
  have hblank : ∀ c ∈ l.text, isBlank c = true := by
    obtain ⟨kind, text⟩ := l
    obtain rfl : kind = .blank := hkind
    exact hproper
  have hend : ∃ c ∈ l.text, isBlank c = false := by
    rcases h with h | h
    · obtain ⟨c, u, hc⟩ := List.exists_cons_of_ne_nil hne
      refine ⟨c, by simp [hc], hs.head c ?_⟩
      rw [← htext, h, List.flatMap_cons, hc]
      rfl
    · have hc := List.getLast?_eq_some_getLast hne
      refine ⟨_, List.getLast_mem hne, hs.last _ ?_⟩
      rw [← htext, h, List.flatMap_append, List.flatMap_singleton,
        List.getLast?_append_of_ne_nil _ hne, hc]
      rfl
  obtain ⟨c, hc, hnot⟩ := hend
  rw [hblank c hc] at hnot
  exact absurd hnot (by decide)

theorem Solid.exists_unspaced {s : Text} (hs : Solid s) :
    ∃ l ls, unspaced (lexemes s) = l :: ls := by
  obtain ⟨l, ls, hls, -⟩ := exists_first_lexeme hs.nonempty
  exact ⟨l, _, by rw [hls, unspaced_cons (hs.not_blank (.inl hls))]⟩

/-- Brackets around a text are signs of their own. -/
theorem lexemes_brackets {o c : Char} (ho : isPlain o = true) (hc : isMark c = true) {p : Text}
    (hplain : ∀ l ∈ lexemes (o :: (p ++ [c])), l.kind ≠ .lineComment) :
    lexemes (o :: (p ++ [c])) =
      ⟨.token .punct, [o]⟩ :: (lexemes p ++ [⟨.token .punct, [c]⟩]) := by
  rw [lexemes_of_isPlain ho] at hplain ⊢
  obtain ⟨ls, l, hls, hlast⟩ := exists_last_lexeme (s := p ++ [c]) (by simp)
  rw [List.getLast?_concat] at hlast
  have hmem : l ∈ lexemes (p ++ [c]) := by simp [hls]
  obtain rfl := sign_of_last hmem (hplain l (List.mem_cons_of_mem _ hmem)) hlast hc
  have htext := flatMap_text_lexemes (p ++ [c])
  rw [hls, List.flatMap_append, List.flatMap_singleton] at htext
  have hp := (lexemes_parts hls).1
  rw [List.append_cancel_right htext] at hp
  rw [hls, hp]

/-! ## Reflows -/

/-- Texts without line comments that have the same lexemes but for the blanks. -/
structure Reflows (s t : Text) : Prop where
  plain : ∀ l ∈ lexemes s, l.kind ≠ .lineComment
  unspaced : unspaced (lexemes s) = unspaced (lexemes t)

namespace Reflows

variable {s t : Text}

theorem nil : Reflows [] [] := ⟨by simp, rfl⟩

theorem eq_nil (h : Reflows [] t) (ht : t = [] ∨ Solid t) : t = [] := by
  refine ht.resolve_right fun ht => ?_
  obtain ⟨l, ls, hls⟩ := ht.exists_unspaced
  have hnone := h.unspaced
  rw [hls, lexemes_nil] at hnone
  exact List.cons_ne_nil _ _ hnone.symm

/-- What holds of the lexemes of one text, and of every blank, holds of the lexemes of the other one. -/
theorem forall_right (h : Reflows s t) {P : Lexeme → Prop}
    (hblank : ∀ l : Lexeme, l.kind = .blank → P l) (hs : ∀ l ∈ lexemes s, P l) :
    ∀ l ∈ lexemes t, P l := by
  rw [← forall_unspaced hblank] at hs ⊢
  rwa [← h.unspaced]

theorem plain_right (h : Reflows s t) : ∀ l ∈ lexemes t, l.kind ≠ .lineComment :=
  h.forall_right (fun l hl => by simp [hl]) h.plain

theorem symm (h : Reflows s t) : Reflows t s := ⟨h.plain_right, h.unspaced.symm⟩

theorem solid (h : Reflows s t) (hs : Solid s) (ht : t = [] ∨ Solid t) : Solid t :=
  ht.resolve_left (by rintro rfl; exact hs.nonempty (h.symm.eq_nil (.inr hs)))

/-- Texts that have some of the lexemes of a text, and the same ones, are reflows of each other. -/
theorem of_subset (h : Reflows s t) {u v : Text} (hsub : Lexeme.unspaced (lexemes u) ⊆
    Lexeme.unspaced (lexemes s)) (heq : Lexeme.unspaced (lexemes u) = Lexeme.unspaced (lexemes v)) :
    Reflows u v := by
  have hblank : ∀ l : Lexeme, l.kind = .blank → l.kind ≠ .lineComment := fun l hl => by simp [hl]
  exact ⟨(forall_unspaced hblank).1 fun l hl => h.plain l (mem_unspaced.1 (hsub hl)).1, heq⟩

theorem shapes (h : Reflows s t) : s.tokens.map Token.shape = t.tokens.map Token.shape := by
  rw [map_shape_tokens, map_shape_tokens, ← filterMap_unspaced, h.unspaced, filterMap_unspaced]

theorem trim (h : Reflows s t) : Reflows (Text.trim s) (Text.trim t) :=
  ⟨not_lineComment_trim h.plain, by rw [unspaced_trim h.plain, unspaced_trim h.plain_right, h.unspaced]⟩

/-- A token of one text stands in the other one as well, with a reflow of what is behind it. -/
theorem exists_token (h : Reflows s t) {n : Nat} {u : Token} (hu : s.tokens[n]? = some u) :
    ∃ v, t.tokens[n]? = some v ∧ v.shape = u.shape ∧ Reflows (s.drop u.stop) (t.drop v.stop) := by
  obtain ⟨front, back, hls, hfront, hstart, hstop⟩ := split_token hu
  have hsplit := h.unspaced
  rw [hls, unspaced_append, unspaced_cons (by simp)] at hsplit
  obtain ⟨front', back', hls', hufront, huback⟩ := exists_of_unspaced hsplit.symm
  -- The token stands behind as many tokens as in the first text.
  have hlength : (tokensFrom 0 front').length = n := by
    have hn := (List.getElem?_eq_some_iff.1 hu).1
    have hshapes := congrArg (fun ls => (ls.filterMap shape?).length) hufront
    rw [filterMap_unspaced, filterMap_unspaced, ← map_shape_tokensFrom 0, ← map_shape_tokensFrom 0,
      List.length_map, List.length_map, hfront, List.length_take] at hshapes
    omega
  obtain ⟨v, hv, hkind, hvalue, hstart', hstop'⟩ := exists_token_of_split hls' hlength
  rw [← hkind, ← hvalue] at hls'
  obtain ⟨-, -, -, hdrop⟩ := parts_of_split hls hstart hstop
  obtain ⟨-, -, -, hdrop'⟩ := parts_of_split hls' hstart' hstop'
  have hback : lexemes (back.flatMap Lexeme.text) = back :=
    (lexemes_parts (by rw [hls, List.append_cons])).2
  have hback' : lexemes (back'.flatMap Lexeme.text) = back' :=
    (lexemes_parts (by rw [hls', List.append_cons])).2
  refine ⟨v, hv, by rw [Token.shape, Token.shape, hkind, hvalue], ?_⟩
  rw [hdrop, hdrop']
  exact ⟨fun l hl => h.plain l (by rw [hback] at hl; simp [hls, hl]), by rw [hback, hback', huback]⟩

theorem attributeEnd? (h : Reflows s t) {n : Nat} (hn : Text.attributeEnd? s = some n) :
    ∃ n', Text.attributeEnd? t = some n' ∧ Reflows (s.drop n) (t.drop n') := by
  obtain ⟨hash, opener, close, closer, hzero, hone, hhash, hopener, hclose, hcloser, rfl⟩ :=
    attributeEnd?_eq_some_iff.1 hn
  have hsign : ∀ {a b : Token} {sign : Text}, b.shape = a.shape → a.isPunct sign = true →
      b.isPunct sign = true := by
    intro a b sign hshape ha
    obtain ⟨hkind, hvalue⟩ := Prod.mk.inj hshape
    rw [Token.isPunct, hkind, hvalue]
    exact ha
  obtain ⟨hash', hzero', hshape, -⟩ := h.exists_token hzero
  obtain ⟨opener', hone', hshape', -⟩ := h.exists_token hone
  obtain ⟨closer', hcloser', -, hdrop⟩ := h.exists_token hcloser
  refine ⟨closer'.stop, attributeEnd?_eq_some_iff.2 ⟨hash', opener', close, closer', hzero', hone',
    hsign hshape hhash, hsign hshape' hopener, ?_, hcloser', rfl⟩, hdrop⟩
  rw [← Token.findClosing_outline, ← Token.outlines_of_shape_eq h.shapes, Token.findClosing_outline,
    hclose]

/-- Reflows of each other stay so without their attributes. -/
theorem withoutAttributes (h : Reflows s t) :
    Reflows (Text.withoutAttributes s) (Text.withoutAttributes t) :=
  withoutAttributes_rel symm trim (fun h _ hn => h.attributeEnd? hn) h

/-- Written with single spaces, reflows of each other hold as many entries. -/
theorem length_entries_squeeze (h : Reflows s t)
    (hquote : ∀ l ∈ lexemes s, l.isSign '\x27' = false) :
    s.squeeze.entries.length = t.squeeze.entries.length := by
  have hquote' := h.forall_right (fun l hl => by simp [isSign, hl]) hquote
  rw [Text.length_entries_squeeze h.plain hquote, Text.length_entries_squeeze h.plain_right hquote',
    h.unspaced]

/-- Brackets around one text are brackets around the other one, and hold reflows of each other. -/
theorem exists_brackets (h : Reflows s t) (ht : Solid t) {o c : Char} (ho : isPlain o = true)
    (hc : isMark c = true) {p : Text} (hs : s = o :: (p ++ [c])) :
    ∃ q, t = o :: (q ++ [c]) ∧ Reflows p q := by
  have hplain := h.plain
  have hunspaced := h.unspaced
  rw [hs] at hplain hunspaced
  rw [lexemes_brackets ho hc hplain, unspaced_cons (by simp), unspaced_append,
    unspaced_cons (by simp)] at hunspaced
  rw [← List.nil_append (_ :: _)] at hunspaced
  obtain ⟨front, back, hls, hfront, hback⟩ := exists_of_unspaced hunspaced.symm
  obtain ⟨mid, tail, rfl, hmid, htail⟩ := exists_of_unspaced hback
  obtain rfl : front = [] := by
    cases front with
    | nil => rfl
    | cons b front =>
      exact absurd (unspaced_eq_nil_iff.1 hfront b (by simp)) (ht.not_blank (.inl hls))
  obtain rfl : tail = [] := by
    cases tail using List.reverseRecOn with
    | nil => rfl
    | append_singleton tail b =>
      have hend : lexemes t = (⟨.token .punct, [o]⟩ :: (mid ++ ⟨.token .punct, [c]⟩ :: tail)) ++ [b] := by
        rw [hls]
        simp
      exact absurd (unspaced_eq_nil_iff.1 htail b (by simp)) (ht.not_blank (.inr hend))
  have htext := flatMap_text_lexemes t
  have hmiddle := lexemes_within (s := t) ⟨[⟨.token .punct, [o]⟩], _, hls.symm⟩
  rw [hls] at htext
  refine ⟨mid.flatMap Lexeme.text, by simpa using htext.symm, fun l hl => ?_, by rw [hmiddle, hmid]⟩
  refine hplain l ?_
  rw [lexemes_brackets ho hc hplain]
  simp [hl]

end Reflows

end Text

end DocScaffold
