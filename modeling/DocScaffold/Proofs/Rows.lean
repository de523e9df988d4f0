import Mathlib.Data.List.TakeWhile
import DocScaffold.Proofs.Gaps
import DocScaffold.Proofs.Leading

/-!
# Texts written over several lines

A text breaks into pieces at its gaps. However it is broken, the pieces joined by line feeds have the
lexemes of the text but for the blanks (`Breaks.separate`, `Breaks.filterMap_lexemes`). A row is a
piece with blanks at its ends and a comment behind it, and the piece is what a search collects of it
(`Row.cleaned_text`).
-/

namespace DocScaffold

namespace Text

/-- Whether a text holds no comment and no quote without its partner. -/
def Settled (s : Text) : Prop :=
  ∀ l ∈ lexemes s, l.isLoose = false ∧ l.kind ≠ .blockComment

instance (s : Text) : Decidable (Settled s) := inferInstanceAs (Decidable (∀ _ ∈ _, _))

theorem Settled.spec {s : Text} (h : Settled s) {l : Lexeme} (hl : l ∈ lexemes s) :
    l.kind ≠ .lineComment ∧ l.isSign '"' = false ∧ l.isSign '\x27' = false := by
  have hloose := (h l hl).1
  simp only [Lexeme.isLoose, Bool.or_eq_false_iff, beq_eq_false_iff_ne] at hloose
  exact ⟨hloose.1.1, hloose.1.2, hloose.2⟩

theorem settled_append {s t : Text} (h : IsGap s t) :
    Settled (s ++ t) ↔ Settled s ∧ Settled t := by
  unfold Settled
  rw [show lexemes (s ++ t) = lexemes s ++ lexemes t from h]
  exact List.forall_mem_append

/-! ## Gaps and blanks -/

/-- Blanks in front of a text are one lexeme. -/
theorem lexemes_blanks_append {w s : Text} (hw : ∀ c ∈ w, isBlank c = true)
    (hs : ∀ c ∈ s.head?, isBlank c = false) :
    lexemes (w ++ s) = (if w.isEmpty then [] else [⟨.blank, w⟩]) ++ lexemes s := by
  cases w with
  | nil => rfl
  | cons c w => rw [lexemes_of_first? (first?_blank (by simp) hw hs)]; rfl

/-- Blanks in front of a text hold no token. -/
theorem map_shape_tokensAt_blanks {w s : Text} (hw : ∀ c ∈ w, isBlank c = true)
    (hs : ∀ c ∈ s.head?, isBlank c = false) (offset : Nat) :
    (tokensAt offset (w ++ s)).map Token.shape = s.tokens.map Token.shape := by
  have hblanks : (if w.isEmpty then [] else [⟨.blank, w⟩]).filterMap Lexeme.shape? = [] := by
    split <;> rfl
  rw [tokensAt, Lexeme.map_shape_tokensFrom, lexemes_blanks_append hw hs, List.filterMap_append,
    hblanks, List.nil_append, Lexeme.map_shape_tokens]

theorem isGap_blanks {w s : Text} (hw : ∀ c ∈ w, isBlank c = true)
    (hs : ∀ c ∈ s.head?, isBlank c = false) : IsGap w s := by
  have hwhole := lexemes_blanks_append hw hs
  have halone := lexemes_blanks_append (s := []) hw (by simp)
  rw [List.append_nil, lexemes_nil, List.append_nil] at halone
  rw [IsGap, hwhole, halone]

/-- The end of a text is a gap, and so is its front. -/
theorem isGap_nil (s : Text) : IsGap s [] := by
  rw [IsGap, List.append_nil, lexemes_nil, List.append_nil]

theorem nil_isGap (s : Text) : IsGap [] s := by
  rw [IsGap, List.nil_append, lexemes_nil, List.nil_append]

theorem settled_blanks {w : Text} (hw : ∀ c ∈ w, isBlank c = true) : Settled w := by
  intro l hl
  have hwhole := lexemes_blanks_append (s := []) hw (by simp)
  rw [List.append_nil, lexemes_nil, List.append_nil] at hwhole
  rw [hwhole] at hl
  cases w with
  | nil => simp at hl
  | cons c w =>
    obtain rfl : l = ⟨.blank, c :: w⟩ := by simpa using hl
    simp [Lexeme.isLoose, Lexeme.isSign]

/-- A gap in the second part of a text is one of the text. -/
theorem IsGap.append {a b c : Text} (h : IsGap a (b ++ c)) (hbc : IsGap b c) :
    IsGap a b ∧ IsGap (a ++ b) c := by
  have hwhole : lexemes (a ++ b ++ c) = (lexemes a ++ lexemes b) ++ lexemes c := by
    rw [List.append_assoc, h, hbc, List.append_assoc]
  have hparts := lexemes_of_append hwhole (by simp [flatMap_text_lexemes])
  exact ⟨hparts.1, by rw [IsGap, hwhole, hparts.1]⟩

/-- A gap behind a first part is one of the second part. -/
theorem IsGap.drop {a b c : Text} (hab : IsGap a b) (h : IsGap (a ++ b) c) :
    IsGap a (b ++ c) ∧ IsGap b c := by
  have hwhole : lexemes (a ++ (b ++ c)) = lexemes a ++ (lexemes b ++ lexemes c) := by
    rw [← List.append_assoc, h, hab, List.append_assoc]
  have hparts := lexemes_of_append hwhole (flatMap_text_lexemes a)
  exact ⟨by rw [IsGap, hwhole, hparts.2], hparts.2⟩

/-! ## Pieces -/

/-- Whether a text falls into solid pieces at its gaps; the blanks between them belong to none. -/
inductive Breaks : Text → List Text → Prop
  | last {p : Text} (solid : Solid p) : Breaks p [p]
  | cons {p w s : Text} {ps : List Text} (solid : Solid p) (blank : ∀ c ∈ w, isBlank c = true)
      (gap : IsGap p (w ++ s)) (rest : Breaks s ps) : Breaks (p ++ (w ++ s)) (p :: ps)

namespace Breaks

variable {s : Text} {ps : List Text}

theorem ne_nil (h : Breaks s ps) : ps ≠ [] := by
  cases h <;> simp

theorem solid_of_mem (h : Breaks s ps) : ∀ p ∈ ps, Solid p := by
  induction h with
  | last solid => simpa using solid
  | cons solid _ _ _ ih =>
    intro q hq
    rcases List.mem_cons.1 hq with rfl | hq
    · exact solid
    · exact ih q hq

/-- The text ends with its last piece. -/
theorem suffix_of_getLast? (h : Breaks s ps) : ∀ p ∈ ps.getLast?, p <:+ s := by
  induction h with
  | last _ => simp
  | @cons q w s qs _ _ _ rest ih =>
    obtain ⟨r, rs, rfl⟩ := List.exists_cons_of_ne_nil rest.ne_nil
    intro p hp
    rw [List.getLast?_cons_cons] at hp
    rw [← List.append_assoc]
    exact (ih p hp).trans (List.suffix_append _ _)

/-- The last piece ends with the sign that the text ends with. -/
theorem getLast?_eq {front : List Text} {p : Text} (h : Breaks s (front ++ [p])) :
    p.getLast? = s.getLast? := by
  obtain ⟨text, rfl⟩ := h.suffix_of_getLast? p List.getLast?_concat
  exact (List.getLast?_append_of_ne_nil _ (h.solid_of_mem p (by simp)).nonempty).symm

theorem head_not_blank (h : Breaks s ps) : ∀ c ∈ s.head?, isBlank c = false := by
  cases h with
  | last solid => exact solid.head
  | cons solid _ _ _ =>
    rw [List.head?_append_of_ne_nil _ solid.nonempty]
    exact solid.head

/-- Pieces joined behind a gap have the gap in front of them, and are lexed piece by piece. -/
theorem isGap_joined (h : Breaks s ps) (hs : Settled s) {p v : Text}
    (hlast : ∀ c ∈ p.getLast?, isBlank c = false) (hv : ∀ c ∈ v, isBlank c = true)
    (hp : Settled p) (hgap : IsGap p (v ++ s)) :
    IsGap p (v ++ joined ps) ∧
      lexemes (joined ps) = List.intercalate [⟨.blank, ['\n']⟩] (ps.map lexemes) := by
  induction h generalizing p v with
  | last _ => exact ⟨by simpa [joined] using hgap, by simp [joined]⟩
  | @cons q w s qs solid blank gap rest ih =>
    have hq : ∀ c ∈ (q ++ (w ++ s)).head?, isBlank c = false := by
      rw [List.head?_append_of_ne_nil _ solid.nonempty]
      exact solid.head
    obtain ⟨hqsettled, hws⟩ := (settled_append gap).1 hs
    have hsettled := ((settled_append (isGap_blanks blank rest.head_not_blank)).1 hws).2
    obtain ⟨hpv, hmiddle⟩ := hgap.append (isGap_blanks hv hq)
    obtain ⟨hpvq, hbehind⟩ := hmiddle.append gap
    have hfront : Settled (p ++ v ++ q) := by
      rw [settled_append hpvq, settled_append hpv]
      exact ⟨⟨hp, settled_blanks hv⟩, hqsettled⟩
    have hlast' : ∀ c ∈ (p ++ v ++ q).getLast?, isBlank c = false := by
      rw [List.getLast?_append_of_ne_nil _ solid.nonempty]
      exact solid.last
    -- The blanks behind the piece become the line feed, and the pieces behind it are joined.
    have hfeed : ∀ c ∈ ['\n'], isBlank c = true := by simp; decide
    have hgap' : IsGap (p ++ v ++ q) (['\n'] ++ s) :=
      lexemes_replaced hbehind (fun l hl => (hfront l hl).1) (replaces_blanks hlast' hfeed (by simp))
    obtain ⟨hjoined, hlexemes⟩ := ih hsettled hlast' hfeed hfront hgap'
    obtain ⟨hfront', hpiece⟩ := hpvq.drop hjoined
    obtain ⟨r, rs, rfl⟩ := List.exists_cons_of_ne_nil rest.ne_nil
    have hfeeds : lexemes ('\n' :: joined (r :: rs)) =
        ⟨.blank, ['\n']⟩ :: lexemes (joined (r :: rs)) := by
      have hsolid := solid_joined rest.ne_nil rest.solid_of_mem
      exact lexemes_blanks_append hfeed hsolid.head
    rw [joined_cons_cons]
    refine ⟨(hpv.drop hfront').1, ?_⟩
    rw [List.map_cons, List.map_cons, List.intercalate_cons_cons, ← List.map_cons, ← hlexemes]
    exact hpiece.trans (by rw [List.singleton_append, hfeeds, List.append_assoc]; rfl)

theorem settled_of_mem (h : Breaks s ps) (hs : Settled s) : ∀ p ∈ ps, Settled p := by
  induction h with
  | last _ => simpa using hs
  | cons solid blank gap rest ih =>
    obtain ⟨hp, hrest⟩ := (settled_append gap).1 hs
    have hrest' := ((settled_append (isGap_blanks blank rest.head_not_blank)).1 hrest).2
    intro q hq
    rcases List.mem_cons.1 hq with rfl | hq
    · exact hp
    · exact ih hrest' q hq

/-- Pieces are lexed one by one when they are joined. -/
theorem separate (h : Breaks s ps) (hs : Settled s) : Separate ps where
  solid := h.solid_of_mem
  comment p hp _ hl := ((h.settled_of_mem hs p hp).spec hl).1
  quote p hp _ hl := ((h.settled_of_mem hs p hp).spec hl).2.2
  joined := (h.isGap_joined hs (p := []) (v := []) (by simp) (by simp) (by simp [Settled])
    (nil_isGap s)).2

/-- What is no blank among the lexemes of a text is found piece by piece. -/
theorem filterMap_lexemes {α : Type} {f : Lexeme → Option α}
    (hf : ∀ l : Lexeme, l.kind = .blank → f l = none) (h : Breaks s ps) :
    (lexemes s).filterMap f = ps.flatMap fun p => (lexemes p).filterMap f := by
  induction h with
  | last _ => simp
  | cons solid blank gap rest ih =>
    rw [gap, lexemes_blanks_append blank rest.head_not_blank, List.filterMap_append,
      List.filterMap_append, List.flatMap_cons, ih]
    split <;> simp [hf]

/-- The tokens of a text are those of its pieces. -/
theorem shapes (h : Breaks s ps) :
    s.tokens.map Token.shape = (ps.flatMap tokens).map Token.shape := by
  rw [Lexeme.map_shape_tokens, h.filterMap_lexemes (fun l hl => by rw [Lexeme.shape?, hl]),
    List.map_flatMap]
  exact List.flatMap_congr fun p _ => (Lexeme.map_shape_tokens p).symm

end Breaks

end Text

/-! ## Rows -/

open Text

/-- A line of a declaration: a piece of it or nothing, with blanks at its ends and the words of a line
comment. -/
structure Row where
  indent : Text
  content : Text
  gap : Text
  comment : Option Text

namespace Row

def commentText : Option Text → Text
  | none => []
  | some words => '/' :: '/' :: words

def text (r : Row) : Text := r.indent ++ (r.content ++ (r.gap ++ commentText r.comment))

/-- The ends of the piece are told, and no sign in the comment takes in what stands in front of it. -/
structure IsProper (r : Row) : Prop where
  indent : ∀ c ∈ r.indent, isBlank c = true
  gap : ∀ c ∈ r.gap, isBlank c = true
  content : r.content = [] ∨ Solid r.content
  comment : ∀ words ∈ r.comment, '"' ∉ words ∧ '*' ∉ words ∧ '\n' ∉ words ∧
    ∀ c ∈ r.content.getLast?, c ≠ '/' ∧ c ≠ '*'

instance (r : Row) : Decidable r.IsProper :=
  decidable_of_iff (r.indent.all isBlank = true ∧ r.gap.all isBlank = true ∧
      (r.content = [] ∨ Solid r.content) ∧ ∀ words ∈ r.comment, '"' ∉ words ∧ '*' ∉ words ∧
        '\n' ∉ words ∧ r.content.getLast?.all (fun c => c != '/' && c != '*') = true) (by
    simp only [List.all_eq_true, Option.all_eq_true, Bool.and_eq_true, bne_iff_ne]
    exact ⟨fun ⟨a, b, c, d⟩ => ⟨a, b, c, d⟩, fun ⟨a, b, c, d⟩ => ⟨a, b, c, d⟩⟩)

end Row

namespace Text

/-- The blanks at the ends of a text. -/
theorem exists_trim (s : Text) : ∃ w v, s = w ++ (trim s ++ v) ∧ (∀ c ∈ w, isBlank c = true) ∧
    ∀ c ∈ v, isBlank c = true := by
  obtain ⟨v, hv, hblank⟩ := trimEnd_append_blanks (trimStart s)
  refine ⟨s.takeWhile isBlank, v, ?_, fun c hc => of_mem_takeWhile isBlank hc, hblank⟩
  rw [trim, ← hv]
  exact List.takeWhile_append_dropWhile.symm

theorem trim_append {w p v : Text} (hw : ∀ c ∈ w, isBlank c = true) (hp : Solid p) :
    trim (w ++ (p ++ v)) = p ++ trimEnd v := by
  have hhead : ∀ c ∈ (p ++ v).head?, isBlank c = false := by
    rw [List.head?_append_of_ne_nil _ hp.nonempty]
    exact hp.head
  rw [trim, trimStart, dropWhile_append_of_head hw hhead, Declaration.trimEnd_append hp.last]

theorem beforeLineComment_of_none {s : Text} (h : ∀ l ∈ lexemes s, l.kind ≠ .lineComment) :
    s.beforeLineComment = s := by
  rw [beforeLineComment, List.takeWhile_eq_self_iff.2 (by simpa using h), flatMap_text_lexemes]

theorem lexemes_line_comment {words : Text} (h : '\n' ∉ words) :
    lexemes ('/' :: '/' :: words) = [⟨.lineComment, '/' :: '/' :: words⟩] := by
  have hall : ∀ c ∈ words, (c != '\n') = true := by
    intro c hc
    simpa using fun heq : c = '\n' => h (heq ▸ hc)
  have hfirst := first?_line_comment words
  rw [List.takeWhile_eq_self_iff.2 hall, List.dropWhile_eq_nil_iff.2 hall] at hfirst
  rw [lexemes_of_first? hfirst, lexemes_nil]

/-- A line comment without quotes and asterisks is cut off a text that it does not run into. -/
theorem beforeLineComment_comment {s v words : Text} (hs : Settled s)
    (hlast : ∀ c ∈ s.getLast?, isBlank c = false ∧ c ≠ '/' ∧ c ≠ '*')
    (hv : ∀ c ∈ v, isBlank c = true) (hquote : '"' ∉ words) (hstar : '*' ∉ words)
    (hfeed : '\n' ∉ words) :
    beforeLineComment (s ++ (v ++ '/' :: '/' :: words)) = s ++ v := by
  have hgap : IsGap s (v ++ '/' :: '/' :: words) :=
    lexemes_replaced (isGap_nil s) (fun l hl => (hs l hl).1)
      (replaces_comment hlast hv hquote hstar)
  have hblanks : IsGap v ('/' :: '/' :: words) := isGap_blanks hv (by simp; decide)
  have hkind : ∀ l ∈ lexemes s ++ lexemes v, (l.kind != .lineComment) = true := by
    intro l hl
    rcases List.mem_append.1 hl with hl | hl
    · simpa using (hs.spec hl).1
    · simpa using ((settled_blanks hv).spec hl).1
  rw [beforeLineComment, show lexemes _ = _ from hgap, show lexemes (v ++ _) = _ from hblanks,
    lexemes_line_comment hfeed, ← List.append_assoc, List.takeWhile_append_of_pos hkind]
  simp [flatMap_text_lexemes]

end Text

namespace Row

open Declaration

variable {r : Row}

/-- A row is its piece up to its comment, but for blanks. -/
theorem beforeLineComment_text (h : r.IsProper) (hs : Settled r.content) :
    ∃ w, (∀ c ∈ w, isBlank c = true) ∧ beforeLineComment (trim r.text) = r.content ++ w := by
  have hends : ∀ c ∈ r.indent ++ r.gap, isBlank c = true :=
    fun c hc => (List.mem_append.1 hc).elim (h.indent c) (h.gap c)
  cases hcomment : r.comment with
  | none =>
    have htrim : trim r.text = r.content := by
      rw [text, hcomment, commentText, List.append_nil]
      rcases h.content with hnil | hsolid
      · rw [hnil, List.nil_append]
        exact trim_blanks hends
      · exact trim_between h.indent hsolid h.gap
    refine ⟨[], by simp, ?_⟩
    rw [htrim, beforeLineComment_of_none fun l hl => (hs.spec hl).1, List.append_nil]
  | some words =>
    obtain ⟨hquote, hstar, hfeed, hlast⟩ := h.comment words hcomment
    have hend : ∀ {c}, c ∉ words → c ∉ trimEnd words := by
      intro c hc hmem
      obtain ⟨w, hw, -⟩ := trimEnd_append_blanks words
      exact hc (by rw [hw]; exact List.mem_append_left w hmem)
    have hmark : Solid ['/', '/'] := by decide
    rcases h.content with hnil | hsolid
    · have htrim : trim r.text = [] ++ ([] ++ '/' :: '/' :: trimEnd words) := by
        rw [text, hnil, hcomment, List.nil_append, ← List.append_assoc]
        exact trim_append hends hmark
      refine ⟨[], by simp, ?_⟩
      rw [htrim, beforeLineComment_comment (by simp [Settled]) (by simp) (by simp)
        (hend hquote) (hend hstar) (hend hfeed), hnil]
    · have hfront : Solid (r.content ++ (r.gap ++ ['/', '/'])) := by
        refine ⟨by simp, ?_, ?_⟩
        · rw [List.head?_append_of_ne_nil _ hsolid.nonempty]
          exact hsolid.head
        · rw [← List.append_assoc, List.getLast?_append_of_ne_nil _ hmark.nonempty]
          exact hmark.last
      have htrim : trim r.text = r.content ++ (r.gap ++ '/' :: '/' :: trimEnd words) := by
        have happend := trim_append (v := words) h.indent hfront
        simpa [text, hcomment, commentText] using happend
      refine ⟨r.gap, h.gap, ?_⟩
      rw [htrim, beforeLineComment_comment hs
        (fun c hc => ⟨hsolid.last c hc, hlast c hc⟩) h.gap (hend hquote) (hend hstar) (hend hfeed)]

/-- What is left of a row without its blanks and its comment is the piece. -/
theorem cleaned_text (h : r.IsProper) (hs : Settled r.content) :
    cleaned (trim r.text) = r.content := by
  obtain ⟨w, hw, htext⟩ := beforeLineComment_text h hs
  rw [cleaned, htext]
  rcases h.content with hnil | hsolid
  · rw [hnil]
    exact trim_blanks hw
  · exact trim_between (w := []) (by simp) hsolid hw

/-- The pieces that rows hold. -/
def contents (rows : List Row) : List Text :=
  (rows.map content).filter fun text => !text.isEmpty

theorem contents_append (rows more : List Row) :
    contents (rows ++ more) = contents rows ++ contents more := by
  rw [contents, List.map_append, List.filter_append]
  rfl

theorem contents_singleton (h : r.content ≠ []) : contents [r] = [r.content] := by
  simp [contents, h]

theorem mem_contents {rows : List Row} (hr : r ∈ rows) (h : r.content ≠ []) :
    r.content ∈ contents rows := by
  simpa [contents, h] using ⟨r, hr, rfl⟩

theorem settled_of_contents {rows : List Row} (h : ∀ p ∈ contents rows, Settled p) (hr : r ∈ rows) :
    Settled r.content := by
  by_cases hnil : r.content = []
  · rw [hnil]
    simp [Settled]
  · exact h _ (mem_contents hr hnil)

/-- The lines of rows are cleaned to their pieces. -/
theorem cleanedLines_text {rows : List Row} (h : ∀ r ∈ rows, r.IsProper)
    (hs : ∀ r ∈ rows, Settled r.content) :
    cleanedLines (rows.map fun r => trim r.text) = contents rows := by
  have hmap : (rows.map fun r => trim r.text).map cleaned = rows.map content := by
    rw [List.map_map]
    exact List.map_congr_left fun r hr => cleaned_text (h r hr) (hs r hr)
  rw [cleanedLines, hmap, contents]

end Row

end DocScaffold
