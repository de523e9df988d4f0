import DocScaffold.Proofs.Grammar

/-!
# Lines that start a declaration

Whether a line starts a declaration depends on its lexemes alone: modifiers, an item keyword and a
blank (`keyword?_eq_some_iff`). Modifiers are told without regard to places and to what stands in
literals (`takeAll_outline`).
-/

namespace DocScaffold

open Text

namespace Token

/-- A token without its place, and without its characters if it is a literal. -/
def outline (t : Token) : Token :=
  ⟨t.kind, if t.kind = .string ∨ t.kind = .char then [] else t.value, 0, 0⟩

@[simp] theorem outline_kind (t : Token) : t.outline.kind = t.kind := rfl

@[simp] theorem outline_isIdent (t : Token) (word : Text) :
    t.outline.isIdent word = t.isIdent word := by
  obtain ⟨kind, value, start, stop⟩ := t
  cases kind <;> rfl

@[simp] theorem outline_isPunct (t : Token) (sign : Text) :
    t.outline.isPunct sign = t.isPunct sign := by
  obtain ⟨kind, value, start, stop⟩ := t
  cases kind <;> rfl

@[simp] theorem outline_opens (t : Token) : t.outline.opens = t.opens := by simp [opens]

@[simp] theorem outline_closes (t : Token) : t.outline.closes = t.closes := by simp [closes]

@[simp] theorem netDepth_outline (up down : Char) (ts : List Token) :
    netDepth up down (ts.map outline) = netDepth up down ts := by
  induction ts with
  | nil => rfl
  | cons t ts ih => rw [List.map_cons, netDepth, netDepth, outline_isPunct, outline_isPunct, ih]

/-- Outlines are told by shapes. -/
theorem outlines_of_shape_eq {ts us : List Token} (h : ts.map shape = us.map shape) :
    ts.map outline = us.map outline := by
  have houtline := congrArg (List.map fun p => outline ⟨p.1, p.2, 0, 0⟩) h
  rwa [List.map_map, List.map_map] at houtline

/-- Tokens of one shape, but for the blanks in literals, have one outline. -/
theorem outline_of_shape {t u : Token} (h : t.shape = spaced u.shape) : t.outline = u.outline := by
  obtain ⟨kind, value, start, stop⟩ := t
  obtain ⟨kind', value', start', stop'⟩ := u
  cases kind' <;> simp only [shape, spaced, Prod.mk.injEq] at h <;> obtain ⟨rfl, rfl⟩ := h <;> rfl

theorem outlines_of_shapes {ts us : List Token}
    (h : ts.map shape = us.map fun u => spaced u.shape) : ts.map outline = us.map outline := by
  induction ts generalizing us with
  | nil =>
    cases us with
    | nil => rfl
    | cons u us => simp at h
  | cons t ts ih =>
    cases us with
    | nil => simp at h
    | cons u us =>
      rw [List.map_cons, List.map_cons, List.cons.injEq] at h
      rw [List.map_cons, List.map_cons, outline_of_shape h.1, ih h.2]

end Token

namespace Modifiers

open Token

/-! ## Modifiers by their outlines -/

theorem takeLinkage_outline (ts : List Token) :
    (takeLinkage (ts.map outline)).2 = (takeLinkage ts).2.map outline := by
  match ts with
  | [] => rfl
  | [t] =>
    simp only [List.map_cons, List.map_nil, takeLinkage, outline_isIdent]
    split <;> rfl
  | t :: u :: rest =>
    simp only [List.map_cons, takeLinkage, outline_isIdent, outline_kind]
    split
    · rfl
    · split <;> rfl

theorem takeWord_outline (word : Text) (ts : List Token) :
    (takeWord word (ts.map outline)).2 = (takeWord word ts).2.map outline := by
  cases ts with
  | nil => rfl
  | cons t rest =>
    simp only [List.map_cons, takeWord, outline_isIdent]
    split <;> rfl

theorem splitGroup_outline (depth : Int) (ts : List Token) :
    splitGroup depth (ts.map outline) =
      (splitGroup depth ts).map fun p => (p.1.map outline, p.2.map outline) := by
  induction ts generalizing depth with
  | nil => rfl
  | cons t rest ih =>
    simp only [List.map_cons, splitGroup, outline_isPunct, ih]
    split
    · cases splitGroup (depth + 1) rest <;> rfl
    · split
      · split
        · rfl
        · cases splitGroup (depth - 1) rest <;> rfl
      · cases splitGroup depth rest <;> rfl

@[simp] theorem isScopeHead_outline (t : Token) : isScopeHead t.outline = isScopeHead t :=
  congrArg scopeHeads.any (funext t.outline_isIdent)

theorem isSome_scopeText?_outline (s s' : Text) (group : List Token) :
    (scopeText? s' (group.map outline)).isSome = (scopeText? s group).isSome := by
  simp only [scopeText?, ← List.map_tail, ← List.map_dropLast, List.getLast?_map, List.head?_map]
  cases group.tail.dropLast.getLast? with
  | none => rfl
  | some first =>
    cases group.tail.dropLast.head? with
    | none => rfl
    | some last =>
      simp only [Option.map_some, Option.bind_eq_bind, Option.bind_some, isScopeHead_outline]
      split <;> rfl

theorem takeVisibility_outline (s s' : Text) (ts : List Token) :
    (takeVisibility s' (ts.map outline)).2 = (takeVisibility s ts).2.map outline := by
  cases ts with
  | nil => rfl
  | cons t rest =>
    simp only [takeVisibility, List.map_cons, outline_isPunct, outline_isIdent]
    split
    · rw [← List.map_cons, splitGroup_outline]
      cases splitGroup 0 (t :: rest) with
      | none => rfl
      | some p =>
        obtain ⟨group, before⟩ := p
        cases before with
        | nil => rfl
        | cons p before =>
          have hscope := isSome_scopeText?_outline s s' group
          simp only [Option.map_some, List.map_cons, outline_isIdent]
          cases hs : scopeText? s group <;> cases hs' : scopeText? s' (group.map outline) <;>
            simp only [hs, hs', Option.isSome_none, Option.isSome_some, Bool.true_eq_false,
              Bool.false_eq_true] at hscope ⊢
          · rfl
          · split <;> rfl
    · split <;> rfl

/-- What modifiers leave over depends on the outlines alone. -/
theorem takeAll_outline (s s' : Text) (ts : List Token) :
    (takeAll s' (ts.map outline)).2 = (takeAll s ts).2.map outline := by
  simp only [takeAll]
  rw [takeLinkage_outline, takeWord_outline, takeWord_outline, takeWord_outline,
    takeVisibility_outline s s']

/-- Whether tokens are modifiers in their order and nothing else. -/
def IsAll (ts : List Token) : Prop := (takeAll [] ts.reverse).2 = []

instance (ts : List Token) : Decidable (IsAll ts) := inferInstanceAs (Decidable (_ = _))

theorem isAll_iff (s : Text) {ts : List Token} : IsAll ts ↔ (takeAll s ts.reverse).2 = [] := by
  have h := takeAll_outline [] s ts.reverse
  rw [takeAll_outline s s] at h
  rw [IsAll, ← List.map_eq_nil_iff (f := outline), ← h, List.map_eq_nil_iff]

theorem isAll_of_outlines {ts us : List Token} (h : ts.map outline = us.map outline)
    (hus : IsAll us) : IsAll ts := by
  have hts := takeAll_outline [] [] ts.reverse
  rw [List.map_reverse, h, ← List.map_reverse, takeAll_outline [] [], hus] at hts
  exact List.map_eq_nil_iff.1 hts.symm

theorem before_eq_zero_iff {s : Text} {ts : List Token} {i : Nat} :
    (before s ts i).2 = 0 ↔ IsAll (ts.take i) := by
  rw [isAll_iff s]
  exact List.length_eq_zero_iff

/-- Modifiers begin with a word. -/
theorem IsAll.head {ts : List Token} (h : IsAll ts) : ∀ t ∈ ts.head?, t.kind = .ident := by
  have htaken : takeAll [] ts.reverse = ((takeAll [] ts.reverse).1, []) := Prod.ext rfl h
  exact (takeAll_eq_iff.1 htaken).head

end Modifiers

/-! ## Starts -/

namespace Lexeme

/-- Whether lexemes begin with modifiers and an item keyword that has a blank behind it. -/
def Starts (k : Keyword) (ls : List Lexeme) : Prop :=
  ∃ lead w after, ls = lead ++ ⟨.token .ident, k.text⟩ :: w :: after ∧ w.kind = .blank ∧
    (∀ t ∈ tokensFrom 0 lead, Keyword.ofToken? t = none) ∧ Modifiers.IsAll (tokensFrom 0 lead)

theorem Starts.append {k : Keyword} {ls : List Lexeme} (h : Starts k ls) (ms : List Lexeme) :
    Starts k (ls ++ ms) := by
  obtain ⟨lead, w, after, rfl, hrest⟩ := h
  exact ⟨lead, w, after ++ ms, by simp, hrest⟩

theorem kind_of_blank_head {l : Lexeme} (h : l.Proper) {c : Char} (hc : c ∈ l.text.head?)
    (hblank : isBlank c = true) (hcomment : l.kind ≠ .lineComment) : l.kind = .blank := by
  have hsolid : ¬ Solid l.text := by
    intro hsolid
    rw [hsolid.head c hc] at hblank
    exact absurd hblank (by decide)
  have hplain : ¬ ∀ d ∈ l.text, isBlank d = false := by
    intro hplain
    rw [hplain c (List.mem_of_head? hc)] at hblank
    exact absurd hblank (by decide)
  obtain ⟨kind, text⟩ := l
  cases kind with
  | blank => rfl
  | lineComment => exact absurd rfl hcomment
  | blockComment => exact absurd h hsolid
  | stray => exact absurd h hplain
  | token k =>
    cases k with
    | string | char => exact absurd h hsolid
    | ident | lifetime | number | punct => exact absurd h hplain

/-- Squeezed lexemes begin a declaration where the lexemes do. -/
theorem Starts.squeezed {k : Keyword} {ls : List Lexeme} (h : Starts k ls)
    (hproper : ∀ l ∈ ls, l.Proper) : Starts k (ls.map Lexeme.squeezed) := by
  obtain ⟨lead, w, after, rfl, hblank, hnone, hall⟩ := h
  have hlead : ∀ l ∈ lead, l.Proper := fun l hl => hproper l (by simp [hl])
  refine ⟨lead.map Lexeme.squeezed, w.squeezed, after.map Lexeme.squeezed, by simp [k.squeezed],
    hblank, Declaration.ofToken?_squeezed hlead hnone 0, ?_⟩
  exact Modifiers.isAll_of_outlines (Token.outlines_of_shapes (shapes_squeezed hlead 0 0)) hall

end Lexeme

namespace Declaration

open Lexeme

/-- Lexemes with text begin with that of the first one. -/
theorem head?_flatMap_text {s : Text} {w : Lexeme} (hw : w ∈ lexemes s) (after : List Lexeme) :
    ((w :: after).flatMap Lexeme.text).head? = w.text.head? := by
  rw [List.flatMap_cons, List.head?_append_of_ne_nil _ (text_ne_nil_of_mem_lexemes hw)]

/-- What begins with a blank in front of a comment is a lexeme of blanks. -/
theorem exists_blank {line : Text} {before after : List Lexeme} {l : Lexeme}
    (hls : lexemes line.beforeLineComment = before ++ l :: after) {c : Char}
    (hc : (after.flatMap Lexeme.text).head? = some c) (hblank : isBlank c = true) :
    ∃ w more, after = w :: more ∧ w.kind = .blank := by
  cases after with
  | nil => simp at hc
  | cons w more =>
    have hw : w ∈ lexemes line.beforeLineComment := by simp [hls]
    rw [head?_flatMap_text hw] at hc
    exact ⟨w, more, rfl, kind_of_blank_head (proper_of_mem hw) hc hblank
      (kind_of_mem_beforeLineComment hw)⟩

theorem head?_of_blank {s : Text} {w : Lexeme} (hw : w ∈ lexemes s) (hblank : w.kind = .blank) :
    ∃ c, w.text.head? = some c ∧ isBlank c = true := by
  obtain ⟨c, u, htext⟩ := List.exists_cons_of_ne_nil (text_ne_nil_of_mem_lexemes hw)
  have hproper := proper_of_mem hw
  obtain ⟨kind, text⟩ := w
  obtain rfl : kind = .blank := hblank
  obtain rfl : text = c :: u := htext
  exact ⟨c, rfl, hproper c (by simp)⟩

/-- A line starts a declaration when its lexemes do, up to a comment. -/
theorem keyword?_eq_some_iff {line : Text} {k : Keyword} :
    keyword? line = some k ↔ Starts k (lexemes line.beforeLineComment) := by
  rw [keyword?_iff_split]
  constructor
  · rintro ⟨front, t, rest, next, hsplit, hnone, hkeyword, hnext, hblank, hbefore⟩
    rw [Modifiers.before_eq_zero_iff, hsplit, List.take_left] at hbefore
    obtain ⟨hkind, hvalue⟩ := Keyword.ofToken?_eq_some hkeyword
    obtain ⟨lead, after, hls, rfl, -, -, hhead⟩ := split_tokens hsplit
    rw [hhead] at hnext
    obtain ⟨w, more, rfl, hw⟩ := exists_blank hls hnext hblank
    refine ⟨lead, w, more, ?_, hw, hnone, hbefore⟩
    rw [hls, hkind, hvalue]
  · rintro ⟨lead, w, after, hls, hblank, hnone, hall⟩
    have htokens : line.beforeLineComment.tokens = tokensFrom 0 lead ++
        ⟨.ident, k.text, (lead.flatMap Lexeme.text).length,
          (lead.flatMap Lexeme.text).length + k.text.length⟩ ::
          tokensFrom ((lead.flatMap Lexeme.text).length + k.text.length) (w :: after) := by
      rw [tokens, hls, tokensFrom_append, Nat.zero_add]
      rfl
    have hw : w ∈ lexemes line.beforeLineComment := by simp [hls]
    obtain ⟨c, hc, hblank⟩ := head?_of_blank hw hblank
    have hbehind := getElem?_behind hls
    rw [List.length_append, head?_flatMap_text hw, hc] at hbehind
    refine ⟨_, _, _, c, htokens, hnone, ?_, hbehind, hblank, ?_⟩
    · cases k <;> rfl
    · rwa [Modifiers.before_eq_zero_iff, htokens, List.take_left]

/-- A line with a keyword begins with no comment and no sign. -/
theorem first_of_keyword? {line : Text} {k : Keyword} (h : keyword? line = some k) {l : Lexeme}
    {ls : List Lexeme} (hls : lexemes line = l :: ls) :
    l.kind ≠ .lineComment ∧ l.kind ≠ .token .punct := by
  obtain ⟨lead, w, after, hlead, -, -, hall⟩ := keyword?_eq_some_iff.1 h
  rw [lexemes_beforeLineComment, hls] at hlead
  by_cases hcomment : l.kind = .lineComment
  · simp [hcomment] at hlead
  refine ⟨hcomment, fun hpunct => ?_⟩
  rw [List.takeWhile_cons_of_pos (by simpa using hcomment)] at hlead
  cases lead with
  | nil =>
    rw [List.nil_append, List.cons.injEq] at hlead
    rw [hlead.1] at hpunct
    exact absurd hpunct (by simp)
  | cons m lead =>
    rw [List.cons_append, List.cons.injEq] at hlead
    obtain ⟨rfl, -⟩ := hlead
    obtain ⟨kind, text⟩ := l
    obtain rfl : kind = .token .punct := hpunct
    have hident := hall.head ⟨.punct, text, 0, 0 + text.length⟩ rfl
    exact absurd hident (by simp)

/-- So no sign that stands alone is its beginning. -/
theorem startsWith_of_keyword? {line : Text} {k : Keyword} (h : keyword? line = some k) {c : Char}
    (hc : isPlain c = true) (more : Text) : startsWith line (c :: more) = false := by
  rw [Bool.eq_false_iff]
  intro hprefix
  obtain ⟨rest, rfl⟩ := List.isPrefixOf_iff_prefix.1 hprefix
  exact (first_of_keyword? h (lexemes_of_isPlain hc)).2 rfl

/-- What starts a declaration begins with a word or a block comment. -/
theorem stepPlain_of_keyword? {line : Text} {k : Keyword} (h : keyword? line = some k) :
    beginsAttribute line = false ∧ line ≠ [] ∧ stepPlain line = .start k line := by
  have hcomment : startsWith line "//" = false := by
    rw [Bool.eq_false_iff]
    intro hprefix
    obtain ⟨rest, rfl⟩ := List.isPrefixOf_iff_prefix.1 hprefix
    exact (first_of_keyword? h (lexemes_of_first? (first?_line_comment rest))).1 rfl
  have hbrace : startsWith line "\x7d" = false := startsWith_of_keyword? h (by decide) []
  have houter : startsWith line "#[" = false := startsWith_of_keyword? h (by decide) ['[']
  have hinner : startsWith line "#![" = false := startsWith_of_keyword? h (by decide) ['!', '[']
  refine ⟨by rw [beginsAttribute, houter, hinner]; rfl, ?_, ?_⟩
  · rintro rfl
    obtain ⟨lead, w, after, hlead, -⟩ := keyword?_eq_some_iff.1 h
    rw [lexemes_beforeLineComment, lexemes_nil] at hlead
    simp at hlead
  · rw [stepPlain, hbrace, hcomment, h]
    rfl

/-- A line that starts a declaration is found outside attributes. -/
theorem step_of_keyword? {line : Text} {k : Keyword} (h : keyword? line = some k) :
    step 0 line = .start k line := by
  obtain ⟨hattribute, hne, hplain⟩ := stepPlain_of_keyword? h
  rw [step, if_neg (by decide), if_neg (by simpa using hne), if_neg (by simp [hattribute]), hplain]

end Declaration

end DocScaffold
