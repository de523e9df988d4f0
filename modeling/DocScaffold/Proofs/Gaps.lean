import DocScaffold.Proofs.Closed

/-!
# Text behind a gap

The place between two lexemes is a gap. The text behind a gap may be replaced without a change to the
lexemes in front of it (`lexemes_replaced`), unless it brings in the end of a comment or of a raw string
that is begun there, or runs together with the last character. So blanks may be written into a gap
(`replaces_blanks`), and a line comment behind one (`replaces_comment`).
-/

namespace DocScaffold

/-- A line comment or a quote without its partner: what the text behind may change at any distance. -/
def Lexeme.isLoose (l : Lexeme) : Bool :=
  l.kind == .lineComment || l.isSign '"' || l.isSign '\x27'

namespace Text

/-! ## Ends of comments and raw strings -/

/-- What a block comment or a raw string runs to. -/
def IsEnd (mark : Text) : Prop :=
  mark = ['*', '/'] ∨ ∃ hashes, (∀ c ∈ hashes, c = '#') ∧ mark = '"' :: hashes

theorem IsEnd.not_blank {mark : Text} (h : IsEnd mark) : ∀ c ∈ mark, isBlank c = false := by
  rcases h with rfl | ⟨hashes, hh, rfl⟩
  · simp
    decide
  · intro c hc
    rcases List.mem_cons.1 hc with rfl | hc
    · decide
    · rw [hh c hc]
      decide

theorem cutThrough_eq_none_iff {mark s : Text} : cutThrough mark s = none ↔ ¬ mark <:+: s := by
  induction s with
  | nil =>
    rw [cutThrough, List.infix_nil]
    cases mark <;> simp
  | cons c rest ih =>
    rw [cutThrough, List.infix_cons_iff, not_or, ← ih, ← List.isPrefixOf_iff_prefix]
    cases mark.isPrefixOf (c :: rest) <;> cases cutThrough mark rest <;> simp [Cut.after]

/-- An end begins with a sign that a comment may be kept free of. -/
theorem IsEnd.exists_head {mark : Text} (h : IsEnd mark) :
    ∃ c rest, mark = c :: rest ∧ (c = '*' ∧ rest = ['/'] ∨ c = '"' ∧ ∀ d ∈ rest, d = '#') := by
  rcases h with rfl | ⟨hashes, hh, rfl⟩
  · exact ⟨_, _, rfl, .inl ⟨rfl, rfl⟩⟩
  · exact ⟨_, _, rfl, .inr ⟨rfl, hh⟩⟩

theorem infix_of_not_mem {mark a b : Text} {c : Char} (hc : c ∉ mark) (h : mark <:+: a ++ c :: b) :
    mark <:+: a ∨ mark <:+: b := by
  rcases List.infix_append_iff.1 h with h | h | ⟨u, v, rfl, hu, hv⟩
  · exact .inl h
  · rcases List.infix_cons_iff.1 h with h | h
    · cases mark with
      | nil => exact .inl (List.nil_infix)
      | cons m mark =>
        rw [List.cons_prefix_cons] at h
        simp [h.1] at hc
    · exact .inr h
  · cases v with
    | nil =>
      rw [List.append_nil]
      exact .inl hu.isInfix
    | cons m v =>
      rw [List.cons_prefix_cons] at hv
      simp [hv.1] at hc

theorem infix_of_disjoint {mark a v b : Text} (hne : v ≠ []) (hv : ∀ c ∈ v, c ∉ mark)
    (h : mark <:+: a ++ (v ++ b)) : mark <:+: a ∨ mark <:+: b := by
  induction v generalizing a with
  | nil => exact absurd rfl hne
  | cons c v ih =>
    rcases infix_of_not_mem (hv c (by simp)) h with h | h
    · exact .inl h
    · cases v with
      | nil => exact .inr h
      | cons d v =>
        rcases ih (a := []) (by simp) (fun e he => hv e (by simp [he])) h with h | h
        · rw [List.infix_nil.1 h]
          exact .inl List.nil_infix
        · exact .inr h

/-- A mark whose first character is missing in `x` is found in front of `x`, or divided between the
two texts. -/
theorem infix_cases {q : Char} {rest a x : Text} (hq : q ∉ x) (h : (q :: rest) <:+: a ++ x) :
    (q :: rest) <:+: a ∨
      ∃ u d w, rest = u ++ d :: w ∧ (q :: u) <:+ a ∧ d ∈ x.head? := by
  rcases List.infix_append_iff.1 h with h | h | ⟨u, w, heq, hu, hw⟩
  · exact .inl h
  · exact absurd (h.subset (by simp)) hq
  · cases u with
    | nil =>
      rw [List.nil_append] at heq
      subst heq
      exact absurd (hw.subset (by simp)) hq
    | cons q' u =>
      rw [List.cons_append, List.cons.injEq] at heq
      obtain ⟨rfl, rfl⟩ := heq
      cases w with
      | nil => exact .inl (by rw [List.append_nil]; exact hu.isInfix)
      | cons d w =>
        obtain ⟨z, rfl⟩ := hw
        exact .inr ⟨u, d, w, rfl, hu, rfl⟩

/-- The text `x` may stand in the place of `t` behind `s`: it does not run together with the end of
`s`, and an end that is missing behind a part of `s` stays missing. -/
structure Replaces (s t x : Text) : Prop where
  apart : Apart s x
  ends : ∀ mark, IsEnd mark → ∀ a, a <:+ s → ¬ mark <:+: a ++ t → ¬ mark <:+: a ++ x

theorem Replaces.of_append {a s t x : Text} (h : Replaces (a ++ s) t x) : Replaces s t x :=
  ⟨h.apart.of_append, fun mark hmark b hb => h.ends mark hmark b (hb.trans (List.suffix_append a s))⟩

theorem Replaces.cutThrough {s t x a mark : Text} (h : Replaces s t x) (hmark : IsEnd mark)
    (ha : a <:+ s) (hnone : cutThrough mark (a ++ t) = none) : cutThrough mark (a ++ x) = none :=
  cutThrough_eq_none_iff.2 (h.ends mark hmark a ha (cutThrough_eq_none_iff.1 hnone))

theorem apart_slash {x : Char} (hx : isBlank x = false) (hslash : x ≠ '/') : apart x '/' = true := by
  have hword : isWord '/' = false ∧ isBlank '/' = false := by decide
  have hcompound : (x, '/') ∉ compounds := by simp [compounds, hslash]
  simp [apart, hx, hword, hcompound]

/-- Blanks may be written into a gap, and in the place of others. -/
theorem replaces_blanks {s w v t : Text} (hs : ∀ c ∈ s.getLast?, isBlank c = false)
    (hv : ∀ c ∈ v, isBlank c = true) (hne : v ≠ []) : Replaces s (w ++ t) (v ++ t) := by
  obtain ⟨c, u, rfl⟩ := List.exists_cons_of_ne_nil hne
  refine ⟨?_, fun mark hmark a _ hnot hinfix => hnot ?_⟩
  · intro x hx y hy
    obtain rfl : c = y := by simpa using hy
    exact apart_blank (hs x hx) (hv c (by simp))
  · have hmem : ∀ d ∈ c :: u, d ∉ mark := by
      intro d hd hmem
      have hblank := hv d hd
      rw [hmark.not_blank d hmem] at hblank
      exact absurd hblank (by decide)
    rcases infix_of_disjoint hne hmem hinfix with h | h
    · exact h.trans (List.prefix_append _ _).isInfix
    · exact h.trans ((List.suffix_append w t).trans (List.suffix_append a _)).isInfix

/-- A line comment without a quote and an asterisk may follow where no comment sign can grow. -/
theorem replaces_comment {s v c : Text} (hs : ∀ x ∈ s.getLast?, isBlank x = false ∧ x ≠ '/' ∧ x ≠ '*')
    (hv : ∀ x ∈ v, isBlank x = true) (hquote : '"' ∉ c) (hstar : '*' ∉ c) :
    Replaces s [] (v ++ '/' :: '/' :: c) := by
  have hhead : ∀ y ∈ (v ++ '/' :: '/' :: c).head?, isBlank y = true ∨ y = '/' := by
    intro y hy
    cases v with
    | nil => exact .inr (by simpa using hy.symm)
    | cons d v =>
      obtain rfl : d = y := by simpa using hy
      exact .inl (hv d (by simp))
  refine ⟨?_, fun mark hmark a ha hnot hinfix => hnot ?_⟩
  · intro x hx y hy
    obtain ⟨hblank, hslash, -⟩ := hs x hx
    rcases hhead y hy with h | rfl
    · exact apart_blank hblank h
    · exact apart_slash hblank hslash
  obtain ⟨q, rest, rfl, hq⟩ := hmark.exists_head
  have hmem : q ∉ v ++ '/' :: '/' :: c := by
    have hblank := hmark.not_blank q (by simp)
    intro hmem
    rcases List.mem_append.1 hmem with h | h
    · rw [hv q h] at hblank
      exact absurd hblank (by decide)
    · rcases hq with ⟨rfl, -⟩ | ⟨rfl, -⟩
      · simp [hstar] at h
      · simp [hquote] at h
  rw [List.append_nil]
  rcases infix_cases hmem hinfix with h | ⟨u, d, w, hrest, hu, hd⟩
  · exact h
  · exfalso
    rcases hq with ⟨rfl, hslash⟩ | ⟨rfl, hh⟩
    · obtain rfl : u = [] := by
        cases u with
        | nil => rfl
        | cons e u => simp [hslash] at hrest
      obtain ⟨b, rfl⟩ := hu.trans ha
      exact (hs '*' (by simp)).2.2 rfl
    · obtain rfl := hh d (by simp [hrest])
      rcases hhead '#' hd with hd | hd <;> exact absurd hd (by decide)

/-! ## Rules that stay without effect -/

theorem rests_cutLineComment {s t x : Text} (hs : s ≠ []) (h : Apart s x) :
    Rests cutLineComment s t x := by
  intro hnone
  apply cutLineComment.eq_2
  intro rest heq
  obtain ⟨c, u, rfl⟩ := List.exists_cons_of_ne_nil hs
  rw [List.cons_append, List.cons.injEq] at heq
  obtain ⟨rfl, heq⟩ := heq
  refine append_ne_compound h (by decide) ?_ rest heq
  rintro u rfl
  simp [cutLineComment] at hnone

theorem rests_cutBlockComment {s t x : Text} (hs : s ≠ []) (h : Replaces s t x) :
    Rests cutBlockComment s t x := by
  intro hnone
  obtain ⟨c, u, rfl⟩ := List.exists_cons_of_ne_nil hs
  by_cases hmark : ∃ rest, c :: u = '/' :: '*' :: rest
  · obtain ⟨rest, heq⟩ := hmark
    rw [heq] at hnone h ⊢
    rw [List.cons_append, List.cons_append, cutBlockComment] at hnone ⊢
    rw [h.cutThrough (.inl rfl) ⟨['/', '*'], rfl⟩ (Cut.after_eq_none.1 hnone)]
    rfl
  · apply cutBlockComment.eq_2
    intro rest heq
    rw [List.cons_append, List.cons.injEq] at heq
    obtain ⟨rfl, heq⟩ := heq
    refine append_ne_compound h.apart (by decide) ?_ rest heq
    rintro v rfl
    exact hmark ⟨v, rfl⟩

theorem rests_cutRawString {s t x : Text} (hs : s ≠ []) (h : Replaces s t x) :
    Rests cutRawString s t x := by
  intro hnone
  apply cutRawString_append_eq_none hs h.apart
  rintro hashes body hh rfl
  apply h.cutThrough (.inr ⟨hashes, hh, rfl⟩)
  · exact ⟨'r' :: hashes ++ ['"'], by simp⟩
  · rw [List.cons_append, List.append_assoc] at hnone
    exact cutThrough_of_cutRawString hh hnone

theorem rests_cutByte_cutRawString {s t x : Text} (hs : s ≠ []) (h : Replaces s t x) :
    Rests (cutByte cutRawString) s t x := by
  apply rests_cutByte hs h.apart fun hb => (eq_none_behind_mark hb).1
  · exact rests_cutRawString hs h
  · rintro u hu rfl
    exact rests_cutRawString hu (Replaces.of_append (a := ['b']) h)

/-! ## Quotes with their partners -/

section Quotes

variable {s v : Text}

theorem cutString_ne_none (h : ∀ l ∈ lexemes ('"' :: v), l.isLoose = false) :
    cutString ('"' :: v) ≠ none := by
  intro hnone
  rw [cutString, Cut.after_eq_none] at hnone
  rw [lexemes_quote hnone] at h
  simpa [Lexeme.isLoose, Lexeme.isSign] using h _ (List.mem_cons_self)

theorem isSome_cutLifetime (h : ∀ l ∈ lexemes ('\x27' :: v), l.isLoose = false)
    (hchar : cutChar ('\x27' :: v) = none) : (cutLifetime ('\x27' :: v)).isSome := by
  rw [Option.isSome_iff_ne_none]
  intro hnone
  rw [lexemes_apostrophe hchar hnone] at h
  simpa [Lexeme.isLoose, Lexeme.isSign] using h _ (List.mem_cons_self)

theorem loose_byte_mark {q : Char} (hq : q = '"' ∨ q = '\x27')
    (h : ∀ l ∈ lexemes ('b' :: q :: v), l.isLoose = false) (hstring : cutString (q :: v) = none)
    (hchar : cutChar (q :: v) = none) : ∀ l ∈ lexemes (q :: v), l.isLoose = false := by
  rw [lexemes_byte_mark hq hstring hchar] at h
  exact fun l hl => h l (List.mem_cons_of_mem _ hl)

end Quotes

theorem eq_none_of_append {cut : Text → Cut} (h : Persists cut) {s t : Text}
    (hnone : cut (s ++ t) = none) : cut s = none := by
  rw [← Option.not_isSome_iff_eq_none]
  intro hsome
  have hlong := h s t hsome
  rw [hnone] at hlong
  exact absurd hlong (by decide)

section Rules

variable {s t x : Text} (hs : s ≠ []) (hloose : ∀ l ∈ lexemes s, l.isLoose = false)
  (h : Replaces s t x)

include hs hloose h

theorem rests_cutByte_cutString : Rests (cutByte cutString) s t x := by
  have hpersists := isExact_cutString.persists isCut_cutString
  have hother : ∀ u : Text, u ≠ [] → (∀ v, u ≠ '"' :: v) → cutString (u ++ x) = none := by
    intro u hu hquote
    obtain ⟨c, v, rfl⟩ := List.exists_cons_of_ne_nil hu
    apply cutString.eq_2
    rintro w heq
    rw [List.cons_append, List.cons.injEq] at heq
    exact hquote v (by rw [heq.1])
  apply rests_cutByte hs h.apart fun hb => (eq_none_behind_mark hb).2.1
  · intro hnone
    apply hother s hs
    rintro v rfl
    exact cutString_ne_none hloose (eq_none_of_append hpersists hnone)
  · rintro u hu rfl hnone
    apply hother u hu
    rintro v rfl
    have hshort := eq_none_of_append hpersists hnone
    exact cutString_ne_none (loose_byte_mark (.inl rfl) hloose hshort rfl) hshort

theorem rests_cutByte_cutChar : Rests (cutByte cutChar) s t x := by
  have hpersists := isExact_cutChar.persists isCut_cutChar
  apply rests_cutByte hs h.apart fun hb => (eq_none_behind_mark hb).2.2
  · intro hnone
    have hshort := eq_none_of_append hpersists hnone
    apply cutChar_append_eq_none hs h.apart _ hshort
    rintro v rfl
    exact isSome_cutLifetime hloose hshort
  · rintro u hu rfl hnone
    have hshort := eq_none_of_append hpersists hnone
    apply cutChar_append_eq_none hu (h.apart.tail hu) _ hshort
    rintro v rfl
    exact isSome_cutLifetime (loose_byte_mark (.inr rfl) hloose rfl hshort) hshort

theorem rests_cutLifetime : Rests cutLifetime s t x := by
  by_cases hq : ∃ u, s = '\x27' :: u
  · obtain ⟨u, rfl⟩ := hq
    have hu : u ≠ [] := by
      rintro rfl
      exact absurd (isSome_cutLifetime hloose rfl) (by decide)
    intro hnone
    rw [List.cons_append, cutLifetime, Cut.after_eq_none] at hnone ⊢
    exact rests_of_head (isSome_cutRun isNameStart isWord) hu hnone
  · intro _
    apply cutLifetime.eq_2
    intro u heq
    obtain ⟨c, v, rfl⟩ := List.exists_cons_of_ne_nil hs
    rw [List.cons_append, List.cons.injEq] at heq
    exact hq ⟨v, by rw [heq.1]⟩

theorem rests_of_mem_rules {rule : Lexeme.Kind × (Text → Cut)} (hmem : rule ∈ Lexeme.rules) :
    Rests rule.2 s t x := by
  simp only [Lexeme.rules, List.mem_cons, List.not_mem_nil, or_false] at hmem
  rcases hmem with rfl | rfl | rfl | rfl | rfl | rfl | rfl | rfl | rfl | rfl | rfl
  · exact rests_of_head (isSome_cutRun _ _) hs
  · exact rests_cutLineComment hs h.apart
  · exact rests_cutBlockComment hs h
  · exact rests_cutByte_cutRawString hs h
  · exact rests_cutByte_cutString hs hloose h
  · exact rests_cutByte_cutChar hs hloose h
  · exact rests_cutLifetime hs hloose h
  · exact rests_of_head isSome_cutIdent hs
  · exact rests_of_head (isSome_cutRun _ _) hs
  · exact rests_of_head isSome_cutPunct hs
  · exact rests_of_head (isSome_cutRun _ _) hs

end Rules

/-! ## Rules that apply in front of another text -/

theorem IsExact.extends {cut : Text → Cut} (h : IsExact cut) (hcut : IsCut cut) {s a r x : Text}
    (hs : cut s = some (a, r)) : cut (s ++ x) = some (a, r ++ x) := by
  rw [← (hcut _ _ _ hs).2, List.append_assoc]
  exact h _ _ _ hs _

theorem Keeps.extends {cut : Text → Cut} {s x a r : Text} (h : Keeps cut s x)
    (hs : cut s = some (a, r)) : cut (s ++ x) = some (a, r ++ x) := by
  rw [h, hs]
  rfl

/-- A rule takes the same in front of a text that stands apart. -/
theorem extends_of_mem_rules {rule : Lexeme.Kind × (Text → Cut)} (hmem : rule ∈ Lexeme.rules)
    (hkind : rule.1 ≠ .lineComment) {s a r x : Text} (hs : rule.2 s = some (a, r))
    (h : Apart s x) : rule.2 (s ++ x) = some (a, r ++ x) := by
  have hcut := Lexeme.isCut_of_mem_rules hmem
  have hne : s ≠ [] := by
    obtain ⟨ha, rfl⟩ := hcut _ _ _ hs
    simp [ha]
  simp only [Lexeme.rules, List.mem_cons, List.not_mem_nil, or_false] at hmem
  rcases hmem with rfl | rfl | rfl | rfl | rfl | rfl | rfl | rfl | rfl | rfl | rfl
  · exact (keeps_cutBlank hne h).extends hs
  · exact absurd rfl hkind
  · exact isExact_cutBlockComment.extends hcut hs
  · exact (isExact_cutByte isExact_cutRawString isCut_cutRawString).extends hcut hs
  · exact (isExact_cutByte isExact_cutString isCut_cutString).extends hcut hs
  · exact (isExact_cutByte isExact_cutChar isCut_cutChar).extends hcut hs
  · refine (keeps_cutLifetime hne h ?_).extends hs
    rintro rfl
    change cutLifetime ['\x27'] = some (a, r) at hs
    simp [cutLifetime, cutName, cutRun, Cut.after] at hs
  · exact (keeps_cutIdent hne h).extends hs
  · exact (keeps_cutNumber hne h).extends hs
  · exact (keeps_cutPunct hne h).extends hs
  · exact (keeps_cutRun hne fun _ _ _ _ _ => rfl).extends hs

/-! ## Gaps -/

/-- Whether one lexeme ends with `s` in front of `t`. -/
def IsGap (s t : Text) : Prop := lexemes (s ++ t) = lexemes s ++ lexemes t

instance (s t : Text) : Decidable (IsGap s t) := inferInstanceAs (Decidable (_ = _))

/-- The lexemes in front of a gap are the same in front of another text that may stand there. -/
theorem lexemes_replaced {s t x : Text} (hgap : IsGap s t)
    (hloose : ∀ l ∈ lexemes s, l.isLoose = false) (h : Replaces s t x) : IsGap s x := by
  unfold IsGap at hgap ⊢
  fun_induction lexemes s with
  | case1 s hfirst => rw [Lexeme.first?_eq_none hfirst, List.nil_append, List.nil_append]
  | case2 s l rest hfirst _ ih =>
    obtain ⟨hne, rfl⟩ := Lexeme.first?_eq_some hfirst
    have hs : l.text ++ rest ≠ [] := by simp [hne]
    have hkind : l.kind ≠ .lineComment := by
      have := hloose l (by simp)
      simp only [Lexeme.isLoose, Bool.or_eq_false_iff, beq_eq_false_iff_ne] at this
      exact this.1.1
    obtain ⟨rest', hlong, hrest'⟩ := first?_of_lexemes hgap
    obtain rfl : rest' = rest ++ t := by
      have happ := (Lexeme.first?_eq_some hlong).2
      rw [List.append_assoc, List.append_cancel_left_eq] at happ
      exact happ
    have hwhole : ∀ m ∈ lexemes (l.text ++ rest), m.isLoose = false := by
      rwa [lexemes_of_first? hfirst]
    have hfirst' : Lexeme.first? (l.text ++ rest ++ x) = some (l, rest ++ x) := by
      refine Lexeme.first?_transfer (fun rule hmem => rests_of_mem_rules hs hwhole h hmem)
        (fun rule hmem heq hcut => ?_) hlong
      rw [List.append_assoc] at hcut
      have hshort := Lexeme.narrows_of_mem_rules hmem _ _ _ hcut
      exact extends_of_mem_rules hmem (heq ▸ hkind) hshort h.apart
    rw [lexemes_of_first? hfirst', List.cons_append,
      ih hrest' (fun m hm => hloose m (List.mem_cons_of_mem _ hm)) h.of_append]

end Text

end DocScaffold
