import DocScaffold.Proofs.Squeezing

/-!
# Characters of lexemes

Literals and block comments begin and end with a character that is no blank; blanks consist of blanks,
and all other tokens hold none (`proper_of_mem`).
-/

namespace DocScaffold

namespace Text

/-- The text has a character at each end, and no blank there. -/
structure Solid (s : Text) : Prop where
  nonempty : s ≠ []
  head : ∀ c ∈ s.head?, isBlank c = false
  last : ∀ c ∈ s.getLast?, isBlank c = false

-- Stated with `all`, so that nothing runs over all characters.
instance (s : Text) : Decidable (Solid s) :=
  decidable_of_iff (s ≠ [] ∧ s.head?.all (fun c => !isBlank c) = true ∧
      s.getLast?.all (fun c => !isBlank c) = true) (by
    simp only [Option.all_eq_true, Bool.not_eq_true']
    exact ⟨fun ⟨a, b, c⟩ => ⟨a, b, c⟩, fun ⟨a, b, c⟩ => ⟨a, b, c⟩⟩)

theorem solid_trim {s : Text} (h : trim s ≠ []) : Solid (trim s) := by
  refine ⟨h, ?_, ?_⟩
  · intro c hc
    have hstart : ∀ d ∈ (trimStart s).head?, isBlank d = false :=
      fun d hd => head?_dropWhile isBlank hd
    apply hstart
    -- What the end loses does not reach the front.
    have happ : (trimStart s).reverse.takeWhile isBlank ++ (trimStart s).reverse.dropWhile isBlank =
        (trimStart s).reverse := List.takeWhile_append_dropWhile
    have hrev := congrArg List.reverse happ
    rw [List.reverse_append, List.reverse_reverse] at hrev
    rw [← hrev, List.head?_append]
    rw [trim, trimEnd] at hc
    rw [Option.mem_def.1 hc]
    rfl
  · intro c hc
    rw [trim, trimEnd, List.getLast?_reverse] at hc
    exact head?_dropWhile isBlank hc

theorem exists_first?_of_mem {s : Text} {l : Lexeme} (h : l ∈ lexemes s) :
    ∃ t rest, Lexeme.first? t = some (l, rest) := by
  fun_induction lexemes s with
  | case1 => simp at h
  | case2 s m rest hm _ ih =>
    rcases List.mem_cons.1 h with rfl | h
    · exact ⟨s, rest, hm⟩
    · exact ih h

end Text

namespace Lexeme

open Text

/-- What the characters of a lexeme are. -/
def Proper (l : Lexeme) : Prop :=
  match l.kind with
  | .blank => ∀ c ∈ l.text, isBlank c = true
  | .lineComment => '\n' ∉ l.text
  | .blockComment | .token .string | .token .char => Solid l.text
  | .token _ | .stray => ∀ c ∈ l.text, isBlank c = false

theorem getLast?_of_cutQuoted {s a b : Text} (h : cutQuoted s = some (a, b)) :
    a.getLast? = some '"' := by
  fun_induction cutQuoted s generalizing a with
  | case1 => simp at h
  | case2 rest =>
    simp only [Option.some.injEq, Prod.mk.injEq] at h
    simp [← h.1]
  | case3 => simp at h
  | case4 c rest ih =>
    obtain ⟨a', h', rfl⟩ := Cut.after_eq_some h
    rw [List.getLast?_append, ih h']
    rfl
  | case5 c rest _ _ _ ih =>
    obtain ⟨a', h', rfl⟩ := Cut.after_eq_some h
    rw [List.getLast?_append, ih h']
    rfl

/-- A literal begins with its mark and ends with its quote or its hashes. -/
theorem solid_of_ends {c d : Char} {a : Text} (hc : isBlank c = false) (hd : isBlank d = false)
    (hlast : (c :: a).getLast? = some d) : Solid (c :: a) :=
  ⟨by simp, by simpa using hc, by simpa [hlast] using hd⟩

/-- A literal or a block comment begins with its mark and ends with the sign of its end. -/
structure Marked (s : Text) : Prop where
  head : ∃ c ∈ s.head?, isBlank c = false
  last : ∃ c ∈ s.getLast?, c ∈ (['"', '#', '\x27', '/'] : Text)

theorem Marked.solid {s : Text} (h : Marked s) : Solid s := by
  obtain ⟨c, hc, hblank⟩ := h.head
  obtain ⟨d, hd, hmem⟩ := h.last
  have hsigns : ∀ e ∈ (['"', '#', '\x27', '/'] : Text), isBlank e = false :=
    not_blank_of_all (by decide)
  refine ⟨?_, ?_, ?_⟩
  · rintro rfl
    simp at hc
  · intro e he
    rw [Option.mem_unique he hc]
    exact hblank
  · intro e he
    rw [Option.mem_unique he hd]
    exact hsigns d hmem

theorem marked_cons {c d : Char} {s : Text} (hc : isBlank c = false)
    (hlast : (c :: s).getLast? = some d) (hd : d ∈ (['"', '#', '\x27', '/'] : Text)) :
    Marked (c :: s) :=
  ⟨⟨c, rfl, hc⟩, d, hlast, hd⟩

theorem marked_cutBlockComment {s a b : Text} (h : cutBlockComment s = some (a, b)) : Marked a := by
  obtain ⟨rest, body, -, hbody, rfl⟩ := cutBlockComment_eq_some h
  obtain ⟨u, rfl, -⟩ := exists_of_cutThrough (by simp) hbody
  have hlast : (['/', '*'] ++ (u ++ ['*', '/'])).getLast? = some '/' := by
    rw [← List.append_assoc, List.getLast?_append]
    rfl
  exact marked_cons (by decide) hlast (by decide)

theorem marked_cutByte {cut : Text → Cut} (h : ∀ s a b, cut s = some (a, b) → Marked a)
    {s a b : Text} (hcut : cutByte cut s = some (a, b)) : Marked a := by
  refine of_cutByte (fun a' ha => ?_) h hcut
  obtain ⟨d, hd, hmem⟩ := ha.last
  have hlast : (['b'] ++ a').getLast? = some d := by
    rw [List.getLast?_append, Option.mem_def.1 hd]
    rfl
  exact marked_cons (by decide) hlast hmem

theorem marked_cutRawString {s a b : Text} (h : cutRawString s = some (a, b)) : Marked a := by
  obtain ⟨hashes, rest, body, hhashes, -, hbody, rfl⟩ := cutRawString_eq_some h
  obtain ⟨u, rfl, -⟩ := exists_of_cutThrough (by simp) hbody
  have hend := List.getLast?_eq_some_getLast (List.cons_ne_nil '"' hashes)
  have hlast : ('r' :: (hashes ++ '"' :: (u ++ '"' :: hashes))).getLast? =
      some (('"' :: hashes).getLast (List.cons_ne_nil '"' hashes)) := by
    have hsplit : 'r' :: (hashes ++ '"' :: (u ++ '"' :: hashes)) =
        ('r' :: hashes ++ '"' :: u) ++ '"' :: hashes := by simp
    rw [hsplit, List.getLast?_append, hend]
    rfl
  refine marked_cons (by decide) hlast ?_
  rcases List.mem_cons.1 (List.mem_of_getLast? hend) with he | hmem
  · simp [he]
  · simp [hhashes _ hmem]

theorem marked_cutString {s a b : Text} (h : cutString s = some (a, b)) : Marked a := by
  obtain ⟨rest, body, -, hbody, rfl⟩ := cutString_eq_some h
  have hlast : (['"'] ++ body).getLast? = some '"' := by
    rw [List.getLast?_append, getLast?_of_cutQuoted hbody]
    rfl
  exact marked_cons (by decide) hlast (by decide)

theorem marked_cutChar {s a b : Text} (h : cutChar s = some (a, b)) : Marked a := by
  obtain ⟨-, ⟨c, rfl⟩ | ⟨c, -, -, rfl⟩⟩ := cutChar_eq_some h
  · exact marked_cons (d := '\x27') (by decide) rfl (by decide)
  · exact marked_cons (d := '\x27') (by decide) rfl (by decide)

theorem not_blank_of_cutRun {first more : Char → Bool} {s a b : Text}
    (h : cutRun first more s = some (a, b)) (hs : s.head?.any isBlank = false)
    (hmore : ∀ c, more c = true → isBlank c = false) : ∀ c ∈ a, isBlank c = false := by
  have happ := (isCut_cutRun _ _ _ _ _ h).2
  obtain ⟨⟨c, w, rfl, -, hw⟩, -⟩ := cutRun_eq_some h
  subst happ
  rw [List.cons_append, List.head?_cons, Option.any_some] at hs
  intro d hd
  rcases List.mem_cons.1 hd with rfl | hd
  · exact hs
  · exact hmore d (hw d hd)

theorem not_blank_of_cutName {s a b : Text} (h : cutName s = some (a, b)) :
    ∀ c ∈ a, isBlank c = false := by
  obtain ⟨⟨c, w, rfl, hc, hw⟩, -⟩ := cutRun_eq_some h
  intro d hd
  rcases List.mem_cons.1 hd with rfl | hd
  · exact isBlank_of_isNameStart hc
  · exact isBlank_of_isWord (hw d hd)

theorem not_blank_of_cutIdent {s a b : Text} (h : cutIdent s = some (a, b)) :
    ∀ c ∈ a, isBlank c = false := by
  rcases cutIdent_eq_some h with ⟨rest, name, -, hname, rfl⟩ | hname
  · have hmark : isBlank 'r' = false ∧ isBlank '#' = false := by decide
    exact List.forall_mem_cons.2 ⟨hmark.1, List.forall_mem_cons.2 ⟨hmark.2, not_blank_of_cutName hname⟩⟩
  · exact not_blank_of_cutName hname

theorem not_blank_of_cutPunct {s a b : Text} (h : cutPunct s = some (a, b)) :
    ∀ c ∈ a, isBlank c = false := by
  obtain ⟨-, hsign | ⟨c, hc, -, rfl⟩⟩ := cutPunct_eq_some h
  · simp only [List.mem_cons, List.not_mem_nil, or_false] at hsign
    rcases hsign with rfl | rfl | rfl | rfl | rfl <;> exact not_blank_of_all (by decide)
  · simpa using hc

theorem head_of_first? {s rest : Text} {l : Lexeme} (h : first? s = some (l, rest))
    (hkind : l.kind ≠ .blank) : s.head?.any isBlank = false := by
  cases hs : s.head?.any isBlank with
  | false => rfl
  | true =>
    obtain ⟨w, b, rfl, hne, hw, hb⟩ := exists_blanks hs
    rw [first?_blank hne hw hb, Option.some.injEq, Prod.mk.injEq] at h
    rw [← h.1] at hkind
    exact absurd rfl hkind

theorem proper_of_first? {s rest : Text} {l : Lexeme} (h : first? s = some (l, rest)) :
    l.Proper := by
  have hhead := head_of_first? h
  cases isFirst_of_first? h with
  | blank hcut =>
    obtain ⟨⟨c, w, rfl, hc, hw⟩, -⟩ := cutRun_eq_some hcut
    exact List.forall_mem_cons.2 ⟨hc, hw⟩
  | lineComment hcut =>
    obtain ⟨more, -, rfl, -⟩ := cutLineComment_eq_some hcut
    have hmark : '\n' ≠ '/' := by decide
    have hline : '\n' ∉ more.takeWhile (· != '\n') := fun hn =>
      absurd (of_mem_takeWhile (· != '\n') hn) (by decide)
    simpa [Proper, hmark] using hline
  | blockComment hcut => exact (marked_cutBlockComment hcut).solid
  | rawString hcut => exact (marked_cutByte (fun _ _ _ => marked_cutRawString) hcut).solid
  | string hcut => exact (marked_cutByte (fun _ _ _ => marked_cutString) hcut).solid
  | char hcut => exact (marked_cutByte (fun _ _ _ => marked_cutChar) hcut).solid
  | lifetime hcut =>
    obtain ⟨more, name, -, hname, rfl⟩ := cutLifetime_eq_some hcut
    exact List.forall_mem_cons.2 ⟨by decide, not_blank_of_cutName hname⟩
  | ident hcut => exact not_blank_of_cutIdent hcut
  | number hcut =>
    exact not_blank_of_cutRun hcut (hhead (by simp)) fun c hc => isBlank_of_isWord hc
  | punct hcut => exact not_blank_of_cutPunct hcut
  | stray hs =>
    subst hs
    simpa [Proper] using hhead (by simp)

theorem proper_of_mem {s : Text} {l : Lexeme} (h : l ∈ lexemes s) : l.Proper := by
  obtain ⟨t, rest, hfirst⟩ := exists_first?_of_mem h
  exact proper_of_first? hfirst

end Lexeme

end DocScaffold
