import DocScaffold.Proofs.Characters
import DocScaffold.Proofs.Cutting

/-!
# Texts that end between two lexemes

A text is closed when nothing in it is still open at its end: no line comment, no block comment and no
literal. A closed text is cut into the same lexemes whatever stands behind it, provided that its last
character and the next one do not run together (`lexemes_append`).
-/

namespace DocScaffold

namespace Lexeme

/-- Whether the lexeme is the one sign `c`. -/
def isSign (c : Char) (l : Lexeme) : Bool := l.kind == .token .punct && l.text == [c]

/-- Whether the lexeme is open towards the text behind it: a line comment, a quote without its
partner, the beginning of a block comment, or the hashes of a raw string without its end. -/
def isOpen (l : Lexeme) (next : Option Lexeme) : Bool :=
  l.kind == .lineComment || l.isSign '"' || l.isSign '\x27' ||
    (l.isSign '/' && next.any (isSign '*')) ||
    (l.isSign '#' && next.any (·.kind == .token .string))

def areClosed : List Lexeme → Bool
  | [] => true
  | l :: rest => !l.isOpen rest.head? && areClosed rest

end Lexeme

namespace Text

def isClosed (s : Text) : Bool := Lexeme.areClosed (lexemes s)

/-- The characters that are one sign together. -/
def compounds : List (Char × Char) :=
  [('-', '>'), ('=', '>'), (':', ':'), ('.', '.'), ('.', '='), ('/', '/'), ('/', '*')]

/-- Whether a lexeme may end with `x` in front of `y`. -/
def apart (x y : Char) : Bool :=
  !(isBlank x && isBlank y) &&
    !((isWord x || isDigit x) && (isWord y || y == '"' || y == '\x27' || y == '#')) &&
    !(x == '#' && (isWord y || y == '"' || y == '#')) && !compounds.contains (x, y)

/-- Whether the end of one text and the beginning of the other do not run together. -/
def Apart (s t : Text) : Prop := ∀ x ∈ s.getLast?, ∀ y ∈ t.head?, apart x y = true

theorem blank_of_apart {x y : Char} (h : apart x y = true) (hx : isBlank x = true) :
    isBlank y = false := by
  simp only [apart, hx, Bool.true_and, Bool.and_eq_true, Bool.not_eq_true'] at h
  exact h.1.1.1

theorem word_of_apart {x y : Char} (h : apart x y = true) (hx : isWord x || isDigit x) :
    isWord y = false ∧ y ≠ '"' ∧ y ≠ '\x27' ∧ y ≠ '#' := by
  simp only [apart, hx, Bool.true_and, Bool.and_eq_true, Bool.not_eq_true', Bool.or_eq_false_iff,
    beq_eq_false_iff_ne] at h
  exact ⟨h.1.1.2.1.1.1, h.1.1.2.1.1.2, h.1.1.2.1.2, h.1.1.2.2⟩

theorem hash_of_apart {y : Char} (h : apart '#' y = true) :
    isWord y = false ∧ y ≠ '"' ∧ y ≠ '#' := by
  simp only [apart, BEq.rfl, Bool.true_and, Bool.and_eq_true, Bool.not_eq_true',
    Bool.or_eq_false_iff, beq_eq_false_iff_ne] at h
  exact ⟨h.1.2.1.1, h.1.2.1.2, h.1.2.2⟩

theorem not_compound_of_apart {x y : Char} (h : apart x y = true) : (x, y) ∉ compounds := by
  simp only [apart, Bool.and_eq_true, Bool.not_eq_true', List.contains_eq_mem,
    decide_eq_false_iff_not] at h
  exact h.2

theorem apart_blank {x y : Char} (hx : isBlank x = false) (hy : isBlank y = true) :
    apart x y = true := by
  have hword := isWord_of_isBlank hy
  have hquote : y ≠ '"' ∧ y ≠ '\x27' ∧ y ≠ '#' := by
    refine ⟨?_, ?_, ?_⟩ <;> rintro rfl <;> exact absurd hy (by decide)
  have hcompound : (x, y) ∉ compounds := by
    intro hmem
    simp only [compounds, List.mem_cons, List.not_mem_nil, or_false, Prod.mk.injEq] at hmem
    rcases hmem with ⟨-, rfl⟩ | ⟨-, rfl⟩ | ⟨-, rfl⟩ | ⟨-, rfl⟩ | ⟨-, rfl⟩ | ⟨-, rfl⟩ | ⟨-, rfl⟩ <;>
      exact absurd hy (by decide)
  simp [apart, hx, hword, hquote, hcompound]

theorem Apart.tail {c : Char} {s t : Text} (h : Apart (c :: s) t) (hs : s ≠ []) : Apart s t := by
  intro x hx
  apply h x
  cases s with
  | nil => exact absurd rfl hs
  | cons d s => simpa [List.getLast?_cons_cons] using hx

theorem Apart.of_append {a b t : Text} (h : Apart (a ++ b) t) : Apart b t := by
  intro x hx
  apply h x
  rw [List.getLast?_append, Option.mem_def.1 hx]
  rfl

theorem Apart.head {c : Char} {t : Text} (h : Apart [c] t) : ∀ y ∈ t.head?, apart c y = true :=
  h c rfl

/-! ## Rules that stay without effect -/

/-- A rule that does not apply in front of `t` does not apply in front of `x`. -/
def Rests (cut : Text → Cut) (s t x : Text) : Prop := cut (s ++ t) = none → cut (s ++ x) = none

theorem rests_of_head {cut : Text → Cut} {p : Char → Bool}
    (h : ∀ s, (cut s).isSome = s.head?.any p) {s t x : Text} (hs : s ≠ []) : Rests cut s t x := by
  intro hnone
  rw [← Option.not_isSome_iff_eq_none] at hnone ⊢
  rwa [isSome_append_of_head h hs] at hnone ⊢

/-- The mark of a byte literal at the end of a text stands in front of no literal. -/
theorem rests_cutByte {cut : Text → Cut} {s t x : Text} (hs : s ≠ []) (h : Apart s x)
    (hstart : Apart ['b'] x → cut x = none) (hwhole : Rests cut s t x)
    (hrest : ∀ u, u ≠ [] → s = 'b' :: u → Rests cut u t x) : Rests (cutByte cut) s t x := by
  intro hnone
  obtain ⟨c, u, rfl⟩ := List.exists_cons_of_ne_nil hs
  by_cases hc : c = 'b'
  · subst hc
    rw [List.cons_append, cutByte] at hnone ⊢
    by_cases hu : u = []
    · subst hu
      rw [List.nil_append, hstart h]
      rfl
    · rw [hrest u hu rfl (Cut.after_eq_none.1 hnone)]
      rfl
  · rw [List.cons_append, cutByte.eq_2 _ _ (by simp [hc])] at hnone ⊢
    exact hwhole hnone

/-- No literal begins behind a word. -/
theorem eq_none_behind_mark {t : Text} (h : Apart ['b'] t) :
    cutRawString t = none ∧ cutString t = none ∧ cutChar t = none := by
  cases t with
  | nil => exact ⟨rfl, rfl, rfl⟩
  | cons y t =>
    obtain ⟨hword, hquote, hapostrophe, -⟩ := word_of_apart (h.head y rfl) (by decide)
    have hr : y ≠ 'r' := by
      rintro rfl
      exact absurd hword (by decide)
    exact ⟨cutRawString.eq_2 _ (by simp [hr]), cutString.eq_2 _ (by simp [hquote]),
      cutChar.eq_3 _ (by simp [hapostrophe]) (by simp [hapostrophe])⟩

/-! ## Rules that a longer text does not disturb -/

/-- The cut takes the same when `t` stands behind the text. -/
def Keeps (cut : Text → Cut) (s t : Text) : Prop :=
  cut (s ++ t) = (cut s).map fun p => (p.1, p.2 ++ t)

theorem IsExact.keeps {cut : Text → Cut} (h : IsExact cut) (hcut : IsCut cut) {s t : Text}
    (hs : Rests cut s [] t) : Keeps cut s t := by
  unfold Keeps
  cases hc : cut s with
  | none => exact hs (by rwa [List.append_nil])
  | some p =>
    obtain ⟨a, b⟩ := p
    have happ := (hcut _ _ _ hc).2
    rw [← happ, List.append_assoc, h _ _ _ hc]
    rfl

theorem keeps_cutRun {first more : Char → Bool} {s t : Text} (hs : s ≠ [])
    (h : ∀ x ∈ s.getLast?, first x || more x → ∀ y ∈ t.head?, more y = false) :
    Keeps (cutRun first more) s t := by
  unfold Keeps
  cases hc : cutRun first more s with
  | none => exact rests_of_head (t := []) (isSome_cutRun first more) hs (by rwa [List.append_nil])
  | some p =>
    obtain ⟨a, b⟩ := p
    have happ := (isCut_cutRun _ _ _ _ _ hc).2
    obtain ⟨⟨c, w, rfl, hfirst, hw⟩, hstop⟩ := cutRun_eq_some hc
    subst happ
    rw [List.append_assoc, cutRun_append hfirst hw]
    · rfl
    · cases b with
      | cons d b => simpa using hstop
      | nil =>
        intro y hy
        rw [List.append_nil] at h
        have hx := List.getLast?_eq_some_getLast (List.cons_ne_nil c w)
        generalize (c :: w).getLast (List.cons_ne_nil c w) = x at hx
        refine h x hx ?_ y hy
        rcases List.mem_cons.1 (List.mem_of_getLast? hx) with rfl | hmem
        · simp [hfirst]
        · simp [hw x hmem]

theorem keeps_cutName {s t : Text} (hs : s ≠ []) (h : Apart s t) : Keeps cutName s t := by
  apply keeps_cutRun hs
  intro x hx hword y hy
  have hx' : isWord x = true := by
    rcases Bool.or_eq_true_iff.1 hword with h | h
    · exact isWord_of_isNameStart x h
    · exact h
  exact (word_of_apart (h x hx y hy) (by simp [hx'])).1

theorem keeps_cutNumber {s t : Text} (hs : s ≠ []) (h : Apart s t) :
    Keeps (cutRun isDigit isWord) s t := by
  apply keeps_cutRun hs
  intro x hx hword y hy
  exact (word_of_apart (h x hx y hy) (by rw [Bool.or_comm]; exact hword)).1

theorem keeps_cutBlank {s t : Text} (hs : s ≠ []) (h : Apart s t) :
    Keeps (cutRun isBlank isBlank) s t := by
  apply keeps_cutRun hs
  intro x hx hblank y hy
  exact blank_of_apart (h x hx y hy) (by simpa using hblank)

theorem keeps_cutLifetime {s t : Text} (hs : s ≠ []) (h : Apart s t) (hq : s ≠ ['\x27']) :
    Keeps cutLifetime s t := by
  unfold Keeps
  cases s with
  | nil => exact absurd rfl hs
  | cons c rest =>
    by_cases hc : c = '\x27'
    · subst hc
      have hrest : rest ≠ [] := fun h => hq (by rw [h])
      rw [List.cons_append, cutLifetime, keeps_cutName hrest (h.tail hrest), cutLifetime]
      cases cutName rest <;> rfl
    · have hnone : ∀ u, cutLifetime (c :: u) = none := fun u => cutLifetime.eq_2 _ (by simp [hc])
      rw [List.cons_append, hnone, hnone]
      rfl

theorem keeps_cutIdent {s t : Text} (hs : s ≠ []) (h : Apart s t) : Keeps cutIdent s t := by
  unfold Keeps
  by_cases hraw : ∃ rest, s = 'r' :: '#' :: rest
  · obtain ⟨rest, rfl⟩ := hraw
    have hwhole := keeps_cutName hs h
    unfold Keeps at hwhole
    rw [List.cons_append, List.cons_append] at hwhole ⊢
    rw [cutIdent, cutIdent, hwhole]
    by_cases hrest : rest = []
    · subst hrest
      have hhash : Apart ['#'] t := h.tail (by simp)
      have hnone : cutName t = none := by
        rw [← Option.not_isSome_iff_eq_none, cutName, isSome_cutRun]
        cases t with
        | nil => simp
        | cons y t =>
          have := (hash_of_apart (hhash.head y rfl)).1
          intro hy
          rw [List.head?_cons, Option.any_some] at hy
          rw [isWord_of_isNameStart y hy] at this
          exact absurd this (by decide)
      rw [List.nil_append, hnone]
      rfl
    · have hname := keeps_cutName hrest ((h.tail (by simp)).tail hrest)
      unfold Keeps at hname
      rw [hname]
      cases cutName rest <;> rfl
  · have hraw' : ∀ rest, s ++ t ≠ 'r' :: '#' :: rest := by
      intro rest heq
      cases s with
      | nil => exact hs rfl
      | cons c s =>
        rw [List.cons_append, List.cons.injEq] at heq
        obtain ⟨rfl, heq⟩ := heq
        cases s with
        | nil =>
          rw [List.nil_append] at heq
          subst heq
          exact (word_of_apart (h.head '#' rfl) (by decide)).2.2.2 rfl
        | cons d s =>
          rw [List.cons_append, List.cons.injEq] at heq
          exact hraw ⟨s, by rw [heq.1]⟩
    rw [cutIdent_of_not_raw hraw', cutIdent_of_not_raw (fun rest heq => hraw ⟨rest, heq⟩)]
    exact keeps_cutName hs h

/-- A sign that would grow into the text behind does not stand at the end. -/
theorem append_ne_compound {c d : Char} {s t : Text} (h : Apart (c :: s) t) (hj : (c, d) ∈ compounds)
    (hs : ∀ u, s ≠ d :: u) : ∀ u, s ++ t ≠ d :: u := by
  intro u heq
  cases s with
  | nil =>
    rw [List.nil_append] at heq
    subst heq
    exact not_compound_of_apart (h.head d rfl) hj
  | cons e s =>
    rw [List.cons_append, List.cons.injEq] at heq
    exact hs s (by rw [heq.1])

theorem keeps_cutPunct {s t : Text} (hs : s ≠ []) (h : Apart s t) : Keeps cutPunct s t := by
  unfold Keeps
  fun_cases cutPunct s with
  | case1 => exact absurd rfl hs
  | case6 rest hrest =>
    have hgrow := append_ne_compound (h.tail (by simp)) (d := '=') (by decide)
      (fun u heq => hrest u heq)
    rw [List.cons_append, List.cons_append, cutPunct.eq_6 _ (fun u => hgrow u)]
    rfl
  | case7 c rest h1 h2 h3 h4 h5 hc | case8 c rest h1 h2 h3 h4 h5 hc =>
    have hgrow : ∀ d, (c, d) ∈ compounds → (∀ u, rest ≠ d :: u) → ∀ u, rest ++ t ≠ d :: u :=
      fun d hj hd => append_ne_compound h hj hd
    rw [List.cons_append, cutPunct.eq_7]
    · simp [hc]
    · rintro u rfl
      exact hgrow '>' (by decide) (fun v hv => h1 v rfl hv) u
    · rintro u rfl
      exact hgrow '>' (by decide) (fun v hv => h2 v rfl hv) u
    · rintro u rfl
      exact hgrow ':' (by decide) (fun v hv => h3 v rfl hv) u
    · rintro u rfl heq
      exact hgrow '.' (by decide) (fun v hv => h5 v rfl hv) ('=' :: u) heq
    · rintro u rfl
      exact hgrow '.' (by decide) (fun v hv => h5 v rfl hv) u
  | _ => simp [cutPunct]

/-! ## Signs that are left open -/

/-- A sign that can begin nothing but itself. -/
def isPlain (c : Char) : Bool :=
  !isBlank c && !isWord c && !isDigit c && !(['"', '\x27', '/', '-', '=', ':', '.'] : Text).contains c

theorem isNameStart_of_not_isWord {c : Char} (h : isWord c = false) : isNameStart c = false := by
  cases hc : isNameStart c with
  | false => rfl
  | true =>
    rw [isWord_of_isNameStart c hc] at h
    exact absurd h (by decide)

theorem cutRun_of_not_first {first more : Char → Bool} {c : Char} {rest : Text}
    (h : first c = false) : cutRun first more (c :: rest) = none := by
  rw [cutRun, h]
  rfl

theorem cutIdent_of_not_word {c : Char} {rest : Text} (h : isWord c = false) :
    cutIdent (c :: rest) = none := by
  rw [cutIdent_of_not_raw]
  · exact cutRun_of_not_first (isNameStart_of_not_isWord h)
  · rintro rest' heq
    rw [(List.cons.inj heq).1] at h
    exact absurd h (by decide)

/-- A sign on which every rule but the last ones fails begins a lexeme of signs. -/
theorem lexemes_of_sign {c : Char} {rest a b : Text}
    (hclass : isBlank c = false ∧ isWord c = false ∧ isDigit c = false)
    (hcomment : cutLineComment (c :: rest) = none ∧ cutBlockComment (c :: rest) = none)
    (hstring : cutString (c :: rest) = none)
    (hchar : cutChar (c :: rest) = none ∧ cutLifetime (c :: rest) = none)
    (hpunct : cutPunct (c :: rest) = some (a, b)) :
    lexemes (c :: rest) = ⟨.token .punct, a⟩ :: lexemes b := by
  have hb : c ≠ 'b' ∧ c ≠ 'r' := by
    constructor <;> rintro rfl <;> exact absurd hclass.2.1 (by decide)
  have hraw : cutByte cutRawString (c :: rest) = none := by
    rw [cutByte.eq_2 _ _ (by simp [hb.1]), cutRawString.eq_2 _ (by simp [hb.2])]
  have hbyte : ∀ cut : Text → Cut, cutByte cut (c :: rest) = cut (c :: rest) :=
    fun cut => cutByte.eq_2 cut _ (by simp [hb.1])
  apply lexemes_of_first?
  simp only [Lexeme.first?, Lexeme.rules, List.findSome?_cons, hcomment, hraw, hbyte, hstring, hchar,
    cutRun_of_not_first hclass.1, cutRun_of_not_first hclass.2.2, cutIdent_of_not_word hclass.2.1,
    hpunct, Option.map_none, Option.map_some]

theorem lexemes_of_isPlain {c : Char} {rest : Text} (h : isPlain c = true) :
    lexemes (c :: rest) = ⟨.token .punct, [c]⟩ :: lexemes rest := by
  simp only [isPlain, Bool.and_eq_true, Bool.not_eq_true', List.contains_eq_mem, List.mem_cons,
    List.not_mem_nil, or_false, decide_eq_false_iff_not, not_or] at h
  obtain ⟨⟨⟨hb, hw⟩, hd⟩, h1, h2, h3, h4, h5, h6, h7⟩ := h
  apply lexemes_of_sign ⟨hb, hw, hd⟩
  · exact ⟨cutLineComment.eq_2 _ (by simp [h3]), cutBlockComment.eq_2 _ (by simp [h3])⟩
  · exact cutString.eq_2 _ (by simp [h1])
  · exact ⟨cutChar.eq_3 _ (by simp [h2]) (by simp [h2]), cutLifetime.eq_2 _ (by simp [h2])⟩
  · rw [cutPunct.eq_7 _ _ (by simp [h4]) (by simp [h5]) (by simp [h6]) (by simp [h7])
      (by simp [h7]), hb, hw]
    rfl

theorem lexemes_quote {rest : Text} (h : cutQuoted rest = none) :
    lexemes ('"' :: rest) = ⟨.token .punct, ['"']⟩ :: lexemes rest := by
  apply lexemes_of_sign (by decide)
  · exact ⟨rfl, rfl⟩
  · rw [cutString, h]
    rfl
  · exact ⟨rfl, rfl⟩
  · rfl

theorem lexemes_apostrophe {rest : Text} (hchar : cutChar ('\x27' :: rest) = none)
    (hlifetime : cutLifetime ('\x27' :: rest) = none) :
    lexemes ('\x27' :: rest) = ⟨.token .punct, ['\x27']⟩ :: lexemes rest :=
  lexemes_of_sign (by decide) ⟨rfl, rfl⟩ rfl ⟨hchar, hlifetime⟩ rfl

theorem lexemes_slash_star {rest : Text} (h : cutThrough ['*', '/'] rest = none) :
    lexemes ('/' :: '*' :: rest) =
      ⟨.token .punct, ['/']⟩ :: ⟨.token .punct, ['*']⟩ :: lexemes rest := by
  have hblock : cutBlockComment ('/' :: '*' :: rest) = none := by
    rw [cutBlockComment, h]
    rfl
  rw [lexemes_of_sign (by decide) ⟨rfl, hblock⟩ rfl ⟨rfl, rfl⟩ rfl,
    lexemes_of_isPlain (c := '*') (by decide)]

theorem mem_of_cutQuoted {s a b : Text} (h : cutQuoted s = some (a, b)) : '"' ∈ s := by
  fun_induction cutQuoted s generalizing a with
  | case1 => simp at h
  | case2 rest => simp
  | case3 => simp at h
  | case4 c rest ih =>
    obtain ⟨a', h', -⟩ := Cut.after_eq_some h
    simp [ih h']
  | case5 c rest _ _ _ ih =>
    obtain ⟨a', h', -⟩ := Cut.after_eq_some h
    simp [ih h']

theorem cutThrough_isSome_of_mem {c : Char} {s : Text} (h : c ∈ s) : (cutThrough [c] s).isSome := by
  induction s with
  | nil => simp at h
  | cons d s ih =>
    rw [cutThrough]
    split
    · rfl
    · rename_i hd
      rw [Cut.isSome_after]
      rcases List.mem_cons.1 h with rfl | h
      · simp at hd
      · exact ih h

theorem lexemes_string {rest a b : Text} (h : cutQuoted rest = some (a, b)) :
    lexemes ('"' :: rest) = ⟨.token .string, '"' :: a⟩ :: lexemes b := by
  have hcut : cutByte cutString ('"' :: rest) = some ('"' :: a, b) := by
    rw [cutByte.eq_2 _ _ (by simp), cutString, h]
    rfl
  have hcomment : cutLineComment ('"' :: rest) = none ∧ cutBlockComment ('"' :: rest) = none :=
    ⟨rfl, rfl⟩
  have hraw : cutByte cutRawString ('"' :: rest) = none := rfl
  apply lexemes_of_first?
  simp only [Lexeme.first?, Lexeme.rules, List.findSome?_cons, hcomment, hraw, hcut,
    cutRun_of_not_first (show isBlank '"' = false by decide), Option.map_none, Option.map_some]

/-- Behind a quote stands a string, or the quote is a sign. -/
theorem exists_lexemes_quote (rest : Text) : ∃ l ls, lexemes ('"' :: rest) = l :: ls ∧
    (l.kind = .token .string ∨ cutQuoted rest = none ∧ l.isSign '"') := by
  cases h : cutQuoted rest with
  | none => exact ⟨_, _, lexemes_quote h, .inr ⟨rfl, by decide⟩⟩
  | some p => exact ⟨_, _, lexemes_string h, .inl rfl⟩

theorem areClosed_tail {s rest : Text} {l : Lexeme} (h : Lexeme.first? s = some (l, rest))
    (hs : isClosed s = true) : isClosed rest = true := by
  rw [isClosed, lexemes_of_first? h, Lexeme.areClosed, Bool.and_eq_true] at hs
  exact hs.2

theorem not_isClosed_of_first {s : Text} {l : Lexeme} {ls : List Lexeme} (h : lexemes s = l :: ls)
    (hopen : l.isOpen ls.head? = true) : isClosed s = false := by
  rw [isClosed, h, Lexeme.areClosed, hopen]
  rfl

theorem not_isClosed_quote {rest : Text} (h : cutQuoted rest = none) :
    isClosed ('"' :: rest) = false :=
  not_isClosed_of_first (lexemes_quote h) (by simp [Lexeme.isOpen, Lexeme.isSign])

theorem not_isClosed_apostrophe {rest : Text} (hchar : cutChar ('\x27' :: rest) = none)
    (hlifetime : cutLifetime ('\x27' :: rest) = none) : isClosed ('\x27' :: rest) = false :=
  not_isClosed_of_first (lexemes_apostrophe hchar hlifetime) (by simp [Lexeme.isOpen, Lexeme.isSign])

theorem not_isClosed_slash_star {rest : Text} (h : cutThrough ['*', '/'] rest = none) :
    isClosed ('/' :: '*' :: rest) = false :=
  not_isClosed_of_first (lexemes_slash_star h) (by simp [Lexeme.isOpen, Lexeme.isSign])

theorem first?_line_comment (rest : Text) : Lexeme.first? ('/' :: '/' :: rest) =
    some (⟨.lineComment, '/' :: '/' :: rest.takeWhile (· != '\n')⟩,
      rest.dropWhile (· != '\n')) := by
  simp only [Lexeme.first?, Lexeme.rules, List.findSome?_cons, cutLineComment,
    cutRun_of_not_first (show isBlank '/' = false by decide), Option.map_none, Option.map_some]

theorem not_isClosed_line_comment {rest : Text} : isClosed ('/' :: '/' :: rest) = false :=
  not_isClosed_of_first (lexemes_of_first? (first?_line_comment rest)) (by simp [Lexeme.isOpen])

/-- No word begins with hashes or a quote. -/
theorem head_of_hashes {hashes : Text} (body : Text) (hh : ∀ c ∈ hashes, c = '#') :
    ∀ d ∈ (hashes ++ '"' :: body).head?, isWord d = false := by
  cases hashes with
  | nil => simp; decide
  | cons c hashes =>
    obtain rfl := hh c (by simp)
    simp
    decide

/-- Hashes with a quote behind them, outside a raw string. -/
theorem not_isClosed_hashes {hashes body : Text} (hh : ∀ c ∈ hashes, c = '#')
    (hbody : hashes = [] → cutQuoted body = none) : isClosed (hashes ++ '"' :: body) = false := by
  induction hashes with
  | nil => exact not_isClosed_quote (hbody rfl)
  | cons c hashes ih =>
    have hc := hh c (by simp)
    subst hc
    have hcut : lexemes ('#' :: (hashes ++ '"' :: body)) =
        ⟨.token .punct, ['#']⟩ :: lexemes (hashes ++ '"' :: body) := lexemes_of_isPlain (by decide)
    by_cases hnil : hashes = []
    · subst hnil
      obtain ⟨l, ls, hl, hkind | ⟨hnone, -⟩⟩ := exists_lexemes_quote body
      · refine not_isClosed_of_first hcut ?_
        rw [List.nil_append, hl]
        simp [Lexeme.isOpen, Lexeme.isSign, hkind]
      · rw [List.cons_append, isClosed, hcut, Lexeme.areClosed]
        have hopen := not_isClosed_quote hnone
        rw [isClosed] at hopen
        simp [hopen]
    · rw [List.cons_append, isClosed, hcut, Lexeme.areClosed]
      have hopen := ih (fun d hd => hh d (by simp [hd])) (fun h => absurd h hnil)
      rw [isClosed] at hopen
      simp [hopen]

/-- A text that begins like a name is cut behind the name, unless it is a literal. -/
theorem lexemes_of_name {c : Char} {w rest : Text} (hc : isNameStart c = true)
    (hraw : cutByte cutRawString (c :: (w ++ rest)) = none)
    (hstring : cutByte cutString (c :: (w ++ rest)) = none)
    (hchar : cutByte cutChar (c :: (w ++ rest)) = none)
    (hident : cutIdent (c :: (w ++ rest)) = some (c :: w, rest)) :
    lexemes (c :: (w ++ rest)) = ⟨.token .ident, c :: w⟩ :: lexemes rest := by
  have hslash : c ≠ '/' := by
    rintro rfl
    exact absurd hc (by decide)
  have hquote : c ≠ '\x27' := by
    rintro rfl
    exact absurd hc (by decide)
  have hcomment : cutLineComment (c :: (w ++ rest)) = none ∧
      cutBlockComment (c :: (w ++ rest)) = none :=
    ⟨cutLineComment.eq_2 _ (by simp [hslash]), cutBlockComment.eq_2 _ (by simp [hslash])⟩
  have hlifetime : cutLifetime (c :: (w ++ rest)) = none := cutLifetime.eq_2 _ (by simp [hquote])
  apply lexemes_of_first?
  simp only [Lexeme.first?, Lexeme.rules, List.findSome?_cons, hcomment, hraw, hstring, hchar,
    hlifetime, hident, cutRun_of_not_first (isBlank_of_isNameStart hc), Option.map_none,
    Option.map_some]

/-- The mark of a byte literal without the literal. -/
theorem lexemes_byte_mark {q : Char} {rest : Text} (hq : q = '"' ∨ q = '\x27')
    (hstring : cutString (q :: rest) = none) (hchar : cutChar (q :: rest) = none) :
    lexemes ('b' :: q :: rest) = ⟨.token .ident, ['b']⟩ :: lexemes (q :: rest) := by
  have hraw : cutRawString (q :: rest) = none := by
    rcases hq with rfl | rfl <;> rfl
  have hword : ∀ d ∈ (q :: rest).head?, isWord d = false := by
    rcases hq with rfl | rfl <;> simp <;> decide
  apply lexemes_of_name (w := [])
  · decide
  · rw [List.nil_append, cutByte, hraw]
    rfl
  · rw [List.nil_append, cutByte, hstring]
    rfl
  · rw [List.nil_append, cutByte, hchar]
    rfl
  · rw [List.nil_append, cutIdent_of_not_raw (by simp)]
    exact cutRun_append (c := 'b') (w := []) (by decide) (by simp) hword

theorem isClosed_byte_mark {q : Char} {rest : Text} (hq : q = '"' ∨ q = '\x27')
    (hstring : cutString (q :: rest) = none) (hchar : cutChar (q :: rest) = none)
    (hs : isClosed ('b' :: q :: rest) = true) : isClosed (q :: rest) = true := by
  rw [isClosed, lexemes_byte_mark hq hstring hchar, Lexeme.areClosed, Bool.and_eq_true] at hs
  exact hs.2

/-- The front of a raw string is no raw identifier, since a quote begins no name. -/
theorem cutIdent_raw_mark {hashes : Text} (body : Text) (hh : ∀ c ∈ hashes, c = '#') :
    cutIdent ('r' :: (hashes ++ '"' :: body)) = some (['r'], hashes ++ '"' :: body) := by
  have hname : cutName ('r' :: (hashes ++ '"' :: body)) = some (['r'], hashes ++ '"' :: body) :=
    cutRun_append (c := 'r') (w := []) (by decide) (by simp) (head_of_hashes body hh)
  cases hashes with
  | nil => exact hname
  | cons c hashes =>
    obtain rfl := hh c (by simp)
    have hnone : cutName (hashes ++ '"' :: body) = none := by
      cases hashes with
      | nil => rfl
      | cons d hashes =>
        obtain rfl := hh d (by simp)
        exact cutRun_of_not_first (by decide)
    rw [List.cons_append] at hname
    rw [List.cons_append, cutIdent, hnone, hname]
    rfl

/-- A raw string without its end is a name in front of hashes and a quote. -/
theorem lexemes_raw_mark {hashes body : Text} {w : Text} (hw : w = ['r'] ∨ w = ['b', 'r'])
    (hh : ∀ c ∈ hashes, c = '#') (hbody : cutThrough ('"' :: hashes) body = none) :
    lexemes (w ++ (hashes ++ '"' :: body)) =
      ⟨.token .ident, w⟩ :: lexemes (hashes ++ '"' :: body) := by
  have hraw : cutRawString ('r' :: (hashes ++ '"' :: body)) = none := by
    rw [cutRawString_hashes body hh, hbody]
    rfl
  rcases hw with rfl | rfl
  · apply lexemes_of_name (w := [])
    · decide
    · rw [cutByte.eq_2 _ _ (by simp)]
      exact hraw
    · rfl
    · rfl
    · exact cutIdent_raw_mark body hh
  · apply lexemes_of_name (c := 'b') (w := ['r'])
    · decide
    · rw [cutByte, List.singleton_append, hraw]
      rfl
    · rfl
    · rfl
    · rw [cutIdent_of_not_raw (by simp)]
      exact cutRun_append (c := 'b') (w := ['r']) (by decide) (by simp; decide)
        (head_of_hashes body hh)

theorem not_isClosed_raw {hashes body : Text} {w : Text} (hw : w = ['r'] ∨ w = ['b', 'r'])
    (hh : ∀ c ∈ hashes, c = '#') (hbody : cutThrough ('"' :: hashes) body = none) :
    isClosed (w ++ (hashes ++ '"' :: body)) = false := by
  have hrest : isClosed (hashes ++ '"' :: body) = false := by
    refine not_isClosed_hashes hh fun hnil => ?_
    subst hnil
    cases hq : cutQuoted body with
    | none => rfl
    | some p =>
      have := cutThrough_isSome_of_mem (mem_of_cutQuoted hq)
      rw [hbody] at this
      simp at this
  rw [isClosed, lexemes_raw_mark hw hh hbody, Lexeme.areClosed]
  rw [isClosed] at hrest
  simp [hrest]

/-! ## Closed texts -/

theorem keeps_cutLineComment {s t : Text} (hs : s ≠ []) (hclosed : isClosed s = true)
    (h : Apart s t) : Keeps cutLineComment s t := by
  have hlong : ∀ rest, s ++ t ≠ '/' :: '/' :: rest := by
    intro rest heq
    cases s with
    | nil => exact hs rfl
    | cons c s =>
      rw [List.cons_append, List.cons.injEq] at heq
      obtain ⟨rfl, heq⟩ := heq
      refine append_ne_compound h (by decide) ?_ rest heq
      rintro u rfl
      rw [not_isClosed_line_comment] at hclosed
      exact absurd hclosed (by decide)
  have hshort : ∀ rest, s ≠ '/' :: '/' :: rest := by
    rintro rest rfl
    exact hlong (rest ++ t) rfl
  unfold Keeps
  rw [cutLineComment.eq_2 _ (fun rest => hlong rest), cutLineComment.eq_2 _ (fun rest => hshort rest)]
  rfl

theorem keeps_cutBlockComment {s t : Text} (hs : s ≠ []) (hclosed : isClosed s = true)
    (h : Apart s t) : Keeps cutBlockComment s t := by
  apply isExact_cutBlockComment.keeps isCut_cutBlockComment
  intro hnone
  rw [List.append_nil] at hnone
  by_cases hmark : ∃ rest, s = '/' :: '*' :: rest
  · obtain ⟨rest, rfl⟩ := hmark
    rw [cutBlockComment, Cut.after_eq_none] at hnone
    rw [not_isClosed_slash_star hnone] at hclosed
    exact absurd hclosed (by decide)
  · apply cutBlockComment.eq_2
    intro rest heq
    cases s with
    | nil => exact hs rfl
    | cons c s =>
      rw [List.cons_append, List.cons.injEq] at heq
      obtain ⟨rfl, heq⟩ := heq
      refine append_ne_compound h (by decide) ?_ rest heq
      rintro u rfl
      exact hmark ⟨u, rfl⟩

theorem cutThrough_of_cutRawString {hashes body : Text} (hh : ∀ c ∈ hashes, c = '#')
    (h : cutRawString ('r' :: (hashes ++ '"' :: body)) = none) :
    cutThrough ('"' :: hashes) body = none := by
  rw [cutRawString_hashes body hh] at h
  exact Cut.after_eq_none.1 h

theorem cutRawString_append_eq_none {s t : Text} (hs : s ≠ []) (h : Apart s t)
    (hopen : ∀ hashes body, (∀ c ∈ hashes, c = '#') → s = 'r' :: (hashes ++ '"' :: body) →
      cutThrough ('"' :: hashes) (body ++ t) = none) : cutRawString (s ++ t) = none := by
  cases s with
  | nil => exact absurd rfl hs
  | cons c rest =>
    by_cases hc : c = 'r'
    · subst hc
      obtain ⟨hashes, tail, rfl, hh, htail⟩ := exists_hashes rest
      rw [List.cons_append, List.append_assoc]
      cases tail with
      | nil =>
        rw [List.append_nil] at h
        apply cutRawString_of_no_quote hh
        intro y hy
        have hlast := List.getLast?_eq_some_getLast (List.cons_ne_nil 'r' hashes)
        have hapart := h _ hlast y hy
        rcases List.mem_cons.1 (List.mem_of_getLast? hlast) with hr | hmem
        · rw [hr] at hapart
          have := word_of_apart hapart (by decide)
          exact ⟨this.2.2.2, this.2.1⟩
        · rw [hh _ hmem] at hapart
          exact (hash_of_apart hapart).2.symm
      | cons d tail =>
        by_cases hd : d = '"'
        · subst hd
          rw [List.cons_append, cutRawString_hashes _ hh, hopen hashes tail hh rfl]
          rfl
        · apply cutRawString_of_no_quote hh
          intro y hy
          obtain rfl : d = y := by simpa using hy
          exact ⟨htail d rfl, hd⟩
    · exact cutRawString.eq_2 _ (by simp [hc])

theorem keeps_cutByte_cutRawString {s t : Text} (hs : s ≠ []) (hclosed : isClosed s = true)
    (h : Apart s t) : Keeps (cutByte cutRawString) s t := by
  apply (isExact_cutByte isExact_cutRawString isCut_cutRawString).keeps
    (isCut_cutByte isCut_cutRawString)
  apply rests_cutByte hs h fun hb => (eq_none_behind_mark hb).1
  · intro hnone
    apply cutRawString_append_eq_none hs h
    rintro hashes body hh rfl
    rw [List.append_nil] at hnone
    have hopen := not_isClosed_raw (.inl rfl) hh (cutThrough_of_cutRawString hh hnone)
    rw [List.singleton_append, hclosed] at hopen
    exact absurd hopen (by decide)
  · rintro u hu rfl hnone
    apply cutRawString_append_eq_none hu (h.tail hu)
    rintro hashes body hh rfl
    rw [List.append_nil] at hnone
    have hopen := not_isClosed_raw (.inr rfl) hh (cutThrough_of_cutRawString hh hnone)
    rw [List.cons_append, List.singleton_append, hclosed] at hopen
    exact absurd hopen (by decide)

/-- A quote that begins no string is left open. -/
theorem not_isClosed_of_cutString {rest : Text} (h : cutString ('"' :: rest) = none) :
    isClosed ('"' :: rest) = false := by
  rw [cutString, Cut.after_eq_none] at h
  exact not_isClosed_quote h

theorem keeps_cutByte_cutString {s t : Text} (hs : s ≠ []) (hclosed : isClosed s = true)
    (h : Apart s t) : Keeps (cutByte cutString) s t := by
  have hrests : ∀ u : Text, u ≠ [] →
      (∀ v, u = '"' :: v → cutString u = none → isClosed u = true) → Rests cutString u [] t := by
    intro u hu hquote hnone
    rw [List.append_nil] at hnone
    obtain ⟨c, v, rfl⟩ := List.exists_cons_of_ne_nil hu
    apply cutString.eq_2
    rintro w heq
    rw [List.cons_append, List.cons.injEq] at heq
    obtain ⟨rfl, -⟩ := heq
    have hopen := not_isClosed_of_cutString hnone
    rw [hquote v rfl hnone] at hopen
    exact absurd hopen (by decide)
  apply (isExact_cutByte isExact_cutString isCut_cutString).keeps (isCut_cutByte isCut_cutString)
  apply rests_cutByte hs h fun hb => (eq_none_behind_mark hb).2.1
  · exact hrests s hs fun _ _ _ => hclosed
  · rintro u hu rfl
    apply hrests u hu
    rintro v rfl hnone
    exact isClosed_byte_mark (.inl rfl) hnone rfl hclosed

/-- A word character behind an apostrophe makes no character literal with it, unless an apostrophe
follows. -/
theorem cutChar_word_eq_none_iff {c : Char} {rest : Text} (hc : isWord c = true) :
    cutChar ('\x27' :: c :: rest) = none ↔ ∀ u, rest ≠ '\x27' :: u := by
  have hback : c ≠ '\\' := by
    rintro rfl
    exact absurd hc (by decide)
  have hquote : c ≠ '\x27' := by
    rintro rfl
    exact absurd hc (by decide)
  constructor
  · rintro hnone u rfl
    rw [cutChar.eq_2 _ _ (by simp [hback])] at hnone
    simp [hback, hquote] at hnone
  · intro hrest
    apply cutChar.eq_3
    · intro d u heq
      simp [hback] at heq
    · intro d u heq
      exact hrest u (List.cons.inj (List.cons.inj heq).2).2

/-- A name begins behind the apostrophe of a lifetime. -/
theorem exists_of_isSome_cutLifetime {s : Text} (h : (cutLifetime ('\x27' :: s)).isSome) :
    ∃ c rest, s = c :: rest ∧ isNameStart c = true := by
  rw [cutLifetime, Cut.isSome_after, cutName, isSome_cutRun] at h
  cases s with
  | nil => simp at h
  | cons c rest => exact ⟨c, rest, rfl, by simpa using h⟩

/-- Where a quote begins a lifetime and no character, the text behind makes no character of it. -/
theorem cutChar_append_eq_none {s t : Text} (hs : s ≠ []) (h : Apart s t)
    (hlifetime : ∀ rest, s = '\x27' :: rest → (cutLifetime s).isSome) (hnone : cutChar s = none) :
    cutChar (s ++ t) = none := by
  obtain ⟨q, rest, rfl⟩ := List.exists_cons_of_ne_nil hs
  by_cases hq : q = '\x27'
  · subst hq
    obtain ⟨c, rest, rfl, hc⟩ := exists_of_isSome_cutLifetime (hlifetime rest rfl)
    have hword := isWord_of_isNameStart c hc
    rw [cutChar_word_eq_none_iff hword] at hnone
    rw [List.cons_append, List.cons_append, cutChar_word_eq_none_iff hword]
    intro u heq
    cases rest with
    | nil =>
      rw [List.nil_append] at heq
      subst heq
      exact (word_of_apart ((h.tail (by simp)).head '\x27' rfl) (by simp [hword])).2.2.1 rfl
    | cons e rest =>
      rw [List.cons_append, List.cons.injEq] at heq
      exact hnone rest (by rw [heq.1])
  · exact cutChar.eq_3 _ (by simp [hq]) (by simp [hq])

theorem keeps_cutByte_cutChar {s t : Text} (hs : s ≠ []) (hclosed : isClosed s = true)
    (h : Apart s t) : Keeps (cutByte cutChar) s t := by
  have hlifetime : ∀ rest, isClosed ('\x27' :: rest) = true → cutChar ('\x27' :: rest) = none →
      (cutLifetime ('\x27' :: rest)).isSome := by
    intro rest hclosed hchar
    rw [Option.isSome_iff_ne_none]
    intro hl
    rw [not_isClosed_apostrophe hchar hl] at hclosed
    exact absurd hclosed (by decide)
  apply (isExact_cutByte isExact_cutChar isCut_cutChar).keeps (isCut_cutByte isCut_cutChar)
  apply rests_cutByte hs h fun hb => (eq_none_behind_mark hb).2.2
  · intro hnone
    rw [List.append_nil] at hnone
    apply cutChar_append_eq_none hs h _ hnone
    rintro v rfl
    exact hlifetime v hclosed hnone
  · rintro u hu rfl hnone
    rw [List.append_nil] at hnone
    apply cutChar_append_eq_none hu (h.tail hu) _ hnone
    rintro v rfl
    exact hlifetime v (isClosed_byte_mark (.inr rfl) rfl hnone hclosed) hnone

theorem keeps_of_mem_rules {rule : Lexeme.Kind × (Text → Cut)} (hmem : rule ∈ Lexeme.rules)
    {s t : Text} (hs : s ≠ []) (hclosed : isClosed s = true) (h : Apart s t) :
    Keeps rule.2 s t := by
  simp only [Lexeme.rules, List.mem_cons, List.not_mem_nil, or_false] at hmem
  rcases hmem with rfl | rfl | rfl | rfl | rfl | rfl | rfl | rfl | rfl | rfl | rfl
  · exact keeps_cutBlank hs h
  · exact keeps_cutLineComment hs hclosed h
  · exact keeps_cutBlockComment hs hclosed h
  · exact keeps_cutByte_cutRawString hs hclosed h
  · exact keeps_cutByte_cutString hs hclosed h
  · exact keeps_cutByte_cutChar hs hclosed h
  · refine keeps_cutLifetime hs h ?_
    rintro rfl
    rw [not_isClosed_apostrophe rfl rfl] at hclosed
    exact absurd hclosed (by decide)
  · exact keeps_cutIdent hs h
  · exact keeps_cutNumber hs h
  · exact keeps_cutPunct hs h
  · exact keeps_cutRun hs fun _ _ _ _ _ => rfl

theorem first?_append {s t : Text} (hs : s ≠ []) (hclosed : isClosed s = true) (h : Apart s t) :
    Lexeme.first? (s ++ t) = (Lexeme.first? s).map fun p => (p.1, p.2 ++ t) :=
  Lexeme.first?_map id (· ++ t) fun _ hmem => keeps_of_mem_rules hmem hs hclosed h

/-- The lexemes of a closed text stand in front of those of the text behind it. -/
theorem lexemes_append {s t : Text} (hclosed : isClosed s = true) (h : Apart s t) :
    lexemes (s ++ t) = lexemes s ++ lexemes t := by
  fun_induction lexemes s with
  | case1 s hfirst => rw [Lexeme.first?_eq_none hfirst, List.nil_append, List.nil_append]
  | case2 s l rest hfirst _ ih =>
    obtain ⟨hne, happ⟩ := Lexeme.first?_eq_some hfirst
    have hs : s ≠ [] := by
      rw [← happ]
      simp [hne]
    have hlong := first?_append hs hclosed h
    rw [hfirst] at hlong
    rw [lexemes_of_first? hlong, List.cons_append, ih (areClosed_tail hfirst hclosed)]
    rw [← happ] at h
    exact h.of_append

end Text

end DocScaffold
