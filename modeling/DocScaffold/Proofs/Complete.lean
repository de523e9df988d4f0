import DocScaffold.Proofs.Commenting
import DocScaffold.Proofs.Slots
import DocScaffold.Proofs.Wrapping

/-!
# Complete declarations in front of other text

A declaration that ends with a brace or a semicolon keeps its tokens whatever text stands behind it
(`exists_end`), and all that is read of it is read off these tokens but for its exposure
(`parse?_complete`).
-/

namespace DocScaffold

open Text

/-! ## The end of a declaration -/

namespace Lexeme

theorem isOpen_none {l : Lexeme} {next : Option Lexeme} (h : l.isOpen next = false) :
    l.isOpen none = false := by
  simp only [isOpen, Bool.or_eq_false_iff] at h ⊢
  exact ⟨⟨h.1.1, Bool.and_false _⟩, Bool.and_false _⟩

theorem areClosed_of_append {ls ms : List Lexeme} (h : areClosed (ls ++ ms) = true) :
    areClosed ls = true ∧ areClosed ms = true := by
  induction ls with
  | nil => exact ⟨rfl, h⟩
  | cons l ls ih =>
    rw [List.cons_append, areClosed, Bool.and_eq_true] at h
    obtain ⟨hl, hrest⟩ := h
    obtain ⟨hls, hms⟩ := ih hrest
    refine ⟨?_, hms⟩
    rw [areClosed, hls, Bool.and_true]
    cases ls with
    | nil => simpa using isOpen_none (by simpa using hl)
    | cons m ls => exact hl

end Lexeme

namespace Text

variable {s : Text} {c : Char}

/-- A closed text whose last token is a sign of its own holds no token behind it. -/
theorem exists_end {t : Token} (hclosed : isClosed s = true) (hlast : s.tokens.getLast? = some t)
    (ht : t.isPunct [c] = true) :
    ∃ p v, s = p ++ c :: v ∧ isClosed p = true ∧ tokens v = [] := by
  obtain ⟨front, hfront⟩ := List.getLast?_eq_some_iff.1 hlast
  obtain ⟨before, after, hls, hbefore, hs, -⟩ := Declaration.split_tokens hfront
  rw [Token.isPunct, Bool.and_eq_true, beq_iff_eq, beq_iff_eq] at ht
  rw [ht.1, ht.2] at hls
  rw [ht.2, List.append_assoc] at hs
  have hwhole : lexemes (before.flatMap Lexeme.text ++ c :: after.flatMap Lexeme.text) =
      before ++ ⟨.token .punct, [c]⟩ :: after := by
    rw [← hls]
    exact congrArg lexemes hs.symm
  obtain ⟨hp, hrest⟩ := lexemes_of_append hwhole rfl
  have hbehind : lexemes ([c] ++ after.flatMap Lexeme.text) = [⟨.token .punct, [c]⟩] ++ after := hrest
  have hv : lexemes (after.flatMap Lexeme.text) = after := (lexemes_of_append hbehind rfl).2
  refine ⟨before.flatMap Lexeme.text, after.flatMap Lexeme.text, hs, ?_, ?_⟩
  · rw [isClosed, hls] at hclosed
    rw [isClosed, hp]
    exact (Lexeme.areClosed_of_append hclosed).1
  · rw [tokens, hls, tokensFrom_append, hbefore, List.append_cancel_left_eq] at hfront
    have hnone := (List.cons.inj hfront).2
    rw [← hv, ← tokensAt, tokensAt_eq_shift] at hnone
    exact List.map_eq_nil_iff.1 hnone

/-- Such a text has its tokens in front of any other. -/
theorem exists_tokens_append {t : Token} (hclosed : isClosed s = true)
    (hlast : s.tokens.getLast? = some t) (ht : ∃ c, isMark c = true ∧ t.isPunct [c] = true) (x : Text) :
    ∃ us, tokens (s ++ x) = s.tokens ++ us := by
  obtain ⟨c, hc, ht⟩ := ht
  obtain ⟨p, v, rfl, hp, hv⟩ := exists_end hclosed hlast ht
  have hnone : tokensAt (p.length + 1) v = [] := by
    rw [tokensAt_eq_shift, hv]
    rfl
  refine ⟨tokensAt (p.length + 1) (v ++ x), ?_⟩
  rw [List.append_assoc, List.cons_append, tokens_append_mark hp hc, tokens_append_mark hp hc, hnone,
    List.append_nil]

end Text

/-! ## Places among the first tokens -/

namespace Token

variable {ts us : List Token}

/-- A generic list does not go over a brace or a semicolon. -/
theorem angleLength_le {depth : Int} {front rest : List Token} {t : Token} {n : Nat}
    (ht : t.breaksAngles = true) (h : angleLength depth (front ++ t :: rest) = some n) :
    n ≤ front.length := by
  have hsign : t.isPunct ['<'] = false ∧ t.isPunct ['>'] = false := by
    obtain ⟨c, hc, ht⟩ := exists_of_breaksAngles ht
    rcases hc with rfl | rfl <;> exact ⟨isPunct_unique ht (by decide), isPunct_unique ht (by decide)⟩
  induction front generalizing depth n with
  | nil =>
    rw [breaksAngles] at ht
    rw [List.nil_append, angleLength, hsign.1, hsign.2, ht] at h
    simp at h
  | cons u front ih =>
    have hrest : ∀ depth, (angleLength depth (front ++ t :: rest)).map (· + 1) = some n →
        n ≤ (u :: front).length := by
      intro depth h
      obtain ⟨m, hm, rfl⟩ := Option.map_eq_some_iff.1 h
      rw [List.length_cons]
      exact Nat.succ_le_succ (ih hm)
    rw [List.cons_append, angleLength] at h
    split at h
    · exact hrest _ h
    · split at h
      · split at h
        · obtain rfl := Option.some.inj h
          rw [List.length_cons]
          omega
        · exact hrest _ h
      · split at h
        · simp at h
        · exact hrest _ h

/-- A generic list that begins in front of a brace or a semicolon ends there as well. -/
theorem skipAngles_le {front rest : List Token} {t : Token} {i j : Nat} (ht : t.breaksAngles = true)
    (hi : i ≤ front.length) (h : skipAngles (front ++ t :: rest) i = some j) : j ≤ front.length := by
  rw [skipAngles, List.drop_append_of_le_length hi] at h
  have hlength : (front.drop i).length = front.length - i := List.length_drop
  generalize front.drop i = behind at h hlength
  cases behind with
  | nil =>
    have hopens : t.isPunct ['<'] = false := by
      obtain ⟨c, hc, ht⟩ := exists_of_breaksAngles ht
      rcases hc with rfl | rfl <;> exact isPunct_unique ht (by decide)
    rw [List.nil_append] at h
    dsimp only at h
    rw [hopens] at h
    obtain rfl := Option.some.inj h
    exact hi
  | cons u behind =>
    rw [List.cons_append] at h
    dsimp only at h
    split at h
    · obtain ⟨n, hn, rfl⟩ := Option.map_eq_some_iff.1 h
      rw [← List.cons_append] at hn
      have hle := angleLength_le ht hn
      omega
    · obtain rfl := Option.some.inj h
      exact hi

theorem findKeyword_append {word : Text} {i : Nat} (h : findKeyword word ts = some i)
    (us : List Token) : findKeyword word (ts ++ us) = some i := by
  fun_induction findKeyword word ts generalizing i with
  | case1 t u rest hfirst => rwa [List.cons_append, List.cons_append, findKeyword, if_pos hfirst]
  | case2 t u rest hfirst ih =>
    obtain ⟨j, hj, rfl⟩ := Option.map_eq_some_iff.1 h
    have hrest := ih hj
    rw [List.cons_append] at hrest
    rw [List.cons_append, List.cons_append, findKeyword, if_neg hfirst, hrest]
    rfl
  | case3 => simp at h

theorem exists_close {s body : Text} {i : Nat} (h : bodyText s ts i = some body) :
    ∃ close, findClosing ts i = some close := by
  cases hfind : findClosing ts i with
  | some close => exact ⟨close, rfl⟩
  | none => cases hopener : ts[i]? <;> simp [bodyText, hfind, hopener] at h

/-- What stands inside brackets that close is read off the text up to their end. -/
theorem bodyText_eq_some_append {s body : Text} {i : Nat} (h : bodyText s ts i = some body)
    (hstart : ∀ t ∈ ts, t.start ≤ s.length) (x : Text) (us : List Token) :
    bodyText (s ++ x) (ts ++ us) i = some body := by
  obtain ⟨close, hclose⟩ := exists_close h
  rw [(bodyText_append hclose hstart x us).1, h]

end Token

namespace Item

variable {ts : List Token}

theorem indexFrom_append {p : Token → Bool} {i j : Nat} (h : indexFrom p ts i = some j)
    (us : List Token) : indexFrom p (ts ++ us) i = some j := by
  obtain ⟨k, hk, rfl⟩ := Option.map_eq_some_iff.1 h
  have hlt := (List.findIdx?_eq_some_iff_getElem.1 hk).1
  rw [List.length_drop] at hlt
  rw [indexFrom, List.drop_append_of_le_length (by omega), List.findIdx?_append, hk]
  rfl

/-- What is read at the token behind a generic list is read there in front of other tokens as well, if
the reading allows for them. -/
theorem behindAngles_append (read : List Token → Nat → Token → Option Nat) {us : List Token} {k i : Nat}
    (hread : ∀ j t, read ts j t = some i → read (ts ++ us) j t = some i)
    (h : (do let j ← Token.skipAngles ts k; let t ← ts[j]?; read ts j t) = some i) :
    (do let j ← Token.skipAngles (ts ++ us) k; let t ← (ts ++ us)[j]?; read (ts ++ us) j t) = some i := by
  simp only [Option.bind_eq_bind, Option.bind_eq_some_iff] at h ⊢
  obtain ⟨j, hskip, t, ht, h⟩ := h
  exact ⟨j, Token.skipAngles_append hskip (List.getElem?_eq_some_iff.1 ht).1, t,
    Token.getElem?_of_append ht us, hread j t h⟩

theorem Struct.bodyIndex?_append {keyword i : Nat} (h : bodyIndex? ts keyword = some i)
    (us : List Token) : bodyIndex? (ts ++ us) keyword = some i := by
  refine behindAngles_append (fun ts j t => if t.isIdent "where" then
    indexFrom (fun u => u.isPunct ['{'] || u.isPunct [';']) ts j else some j) (fun j t h => ?_) h
  split at h
  · rename_i hwhere
    rw [if_pos hwhere, indexFrom_append h]
  · rename_i hwhere
    rwa [if_neg hwhere]

theorem Enum.bodyIndex?_append {keyword i : Nat} (h : bodyIndex? ts keyword = some i)
    (us : List Token) : bodyIndex? (ts ++ us) keyword = some i := by
  refine behindAngles_append (fun ts j t => if t.isIdent "where" then indexFrom (·.isPunct ['{']) ts j
    else if t.isPunct ['{'] then some j else none) (fun j t h => ?_) h
  split at h
  · rename_i hwhere
    rw [if_pos hwhere, indexFrom_append h]
  · rename_i hwhere
    rwa [if_neg hwhere]

/-- No function is found in front of one that is, when text follows a brace or a semicolon. -/
theorem Function.locate?_append {front : List Token} {t : Token} {p : Nat × Nat}
    (ht : t.breaksAngles = true) (h : locate? (front ++ [t]) = some p) (us : List Token) :
    locate? (front ++ [t] ++ us) = some p := by
  rw [locate?_eq_some_iff] at h ⊢
  obtain ⟨hp, hfirst⟩ := h
  refine ⟨locateAt?_append hp us, fun j hj => ?_⟩
  obtain ⟨-, -, -, opener, -, -, hopener, -, hskip, -⟩ := locateAt?_eq_some_iff.1 hp
  have hle := Token.le_of_skipAngles hskip
  have hlt := (List.getElem?_eq_some_iff.1 hopener).1
  rw [List.length_append, List.length_singleton] at hlt
  cases hq : locateAt? (front ++ [t] ++ us) j with
  | none => rfl
  | some q =>
    obtain ⟨-, -, -, -, -, -, -, -, hskip', -⟩ := locateAt?_eq_some_iff.1 hq
    rw [List.append_assoc, List.singleton_append] at hskip'
    have hwithin := Token.skipAngles_le ht (by omega) hskip'
    have hsome := locateAt?_of_append hq (by rw [List.length_append, List.length_singleton]; omega)
    rw [hfirst j hj] at hsome
    exact absurd hsome (by simp)

end Item

/-! ## Functions and structs -/

namespace Item

variable {s : Text}

/-- The last token is a sign that ends a struct or an enum. -/
def EndsDeclaration (s : Text) : Prop :=
  ∃ t, s.tokens.getLast? = some t ∧ (t.isPunct ['}'] || t.isPunct [';']) = true

theorem EndsDeclaration.exists_mark (h : EndsDeclaration s) :
    ∃ t c, s.tokens.getLast? = some t ∧ isMark c = true ∧ t.isPunct [c] = true := by
  obtain ⟨t, hlast, hmark⟩ := h
  rw [Bool.or_eq_true] at hmark
  rcases hmark with hmark | hmark
  · exact ⟨t, '}', hlast, by decide, hmark⟩
  · exact ⟨t, ';', hlast, by decide, hmark⟩

theorem Function.parse?_append {f : Function} (hclosed : isClosed s = true)
    (hparse : parse? s = some f) (hcomplete : IsComplete s) (x : Text) :
    parse? (s ++ x) = some { f with isExposed := (s ++ x).isExposed } := by
  obtain ⟨i, opened, close, type, mark, hlocate, -, hbehind, -, hmark⟩ := id hcomplete
  have hsplit : s.tokens = (s.tokens.take (close + 1) ++ type) ++ [mark] := by
    rw [List.append_assoc, ← hbehind, List.take_append_drop]
  have hlast : s.tokens.getLast? = some mark := by
    rw [hsplit, List.getLast?_concat]
  obtain ⟨c, hc, hsign⟩ := Token.exists_of_breaksAngles hmark
  obtain ⟨us, htokens⟩ := exists_tokens_append hclosed hlast ⟨c, isMark_of_endsHead hc, hsign⟩ x
  refine hcomplete.parse?_append hparse htokens ?_
  rw [hsplit] at hlocate ⊢
  rw [locate?_append hmark hlocate us, hlocate]

theorem Struct.parse?_append {t : Struct} (hclosed : isClosed s = true)
    (hparse : parse? s = some t) (hends : EndsDeclaration s) (x : Text) :
    parse? (s ++ x) = some { t with isExposed := (s ++ x).isExposed } := by
  obtain ⟨mark, c, hlast, hc, hmark⟩ := hends.exists_mark
  obtain ⟨us, htokens⟩ := exists_tokens_append hclosed hlast ⟨c, hc, hmark⟩ x
  have hstart : ∀ t ∈ s.tokens, t.start ≤ s.length := fun t ht => start_le_of_mem_tokens ht
  simp only [parse?, Option.bind_eq_bind, Option.bind_eq_some_iff] at hparse
  obtain ⟨keyword, hkeyword, name, hname, i, hi, opener, hopener, h⟩ := hparse
  simp only [parse?, htokens, Option.bind_eq_bind, Token.findKeyword_append hkeyword us,
    Token.getElem?_of_append hname us, bodyIndex?_append hi us, Token.getElem?_of_append hopener us,
    Option.bind_some]
  split at h
  · rename_i hround
    rw [if_pos hround]
    obtain ⟨body, hbody, h⟩ := Option.bind_eq_some_iff.1 h
    obtain rfl := Option.some.inj h
    rw [Token.bodyText_eq_some_append hbody hstart]
    rfl
  · rename_i hround
    rw [if_neg hround]
    split at h
    · rename_i hcurly
      rw [if_pos hcurly]
      obtain ⟨body, hbody, h⟩ := Option.bind_eq_some_iff.1 h
      rw [Token.bodyText_eq_some_append hbody hstart, Option.bind_some]
      split at h
      · simp at h
      · rename_i hbody
        obtain rfl := Option.some.inj h
        rw [if_neg hbody]
        rfl
    · simp at h

end Item

/-! ## Enums -/

namespace Text

theorem intercalate_append (sep a l : Text) (ls : List Text) :
    List.intercalate sep ((a ++ l) :: ls) = a ++ List.intercalate sep (l :: ls) := by
  cases ls with
  | nil => simp
  | cons m ls => rw [List.intercalate_cons_cons, List.intercalate_cons_cons]; simp

theorem lines_append {a y l : Text} {ls : List Text} (ha : Over Inline a) (hl : lines y = l :: ls) :
    lines (a ++ y) = (a ++ l) :: ls := by
  induction a with
  | nil => exact hl
  | cons c a ih => exact lines_cons (ha c (by simp)) (ih fun d hd => ha d (by simp [hd]))

theorem isClosed_trimStart {p : Text} (h : isClosed p = true) : isClosed (trimStart p) = true := by
  obtain ⟨front, hfront⟩ := exists_lexemes_trimStart p
  rw [isClosed, hfront] at h
  exact (Lexeme.areClosed_of_append h).2

/-- The lines of a text without their comments. -/
def stripped (s : Text) : Text := List.intercalate ['\n'] (s.lines.map beforeLineComment)

variable {p : Text} {c : Char}

theorem beforeLineComment_append (hp : isClosed p = true) (hc : isMark c = true) (l : Text) :
    (p ++ c :: l).beforeLineComment = p ++ c :: l.beforeLineComment := by
  have hplain : isPlain c = true := by
    rw [isMark, Bool.and_eq_true] at hc
    exact hc.1
  have hcode : ∀ m ∈ lexemes p, (m.kind != .lineComment) = true :=
    fun m hm => by simpa using (Lexeme.of_areClosed hp m hm).1
  rw [beforeLineComment, lexemes_append hp (Apart.of_head fun y _ => apart_mark hc),
    lexemes_of_isPlain hplain, List.takeWhile_append_of_pos hcode, List.takeWhile_cons_of_pos rfl,
    List.flatMap_append, flatMap_text_lexemes]
  rfl

/-- Comments behind a sign are cut off without regard to what stands in front of it. -/
theorem stripped_append (hp : isClosed p = true) (hc : isMark c = true) (hone : Over Inline (p ++ [c]))
    (y : Text) : stripped (p ++ c :: y) = p ++ [c] ++ stripped y := by
  have hfront : ∀ l, (p ++ [c] ++ l).beforeLineComment = p ++ [c] ++ l.beforeLineComment := by
    intro l
    rw [List.append_assoc, List.singleton_append, beforeLineComment_append hp hc, List.append_assoc]
    rfl
  have hsplit : p ++ c :: y = p ++ [c] ++ y := by simp
  rw [hsplit]
  cases hy : lines y with
  | nil =>
    have hnone := hfront []
    obtain rfl := eq_nil_of_lines hy
    rw [List.append_nil, beforeLineComment_nil, List.append_nil] at hnone
    rw [List.append_nil, stripped, lines_of_one (by simp) hone, List.map_singleton,
      List.intercalate_singleton, hnone]
    exact (List.append_nil _).symm
  | cons l ls =>
    rw [stripped, lines_append hone hy, List.map_cons, hfront, intercalate_append, stripped, hy]
    rfl

theorem trimStart_append (hc : isBlank c = false) (y : Text) :
    trimStart (p ++ c :: y) = trimStart p ++ c :: y := by
  rw [trimStart, List.dropWhile_append, List.dropWhile_cons_of_neg (by simp [hc])]
  split
  · rename_i hempty
    rw [trimStart, List.isEmpty_iff.1 hempty, List.nil_append]
  · rfl

/-- On one line without tokens, none is left without its comment. -/
theorem tokens_stripped {v : Text} (hone : Over Inline v) (hv : tokens v = []) :
    tokens (trimEnd (stripped v)) = [] := by
  have hline : stripped v = v.beforeLineComment := by
    by_cases hnil : v = []
    · rw [hnil, beforeLineComment_nil]
      rfl
    · rw [stripped, lines_of_one hnil hone, List.map_singleton, List.intercalate_singleton]
  have hfeed : '\n' ∉ v := fun hmem => absurd (hone _ hmem) (by decide)
  obtain ⟨w, -, -, happ⟩ := exists_lexemes_trimEnd fun l hl => kind_of_mem_beforeLineComment (s := v) hl
  rw [← tokens_beforeLineComment hfeed, tokens, happ, tokensFrom_append] at hv
  rw [hline]
  exact (List.append_eq_nil_iff.1 hv).1

end Text

namespace Item

theorem Enum.uncommented_append {p : Text} {c : Char} (hp : isClosed p = true) (hc : isMark c = true)
    (hone : Over Inline (p ++ [c])) (y : Text) :
    uncommented (p ++ c :: y) = trimStart p ++ [c] ++ trimEnd (stripped y) := by
  have hblank : isBlank c = false := by
    rw [isMark, Bool.and_eq_true, isPlain_iff] at hc
    exact hc.1.1
  have hlast : ∀ d ∈ (trimStart p ++ [c]).getLast?, isBlank d = false := by
    rw [List.getLast?_concat]
    rintro d hd
    rwa [← Option.mem_some_iff.1 hd]
  have htext : uncommented (p ++ c :: y) = trim (stripped (p ++ c :: y)) := rfl
  rw [htext, stripped_append hp hc hone, trim, List.append_assoc, List.singleton_append,
    trimStart_append hblank, ← List.singleton_append, ← List.append_assoc, Declaration.trimEnd_append hlast]

theorem Enum.parse?_append {s : Text} {e : Enum} (hclosed : isClosed s = true) (hone : Over Inline s)
    (hparse : parse? s = some e) (hends : EndsDeclaration s) (x : Text) :
    parse? (s ++ x) = some { e with isExposed := (s ++ x).isExposed } := by
  obtain ⟨mark, c, hlast, hc, hmark⟩ := hends.exists_mark
  obtain ⟨p, v, rfl, hp, hv⟩ := exists_end hclosed hlast hmark
  have hfront : Over Inline (p ++ [c]) := by
    intro d hd
    refine hone d ?_
    rw [← List.singleton_append, ← List.append_assoc]
    exact List.mem_append_left v hd
  have hbehind : Over Inline v := fun d hd => hone d (by simp [hd])
  -- Behind the comments, what is read begins with the same text.
  have hstart := isClosed_trimStart hp
  have htext := uncommented_append hp hc hfront
  have htokens : ∀ z, tokens (trimStart p ++ [c] ++ z) =
      tokens (trimStart p ++ [c]) ++ tokensAt ((trimStart p).length + 1) z := by
    intro z
    rw [List.append_assoc, List.singleton_append, tokens_append_mark hstart hc,
      tokens_append_mark hstart hc, tokensAt_nil, List.append_nil]
  generalize trimStart p ++ [c] = w at htext htokens
  have hstart' : ∀ t ∈ tokens w, t.start ≤ w.length := fun t ht => start_le_of_mem_tokens ht
  have hnone : tokens (w ++ trimEnd (stripped v)) = tokens w := by
    rw [htokens, tokensAt_eq_shift, tokens_stripped hbehind hv]
    exact List.append_nil _
  have hall : p ++ c :: v ++ x = p ++ c :: (v ++ x) := by simp
  simp only [parse?, htext, hnone, Option.bind_eq_bind, Option.bind_eq_some_iff] at hparse
  obtain ⟨keyword, hkeyword, name, hname, i, hi, body, hbody, h⟩ := hparse
  obtain ⟨close, hclose⟩ := Token.exists_close hbody
  have hsame := (Token.bodyText_append hclose hstart' (trimEnd (stripped v)) []).1
  rw [List.append_nil] at hsame
  rw [hsame] at hbody
  rw [hall]
  simp only [parse?, htext, htokens, Option.bind_eq_bind, Token.findKeyword_append hkeyword,
    Token.getElem?_of_append hname, bodyIndex?_append hi, Token.bodyText_eq_some_append hbody hstart',
    Option.bind_some]
  split at h
  · simp at h
  · rename_i hvariants
    obtain rfl := Option.some.inj h
    rw [if_neg hvariants]
    rfl

/-- Whatever text stands behind a complete declaration, the same is parsed from it but for its exposure. A
text is closed that has no line comment, no quote sign, no slash in front of a star and no hash in front
of a literal; that it is one line is needed for enums alone, whose comments are cut line by line. -/
theorem parse?_complete {s : Text} (hclosed : isClosed s = true) (x : Text) :
    (∀ f, Function.parse? s = some f → Function.IsComplete s →
        Function.parse? (s ++ x) = some { f with isExposed := (s ++ x).isExposed }) ∧
      (∀ t, Struct.parse? s = some t → EndsDeclaration s →
        Struct.parse? (s ++ x) = some { t with isExposed := (s ++ x).isExposed }) ∧
      (∀ e, Over Inline s → Enum.parse? s = some e → EndsDeclaration s →
        Enum.parse? (s ++ x) = some { e with isExposed := (s ++ x).isExposed }) :=
  ⟨fun _ hparse hcomplete => Function.parse?_append hclosed hparse hcomplete x,
    fun _ hparse hends => Struct.parse?_append hclosed hparse hends x,
    fun _ hline hparse hends => Enum.parse?_append hclosed hline hparse hends x⟩

def readHeader : Text := "pub fn read<T>(&self, at: [u8; 4]) -> Result<T, Error> where T: Copy \x7b"

def pairStruct : Text := "struct Pair<T>(T, char) where T: Copy;"

def signEnum : Text := "enum Sign \x7b Plus(u8), Minus \x7d"

/-- A quote without its partner, a bracket without its opener and the end of a block comment. -/
def strayText : Text := "*/ ) \" // fn other(\n enum \x7b"

theorem parse?_complete_stray :
    (∃ f, Function.parse? readHeader = some f ∧ Function.parse? (readHeader ++ strayText) =
        some { f with isExposed := (readHeader ++ strayText).isExposed }) ∧
      (∃ t, Struct.parse? pairStruct = some t ∧ Struct.parse? (pairStruct ++ strayText) =
        some { t with isExposed := (pairStruct ++ strayText).isExposed }) ∧
      ∃ e, Enum.parse? signEnum = some e ∧ Enum.parse? (signEnum ++ strayText) =
        some { e with isExposed := (signEnum ++ strayText).isExposed } := by
  have hheader : (Function.parse? readHeader).isSome = true := by decide +kernel
  have hstruct : (Struct.parse? pairStruct).isSome = true := by decide +kernel
  have henum : (Enum.parse? signEnum).isSome = true := by decide +kernel
  obtain ⟨f, hf⟩ := Option.isSome_iff_exists.1 hheader
  obtain ⟨t, ht⟩ := Option.isSome_iff_exists.1 hstruct
  obtain ⟨e, he⟩ := Option.isSome_iff_exists.1 henum
  have hcomplete : Function.IsComplete readHeader :=
    ⟨1, 6, 17, ((tokens readHeader).drop 18).dropLast, ⟨.punct, ['\x7b'], 69, 70⟩, by decide +kernel,
      by decide +kernel, by decide +kernel, by decide +kernel, by decide +kernel⟩
  have hends : EndsDeclaration pairStruct := ⟨⟨.punct, [';'], 37, 38⟩, by decide +kernel, by decide⟩
  have hends' : EndsDeclaration signEnum := ⟨⟨.punct, ['\x7d'], 28, 29⟩, by decide +kernel, by decide⟩
  have hline : Over Inline signEnum := over_inline (by decide +kernel)
  exact ⟨⟨f, hf, (parse?_complete (by decide +kernel) strayText).1 f hf hcomplete⟩,
    ⟨t, ht, (parse?_complete (by decide +kernel) strayText).2.1 t ht hends⟩,
    ⟨e, he, (parse?_complete (by decide +kernel) strayText).2.2 e hline he hends'⟩⟩

end Item

end DocScaffold
