import Mathlib.Data.List.Nodup
import DocScaffold.Proofs.Gaps
import DocScaffold.Proofs.Joining
import DocScaffold.Proofs.Places

/-!
# Single tokens

Texts that are one token, and the characters between which one token ends and the next begins.
-/

namespace DocScaffold

namespace Text

/-! ## Characters that stand apart -/

/-- A sign that is no part of a longer one and begins no raw string. -/
def isMark (c : Char) : Bool := isPlain c && !(['#', '>', '*'] : Text).contains c

theorem isPlain_iff {c : Char} : isPlain c = true ↔
    isBlank c = false ∧ isWord c = false ∧ isDigit c = false ∧
      c ∉ ['"', '\x27', '/', '-', '=', ':', '.'] := by
  simp [isPlain, and_assoc]

theorem apart_mark {x y : Char} (h : isMark y = true) : apart x y = true := by
  rw [isMark, Bool.and_eq_true, isPlain_iff] at h
  obtain ⟨⟨hb, hw, -, hplain⟩, hmark⟩ := h
  have hcompound : (x, y) ∉ compounds := by
    intro hmem
    simp only [compounds, List.mem_cons, List.not_mem_nil, or_false, Prod.mk.injEq] at hmem
    rcases hmem with ⟨-, rfl⟩ | ⟨-, rfl⟩ | ⟨-, rfl⟩ | ⟨-, rfl⟩ | ⟨-, rfl⟩ | ⟨-, rfl⟩ | ⟨-, rfl⟩ <;>
      simp at hplain hmark
  have hquote : y ≠ '"' ∧ y ≠ '\x27' ∧ y ≠ '#' := by
    refine ⟨?_, ?_, ?_⟩ <;> rintro rfl <;> simp at hplain hmark
  simp [apart, hb, hw, hquote, hcompound]

theorem apart_plain {x y : Char} (h : isPlain x = true) (hx : x ≠ '#') : apart x y = true := by
  rw [isPlain_iff] at h
  obtain ⟨hb, hw, hd, hplain⟩ := h
  have hcompound : (x, y) ∉ compounds := by
    intro hmem
    simp only [compounds, List.mem_cons, List.not_mem_nil, or_false, Prod.mk.injEq] at hmem
    rcases hmem with ⟨rfl, -⟩ | ⟨rfl, -⟩ | ⟨rfl, -⟩ | ⟨rfl, -⟩ | ⟨rfl, -⟩ | ⟨rfl, -⟩ | ⟨rfl, -⟩ <;>
      simp at hplain
  simp [apart, hb, hw, hd, hx, hcompound]

theorem apart_space {x : Char} (h : isBlank x = false) : apart x ' ' = true :=
  apart_blank h isBlank_space

theorem space_apart {y : Char} (h : isBlank y = false) : apart ' ' y = true := by
  have hspace : isWord ' ' = false ∧ isDigit ' ' = false := by decide
  have hcompound : (' ', y) ∉ compounds := by
    simp [compounds]
  simp [apart, h, hspace, hcompound]

theorem apart_colon {x : Char} (h : isWord x = true) : apart x ':' = true := by
  have hcolon : isBlank ':' = false ∧ isWord ':' = false := by decide
  have hx : x ≠ ':' := by
    rintro rfl
    exact absurd h (by decide)
  have hcompound : (x, ':') ∉ compounds := by
    simp [compounds, hx]
  simp [apart, hcolon, hcompound]

theorem Apart.of_head {s : Text} {c : Char} {t : Text} (h : ∀ x ∈ s.getLast?, apart x c = true) :
    Apart s (c :: t) := by
  intro x hx y hy
  obtain rfl : c = y := by simpa using hy
  exact h x hx

/-! ## Trimming -/

theorem trim_between {w p v : Text} (hw : ∀ c ∈ w, isBlank c = true) (hp : Solid p)
    (hv : ∀ c ∈ v, isBlank c = true) : trim (w ++ (p ++ v)) = p := by
  obtain ⟨c, u, rfl⟩ := List.exists_cons_of_ne_nil hp.nonempty
  rw [trim, trimStart, dropWhile_append_of_head hw (by simpa using hp.head c rfl), trimEnd,
    List.reverse_append, dropWhile_append_of_head, List.reverse_reverse]
  · simpa using hv
  · intro d hd
    rw [List.head?_reverse] at hd
    exact hp.last d hd

theorem trim_blanks {w : Text} (hw : ∀ c ∈ w, isBlank c = true) : trim w = [] := by
  have hall := dropWhile_append_of_head (t := []) hw (by simp)
  rw [List.append_nil] at hall
  rw [trim, trimStart, hall]
  rfl

theorem Solid.trim_eq {p : Text} (h : Solid p) : trim p = p := by
  have := trim_between (w := []) (v := []) (by simp) h (by simp)
  simpa using this

theorem trim_space {p : Text} (h : Solid p) : trim (' ' :: p) = p := by
  have := trim_between (w := [' ']) (v := []) (by simp [isBlank_space]) h (by simp)
  simpa using this

/-! ## Where lexemes end -/

theorem isWord_of_cutName {s a b : Text} (h : cutName s = some (a, b)) :
    (∀ c ∈ a.getLast?, isWord c = true) ∧ ∀ c ∈ b.head?, isWord c = false := by
  obtain ⟨⟨c, w, rfl, hc, hw⟩, hstop⟩ := cutRun_eq_some h
  refine ⟨fun d hd => ?_, hstop⟩
  rcases List.mem_cons.1 (List.mem_of_getLast? hd) with rfl | hd
  · exact isWord_of_isNameStart d hc
  · exact hw d hd

theorem isWord_of_cutIdent {s a b : Text} (h : cutIdent s = some (a, b)) :
    (∀ c ∈ a.getLast?, isWord c = true) ∧ ∀ c ∈ b.head?, isWord c = false := by
  rcases cutIdent_eq_some h with ⟨rest, name, -, hname, rfl⟩ | hname
  · obtain ⟨hlast, hstop⟩ := isWord_of_cutName hname
    have hne : name ≠ [] := (isCut_cutRun _ _ _ _ _ hname).1
    rw [← List.getLast?_append_of_ne_nil ['r', '#'] hne] at hlast
    exact ⟨hlast, hstop⟩
  · exact isWord_of_cutName hname

theorem isWord_of_cutLifetime {s a b : Text} (h : cutLifetime s = some (a, b)) :
    (∀ c ∈ a.getLast?, isWord c = true) ∧ ∀ c ∈ b.head?, isWord c = false := by
  obtain ⟨rest, name, -, hname, rfl⟩ := cutLifetime_eq_some h
  obtain ⟨hlast, hstop⟩ := isWord_of_cutName hname
  have hne : name ≠ [] := (isCut_cutRun _ _ _ _ _ hname).1
  rw [← List.getLast?_append_of_ne_nil ['\x27'] hne] at hlast
  exact ⟨hlast, hstop⟩

theorem not_isMark_of_word {c : Char} (h : isWord c = true) : isMark c = false := by
  simp [isMark, isPlain, h]

theorem sign_of_cutPunct {s a b : Text} (h : cutPunct s = some (a, b)) {c : Char}
    (hc : c ∈ a.getLast?) (hmark : isMark c = true) : a = [c] := by
  obtain ⟨-, hsign | ⟨d, -, -, rfl⟩⟩ := cutPunct_eq_some h
  · have hsigns : isMark '>' = false ∧ isMark ':' = false ∧ isMark '=' = false ∧
        isMark '.' = false := by decide
    simp only [List.mem_cons, List.not_mem_nil, or_false] at hsign
    rcases hsign with rfl | rfl | rfl | rfl | rfl <;> simp at hc <;> subst hc <;>
      simp [hsigns] at hmark
  · simpa using hc

end Text

namespace Lexeme

open Text

theorem Marked.not_isMark {s : Text} (h : Marked s) :
    ∀ c ∈ s.getLast?, isMark c = false := by
  obtain ⟨d, hd, hmem⟩ := h.last
  have hsigns : (['"', '#', '\x27', '/'] : Text).all (fun c => !isMark c) = true := by decide
  intro c hc
  rw [Option.mem_unique hc hd]
  simpa using List.all_eq_true.1 hsigns d hmem

/-- A lexeme that ends with a sign that stands apart is the sign, unless it is a comment. -/
theorem sign_of_last {s : Text} {l : Lexeme} (hl : l ∈ lexemes s) (hcomment : l.kind ≠ .lineComment)
    {c : Char} (hc : c ∈ l.text.getLast?) (hmark : isMark c = true) : l = ⟨.token .punct, [c]⟩ := by
  obtain ⟨t, rest, hfirst⟩ := exists_first?_of_mem hl
  have hproper := proper_of_mem hl
  have hmarked : Marked l.text → False := by
    intro h
    rw [h.not_isMark c hc] at hmark
    exact absurd hmark (by decide)
  have hword : isWord c = true → False := by
    intro h
    rw [not_isMark_of_word h] at hmark
    exact absurd hmark (by decide)
  cases isFirst_of_first? hfirst with
  | blank hcut =>
    have hblank : isBlank c = true := hproper c (List.mem_of_getLast? hc)
    simp [isMark, isPlain, hblank] at hmark
  | lineComment hcut => exact absurd rfl hcomment
  | blockComment hcut => exact (hmarked (marked_cutBlockComment hcut)).elim
  | rawString hcut => exact (hmarked (marked_cutByte (fun _ _ _ => marked_cutRawString) hcut)).elim
  | string hcut => exact (hmarked (marked_cutByte (fun _ _ _ => marked_cutString) hcut)).elim
  | char hcut => exact (hmarked (marked_cutByte (fun _ _ _ => marked_cutChar) hcut)).elim
  | lifetime hcut => exact (hword ((isWord_of_cutLifetime hcut).1 c hc)).elim
  | ident hcut => exact (hword ((isWord_of_cutIdent hcut).1 c hc)).elim
  | number hcut =>
    obtain ⟨⟨d, w, rfl, hd, hw⟩, -⟩ := cutRun_eq_some hcut
    rcases List.mem_cons.1 (List.mem_of_getLast? hc) with rfl | hc
    · simp [isMark, isPlain, hd] at hmark
    · exact (hword (hw c hc)).elim
  | punct hcut => rw [sign_of_cutPunct hcut hc hmark]
  | @stray d hs =>
    -- A stray character is no sign, since a sign is cut off by the rule for signs.
    obtain rfl : d = c := by simpa using hc
    rw [isMark, Bool.and_eq_true] at hmark
    have hsign : lexemes (d :: rest) = _ := lexemes_of_isPlain hmark.1
    rw [← hs, lexemes_of_first? hfirst] at hsign
    exact absurd (congrArg List.head? hsign) (by simp)

/-- A stray character is left over by all other rules. -/
theorem eq_none_of_stray {s rest : Text} {l : Lexeme} (h : first? s = some (l, rest))
    (hkind : l.kind = .stray) (kind : Kind) (cut : Text → Cut) (hmem : (kind, cut) ∈ rules.dropLast) :
    cut s = none := by
  have hsplit : first? s = (rules.dropLast.findSome? (cutBy s)).or ((rules.drop 10).findSome? (cutBy s)) := by
    rw [first?_eq, ← List.findSome?_append]
    rfl
  have hnone : rules.dropLast.findSome? (cutBy s) = none := by
    cases hfirst : rules.dropLast.findSome? (cutBy s) with
    | none => rfl
    | some p =>
      rw [hsplit, hfirst, Option.some_or, Option.some.injEq] at h
      subst h
      obtain ⟨rule, hmem, hcut⟩ := List.exists_of_findSome?_eq_some hfirst
      obtain ⟨q, -, hq⟩ := Option.map_eq_some_iff.1 hcut
      have hrule : rule.1 = .stray := by
        rw [← hkind, ← (Prod.mk.inj hq).1]
      simp only [rules, List.dropLast, List.mem_cons, List.not_mem_nil, or_false] at hmem
      rcases hmem with rfl | rfl | rfl | rfl | rfl | rfl | rfl | rfl | rfl | rfl <;> simp at hrule
  exact Option.map_eq_none_iff.1 (List.findSome?_eq_none_iff.1 hnone _ hmem)

/-- A stray character is a word character that begins no name and no number, since others are signs. -/
theorem spec_of_stray {s rest : Text} {l : Lexeme} (h : first? s = some (l, rest))
    (hkind : l.kind = .stray) :
    ∀ c ∈ l.text.head?, isWord c = true ∧ isNameStart c = false ∧ isDigit c = false := by
  have hblank := eq_none_of_stray h hkind .blank (cutRun isBlank isBlank) (by simp [rules])
  have hname := eq_none_of_stray h hkind (.token .ident) cutIdent (by simp [rules])
  have hdigit := eq_none_of_stray h hkind (.token .number) (cutRun isDigit isWord) (by simp [rules])
  have hpunct := eq_none_of_stray h hkind (.token .punct) cutPunct (by simp [rules])
  obtain ⟨hne, happ⟩ := first?_eq_some h
  intro c hc
  have hhead : s.head? = some c := by
    rw [← happ, List.head?_append_of_ne_nil _ hne]
    exact hc
  rw [← Option.not_isSome_iff_eq_none] at hblank hname hdigit hpunct
  rw [isSome_cutRun, hhead] at hblank hdigit
  rw [isSome_cutIdent, hhead] at hname
  rw [isSome_cutPunct, hhead] at hpunct
  simp only [Option.any_some, Bool.not_eq_true] at hblank hname hdigit
  simp only [Option.any_some, hblank, Bool.false_or, Bool.not_eq_true', Bool.not_eq_false] at hpunct
  exact ⟨hpunct, hname, hdigit⟩

/-- Kinds other than strings have a rule of their own. -/
theorem cut_of_first? {s rest : Text} {l : Lexeme} (h : first? s = some (l, rest))
    {cut : Text → Cut} (hmem : (l.kind, cut) ∈ rules) (hkind : l.kind ≠ .token .string) :
    cut s = some (l.text, rest) := by
  obtain ⟨rule, hrule, heq, hcut⟩ := exists_rule h
  have hnodup : ((rules.filter (·.1 ≠ .token .string)).map (·.1)).Nodup := by decide
  have hsame := List.inj_on_of_nodup_map hnodup (List.mem_filter.2 ⟨hrule, by simpa [heq] using hkind⟩)
    (List.mem_filter.2 ⟨hmem, by simpa using hkind⟩) heq
  rwa [hsame] at hcut

/-- An identifier is cut off by its own rule. -/
theorem cutIdent_of_first? {s rest : Text} {l : Lexeme} (h : first? s = some (l, rest))
    (hkind : l.kind = .token .ident) : cutIdent s = some (l.text, rest) :=
  cut_of_first? h (by simp [rules, hkind]) (by simp [hkind])

/-- A lifetime is cut off by its own rule. -/
theorem cutLifetime_of_first? {s rest : Text} {l : Lexeme} (h : first? s = some (l, rest))
    (hkind : l.kind = .token .lifetime) : cutLifetime s = some (l.text, rest) :=
  cut_of_first? h (by simp [rules, hkind]) (by simp [hkind])

/-- No word goes on behind a first identifier or lifetime. -/
theorem head_behind_word {s rest : Text} {l : Lexeme} (h : first? s = some (l, rest))
    (hkind : l.kind = .token .ident ∨ l.kind = .token .lifetime) :
    ∀ c ∈ rest.head?, isWord c = false := by
  rcases hkind with hkind | hkind
  · exact (isWord_of_cutIdent (cutIdent_of_first? h hkind)).2
  · exact (isWord_of_cutLifetime (cutLifetime_of_first? h hkind)).2

/-- No word goes on behind an identifier. -/
theorem head_behind_ident {s : Text} {front after : List Lexeme} {l m : Lexeme}
    (h : lexemes s = front ++ l :: m :: after) (hkind : l.kind = .token .ident) :
    ∀ c ∈ m.text.head?, isWord c = false := by
  have htext := flatMap_text_lexemes s
  rw [h, List.flatMap_append] at htext
  obtain ⟨-, hbehind⟩ := lexemes_of_append (by rw [htext, h]) rfl
  obtain ⟨rest, hfirst, hrest⟩ := first?_of_lexemes hbehind
  have hm : m ∈ lexemes rest := by simp [hrest]
  have hhead : rest.head? = m.text.head? := by
    rw [← flatMap_text_lexemes rest, hrest, List.flatMap_cons,
      List.head?_append_of_ne_nil _ (text_ne_nil_of_mem_lexemes hm)]
  rw [← hhead]
  exact head_behind_word hfirst (.inl hkind)

end Lexeme

namespace Text

/-! ## Closed texts put together -/

theorem string_head {s rest : Text} {l : Lexeme} (h : Lexeme.first? s = some (l, rest))
    (hkind : l.kind = .token .string) : ∀ c ∈ l.text.head?, c = '"' ∨ isWord c = true := by
  have hmarks : isWord 'b' = true ∧ isWord 'r' = true := by decide
  have hbyte : ∀ a : Text, (∀ c ∈ a.head?, c = '"' ∨ isWord c = true) →
      ∀ c ∈ ('b' :: a).head?, c = '"' ∨ isWord c = true := by simp [hmarks.1]
  cases Lexeme.isFirst_of_first? h with
  | rawString hcut =>
    refine of_cutByte hbyte (fun s a b hraw => ?_) hcut
    obtain ⟨hashes, rest, body, -, -, -, rfl⟩ := cutRawString_eq_some hraw
    simp [hmarks.2]
  | string hcut =>
    refine of_cutByte hbyte (fun s a b hstring => ?_) hcut
    obtain ⟨rest, body, -, -, rfl⟩ := cutString_eq_some hstring
    simp
  | _ => simp at hkind

theorem areClosed_append {ls ms : List Lexeme} (hls : Lexeme.areClosed ls = true)
    (hms : Lexeme.areClosed ms = true)
    (h : ∀ l ∈ ls.getLast?, l.isOpen ms.head? = false) : Lexeme.areClosed (ls ++ ms) = true := by
  induction ls with
  | nil => exact hms
  | cons l ls ih =>
    rw [Lexeme.areClosed, Bool.and_eq_true] at hls
    rw [List.cons_append, Lexeme.areClosed, Bool.and_eq_true]
    cases ls with
    | nil => exact ⟨by simpa using h l rfl, hms⟩
    | cons m ls => exact ⟨hls.1, ih hls.2 fun n hn => h n (by rwa [List.getLast?_cons_cons])⟩

theorem not_isOpen_last {ls : List Lexeme} {l : Lexeme} (h : Lexeme.areClosed (ls ++ [l]) = true) :
    l.isOpen none = false := by
  induction ls with
  | nil => simpa [Lexeme.areClosed] using h
  | cons m ls ih =>
    rw [List.cons_append, Lexeme.areClosed, Bool.and_eq_true] at h
    exact ih h.2

/-- A lexeme that is closed at the end of a text stays so in front of another, unless the characters
that meet run together. -/
theorem not_isOpen_next {t rest : Text} {l m : Lexeme} (hfirst : Lexeme.first? t = some (m, rest))
    (hclosed : l.isOpen none = false)
    (hmeet : ∀ d, l.text = [d] → ∀ c ∈ m.text.head?, apart d c = true) :
    l.isOpen (some m) = false := by
  simp only [Lexeme.isOpen, Option.any_none, Bool.and_false, Bool.or_false,
    Bool.or_eq_false_iff] at hclosed
  simp only [Lexeme.isOpen, Option.any_some, hclosed, Bool.false_or, Bool.or_eq_false_iff,
    Bool.and_eq_false_imp]
  constructor
  · -- No comment begins where a slash and an asterisk would meet.
    intro hslash
    simp only [Lexeme.isSign, Bool.and_eq_true, beq_iff_eq] at hslash
    rw [Lexeme.isSign, Bool.and_eq_false_imp]
    intro _
    rw [beq_eq_false_iff_ne]
    intro hstar
    exact absurd (hmeet '/' hslash.2 '*' (by rw [hstar]; rfl)) (by decide)
  · -- No raw string begins where a hash and a string would meet.
    intro hhash
    simp only [Lexeme.isSign, Bool.and_eq_true, beq_iff_eq] at hhash
    rw [beq_eq_false_iff_ne]
    intro hstring
    obtain ⟨c, w, hm⟩ := List.exists_cons_of_ne_nil (Lexeme.first?_eq_some hfirst).1
    have hc : c ∈ m.text.head? := by rw [hm]; rfl
    obtain ⟨hword, hquote, -⟩ := hash_of_apart (hmeet '#' hhash.2 c hc)
    rcases string_head hfirst hstring c hc with h | h
    · exact hquote h
    · rw [hword] at h
      exact absurd h (by decide)

/-- Closed texts that stand apart are closed together. -/
theorem isClosed_append {s t : Text} (hs : isClosed s = true) (ht : isClosed t = true)
    (h : Apart s t) : isClosed (s ++ t) = true := by
  rw [isClosed, lexemes_append hs h]
  refine areClosed_append hs ht fun l hl => ?_
  obtain ⟨ls, hls⟩ := List.getLast?_eq_some_iff.1 hl
  have htext := flatMap_text_lexemes s
  rw [hls, List.flatMap_append, List.flatMap_singleton] at htext
  rw [isClosed, hls] at hs
  have hlast := not_isOpen_last hs
  cases hnext : lexemes t with
  | nil => exact hlast
  | cons m ms =>
    obtain ⟨rest, hfirst, -⟩ := first?_of_lexemes hnext
    refine not_isOpen_next hfirst hlast fun d hd c hc => h d ?_ c ?_
    · rw [← htext, hd, List.getLast?_append]
      rfl
    · rw [← (Lexeme.first?_eq_some hfirst).2, List.head?_append, Option.mem_def.1 hc]
      rfl

/-! ## Single tokens -/

/-- Whether a text is one token. -/
def IsToken (kind : Token.Kind) (s : Text) : Prop := lexemes s = [⟨.token kind, s⟩]

instance (kind : Token.Kind) (s : Text) : Decidable (IsToken kind s) :=
  inferInstanceAs (Decidable (_ = _))

theorem IsToken.first? {kind : Token.Kind} {s : Text} (h : IsToken kind s) :
    Lexeme.first? s = some (⟨.token kind, s⟩, []) := by
  obtain ⟨rest, hfirst, hrest⟩ := first?_of_lexemes h
  have := flatMap_text_lexemes rest
  rw [hrest, List.flatMap_nil] at this
  rw [hfirst, ← this]

theorem IsToken.isClosed {kind : Token.Kind} {s : Text} (h : IsToken kind s)
    (hkind : kind ≠ .punct) : isClosed s = true := by
  rw [Text.isClosed, h]
  cases kind <;> simp_all [Lexeme.areClosed, Lexeme.isOpen, Lexeme.isSign]

theorem IsToken.tokensAt {kind : Token.Kind} {s : Text} (h : IsToken kind s) (offset : Nat) :
    tokensAt offset s = [⟨kind, s, offset, offset + s.length⟩] := tokensAt_of_lexemes offset h

theorem IsToken.not_blank {kind : Token.Kind} {s : Text} (h : IsToken kind s)
    (hkind : kind ≠ .string ∧ kind ≠ .char) : ∀ c ∈ s, isBlank c = false := by
  have hproper := Lexeme.proper_of_first? h.first?
  cases kind <;> simp_all [Lexeme.Proper]

/-- What an identifier is made of. -/
theorem IsToken.ident_spec {s : Text} (h : IsToken .ident s) :
    ∃ c w, isNameStart c = true ∧ (∀ d ∈ w, isWord d = true) ∧
      (s = c :: w ∨ s = 'r' :: '#' :: c :: w) := by
  have hcut := Lexeme.cutIdent_of_first? h.first? rfl
  rcases cutIdent_eq_some hcut with ⟨rest, name, -, hname, hs⟩ | hname
  · obtain ⟨⟨c, w, rfl, hc, hw⟩, -⟩ := cutRun_eq_some hname
    exact ⟨c, w, hc, hw, .inr hs⟩
  · obtain ⟨⟨c, w, hs, hc, hw⟩, -⟩ := cutRun_eq_some hname
    exact ⟨c, w, hc, hw, .inl hs⟩

theorem IsToken.ident_head {s : Text} (h : IsToken .ident s) :
    ∀ c ∈ s.head?, isNameStart c = true := by
  obtain ⟨c, w, hc, -, rfl | rfl⟩ := h.ident_spec
  · simpa using hc
  · simp
    decide

theorem IsToken.ident_last {s : Text} (h : IsToken .ident s) :
    ∀ c ∈ s.getLast?, isWord c = true := by
  obtain ⟨c, w, hc, hw, hs⟩ := h.ident_spec
  have hlast : s.getLast? = (c :: w).getLast? := by
    rcases hs with rfl | rfl
    · rfl
    · rw [List.getLast?_cons_cons, List.getLast?_cons_cons]
  intro d hd
  rw [hlast] at hd
  rcases List.mem_cons.1 (List.mem_of_getLast? hd) with rfl | hmem
  · exact isWord_of_isNameStart d hc
  · exact hw d hmem

theorem IsToken.ident_ne_nil {s : Text} (h : IsToken .ident s) : s ≠ [] := by
  obtain ⟨c, w, -, -, rfl | rfl⟩ := h.ident_spec <;> simp

theorem IsToken.ident_solid {s : Text} (h : IsToken .ident s) : Solid s := by
  have hplain := h.not_blank (by decide)
  refine ⟨h.ident_ne_nil, fun c hc => hplain c (List.mem_of_head? hc),
    fun c hc => hplain c (List.mem_of_getLast? hc)⟩

theorem IsToken.colon_not_mem {s : Text} (h : IsToken .ident s) : ':' ∉ s := by
  obtain ⟨c, w, hc, hw, hs⟩ := h.ident_spec
  have hnot : ':' ∉ c :: w := by
    intro hmem
    have hword : isWord ':' = true := by
      rcases List.mem_cons.1 hmem with rfl | hmem
      · exact isWord_of_isNameStart _ hc
      · exact hw _ hmem
    exact absurd hword (by decide)
  rcases hs with rfl | rfl
  · exact hnot
  · simpa using hnot

/-- What a lifetime is made of. -/
theorem IsToken.lifetime_spec {s : Text} (h : IsToken .lifetime s) :
    ∃ c w, s = '\x27' :: c :: w ∧ isNameStart c = true ∧ ∀ d ∈ w, isWord d = true := by
  have hcut := Lexeme.cutLifetime_of_first? h.first? rfl
  obtain ⟨rest, name, -, hname, hs⟩ := cutLifetime_eq_some hcut
  obtain ⟨⟨c, w, rfl, hc, hw⟩, -⟩ := cutRun_eq_some hname
  exact ⟨c, w, hs, hc, hw⟩

end Text

end DocScaffold
