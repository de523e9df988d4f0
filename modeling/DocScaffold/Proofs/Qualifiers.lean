import DocScaffold.Item.Class
import DocScaffold.Proofs.Grammar
import DocScaffold.Proofs.Parameters

/-!
# Modifiers as they are written

Modifiers written in their order, with a space behind each, are read back from their tokens, and
nothing is left over (`takeAll_text`).
-/

namespace DocScaffold

open Text

namespace Text

/-- A closed text to which another one is joined by the space at its end. -/
structure Spaced (s : Text) : Prop where
  closed : isClosed s = true
  head : ∀ c ∈ s.head?, isBlank c = false
  last : ∀ c ∈ s.getLast?, c = ' '

theorem spaced_nil : Spaced [] := by
  refine ⟨?_, by simp, by simp⟩
  rw [isClosed, lexemes_nil]
  rfl

theorem Spaced.apart {s t : Text} (h : Spaced s) (ht : ∀ c ∈ t.head?, isBlank c = false) :
    Apart s t := by
  intro x hx y hy
  rw [h.last x hx]
  exact space_apart (ht y hy)

theorem Spaced.append {s t : Text} (hs : Spaced s) (ht : Spaced t) : Spaced (s ++ t) := by
  refine ⟨isClosed_append hs.closed ht.closed (hs.apart ht.head), ?_, ?_⟩
  · intro c hc
    cases s with
    | nil => exact ht.head c hc
    | cons d s => exact hs.head c hc
  · intro c hc
    rw [List.getLast?_append] at hc
    cases hlast : t.getLast? with
    | none =>
      rw [hlast, Option.none_or] at hc
      exact hs.last c hc
    | some d =>
      rw [hlast, Option.some_or] at hc
      exact ht.last c (hlast ▸ hc)

theorem Spaced.tokensAt_append {s t : Text} (h : Spaced s) (ht : ∀ c ∈ t.head?, isBlank c = false)
    (offset : Nat) : tokensAt offset (s ++ t) = tokensAt offset s ++ tokensAt (offset + s.length) t :=
  Text.tokensAt_append offset h.closed (h.apart ht)

/-- The last character of a token that may stand in front of a space. -/
theorem IsToken.last_not_blank {kind : Token.Kind} {s : Text} (h : IsToken kind s) :
    ∀ c ∈ s.getLast?, isBlank c = false := by
  intro c hc
  have hproper := Lexeme.proper_of_first? h.first?
  cases kind <;>
    first
      | exact hproper.last c hc
      | exact hproper c (List.mem_of_getLast? hc)

theorem isClosed_space : isClosed [' '] = true := by decide +kernel

theorem tokensAt_blank (offset : Nat) : tokensAt offset [' '] = [] := by
  rw [tokensAt_space offset (by simp), tokensAt_nil]

/-- A token and a space. -/
theorem IsToken.spaced {kind : Token.Kind} {s : Text} (h : IsToken kind s) (hkind : kind ≠ .punct)
    (hhead : ∀ c ∈ s.head?, isBlank c = false) : Spaced (s ++ [' ']) := by
  have hapart : Apart s [' '] := Apart.of_head fun x hx => apart_space (h.last_not_blank x hx)
  refine ⟨isClosed_append (h.isClosed hkind) isClosed_space hapart, ?_, by simp⟩
  intro c hc
  obtain ⟨hne, -⟩ := Lexeme.first?_eq_some h.first?
  obtain ⟨d, u, hs⟩ := List.exists_cons_of_ne_nil hne
  dsimp only at hs
  rw [hs] at hc hhead
  exact hhead c hc

theorem IsToken.tokensAt_spaced {kind : Token.Kind} {s : Text} (h : IsToken kind s)
    (hkind : kind ≠ .punct) (offset : Nat) :
    Text.tokensAt offset (s ++ [' ']) = [⟨kind, s, offset, offset + s.length⟩] := by
  rw [Text.tokensAt_append offset (h.isClosed hkind)
    (Apart.of_head fun x hx => apart_space (h.last_not_blank x hx)), h.tokensAt, tokensAt_blank,
    List.append_nil]

theorem lexemes_colons (s : Text) :
    lexemes (':' :: ':' :: s) = ⟨.token .punct, [':', ':']⟩ :: lexemes s :=
  lexemes_of_sign (by decide) ⟨rfl, rfl⟩ rfl ⟨rfl, rfl⟩ rfl

theorem tokensAt_colons (offset : Nat) (s : Text) :
    tokensAt offset (':' :: ':' :: s) =
      ⟨.punct, [':', ':'], offset, offset + 2⟩ :: tokensAt (offset + 2) s := by
  rw [tokensAt, lexemes_colons]
  rfl

end Text

namespace Modifiers

/-! ## How modifiers are written -/

/-- The path behind the `in` of a scope. -/
structure Path where
  isGlobal : Bool
  head : Text
  tail : List Text

namespace Path

/-- Segments with the sign in front of each. -/
def tailText (segments : List Text) : Text := segments.flatMap fun segment => ':' :: ':' :: segment

def text (p : Path) : Text :=
  if p.isGlobal then tailText (p.head :: p.tail) else p.head ++ tailText p.tail

def IsProper (p : Path) : Prop := ∀ segment ∈ p.head :: p.tail, IsToken .ident segment

end Path

/-- Whether a text is the scope of a visibility. -/
def IsScope (scope : Text) : Prop :=
  scope ∈ (["crate", "self", "super"] : List Text) ∨
    ∃ p : Path, p.IsProper ∧ scope = "in ".toList ++ p.text

def visibilityText : Visibility → Text
  | .inherited => []
  | .everywhere => "pub "
  | .within scope => "pub(".toList ++ scope ++ ") ".toList

def wordText (word : Text) (isPresent : Bool) : Text := if isPresent then word ++ [' '] else []

/-- A text between quotes. -/
def literal (s : Text) : Text := '"' :: (s ++ ['"'])

def linkageText : Linkage → Text
  | .native => []
  | .foreign none => "extern "
  | .foreign (some abi) => "extern ".toList ++ (literal abi ++ [' '])

/-- The modifiers in their order, with a space behind each. -/
def text (m : Modifiers) : Text :=
  visibilityText m.visibility ++ (wordText "const" m.isConst ++ (wordText "async" m.isAsync ++
    (wordText "unsafe" m.isUnsafe ++ linkageText m.linkage)))

/-- A scope that can be written, and an ABI without quotes and backslashes. -/
structure IsProper (m : Modifiers) : Prop where
  scope : ∀ scope, m.visibility = .within scope → IsScope scope
  abi : ∀ abi, m.linkage = .foreign (some abi) → '"' ∉ abi ∧ '\\' ∉ abi

/-! ## Paths -/

theorem isToken_word (word : Text) (h : word ∈ (["pub", "const", "async", "unsafe", "extern",
    "crate", "self", "super", "in"] : List Text)) : IsToken .ident word := by
  simp only [List.mem_cons, List.not_mem_nil, or_false] at h
  rcases h with rfl | rfl | rfl | rfl | rfl | rfl | rfl | rfl | rfl <;> decide +kernel

theorem ident_head_not_blank {s : Text} (h : IsToken .ident s) : ∀ c ∈ s.head?, isBlank c = false :=
  h.ident_solid.head

namespace Path

theorem apart_tailText {s : Text} (h : IsToken .ident s) (segments : List Text) :
    Apart s (tailText segments) := by
  cases segments with
  | nil => simp [Apart, tailText]
  | cons segment segments => exact Apart.of_head fun x hx => apart_colon (h.ident_last x hx)

theorem isClosed_tailText {segments : List Text} (h : ∀ s ∈ segments, IsToken .ident s) :
    isClosed (tailText segments) = true := by
  induction segments with
  | nil => exact spaced_nil.closed
  | cons s segments ih =>
    have hs := h s (by simp)
    have hrest : isClosed (s ++ tailText segments) = true :=
      isClosed_append (hs.isClosed (by decide)) (ih fun u hu => h u (by simp [hu]))
        (apart_tailText hs segments)
    have htext : tailText (s :: segments) = ':' :: ':' :: (s ++ tailText segments) := rfl
    rw [isClosed] at hrest ⊢
    rw [htext, lexemes_colons, Lexeme.areClosed, hrest]
    simp [Lexeme.isOpen, Lexeme.isSign]

theorem tokensAt_segment {s : Text} (h : IsToken .ident s) (segments : List Text) (offset : Nat) :
    tokensAt offset (s ++ tailText segments) =
      ⟨.ident, s, offset, offset + s.length⟩ :: tokensAt (offset + s.length) (tailText segments) := by
  rw [tokensAt_append offset (h.isClosed (by decide)) (apart_tailText h segments), h.tokensAt]
  rfl

theorem tokensAt_tailText (s : Text) (segments : List Text) (offset : Nat) :
    tokensAt offset (tailText (s :: segments)) =
      ⟨.punct, [':', ':'], offset, offset + 2⟩ ::
        tokensAt (offset + 2) (s ++ tailText segments) :=
  tokensAt_colons offset (s ++ tailText segments)

/-- Where the last token of a path ends. -/
theorem stop_segments {s : Text} {segments : List Text} (h : ∀ u ∈ s :: segments, IsToken .ident u)
    (offset : Nat) : ((tokensAt offset (s ++ tailText segments)).getLast?.map Token.stop) =
      some (offset + (s ++ tailText segments).length) := by
  induction segments generalizing s offset with
  | nil =>
    have hs := h s (by simp)
    simp [tailText, hs.tokensAt]
  | cons u segments ih =>
    have hu := ih (s := u) (fun v hv => h v (by simp [hv])) (offset + s.length + 2)
    rw [tokensAt_segment (h s (by simp)), tokensAt_tailText, List.getLast?_cons_cons]
    rw [List.getLast?_cons]
    cases hlast : (tokensAt (offset + s.length + 2) (u ++ tailText segments)).getLast? with
    | none => simp [hlast] at hu
    | some t =>
      rw [hlast, Option.map_some, Option.some.injEq] at hu
      simp only [Option.getD_some, Option.map_some, Option.some.injEq, hu]
      have hlength : (tailText (u :: segments)).length = (u ++ tailText segments).length + 2 := rfl
      simp only [List.length_append] at hlength ⊢
      omega

/-- A path has no parentheses. -/
theorem no_paren_segments {s : Text} {segments : List Text}
    (h : ∀ u ∈ s :: segments, IsToken .ident u) (offset : Nat) :
    ∀ t ∈ tokensAt offset (s ++ tailText segments),
      t.isPunct ['('] = false ∧ t.isPunct [')'] = false := by
  induction segments generalizing s offset with
  | nil =>
    have hs := h s (by simp)
    simp [tailText, hs.tokensAt, Token.isPunct]
  | cons u segments ih =>
    rw [tokensAt_segment (h s (by simp)), tokensAt_tailText]
    intro t ht
    rcases List.mem_cons.1 ht with rfl | ht
    · simp [Token.isPunct]
    · rcases List.mem_cons.1 ht with rfl | ht
      · simp [Token.isPunct]
      · exact ih (fun v hv => h v (by simp [hv])) _ t ht

theorem isClosed_text {p : Path} (h : p.IsProper) : isClosed p.text = true := by
  have hhead := h p.head (by simp)
  rw [text]
  split
  · exact isClosed_tailText h
  · exact isClosed_append (hhead.isClosed (by decide))
      (isClosed_tailText fun u hu => h u (by simp [hu])) (apart_tailText hhead p.tail)

theorem head_text {p : Path} (h : p.IsProper) : ∀ c ∈ p.text.head?, isBlank c = false := by
  have hcolon : isBlank ':' = false := by decide
  rw [text]
  split
  · simpa [tailText] using hcolon
  · obtain ⟨c, u, hc⟩ := List.exists_cons_of_ne_nil (h p.head (by simp)).ident_ne_nil
    have hhead := ident_head_not_blank (h p.head (by simp))
    rw [hc] at hhead ⊢
    simpa using hhead

theorem stop_text {p : Path} (h : p.IsProper) (offset : Nat) :
    ((tokensAt offset p.text).getLast?.map Token.stop) = some (offset + p.text.length) := by
  rw [text]
  split
  · have hstop := stop_segments h (offset + 2)
    rw [tokensAt_tailText, List.getLast?_cons]
    cases hlast : (tokensAt (offset + 2) (p.head ++ tailText p.tail)).getLast? with
    | none => simp [hlast] at hstop
    | some t =>
      rw [hlast, Option.map_some, Option.some.injEq] at hstop
      have hlength : (tailText (p.head :: p.tail)).length = (p.head ++ tailText p.tail).length + 2 := rfl
      rw [Option.getD_some, Option.map_some, hstop, hlength, Option.some.injEq]
      omega
  · exact stop_segments h offset

theorem no_paren_text {p : Path} (h : p.IsProper) (offset : Nat) :
    ∀ t ∈ tokensAt offset p.text, t.isPunct ['('] = false ∧ t.isPunct [')'] = false := by
  rw [text]
  split
  · rw [tokensAt_tailText]
    intro t ht
    rcases List.mem_cons.1 ht with rfl | ht
    · simp [Token.isPunct]
    · exact no_paren_segments h _ t ht
  · exact no_paren_segments h offset

end Path

/-! ## Scopes -/

theorem tokensAt_in {p : Path} (h : p.IsProper) (offset : Nat) :
    tokensAt offset ("in ".toList ++ p.text) =
      ⟨.ident, "in".toList, offset, offset + 2⟩ :: tokensAt (offset + 3) p.text := by
  have hword : IsToken .ident "in".toList := isToken_word _ (by simp)
  have hspaced := hword.spaced (by decide) (ident_head_not_blank hword)
  exact (hspaced.tokensAt_append (Path.head_text h) offset).trans
    (by rw [hword.tokensAt_spaced (by decide)]; rfl)

/-- A scope in the middle of other tokens. -/
structure Enclosed (scope : Text) (offset : Nat) (ts : List Token) : Prop where
  first : ∃ t, ts.head? = some t ∧ t.start = offset ∧ isScopeHead t = true
  last : ∃ t, ts.getLast? = some t ∧ t.stop = offset + scope.length
  plain : ∀ t ∈ ts, t.isPunct ['('] = false ∧ t.isPunct [')'] = false

theorem enclosed_of_isScope {scope : Text} (h : IsScope scope) (offset : Nat) :
    Enclosed scope offset (tokensAt offset scope) := by
  rcases h with hword | ⟨p, hp, rfl⟩
  · have htoken : IsToken .ident scope := by
      apply isToken_word
      simp only [List.mem_cons, List.not_mem_nil, or_false] at hword
      rcases hword with rfl | rfl | rfl <;> simp
    rw [htoken.tokensAt]
    refine ⟨⟨_, rfl, rfl, ?_⟩, ⟨_, rfl, rfl⟩, by simp [Token.isPunct]⟩
    rw [isScopeHead, List.any_eq_true]
    refine ⟨scope, ?_, by simp [Token.isIdent]⟩
    simp only [List.mem_cons, List.not_mem_nil, or_false] at hword
    rcases hword with rfl | rfl | rfl <;> simp [scopeHeads]
  · rw [tokensAt_in hp]
    refine ⟨⟨_, rfl, rfl, ?_⟩, ?_, ?_⟩
    · rw [isScopeHead, List.any_eq_true]
      exact ⟨"in".toList, by simp [scopeHeads], by simp [Token.isIdent]⟩
    · have hstop := Path.stop_text hp (offset + 3)
      obtain ⟨t, ht, hend⟩ := Option.map_eq_some_iff.1 hstop
      refine ⟨t, by rw [List.getLast?_cons, ht]; rfl, ?_⟩
      rw [hend, List.length_append]
      simp
      omega
    · intro t ht
      rcases List.mem_cons.1 ht with rfl | ht
      · simp [Token.isPunct]
      · exact Path.no_paren_text hp _ t ht

theorem isClosed_scope {scope : Text} (h : IsScope scope) : isClosed scope = true := by
  rcases h with hword | ⟨p, hp, rfl⟩
  · simp only [List.mem_cons, List.not_mem_nil, or_false] at hword
    rcases hword with rfl | rfl | rfl <;> decide +kernel
  · have hword : IsToken .ident "in".toList := isToken_word _ (by simp)
    have hspaced := hword.spaced (by decide) (ident_head_not_blank hword)
    exact isClosed_append hspaced.closed (Path.isClosed_text hp) (hspaced.apart (Path.head_text hp))

/-- The tokens of `pub(…)` in front of other texts. -/
theorem tokensAt_within {scope : Text} (h : IsScope scope) :
    tokensAt 0 (visibilityText (.within scope)) =
      ⟨.ident, "pub".toList, 0, 3⟩ :: ⟨.punct, ['('], 3, 4⟩ :: (tokensAt 4 scope ++
        [⟨.punct, [')'], 4 + scope.length, 5 + scope.length⟩]) := by
  have hpub : IsToken .ident "pub".toList := isToken_word _ (by simp)
  have htext : visibilityText (.within scope) =
      "pub".toList ++ ('(' :: (scope ++ (')' :: [' ']))) := by
    rw [visibilityText, List.append_assoc]
    rfl
  rw [htext, tokensAt_append 0 (hpub.isClosed (by decide))
    (Apart.of_head fun x _ => apart_mark (by decide)), hpub.tokensAt, tokensAt_plain _ (by decide),
    tokensAt_append _ (isClosed_scope h) (Apart.of_head fun x _ => apart_mark (by decide)),
    tokensAt_plain _ (by decide), tokensAt_blank]
  have hstop : 4 + scope.length + 1 = 5 + scope.length := by omega
  simp [hstop]

/-! ## Tokens of written modifiers -/

/-- Without parentheses inside, a group goes back to the one that opens it. -/
theorem reaches_plain {inner : List Token} {opener : Token}
    (hinner : ∀ t ∈ inner, t.isPunct ['('] = false ∧ t.isPunct [')'] = false)
    (hopener : opener.isPunct ['('] = true) : Reaches 1 (inner ++ [opener]) := by
  induction inner with
  | nil =>
    rw [List.nil_append, reaches_cons, roundDepth_opener hopener]
    exact ⟨by decide, reaches_nil.2 rfl⟩
  | cons t inner ih =>
    have ht := hinner t (by simp)
    rw [List.cons_append, reaches_cons, roundDepth_other ht.1 ht.2]
    exact ⟨by decide, ih fun u hu => hinner u (by simp [hu])⟩

theorem slice_scope (scope t : Text) :
    slice (visibilityText (.within scope) ++ t) 4 (4 + scope.length) = scope := by
  have htext : visibilityText (.within scope) ++ t =
      "pub(".toList ++ (scope ++ (") ".toList ++ t)) := by simp [visibilityText]
  rw [htext]
  exact slice_middle "pub(".toList scope _

theorem tokensAt_everywhere :
    tokensAt 0 (visibilityText .everywhere) = [⟨.ident, "pub".toList, 0, 3⟩] := by
  have hpub : IsToken .ident "pub".toList := isToken_word _ (by simp)
  exact hpub.tokensAt_spaced (by decide) 0

theorem writes_visibilityText {v : Visibility} (h : ∀ scope, v = .within scope → IsScope scope)
    (t : Text) : WritesVisibility (visibilityText v ++ t) v (tokensAt 0 (visibilityText v)) := by
  cases v with
  | inherited =>
    rw [show visibilityText .inherited = [] from rfl, tokensAt_nil]
    exact .inherited
  | everywhere =>
    rw [tokensAt_everywhere]
    exact .everywhere (by decide)
  | within scope =>
    have hscope := h scope rfl
    obtain ⟨⟨first, hfirst, hstart, hhead⟩, ⟨last, hlast, hstop⟩, hplain⟩ :=
      enclosed_of_isScope hscope 4
    have hslice := slice_scope scope t
    rw [← hstop, ← hstart] at hslice
    rw [tokensAt_within hscope]
    obtain ⟨more, hmore⟩ : ∃ more, tokensAt 4 scope = first :: more :=
      List.head?_eq_some_iff.1 hfirst
    rw [hmore] at hlast hplain ⊢
    have hcloser : Token.isPunct ⟨.punct, [')'], 4 + scope.length, 5 + scope.length⟩ [')'] = true := by
      simp [Token.isPunct]
    have hopener : Token.isPunct ⟨.punct, ['('], 3, 4⟩ ['('] = true := by decide
    have hgroup := (isGroup_iff_reaches hcloser (⟨.punct, ['('], 3, 4⟩ :: first :: more)).2 (by
      rw [List.reverse_cons]
      exact reaches_plain (fun u hu => hplain u (List.mem_reverse.1 hu)) hopener)
    have hwithin := WritesVisibility.within (s := visibilityText (.within scope) ++ t)
      (t := ⟨.ident, "pub".toList, 0, 3⟩) (by decide) hopener hhead hlast hcloser hgroup
    rwa [hslice] at hwithin

theorem writes_wordText {word : Text} (hword : IsToken .ident word) (isPresent : Bool)
    (offset : Nat) : WritesWord word isPresent (tokensAt offset (wordText word isPresent)) := by
  cases isPresent with
  | false =>
    rw [wordText, if_neg (by decide), tokensAt_nil]
    exact .absent
  | true =>
    rw [wordText, if_pos rfl, hword.tokensAt_spaced (by decide)]
    exact .present (by simp [Token.isIdent])

theorem isToken_literal {abi : Text} (h : '"' ∉ abi ∧ '\\' ∉ abi) :
    IsToken .string (literal abi) := by
  have hquoted : cutQuoted (abi ++ ['"']) = some (abi ++ ['"'], []) := by
    induction abi with
    | nil => rfl
    | cons c abi ih =>
      simp only [List.mem_cons, not_or] at h
      obtain ⟨⟨hquote, hquotes⟩, hback, hbacks⟩ := h
      rw [List.cons_append, cutQuoted_cons ⟨Ne.symm hquote, Ne.symm hback⟩, ih ⟨hquotes, hbacks⟩]
      rfl
  rw [IsToken, literal, lexemes_string hquoted, lexemes_nil]

theorem unquoted_literal {abi : Text} (h : '"' ∉ abi) : unquoted (literal abi) = abi := by
  have hquote : ∀ c ∈ ['"'], (c == '"') = true := by simp
  have hplain : ∀ c, c ∈ abi → (c == '"') = false := by
    intro c hc
    rw [beq_eq_false_iff_ne]
    rintro rfl
    exact h hc
  cases abi with
  | nil => rfl
  | cons c abi =>
    have hfront : (literal (c :: abi)).dropWhile (· == '"') = (c :: abi) ++ ['"'] :=
      dropWhile_append_of_head hquote fun d hd => hplain d (by simp_all)
    have hback : ((c :: abi) ++ ['"']).reverse.dropWhile (· == '"') = (c :: abi).reverse := by
      rw [List.reverse_append]
      apply dropWhile_append_of_head hquote
      intro d hd
      exact hplain d (List.mem_reverse.1 (List.mem_of_head? hd))
    rw [unquoted, hfront, hback, List.reverse_reverse]

theorem tokensAt_foreign (offset : Nat) :
    tokensAt offset (linkageText (.foreign none)) =
      [⟨.ident, "extern".toList, offset, offset + 6⟩] := by
  have hlink : IsToken .ident "extern".toList := isToken_word _ (by simp)
  exact hlink.tokensAt_spaced (by decide) offset

theorem tokensAt_abi {abi : Text} (h : '"' ∉ abi ∧ '\\' ∉ abi) (offset : Nat) :
    ∃ stop, tokensAt offset (linkageText (.foreign (some abi))) =
      [⟨.ident, "extern".toList, offset, offset + 6⟩, ⟨.string, literal abi, offset + 7, stop⟩] := by
  have hlink : IsToken .ident "extern".toList := isToken_word _ (by simp)
  have hspaced := hlink.spaced (by decide) (ident_head_not_blank hlink)
  have hhead : ∀ c ∈ (literal abi ++ [' ']).head?, isBlank c = false := by
    have hquote : isBlank '"' = false := by decide
    simpa [literal] using hquote
  have happ := hspaced.tokensAt_append hhead offset
  rw [hlink.tokensAt_spaced (by decide), (isToken_literal h).tokensAt_spaced (by decide)] at happ
  exact ⟨_, happ⟩

theorem writes_linkageText {l : Linkage}
    (h : ∀ abi, l = .foreign (some abi) → '"' ∉ abi ∧ '\\' ∉ abi) (offset : Nat) :
    WritesLinkage l (tokensAt offset (linkageText l)) := by
  have hident : Token.isIdent ⟨.ident, "extern".toList, offset, offset + 6⟩ "extern" = true := by
    simp [Token.isIdent]
  cases l with
  | native =>
    rw [show linkageText .native = [] from rfl, tokensAt_nil]
    exact .native
  | foreign abi =>
    cases abi with
    | none =>
      rw [tokensAt_foreign]
      exact .foreign hident
    | some abi =>
      have habi := h abi rfl
      obtain ⟨stop, htokens⟩ := tokensAt_abi habi offset
      have hwritten := WritesLinkage.abi (u := ⟨.string, literal abi, offset + 7, stop⟩) hident rfl
      rw [htokens]
      rwa [unquoted_literal habi.1] at hwritten

/-! ## All modifiers -/

theorem spaced_visibilityText {v : Visibility} (h : ∀ scope, v = .within scope → IsScope scope) :
    Spaced (visibilityText v) := by
  have hpub : IsToken .ident "pub".toList := isToken_word _ (by simp)
  cases v with
  | inherited => exact spaced_nil
  | everywhere => exact hpub.spaced (by decide) (ident_head_not_blank hpub)
  | within scope =>
    have hopen : isClosed "pub(".toList = true := by decide +kernel
    have hclose : isClosed ") ".toList = true := by decide +kernel
    have hhead : isBlank 'p' = false := by decide
    have hround : ∀ t, Apart "pub(".toList t := by
      intro t x hx y _
      obtain rfl : '(' = x := by simpa using hx
      exact apart_plain (by decide) (by decide)
    have htext : visibilityText (.within scope) = "pub(".toList ++ (scope ++ ") ".toList) := by
      simp [visibilityText]
    have hlast : (visibilityText (.within scope)).getLast? = some ' ' := by
      rw [htext, List.getLast?_append, List.getLast?_append]
      rfl
    refine ⟨?_, by simpa [visibilityText] using hhead, by simp [hlast]⟩
    rw [htext]
    exact isClosed_append hopen
      (isClosed_append (isClosed_scope (h scope rfl)) hclose
        (Apart.of_head fun x _ => apart_mark (by decide))) (hround _)

theorem spaced_wordText {word : Text} (h : IsToken .ident word) (isPresent : Bool) :
    Spaced (wordText word isPresent) := by
  cases isPresent with
  | false => exact spaced_nil
  | true => exact h.spaced (by decide) (ident_head_not_blank h)

theorem spaced_linkageText {l : Linkage}
    (h : ∀ abi, l = .foreign (some abi) → '"' ∉ abi ∧ '\\' ∉ abi) : Spaced (linkageText l) := by
  have hlink : IsToken .ident "extern".toList := isToken_word _ (by simp)
  have hspaced := hlink.spaced (by decide) (ident_head_not_blank hlink)
  have hquote : isBlank '"' = false := by decide
  cases l with
  | native => exact spaced_nil
  | foreign abi =>
    cases abi with
    | none => exact hspaced
    | some abi =>
      exact hspaced.append ((isToken_literal (h abi rfl)).spaced (by decide)
        (by simpa [literal] using hquote))

theorem spaced_text {m : Modifiers} (h : m.IsProper) : Spaced m.text :=
  (spaced_visibilityText h.scope).append ((spaced_wordText (isToken_word _ (by simp)) m.isConst).append
    ((spaced_wordText (isToken_word _ (by simp)) m.isAsync).append
      ((spaced_wordText (isToken_word _ (by simp)) m.isUnsafe).append (spaced_linkageText h.abi))))

/-- The tokens of modifiers, one kind of modifier after the other. -/
theorem tokens_text {m : Modifiers} (h : m.IsProper) : ∃ a b c d, m.text.tokens =
    tokensAt 0 (visibilityText m.visibility) ++ (tokensAt a (wordText "const" m.isConst) ++
      (tokensAt b (wordText "async" m.isAsync) ++ (tokensAt c (wordText "unsafe" m.isUnsafe) ++
        tokensAt d (linkageText m.linkage)))) := by
  have hconst := spaced_wordText (isToken_word "const" (by simp)) m.isConst
  have hasync := spaced_wordText (isToken_word "async" (by simp)) m.isAsync
  have hunsafe := spaced_wordText (isToken_word "unsafe" (by simp)) m.isUnsafe
  have hlinkage := spaced_linkageText h.abi
  have hlast := hunsafe.append hlinkage
  have hlater := hasync.append hlast
  have htext := (spaced_visibilityText h.scope).tokensAt_append (hconst.append hlater).head 0
  rw [hconst.tokensAt_append hlater.head, hasync.tokensAt_append hlast.head,
    hunsafe.tokensAt_append hlinkage.head] at htext
  exact ⟨_, _, _, _, htext⟩

/-- Written modifiers are read back, and nothing is left over. -/
theorem takeAll_text {m : Modifiers} (h : m.IsProper) (t : Text) :
    takeAll (m.text ++ t) m.text.tokens.reverse = (m, []) := by
  obtain ⟨a, b, c, d, htokens⟩ := tokens_text h
  obtain ⟨u, hu⟩ : ∃ u, m.text ++ t = visibilityText m.visibility ++ u :=
    ⟨_, List.append_assoc _ _ _⟩
  rw [takeAll_eq_iff, hu]
  exact ⟨_, _, _, _, _, htokens, writes_visibilityText h.scope u,
    writes_wordText (isToken_word _ (by simp)) m.isConst a,
    writes_wordText (isToken_word _ (by simp)) m.isAsync b,
    writes_wordText (isToken_word _ (by simp)) m.isUnsafe c, writes_linkageText h.abi d⟩

end Modifiers

end DocScaffold
