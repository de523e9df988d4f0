import DocScaffold.Proofs.Agreement
import DocScaffold.Proofs.Tiling

/-!
# Traits and unions

The keyword that a search starts on leads the signature, whatever has been collected behind it
(`leadingKeyword?_of_search`): nothing in front of it is open at its end. So traits and unions are never
documented (`unsupported_of_search`).
-/

namespace DocScaffold

open Text

/-! ## Closed texts by their signs -/

namespace Lexeme

/-- The signs that may leave a text open. -/
def openSigns : List Char := ['"', '\x27', '/', '#']

theorem areClosed_of_signs {ls : List Lexeme}
    (h : ∀ l ∈ ls, l.kind ≠ .lineComment ∧ ∀ c ∈ openSigns, l.isSign c = false) :
    areClosed ls = true := by
  induction ls with
  | nil => rfl
  | cons l ls ih =>
    obtain ⟨hcomment, hsigns⟩ := h l (by simp)
    rw [areClosed, ih fun m hm => h m (by simp [hm]), isOpen]
    simp [hcomment, hsigns _ (show '"' ∈ openSigns by decide),
      hsigns _ (show '\x27' ∈ openSigns by decide), hsigns _ (show '/' ∈ openSigns by decide),
      hsigns _ (show '#' ∈ openSigns by decide)]

end Lexeme

namespace Token

/-- Whether a token may stand in a text without leaving it open. -/
def IsShut (t : Token) : Prop := ∀ c ∈ Lexeme.openSigns, t.isPunct [c] = false

theorem isShut_of_kind {t : Token} (h : t.kind ≠ .punct) : IsShut t := by
  intro c _
  simp [isPunct, h]

theorem isShut_of_isPunct {t : Token} {sign : Text} (h : t.isPunct sign = true)
    (hsign : Lexeme.openSigns.all (sign != [·]) = true) : IsShut t :=
  fun c hc => isPunct_unique h (bne_iff_ne.1 (List.all_eq_true.1 hsign c hc))

end Token

namespace Text

theorem isClosed_of_shut {s : Text} (hcomment : ∀ l ∈ lexemes s, l.kind ≠ .lineComment)
    (h : ∀ t ∈ s.tokens, t.IsShut) : isClosed s = true := by
  refine Lexeme.areClosed_of_signs fun l hl => ⟨hcomment l hl, fun c hc => ?_⟩
  rw [Bool.eq_false_iff]
  intro hsign
  obtain ⟨t, ht, hpunct⟩ := isPunct_of_isSign hl hsign
  rw [h t ht c hc] at hpunct
  exact absurd hpunct (by decide)

end Text

/-! ## Modifiers that leave nothing open -/

namespace Modifiers

open Token

/-- Whether a scope is a path of words. -/
def IsPathScope (scope : Text) : Prop := ∀ t ∈ scope.tokens, t.kind = .ident ∨ t.isPunct "::" = true

instance (scope : Text) : Decidable (IsPathScope scope) :=
  inferInstanceAs (Decidable (∀ _ ∈ _, _ ∨ _))

theorem isShut_of_isIdent {t : Token} {word : Text} (h : t.isIdent word = true) : t.IsShut :=
  isShut_of_kind (by simp [kind_of_isIdent h])

theorem WritesWord.isShut {word : Text} {isPresent : Bool} {piece : List Token}
    (h : WritesWord word isPresent piece) : ∀ t ∈ piece, t.IsShut := by
  cases h with
  | absent => simp
  | present hident => simpa using isShut_of_isIdent hident

theorem WritesLinkage.isShut {l : Linkage} {piece : List Token} (h : WritesLinkage l piece) :
    ∀ t ∈ piece, t.IsShut := by
  cases h with
  | native => simp
  | foreign hident => simpa using isShut_of_isIdent hident
  | abi hident hstring => simpa using ⟨isShut_of_isIdent hident, isShut_of_kind (by simp [hstring])⟩

variable {s : Text} {ts rest : List Token}

theorem WritesVisibility.isShut {v : Visibility} (h : WritesVisibility s v ts)
    (hs : s.tokens = ts ++ rest) (hscope : ∀ scope, v = .within scope → IsPathScope scope) :
    ∀ t ∈ ts, t.IsShut := by
  cases h with
  | inherited => simp
  | everywhere hpub => simpa using isShut_of_isIdent hpub
  | @within p opener first last closer more hpub hopener hfirst hlast hcloser hgroup =>
    have hslice := tokens_slice
      (show s.tokens = [p, opener] ++ (first :: more ++ closer :: rest) by simpa using hs) hlast
    have hmore : ∀ t ∈ first :: more, t.IsShut := by
      intro t ht
      rw [hslice] at ht
      obtain ⟨u, hu, rfl⟩ := List.mem_map.1 ht
      rcases hscope _ rfl u hu with hident | hcolons
      · exact isShut_of_kind (by simp [hident])
      · exact isShut_of_isPunct (t := u.shift first.start) hcolons (by decide)
    rw [List.forall_mem_cons, List.cons_append, List.forall_mem_cons, List.forall_mem_append,
      List.forall_mem_singleton]
    exact ⟨isShut_of_isIdent hpub, isShut_of_isPunct hopener (by decide), hmore,
      isShut_of_isPunct hcloser (by decide)⟩

/-- Modifiers leave nothing open, unless their scope does. -/
theorem Writes.isShut {m : Modifiers} (h : Writes s m ts) (hs : s.tokens = ts ++ rest)
    (hscope : ∀ scope, m.visibility = .within scope → IsPathScope scope) : ∀ t ∈ ts, t.IsShut := by
  obtain ⟨visibility, consts, asyncs, unsafes, linkage, rfl, hvisibility, hconst, hasync, hunsafe,
    hlinkage⟩ := h
  simp only [List.forall_mem_append]
  exact ⟨hvisibility.isShut (by rw [hs, List.append_assoc]) hscope, hconst.isShut, hasync.isShut,
    hunsafe.isShut, hlinkage.isShut⟩

end Modifiers

namespace Declaration

open Modifiers Token

/-- The scope of the visibility in front of the first item keyword. -/
def scope? (s : Text) : Option Text := do
  let i ← s.tokens.findIdx? fun t => (Keyword.ofToken? t).isSome
  match (Modifiers.before s s.tokens i).1.visibility with
  | .within scope => some scope
  | _ => none

variable {line : Text} {k : Keyword} {m : Modifiers} {lead rest : List Token} {t : Token}

theorem Introduces.ofToken? {s : Text} (h : Introduces s k m lead t rest) :
    (∀ u ∈ lead, Keyword.ofToken? u = none) ∧ Keyword.ofToken? t = some k :=
  ⟨fun u hu => Keyword.ofToken?_eq_none (h.first u hu), Keyword.ofToken?_of_isIdent h.keyword⟩

theorem Introduces.scope?_eq {s scope : Text} (h : Introduces s k m lead t rest)
    (hscope : m.visibility = .within scope) : scope? s = some scope := by
  have hfind : (s.tokens.findIdx? fun t => (Keyword.ofToken? t).isSome) = some lead.length := by
    rw [h.tokens, Keyword.findIdx?_of_first h.ofToken?.1 h.ofToken?.2]
  rw [scope?, hfind]
  simp only [Option.bind_eq_bind, Option.bind_some, h.before_eq, hscope]

theorem Introduces.isAll {s : Text} (h : Introduces s k m lead t rest) : IsAll lead := by
  have hbefore := before_eq_zero_iff.1 (congrArg Prod.snd h.before_eq)
  rwa [h.tokens, List.take_left] at hbefore

theorem Introduces.isClosed_opening (h : Introduces line.beforeLineComment k m lead t rest)
    (hscope : ∀ scope ∈ scope? line.beforeLineComment, IsPathScope scope) :
    isClosed (opening line) = true := by
  obtain ⟨before, after, hls, hbefore, hopening, -⟩ :=
    exists_opening h.tokens h.ofToken?.1 h.ofToken?.2
  refine isClosed_of_shut (fun l hl => ?_) fun u hu => ?_
  · rw [hopening] at hl
    have hmem : l ∈ lexemes line.beforeLineComment := by
      rw [hls, List.append_cons]
      exact List.mem_append_left _ hl
    exact kind_of_mem_beforeLineComment hmem
  · have htokens : (opening line).tokens = Lexeme.tokensFrom 0 (lexemes (opening line)) := rfl
    rw [htokens, hopening, tokensFrom_append, hbefore] at hu
    rcases List.mem_append.1 hu with hlead | hlast
    · exact h.modifiers.isShut h.tokens (fun scope hs => hscope scope (h.scope?_eq hs)) u hlead
    · obtain rfl := List.mem_singleton.1 hlast
      exact isShut_of_kind (by simp)

variable {lines : List Text} {cursor : Nat} {d : Declaration}

/-- The keyword that a search started on leads the signature. -/
theorem leadingKeyword?_of_search (hfound : search lines cursor = .found d)
    (hscope : ∀ line ∈ (d.sourceLines lines).head?, ∀ scope ∈ scope? line.beforeLineComment,
      IsPathScope scope) : Item.leadingKeyword? d.signature = some d.keyword := by
  obtain ⟨-, -, -, -, line, hline, hkeyword⟩ := spec_of_search hfound
  obtain ⟨m, lead, t, rest, h⟩ := (keyword?_iff_introduces line d.keyword).1.1 hkeyword
  obtain ⟨before, after, -, hbefore, hopening, -⟩ := exists_opening h.tokens h.ofToken?.1 h.ofToken?.2
  obtain ⟨u, more, htokens, hu⟩ := exists_tokens_signature hfound hline hkeyword
    (h.isClosed_opening (hscope line hline)) hopening
  have hproper : ∀ l ∈ before, l.Proper := fun l hl =>
    Lexeme.proper_of_mem (s := opening line) (by rw [hopening]; exact List.mem_append_left _ hl)
  have hfront := ofToken?_squeezed hproper (by rw [hbefore]; exact h.ofToken?.1) 0
  have hall : IsAll (Lexeme.tokensFrom 0 (before.map Lexeme.squeezed)) := by
    refine isAll_of_outlines (outlines_of_shapes (Lexeme.shapes_squeezed hproper 0 0)) ?_
    rw [hbefore]
    exact h.isAll
  have hzero : (Modifiers.before d.signature d.signature.tokens
      (Lexeme.tokensFrom 0 (before.map Lexeme.squeezed)).length).2 = 0 := by
    rw [before_eq_zero_iff, htokens, List.take_left]
    exact hall
  rw [Item.leadingKeyword?_eq htokens hfront hu, if_pos hzero]

end Declaration

namespace Item

theorem Class.of_unsupported {s : Text} {k : Keyword} (h : leadingKeyword? s = some k)
    (hk : k.isUnsupported = true) : Class.of s = .unsupported (some k) := by
  rw [Class.of, h]
  cases k with
  | trait | union => rfl
  | fn | struct | enum => simp [Keyword.isUnsupported] at hk

end Item

namespace Declaration

open Modifiers

/-- A trait or a union that a search finds is rejected under its keyword, and nothing is generated for
it, whatever its lines hold. A scope that is no path of words can leave a quote open in front of the
keyword. -/
theorem unsupported_of_search {lines : List Text} {cursor : Nat} {d : Declaration}
    (hfound : search lines cursor = .found d) (hkeyword : d.keyword.isUnsupported = true)
    (hscope : ∀ line ∈ (d.sourceLines lines).head?, ∀ scope ∈ scope? line.beforeLineComment,
      IsPathScope scope) :
    Item.classify d.signature = .error ⟨d.signature, some d.keyword⟩ ∧ ∀ (g : Generator) (o : Options),
      g.documentBehind lines cursor o = some (.unsupported (some d.keyword)) ∧
      g.templateBehind lines cursor o = .ok none := by
  have hclass := Item.Class.of_unsupported (leadingKeyword?_of_search hfound hscope) hkeyword
  refine ⟨by rw [Item.classify, hclass], fun g o => ?_⟩
  have hdocument : g.documentBehind lines cursor o = some (.unsupported (some d.keyword)) := by
    rw [Generator.documentBehind, hfound]
    simp only [Sought.declaration?, Option.map_some, Generator.document, hclass]
  refine ⟨hdocument, ?_⟩
  rw [Generator.templateBehind, cursorLine, if_neg (by omega)]
  simp [hdocument, Generator.Outcome.found?]

/-- A trait with a scope, and a function, a literal that is left open and a struct among its lines. -/
def shapedLines : List Text := [
  "///", "#[cfg(test)] pub(in crate::mem) unsafe trait Shaped // fn", "  where fn go(a: \"open",
  "  struct Inner /* enum */ \x7b", "\x7d"]

def shapedDeclaration : Declaration :=
  ⟨"pub(in crate::mem) unsafe trait Shaped where fn go(a: \"open struct Inner /* enum */ \x7b", .trait,
    1, 3⟩

theorem unsupported_of_search_shaped : search shapedLines 0 = .found shapedDeclaration ∧
    Item.classify shapedDeclaration.signature = .error ⟨shapedDeclaration.signature, some .trait⟩ ∧
    ∀ (g : Generator) (o : Options),
      g.documentBehind shapedLines 0 o = some (.unsupported (some .trait)) ∧
      g.templateBehind shapedLines (0 : Nat) o = .ok none := by
  have hfound : search shapedLines 0 = .found shapedDeclaration := by decide +kernel
  exact ⟨hfound, unsupported_of_search hfound rfl (by decide +kernel)⟩

end Declaration

end DocScaffold
