import Mathlib.Data.List.TakeWhile
import DocScaffold.Proofs.Header

/-!
# Entries of a written body

A group of brackets keeps its commas to itself, so entries with attributes, scopes and payloads in
brackets are read entry by entry, also from a body with spaces at its ends or a comma behind the last
entry (`entries_body`). Attributes and a visibility in front of an entry are taken off
(`withoutAttributes_text`, `withoutVisibility_text`).
-/

namespace DocScaffold

open Text

namespace Token

variable {up down : Token → Bool}

/-- A group without open brackets is passed over inside others. -/
theorem outside_within {ts us : List Token} {depth n : Nat} (rest : List Token)
    (h : outside up down depth ts = some us) :
    outside up down (depth + n + 1) (ts ++ rest) = outside up down (n + 1) rest := by
  replace h := outside_of_eq_some h
  induction h with
  | nil =>
    rw [Nat.zero_add]
    rfl
  | @opener depth t ts us hup _ ih =>
    have hdepth : depth + n + 1 + 1 = depth + 1 + n + 1 := by omega
    rw [List.cons_append, outside, if_pos hup, hdepth, ih]
  | @closer depth t ts us hup hdown _ ih =>
    have hdepth : depth + 1 + n + 1 - 1 = depth + n + 1 := by omega
    rw [List.cons_append, outside, hup, hdown, if_neg (by decide), if_pos rfl, if_neg (by omega),
      hdepth, ih]
  | outer hup hdown _ ih | inner hup hdown _ ih =>
    rw [List.cons_append, outside, hup, hdown, if_neg (by decide), if_neg (by decide),
      if_neg (by omega), ih]

end Token

namespace Text

/-! ## Brackets around a text -/

/-- The pairs of brackets. -/
def brackets : List (Char × Char) := [('(', ')'), ('[', ']'), ('\x7b', '\x7d')]

/-- A text inside brackets. -/
def bracketed (pair : Char × Char) (inner : Text) : Text := pair.1 :: (inner ++ [pair.2])

theorem getLast?_bracketed (pair : Char × Char) (inner : Text) :
    (bracketed pair inner).getLast? = some pair.2 := by
  rw [bracketed, ← List.cons_append, List.getLast?_concat]

theorem tokens_bracketed {pair : Char × Char} (hpair : pair ∈ brackets) {inner : Text}
    (h : isClosed inner = true) : isClosed (bracketed pair inner) = true ∧
      ∃ a b : Token, tokens (bracketed pair inner) = a :: (tokensAt 1 inner ++ [b]) ∧
        a.opens = true ∧ b.opens = false ∧ b.closes = true := by
  have hsigns : isPlain pair.1 = true ∧ pair.1 ≠ '#' ∧ isMark pair.2 = true ∧
      isClosed [pair.1] = true ∧ isClosed [pair.2] = true := by
    simp only [brackets, List.mem_cons, List.not_mem_nil, or_false] at hpair
    rcases hpair with rfl | rfl | rfl <;> decide +kernel
  obtain ⟨hplain, hhash, hmark, hopener, hcloser⟩ := hsigns
  have hinner : Apart inner [pair.2] := Apart.of_head fun x _ => apart_mark hmark
  have hfront : Apart [pair.1] (inner ++ [pair.2]) := by
    intro x hx y _
    obtain rfl : pair.1 = x := by simpa using hx
    exact apart_plain hplain hhash
  refine ⟨isClosed_append hopener (isClosed_append h hcloser hinner) hfront, ?_⟩
  have hplain' : isPlain pair.2 = true := by
    rw [isMark, Bool.and_eq_true] at hmark
    exact hmark.1
  refine ⟨⟨.punct, [pair.1], 0, 1⟩,
    ⟨.punct, [pair.2], 1 + inner.length, 1 + inner.length + 1⟩, ?_, ?_⟩
  · rw [tokens_eq_tokensAt, bracketed, tokensAt_plain _ hplain, tokensAt_append _ h hinner,
      tokensAt_plain _ hplain', tokensAt_nil]
  · simp only [brackets, List.mem_cons, List.not_mem_nil, or_false] at hpair
    rcases hpair with rfl | rfl | rfl <;> simp [Token.opens, Token.closes, Token.isPunct]

/-- The commas of a group in brackets part nothing outside it. -/
theorem isWhole_bracketed {pair : Char × Char} (hpair : pair ∈ brackets) {inner : Text}
    (h : isBalanced inner = true) : isWhole (bracketed pair inner) = true := by
  obtain ⟨outer, houter⟩ := outside_of_isBalanced h 1
  rw [isBalanced, Bool.and_eq_true] at h
  obtain ⟨hclosed, a, b, htokens, ha, hb, hb'⟩ := tokens_bracketed hpair h.1
  have hinner := Token.outside_within (n := 0) [b] houter
  rw [isWhole, hclosed, htokens, Bool.true_and, keepsCommas_iff]
  refine ⟨[], ?_, by simp⟩
  rw [Token.outside, if_pos ha, ← Nat.add_zero 0, hinner]
  simp [Token.outside, hb, hb']

theorem isWhole_space : isWhole [' '] = true := isWhole_filler (by decide)

/-! ## Bodies -/

/-- The end of a body: a comma behind the last entry or none, and a space. -/
def bodyEnd (isTrailing : Bool) : Text := if isTrailing then [',', ' '] else [' ']

/-- Entries between the braces of a body. -/
def body (entries : List Text) (isTrailing : Bool) : Text :=
  ' ' :: (listed entries ++ bodyEnd isTrailing)

theorem listed_comma {p : Text} {ps : List Text} :
    listed (p :: ps) ++ [',', ' '] = listed (p :: (ps ++ [[]])) := by
  induction ps generalizing p with
  | nil => simp [listed]
  | cons q ps ih =>
    rw [List.cons_append, listed_cons_cons, listed_cons_cons, ← ih]
    simp

/-- A body is read entry by entry. -/
theorem entries_body {ps : List Text} (hne : ps ≠ []) (hsolid : ∀ p ∈ ps, Solid p)
    (hwhole : ∀ p ∈ ps, isWhole p = true) (isTrailing : Bool) :
    (body ps isTrailing).entries = ps := by
  obtain ⟨p, ps, rfl⟩ := List.exists_cons_of_ne_nil hne
  have hkeep : ((p :: ps).filter fun piece => !piece.isEmpty) = p :: ps := by
    rw [List.filter_eq_self]
    intro q hq
    simpa using (hsolid q hq).nonempty
  have hfront : ∀ c ∈ List.drop 0 [' '], isBlank c = true := by simp [isBlank_space]
  have htokens : ∀ back : Text, IsPiece back p →
      tokens (' ' :: (listed (p :: ps) ++ back)) = tokensAt 1 (listed (p :: ps) ++ back) :=
    fun back hp => tokensAt_space 0 (hp.head ps)
  cases isTrailing with
  | false =>
    have hpieces := piecesFrom_listed [' '] [' '] 0 (fun q hq => .inl (hsolid q hq)) hwhole (by simp)
      hfront (by simp)
    rw [body, bodyEnd, if_neg (by decide), entries, htokens _ (.inl (hsolid p (by simp)))]
    rw [List.singleton_append] at hpieces
    exact (congrArg _ hpieces).trans hkeep
  | true =>
    have hpiece : ∀ q ∈ p :: (ps ++ [[]]), IsPiece [] q ∧ isWhole q = true := by
      intro q hq
      rw [← List.cons_append, List.mem_append, List.mem_singleton] at hq
      rcases hq with hq | rfl
      · exact ⟨.inl (hsolid q hq), hwhole q hq⟩
      · exact ⟨.inr ⟨rfl, rfl⟩, isWhole_filler (by decide)⟩
    have hpieces := piecesFrom_listed [' '] [] 0 (fun q hq => (hpiece q hq).1)
      (fun q hq => (hpiece q hq).2) (by simp) hfront (by simp)
    have hhead := (hpiece p (by simp)).1.head (ps ++ [[]])
    rw [List.append_nil] at hhead
    rw [List.append_nil, List.singleton_append] at hpieces
    rw [body, bodyEnd, if_pos rfl, listed_comma, entries, tokens_eq_tokensAt, tokensAt_space 0 hhead]
    refine (congrArg _ hpieces).trans ?_
    rw [← List.cons_append, List.filter_append, hkeep]
    simp

/-- A list of solid texts is solid. -/
theorem solid_listed {ps : List Text} (hne : ps ≠ []) (hsolid : ∀ p ∈ ps, Solid p) :
    Solid (listed ps) := by
  induction ps with
  | nil => exact absurd rfl hne
  | cons p ps ih =>
    have hp := hsolid p (by simp)
    cases ps with
    | nil => simpa [listed] using hp
    | cons q ps =>
      have hrest := ih (by simp) fun r hr => hsolid r (List.mem_cons_of_mem p hr)
      have hsplit : listed (p :: q :: ps) = (p ++ [',']) ++ ' ' :: listed (q :: ps) := by
        simp [listed_cons_cons]
      rw [hsplit]
      exact (hp.concat (by decide)).join hrest ' '

theorem head_body {ps : List Text} (hne : ps ≠ []) (hsolid : ∀ p ∈ ps, Solid p) (isTrailing : Bool) :
    ∀ c ∈ (listed ps ++ bodyEnd isTrailing).head?, isBlank c = false := by
  have hlisted := solid_listed hne hsolid
  rw [List.head?_append_of_ne_nil _ hlisted.nonempty]
  exact hlisted.head

theorem isBalanced_body {ps : List Text} (hne : ps ≠ []) (hsolid : ∀ p ∈ ps, Solid p)
    (hwhole : ∀ p ∈ ps, isWhole p = true) (isTrailing : Bool) :
    isBalanced (body ps isTrailing) = true := by
  have hlisted := isBalanced_listed hsolid hwhole
  have hend : isBalanced (bodyEnd isTrailing) = true := by
    cases isTrailing with
    | false => exact isBalanced_of_isWhole isWhole_space
    | true => exact isBalanced_comma
  have hapart : Apart (listed ps) (bodyEnd isTrailing) := by
    cases isTrailing with
    | false => exact Apart.of_head fun x hx => apart_space ((solid_listed hne hsolid).last x hx)
    | true => exact Apart.of_head fun x _ => apart_mark (by decide)
  have hfront : Apart [' '] (listed ps ++ bodyEnd isTrailing) := by
    intro x hx y hy
    obtain rfl : ' ' = x := by simpa using hx
    exact space_apart (head_body hne hsolid isTrailing y hy)
  exact isBalanced_append (isBalanced_of_isWhole isWhole_space)
    (isBalanced_append hlisted hend hapart) hfront

theorem trim_ne_nil {s : Text} {c : Char} (hc : c ∈ s) (h : isBlank c = false) : trim s ≠ [] := by
  intro hnil
  rw [trim, trimEnd, List.reverse_eq_nil_iff] at hnil
  have hblank : ∀ d ∈ s.dropWhile isBlank, isBlank d = true := fun d hd =>
    List.dropWhile_eq_nil_iff.1 hnil d (List.mem_reverse.2 hd)
  have hsplit : s.takeWhile isBlank ++ s.dropWhile isBlank = s := List.takeWhile_append_dropWhile
  rw [← hsplit] at hc
  rcases List.mem_append.1 hc with hc | hc
  · rw [List.mem_takeWhile_imp hc] at h
    exact absurd h (by decide)
  · rw [hblank c hc] at h
    exact absurd h (by decide)

/-- A body with entries is not blank. -/
theorem trim_body {ps : List Text} (hne : ps ≠ []) (hsolid : ∀ p ∈ ps, Solid p) (isTrailing : Bool) :
    trim (body ps isTrailing) ≠ [] := by
  have hlisted := solid_listed hne hsolid
  obtain ⟨c, u, hcons⟩ := List.exists_cons_of_ne_nil hlisted.nonempty
  rw [hcons] at hlisted
  exact trim_ne_nil (c := c) (by simp [body, hcons]) (hlisted.head c rfl)

/-! ## Attributes -/

/-- Attributes with the given texts in their brackets, and a space behind each. -/
def attributesText (attributes : List Text) : Text :=
  attributes.flatMap fun inner => '#' :: (bracketed ('[', ']') inner ++ [' '])

theorem attributesText_cons (inner : Text) (attributes : List Text) :
    attributesText (inner :: attributes) =
      '#' :: (bracketed ('[', ']') inner ++ ' ' :: attributesText attributes) := by
  simp [attributesText]

theorem head_attributesText (attributes : List Text) :
    ∀ c ∈ (attributesText attributes).head?, c = '#' := by
  cases attributes with
  | nil => simp [attributesText]
  | cons inner attributes =>
    rw [attributesText_cons]
    simp

theorem isWhole_attributesText {attributes : List Text}
    (h : ∀ inner ∈ attributes, isBalanced inner = true) :
    isWhole (attributesText attributes) = true := by
  induction attributes with
  | nil => exact isWhole_filler (by decide)
  | cons inner attributes ih =>
    have hgroup : isWhole (bracketed ('[', ']') inner) = true :=
      isWhole_bracketed (by simp [brackets]) (h inner (by simp))
    have hrest := ih fun other hother => h other (List.mem_cons_of_mem inner hother)
    have hspace : Apart [' '] (attributesText attributes) := by
      intro x hx y hy
      obtain rfl : ' ' = x := by simpa using hx
      rw [head_attributesText attributes y hy]
      decide
    have hclosing : Apart (bracketed ('[', ']') inner) ([' '] ++ attributesText attributes) := by
      refine Apart.of_head fun x hx => ?_
      rw [getLast?_bracketed, Option.mem_some_iff] at hx
      subst hx
      decide
    have hopening : Apart ['#'] (bracketed ('[', ']') inner ++ ([' '] ++ attributesText attributes)) :=
      Apart.of_head fun x _ => apart_mark (by decide)
    rw [attributesText_cons]
    exact isWhole_append (isWhole_filler (by decide))
      (isWhole_append hgroup (isWhole_append isWhole_space hrest hspace) hclosing) hopening

theorem spaced_attributesText {attributes : List Text}
    (h : ∀ inner ∈ attributes, isBalanced inner = true) : Spaced (attributesText attributes) := by
  have hwhole := isWhole_attributesText h
  rw [isWhole, Bool.and_eq_true] at hwhole
  refine ⟨hwhole.1, fun c hc => ?_, fun c hc => ?_⟩
  · rw [head_attributesText attributes c hc]
    decide
  · cases attributes using List.reverseRecOn with
    | nil => simp [attributesText] at hc
    | append_singleton attributes inner =>
      have hend : attributesText (attributes ++ [inner]) =
          (attributesText attributes ++ '#' :: bracketed ('[', ']') inner) ++ [' '] := by
        simp [attributesText]
      rw [hend, List.getLast?_concat, Option.mem_some_iff] at hc
      exact hc.symm

/-- The first attribute ends with its bracket, also behind a space. -/
theorem attributeEnd?_text {inner : Text} (h : isBalanced inner = true) {w : Text}
    (hw : w = [] ∨ w = [' ']) (rest : Text) :
    attributeEnd? (w ++ '#' :: (bracketed ('[', ']') inner ++ rest)) =
      some (w.length + inner.length + 3) := by
  obtain ⟨outer, houter⟩ := outside_of_isBalanced h (w.length + 2)
  rw [isBalanced, Bool.and_eq_true] at h
  have hgroup : bracketed ('[', ']') inner ++ rest = '[' :: (inner ++ ']' :: rest) := by
    simp [bracketed]
  have htokens : tokens (w ++ '#' :: (bracketed ('[', ']') inner ++ rest)) =
      [⟨.punct, ['#'], w.length, w.length + 1⟩] ++
        ⟨.punct, ['['], w.length + 1, w.length + 2⟩ :: (tokensAt (w.length + 2) inner ++
          ⟨.punct, [']'], w.length + 2 + inner.length, w.length + 2 + inner.length + 1⟩ ::
            tokensAt (w.length + 2 + inner.length + 1) rest) := by
    have hplace : tokens (w ++ '#' :: (bracketed ('[', ']') inner ++ rest)) =
        tokensAt w.length ('#' :: (bracketed ('[', ']') inner ++ rest)) := by
      rcases hw with rfl | rfl
      · rfl
      · exact tokensAt_space 0 (by simp; decide)
    rw [hplace, hgroup, tokensAt_plain _ (by decide), tokensAt_plain _ (by decide),
      tokensAt_append _ h.1 (Apart.of_head fun x _ => apart_mark (by decide)),
      tokensAt_plain _ (by decide)]
    rfl
  generalize tokensAt (w.length + 2 + inner.length + 1) rest = behind at htokens
  generalize tokensAt (w.length + 2) inner = inside at htokens houter
  obtain ⟨hclosing, hdrop⟩ := Token.findClosing_group
    [⟨.punct, ['#'], w.length, w.length + 1⟩] behind
    (show Token.opens ⟨.punct, ['['], w.length + 1, w.length + 2⟩ = true by
      simp [Token.opens, Token.isPunct]) houter
    (show Token.opens ⟨.punct, [']'], w.length + 2 + inner.length, w.length + 2 + inner.length + 1⟩ =
        false ∧ Token.closes ⟨.punct, [']'], w.length + 2 + inner.length,
          w.length + 2 + inner.length + 1⟩ = true by
      simp [Token.opens, Token.closes, Token.isPunct])
  rw [← htokens] at hclosing hdrop
  have hcloser := congrArg List.head? hdrop
  rw [List.head?_drop, List.head?_cons] at hcloser
  rw [List.length_singleton] at hclosing hcloser
  have hstart : attributeEnd? (w ++ '#' :: (bracketed ('[', ']') inner ++ rest)) = (do
      let close ← Token.findClosing (tokens (w ++ '#' :: (bracketed ('[', ']') inner ++ rest))) 1
      let closer ← (tokens (w ++ '#' :: (bracketed ('[', ']') inner ++ rest)))[close]?
      return closer.stop) := by
    rw [attributeEnd?, htokens]
    simp [Token.isPunct]
  rw [hstart, hclosing, Option.bind_eq_bind, Option.bind_some, hcloser]
  simp only [Option.bind_eq_bind, Option.bind_some, Option.pure_def, Option.some.injEq]
  omega

/-- Where no attribute begins, the space in front is taken off. -/
theorem withoutAttributes_blank {w p : Text} (hw : w = [] ∨ w = [' ']) (hp : Solid p)
    (hhead : ∀ t ∈ p.tokens.head?, t.isPunct ['#'] = false) : (w ++ p).withoutAttributes = p := by
  have hblank : ∀ c ∈ w, isBlank c = true := by
    rcases hw with rfl | rfl <;> simp [isBlank_space]
  have htokens : (w ++ p).tokens = tokensAt w.length p := by
    rcases hw with rfl | rfl
    · rfl
    · exact tokensAt_space 0 hp.head
  have hfirst : ∀ t ∈ (w ++ p).tokens.head?, t.isPunct ['#'] = false := by
    intro t ht
    rw [htokens, tokensAt_eq_shift, List.head?_map, Option.mem_def, Option.map_eq_some_iff] at ht
    obtain ⟨u, hu, rfl⟩ := ht
    exact hhead u hu
  have htrim := Text.trim_between hblank hp (show ∀ c ∈ ([] : Text), isBlank c = true by simp)
  rw [List.append_nil] at htrim
  exact (withoutAttributes_of_head hfirst).trans htrim

/-- One attribute is taken off, and the space behind it is left. -/
theorem withoutAttributes_attribute {w inner : Text} (hw : w = [] ∨ w = [' '])
    (h : isBalanced inner = true) (rest : Text) :
    (w ++ '#' :: (bracketed ('[', ']') inner ++ ' ' :: rest)).withoutAttributes =
      withoutAttributes ([' '] ++ rest) := by
  have hend := attributeEnd?_text h hw (' ' :: rest)
  have hdrop : (w ++ '#' :: (bracketed ('[', ']') inner ++ ' ' :: rest)).drop
      (w.length + inner.length + 3) = [' '] ++ rest := by
    have hsplit : w ++ '#' :: (bracketed ('[', ']') inner ++ ' ' :: rest) =
        (w ++ '#' :: bracketed ('[', ']') inner) ++ ([' '] ++ rest) := by simp
    rw [hsplit]
    apply List.drop_left'
    simp only [bracketed, List.length_append, List.length_cons, List.length_nil]
    omega
  rw [withoutAttributes]
  split
  · rename_i hnone
    rw [hend] at hnone
    simp at hnone
  · rename_i n hn
    obtain rfl : w.length + inner.length + 3 = n := Option.some.inj (hend.symm.trans hn)
    rw [hdrop]

/-- Attributes are taken off one after the other. -/
theorem withoutAttributes_text {attributes : List Text}
    (h : ∀ inner ∈ attributes, isBalanced inner = true) {p : Text} (hp : Solid p)
    (hhead : ∀ t ∈ p.tokens.head?, t.isPunct ['#'] = false) :
    (attributesText attributes ++ p).withoutAttributes = p := by
  have hfrom : ∀ w : Text, w = [] ∨ w = [' '] →
      (w ++ (attributesText attributes ++ p)).withoutAttributes = p := by
    induction attributes with
    | nil => exact fun w hw => withoutAttributes_blank hw hp hhead
    | cons inner attributes ih =>
      intro w hw
      have htext : w ++ (attributesText (inner :: attributes) ++ p) =
          w ++ '#' :: (bracketed ('[', ']') inner ++ ' ' :: (attributesText attributes ++ p)) := by
        rw [attributesText_cons]
        simp
      rw [htext, withoutAttributes_attribute hw (h inner (by simp))]
      exact ih (fun other hother => h other (List.mem_cons_of_mem inner hother)) [' '] (.inr rfl)
  exact hfrom [] (.inl rfl)

end Text

namespace Modifiers

/-! ## Visibilities -/

theorem colon_apart {y : Char} (h : y ≠ ':') : apart ':' y = true := by
  have hcolon : isBlank ':' = false ∧ isWord ':' = false ∧ isDigit ':' = false := by decide
  have hcompound : (':', y) ∉ compounds := by simp [compounds, h]
  simp [apart, hcolon, hcompound]

theorem Path.isWhole_tailText {segments : List Text} (h : ∀ s ∈ segments, IsToken .ident s) :
    isWhole (tailText segments) = true := by
  induction segments with
  | nil => exact isWhole_filler (by decide)
  | cons s segments ih =>
    have hs := h s (by simp)
    have hrest := isWhole_append (hs.isWhole (by decide))
      (ih fun t ht => h t (List.mem_cons_of_mem s ht)) (apart_tailText hs segments)
    have hcolons : isWhole [':', ':'] = true := isWhole_filler (by decide)
    have htext : tailText (s :: segments) = [':', ':'] ++ (s ++ tailText segments) := rfl
    rw [htext]
    refine isWhole_append hcolons hrest ?_
    intro x hx y hy
    obtain rfl : ':' = x := by simpa using hx
    apply colon_apart
    rintro rfl
    obtain ⟨c, u, rfl⟩ := List.exists_cons_of_ne_nil hs.ident_ne_nil
    obtain rfl : c = ':' := by simpa using hy
    exact absurd (hs.ident_head ':' rfl) (by decide)

theorem Path.isWhole_text {p : Path} (h : p.IsProper) : isWhole p.text = true := by
  have hhead := h p.head (by simp)
  rw [text]
  split
  · exact isWhole_tailText h
  · exact isWhole_append (hhead.isWhole (by decide))
      (isWhole_tailText fun s hs => h s (List.mem_cons_of_mem p.head hs)) (apart_tailText hhead p.tail)

theorem isWhole_scope {scope : Text} (h : IsScope scope) : isWhole scope = true := by
  rcases h with hword | ⟨p, hp, rfl⟩
  · simp only [List.mem_cons, List.not_mem_nil, or_false] at hword
    have htoken : IsToken .ident scope := by
      apply isToken_word
      rcases hword with rfl | rfl | rfl <;> simp
    exact htoken.isWhole (by decide)
  · have hword : isWhole "in ".toList = true := isWhole_filler (by decide)
    refine isWhole_append hword (Path.isWhole_text hp) ?_
    intro x hx y hy
    obtain rfl : ' ' = x := by simpa using hx
    exact space_apart (Path.head_text hp y hy)

theorem isWhole_visibilityText {v : Visibility} (h : ∀ scope, v = .within scope → IsScope scope) :
    isWhole (visibilityText v) = true := by
  cases v with
  | inherited | everywhere => exact isWhole_filler (by decide)
  | within scope =>
    have hgroup : isWhole (bracketed ('(', ')') scope) = true :=
      isWhole_bracketed (by simp [brackets]) (isBalanced_of_isWhole (isWhole_scope (h scope rfl)))
    have hword : isWhole "pub".toList = true := isWhole_filler (by decide)
    have htext : visibilityText (.within scope) =
        "pub".toList ++ (bracketed ('(', ')') scope ++ [' ']) := by
      simp [visibilityText, bracketed]
    rw [htext]
    refine isWhole_append hword (isWhole_append hgroup isWhole_space ?_) ?_
    · refine Apart.of_head fun x hx => ?_
      rw [getLast?_bracketed, Option.mem_some_iff] at hx
      subst hx
      decide
    · exact Apart.of_head fun x _ => apart_mark (by decide)

theorem visibilityEnd?_scope {t opener head closer : Token} {rest : List Token} {n : Nat}
    (ht : t.isIdent "pub" = true) (hopener : opener.isPunct ['('] = true)
    (hhead : isScopeHead head = true)
    (hclosing : Token.findClosing (t :: opener :: head :: rest) 1 = some n)
    (hcloser : (t :: opener :: head :: rest)[n]? = some closer) :
    visibilityEnd? (t :: opener :: head :: rest) = some closer.stop := by
  unfold visibilityEnd?
  dsimp only
  rw [if_pos ht, hopener, hhead, hclosing, Option.bind_some, hcloser]
  rfl

theorem visibilityEnd?_of_head {ts : List Token} (h : ∀ t ∈ ts.head?, t.isIdent "pub" = false) :
    visibilityEnd? ts = none := by
  cases ts with
  | nil => rfl
  | cons t ts =>
    unfold visibilityEnd?
    dsimp only
    rw [h t rfl]
    rfl

/-- Whether a parenthesis and a word that may begin a scope come first. -/
def beginsScope : List Token → Bool
  | opener :: head :: _ => opener.isPunct ['('] && isScopeHead head
  | _ => false

theorem beginsScope_of_ident {ts : List Token} (h : ∀ t ∈ ts.head?, t.kind = .ident) :
    beginsScope ts = false := by
  unfold beginsScope
  split
  · rename_i opener head rest
    have hopener : opener.isPunct ['('] = false := by simp [Token.isPunct, h opener rfl]
    rw [hopener, Bool.false_and]
  · rfl

theorem beginsScope_shift (n : Nat) (ts : List Token) :
    beginsScope (ts.map (Token.shift n)) = beginsScope ts := by
  match ts with
  | [] | [_] => rfl
  | _ :: _ :: _ => rfl

/-- A visibility ends where its text does, unless a bare `pub` stands in front of what looks like its
scope. -/
theorem visibilityEnd?_text {v : Visibility} (h : ∀ scope, v = .within scope → IsScope scope)
    (rest : List Token) (hbare : v = .everywhere → beginsScope rest = false)
    (hpub : v = .inherited → ∀ t ∈ rest.head?, t.isIdent "pub" = false) :
    visibilityEnd? (tokensAt 0 (visibilityText v) ++ rest) =
      if v = .inherited then none else some ((visibilityText v).length - 1) := by
  cases v with
  | inherited =>
    have hnil : tokensAt 0 (visibilityText .inherited) = [] := tokensAt_nil 0
    rw [hnil, List.nil_append, if_pos rfl]
    exact visibilityEnd?_of_head (hpub rfl)
  | everywhere =>
    rw [tokensAt_everywhere, if_neg (by decide)]
    have hword : Token.isIdent ⟨.ident, "pub".toList, 0, 3⟩ "pub" = true := by decide
    unfold visibilityEnd?
    rw [List.singleton_append]
    dsimp only
    rw [if_pos hword]
    split
    · rename_i opener head more
      have hscope : (opener.isPunct ['('] && isScopeHead head) = false := hbare rfl
      rw [hscope]
      rfl
    · rfl
  | within scope =>
    have hscope := h scope rfl
    have hword : Token.isIdent ⟨.ident, "pub".toList, 0, 3⟩ "pub" = true := by decide
    obtain ⟨outer, houter⟩ := outside_of_isBalanced (isBalanced_of_isWhole (isWhole_scope hscope)) 4
    obtain ⟨head, hhead, -, hscopehead⟩ := (enclosed_of_isScope hscope 4).first
    obtain ⟨inside, hinside⟩ : ∃ inside, tokensAt 4 scope = head :: inside := by
      rw [List.head?_eq_some_iff] at hhead
      exact hhead
    obtain ⟨hclosing, hdrop⟩ := Token.findClosing_group [⟨.ident, "pub".toList, 0, 3⟩] rest
      (show Token.opens ⟨.punct, ['('], 3, 4⟩ = true by decide) houter
      (show Token.opens ⟨.punct, [')'], 4 + scope.length, 5 + scope.length⟩ = false ∧
        Token.closes ⟨.punct, [')'], 4 + scope.length, 5 + scope.length⟩ = true by
        simp [Token.opens, Token.closes, Token.isPunct])
    have hcloser := congrArg List.head? hdrop
    rw [List.head?_drop, List.head?_cons] at hcloser
    rw [tokensAt_within hscope, if_neg (by simp)]
    have htokens : (⟨.ident, "pub".toList, 0, 3⟩ :: ⟨.punct, ['('], 3, 4⟩ :: (tokensAt 4 scope ++
        [⟨.punct, [')'], 4 + scope.length, 5 + scope.length⟩]) : List Token) ++ rest =
        [⟨.ident, "pub".toList, 0, 3⟩] ++ ⟨.punct, ['('], 3, 4⟩ :: (tokensAt 4 scope ++
          ⟨.punct, [')'], 4 + scope.length, 5 + scope.length⟩ :: rest) := by simp
    have hlength : (visibilityText (.within scope)).length - 1 = 5 + scope.length := by
      have hparts : "pub(".toList.length = 4 ∧ ") ".toList.length = 2 := ⟨rfl, rfl⟩
      simp only [visibilityText, List.length_append, hparts]
      omega
    rw [htokens, hlength]
    rw [hinside] at hclosing hcloser ⊢
    exact visibilityEnd?_scope hword (by decide) hscopehead hclosing hcloser

/-- A visibility is taken off. -/
theorem withoutVisibility_text {v : Visibility} (h : ∀ scope, v = .within scope → IsScope scope)
    {p : Text} (hp : Solid p) (hbare : v = .everywhere → beginsScope p.tokens = false)
    (hpub : v = .inherited → ∀ t ∈ p.tokens.head?, t.isIdent "pub" = false) :
    (visibilityText v ++ p).withoutVisibility = p := by
  have htokens := (spaced_visibilityText h).tokensAt_append hp.head 0
  rw [Nat.zero_add] at htokens
  have hend := visibilityEnd?_text h (tokensAt (visibilityText v).length p)
    (fun hv => by rw [tokensAt_eq_shift, beginsScope_shift, hbare hv])
    (fun hv t ht => by
      rw [tokensAt_eq_shift, List.head?_map, Option.mem_def, Option.map_eq_some_iff] at ht
      obtain ⟨u, hu, rfl⟩ := ht
      rw [Token.shift_isIdent, hpub hv u hu])
  rw [← htokens, ← tokens_eq_tokensAt] at hend
  rw [withoutVisibility, hend]
  by_cases hv : v = .inherited
  · rw [if_pos hv, hv]
    exact hp.trim_eq
  · have hne : visibilityText v ≠ [] := by
      cases v with
      | inherited => exact absurd rfl hv
      | everywhere | within scope => simp [visibilityText]
    obtain ⟨u, hu⟩ : ∃ u, visibilityText v = u ++ [' '] := by
      have hlast := (spaced_visibilityText h).last _ (List.getLast?_eq_some_getLast hne)
      refine ⟨(visibilityText v).dropLast, ?_⟩
      rw [← hlast, List.dropLast_append_getLast hne]
    have hdrop : (visibilityText v ++ p).drop ((visibilityText v).length - 1) = ' ' :: p := by
      rw [hu, List.append_assoc, List.length_append, List.length_singleton, Nat.add_sub_cancel,
        List.drop_left]
      rfl
    rw [if_neg hv]
    dsimp only
    rw [hdrop, trim_space hp]

end Modifiers

end DocScaffold
