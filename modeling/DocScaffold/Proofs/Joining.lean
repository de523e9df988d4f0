import Mathlib.Algebra.Ring.Int.Defs
import Mathlib.Data.List.Basic
import DocScaffold.Proofs.Shape
import DocScaffold.Token.Bracket

/-!
# Lexemes of joined lines

Lines that begin and end with a character that is no blank are joined by line feeds. Where no literal
and no block comment runs over a join, the joined text has the lexemes of the lines (`lexemes_joined`).
Written with single spaces it has their tokens, and so their depths of brackets.
-/

namespace DocScaffold

namespace Text

/-! ## Collapsing is squeezing -/

theorem unwords_cons {w : Text} {ws : List Text} (h : ws ≠ []) :
    unwords (w :: ws) = w ++ ' ' :: unwords ws := by
  unfold unwords
  rw [List.intercalate_cons_of_ne_nil h, List.append_assoc]
  rfl

theorem words_blank {c : Char} {s : Text} (h : isBlank c = true) : words (c :: s) = words s := by
  cases s with
  | nil => simp [words, h]
  | cons d s => rw [words, if_pos h]

theorem words_alone {c : Char} {s : Text} (h : isBlank c = false)
    (hs : ∀ d ∈ s.head?, isBlank d = true) : words (c :: s) = [c] :: words s := by
  cases s with
  | nil => simp [words, h]
  | cons d s =>
    have hd := hs d rfl
    rw [words]
    simp [h, hd]

theorem words_longer {c d : Char} {s w : Text} {ws : List Text} (hc : isBlank c = false)
    (hd : isBlank d = false) (h : words (d :: s) = w :: ws) :
    words (c :: d :: s) = (c :: w) :: ws := by
  rw [words, h]
  simp [hc, hd]

theorem words_ne_nil {c : Char} {s : Text} (h : isBlank c = false) : words (c :: s) ≠ [] := by
  cases s with
  | nil => simp [words, h]
  | cons d s =>
    rw [words, h, if_neg (by decide)]
    split
    · simp
    · split <;> simp

/-- Collapsing only loses what squeezing leaves of the blanks in front. -/
theorem squeeze_eq_collapse {s : Text} (h : ∀ c ∈ s.getLast?, isBlank c = false) :
    (s ≠ [] → words s ≠ []) ∧
      squeeze s = (if s.head?.any isBlank then [' '] else []) ++ collapse s := by
  unfold collapse
  induction s with
  | nil => simp [words, squeeze, unwords]
  | cons c rest ih =>
    have hlast : ∀ d ∈ rest.getLast?, isBlank d = false := by
      intro d hd
      apply h
      cases rest with
      | nil => simp at hd
      | cons e rest => rwa [List.getLast?_cons_cons]
    obtain ⟨hne, ih⟩ := ih hlast
    cases hc : isBlank c with
    | true =>
      have hrest : rest ≠ [] := by
        rintro rfl
        have := h c rfl
        rw [hc] at this
        exact absurd this (by decide)
      rw [words_blank hc]
      refine ⟨fun _ => hne hrest, ?_⟩
      cases hnext : rest.head?.any isBlank with
      | true => rw [squeeze_blank_blank hc hnext, ih, hnext]; simp [hc]
      | false => rw [squeeze_blank hc hnext, ih, hnext]; simp [hc]
    | false =>
      rw [squeeze_cons hc, ih, List.head?_cons, Option.any_some, hc]
      cases rest with
      | nil => simp [words, hc, unwords]
      | cons d rest =>
        rw [List.head?_cons, Option.any_some]
        cases hd : isBlank d with
        | true =>
          rw [words_alone hc (by simpa using hd), unwords_cons (hne (by simp))]
          simp
        | false =>
          obtain ⟨w, ws, hws⟩ := List.exists_cons_of_ne_nil (hne (by simp))
          rw [words_longer hc hd hws, hws]
          cases ws with
          | nil => simp [unwords]
          | cons v ws =>
            have hne' : v :: ws ≠ [] := by simp
            rw [unwords_cons hne', unwords_cons hne']
            simp

theorem Solid.collapse_eq {s : Text} (h : Solid s) : collapse s = squeeze s := by
  rw [(squeeze_eq_collapse h.last).2]
  cases s with
  | nil => exact absurd rfl h.nonempty
  | cons c s => simp [h.head c rfl]

/-! ## Joined lines -/

theorem Solid.concat {a : Text} (ha : Solid a) {c : Char} (hc : isBlank c = false) :
    Solid (a ++ [c]) := by
  refine ⟨by simp, fun d hd => ha.head d ?_, fun d hd => ?_⟩
  · rwa [List.head?_append_of_ne_nil _ ha.nonempty] at hd
  · rw [List.getLast?_concat, Option.mem_some_iff] at hd
    rwa [← hd]

/-- Solid texts with a blank between them. -/
theorem Solid.join {a b : Text} (ha : Solid a) (hb : Solid b) (c : Char) : Solid (a ++ c :: b) := by
  refine ⟨by simp, ?_, ?_⟩
  · intro d hd
    apply ha.head
    obtain ⟨e, he⟩ := List.exists_cons_of_ne_nil ha.nonempty
    obtain ⟨u, rfl⟩ := he
    exact hd
  · intro d hd
    apply hb.last
    rw [List.getLast?_append, List.getLast?_cons_of_ne_nil hb.nonempty] at hd
    cases hlast : b.getLast? with
    | none => exact absurd (List.getLast?_eq_none_iff.1 hlast) hb.nonempty
    | some e => simpa [hlast] using hd

/-- Lines with a line feed between each and the next one. -/
def joined (lines : List Text) : Text := List.intercalate ['\n'] lines

/-- A lexeme holds the character at any place of a text. -/
theorem exists_lexeme_at {ls : List Lexeme} {a b : Text} {c : Char}
    (h : ls.flatMap Lexeme.text = a ++ c :: b) :
    ∃ before l after u v, ls = before ++ l :: after ∧ l.text = u ++ c :: v ∧
      before.flatMap Lexeme.text ++ u = a ∧ v ++ after.flatMap Lexeme.text = b := by
  induction ls generalizing a with
  | nil => simp at h
  | cons l ls ih =>
    rw [List.flatMap_cons] at h
    rcases List.append_eq_append_iff.1 h with ⟨a', rfl, hrest⟩ | ⟨v, hl, hrest⟩
    · obtain ⟨before, m, after, u, v, rfl, hm, rfl, rfl⟩ := ih hrest
      exact ⟨l :: before, m, after, u, v, rfl, hm, by simp, rfl⟩
    · cases v with
      | nil =>
        rw [List.append_nil] at hl
        obtain ⟨before, m, after, u, v, rfl, hm, hu, rfl⟩ := ih (a := []) hrest.symm
        exact ⟨l :: before, m, after, u, v, rfl, hm, by simp [hu, hl], rfl⟩
      | cons d v =>
        rw [List.cons_append, List.cons.injEq] at hrest
        obtain ⟨rfl, rfl⟩ := hrest
        exact ⟨[], l, ls, a, v, rfl, hl, rfl, rfl⟩

end Text

namespace Lexeme

open Text

/-- The lexemes that may run over the end of a line, besides blanks. -/
def mayBreak (l : Lexeme) : Bool :=
  l.kind == .token .string || l.kind == .token .char || l.kind == .blockComment

theorem kind_of_newline {l : Lexeme} (h : l.Proper) (hn : '\n' ∈ l.text) :
    l.kind = .blank ∨ l.mayBreak = true := by
  have hblank : isBlank '\n' = true := by decide
  have hnot : ¬ ∀ c ∈ l.text, isBlank c = false := by
    intro hall
    have := hall '\n' hn
    rw [hblank] at this
    exact absurd this (by decide)
  obtain ⟨kind, text⟩ := l
  cases kind with
  | blank => exact .inl rfl
  | lineComment => exact absurd hn h
  | blockComment => exact .inr rfl
  | stray => exact absurd h hnot
  | token k =>
    cases k with
    | string => exact .inr rfl
    | char => exact .inr rfl
    | ident => exact absurd h hnot
    | lifetime => exact absurd h hnot
    | number => exact absurd h hnot
    | punct => exact absurd h hnot

/-- Lexemes with the places where they begin, the first of them at `offset`. -/
def placedFrom (offset : Nat) : List Lexeme → List (Nat × Lexeme)
  | [] => []
  | l :: rest => (offset, l) :: placedFrom (offset + l.text.length) rest

/-- Whether a lexeme that begins at `start` covers a place. -/
def covers (l : Lexeme) (start place : Nat) : Bool :=
  start ≤ place && place < start + l.text.length

theorem placedFrom_append (offset : Nat) (ls ms : List Lexeme) :
    placedFrom offset (ls ++ ms) =
      placedFrom offset ls ++ placedFrom (offset + (ls.flatMap Lexeme.text).length) ms := by
  induction ls generalizing offset with
  | nil => rfl
  | cons l ls ih =>
    rw [List.cons_append, placedFrom, ih, placedFrom, List.cons_append, List.flatMap_cons,
      List.length_append, Nat.add_assoc]

end Lexeme

namespace Text

open Lexeme

/-- The places of the line feeds between joined lines, the first of which begins at `offset`. -/
def jointsFrom (offset : Nat) : List Text → List Nat
  | [] => []
  | [_] => []
  | l :: m :: rest => (offset + l.length) :: jointsFrom (offset + l.length + 1) (m :: rest)

/-- Whether no literal and no block comment of the joined lines covers a place where they are joined. -/
def isUnbrokenFrom (offset : Nat) (lines : List Text) : Bool :=
  (placedFrom offset (lexemes (joined lines))).all fun p =>
    !p.2.mayBreak || (jointsFrom offset lines).all fun place => !p.2.covers p.1 place

def isUnbroken (lines : List Text) : Bool := isUnbrokenFrom 0 lines

/-- The line feed at a join is a lexeme of its own where no lexeme runs over it. -/
theorem lexemes_join {a b : Text} {offset : Nat} (ha : Solid a) (hb : Solid b)
    (h : ∀ p ∈ placedFrom offset (lexemes (a ++ '\n' :: b)), p.2.mayBreak = true →
      p.2.covers p.1 (offset + a.length) = false) :
    lexemes (a ++ '\n' :: b) = lexemes a ++ ⟨.blank, ['\n']⟩ :: lexemes b := by
  have htext := flatMap_text_lexemes (a ++ '\n' :: b)
  obtain ⟨before, l, after, u, v, hls, hl, hu, hv⟩ := exists_lexeme_at htext
  have hproper : l.Proper := proper_of_mem (by rw [hls]; simp)
  have hbreak : l.mayBreak ≠ true := by
    intro hbreak
    have hplace : (offset + (before.flatMap Lexeme.text).length, l) ∈
        placedFrom offset (lexemes (a ++ '\n' :: b)) := by
      rw [hls, placedFrom_append]
      simp [placedFrom]
    have hcovers := h _ hplace hbreak
    rw [← hu, covers, hl] at hcovers
    simp only [List.length_append, List.length_cons, Bool.and_eq_false_iff,
      decide_eq_false_iff_not] at hcovers
    omega
  rcases kind_of_newline hproper (by simp [hl]) with hkind | hkind
  · obtain ⟨kind, text⟩ := l
    subst hkind
    dsimp only [Proper] at hl hproper
    have hu' : u = [] := by
      by_cases hne : u = []
      · exact hne
      · have hlast := List.getLast?_eq_some_getLast hne
        have hblank := hproper (u.getLast hne) (by simp [hl])
        rw [ha.last (u.getLast hne)] at hblank
        · exact absurd hblank (by decide)
        · rw [← hu, List.getLast?_append, hlast]
          rfl
    have hv' : v = [] := by
      cases v with
      | nil => rfl
      | cons c v =>
        have hblank := hproper c (by simp [hl])
        rw [hb.head c (by simp [← hv])] at hblank
        exact absurd hblank (by decide)
    subst hu' hv' hl
    rw [List.append_nil] at hu
    rw [List.nil_append] at hv
    obtain ⟨hbefore, hrest⟩ := lexemes_of_append hls hu
    have hafter : lexemes (['\n'] ++ b) = [⟨.blank, ['\n']⟩] ++ after := hrest
    rw [hls, hbefore, (lexemes_of_append hafter rfl).2]
    rfl
  · exact absurd hkind hbreak

theorem joined_cons_cons (l m : Text) (rest : List Text) :
    joined (l :: m :: rest) = l ++ '\n' :: joined (m :: rest) := by
  rw [joined, List.intercalate_cons_cons, List.append_assoc]
  rfl

theorem solid_joined {lines : List Text} (hne : lines ≠ []) (hsolid : ∀ l ∈ lines, Solid l) :
    Solid (joined lines) := by
  induction lines with
  | nil => exact absurd rfl hne
  | cons l rest ih =>
    cases rest with
    | nil => simpa [joined] using hsolid l (by simp)
    | cons m rest =>
      rw [joined_cons_cons]
      exact (hsolid l (by simp)).join (ih (by simp) fun n hn => hsolid n (by simp [hn])) '\n'

theorem isUnbrokenFrom_iff {offset : Nat} {lines : List Text} :
    isUnbrokenFrom offset lines = true ↔
      ∀ p ∈ placedFrom offset (lexemes (joined lines)), p.2.mayBreak = true →
        ∀ place ∈ jointsFrom offset lines, p.2.covers p.1 place = false := by
  rw [isUnbrokenFrom, List.all_eq_true]
  constructor
  · intro h p hp hbreak place hplace
    have hall := h p hp
    rw [hbreak, Bool.not_true, Bool.false_or, List.all_eq_true] at hall
    simpa using hall place hplace
  · intro h p hp
    cases hbreak : p.2.mayBreak with
    | false => rfl
    | true =>
      rw [Bool.not_true, Bool.false_or, List.all_eq_true]
      intro place hplace
      simpa using h p hp hbreak place hplace

/-- The lexemes of joined lines are the lexemes of the lines and the line feeds between them. -/
theorem lexemes_joined {lines : List Text} {offset : Nat} (hsolid : ∀ l ∈ lines, Solid l)
    (h : isUnbrokenFrom offset lines = true) :
    lexemes (joined lines) = List.intercalate [⟨.blank, ['\n']⟩] (lines.map lexemes) := by
  induction lines generalizing offset with
  | nil => exact lexemes_nil
  | cons l rest ih =>
    cases rest with
    | nil => simp [joined]
    | cons m rest =>
      have hrest : ∀ n ∈ m :: rest, Solid n := fun n hn => hsolid n (by simp [hn])
      rw [isUnbrokenFrom_iff, joined_cons_cons, jointsFrom] at h
      have hjoin := lexemes_join (hsolid l (by simp)) (solid_joined (by simp) hrest)
        fun p hp hbreak => h p hp hbreak _ (by simp)
      have hunbroken : isUnbrokenFrom (offset + l.length + 1) (m :: rest) = true := by
        rw [isUnbrokenFrom_iff]
        intro p hp hbreak place hplace
        refine h p ?_ hbreak place (by simp [hplace])
        rw [hjoin, placedFrom_append, flatMap_text_lexemes]
        simp only [placedFrom, List.length_singleton]
        simp [hp]
      rw [joined_cons_cons, hjoin, ih hrest hunbroken]
      simp [List.intercalate_cons_cons]

/-- A line feed between solid texts is squeezed like a space. -/
theorem squeeze_unwords {lines : List Text} (hsolid : ∀ l ∈ lines, Solid l) :
    squeeze (unwords lines) = squeeze (joined lines) := by
  induction lines with
  | nil => rfl
  | cons l rest ih =>
    cases rest with
    | nil => simp [joined, unwords]
    | cons m rest =>
      have hrest : ∀ n ∈ m :: rest, Solid n := fun n hn => hsolid n (by simp [hn])
      have hl := hsolid l (by simp)
      have hcons : ∀ (c : Char) (t : Text), isBlank c = true → t.head?.any isBlank = false →
          squeeze (l ++ c :: t) = squeeze l ++ ' ' :: squeeze t := by
        intro c t hc ht
        rw [squeeze_append, squeeze_blank hc ht]
        intro x hx hblank
        rw [hl.last x hx] at hblank
        exact absurd hblank (by decide)
      have hhead : ∀ t : Text, Solid t → t.head?.any isBlank = false := by
        intro t ht
        cases t with
        | nil => rfl
        | cons c t => simpa using ht.head c rfl
      have hwords : (unwords (m :: rest)).head?.any isBlank = false := by
        rw [← any_head?_squeeze, ih hrest, any_head?_squeeze]
        exact hhead _ (solid_joined (by simp) hrest)
      rw [unwords_cons (by simp), joined_cons_cons, hcons ' ' _ (by decide) hwords,
        hcons '\n' _ (by decide) (hhead _ (solid_joined (by simp) hrest)), ih hrest]

theorem solid_unwords {lines : List Text} (hne : lines ≠ []) (hsolid : ∀ l ∈ lines, Solid l) :
    Solid (unwords lines) := by
  induction lines with
  | nil => exact absurd rfl hne
  | cons l rest ih =>
    cases rest with
    | nil => simpa [unwords] using hsolid l (by simp)
    | cons m rest =>
      rw [unwords_cons (by simp)]
      exact (hsolid l (by simp)).join (ih (by simp) fun n hn => hsolid n (by simp [hn])) ' '

end Text

/-! ## Tokens without their places -/

/-- The kind of a token and its characters. -/
def Token.shape (t : Token) : Token.Kind × Text := (t.kind, t.value)

/-- A literal with single spaces; other tokens hold no blanks. -/
def Token.spaced : Token.Kind × Text → Token.Kind × Text
  | (.string, value) => (.string, value.collapse)
  | (.char, value) => (.char, value.collapse)
  | t => t

/-- The token that a lexeme is. -/
def Lexeme.shape? (l : Lexeme) : Option (Token.Kind × Text) :=
  match l.kind with
  | .token kind => some (kind, l.text)
  | _ => none

namespace Lexeme

open Text

theorem map_shape_tokensFrom (offset : Nat) (ls : List Lexeme) :
    (tokensFrom offset ls).map Token.shape = ls.filterMap shape? := by
  induction ls generalizing offset with
  | nil => rfl
  | cons l ls ih =>
    obtain ⟨kind, text⟩ := l
    cases kind <;> simp [tokensFrom, List.filterMap_cons, shape?, ih, Token.shape]

theorem map_shape_tokens (s : Text) : s.tokens.map Token.shape = (lexemes s).filterMap shape? :=
  map_shape_tokensFrom 0 _

theorem shape?_squeezed {l : Lexeme} (h : l.Proper) :
    l.squeezed.shape? = l.shape?.map Token.spaced := by
  obtain ⟨kind, text⟩ := l
  cases kind with
  | token k =>
    cases k with
    | string =>
      have hsolid : Solid text := h
      simp [squeezed, shape?, Token.spaced, hsolid.collapse_eq]
    | char =>
      have hsolid : Solid text := h
      simp [squeezed, shape?, Token.spaced, hsolid.collapse_eq]
    | ident | lifetime | number | punct =>
      have hplain : ∀ c ∈ text, isBlank c = false := h
      simp [squeezed, shape?, Token.spaced, squeeze_of_not_blank hplain]
  | _ => rfl

/-- Squeezed lexemes have the tokens of the lexemes, but for the blanks in literals. -/
theorem shapes_squeezed {ls : List Lexeme} (h : ∀ l ∈ ls, l.Proper) (offset place : Nat) :
    (tokensFrom offset (ls.map squeezed)).map Token.shape =
      (tokensFrom place ls).map fun t => Token.spaced t.shape := by
  have hspaced : (tokensFrom place ls).map (fun t => Token.spaced t.shape) =
      ((tokensFrom place ls).map Token.shape).map Token.spaced := by
    rw [List.map_map]
    rfl
  rw [hspaced, map_shape_tokensFrom, map_shape_tokensFrom, List.filterMap_map, List.map_filterMap]
  exact List.filterMap_congr fun l hl => shape?_squeezed (h l hl)

end Lexeme

namespace Token

theorem netDepth_append (up down : Char) (ts us : List Token) :
    netDepth up down (ts ++ us) = netDepth up down ts + netDepth up down us := by
  induction ts with
  | nil => simp [netDepth]
  | cons t ts ih =>
    rw [List.cons_append, netDepth, netDepth, ih]
    omega

theorem netDepth_flatMap (up down : Char) (lines : List Text) :
    netDepth up down (lines.flatMap Text.tokens) =
      (lines.map fun line => netDepth up down line.tokens).sum := by
  induction lines with
  | nil => rfl
  | cons line lines ih => rw [List.flatMap_cons, netDepth_append, ih, List.map_cons, List.sum_cons]

theorem isPunct_of_shape {t u : Token} (h : t.shape = spaced u.shape) (sign : Text) :
    t.isPunct sign = u.isPunct sign := by
  obtain ⟨kind, value, start, stop⟩ := t
  obtain ⟨kind', value', start', stop'⟩ := u
  cases kind' <;> simp only [shape, spaced, Prod.mk.injEq] at h <;> obtain ⟨rfl, rfl⟩ := h <;> rfl

/-- Depths do not depend on the blanks in literals. -/
theorem netDepth_of_shapes (up down : Char) {ts us : List Token}
    (h : ts.map shape = us.map fun u => spaced u.shape) :
    netDepth up down ts = netDepth up down us := by
  induction ts generalizing us with
  | nil =>
    cases us with
    | nil => rfl
    | cons u us => simp at h
  | cons t ts ih =>
    cases us with
    | nil => simp at h
    | cons u us =>
      rw [List.map_cons, List.map_cons, List.cons.injEq] at h
      rw [netDepth, netDepth, ih h.2, isPunct_of_shape h.1, isPunct_of_shape h.1]

end Token

namespace Text

theorem isPunct_of_isSign {s : Text} {c : Char} {l : Lexeme} (hl : l ∈ lexemes s)
    (h : l.isSign c = true) : ∃ t ∈ s.tokens, t.isPunct [c] = true := by
  obtain ⟨kind, text⟩ := l
  simp only [Lexeme.isSign, Bool.and_eq_true, beq_iff_eq] at h
  obtain ⟨rfl, rfl⟩ := h
  have hmem : (Token.Kind.punct, [c]) ∈ s.tokens.map Token.shape := by
    rw [Lexeme.map_shape_tokens, List.mem_filterMap]
    exact ⟨_, hl, rfl⟩
  obtain ⟨t, ht, hshape⟩ := List.mem_map.1 hmem
  rw [Token.shape, Prod.mk.injEq] at hshape
  exact ⟨t, ht, by simp [Token.isPunct, hshape]⟩

theorem mem_intercalate {α : Type} {x : α} {separator : List α} {lists : List (List α)}
    (h : x ∈ List.intercalate separator lists) : x ∈ separator ∨ ∃ l ∈ lists, x ∈ l := by
  induction lists with
  | nil => simp at h
  | cons l rest ih =>
    cases rest with
    | nil => exact .inr ⟨l, by simp, by simpa using h⟩
    | cons m rest =>
      rw [List.intercalate_cons_cons, List.mem_append, List.mem_append] at h
      rcases h with (h | h) | h
      · exact .inr ⟨l, by simp, h⟩
      · exact .inl h
      · rcases ih h with h | ⟨n, hn, h⟩
        · exact .inl h
        · exact .inr ⟨n, by simp [hn], h⟩

theorem mem_intercalate_of_mem {α : Type} {x : α} {separator l : List α} {lists : List (List α)}
    (hl : l ∈ lists) (hx : x ∈ l) : x ∈ List.intercalate separator lists := by
  induction lists with
  | nil => simp at hl
  | cons m rest ih =>
    cases rest with
    | nil =>
      obtain rfl := List.mem_singleton.1 hl
      simpa using hx
    | cons n rest =>
      rw [List.intercalate_cons_cons, List.mem_append, List.mem_append]
      rcases List.mem_cons.1 hl with rfl | hl
      · exact .inl (.inl hx)
      · exact .inr (ih hl)

theorem filterMap_intercalate {α β : Type} {f : α → Option β} {y : α} (hy : f y = none)
    (lists : List (List α)) :
    (List.intercalate [y] lists).filterMap f = lists.flatMap (List.filterMap f) := by
  induction lists with
  | nil => rfl
  | cons l rest ih =>
    cases rest with
    | nil => simp
    | cons m rest =>
      rw [List.intercalate_cons_cons, List.filterMap_append, ih, List.filterMap_append]
      simp [hy]

/-- Lines that are lexed line by line also when they are joined. -/
structure Separate (lines : List Text) : Prop where
  solid : ∀ l ∈ lines, Solid l
  comment : ∀ l ∈ lines, ∀ m ∈ lexemes l, m.kind ≠ .lineComment
  quote : ∀ l ∈ lines, ∀ m ∈ lexemes l, m.isSign '\x27' = false
  joined : lexemes (joined lines) = List.intercalate [⟨.blank, ['\n']⟩] (lines.map lexemes)

theorem separate_of_unbroken {lines : List Text} (hsolid : ∀ l ∈ lines, Solid l)
    (hcomment : ∀ l ∈ lines, ∀ m ∈ lexemes l, m.kind ≠ .lineComment)
    (hunbroken : isUnbroken lines = true)
    (hquote : ∀ t ∈ (joined lines).tokens, t.isPunct ['\x27'] = false) : Separate lines := by
  have hjoined := lexemes_joined hsolid hunbroken
  refine ⟨hsolid, hcomment, fun line hline l hl => ?_, hjoined⟩
  have hmem : l ∈ lexemes (Text.joined lines) := by
    rw [hjoined]
    exact mem_intercalate_of_mem (List.mem_map_of_mem hline) hl
  cases hsign : l.isSign '\x27' with
  | false => rfl
  | true =>
    obtain ⟨t, ht, hpunct⟩ := isPunct_of_isSign hmem hsign
    rw [hquote t ht] at hpunct
    exact absurd hpunct (by decide)

namespace Separate

variable {lines : List Text}

/-- Joined lines with single spaces have the lexemes of the lines, squeezed. -/
theorem lexemes_collapse (h : Separate lines) : lexemes (unwords lines).collapse =
    (List.intercalate [⟨.blank, ['\n']⟩] (lines.map lexemes)).map Lexeme.squeezed := by
  by_cases hne : lines = []
  · subst hne
    exact lexemes_nil
  rw [(solid_unwords hne h.solid).collapse_eq, squeeze_unwords h.solid, ← h.joined]
  have hmem : ∀ l ∈ lexemes (Text.joined lines),
      l = ⟨.blank, ['\n']⟩ ∨ ∃ line ∈ lines, l ∈ lexemes line := by
    intro l hl
    rw [h.joined] at hl
    rcases mem_intercalate hl with hl | ⟨ls, hls, hl⟩
    · exact .inl (List.mem_singleton.1 hl)
    · obtain ⟨line, hline, rfl⟩ := List.mem_map.1 hls
      exact .inr ⟨line, hline, hl⟩
  apply lexemes_squeeze
  · intro l hl
    rcases hmem l hl with rfl | ⟨line, hline, hl⟩
    · simp
    · exact h.comment line hline l hl
  · intro l hl
    rcases hmem l hl with rfl | ⟨line, hline, hl⟩
    · rfl
    · exact h.quote line hline l hl

/-- Joined lines with single spaces have the tokens of the lines. -/
theorem shapes (h : Separate lines) : (unwords lines).collapse.tokens.map Token.shape =
    (lines.flatMap tokens).map fun t => Token.spaced t.shape := by
  rw [tokens, h.lexemes_collapse, ← h.joined,
    Lexeme.shapes_squeezed (fun l hl => Lexeme.proper_of_mem hl) 0 0]
  have hlines : (Lexeme.tokensFrom 0 (lexemes (Text.joined lines))).map Token.shape =
      (lines.flatMap tokens).map Token.shape := by
    rw [Lexeme.map_shape_tokensFrom, h.joined, filterMap_intercalate rfl, List.flatMap_map,
      List.map_flatMap]
    exact List.flatMap_congr fun line _ => (Lexeme.map_shape_tokens line).symm
  have hspaced := congrArg (List.map Token.spaced) hlines
  rwa [List.map_map, List.map_map] at hspaced

end Separate

end Text

end DocScaffold
