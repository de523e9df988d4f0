import DocScaffold.Proofs.Rows
import DocScaffold.Proofs.Starts

/-!
# Texts that differ in their blanks

Two texts are alike when they have the same tokens, but for the blanks in literals. Whatever is cut out
of one of them between its tokens is alike to what is cut out of the other (`Alike.exists_token`,
`Alike.slice_inner`).
-/

namespace DocScaffold

open Text

namespace Lexeme

/-! ## Lexemes without blanks -/

/-- What is no blank among lexemes, with single spaces in literals. -/
def core (ls : List Lexeme) : List Lexeme :=
  ls.filterMap fun l => if l.kind = .blank then none else some l.squeezed

theorem core_append (ls ms : List Lexeme) : core (ls ++ ms) = core ls ++ core ms :=
  List.filterMap_append

theorem core_cons_of_blank {l : Lexeme} (h : l.kind = .blank) (ls : List Lexeme) :
    core (l :: ls) = core ls := by
  simp [core, h]

theorem core_cons {l : Lexeme} (h : l.kind ≠ .blank) (ls : List Lexeme) :
    core (l :: ls) = l.squeezed :: core ls := by
  simp [core, h]

theorem core_eq_nil_iff {ls : List Lexeme} : core ls = [] ↔ ∀ l ∈ ls, l.kind = .blank := by
  simp [core]

/-- A lexeme of the core stands somewhere among the lexemes. -/
theorem exists_of_core {ls as bs : List Lexeme} {m : Lexeme} (h : core ls = as ++ m :: bs) :
    ∃ front l back, ls = front ++ l :: back ∧ l.kind ≠ .blank ∧ l.squeezed = m ∧ core front = as ∧
      core back = bs := by
  obtain ⟨front, rest, rfl, hfront, hrest⟩ := List.filterMap_eq_append_iff.1 h
  obtain ⟨blanks, l, back, rfl, hblanks, hl, hback⟩ := List.filterMap_eq_cons_iff.1 hrest
  have hkind : l.kind ≠ .blank := by
    intro hkind
    simp [hkind] at hl
  refine ⟨front ++ blanks, l, back, by simp, hkind, by simpa [hkind] using hl, ?_, hback⟩
  have hnone : core blanks = [] := by
    rw [core_eq_nil_iff]
    intro b hb
    simpa using hblanks b hb
  rw [core_append, hnone, List.append_nil]
  exact hfront

theorem core_squeezed (ls : List Lexeme) : core (ls.map squeezed) = core ls := by
  rw [core, List.filterMap_map]
  refine List.filterMap_congr fun l _ => ?_
  simp only [Function.comp_apply, squeezed, squeeze_squeeze]

/-- The tokens among lexemes are counted without the blanks. -/
theorem length_tokensFrom (offset : Nat) (ls : List Lexeme) :
    (tokensFrom offset ls).length = ((core ls).filterMap shape?).length := by
  rw [← List.length_map Token.shape, map_shape_tokensFrom]
  induction ls with
  | nil => rfl
  | cons l ls ih =>
    obtain ⟨kind, text⟩ := l
    cases kind with
    | blank =>
      rw [core_cons_of_blank rfl, ← ih]
      rfl
    | token kind =>
      rw [core_cons (by simp)]
      simpa [shape?, squeezed] using ih
    | lineComment | blockComment | stray =>
      rw [core_cons (by simp)]
      exact ih

end Lexeme

namespace Text

open Lexeme

/-- Lexemes that a text begins or ends with are lexed by themselves as they are in the text. -/
theorem lexemes_parts {s : Text} {front back : List Lexeme} (h : lexemes s = front ++ back) :
    lexemes (front.flatMap Lexeme.text) = front ∧ lexemes (back.flatMap Lexeme.text) = back := by
  have htext := flatMap_text_lexemes s
  rw [h, List.flatMap_append] at htext
  exact lexemes_of_append (by rw [htext, h]) rfl

theorem Settled.parts {s : Text} (hs : Settled s) {front back : List Lexeme}
    (h : lexemes s = front ++ back) :
    Settled (front.flatMap Lexeme.text) ∧ Settled (back.flatMap Lexeme.text) := by
  obtain ⟨hfront, hback⟩ := lexemes_parts h
  constructor
  · intro l hl
    rw [hfront] at hl
    exact hs l (by simp [h, hl])
  · intro l hl
    rw [hback] at hl
    exact hs l (by simp [h, hl])

/-- Texts with the same tokens, but for the blanks in literals. -/
structure Alike (s t : Text) : Prop where
  left : Settled s
  right : Settled t
  core : core (lexemes s) = core (lexemes t)

namespace Alike

variable {s t : Text}

theorem symm (h : Alike s t) : Alike t s := ⟨h.right, h.left, h.core.symm⟩

/-- Texts divided at the same place among their tokens. -/
theorem parts (h : Alike s t) {front back front' back' : List Lexeme}
    (hs : lexemes s = front ++ back) (ht : lexemes t = front' ++ back')
    (hfront : Lexeme.core front = Lexeme.core front') (hback : Lexeme.core back = Lexeme.core back') :
    Alike (front.flatMap Lexeme.text) (front'.flatMap Lexeme.text) ∧
      Alike (back.flatMap Lexeme.text) (back'.flatMap Lexeme.text) := by
  obtain ⟨hsfront, hsback⟩ := lexemes_parts hs
  obtain ⟨htfront, htback⟩ := lexemes_parts ht
  exact ⟨⟨(h.left.parts hs).1, (h.right.parts ht).1, by rw [hsfront, htfront, hfront]⟩,
    (h.left.parts hs).2, (h.right.parts ht).2, by rw [hsback, htback, hback]⟩

end Alike

/-! ## Tokens in their texts -/

/-- A token divides the lexemes of a text. -/
theorem split_token {s : Text} {n : Nat} {u : Token} (h : s.tokens[n]? = some u) :
    ∃ front back, lexemes s = front ++ ⟨.token u.kind, u.value⟩ :: back ∧
      tokensFrom 0 front = s.tokens.take n ∧ u.start = (front.flatMap Lexeme.text).length ∧
      u.stop = u.start + u.value.length := by
  obtain ⟨hn, hu⟩ := List.getElem?_eq_some_iff.1 h
  have hsplit : s.tokens = s.tokens.take n ++ u :: s.tokens.drop (n + 1) := by
    rw [← hu, List.getElem_cons_drop, List.take_append_drop]
  obtain ⟨front, back, hls, hfront, -⟩ := split_tokensFrom hsplit
  refine ⟨front, back, hls, hfront, ?_⟩
  have hwhole : tokensFrom 0 (lexemes s) = _ := hsplit
  rw [hls, tokensFrom_append, hfront] at hwhole
  have hhead := (List.cons.inj (List.append_cancel_left hwhole)).1
  rw [← hhead]
  simp

/-- Behind `n` tokens a lexeme is the token with that index. -/
theorem exists_token_of_split {s : Text} {front back : List Lexeme} {kind : Token.Kind} {value : Text}
    {n : Nat} (h : lexemes s = front ++ ⟨.token kind, value⟩ :: back)
    (hn : (tokensFrom 0 front).length = n) : ∃ u : Token, s.tokens[n]? = some u ∧ u.kind = kind ∧
      u.value = value ∧ u.start = (front.flatMap Lexeme.text).length ∧
        u.stop = u.start + u.value.length := by
  refine ⟨⟨kind, value, _, (front.flatMap Lexeme.text).length + value.length⟩, ?_, rfl, rfl, rfl, rfl⟩
  rw [tokens, h, tokensFrom_append, List.getElem?_append_right (by omega), hn, Nat.sub_self, Nat.zero_add]
  rfl

/-- The parts of a text in front of a token and behind it. -/
theorem parts_of_split {s : Text} {front back : List Lexeme} {u : Token}
    (h : lexemes s = front ++ ⟨.token u.kind, u.value⟩ :: back)
    (hstart : u.start = (front.flatMap Lexeme.text).length)
    (hstop : u.stop = u.start + u.value.length) :
    s.take u.start = front.flatMap Lexeme.text ∧
      s.take u.stop = (front ++ [(⟨.token u.kind, u.value⟩ : Lexeme)]).flatMap Lexeme.text ∧
      s.drop u.start = ((⟨.token u.kind, u.value⟩ : Lexeme) :: back).flatMap Lexeme.text ∧
      s.drop u.stop = back.flatMap Lexeme.text := by
  have htext := flatMap_text_lexemes s
  rw [h, List.flatMap_append, List.flatMap_cons] at htext
  rw [hstop, hstart, List.flatMap_append, List.flatMap_singleton, List.flatMap_cons, ← htext,
    ← List.length_append, ← List.append_assoc, List.take_left, List.drop_left]
  rw [List.append_assoc, List.take_left, List.drop_left]
  exact ⟨rfl, rfl, rfl, rfl⟩

/-- Tokens of two texts in the same place among them. -/
structure Alike.At (s t : Text) (n : Nat) (u v : Token) : Prop where
  left : s.tokens[n]? = some u
  right : t.tokens[n]? = some v
  kind : v.kind = u.kind
  value : squeeze v.value = squeeze u.value
  takeStart : Alike (s.take u.start) (t.take v.start)
  takeStop : Alike (s.take u.stop) (t.take v.stop)
  dropStart : Alike (s.drop u.start) (t.drop v.start)
  dropStop : Alike (s.drop u.stop) (t.drop v.stop)

namespace Alike

variable {s t : Text}

/-- A token of one text stands in the other text as well, with everything around it. -/
theorem exists_at (h : Alike s t) {n : Nat} {u : Token} (hu : s.tokens[n]? = some u) :
    ∃ v, At s t n u v := by
  obtain ⟨front, back, hls, hfront, hstart, hstop⟩ := split_token hu
  have hkind : (⟨.token u.kind, u.value⟩ : Lexeme).kind ≠ .blank := by simp
  have hcore := h.core
  rw [hls, core_append, core_cons hkind] at hcore
  obtain ⟨front', l, back', hls', hl, hsqueezed, hcfront, hcback⟩ := exists_of_core hcore.symm
  obtain ⟨kind, value⟩ := l
  simp only [squeezed, Lexeme.mk.injEq] at hsqueezed
  obtain ⟨rfl, hvalue⟩ := hsqueezed
  -- The token stands behind as many tokens as in the first text.
  have hlength : (tokensFrom 0 front').length = n := by
    have hn := (List.getElem?_eq_some_iff.1 hu).1
    rw [length_tokensFrom, hcfront, ← length_tokensFrom 0, hfront, List.length_take]
    omega
  obtain ⟨v, hv, hkindv, rfl, hstartv, hstopv⟩ := exists_token_of_split hls' hlength
  rw [← hkindv] at hls'
  obtain ⟨htake, htakeStop, hdrop, hdropStop⟩ := parts_of_split hls hstart hstop
  obtain ⟨htake', htakeStop', hdrop', hdropStop'⟩ := parts_of_split hls' hstartv hstopv
  have hone : ∀ ls ms, Lexeme.core ls = Lexeme.core ms →
      Lexeme.core ((⟨.token u.kind, u.value⟩ : Lexeme) :: ls) =
        Lexeme.core ((⟨.token v.kind, v.value⟩ : Lexeme) :: ms) := by
    intro ls ms hcore
    rw [core_cons (by simp), core_cons (by simp), squeezed, squeezed, hvalue, hkindv, hcore]
  have hat := h.parts hls hls' hcfront.symm (hone _ _ hcback.symm)
  rw [← List.singleton_append, ← List.append_assoc] at hls hls'
  have hbehind := h.parts hls hls' (by rw [core_append, core_append, hcfront, hone [] [] rfl])
    hcback.symm
  refine ⟨v, hu, hv, hkindv, hvalue, ?_, ?_, ?_, ?_⟩
  · rw [htake, htake']
    exact hat.1
  · rw [htakeStop, htakeStop']
    exact hbehind.1
  · rw [hdrop, hdrop']
    exact hat.2
  · rw [hdropStop, hdropStop']
    exact hbehind.2

end Alike

/-! ## Stretches between tokens -/

theorem tokens_take {s : Text} {n : Nat} {u : Token} (h : s.tokens[n]? = some u) :
    tokens (s.take u.start) = s.tokens.take n ∧ tokens (s.take u.stop) = s.tokens.take (n + 1) := by
  obtain ⟨front, back, hls, hfront, hstart, hstop⟩ := split_token h
  obtain ⟨htake, htakeStop, -⟩ := parts_of_split hls hstart hstop
  have hfronts := (lexemes_parts hls).1
  rw [← List.singleton_append, ← List.append_assoc] at hls
  have hbehind := (lexemes_parts hls).1
  rw [htake, htakeStop]
  refine ⟨by rw [tokens_eq_tokensAt, tokensAt, hfronts, hfront], ?_⟩
  rw [tokens_eq_tokensAt, tokensAt, hbehind, tokensFrom_append, hfront, List.take_add_one, h,
    Nat.zero_add, ← hstart]
  obtain ⟨kind, value, start, stop⟩ := u
  obtain rfl : stop = start + value.length := hstop
  rfl

/-- A token ends in front of those behind it. -/
theorem stop_le_start {s : Text} {m n : Nat} {u v : Token} (hv : s.tokens[m]? = some v)
    (hu : s.tokens[n]? = some u) (h : m < n) : v.stop ≤ u.start := by
  have hmem : v ∈ tokens (s.take u.start) := by
    rw [(tokens_take hu).1]
    exact List.mem_of_getElem? (by rwa [List.getElem?_take_of_lt h])
  have hspan := (span_of_mem_tokens hmem).2
  rw [List.length_take] at hspan
  omega

/-- The characters at the ends of a token are no blanks. -/
theorem solid_value {s : Text} {n : Nat} {u : Token} (h : s.tokens[n]? = some u) : Solid u.value := by
  obtain ⟨front, back, hls, -⟩ := split_token h
  have hmem : (⟨.token u.kind, u.value⟩ : Lexeme) ∈ lexemes s := by simp [hls]
  have hproper := proper_of_mem hmem
  have hne : u.value ≠ [] := text_ne_nil_of_mem_lexemes hmem
  have hplain : (∀ c ∈ u.value, isBlank c = false) → Solid u.value := fun hplain =>
    ⟨hne, fun c hc => hplain c (List.mem_of_head? hc), fun c hc => hplain c (List.mem_of_getLast? hc)⟩
  cases hkind : u.kind with
  | string | char =>
    rw [hkind] at hproper
    exact hproper
  | ident | lifetime | number | punct =>
    rw [hkind] at hproper
    exact hplain hproper

/-- What goes from one token to another begins and ends with them. -/
theorem solid_outer {s : Text} {m n : Nat} {u v : Token} (hu : s.tokens[n]? = some u)
    (hv : s.tokens[m]? = some v) (h : n ≤ m) : Solid (s.slice u.start v.stop) := by
  have htake : (tokens (s.take v.stop))[n]? = some u := by
    rw [(tokens_take hv).2, List.getElem?_take_of_lt (Nat.lt_succ_of_le h), hu]
  obtain ⟨front, back, hls, -, hstart, hstop⟩ := split_token htake
  obtain ⟨-, -, hdrop, -⟩ := parts_of_split hls hstart hstop
  obtain ⟨front', back', hls', -, hstart', hstop'⟩ := split_token hv
  obtain ⟨-, hend, -, -⟩ := parts_of_split hls' hstart' hstop'
  have hslice : s.slice u.start v.stop = (s.take v.stop).drop u.start := by
    rw [slice, List.drop_take]
  have hne := (solid_value hu).nonempty
  have hdropped : (s.take v.stop).drop u.start ≠ [] := by
    rw [hdrop, List.flatMap_cons]
    simp [hne]
  rw [hslice]
  refine ⟨hdropped, ?_, fun c hc => (solid_value hv).last c ?_⟩
  · rw [hdrop, List.flatMap_cons, List.head?_append_of_ne_nil _ hne]
    exact (solid_value hu).head
  · rw [← List.getLast?_append_of_ne_nil ((s.take v.stop).take u.start) hdropped,
      List.take_append_drop, hend, List.flatMap_append, List.flatMap_singleton,
      List.getLast?_append_of_ne_nil _ (solid_value hv).nonempty] at hc
    exact hc

namespace Alike

variable {s t : Text} {m n : Nat} {u u' v v' : Token}

/-- A token is in the same place in front of a later one. -/
theorem At.of_take {s' t' : Text} (h : Alike s' t') (hs : s'.tokens = s.tokens.take m)
    (ht : t'.tokens = t.tokens.take m) (hn : n < m) (hu : At s t n u u') : At s' t' n u u' := by
  have hleft : s'.tokens[n]? = some u := by rw [hs, List.getElem?_take_of_lt hn, hu.left]
  obtain ⟨w, hw⟩ := h.exists_at hleft
  have hright := hw.right
  rw [ht, List.getElem?_take_of_lt hn, hu.right] at hright
  rwa [Option.some.inj hright]

theorem nil : Alike [] [] := ⟨by simp [Settled], by simp [Settled], rfl⟩

/-- What stands between two tokens. -/
theorem At.slice_inner (hu : At s t n u u') (hv : At s t m v v') (h : n ≤ m) :
    Alike (s.slice u.stop v.start) (t.slice u'.stop v'.start) := by
  rcases Nat.lt_or_eq_of_le h with hlt | rfl
  · rw [slice, slice, ← List.drop_take, ← List.drop_take]
    exact (hu.of_take hv.takeStart (tokens_take hv.left).1 (tokens_take hv.right).1 hlt).dropStop
  · have hempty : ∀ {x : Text} {w w' : Token}, x.tokens[n]? = some w → x.tokens[n]? = some w' →
        x.slice w.stop w'.start = [] := by
      intro x w w' hw hw'
      obtain rfl := Option.some.inj (hw.symm.trans hw')
      obtain ⟨-, -, -, -, -, hstop⟩ := split_token hw
      rw [slice, Nat.sub_eq_zero_of_le (by omega), List.take_zero]
    rw [hempty hu.left hv.left, hempty hu.right hv.right]
    exact nil

/-- What goes from one token to another. -/
theorem At.slice_outer (hu : At s t n u u') (hv : At s t m v v') :
    Alike (s.slice u.start v.stop) (t.slice u'.start v'.stop) := by
  rcases Nat.lt_or_ge m n with h | h
  · have hempty : ∀ {x : Text} {a b : Nat}, b ≤ a → x.slice a b = [] := by
      intro x a b hle
      rw [slice, Nat.sub_eq_zero_of_le hle, List.take_zero]
    rw [hempty (stop_le_start hv.left hu.left h), hempty (stop_le_start hv.right hu.right h)]
    exact nil
  · rw [slice, slice, ← List.drop_take, ← List.drop_take]
    have htake := hu.of_take hv.takeStop (tokens_take hv.left).2 (tokens_take hv.right).2
    exact (htake (Nat.lt_succ_of_le h)).dropStart

theorem length_tokens (h : Alike s t) : s.tokens.length = t.tokens.length := by
  rw [tokens, length_tokensFrom, tokens, length_tokensFrom, h.core]

/-- A token that is no literal is the same in both texts. -/
theorem At.value_eq (h : At s t n u v) (hkind : u.kind ≠ .string ∧ u.kind ≠ .char) :
    v.value = u.value := by
  have hplain : ∀ {x : Text} {w : Token}, x.tokens[n]? = some w → w.kind = u.kind →
      squeeze w.value = w.value := by
    intro x w hw hwu
    obtain ⟨front, back, hls, -⟩ := split_token hw
    have hproper := proper_of_mem (l := ⟨.token w.kind, w.value⟩) (s := x) (by simp [hls])
    apply squeeze_of_not_blank
    obtain ⟨kind, value, start, stop⟩ := w
    obtain rfl : kind = u.kind := hwu
    cases hk : u.kind with
    | string => exact absurd hk hkind.1
    | char => exact absurd hk hkind.2
    | ident | lifetime | number | punct =>
      rw [hk] at hproper
      exact hproper
  rw [← hplain h.right h.kind, h.value, hplain h.left rfl]

theorem At.outline_eq (h : At s t n u v) : v.outline = u.outline := by
  have hvalue := h.value_eq
  have hkind := h.kind
  obtain ⟨kind, value, start, stop⟩ := u
  obtain ⟨kind', value', start', stop'⟩ := v
  obtain rfl : kind' = kind := hkind
  cases kind' with
  | string | char => rfl
  | ident | lifetime | number | punct =>
    obtain rfl : value' = value := hvalue ⟨by simp, by simp⟩
    rfl

theorem At.isPunct_eq (h : At s t n u v) (sign : Text) : v.isPunct sign = u.isPunct sign := by
  rw [← Token.outline_isPunct v, h.outline_eq, Token.outline_isPunct]

theorem At.isIdent_eq (h : At s t n u v) (word : Text) : v.isIdent word = u.isIdent word := by
  rw [← Token.outline_isIdent v, h.outline_eq, Token.outline_isIdent]

theorem At.brackets_eq (h : At s t n u v) : v.opens = u.opens ∧ v.closes = u.closes := by
  rw [← Token.outline_opens v, ← Token.outline_closes v, h.outline_eq, Token.outline_opens,
    Token.outline_closes]
  exact ⟨rfl, rfl⟩

/-- Alike texts have the same outlines of tokens. -/
theorem outlines (h : Alike s t) : t.tokens.map Token.outline = s.tokens.map Token.outline := by
  apply List.ext_getElem?
  intro n
  rw [List.getElem?_map, List.getElem?_map]
  cases hu : s.tokens[n]? with
  | none =>
    have hlength := List.getElem?_eq_none_iff.1 hu
    rw [h.length_tokens] at hlength
    rw [List.getElem?_eq_none_iff.2 hlength]
  | some u =>
    obtain ⟨v, hv⟩ := h.exists_at hu
    rw [hv.right, Option.map_some, Option.map_some, hv.outline_eq]

end Alike

end Text

end DocScaffold
