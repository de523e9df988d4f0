import DocScaffold.Proofs.Leading

/-!
# The grammar of modifiers

What may stand in front of an item keyword, as a grammar that is read forwards (`Writes`). Modifiers are
taken off backwards, and nothing is left over exactly where the grammar holds (`takeAll_eq_iff`). So a
line starts a declaration exactly when the grammar introduces one (`keyword?_iff_introduces`).
-/

namespace DocScaffold

open Text

namespace Token

theorem isPunct_unique {t : Token} {a b : Text} (h : t.isPunct a = true) (hne : a ≠ b) :
    t.isPunct b = false := by
  simp only [isPunct, Bool.and_eq_true, beq_iff_eq] at h
  rw [isPunct, h.2, Bool.and_eq_false_iff]
  exact .inr (by simpa using hne)

theorem netDepth_reverse (up down : Char) (ts : List Token) :
    netDepth up down ts.reverse = netDepth up down ts := by
  induction ts with
  | nil => rfl
  | cons t ts ih =>
    have hcons : netDepth up down (t :: ts) = netDepth up down [t] + netDepth up down ts :=
      netDepth_append up down [t] ts
    rw [List.reverse_cons, netDepth_append, ih, hcons]
    omega

end Token

namespace Modifiers

open Token

theorem kind_of_isIdent {t : Token} {word : Text} (h : t.isIdent word = true) : t.kind = .ident := by
  rw [Token.isIdent, Bool.and_eq_true, beq_iff_eq] at h
  exact h.1

/-! ## Groups in parentheses -/

/-- The depth of parentheses behind some tokens. -/
def roundDepth (ts : List Token) : Int := netDepth '(' ')' ts

/-- Whether the last token closes the parenthesis that the first one is. -/
def IsGroup (ts : List Token) : Prop :=
  roundDepth ts = 0 ∧ ∀ n < ts.length, 0 < n → 0 < roundDepth (ts.take n)

instance (ts : List Token) : Decidable (IsGroup ts) := inferInstanceAs (Decidable (_ ∧ _))

/-- Whether tokens come up to a depth at their end and not before it. -/
def Reaches (depth : Int) (ts : List Token) : Prop :=
  roundDepth ts = depth ∧ ∀ n < ts.length, roundDepth (ts.take n) < depth

@[simp] theorem roundDepth_nil : roundDepth [] = 0 := rfl

theorem roundDepth_append (ts us : List Token) :
    roundDepth (ts ++ us) = roundDepth ts + roundDepth us := netDepth_append '(' ')' ts us

theorem roundDepth_cons (t : Token) (ts : List Token) :
    roundDepth (t :: ts) = roundDepth [t] + roundDepth ts := roundDepth_append [t] ts

theorem roundDepth_opener {t : Token} (h : t.isPunct ['('] = true) : roundDepth [t] = 1 := by
  simp [roundDepth, netDepth, h]

theorem roundDepth_closer {t : Token} (h : t.isPunct [')'] = true) : roundDepth [t] = -1 := by
  have hopen : t.isPunct ['('] = false := isPunct_unique h (by decide)
  simp [roundDepth, netDepth, h, hopen]

theorem roundDepth_other {t : Token} (hopen : t.isPunct ['('] = false)
    (hclose : t.isPunct [')'] = false) : roundDepth [t] = 0 := by
  simp [roundDepth, netDepth, hopen, hclose]

theorem isPunct_of_roundDepth {t : Token} (h : 0 < roundDepth [t]) : t.isPunct ['('] = true := by
  by_contra hopen
  rw [Bool.not_eq_true] at hopen
  by_cases hclose : t.isPunct [')'] = true
  · rw [roundDepth_closer hclose] at h
    omega
  · rw [roundDepth_other hopen (by simpa using hclose)] at h
    omega

theorem roundDepth_le_one (t : Token) : roundDepth [t] ≤ 1 := by
  by_contra hgt
  rw [roundDepth_opener (isPunct_of_roundDepth (by omega))] at hgt
  omega

theorem reaches_cons {depth : Int} {t : Token} {ts : List Token} :
    Reaches depth (t :: ts) ↔ 0 < depth ∧ Reaches (depth - roundDepth [t]) ts := by
  simp only [Reaches, List.length_cons, Nat.forall_lt_succ_left, List.take_zero, roundDepth_nil,
    List.take_succ_cons]
  constructor
  · rintro ⟨htotal, hzero, hmore⟩
    rw [roundDepth_cons] at htotal
    refine ⟨hzero, by omega, fun n hn => ?_⟩
    have := hmore n hn
    rw [roundDepth_cons] at this
    omega
  · rintro ⟨hzero, htotal, hmore⟩
    refine ⟨by rw [roundDepth_cons]; omega, hzero, fun n hn => ?_⟩
    have := hmore n hn
    rw [roundDepth_cons]
    omega

theorem reaches_nil {depth : Int} : Reaches depth [] ↔ depth = 0 := by
  simp [Reaches, eq_comm]

theorem Reaches.exists_cons {depth : Int} {group : List Token} (hdepth : 0 < depth)
    (h : Reaches depth group) : ∃ t rest, group = t :: rest := by
  apply List.exists_cons_of_ne_nil
  rintro rfl
  rw [reaches_nil] at h
  omega

theorem splitGroup_eq {depth : Int} {ts group before : List Token}
    (h : splitGroup depth ts = some (group, before)) : ts = group ++ before := by
  induction ts generalizing depth group with
  | nil => simp [splitGroup] at h
  | cons t rest ih =>
    have hrest : ∀ depth : Int, (splitGroup depth rest).map (fun p => (t :: p.1, p.2)) =
        some (group, before) → t :: rest = group ++ before := by
      intro depth hmap
      obtain ⟨⟨a, b⟩, hsplit, heq⟩ := Option.map_eq_some_iff.1 hmap
      obtain ⟨rfl, rfl⟩ := Prod.mk.inj heq
      rw [ih hsplit, List.cons_append]
    rw [splitGroup] at h
    split at h
    · exact hrest _ h
    · split at h
      · split at h
        · obtain ⟨rfl, rfl⟩ := Prod.mk.inj (Option.some.inj h)
          rfl
        · exact hrest _ h
      · exact hrest _ h

/-- A group ends at the token that makes up for the depth. -/
theorem splitGroup_cons {depth : Int} (hdepth : 0 < depth) (t : Token) (rest : List Token) :
    splitGroup depth (t :: rest) = if roundDepth [t] = depth then some ([t], rest)
      else (splitGroup (depth - roundDepth [t]) rest).map fun p => (t :: p.1, p.2) := by
  rw [splitGroup]
  by_cases hclose : t.isPunct [')'] = true
  · rw [if_pos hclose, roundDepth_closer hclose, if_neg (by omega), Int.sub_neg]
  · rw [if_neg hclose]
    by_cases hopen : t.isPunct ['('] = true
    · rw [if_pos hopen, roundDepth_opener hopen]
      split
      · rw [if_pos (by omega)]
      · rw [if_neg (by omega)]
    · rw [if_neg hopen, roundDepth_other (by simpa using hopen) (by simpa using hclose),
        if_neg (by omega), Int.sub_zero]

theorem splitGroup_eq_some_iff {depth : Int} (hdepth : 0 < depth) {ts group before : List Token} :
    splitGroup depth ts = some (group, before) ↔ ts = group ++ before ∧ Reaches depth group := by
  induction ts generalizing depth group with
  | nil =>
    refine ⟨nofun, ?_⟩
    rintro ⟨hnil, hreaches⟩
    obtain ⟨t, rest, rfl⟩ := hreaches.exists_cons hdepth
    simp at hnil
  | cons t rest ih =>
    have hle := roundDepth_le_one t
    rw [splitGroup_cons hdepth]
    split
    · rename_i hend
      constructor
      · intro h
        obtain ⟨rfl, rfl⟩ := Prod.mk.inj (Option.some.inj h)
        exact ⟨rfl, reaches_cons.2 ⟨hdepth, reaches_nil.2 (by omega)⟩⟩
      · rintro ⟨hts, hreaches⟩
        obtain ⟨u, group, rfl⟩ := hreaches.exists_cons hdepth
        rw [List.cons_append, List.cons.injEq] at hts
        obtain ⟨rfl, rfl⟩ := hts
        cases group with
        | nil => rfl
        | cons v group =>
          -- the depth is reached at the first token, so no second one belongs to the group
          have hlater := (reaches_cons.1 (reaches_cons.1 hreaches).2).1
          omega
    · rename_i hmore
      have hrest : 0 < depth - roundDepth [t] := by omega
      constructor
      · intro h
        obtain ⟨⟨a, b⟩, hsplit, heq⟩ := Option.map_eq_some_iff.1 h
        obtain ⟨rfl, rfl⟩ := Prod.mk.inj heq
        obtain ⟨rfl, hreaches⟩ := (ih hrest).1 hsplit
        exact ⟨rfl, reaches_cons.2 ⟨hdepth, hreaches⟩⟩
      · rintro ⟨hts, hreaches⟩
        obtain ⟨u, group, rfl⟩ := hreaches.exists_cons hdepth
        rw [List.cons_append, List.cons.injEq] at hts
        obtain ⟨rfl, hts⟩ := hts
        rw [(ih hrest).2 ⟨hts, (reaches_cons.1 hreaches).2⟩]
        rfl

/-- Read backwards from its last parenthesis, a group is reached where it begins. -/
theorem isGroup_iff_reaches {closer : Token} (h : closer.isPunct [')'] = true) (ts : List Token) :
    IsGroup (ts ++ [closer]) ↔ Reaches 1 ts.reverse := by
  have hcloser := roundDepth_closer h
  have hreverse : ∀ us : List Token, roundDepth us.reverse = roundDepth us := netDepth_reverse '(' ')'
  have hsplit : ∀ n, roundDepth (ts.take n) + roundDepth (ts.drop n) = roundDepth ts := by
    intro n
    rw [← roundDepth_append, List.take_append_drop]
  have htake : ∀ n ≤ ts.length, roundDepth ((ts ++ [closer]).take n) = roundDepth (ts.take n) := by
    intro n hn
    rw [List.take_append_of_le_length hn]
  have hback : ∀ n, roundDepth (ts.reverse.take n) = roundDepth (ts.drop (ts.length - n)) := by
    intro n
    rw [List.take_reverse, hreverse]
  rw [IsGroup, Reaches, roundDepth_append, hcloser, hreverse]
  simp only [List.length_append, List.length_singleton, List.length_reverse]
  constructor
  · rintro ⟨htotal, hmore⟩
    refine ⟨by omega, fun n hn => ?_⟩
    have hfront := hmore (ts.length - n) (by omega) (by omega)
    have htotal' := hsplit (ts.length - n)
    rw [htake _ (by omega)] at hfront
    rw [hback]
    omega
  · rintro ⟨htotal, hmore⟩
    refine ⟨by omega, fun n hn hpos => ?_⟩
    have hlater := hmore (ts.length - n) (by omega)
    have htotal' := hsplit n
    rw [hback, show ts.length - (ts.length - n) = n by omega] at hlater
    rw [htake n (by omega)]
    omega

/-! ## The grammar -/

inductive WritesWord (word : Text) : Bool → List Token → Prop
  | absent : WritesWord word false []
  | present {t : Token} (h : t.isIdent word = true) : WritesWord word true [t]

inductive WritesLinkage : Linkage → List Token → Prop
  | native : WritesLinkage .native []
  | foreign {t : Token} (h : t.isIdent "extern" = true) : WritesLinkage (.foreign none) [t]
  | abi {t u : Token} (h : t.isIdent "extern" = true) (hu : u.kind = .string) :
    WritesLinkage (.foreign (some (unquoted u.value))) [t, u]

/-- The scope of `pub(…)` is what stands in the text `s` from its first token to its last. -/
inductive WritesVisibility (s : Text) : Visibility → List Token → Prop
  | inherited : WritesVisibility s .inherited []
  | everywhere {t : Token} (h : t.isIdent "pub" = true) : WritesVisibility s .everywhere [t]
  | within {t opener first last closer : Token} {more : List Token} (h : t.isIdent "pub" = true)
    (hopener : opener.isPunct ['('] = true) (hfirst : isScopeHead first = true)
    (hlast : (first :: more).getLast? = some last) (hcloser : closer.isPunct [')'] = true)
    (hgroup : IsGroup (opener :: (first :: more) ++ [closer])) :
    WritesVisibility s (.within (s.slice first.start last.stop))
      (t :: (opener :: (first :: more) ++ [closer]))

/-- Modifiers in their order and nothing else. -/
def Writes (s : Text) (m : Modifiers) (ts : List Token) : Prop :=
  ∃ visibility consts asyncs unsafes linkage,
    ts = visibility ++ (consts ++ (asyncs ++ (unsafes ++ linkage))) ∧
    WritesVisibility s m.visibility visibility ∧ WritesWord "const" m.isConst consts ∧
    WritesWord "async" m.isAsync asyncs ∧ WritesWord "unsafe" m.isUnsafe unsafes ∧
    WritesLinkage m.linkage linkage

/-! ## The first token of modifiers -/

theorem WritesWord.kind {word : Text} {isPresent : Bool} {piece : List Token}
    (h : WritesWord word isPresent piece) : ∀ t ∈ piece.head?, t.kind = .ident := by
  cases h with
  | absent => simp
  | present hident => simpa using kind_of_isIdent hident

theorem WritesLinkage.kind {l : Linkage} {piece : List Token} (h : WritesLinkage l piece) :
    ∀ t ∈ piece.head?, t.kind = .ident := by
  cases h with
  | native => simp
  | foreign hident | abi hident => simpa using kind_of_isIdent hident

theorem WritesVisibility.kind {s : Text} {v : Visibility} {piece : List Token}
    (h : WritesVisibility s v piece) : ∀ t ∈ piece.head?, t.kind = .ident := by
  cases h with
  | inherited => simp
  | everywhere hpub | within hpub => simpa using kind_of_isIdent hpub

theorem forall_head_append {p : Token → Prop} {ts us : List Token} (hts : ∀ t ∈ ts.head?, p t)
    (hus : ∀ t ∈ us.head?, p t) : ∀ t ∈ (ts ++ us).head?, p t := by
  intro t ht
  rw [List.head?_append] at ht
  rcases Option.or_eq_some_iff.1 ht with ht | ⟨-, ht⟩
  · exact hts t ht
  · exact hus t ht

theorem Writes.head {s : Text} {m : Modifiers} {ts : List Token} (h : Writes s m ts) :
    ∀ t ∈ ts.head?, t.kind = .ident := by
  obtain ⟨visibility, consts, asyncs, unsafes, linkage, rfl, hvisibility, hconst, hasync, hunsafe,
    hlinkage⟩ := h
  exact forall_head_append hvisibility.kind (forall_head_append hconst.kind
    (forall_head_append hasync.kind (forall_head_append hunsafe.kind hlinkage.kind)))

/-! ## What is taken off is written -/

theorem writes_takeWord (word : Text) (ts : List Token) : ∃ piece,
    ts = piece.reverse ++ (takeWord word ts).2 ∧ WritesWord word (takeWord word ts).1 piece := by
  cases ts with
  | nil => exact ⟨[], rfl, .absent⟩
  | cons t rest =>
    rw [takeWord]
    split
    · rename_i h
      exact ⟨[t], rfl, .present h⟩
    · exact ⟨[], rfl, .absent⟩

theorem writes_takeLinkage (ts : List Token) : ∃ piece,
    ts = piece.reverse ++ (takeLinkage ts).2 ∧ WritesLinkage (takeLinkage ts).1 piece := by
  match ts with
  | [] => exact ⟨[], rfl, .native⟩
  | [t] =>
    rw [takeLinkage]
    split
    · rename_i h
      exact ⟨[t], rfl, .foreign h⟩
    · exact ⟨[], rfl, .native⟩
  | t :: u :: rest =>
    rw [takeLinkage]
    split
    · rename_i h
      rw [Bool.and_eq_true, beq_iff_eq] at h
      exact ⟨[u, t], rfl, .abi h.2 h.1⟩
    · split
      · rename_i h
        exact ⟨[t], rfl, .foreign h⟩
      · exact ⟨[], rfl, .native⟩

theorem Reaches.opener {ts : List Token} (h : Reaches 1 ts) : ∃ inner t,
    ts = inner ++ [t] ∧ t.isPunct ['('] = true := by
  rcases List.eq_nil_or_concat' ts with rfl | ⟨inner, t, rfl⟩
  · exact absurd (reaches_nil.1 h) (by decide)
  · obtain ⟨htotal, hmore⟩ := h
    have hinner := hmore inner.length (by simp)
    rw [List.take_left] at hinner
    rw [roundDepth_append] at htotal
    exact ⟨inner, t, rfl, isPunct_of_roundDepth (by omega)⟩

/-- The scope of a group that is read backwards begins with a scope word and goes on to the end. -/
theorem scopeText?_eq_some_iff {s scope : Text} {closer opener : Token} {inner : List Token} :
    scopeText? s (closer :: (opener :: inner).reverse) = some scope ↔
      ∃ first more last, inner = first :: more ∧ isScopeHead first = true ∧
        (first :: more).getLast? = some last ∧ s.slice first.start last.stop = scope := by
  rw [scopeText?, List.tail_cons, List.reverse_cons, List.dropLast_concat, List.getLast?_reverse,
    List.head?_reverse]
  cases inner with
  | nil => simp
  | cons first more =>
    simp only [List.head?_cons, Option.bind_eq_bind, Option.bind_some, Option.bind_eq_some_iff,
      Option.ite_none_right_eq_some, Option.some.injEq, List.cons.injEq]
    constructor
    · rintro ⟨last, hlast, hhead, hscope⟩
      exact ⟨first, more, last, ⟨rfl, rfl⟩, hhead, hlast, hscope⟩
    · rintro ⟨_, _, last, ⟨rfl, rfl⟩, hhead, hlast, hscope⟩
      exact ⟨last, hlast, hhead, hscope⟩

/-- A scope that is taken off stands in parentheses behind `pub`. -/
theorem writes_scope {s scope : Text} {closer t : Token} {rest group before : List Token}
    (hcloser : closer.isPunct [')'] = true)
    (hsplit : splitGroup 0 (closer :: rest) = some (group, t :: before))
    (hscope : scopeText? s group = some scope) (hpub : t.isIdent "pub" = true) :
    ∃ piece, closer :: rest = piece.reverse ++ before ∧ WritesVisibility s (.within scope) piece := by
  rw [splitGroup, if_pos hcloser] at hsplit
  obtain ⟨⟨inside, behind⟩, hsplit, heq⟩ := Option.map_eq_some_iff.1 hsplit
  obtain ⟨rfl, rfl⟩ := Prod.mk.inj heq
  obtain ⟨rfl, hreaches⟩ := (splitGroup_eq_some_iff (by decide)).1 hsplit
  obtain ⟨inner, opener, rfl, hopener⟩ := hreaches.opener
  obtain ⟨inner, rfl⟩ : ∃ ts : List Token, inner = ts.reverse := ⟨inner.reverse, by simp⟩
  rw [← List.reverse_cons] at hscope hreaches ⊢
  obtain ⟨first, more, last, rfl, hhead, hlast, rfl⟩ := scopeText?_eq_some_iff.1 hscope
  have hgroup := (isGroup_iff_reaches hcloser (opener :: first :: more)).2 hreaches
  exact ⟨_, by simp, .within hpub hopener hhead hlast hcloser hgroup⟩

theorem writes_takeVisibility (s : Text) (ts : List Token) : ∃ piece,
    ts = piece.reverse ++ (takeVisibility s ts).2 ∧
      WritesVisibility s (takeVisibility s ts).1 piece := by
  have hnone : ∃ piece, ts = piece.reverse ++ ts ∧ WritesVisibility s .inherited piece :=
    ⟨[], rfl, .inherited⟩
  cases ts with
  | nil => exact hnone
  | cons closer rest =>
    rw [takeVisibility]
    split
    · rename_i hcloser
      split
      · rename_i hsplit
        split
        · rename_i hscope
          split
          · rename_i hpub
            exact writes_scope hcloser hsplit hscope hpub
          · exact hnone
        · exact hnone
      · exact hnone
    · split
      · rename_i h
        exact ⟨[closer], rfl, .everywhere h⟩
      · exact hnone

/-! ## What is written is taken off -/

/-- Whether a token is the parenthesis that ends a scope, or one of some words. -/
def IsOneOf (words : List Text) (t : Token) : Prop :=
  t.isPunct [')'] = true ∨ ∃ word ∈ words, t.isIdent word = true

theorem IsOneOf.not_word {words : List Text} {t : Token} (h : IsOneOf words t) {word : Text}
    (hword : word ∉ words) : t.isIdent word = false := by
  rw [Token.isIdent]
  rcases h with h | ⟨other, hmem, h⟩
  · simp only [Token.isPunct, Bool.and_eq_true, beq_iff_eq] at h
    simp [h.1]
  · simp only [Token.isIdent, Bool.and_eq_true, beq_iff_eq] at h
    have hne : t.value ≠ word := by
      rintro rfl
      rw [h.2] at hword
      exact hword hmem
    simp [hne]

theorem IsOneOf.not_string {words : List Text} {t : Token} (h : IsOneOf words t) :
    (t.kind == .string) = false := by
  rw [beq_eq_false_iff_ne]
  intro hkind
  rcases h with h | ⟨other, -, h⟩ <;> simp [Token.isPunct, Token.isIdent, hkind] at h

theorem WritesVisibility.head {s : Text} {v : Visibility} {piece : List Token}
    (h : WritesVisibility s v piece) : ∀ t ∈ piece.reverse.head?, IsOneOf ["pub"] t := by
  intro t ht
  cases h with
  | inherited => simp at ht
  | everywhere hpub =>
    obtain rfl : _ = t := by simpa using ht
    exact .inr ⟨_, by simp, hpub⟩
  | within _ _ _ _ hcloser _ =>
    obtain rfl : _ = t := by simpa using ht
    exact .inl hcloser

theorem WritesWord.head {word : Text} {isPresent : Bool} {piece : List Token}
    (h : WritesWord word isPresent piece) {words : List Text} {rest : List Token}
    (hrest : ∀ t ∈ rest.head?, IsOneOf words t) :
    ∀ t ∈ (piece.reverse ++ rest).head?, IsOneOf (word :: words) t := by
  intro t ht
  cases h with
  | absent =>
    rcases hrest t ht with hclose | ⟨other, hmem, hident⟩
    · exact .inl hclose
    · exact .inr ⟨other, by simp [hmem], hident⟩
  | present hident =>
    obtain rfl : _ = t := by simpa using ht
    exact .inr ⟨word, by simp, hident⟩

/-- What stands in front of a written word. -/
theorem takeWord_written {word : Text} {isPresent : Bool} {piece : List Token}
    (h : WritesWord word isPresent piece) {words : List Text} {rest : List Token}
    (hrest : ∀ t ∈ rest.head?, IsOneOf words t) (hnot : word ∉ words) :
    takeWord word (piece.reverse ++ rest) = (isPresent, rest) := by
  cases h with
  | absent =>
    cases rest with
    | nil => rfl
    | cons t rest =>
      rw [List.reverse_nil, List.nil_append, takeWord, (hrest t rfl).not_word hnot]
      rfl
  | present hident =>
    rw [List.reverse_singleton, List.singleton_append, takeWord, if_pos hident]

theorem takeLinkage_written {l : Linkage} {piece : List Token} (h : WritesLinkage l piece)
    {words : List Text} {rest : List Token} (hrest : ∀ t ∈ rest.head?, IsOneOf words t)
    (hnot : "extern".toList ∉ words) : takeLinkage (piece.reverse ++ rest) = (l, rest) := by
  cases h with
  | native =>
    rw [List.reverse_nil, List.nil_append]
    match rest with
    | [] => rfl
    | [t] =>
      rw [takeLinkage, (hrest t rfl).not_word hnot]
      rfl
    | t :: u :: rest =>
      rw [takeLinkage, (hrest t rfl).not_word hnot, (hrest t rfl).not_string, Bool.false_and]
      rfl
  | foreign hident =>
    rw [List.reverse_singleton, List.singleton_append]
    cases rest with
    | nil => rw [takeLinkage, if_pos hident]
    | cons u rest =>
      rw [takeLinkage, kind_of_isIdent hident, if_neg (by simp), if_pos hident]
  | abi hident hstring =>
    rw [List.reverse_cons, List.reverse_singleton, List.append_assoc, List.singleton_append,
      List.singleton_append, takeLinkage, hstring, if_pos (by simpa using hident)]

theorem takeVisibility_written {s : Text} {v : Visibility} {piece : List Token}
    (h : WritesVisibility s v piece) : takeVisibility s piece.reverse = (v, []) := by
  cases h with
  | inherited => rfl
  | @everywhere t hpub =>
    have hclose : t.isPunct [')'] = false := by
      simp [Token.isPunct, kind_of_isIdent hpub]
    rw [List.reverse_singleton, takeVisibility, hclose, hpub]
    rfl
  | @within t opener first last closer more hpub hopener hfirst hlast hcloser hgroup =>
    have hreaches := (isGroup_iff_reaches hcloser _).1 hgroup
    have hsplit : splitGroup 1 ((opener :: first :: more).reverse ++ [t]) =
        some ((opener :: first :: more).reverse, [t]) :=
      (splitGroup_eq_some_iff (by decide)).2 ⟨rfl, hreaches⟩
    have hscope : scopeText? s (closer :: (opener :: first :: more).reverse) =
        some (s.slice first.start last.stop) :=
      scopeText?_eq_some_iff.2 ⟨first, more, last, rfl, hfirst, hlast, rfl⟩
    have hreverse : (t :: (opener :: (first :: more) ++ [closer])).reverse =
        closer :: ((opener :: first :: more).reverse ++ [t]) := by simp
    rw [hreverse, takeVisibility, if_pos hcloser, splitGroup, if_pos hcloser]
    simp only [Int.zero_add, hsplit, Option.map_some, hscope, hpub, if_true]

/-- Modifiers taken off with nothing left over are the ones that are written. -/
theorem takeAll_eq_iff {s : Text} {m : Modifiers} {ts : List Token} :
    takeAll s ts.reverse = (m, []) ↔ Writes s m ts := by
  constructor
  · intro h
    obtain ⟨rfl, hover⟩ := Prod.mk.inj h
    let afterLinkage := (takeLinkage ts.reverse).2
    let afterUnsafe := (takeWord "unsafe" afterLinkage).2
    let afterAsync := (takeWord "async" afterUnsafe).2
    let afterConst := (takeWord "const" afterAsync).2
    obtain ⟨linkage, hts, hlinkage⟩ := writes_takeLinkage ts.reverse
    obtain ⟨unsafes, hunsafes, hunsafe⟩ := writes_takeWord "unsafe" afterLinkage
    obtain ⟨asyncs, hasyncs, hasync⟩ := writes_takeWord "async" afterUnsafe
    obtain ⟨consts, hconsts, hconst⟩ := writes_takeWord "const" afterAsync
    obtain ⟨visibility, hfront, hvisibility⟩ := writes_takeVisibility s afterConst
    refine ⟨visibility, consts, asyncs, unsafes, linkage, ?_, hvisibility, hconst, hasync, hunsafe,
      hlinkage⟩
    have hreverse : ts.reverse = linkage.reverse ++ (unsafes.reverse ++ (asyncs.reverse ++
        (consts.reverse ++ (visibility.reverse ++ [])))) :=
      hts.trans (congrArg _ (hunsafes.trans (congrArg _ (hasyncs.trans (congrArg _ (hconsts.trans
        (congrArg _ (hfront.trans (congrArg _ hover)))))))))
    rw [← List.reverse_inj, hreverse]
    simp
  · rintro ⟨visibility, consts, asyncs, unsafes, linkage, rfl, hvisibility, hconst, hasync, hunsafe,
      hlinkage⟩
    have hbeforeConst := hvisibility.head
    have hbeforeAsync := hconst.head hbeforeConst
    have hbeforeUnsafe := hasync.head hbeforeAsync
    have hbeforeLinkage := hunsafe.head hbeforeUnsafe
    simp only [List.reverse_append, List.append_assoc]
    rw [takeAll, takeLinkage_written hlinkage hbeforeLinkage (by simp)]
    dsimp only
    rw [takeWord_written hunsafe hbeforeUnsafe (by simp)]
    dsimp only
    rw [takeWord_written hasync hbeforeAsync (by simp)]
    dsimp only
    rw [takeWord_written hconst hbeforeConst (by simp)]
    dsimp only
    rw [takeVisibility_written hvisibility]

theorem before_eq_iff {s : Text} {m : Modifiers} {ts : List Token} {i : Nat} :
    before s ts i = (m, 0) ↔ Writes s m (ts.take i) := by
  rw [before, Prod.mk.injEq, List.length_eq_zero_iff, ← Prod.mk.injEq, takeAll_eq_iff]

end Modifiers

namespace Declaration

/-- The first item keyword of a text with modifiers in front of it and a blank behind it. -/
structure Introduces (s : Text) (k : Keyword) (m : Modifiers) (lead : List Token) (t : Token)
    (rest : List Token) : Prop where
  tokens : s.tokens = lead ++ t :: rest
  first : ∀ u ∈ lead, ∀ other : Keyword, u.isIdent other.text = false
  keyword : t.isIdent k.text = true
  blank : ∃ next, s[t.stop]? = some next ∧ isBlank next = true
  modifiers : Modifiers.Writes s m lead

theorem Introduces.before_eq {s : Text} {k : Keyword} {m : Modifiers} {lead rest : List Token}
    {t : Token} (h : Introduces s k m lead t rest) :
    Modifiers.before s s.tokens lead.length = (m, 0) := by
  rw [Modifiers.before_eq_iff, h.tokens, List.take_left]
  exact h.modifiers

/-- A line starts a declaration exactly when it introduces one in front of its comment, and then the
modifiers that are written there are the ones in front of its keyword. -/
theorem keyword?_iff_introduces (line : Text) (k : Keyword) :
    (keyword? line = some k ↔
      ∃ m lead t rest, Introduces line.beforeLineComment k m lead t rest) ∧
    ∀ m lead t rest, Introduces line.beforeLineComment k m lead t rest →
      Modifiers.before line.beforeLineComment line.beforeLineComment.tokens lead.length = (m, 0) := by
  refine ⟨?_, fun m lead t rest h => h.before_eq⟩
  rw [keyword?_iff_split]
  constructor
  · rintro ⟨lead, t, rest, next, htokens, hnone, hkeyword, hnext, hblank, hbefore⟩
    obtain ⟨m, hm⟩ : ∃ m, Modifiers.before line.beforeLineComment line.beforeLineComment.tokens
        lead.length = (m, 0) := ⟨_, Prod.ext rfl hbefore⟩
    rw [Modifiers.before_eq_iff, htokens, List.take_left] at hm
    refine ⟨m, lead, t, rest, htokens, fun u hu other => ?_, ?_, ⟨next, hnext, hblank⟩, hm⟩
    · rw [Bool.eq_false_iff]
      intro hother
      have hnone' := hnone u hu
      rw [Keyword.ofToken?_of_isIdent hother] at hnone'
      exact absurd hnone' (by simp)
    · obtain ⟨hkind, hvalue⟩ := Keyword.ofToken?_eq_some hkeyword
      simp [Token.isIdent, hkind, hvalue]
  · rintro ⟨m, lead, t, rest, h⟩
    obtain ⟨next, hnext, hblank⟩ := h.blank
    exact ⟨lead, t, rest, next, h.tokens, fun u hu => Keyword.ofToken?_eq_none (h.first u hu),
      Keyword.ofToken?_of_isIdent h.keyword, hnext, hblank, by rw [h.before_eq]⟩

/-- A scope with parentheses inside, an ABI, and a keyword in the comment behind. -/
def scopedLine : Text := "pub(in a(b)) const unsafe extern \"C\" fn go() // fn"

theorem keyword?_iff_introduces_scoped : ∃ lead t rest,
    Introduces scopedLine.beforeLineComment .fn
      ⟨.within "in a(b)", true, false, true, .foreign (some "C")⟩ lead t rest ∧
    keyword? scopedLine = some .fn ∧
    Modifiers.before scopedLine.beforeLineComment scopedLine.beforeLineComment.tokens lead.length =
      (⟨.within "in a(b)", true, false, true, .foreign (some "C")⟩, 0) := by
  have h : Introduces scopedLine.beforeLineComment .fn
      ⟨.within "in a(b)", true, false, true, .foreign (some "C")⟩
      (scopedLine.beforeLineComment.tokens.take 12) ⟨.ident, "fn", 37, 39⟩
      (scopedLine.beforeLineComment.tokens.drop 13) := by
    refine ⟨by decide +kernel, fun u hu other => ?_, by decide, ⟨' ', by decide +kernel, by decide⟩,
      Modifiers.takeAll_eq_iff.1 (by decide +kernel)⟩
    cases other <;> revert u hu <;> decide +kernel
  exact ⟨_, _, _, h, (keyword?_iff_introduces scopedLine .fn).1.2 ⟨_, _, _, _, h⟩,
    (keyword?_iff_introduces scopedLine .fn).2 _ _ _ _ h⟩

end Declaration

end DocScaffold
