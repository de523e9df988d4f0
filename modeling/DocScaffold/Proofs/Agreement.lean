import DocScaffold.Proofs.Leading
import DocScaffold.Proofs.Quiet

/-!
# The item that is documented

The search, the classes and the readers of items each look for a keyword by themselves. They agree on
the item that the search started on exactly when no item of a kind that is tried before stands in the
text collected behind it, and its own header can be told (`describes_iff_leads`).
-/

namespace DocScaffold

open Text

namespace Text

/-! ## Signatures are one line -/

theorem mem_squeeze {s : Text} {c : Char} (h : c ∈ squeeze s) : isBlank c = false ∨ c = ' ' := by
  induction s with
  | nil => simp [squeeze] at h
  | cons d s ih =>
    rw [squeeze_eq_lead, List.mem_append] at h
    rcases h with h | h
    · rw [lead] at h
      split at h
      · split at h
        · simp at h
        · exact .inr (by simpa using h)
      · rename_i hd
        obtain rfl : c = d := by simpa using h
        exact .inl (by simpa using hd)
    · exact ih h

theorem isLineBreak_squeeze {s : Text} {c : Char} (h : c ∈ squeeze s) : isLineBreak c = false := by
  rcases mem_squeeze h with hblank | rfl
  · cases hbreak : isLineBreak c with
    | false => rfl
    | true =>
      rw [isBlank_of_isLineBreak c hbreak] at hblank
      exact absurd hblank (by decide)
  · decide

theorem lines_of_one {s : Text} (hne : s ≠ []) (h : ∀ c ∈ s, isLineBreak c = false) :
    lines s = [s] := by
  induction s with
  | nil => exact absurd rfl hne
  | cons c s ih =>
    have hc := h c (by simp)
    have hreturn : ∀ rest, c :: s ≠ '\r' :: '\n' :: rest := by
      rintro rest heq
      rw [(List.cons.inj heq).1] at hc
      exact absurd hc (by decide)
    rw [lines.eq_3 c s (fun rest hr hs => hreturn rest (by rw [hr, hs])), hc, if_neg (by decide)]
    by_cases hs : s = []
    · subst hs
      rfl
    · rw [ih hs fun d hd => h d (by simp [hd])]

/-- On one line nothing stands behind a line comment. -/
theorem lexemes_of_lineComment {s : Text} {l : Lexeme} {ls : List Lexeme} (h : '\n' ∉ s)
    (hls : lexemes s = l :: ls) (hkind : l.kind = .lineComment) : ls = [] := by
  obtain ⟨rest, hfirst, rfl⟩ := first?_of_lexemes hls
  cases Lexeme.isFirst_of_first? hfirst with
  | lineComment hcut =>
    obtain ⟨more, rfl, -, rfl⟩ := cutLineComment_eq_some hcut
    have hplain : ∀ c ∈ more, (c != '\n') = true := by
      intro c hc
      rw [bne_iff_ne]
      rintro rfl
      exact h (by simp [hc])
    have hall := dropWhile_append_of_head (t := []) hplain (by simp)
    rw [List.append_nil] at hall
    rw [hall, lexemes_nil]
  | _ => simp at hkind

theorem tokens_beforeLineComment {s : Text} (h : '\n' ∉ s) :
    s.beforeLineComment.tokens = s.tokens := by
  have hsplit : (lexemes s).takeWhile (·.kind != .lineComment) ++
      (lexemes s).dropWhile (·.kind != .lineComment) = lexemes s := List.takeWhile_append_dropWhile
  have htext := flatMap_text_lexemes s
  rw [tokens, lexemes_beforeLineComment, tokens]
  cases hdrop : (lexemes s).dropWhile (·.kind != .lineComment) with
  | nil =>
    rw [hdrop, List.append_nil] at hsplit
    rw [hsplit]
  | cons l after =>
    have hkind : l.kind = .lineComment := by
      have hhead := List.head?_dropWhile_not (·.kind != .lineComment) (lexemes s)
      rw [hdrop] at hhead
      simpa using hhead
    rw [hdrop] at hsplit
    have htokens : Lexeme.tokensFrom 0 ((lexemes s).takeWhile (·.kind != .lineComment)) =
        Lexeme.tokensFrom 0 ((lexemes s).takeWhile (·.kind != .lineComment) ++ l :: after) := by
      rw [← hsplit, List.flatMap_append] at htext
      generalize (lexemes s).takeWhile (·.kind != .lineComment) = before at hsplit htext ⊢
      have hparts : lexemes (before.flatMap Lexeme.text ++ (l :: after).flatMap Lexeme.text) =
          before ++ l :: after := by
        rw [htext, hsplit]
      have hlast : '\n' ∉ (l :: after).flatMap Lexeme.text := by
        intro hmem
        exact h (htext ▸ List.mem_append_right _ hmem)
      have hnil := lexemes_of_lineComment hlast (lexemes_of_append hparts rfl).2 hkind
      obtain ⟨kind, text⟩ := l
      obtain rfl : kind = .lineComment := hkind
      rw [hnil, tokensFrom_append]
      simp [Lexeme.tokensFrom]
    rwa [hsplit] at htokens

end Text

namespace Item

theorem Enum.uncommented_of_one {s : Text} (h : ∀ c ∈ s, isLineBreak c = false) :
    Enum.uncommented s = trim s.beforeLineComment := by
  by_cases hnil : s = []
  · rw [hnil, beforeLineComment_nil]
    rfl
  · rw [Enum.uncommented, lines_of_one hnil h, List.map_singleton, List.intercalate_singleton]

/-- Taking the comments out of a signature leaves its tokens where they are. -/
theorem tokens_uncommented {s : Text} (hsolid : Solid s) (h : ∀ c ∈ s, isLineBreak c = false) :
    (Enum.uncommented s).tokens = s.tokens := by
  have hline : '\n' ∉ s := by
    intro hmem
    have := h _ hmem
    exact absurd this (by decide)
  have hsplit : s.beforeLineComment ++
      ((lexemes s).dropWhile (·.kind != .lineComment)).flatMap Lexeme.text = s := by
    rw [beforeLineComment, ← List.flatMap_append, List.takeWhile_append_dropWhile,
      flatMap_text_lexemes]
  have htext : Enum.uncommented s = trimEnd s.beforeLineComment := by
    have hstart : trimStart s.beforeLineComment = s.beforeLineComment := by
      cases hcut : s.beforeLineComment with
      | nil => rfl
      | cons c u =>
        have hc : isBlank c = false := by
          apply hsolid.head
          rw [← hsplit, hcut]
          rfl
        rw [trimStart, List.dropWhile_cons_of_neg (by simp [hc])]
    rw [Enum.uncommented_of_one h, trim, hstart]
  obtain ⟨w, -, hblank, happ⟩ :=
    exists_lexemes_trimEnd fun l hl => kind_of_mem_beforeLineComment (s := s) hl
  have hblanks : Lexeme.tokensFrom (trimEnd s.beforeLineComment).length (lexemes w) = [] :=
    tokensAt_blanks hblank _
  rw [htext, ← tokens_beforeLineComment hline, tokens, tokens, happ, tokensFrom_append,
    flatMap_text_lexemes, Nat.zero_add, hblanks, List.append_nil]

end Item

namespace Token

theorem findKeyword_eq {word : Text} {front rest : List Token} {t u : Token}
    (hfront : ∀ v ∈ front, v.isIdent word = false) (ht : t.isIdent word = true)
    (hu : u.kind = .ident) : findKeyword word (front ++ t :: u :: rest) = some front.length := by
  induction front with
  | nil =>
    have hfirst : (t.isIdent word && u.kind == .ident) = true := by
      rw [ht, hu]
      rfl
    rw [List.nil_append, findKeyword, if_pos hfirst]
    rfl
  | cons v front ih =>
    have hrest := ih fun w hw => hfront w (by simp [hw])
    have hv := hfront v (by simp)
    cases front with
    | nil =>
      rw [List.nil_append] at hrest
      rw [List.cons_append, List.nil_append, findKeyword, hv, hrest]
      rfl
    | cons w front =>
      rw [List.cons_append] at hrest
      rw [List.cons_append, List.cons_append, findKeyword, hv, hrest]
      rfl

theorem spec_of_findKeyword {word : Text} {ts : List Token} {i : Nat}
    (h : findKeyword word ts = some i) :
    ∃ u, ts[i + 1]? = some u ∧ u.kind = .ident := by
  fun_induction findKeyword word ts generalizing i with
  | case1 t u rest hfirst =>
    obtain rfl : 0 = i := by simpa using h
    rw [Bool.and_eq_true] at hfirst
    exact ⟨u, rfl, by simpa using hfirst.2⟩
  | case2 t u rest _ ih =>
    obtain ⟨j, hj, rfl⟩ := Option.map_eq_some_iff.1 h
    exact ih hj
  | case3 => simp at h

end Token

namespace Item

/-! ## Where an item is read -/

/-- The keyword of an item of some kind. -/
def Kind.keyword : Kind → Keyword
  | .function => .fn
  | .struct => .struct
  | .enum => .enum

/-- The index of the token from which on a declaration is read as an item of some kind. -/
def place? (kind : Kind) (s : Text) : Option Nat :=
  match kind with
  | .function => (Function.locate? s.tokens).map Prod.fst
  | .struct => Token.findKeyword Keyword.struct.text s.tokens
  | .enum => Token.findKeyword Keyword.enum.text (Enum.uncommented s).tokens

/-- The name of the item that a declaration is read as. -/
def name? (kind : Kind) (s : Text) : Option Text :=
  match kind with
  | .function => (Function.parse? s).map Function.name
  | .struct => (Struct.parse? s).map Struct.name
  | .enum => (Enum.parse? s).map Enum.name

/-- Whether the template of a kind describes the item whose keyword is the token at index `i`, and
which has the token behind it for a name. -/
def Describes (kind : Kind) (s : Text) (i : Nat) : Prop :=
  place? kind s = some i ∧ ∃ name, s.tokens[i + 1]? = some name ∧ name? kind s = some name.value

/-- Whether the item whose keyword is the token at index `i` is the first that is tried: a function
whose parenthesis is found behind its name and its generic list, a struct when no function stands
anywhere, an enum when neither a function nor a struct does. -/
def Leads (kind : Kind) (ts : List Token) (i : Nat) : Prop :=
  match kind with
  | .function => Function.beginsAt ts i = true ∧ ∃ opened opener,
      Token.skipAngles ts (i + 2) = some opened ∧ ts[opened]? = some opener ∧
        opener.isPunct ['('] = true
  | .struct => Function.locate? ts = none ∧ ∃ name, ts[i + 1]? = some name ∧ name.kind = .ident
  | .enum => Function.locate? ts = none ∧ Token.findKeyword Keyword.struct.text ts = none ∧
      ∃ name, ts[i + 1]? = some name ∧ name.kind = .ident

theorem isSome_name? {kind : Kind} {s text : Text} {o : Options}
    (h : template? kind s o = some text) : (name? kind s).isSome = true := by
  cases kind with
  | function | struct | enum =>
    obtain ⟨item, hitem, -⟩ := Option.map_eq_some_iff.1 h
    rw [name?, hitem]
    rfl

theorem Function.name_of_parse? {s : Text} {f : Function} {p : Nat × Nat}
    (hlocate : Function.locate? s.tokens = some p) (h : Function.parse? s = some f) :
    ∃ name, s.tokens[p.1 + 1]? = some name ∧ f.name = name.value := by
  rw [Function.parse?] at h
  simp only [hlocate, Option.bind_eq_bind, Option.bind_some, Option.bind_eq_some_iff,
    Option.pure_def, Option.some.injEq] at h
  obtain ⟨name, hname, close, -, arguments, -, rfl⟩ := h
  exact ⟨name, hname, rfl⟩

theorem Struct.name_of_parse? {s : Text} {t : Struct} {i : Nat}
    (hplace : Token.findKeyword Keyword.struct.text s.tokens = some i)
    (h : Struct.parse? s = some t) : ∃ name, s.tokens[i + 1]? = some name ∧ t.name = name.value := by
  rw [Struct.parse?] at h
  simp only [hplace, Option.bind_eq_bind, Option.bind_some, Option.bind_eq_some_iff,
    Option.pure_def] at h
  obtain ⟨name, hname, body, -, opener, -, hread⟩ := h
  refine ⟨name, hname, ?_⟩
  split at hread
  · obtain ⟨text, -, hread⟩ := Option.bind_eq_some_iff.1 hread
    rw [← Option.some.inj hread]
  · split at hread
    · obtain ⟨text, -, hread⟩ := Option.bind_eq_some_iff.1 hread
      split at hread
      · simp at hread
      · rw [← Option.some.inj hread]
    · simp at hread

theorem Enum.name_of_parse? {s : Text} {e : Enum} {i : Nat}
    (hplace : Token.findKeyword Keyword.enum.text (Enum.uncommented s).tokens = some i)
    (h : Enum.parse? s = some e) :
    ∃ name, (Enum.uncommented s).tokens[i + 1]? = some name ∧ e.name = name.value := by
  rw [Enum.parse?] at h
  simp only [hplace, Option.bind_eq_bind, Option.bind_some, Option.bind_eq_some_iff,
    Option.pure_def] at h
  obtain ⟨name, hname, index, -, body, -, hread⟩ := h
  refine ⟨name, hname, ?_⟩
  split at hread
  · simp at hread
  · rw [← Option.some.inj hread]

/-- The reader of a kind takes the name behind the place where it reads. -/
theorem name?_of_place? {kind : Kind} {s : Text} {i : Nat} (hsome : (name? kind s).isSome = true)
    (hplace : place? kind s = some i) (htokens : (Enum.uncommented s).tokens = s.tokens) :
    ∃ name, s.tokens[i + 1]? = some name ∧ name? kind s = some name.value := by
  cases kind with
  | function =>
    obtain ⟨p, hlocate, rfl⟩ := Option.map_eq_some_iff.1 hplace
    rw [name?, Option.isSome_map, Option.isSome_iff_exists] at hsome
    obtain ⟨f, hf⟩ := hsome
    obtain ⟨name, hname, hvalue⟩ := Function.name_of_parse? hlocate hf
    exact ⟨name, hname, by rw [name?, hf, Option.map_some, hvalue]⟩
  | struct =>
    rw [name?, Option.isSome_map, Option.isSome_iff_exists] at hsome
    obtain ⟨t, ht⟩ := hsome
    obtain ⟨name, hname, hvalue⟩ := Struct.name_of_parse? hplace ht
    exact ⟨name, hname, by rw [name?, ht, Option.map_some, hvalue]⟩
  | enum =>
    rw [name?, Option.isSome_map, Option.isSome_iff_exists] at hsome
    obtain ⟨e, he⟩ := hsome
    obtain ⟨name, hname, hvalue⟩ := Enum.name_of_parse? hplace he
    rw [htokens] at hname
    exact ⟨name, hname, by rw [name?, he, Option.map_some, hvalue]⟩

/-! ## Classes -/

variable {s : Text} {front rest : List Token} {t : Token}

theorem leadingKeyword?_eq {keyword : Keyword} (htokens : s.tokens = front ++ t :: rest)
    (hfront : ∀ u ∈ front, Keyword.ofToken? u = none) (ht : Keyword.ofToken? t = some keyword) :
    leadingKeyword? s =
      if (Modifiers.before s s.tokens front.length).2 = 0 then some keyword else none := by
  have hfind : (s.tokens.findIdx? fun u => (Keyword.ofToken? u).isSome) = some front.length := by
    rw [htokens, Keyword.findIdx?_of_first hfront ht]
  have hget : s.tokens[front.length]? = some t := by
    rw [htokens, List.getElem?_append_right (Nat.le_refl _), Nat.sub_self]
    rfl
  rw [leadingKeyword?]
  simp only [hfind, hget, ht, Option.bind_eq_bind, Option.bind_some]

theorem leadingKeyword?_of_first {keyword : Keyword} (htokens : s.tokens = front ++ t :: rest)
    (hfront : ∀ u ∈ front, Keyword.ofToken? u = none) (ht : Keyword.ofToken? t = some keyword) :
    leadingKeyword? s = none ∨ leadingKeyword? s = some keyword := by
  rw [leadingKeyword?_eq htokens hfront ht]
  split
  · exact .inr rfl
  · exact .inl rfl

/-- What is found of a kind when the kinds are tried in their order. -/
def IsTried (kind : Kind) (ts : List Token) : Prop :=
  match kind with
  | .function => (Function.locate? ts).isSome = true
  | .struct => Function.locate? ts = none ∧
      (Token.findKeyword Keyword.struct.text ts).isSome = true
  | .enum => Function.locate? ts = none ∧ Token.findKeyword Keyword.struct.text ts = none

/-- The kinds are tried in their order, unless a trait or a union leads. -/
theorem isTried_of_class {kind : Kind}
    (hleading : ∀ keyword ∈ leadingKeyword? s, keyword.isUnsupported = false)
    (h : Class.of s = .documented kind) : IsTried kind s.tokens := by
  rw [Class.of] at h
  split at h
  · rename_i htrait
    exact absurd (hleading _ htrait) (by decide)
  · rename_i hunion
    exact absurd (hleading _ hunion) (by decide)
  · dsimp only at h
    split at h
    · rename_i hlocate
      obtain rfl : Kind.function = kind := by simpa using h
      exact hlocate
    · rename_i hlocate
      rw [Option.not_isSome_iff_eq_none] at hlocate
      split at h
      · rename_i hstruct
        obtain rfl : Kind.struct = kind := by simpa using h
        exact ⟨hlocate, hstruct⟩
      · rename_i hstruct
        rw [Option.not_isSome_iff_eq_none] at hstruct
        split at h
        · obtain rfl : Kind.enum = kind := by simpa using h
          exact ⟨hlocate, hstruct⟩
        · simp at h

/-- Behind a keyword of a kind that is documented, only such a keyword can lead. -/
theorem isTried_of_first {kind first : Kind} (htokens : s.tokens = front ++ t :: rest)
    (hfront : ∀ u ∈ front, Keyword.ofToken? u = none)
    (ht : Keyword.ofToken? t = some first.keyword) (hclass : Class.of s = .documented kind) :
    IsTried kind s.tokens := by
  apply isTried_of_class _ hclass
  intro keyword hkeyword
  rcases leadingKeyword?_of_first htokens hfront ht with h | h
  · simp [h] at hkeyword
  · rw [h] at hkeyword
    obtain rfl : first.keyword = keyword := by simpa using hkeyword
    cases first <;> rfl

theorem isIdent_of_ofToken? {keyword : Keyword} (ht : Keyword.ofToken? t = some keyword) :
    t.isIdent keyword.text = true := by
  have := List.find?_some ht
  exact this

theorem not_isIdent_of_ofToken? (h : Keyword.ofToken? t = none) (keyword : Keyword) :
    t.isIdent keyword.text = false := by
  have := List.find?_eq_none.1 h keyword (Keyword.mem_all keyword)
  simpa using this

/-! ## The place of the first keyword -/

theorem findKeyword_of_first {keyword : Keyword} (htokens : s.tokens = front ++ t :: rest)
    (hfront : ∀ u ∈ front, Keyword.ofToken? u = none) (ht : Keyword.ofToken? t = some keyword) :
    Token.findKeyword keyword.text s.tokens = some front.length ↔
      ∃ name, s.tokens[front.length + 1]? = some name ∧ name.kind = .ident := by
  constructor
  · exact Token.spec_of_findKeyword
  · rintro ⟨name, hname, hident⟩
    rw [htokens, List.getElem?_append_right (by omega), Nat.add_sub_cancel_left,
      List.getElem?_cons_succ] at hname
    cases rest with
    | nil => simp at hname
    | cons u more =>
      obtain rfl : u = name := by simpa using hname
      rw [htokens]
      exact Token.findKeyword_eq (fun v hv => not_isIdent_of_ofToken? (hfront v hv) keyword)
        (isIdent_of_ofToken? ht) hident

theorem locate?_of_first (htokens : s.tokens = front ++ t :: rest)
    (hfront : ∀ u ∈ front, Keyword.ofToken? u = none) :
    (Function.locate? s.tokens).map Prod.fst = some front.length ↔
      Leads .function s.tokens front.length := by
  constructor
  · intro h
    obtain ⟨⟨i, opened⟩, hlocate, hi⟩ := Option.map_eq_some_iff.1 h
    obtain rfl : i = front.length := hi
    obtain ⟨hbegins, hskip, opener, hopener, hround⟩ := Function.spec_of_locate? hlocate
    exact ⟨hbegins, opened, opener, hskip, hopener, hround⟩
  · rintro ⟨hbegins, opened, opener, hskip, hopener, hround⟩
    have hbefore : ∀ j < front.length, Function.beginsAt s.tokens j = false := by
      intro j hj
      rw [htokens]
      exact (Modifiers.quiet_of_none hfront).beginsAt (t :: rest) hj
    rw [Function.locate?_eq hbefore hbegins hskip hopener hround]
    rfl

/-- An item is read at the first keyword exactly when its kind is the first that is found. -/
theorem place?_iff {kind first : Kind} (htokens : s.tokens = front ++ t :: rest)
    (hfront : ∀ u ∈ front, Keyword.ofToken? u = none)
    (ht : Keyword.ofToken? t = some first.keyword) (htried : IsTried kind s.tokens)
    (huncommented : (Enum.uncommented s).tokens = s.tokens) :
    kind = first ∧ place? kind s = some front.length ↔ Leads first s.tokens front.length := by
  cases first with
  | function =>
    rw [← locate?_of_first htokens hfront]
    constructor
    · rintro ⟨rfl, hplace⟩
      exact hplace
    · intro hplace
      -- Where a function is located, no other kind is tried.
      have hlocate : Function.locate? s.tokens ≠ none := by
        intro hnone
        simp [hnone] at hplace
      cases kind with
      | function => exact ⟨rfl, hplace⟩
      | struct => exact absurd htried.1 hlocate
      | enum => exact absurd htried.1 hlocate
  | struct =>
    have hfind := findKeyword_of_first htokens hfront ht
    constructor
    · rintro ⟨rfl, hplace⟩
      exact ⟨htried.1, hfind.1 hplace⟩
    · rintro ⟨hlocate, hname⟩
      have hplace := hfind.2 hname
      cases kind with
      | function => simp [IsTried, hlocate] at htried
      | struct => exact ⟨rfl, hplace⟩
      | enum =>
        have hnone := htried.2
        rw [Kind.keyword] at hplace
        simp [hplace] at hnone
  | enum =>
    have hfind := findKeyword_of_first htokens hfront ht
    constructor
    · rintro ⟨rfl, hplace⟩
      rw [place?, huncommented] at hplace
      exact ⟨htried.1, htried.2, hfind.1 hplace⟩
    · rintro ⟨hlocate, hstruct, hname⟩
      cases kind with
      | function => simp [IsTried, hlocate] at htried
      | struct => simp [IsTried, hstruct] at htried
      | enum =>
        refine ⟨rfl, ?_⟩
        rw [place?, huncommented]
        exact hfind.2 hname

/-- An item is the one that is read exactly when it is the first that is tried. -/
theorem describes_iff {kind first : Kind} (htokens : s.tokens = front ++ t :: rest)
    (hfront : ∀ u ∈ front, Keyword.ofToken? u = none)
    (ht : Keyword.ofToken? t = some first.keyword) (hclass : Class.of s = .documented kind)
    (hsome : (name? kind s).isSome = true) (huncommented : (Enum.uncommented s).tokens = s.tokens) :
    kind = first ∧ Describes kind s front.length ↔ Leads first s.tokens front.length := by
  rw [← place?_iff htokens hfront ht (isTried_of_first htokens hfront ht hclass) huncommented]
  constructor
  · rintro ⟨hkind, hplace, -⟩
    exact ⟨hkind, hplace⟩
  · rintro ⟨hkind, hplace⟩
    exact ⟨hkind, hplace, name?_of_place? hsome hplace huncommented⟩

end Item

namespace Generator

theorem document_eq_template {g : Generator} {s text : Text} {o : Options} {kind : Item.Kind} :
    g.document s o = .template kind text ↔ Item.Class.of s = .documented kind ∧
      g.kinds.contains kind = true ∧ Item.template? kind s o = some text := by
  rw [document]
  constructor
  · intro h
    split at h
    · simp at h
    · rename_i k hclass
      split at h
      · rename_i hkind
        split at h
        · rename_i shown hshown
          simp only [Outcome.template.injEq] at h
          obtain ⟨rfl, rfl⟩ := h
          exact ⟨hclass, hkind, hshown⟩
        · simp at h
      · simp at h
  · rintro ⟨hclass, hkind, htext⟩
    rw [hclass]
    dsimp only
    rw [if_pos hkind, htext]

theorem documentBehind_of_found {g : Generator} {lines : List Text} {cursor : Nat} {o : Options}
    {d : Declaration} (h : Declaration.search lines cursor = .found d) :
    g.documentBehind lines cursor o = some (g.document d.signature o) := by
  rw [documentBehind, h]
  rfl

/-- The template behind a cursor is that of the item that the search started on exactly when this item
is the first that is tried in the text collected for it. Nothing may be left open in front of its
keyword. -/
theorem describes_iff_leads {g : Generator} {lines : List Text} {cursor : Nat} {o : Options}
    {d : Declaration} {first kind : Item.Kind} {text : Text}
    (hfound : Declaration.search lines cursor = .found d) (hkeyword : d.keyword = first.keyword)
    (hclosed : ∀ line ∈ (d.sourceLines lines).head?, isClosed (Declaration.opening line) = true)
    (htemplate : g.documentBehind lines cursor o = some (.template kind text)) :
    ∃ i t, d.signature.tokens[i]? = some t ∧ Keyword.ofToken? t = some d.keyword ∧
      (∀ u ∈ d.signature.tokens.take i, Keyword.ofToken? u = none) ∧
      (kind = first ∧ Item.Describes kind d.signature i ↔
        Item.Leads first d.signature.tokens i) := by
  obtain ⟨front, t, rest, htokens, hfront, ht⟩ := Declaration.exists_leading hfound hclosed
  obtain ⟨hsignature, hsolid⟩ := Declaration.signature_eq_squeeze hfound
  have hone : ∀ c ∈ d.signature, isLineBreak c = false := by
    intro c hc
    rw [hsignature] at hc
    exact isLineBreak_squeeze hc
  have huncommented := Item.tokens_uncommented hsolid hone
  rw [documentBehind_of_found hfound, Option.some.injEq, document_eq_template] at htemplate
  obtain ⟨hclass, -, hshown⟩ := htemplate
  have hget : d.signature.tokens[front.length]? = some t := by
    rw [htokens, List.getElem?_append_right (Nat.le_refl _), Nat.sub_self]
    rfl
  have htake : d.signature.tokens.take front.length = front := by
    rw [htokens, List.take_left]
  refine ⟨front.length, t, hget, ht, by rwa [htake], ?_⟩
  rw [hkeyword] at ht
  exact Item.describes_iff htokens hfront ht hclass (Item.isSome_name? hshown) huncommented

theorem findIdx?_of_keyword {ts : List Token} {i : Nat} {t : Token} {keyword : Keyword}
    (ht : ts[i]? = some t) (hkeyword : Keyword.ofToken? t = some keyword)
    (hnone : ∀ u ∈ ts.take i, Keyword.ofToken? u = none) :
    ts.findIdx? (fun u => (Keyword.ofToken? u).isSome) = some i := by
  obtain ⟨hlt, rfl⟩ := List.getElem?_eq_some_iff.1 ht
  refine List.findIdx?_eq_some_iff_getElem.2 ⟨hlt, by rw [hkeyword]; rfl, fun j hj => ?_⟩
  have hmem : ts[j] ∈ ts.take i := List.mem_take_iff_getElem.2 ⟨j, by omega, rfl⟩
  rw [hnone _ hmem]
  decide

/-- A struct with the type of a function in it, and a function behind it. -/
def callbackLines : List Text := [
  "///", "pub struct Callbacks \x7b", "    on_done: fn(u8),", "\x7d", "fn run() \x7b"]

def callbackSignature : Text := "pub struct Callbacks \x7b on_done: fn(u8), \x7d"

theorem describes_iff_leads_callbacks :
    (∃ t, callbackSignature.tokens[1]? = some t ∧ Keyword.ofToken? t = some .struct) ∧
      Item.Leads .struct callbackSignature.tokens 1 ∧ Item.Describes .struct callbackSignature 1 := by
  have hfound : Declaration.search callbackLines 0 = .found ⟨callbackSignature, .struct, 1, 3⟩ := by
    decide +kernel
  have hclosed : ∀ line ∈ (Declaration.sourceLines callbackLines
      ⟨callbackSignature, .struct, 1, 3⟩).head?, isClosed (Declaration.opening line) = true := by
    decide +kernel
  have hclass : Item.Class.of callbackSignature = .documented .struct := by
    decide +kernel
  have hsome : (Item.template? .struct callbackSignature {}).isSome = true := by
    decide +kernel
  obtain ⟨text, htext⟩ := Option.isSome_iff_exists.1 hsome
  have htemplate : full.documentBehind callbackLines 0 {} = some (.template .struct text) := by
    rw [documentBehind_of_found hfound, document_eq_template.2 ⟨hclass, rfl, htext⟩]
  have hstruct : (Declaration.mk callbackSignature .struct 1 3).keyword = Item.Kind.struct.keyword :=
    rfl
  obtain ⟨i, t, ht, hkeyword, hnone, hiff⟩ := describes_iff_leads hfound hstruct hclosed htemplate
  -- The keyword stands behind `pub`, and none stands in front of it.
  have hindex : callbackSignature.tokens.findIdx? (fun u => (Keyword.ofToken? u).isSome) = some 1 := by
    decide +kernel
  obtain rfl : i = 1 :=
    Option.some.inj ((findIdx?_of_keyword ht hkeyword hnone).symm.trans hindex)
  have hlocate : (Item.Function.locate? callbackSignature.tokens).isNone = true := by decide +kernel
  have hname : (callbackSignature.tokens[2]?.any fun name => name.kind == .ident) = true := by
    decide +kernel
  obtain ⟨name, hget, hident⟩ := (Option.any_eq_true ..).1 hname
  have hleads : Item.Leads .struct callbackSignature.tokens 1 :=
    ⟨Option.isNone_iff_eq_none.1 hlocate, name, hget, eq_of_beq hident⟩
  exact ⟨⟨t, ht, hkeyword⟩, hleads, (hiff.2 hleads).2⟩

/-- What becomes of the declaration behind the first of some lines: the keyword that the search starts
on, the kind of the template and the name of the item that it describes. -/
def account (lines : List Text) : Option (Keyword × Item.Kind × Option Text) := do
  let d ← (Declaration.search lines 0).declaration?
  match full.documentBehind lines 0 {} with
  | some (.template kind _) => some (d.keyword, kind, Item.name? kind d.signature)
  | _ => none

/-- A function behind a struct on its last line is documented in its place; so is the function behind
one whose generic list holds a brace, or whose scope leaves a quote open. -/
theorem misdescribed :
    account ["///", "struct Callbacks \x7b on_done: fn(u8) \x7d fn run() \x7b\x7d"] =
        some (.struct, .function, some "run".toList) ∧
      account ["///", "fn fill<T: Into<[u8; \x7b 3 \x7d]>>() \x7b\x7d", "fn next() \x7b"] =
        some (.fn, .function, some "next".toList) ∧
      account ["///", "pub(in \") fn left(", "\") fn right() \x7b"] =
        some (.fn, .function, some "right".toList) := by
  decide +kernel

end Generator

end DocScaffold
