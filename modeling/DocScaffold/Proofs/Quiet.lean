import DocScaffold.Proofs.Qualifiers
import Mathlib.Data.List.Chain

/-!
# Item keywords among modifiers

An item keyword stands among written modifiers only inside the path of a scope, between two other
tokens that end its meaning: it neither begins a function nor leads the declaration (`Quiet`).
-/

namespace DocScaffold

open Text

namespace Modifiers

/-- Whether a token is none of the modifiers and ends none. -/
def separates (t : Token) : Bool := t.isPunct [':', ':'] || t.isIdent "in"

theorem takeAll_separates (s : Text) {t : Token} (h : separates t = true) (rest : List Token) :
    (takeAll s (t :: rest)).2 = t :: rest := by
  have hplain : t.isPunct [')'] = false ∧ (t.kind == .string) = false ∧ ∀ word ∈ (["pub", "const",
      "async", "unsafe", "extern"] : List Text), t.isIdent word = false := by
    rcases Bool.or_eq_true_iff.1 h with h | h
    · simp only [Token.isPunct, Bool.and_eq_true, beq_iff_eq] at h
      simp [Token.isPunct, Token.isIdent, h]
    · simp only [Token.isIdent, Bool.and_eq_true, beq_iff_eq] at h
      simp [Token.isPunct, Token.isIdent, h]
  obtain ⟨hround, hstring, hwords⟩ := hplain
  have hlinkage : takeLinkage (t :: rest) = (.native, t :: rest) := by
    have hlink := hwords "extern".toList (by simp)
    cases rest with
    | nil =>
      rw [takeLinkage, hlink]
      rfl
    | cons u rest =>
      rw [takeLinkage, hlink, hstring, Bool.false_and]
      rfl
  have hword : ∀ word ∈ (["const", "async", "unsafe"] : List Text),
      takeWord word (t :: rest) = (false, t :: rest) := by
    intro word hmem
    have hmem' : word ∈ (["pub", "const", "async", "unsafe", "extern"] : List Text) :=
      List.mem_cons_of_mem _ (List.mem_append_left ["extern".toList] hmem)
    rw [takeWord, hwords word hmem']
    rfl
  have hvisibility : takeVisibility s (t :: rest) = (.inherited, t :: rest) := by
    rw [takeVisibility, hround, hwords "pub".toList (by simp)]
    rfl
  rw [takeAll, hlinkage]
  dsimp only
  rw [hword _ (by simp)]
  dsimp only
  rw [hword _ (by simp)]
  dsimp only
  rw [hword _ (by simp)]
  dsimp only
  rw [hvisibility]

/-- An item keyword has a separating token in front of it and a sign behind it. -/
def Guards (t u : Token) : Prop :=
  ((Keyword.ofToken? u).isSome = true → separates t = true) ∧
    ((Keyword.ofToken? t).isSome = true → u.kind = .punct)

/-- Tokens among which an item keyword begins nothing. -/
structure Quiet (ts : List Token) : Prop where
  chain : ts.IsChain Guards
  head : ∀ t ∈ ts.head?, Keyword.ofToken? t = none
  last : ∀ t ∈ ts.getLast?, Keyword.ofToken? t = none

theorem guards_of_none {t u : Token} (ht : Keyword.ofToken? t = none)
    (hu : Keyword.ofToken? u = none) : Guards t u := by
  simp [Guards, ht, hu]

theorem quiet_of_none {ts : List Token} (h : ∀ t ∈ ts, Keyword.ofToken? t = none) : Quiet ts := by
  refine ⟨?_, fun t ht => h t (List.mem_of_head? ht), fun t ht => h t (List.mem_of_getLast? ht)⟩
  rw [List.isChain_iff_getElem]
  intro i hi
  exact guards_of_none (h _ (List.getElem_mem _)) (h _ (List.getElem_mem _))

theorem Quiet.append {ts us : List Token} (hts : Quiet ts) (hus : Quiet us) : Quiet (ts ++ us) := by
  refine ⟨?_, ?_, ?_⟩
  · rw [List.isChain_append]
    exact ⟨hts.chain, hus.chain, fun t ht u hu => guards_of_none (hts.last t ht) (hus.head u hu)⟩
  · intro t ht
    rw [List.head?_append] at ht
    rcases Option.or_eq_some_iff.1 ht with ht | ⟨-, ht⟩
    · exact hts.head t ht
    · exact hus.head t ht
  · intro t ht
    rw [List.getLast?_append] at ht
    rcases Option.or_eq_some_iff.1 ht with ht | ⟨-, ht⟩
    · exact hus.last t ht
    · exact hts.last t ht

theorem chain_segments {s : Text} {segments : List Text}
    (h : ∀ u ∈ s :: segments, IsToken .ident u) (offset : Nat) {front closer : Token}
    (hfront : separates front = true) (hnone : Keyword.ofToken? front = none)
    (hcloser : closer.kind = .punct) :
    (front :: (tokensAt offset (s ++ Path.tailText segments) ++ [closer])).IsChain Guards := by
  have hsign : Keyword.ofToken? closer = none :=
    Keyword.ofToken?_eq_none_of_kind (by simp [hcloser])
  induction segments generalizing s offset front with
  | nil =>
    have hs := h s (by simp)
    rw [Path.tokensAt_segment hs, Path.tailText, List.flatMap_nil, tokensAt_nil]
    simp [Guards, hfront, hnone, hcloser, hsign]
  | cons u segments ih =>
    have hcolons := Keyword.ofToken?_eq_none_of_kind
      (t := ⟨.punct, [':', ':'], offset + s.length, offset + s.length + 2⟩) (by simp)
    have hseparates : separates ⟨.punct, [':', ':'], offset + s.length, offset + s.length + 2⟩ =
        true := by
      simp [separates, Token.isPunct]
    have hrest := @ih u (fun v hv => h v (by simp [hv])) (offset + s.length + 2) _ hseparates hcolons
    rw [Path.tokensAt_segment (h s (by simp)), Path.tokensAt_tailText, List.cons_append,
      List.cons_append, List.isChain_cons_cons, List.isChain_cons_cons]
    refine ⟨?_, ?_, hrest⟩
    · simp [Guards, hfront, hnone]
    · simp [Guards, hcolons]

theorem quiet_within {scope : Text} (h : IsScope scope) :
    Quiet (tokensAt 0 (visibilityText (.within scope))) := by
  have hpub : Keyword.ofToken? ⟨.ident, "pub".toList, 0, 3⟩ = none := by decide
  have hopen : Keyword.ofToken? ⟨.punct, ['('], 3, 4⟩ = none := by decide
  have hclose : ∀ a b, Keyword.ofToken? ⟨.punct, [')'], a, b⟩ = none :=
    fun a b => Keyword.ofToken?_eq_none_of_kind (by simp)
  rw [tokensAt_within h]
  rcases h with hword | ⟨p, hp, rfl⟩
  · apply quiet_of_none
    have hscope : ∀ t ∈ tokensAt 4 scope, Keyword.ofToken? t = none := by
      simp only [List.mem_cons, List.not_mem_nil, or_false] at hword
      have htoken : IsToken .ident scope := by
        apply isToken_word
        rcases hword with rfl | rfl | rfl <;> simp
      rw [htoken.tokensAt]
      intro t ht
      obtain rfl := List.mem_singleton.1 ht
      rcases hword with rfl | rfl | rfl <;> decide
    intro t ht
    simp only [List.mem_cons, List.mem_append, List.not_mem_nil, or_false] at ht
    rcases ht with rfl | rfl | ht | rfl
    · exact hpub
    · exact hopen
    · exact hscope t ht
    · exact hclose _ _
  · have hin : Keyword.ofToken? ⟨.ident, "in".toList, 4, 4 + 2⟩ = none := by decide
    have hseparates : separates ⟨.ident, "in".toList, 4, 4 + 2⟩ = true := by decide
    rw [tokensAt_in hp]
    refine ⟨?_, ?_, ?_⟩
    · rw [List.cons_append, List.isChain_cons_cons, List.isChain_cons_cons]
      refine ⟨guards_of_none hpub hopen, guards_of_none hopen hin, ?_⟩
      rw [Path.text]
      split
      · have hcolons := Keyword.ofToken?_eq_none_of_kind
          (t := ⟨.punct, [':', ':'], 4 + 3, 4 + 3 + 2⟩) (by simp)
        rw [Path.tokensAt_tailText, List.cons_append, List.isChain_cons_cons]
        exact ⟨guards_of_none hin hcolons, chain_segments hp _ (by decide) hcolons rfl⟩
      · exact chain_segments hp _ hseparates hin rfl
    · intro t ht
      obtain rfl : _ = t := by simpa using ht
      exact hpub
    · intro t ht
      rw [← List.cons_append, ← List.cons_append, List.getLast?_concat] at ht
      obtain rfl : _ = t := by simpa using ht
      exact hclose _ _

theorem quiet_wordText {word : Text} (hword : IsToken .ident word)
    (hnone : ∀ k : Keyword, k.text ≠ word) (isPresent : Bool) (offset : Nat) :
    Quiet (tokensAt offset (wordText word isPresent)) := by
  apply quiet_of_none
  intro t ht
  cases isPresent with
  | false => simp [wordText] at ht
  | true =>
    rw [wordText, if_pos rfl, hword.tokensAt_spaced (by decide), List.mem_singleton] at ht
    subst ht
    apply Keyword.ofToken?_eq_none
    intro k
    simp [Token.isIdent, Ne.symm (hnone k)]

theorem quiet_linkageText {l : Linkage}
    (h : ∀ abi, l = .foreign (some abi) → '"' ∉ abi ∧ '\\' ∉ abi) (offset : Nat) :
    Quiet (tokensAt offset (linkageText l)) := by
  have hlink : Keyword.ofToken? ⟨.ident, "extern".toList, offset, offset + 6⟩ = none := by
    apply Keyword.ofToken?_eq_none
    intro k
    cases k <;> rfl
  apply quiet_of_none
  intro t ht
  cases l with
  | native =>
    have htext : linkageText .native = [] := rfl
    simp [htext] at ht
  | foreign abi =>
    cases abi with
    | none =>
      rw [tokensAt_foreign, List.mem_singleton] at ht
      subst ht
      exact hlink
    | some abi =>
      obtain ⟨stop, htokens⟩ := tokensAt_abi (h abi rfl) offset
      rw [htokens] at ht
      rcases List.mem_cons.1 ht with rfl | ht
      · exact hlink
      · rw [List.mem_singleton] at ht
        subst ht
        exact Keyword.ofToken?_eq_none_of_kind (by simp)

theorem quiet_visibilityText {v : Visibility} (h : ∀ scope, v = .within scope → IsScope scope) :
    Quiet (tokensAt 0 (visibilityText v)) := by
  cases v with
  | inherited => exact quiet_of_none (by simp [visibilityText])
  | everywhere =>
    rw [tokensAt_everywhere]
    exact quiet_of_none (by simp; decide)
  | within scope => exact quiet_within (h scope rfl)

theorem quiet_text {m : Modifiers} (h : m.IsProper) : Quiet m.text.tokens := by
  obtain ⟨a, b, c, d, htokens⟩ := tokens_text h
  rw [htokens]
  exact (quiet_visibilityText h.scope).append
    ((quiet_wordText (isToken_word _ (by simp)) (by intro k; cases k <;> decide) _ _).append
      ((quiet_wordText (isToken_word _ (by simp)) (by intro k; cases k <;> decide) _ _).append
        ((quiet_wordText (isToken_word _ (by simp)) (by intro k; cases k <;> decide) _
          _).append (quiet_linkageText h.abi d))))

/-- Quiet tokens begin no function, whatever stands behind them. -/
theorem Quiet.beginsAt {ts : List Token} (h : Quiet ts) (rest : List Token) {j : Nat}
    (hj : j < ts.length) : Item.Function.beginsAt (ts ++ rest) j = false := by
  have hget : (ts ++ rest)[j]? = some ts[j] := by
    rw [List.getElem?_append_left hj, List.getElem?_eq_getElem hj]
  rw [Item.Function.beginsAt, hget]
  cases hfn : ts[j].isIdent "fn" with
  | false => split <;> simp_all
  | true =>
    have hsome : (Keyword.ofToken? ts[j]).isSome = true := by
      rw [Keyword.ofToken?_of_isIdent (k := .fn) hfn]
      rfl
    by_cases hnext : j + 1 < ts.length
    · have hguards := List.isChain_iff_getElem.1 h.chain j hnext
      have hget' : (ts ++ rest)[j + 1]? = some ts[j + 1] := by
        rw [List.getElem?_append_left hnext, List.getElem?_eq_getElem hnext]
      rw [hget']
      dsimp only
      rw [hguards.2 hsome, Bool.and_eq_false_iff]
      exact .inr (by decide)
    · have hlast : ts.getLast? = some ts[j] := by
        have hplace : ts.length - 1 = j := by omega
        rw [List.getLast?_eq_getElem?, hplace, List.getElem?_eq_getElem hj]
      rw [h.last _ hlast] at hsome
      exact absurd hsome (by decide)

/-- A keyword with a name behind quiet tokens is the first one. -/
theorem Quiet.findKeyword {ts rest : List Token} (h : Quiet ts) {k : Keyword} {t u : Token}
    (ht : t.isIdent k.text = true) (hu : u.kind = .ident) :
    Token.findKeyword k.text (ts ++ t :: u :: rest) = some ts.length := by
  have hchain := h.chain
  have hlast := h.last
  clear h
  induction ts with
  | nil =>
    have hfirst : (t.isIdent k.text && u.kind == .ident) = true := by
      rw [ht, hu]
      rfl
    rw [List.nil_append, Token.findKeyword, if_pos hfirst]
    rfl
  | cons a ts ih =>
    cases ts with
    | nil =>
      have ha : (a.isIdent k.text && t.kind == .ident) = false := by
        cases hword : a.isIdent k.text with
        | false => rfl
        | true =>
          have hnone := hlast a rfl
          rw [Keyword.ofToken?_of_isIdent hword] at hnone
          exact absurd hnone (by simp)
      have hrest := ih .nil (by simp)
      rw [List.nil_append] at hrest
      rw [List.singleton_append, Token.findKeyword, ha, hrest]
      rfl
    | cons b ts =>
      rw [List.isChain_cons_cons] at hchain
      have ha : (a.isIdent k.text && b.kind == .ident) = false := by
        cases hword : a.isIdent k.text with
        | false => rfl
        | true =>
          have hsign := hchain.1.2 (by rw [Keyword.ofToken?_of_isIdent hword]; rfl)
          rw [hsign]
          rfl
      have hrest := ih hchain.2 fun v hv => hlast v (by rwa [List.getLast?_cons_cons])
      rw [List.cons_append] at hrest
      rw [List.cons_append, List.cons_append, Token.findKeyword, ha, hrest]
      rfl

/-- An item keyword among quiet tokens has more than modifiers in front of it. -/
theorem Quiet.before_ne_zero {ts : List Token} (h : Quiet ts) (s : Text) (rest : List Token) {j : Nat}
    (hj : j < ts.length) (hkeyword : (Keyword.ofToken? ts[j]).isSome = true) :
    (before s (ts ++ rest) j).2 ≠ 0 := by
  cases j with
  | zero =>
    have hhead : ts.head? = some ts[0] := by
      rw [List.head?_eq_getElem?, List.getElem?_eq_getElem hj]
    rw [h.head _ hhead] at hkeyword
    exact absurd hkeyword (by decide)
  | succ i =>
    have hi : i < ts.length := by omega
    have hguards := List.isChain_iff_getElem.1 h.chain i hj
    have htake : ((ts ++ rest).take (i + 1)).reverse = ts[i] :: (ts.take i).reverse := by
      rw [List.take_append_of_le_length (by omega), List.take_succ_eq_append_getElem hi,
        List.reverse_append]
      rfl
    have hleft := takeAll_separates s (hguards.1 hkeyword) (ts.take i).reverse
    rw [before, htake]
    dsimp only
    rw [hleft, List.length_cons]
    omega

end Modifiers

namespace Item

/-- A declaration that quiet tokens and an item keyword begin is led by nothing else. -/
theorem leadingKeyword?_of_quiet {s : Text} {ts rest : List Token} {t : Token} {k : Keyword}
    (hquiet : Modifiers.Quiet ts) (ht : t.isIdent k.text = true) (htokens : s.tokens = ts ++ t :: rest) :
    leadingKeyword? s = none ∨ leadingKeyword? s = some k := by
  have hkeyword := Keyword.ofToken?_of_isIdent ht
  rw [leadingKeyword?, htokens]
  cases hfind : (ts ++ t :: rest).findIdx? fun t => (Keyword.ofToken? t).isSome with
  | none => exact .inl rfl
  | some i =>
    obtain ⟨hi, hsome, hbefore⟩ := List.findIdx?_eq_some_iff_getElem.1 hfind
    rcases Nat.lt_or_ge i ts.length with hlt | hge
    · have hget : (ts ++ t :: rest)[i] = ts[i] := List.getElem_append_left hlt
      rw [hget] at hsome
      have hne := hquiet.before_ne_zero s (t :: rest) hlt hsome
      left
      simp [hne]
    · have hlast : i = ts.length := by
        by_contra hne
        have := hbefore ts.length (by omega)
        rw [List.getElem_append_right (Nat.le_refl _)] at this
        simp [hkeyword] at this
      subst hlast
      simp only [Option.bind_eq_bind, Option.bind_some,
        List.getElem?_append_right (Nat.le_refl _), Nat.sub_self, List.getElem?_cons_zero, hkeyword]
      split
      · exact .inr rfl
      · exact .inl rfl

/-- A declaration in which a function is located behind quiet tokens and a `fn` is a function. -/
theorem Class.of_quiet {s : Text} {ts rest : List Token} {t : Token}
    (hquiet : Modifiers.Quiet ts) (hfn : t.isIdent "fn" = true) (htokens : s.tokens = ts ++ t :: rest)
    (hlocate : (Function.locate? s.tokens).isSome = true) : Class.of s = .documented .function := by
  rw [Class.of]
  rcases leadingKeyword?_of_quiet (k := .fn) hquiet hfn htokens with hleading | hleading
  · rw [hleading]
    simp only [hlocate, if_true]
  · rw [hleading]
    simp only [hlocate, if_true]

/-- Where no `fn` has a name behind it, no function is located. -/
theorem Function.locate?_eq_none {ts : List Token} (h : ∀ i, Function.beginsAt ts i = false) :
    Function.locate? ts = none := by
  cases hlocate : Function.locate? ts with
  | none => rfl
  | some place =>
    have hbegins := (Function.spec_of_locate? hlocate).1
    rw [h] at hbegins
    exact absurd hbegins (by decide)

/-- A declaration that quiet tokens and a `struct` with a name begin is a struct, when no function
begins in it. -/
theorem Class.of_quiet_struct {s : Text} {ts rest : List Token} {t u : Token}
    (hquiet : Modifiers.Quiet ts) (ht : t.isIdent Keyword.struct.text = true) (hu : u.kind = .ident)
    (htokens : s.tokens = ts ++ t :: u :: rest)
    (hfn : ∀ i, Function.beginsAt s.tokens i = false) : Class.of s = .documented .struct := by
  have hfind : Token.findKeyword Keyword.struct.text s.tokens = some ts.length := by
    rw [htokens]
    exact hquiet.findKeyword ht hu
  rw [Class.of]
  rcases leadingKeyword?_of_quiet hquiet ht htokens with hleading | hleading
  · simp [hleading, Function.locate?_eq_none hfn, hfind]
  · simp [hleading, Function.locate?_eq_none hfn, hfind]

end Item

end DocScaffold
