import DocScaffold.Proofs.Respacing

/-!
# Modifiers in texts that differ in their blanks

The modifiers that are read of alike texts are the same, but for blanks in the scope of a visibility and
in the name of an ABI (`takeAll_respaced`).
-/

namespace DocScaffold

open Text Lexeme

namespace Text

variable {s t : Text} {n m : Nat} {u u' v v' : Token}

/-! ## Squeezed literals -/

theorem eq_of_mem_getLast?_squeeze {s : Text} {c : Char} (h : c ∈ (squeeze s).getLast?) :
    c = ' ' ∨ c ∈ s.getLast? := by
  induction s with
  | nil => exact .inr h
  | cons d s ih =>
    rw [squeeze_eq_lead] at h
    cases s with
    | nil =>
      have hlead : lead d none = if isBlank d then [' '] else [d] := by
        simp [lead]
      rw [squeeze, List.append_nil, List.head?_nil, hlead] at h
      cases hd : isBlank d with
      | true => exact .inl (by simpa [hd, eq_comm] using h)
      | false => exact .inr (by simpa [hd] using h)
    | cons e s =>
      have hne : squeeze (e :: s) ≠ [] := by
        intro hnil
        have := head?_squeeze (e :: s)
        rw [hnil] at this
        simp at this
      rw [List.getLast?_append_of_ne_nil _ hne] at h
      rw [List.getLast?_cons_cons]
      exact ih h

theorem Alike.At.respaced_outer (hu : At s t n u u') (hv : At s t m v v') :
    Respaced (s.slice u.start v.stop) (t.slice u'.start v'.stop) := by
  have halike := hu.slice_outer hv
  refine ⟨halike.dense_eq, fun _ => halike, fun hident => ?_⟩
  rcases Nat.lt_or_ge m n with h | h
  · have hempty : s.slice u.start v.stop = [] := by
      rw [slice, Nat.sub_eq_zero_of_le (stop_le_start hv.left hu.left h), List.take_zero]
    exact absurd hempty hident.ident_ne_nil
  · exact halike.eq_of_ident hident (solid_outer hu.right hv.right h)

end Text

namespace Modifiers

/-! ## Names of an ABI -/

theorem unquoted_between {a m b : Text} (ha : ∀ c ∈ a, c = '"') (hb : ∀ c ∈ b, c = '"')
    (hhead : ∀ c ∈ m.head?, c ≠ '"') (hlast : ∀ c ∈ m.getLast?, c ≠ '"') :
    unquoted (a ++ (m ++ b)) = m := by
  have hquote : ∀ {w : Text}, (∀ c ∈ w, c = '"') → ∀ c ∈ w, (c == '"') = true :=
    fun hw c hc => beq_iff_eq.2 (hw c hc)
  have hother : ∀ {x : Option Char}, (∀ c ∈ x, c ≠ '"') → ∀ c ∈ x, (c == '"') = false :=
    fun hx c hc => beq_eq_false_iff_ne.2 (hx c hc)
  rw [unquoted]
  by_cases hm : m = []
  · subst hm
    have hall : (a ++ b).dropWhile (· == '"') = [] := by
      rw [List.dropWhile_eq_nil_iff]
      exact fun c hc => (List.mem_append.1 hc).elim (hquote ha c) (hquote hb c)
    rw [List.nil_append, hall]
    rfl
  · have hfront : ∀ c ∈ (m ++ b).head?, (c == '"') = false := by
      rw [List.head?_append_of_ne_nil _ hm]
      exact hother hhead
    have hback : ∀ c ∈ m.reverse.head?, (c == '"') = false := by
      rw [List.head?_reverse]
      exact hother hlast
    rw [dropWhile_append_of_head (hquote ha) hfront, List.reverse_append,
      dropWhile_append_of_head (fun c hc => hquote hb c (List.mem_reverse.1 hc)) hback,
      List.reverse_reverse]

theorem exists_unquoted (s : Text) : ∃ a b, s = a ++ (unquoted s ++ b) ∧ (∀ c ∈ a, c = '"') ∧
    (∀ c ∈ b, c = '"') ∧ (∀ c ∈ (unquoted s).head?, c ≠ '"') ∧
    ∀ c ∈ (unquoted s).getLast?, c ≠ '"' := by
  have hsplit : s.dropWhile (· == '"') =
      unquoted s ++ ((s.dropWhile (· == '"')).reverse.takeWhile (· == '"')).reverse := by
    rw [unquoted, ← List.reverse_append, List.takeWhile_append_dropWhile, List.reverse_reverse]
  refine ⟨s.takeWhile (· == '"'), ((s.dropWhile (· == '"')).reverse.takeWhile (· == '"')).reverse, ?_,
    fun c hc => ?_, fun c hc => ?_, fun c hc => ?_, fun c hc => ?_⟩
  · rw [← hsplit, List.takeWhile_append_dropWhile]
  · exact beq_iff_eq.1 (of_mem_takeWhile (· == '"') hc)
  · exact beq_iff_eq.1 (of_mem_takeWhile (· == '"') (List.mem_reverse.1 hc))
  · have hhead : c ∈ (s.dropWhile (· == '"')).head? := by
      rw [hsplit, List.head?_append, Option.mem_def.1 hc]
      rfl
    exact beq_eq_false_iff_ne.1 (head?_dropWhile (· == '"') hhead)
  · rw [unquoted, List.getLast?_reverse] at hc
    exact beq_eq_false_iff_ne.1 (head?_dropWhile (· == '"') hc)

/-- Quotes at the ends are no blanks. -/
theorem squeeze_unquoted (s : Text) : squeeze (unquoted s) = unquoted (squeeze s) := by
  obtain ⟨a, b, heq, ha, hb, hhead, hlast⟩ := exists_unquoted s
  have hquote : isBlank '"' = false ∧ ' ' ≠ '"' := by decide
  have hplain : ∀ {w : Text}, (∀ c ∈ w, c = '"') → ∀ c ∈ w, isBlank c = false := by
    intro w hw c hc
    rw [hw c hc, hquote.1]
  have hsqueeze : squeeze s = a ++ (squeeze (unquoted s) ++ b) := by
    conv_lhs => rw [heq, squeeze_append_of_not_blank (hplain ha)]
    rw [squeeze_append, squeeze_of_not_blank (hplain hb)]
    exact fun _ _ _ y hy => hplain hb y (List.mem_of_head? hy)
  rw [hsqueeze, unquoted_between ha hb]
  · intro c hc
    rcases eq_of_mem_head?_squeeze hc with rfl | hc
    · exact hquote.2
    · exact hhead c hc
  · intro c hc
    rcases eq_of_mem_getLast?_squeeze hc with rfl | hc
    · exact hquote.2
    · exact hlast c hc

/-! ## Modifiers of alike texts -/

end Modifiers

/-- The same linkage, but for blanks in the name of an ABI. -/
inductive Linkage.Respaced : Linkage → Linkage → Prop
  | native : Respaced .native .native
  | foreign {abi abi' : Option Text} (h : Option.Rel (fun a b => squeeze b = squeeze a) abi abi') :
      Respaced (.foreign abi) (.foreign abi')

/-- The same visibility, but for blanks in its scope. -/
inductive Visibility.Respaced : Visibility → Visibility → Prop
  | inherited : Respaced .inherited .inherited
  | everywhere : Respaced .everywhere .everywhere
  | within {scope scope' : Text} (h : Text.Respaced scope scope') :
      Respaced (.within scope) (.within scope')

/-- The same modifiers, but for blanks in a scope and in the name of an ABI. -/
structure Modifiers.Respaced (m m' : Modifiers) : Prop where
  visibility : m.visibility.Respaced m'.visibility
  isConst : m'.isConst = m.isConst
  isAsync : m'.isAsync = m.isAsync
  isUnsafe : m'.isUnsafe = m.isUnsafe
  linkage : m.linkage.Respaced m'.linkage

namespace Modifiers

variable {s t : Text} {ts us : List Token}

/-- A pair of tokens in the same place of two texts. -/
def Pair (s t : Text) (u v : Token) : Prop := ∃ n, Alike.At s t n u v

theorem Pair.isPunct_eq {u v : Token} (h : Pair s t u v) (sign : Text) :
    v.isPunct sign = u.isPunct sign := by
  obtain ⟨n, h⟩ := h
  exact h.isPunct_eq sign

theorem Pair.isIdent_eq {u v : Token} (h : Pair s t u v) (word : Text) :
    v.isIdent word = u.isIdent word := by
  obtain ⟨n, h⟩ := h
  exact h.isIdent_eq word

/-- The tokens of alike texts stand in the same places. -/
theorem pairs (h : Alike s t) : List.Forall₂ (Pair s t) s.tokens t.tokens := by
  refine List.forall₂_iff_get.2 ⟨h.length_tokens, fun n hs ht => ?_⟩
  obtain ⟨v, hv⟩ := h.exists_at (List.getElem?_eq_getElem hs)
  have hget := hv.right
  rw [List.getElem?_eq_getElem ht] at hget
  rw [List.get_eq_getElem, List.get_eq_getElem, Option.some.inj hget]
  exact ⟨n, hv⟩

theorem takeWord_respaced (word : Text) (h : List.Forall₂ (Pair s t) ts us) :
    (takeWord word us).1 = (takeWord word ts).1 ∧
      List.Forall₂ (Pair s t) (takeWord word ts).2 (takeWord word us).2 := by
  cases h with
  | nil => exact ⟨rfl, .nil⟩
  | cons h hrest =>
    rw [takeWord, takeWord, h.isIdent_eq]
    split
    · exact ⟨rfl, hrest⟩
    · exact ⟨rfl, .cons h hrest⟩

theorem takeLinkage_respaced (h : List.Forall₂ (Pair s t) ts us) :
    (takeLinkage ts).1.Respaced (takeLinkage us).1 ∧
      List.Forall₂ (Pair s t) (takeLinkage ts).2 (takeLinkage us).2 := by
  cases h with
  | nil => exact ⟨.native, .nil⟩
  | cons h hrest =>
    cases hrest with
    | nil =>
      rw [takeLinkage, takeLinkage, h.isIdent_eq]
      split
      · exact ⟨.foreign .none, .nil⟩
      · exact ⟨.native, .cons h .nil⟩
    | cons h' hrest =>
      obtain ⟨n, hat⟩ := id h
      rw [takeLinkage, takeLinkage, h.isIdent_eq, h'.isIdent_eq, hat.kind]
      split
      · refine ⟨.foreign (.some ?_), hrest⟩
        rw [squeeze_unquoted, hat.value, squeeze_unquoted]
      · split
        · exact ⟨.foreign .none, .cons h' hrest⟩
        · exact ⟨.native, .cons h (.cons h' hrest)⟩

theorem splitGroup_respaced (depth : Int) (h : List.Forall₂ (Pair s t) ts us) :
    Option.Rel (fun p q => List.Forall₂ (Pair s t) p.1 q.1 ∧ List.Forall₂ (Pair s t) p.2 q.2)
      (splitGroup depth ts) (splitGroup depth us) := by
  induction h generalizing depth with
  | nil => exact .none
  | @cons u v ts us h hrest ih =>
    have hmap : ∀ depth, Option.Rel
        (fun p q => List.Forall₂ (Pair s t) p.1 q.1 ∧ List.Forall₂ (Pair s t) p.2 q.2)
        ((splitGroup depth ts).map fun p => (u :: p.1, p.2))
        ((splitGroup depth us).map fun p => (v :: p.1, p.2)) := by
      intro depth
      have hsplit := ih depth
      generalize splitGroup depth ts = x at hsplit
      generalize splitGroup depth us = y at hsplit
      cases hsplit with
      | none => exact .none
      | some hpair => exact .some ⟨.cons h hpair.1, hpair.2⟩
    rw [splitGroup, splitGroup, h.isPunct_eq, h.isPunct_eq]
    split
    · exact hmap _
    · split
      · split
        · exact .some ⟨.cons h .nil, hrest⟩
        · exact hmap _
      · exact hmap _

theorem head?_respaced (h : List.Forall₂ (Pair s t) ts us) :
    Option.Rel (Pair s t) ts.head? us.head? := by
  cases h with
  | nil => exact .none
  | cons h _ => exact .some h

theorem getLast?_respaced (h : List.Forall₂ (Pair s t) ts us) :
    Option.Rel (Pair s t) ts.getLast? us.getLast? := by
  rw [← List.head?_reverse, ← List.head?_reverse]
  exact head?_respaced (List.forall₂_reverse_iff.2 h)

theorem scopeText?_respaced {group group' : List Token} (h : List.Forall₂ (Pair s t) group group') :
    Option.Rel Text.Respaced (scopeText? s group) (scopeText? t group') := by
  have hinner : List.Forall₂ (Pair s t) group.tail.dropLast group'.tail.dropLast := by
    rw [List.dropLast_eq_take, List.dropLast_eq_take, List.length_tail, List.length_tail, h.length_eq,
      ← List.drop_one, ← List.drop_one]
    exact List.forall₂_take _ (List.forall₂_drop _ h)
  have hfirst := getLast?_respaced hinner
  have hlast := head?_respaced hinner
  simp only [scopeText?]
  generalize group.tail.dropLast.getLast? = x at hfirst
  generalize group'.tail.dropLast.getLast? = x' at hfirst
  generalize group.tail.dropLast.head? = y at hlast
  generalize group'.tail.dropLast.head? = y' at hlast
  cases hfirst with
  | none => exact .none
  | @some u u' hu =>
    cases hlast with
    | none => exact .none
    | @some v v' hv =>
      obtain ⟨n, hu⟩ := hu
      obtain ⟨m, hv⟩ := hv
      have hhead : isScopeHead u' = isScopeHead u := by
        rw [← isScopeHead_outline u', hu.outline_eq, isScopeHead_outline]
      simp only [Option.bind_eq_bind, Option.bind_some, hhead]
      split
      · exact .some (hu.respaced_outer hv)
      · exact .none

theorem takeVisibility_respaced (h : List.Forall₂ (Pair s t) ts us) :
    (takeVisibility s ts).1.Respaced (takeVisibility t us).1 ∧
      List.Forall₂ (Pair s t) (takeVisibility s ts).2 (takeVisibility t us).2 := by
  have hgroup := splitGroup_respaced 0 h
  cases h with
  | nil => exact ⟨.inherited, .nil⟩
  | @cons u v ts us h hrest =>
    rw [takeVisibility, takeVisibility, h.isPunct_eq, h.isIdent_eq]
    split
    · generalize splitGroup 0 (u :: ts) = x at hgroup
      generalize splitGroup 0 (v :: us) = y at hgroup
      cases hgroup with
      | none => exact ⟨.inherited, .cons h hrest⟩
      | @some p q hpair =>
        obtain ⟨group, before⟩ := p
        obtain ⟨group', before'⟩ := q
        obtain ⟨hgroup, hbefore⟩ := hpair
        dsimp only at hgroup hbefore
        cases hbefore with
        | nil => exact ⟨.inherited, .cons h hrest⟩
        | @cons p q before before' hp hbefore =>
          have hscope := scopeText?_respaced hgroup
          dsimp only
          generalize scopeText? s group = x at hscope
          generalize scopeText? t group' = y at hscope
          cases hscope with
          | none => exact ⟨.inherited, .cons h hrest⟩
          | some hscope =>
            dsimp only
            rw [hp.isIdent_eq]
            split
            · exact ⟨.within hscope, hbefore⟩
            · exact ⟨.inherited, .cons h hrest⟩
    · split
      · exact ⟨.everywhere, hrest⟩
      · exact ⟨.inherited, .cons h hrest⟩

/-- Modifiers in front of tokens in the same place. -/
theorem takeAll_respaced (h : List.Forall₂ (Pair s t) ts us) :
    (takeAll s ts).1.Respaced (takeAll t us).1 := by
  obtain ⟨hlinkage, h⟩ := takeLinkage_respaced h
  obtain ⟨hunsafety, h⟩ := takeWord_respaced "unsafe" h
  obtain ⟨hasync, h⟩ := takeWord_respaced "async" h
  obtain ⟨hconst, h⟩ := takeWord_respaced "const" h
  obtain ⟨hvisibility, -⟩ := takeVisibility_respaced h
  exact ⟨hvisibility, hconst, hasync, hunsafety, hlinkage⟩

end Modifiers

end DocScaffold
