import DocScaffold.Proofs.Nesting
import DocScaffold.Proofs.Respacing

/-!
# Attributes in front of an entry

Attributes are taken away one by one, and what is left is lexed again each time. It has the tokens that
stood behind the attribute before, so the rounds take away exactly the attributes that the tokens of the
whole entry begin with (`withoutAttributes_exact`).
-/

namespace DocScaffold

open Text

namespace Token

/-! ## Attributes among tokens -/

/-- An attribute goes from index `i` up to the partner of its square bracket. -/
structure IsAttribute (ts : List Token) (i close : Nat) : Prop where
  hash : ∃ t, ts[i]? = some t ∧ t.isPunct ['#'] = true
  opener : ∃ t, ts[i + 1]? = some t ∧ t.isPunct ['['] = true
  closes : findClosing ts (i + 1) = some close

/-- `k` attributes, one behind the other, go from index `i` up to index `j`. -/
inductive Attributes (ts : List Token) : Nat → Nat → Nat → Prop
  | nil (i : Nat) : Attributes ts 0 i i
  | cons {k i close j : Nat} (hattribute : IsAttribute ts i close)
      (hrest : Attributes ts k (close + 1) j) : Attributes ts (k + 1) i j

theorem findClosing_drop (ts : List Token) (m i : Nat) :
    findClosing ts (m + i) = (findClosing (ts.drop m) i).map (m + ·) := by
  rw [findClosing, findClosing, List.drop_drop, Option.map_map]
  refine congrArg (Option.map · _) ?_
  funext n
  rw [Function.comp_apply]
  omega

theorem isAttribute_drop_iff {ts : List Token} {m i close : Nat} :
    IsAttribute (ts.drop m) i close ↔ IsAttribute ts (m + i) (m + close) := by
  have hclosing : findClosing ts (m + (i + 1)) = some (m + close) ↔
      findClosing (ts.drop m) (i + 1) = some close := by
    rw [findClosing_drop, Option.map_eq_some_iff]
    simp only [Nat.add_left_cancel_iff, exists_eq_right]
  constructor
  · rintro ⟨hhash, hopener, hcloses⟩
    rw [List.getElem?_drop] at hhash hopener
    exact ⟨hhash, hopener, hclosing.2 hcloses⟩
  · rintro ⟨hhash, hopener, hcloses⟩
    rw [Nat.add_assoc] at hopener hcloses
    rw [← List.getElem?_drop] at hhash hopener
    exact ⟨hhash, hopener, hclosing.1 hcloses⟩

/-- Attributes do not depend on the places of the tokens. -/
theorem IsAttribute.of_shapes {ts us : List Token} {i close : Nat} (h : IsAttribute ts i close)
    (hshapes : ts.map shape = us.map shape) : IsAttribute us i close := by
  have houtlines := outlines_of_shape_eq hshapes
  have hsign : ∀ {n : Nat} {sign : Text}, (∃ t, ts[n]? = some t ∧ t.isPunct sign = true) →
      ∃ u, us[n]? = some u ∧ u.isPunct sign = true := by
    rintro n sign ⟨t, ht, hsign⟩
    have hn := congrArg (·[n]?) houtlines
    simp only [List.getElem?_map, ht, Option.map_some] at hn
    obtain ⟨u, hu, houtline⟩ := Option.map_eq_some_iff.1 hn.symm
    exact ⟨u, hu, by rw [← outline_isPunct, houtline, outline_isPunct, hsign]⟩
  refine ⟨hsign h.hash, hsign h.opener, ?_⟩
  rw [← findClosing_outline, ← houtlines, findClosing_outline]
  exact h.closes

theorem IsAttribute.lt {ts : List Token} {i close : Nat} (h : IsAttribute ts i close) :
    i + 1 < close ∧ close < ts.length := by
  obtain ⟨t, ht, hsquare⟩ := h.opener
  have hopen : t.opens = true := by simp [opens, hsquare]
  obtain ⟨hlt, hlength, -⟩ := ((findClosing_eq_some_iff ht hopen).1 h.closes).1
  exact ⟨hlt, hlength⟩

namespace Attributes

theorem of_shapes {ts us : List Token} {k i j : Nat} (h : Attributes ts k i j)
    (hshapes : ts.map shape = us.map shape) : Attributes us k i j := by
  induction h with
  | nil i => exact .nil i
  | cons hattribute _ ih => exact .cons (hattribute.of_shapes hshapes) ih

theorem of_drop {ts : List Token} {m k i j : Nat} (h : Attributes (ts.drop m) k i j) :
    Attributes ts k (m + i) (m + j) := by
  induction h with
  | nil i => exact .nil (m + i)
  | cons hattribute _ ih => exact .cons (isAttribute_drop_iff.1 hattribute) ih

/-- An attribute has three tokens at least. -/
theorem le {ts : List Token} {k i j : Nat} (h : Attributes ts k i j) (hi : i ≤ ts.length) :
    i + 3 * k ≤ j ∧ j ≤ ts.length := by
  induction h with
  | nil i => exact ⟨Nat.le_refl i, hi⟩
  | cons hattribute _ ih =>
    have hlt := hattribute.lt
    have := ih hlt.2
    omega

end Attributes

/-- The place behind the first tokens. -/
def stopOf (ts : List Token) : Nat → Nat
  | 0 => 0
  | j + 1 => (ts[j]?.map stop).getD 0

theorem stopOf_of_getElem? {ts : List Token} {j : Nat} {t : Token} (h : ts[j]? = some t) :
    stopOf ts (j + 1) = t.stop := by
  rw [stopOf, h]
  rfl

theorem stopOf_add {ts us : List Token} {m n j : Nat} (hm : stopOf ts m = n)
    (hus : us.map (shift n) = ts.drop m) (hj : j ≤ us.length) : stopOf ts (m + j) = n + stopOf us j := by
  cases j with
  | zero => exact hm
  | succ j =>
    have hu := List.getElem?_eq_getElem hj
    have ht : ts[m + j]? = some (us[j].shift n) := by
      rw [← List.getElem?_drop, ← hus, List.getElem?_map, hu]
      rfl
    rw [stopOf_of_getElem? hu, ← Nat.add_assoc, stopOf_of_getElem? ht]
    exact Nat.add_comm _ _

end Token

namespace Text

open Token

/-! ## Texts behind attributes -/

/-- A text divided behind its first tokens is lexed part by part. -/
theorem tokens_behind {s : Text} {j : Nat} (hj : j ≤ s.tokens.length) :
    tokens (s.take (stopOf s.tokens j)) = s.tokens.take j ∧
      (tokens (s.drop (stopOf s.tokens j))).map (shift (stopOf s.tokens j)) = s.tokens.drop j := by
  cases j with
  | zero =>
    have hshift : shift 0 = id := rfl
    rw [stopOf, List.take_zero, List.take_zero, tokens_eq_tokensAt, tokensAt_nil, List.drop_zero,
      List.drop_zero, hshift, List.map_id]
    exact ⟨rfl, rfl⟩
  | succ j =>
    have ht := List.getElem?_eq_getElem hj
    rw [stopOf_of_getElem? ht]
    exact ⟨(tokens_take ht).2, tokens_drop ht⟩

theorem map_shape_shift (ts : List Token) (n : Nat) : (ts.map (shift n)).map shape = ts.map shape := by
  rw [List.map_map]
  rfl

theorem attributeEnd?_iff_isAttribute {s : Text} {n : Nat} : attributeEnd? s = some n ↔
    ∃ close, IsAttribute s.tokens 0 close ∧ stopOf s.tokens (close + 1) = n := by
  rw [attributeEnd?_eq_some_iff]
  constructor
  · rintro ⟨hash, opener, close, closer, hzero, hone, hhash, hopener, hclose, hcloser, rfl⟩
    exact ⟨close, ⟨⟨hash, hzero, hhash⟩, ⟨opener, hone, hopener⟩, hclose⟩, stopOf_of_getElem? hcloser⟩
  · rintro ⟨close, h, rfl⟩
    obtain ⟨hash, hzero, hhash⟩ := h.hash
    obtain ⟨opener, hone, hopener⟩ := h.opener
    have hcloser := List.getElem?_eq_getElem h.lt.2
    exact ⟨hash, opener, close, _, hzero, hone, hhash, hopener, h.closes, hcloser,
      (stopOf_of_getElem? hcloser).symm⟩

theorem attributeEnd?_eq_none_iff {s : Text} :
    attributeEnd? s = none ↔ ∀ close, ¬ IsAttribute s.tokens 0 close := by
  simp only [Option.eq_none_iff_forall_ne_some, ne_eq, attributeEnd?_iff_isAttribute, not_exists, not_and]
  exact ⟨fun h close hclose => h _ close hclose rfl, fun h n close hclose => absurd hclose (h close)⟩

/-- `k` rounds, each of which takes one attribute away, leave a text with none in front. -/
inductive Rounds : Nat → Text → Text → Prop
  | done {s : Text} (h : attributeEnd? s = none) : Rounds 0 s s
  | round {k n : Nat} {s rest : Text} (h : attributeEnd? s = some n)
      (hrest : Rounds k (s.drop n) rest) : Rounds (k + 1) s rest

/-- The rounds that take a text down to what is left of it, and the attributes that they take away. -/
theorem exists_rounds (s : Text) : ∃ k j, Attributes s.tokens k 0 j ∧
    (∀ close, ¬ IsAttribute s.tokens j close) ∧ Rounds k s (s.drop (stopOf s.tokens j)) ∧
      s.withoutAttributes = trim (s.drop (stopOf s.tokens j)) := by
  fun_induction withoutAttributes s with
  | case1 s h => exact ⟨0, 0, .nil 0, attributeEnd?_eq_none_iff.1 h, .done h, rfl⟩
  | case2 s n h _ ih =>
    obtain ⟨k, j, hattributes, hnone, hrounds, htrim⟩ := ih
    obtain ⟨close, hattribute, hstop⟩ := attributeEnd?_iff_isAttribute.1 h
    -- What is left has the tokens behind the attribute, at other places.
    have hbehind := (tokens_behind (Nat.succ_le_of_lt hattribute.lt.2)).2
    rw [hstop] at hbehind
    have hshapes : (tokens (s.drop n)).map shape = (s.tokens.drop (close + 1)).map shape := by
      rw [← hbehind, map_shape_shift]
    have hj := (hattributes.le (Nat.zero_le _)).2
    have hplace := stopOf_add hstop hbehind hj
    have hdrop : s.drop (stopOf s.tokens (close + 1 + j)) =
        (s.drop n).drop (stopOf (tokens (s.drop n)) j) := by rw [hplace, List.drop_drop]
    refine ⟨k + 1, close + 1 + j, .cons hattribute (hattributes.of_shapes hshapes).of_drop, ?_, ?_, ?_⟩
    · intro close' hclose'
      have hle := hclose'.lt.1
      obtain ⟨m, rfl⟩ := Nat.exists_eq_add_of_le (show close + 1 ≤ close' by omega)
      exact hnone m ((isAttribute_drop_iff.2 hclose').of_shapes hshapes.symm)
    · rw [hdrop]
      exact .round h hrounds
    · rw [hdrop]
      exact htrim

/-- The attributes that the tokens of a text begin with are taken away, each of them a hash and a square
bracket with everything up to its partner, and no other token is. This takes as many rounds as there are
attributes. What is left begins with no attribute that is closed, and stays as it is from then on. A text
whose first square bracket is never closed is only trimmed. -/
theorem withoutAttributes_exact (s : Text) :
    (∃ k j, Attributes s.tokens k 0 j ∧ (∀ close, ¬ IsAttribute s.tokens j close) ∧
      3 * k ≤ s.tokens.length ∧ Rounds k s (s.drop (stopOf s.tokens j)) ∧
      s.withoutAttributes = trim (s.drop (stopOf s.tokens j)) ∧
      tokens (s.take (stopOf s.tokens j)) = s.tokens.take j ∧
      s.withoutAttributes.tokens.map shape = (s.tokens.drop j).map shape) ∧
    (∀ close, ¬ IsAttribute s.withoutAttributes.tokens 0 close) ∧
    s.withoutAttributes.withoutAttributes = s.withoutAttributes ∧
    (findClosing s.tokens 1 = none → s.withoutAttributes = trim s) := by
  obtain ⟨k, j, hattributes, hnone, hrounds, htrim⟩ := exists_rounds s
  obtain ⟨hle, hj⟩ := hattributes.le (Nat.zero_le _)
  obtain ⟨hfront, hbehind⟩ := tokens_behind hj
  have hshapes : s.withoutAttributes.tokens.map shape = (s.tokens.drop j).map shape := by
    rw [htrim, shapes_trim, ← hbehind, map_shape_shift]
  have hnone' : ∀ close, ¬ IsAttribute s.withoutAttributes.tokens 0 close := by
    intro close hclose
    exact hnone _ (isAttribute_drop_iff.1 (hclose.of_shapes hshapes))
  refine ⟨⟨k, j, hattributes, hnone, by omega, hrounds, htrim, hfront, hshapes⟩, hnone', ?_, ?_⟩
  · rw [withoutAttributes_of_none (attributeEnd?_eq_none_iff.2 hnone'), withoutAttributes_trim]
  · intro hopen
    refine withoutAttributes_of_none (attributeEnd?_eq_none_iff.2 fun close hclose => ?_)
    rw [hclose.closes] at hopen
    simp at hopen

/-- Attributes with a bracket in a string and with brackets in brackets. -/
def attributedText : Text := "#[doc = \"]\"] #[cfg(x[0])]\n  a: u8 "

/-- An attribute that is never closed. -/
def openText : Text := " #[cfg(a) b: [u8; 2]"

theorem withoutAttributes_exact_open :
    (∃ k j, Attributes attributedText.tokens k 0 j ∧
      Rounds k attributedText (attributedText.drop (stopOf attributedText.tokens j)) ∧
      "a: u8".toList = trim (attributedText.drop (stopOf attributedText.tokens j))) ∧
    findClosing openText.tokens 1 = none ∧
    openText.withoutAttributes = "#[cfg(a) b: [u8; 2]".toList := by
  have hattributed : attributedText.withoutAttributes = "a: u8".toList := by
    rw [withoutAttributes_of_some (n := 12) (by decide +kernel),
      withoutAttributes_of_some (n := 13) (by decide +kernel),
      withoutAttributes_of_none (by decide +kernel)]
    decide +kernel
  have hopen : findClosing openText.tokens 1 = none := by decide +kernel
  obtain ⟨k, j, hattributes, -, -, hrounds, htrim, -⟩ := (withoutAttributes_exact attributedText).1
  rw [hattributed] at htrim
  refine ⟨⟨k, j, hattributes, hrounds, htrim⟩, hopen, ?_⟩
  rw [(withoutAttributes_exact openText).2.2.2 hopen]
  decide +kernel

end Text

end DocScaffold
