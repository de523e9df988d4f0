import Mathlib.Order.Bounds.Basic
import DocScaffold.Proofs.Angles
import DocScaffold.Proofs.Entries
import DocScaffold.Proofs.Segments

/-!
# Partners of brackets

The partner of a bracket is found by counting, without regard to kinds: it is the first token up to which
as many brackets close as open. Among brackets that are nested it is the closer of the same kind, and the
text between the two has the tokens between them (`findClosing_exact`).
-/

namespace DocScaffold

open Text

namespace Token

/-! ## Brackets by brackets -/

theorem bracketDepth_cons (t : Token) (ts : List Token) :
    bracketDepth (t :: ts) = bracketDepth [t] + bracketDepth ts := bracketDepth_append [t] ts

theorem neg_one_le_bracketDepth (t : Token) : -1 ≤ bracketDepth [t] := by
  by_cases hopens : t.opens = true
  · rw [bracketDepth_opener hopens]
    decide
  · rw [Bool.not_eq_true] at hopens
    by_cases hcloses : t.closes = true
    · rw [bracketDepth_closer hopens hcloses]
    · rw [Bool.not_eq_true] at hcloses
      rw [bracketDepth_other hopens hcloses]
      decide

/-- Inside brackets a token either brings the depth to zero, or the search goes on at another depth. -/
theorem closingFrom_cons {depth : Int} (hdepth : 0 < depth) (t : Token) (ts : List Token) :
    closingFrom depth (t :: ts) =
      if depth + bracketDepth [t] = 0 then some 0
      else (closingFrom (depth + bracketDepth [t]) ts).map (· + 1) := by
  rw [closingFrom]
  by_cases hopens : t.opens = true
  · rw [if_pos hopens, bracketDepth_opener hopens, if_neg (by omega)]
  · rw [if_neg hopens]
    rw [Bool.not_eq_true] at hopens
    by_cases hcloses : t.closes = true
    · rw [if_pos hcloses, bracketDepth_closer hopens hcloses, ← Int.sub_eq_add_neg]
    · rw [if_neg hcloses]
      rw [Bool.not_eq_true] at hcloses
      rw [bracketDepth_other hopens hcloses, Int.add_zero, if_neg (by omega)]

/-- The depth comes back to zero for the first time. -/
theorem closingFrom_eq_find? {depth : Int} (hdepth : 0 < depth) (ts : List Token) :
    closingFrom depth ts =
      (List.range ts.length).find? fun n => depth + bracketDepth (ts.take (n + 1)) == 0 := by
  induction ts generalizing depth with
  | nil => rfl
  | cons t ts ih =>
    have hsucc : (fun n => depth + bracketDepth ((t :: ts).take (n + 1)) == 0) ∘ Nat.succ =
        fun n => depth + bracketDepth [t] + bracketDepth (ts.take (n + 1)) == 0 := by
      funext n
      rw [Function.comp_apply, List.take_succ_cons, bracketDepth_cons, Int.add_assoc]
    rw [closingFrom_cons hdepth, List.length_cons, List.range_succ_eq_map, List.find?_cons,
      List.find?_map, hsucc, List.take_succ_cons, List.take_zero]
    by_cases hzero : depth + bracketDepth [t] = 0
    · rw [if_pos hzero, hzero]
      rfl
    · have hpos : 0 < depth + bracketDepth [t] := by
        have := neg_one_le_bracketDepth t
        omega
      rw [if_neg hzero, beq_false_of_ne hzero, ih hpos]

/-! ## Stretches from a bracket on -/

/-- As many brackets close as open from index `i` up to index `j`. -/
def IsLevel (ts : List Token) (i j : Nat) : Prop :=
  (stretch ts i j).countP opens = (stretch ts i j).countP closes

/-- The tokens between index `i` and index `j`. -/
def inside (ts : List Token) (i j : Nat) : List Token := (ts.take j).drop (i + 1)

theorem isLevel_iff {ts : List Token} {i j : Nat} :
    IsLevel ts i j ↔ bracketDepth (stretch ts i j) = 0 := by
  rw [IsLevel, bracketDepth]
  omega

section

variable {ts : List Token} {i : Nat} {t : Token} (ht : ts[i]? = some t) (hopen : t.opens = true)

include ht

theorem stretch_self : stretch ts i i = [t] := by
  rw [stretch, drop_eq_cons ht, Nat.add_sub_cancel_left, List.take_succ_cons, List.take_zero]

include hopen

theorem findClosing_eq_find? : findClosing ts i =
    ((List.range (ts.length - (i + 1))).find? fun n =>
      bracketDepth (stretch ts i (n + (i + 1))) == 0).map (· + (i + 1)) := by
  have hdepth : ∀ n, 1 + bracketDepth ((ts.drop (i + 1)).take (n + 1)) =
      bracketDepth (stretch ts i (n + (i + 1))) := by
    intro n
    have hlength : n + (i + 1) + 1 - i = n + 1 + 1 := by omega
    rw [stretch, drop_eq_cons ht, hlength, List.take_succ_cons, bracketDepth_cons t,
      bracketDepth_opener hopen]
  rw [findClosing, drop_eq_cons ht, closingFrom, if_pos hopen, Int.zero_add,
    closingFrom_eq_find? Int.one_pos, List.length_drop, Option.map_map]
  simp only [hdepth]
  refine congrArg (Option.map · _) ?_
  funext n
  rw [Function.comp_apply]
  omega

/-- The partner is the least index up to which the brackets are level. -/
theorem findClosing_eq_some_iff {j : Nat} :
    findClosing ts i = some j ↔ IsLeast {j | i < j ∧ j < ts.length ∧ IsLevel ts i j} j := by
  simp only [findClosing_eq_find? ht hopen, Option.map_eq_some_iff, List.find?_range_eq_some,
    List.mem_range, beq_iff_eq, ← isLevel_iff, Bool.not_eq_true', beq_eq_false_iff_ne, ne_eq]
  constructor
  · rintro ⟨n, ⟨hlevel, hn, hfirst⟩, rfl⟩
    refine ⟨⟨by omega, by omega, hlevel⟩, fun k ⟨hik, _, hk⟩ => ?_⟩
    by_contra hlt
    have hplace : k - (i + 1) + (i + 1) = k := by omega
    exact hfirst (k - (i + 1)) (by omega) (hplace.symm ▸ hk)
  · rintro ⟨⟨hij, hj, hlevel⟩, hleast⟩
    have hplace : j - (i + 1) + (i + 1) = j := by omega
    refine ⟨j - (i + 1), ⟨hplace.symm ▸ hlevel, by omega, fun n hn hk => ?_⟩, hplace⟩
    have := hleast ⟨by omega, by omega, hk⟩
    omega

theorem findClosing_eq_none_iff :
    findClosing ts i = none ↔ ∀ j, i < j → j < ts.length → ¬ IsLevel ts i j := by
  simp only [findClosing_eq_find? ht hopen, Option.map_eq_none_iff, List.find?_range_eq_none,
    Bool.not_eq_true', beq_eq_false_iff_ne, ne_eq, ← isLevel_iff]
  constructor
  · intro h j hij hj
    have hplace : j - (i + 1) + (i + 1) = j := by omega
    exact hplace ▸ h (j - (i + 1)) (by omega)
  · intro h n hn
    exact h _ (by omega) (by omega)

/-- In front of the partner the depth is not zero, and one token takes it down by one at most. -/
theorem bracketDepth_stretch_pos {k : Nat} (hik : i ≤ k) (hk : k < ts.length)
    (hfront : ∀ j, findClosing ts i = some j → k < j) : 0 < bracketDepth (stretch ts i k) := by
  induction k, hik using Nat.le_induction with
  | base =>
    rw [stretch_self ht, bracketDepth_opener hopen]
    decide
  | succ k hik ih =>
    have hpos := ih (by omega) fun j hj => by
      have := hfront j hj
      omega
    have hsucc : stretch ts i (k + 1) = stretch ts i k ++ [ts[k + 1]] := by
      have hlength : k + 1 + 1 - i = k + 1 - i + 1 := by omega
      have hplace : i + (k + 1 - i) = k + 1 := by omega
      rw [stretch, stretch, hlength, List.take_add_one, List.getElem?_drop, hplace,
        List.getElem?_eq_getElem hk]
      rfl
    have hlevel : ¬ IsLevel ts i (k + 1) := by
      intro hlevel
      cases hfind : findClosing ts i with
      | none => exact (findClosing_eq_none_iff ht hopen).1 hfind _ (by omega) hk hlevel
      | some j =>
        have hle := ((findClosing_eq_some_iff ht hopen).1 hfind).2 ⟨by omega, hk, hlevel⟩
        exact absurd (hfront j hfind) (Nat.not_lt.2 hle)
    rw [isLevel_iff, hsucc, bracketDepth_append] at hlevel
    rw [hsucc, bracketDepth_append]
    have := neg_one_le_bracketDepth ts[k + 1]
    omega

end

/-! ## Nested brackets -/

/-- An opening and a closing bracket of one kind. -/
def Pairs (opener closer : Token) : Prop :=
  ∃ pair ∈ brackets, opener.isPunct [pair.1] = true ∧ closer.isPunct [pair.2] = true

instance (opener closer : Token) : Decidable (Pairs opener closer) :=
  inferInstanceAs (Decidable (∃ _ ∈ _, _ ∧ _))

theorem Pairs.signs {opener closer : Token} (h : Pairs opener closer) :
    opener.opens = true ∧ closer.opens = false ∧ closer.closes = true := by
  obtain ⟨pair, hpair, hopener, hcloser⟩ := h
  simp only [brackets, List.mem_cons, List.not_mem_nil, or_false] at hpair
  rcases hpair with rfl | rfl | rfl <;>
    simp_all [opens, closes, isPunct_unique hcloser]

/-- Tokens in which each bracket has a partner of its kind. -/
inductive Nested : List Token → Prop
  | nil : Nested []
  | plain {t : Token} {rest : List Token} (hopens : t.opens = false) (hcloses : t.closes = false)
      (hrest : Nested rest) : Nested (t :: rest)
  | group {opener closer : Token} {inner rest : List Token} (hpairs : Pairs opener closer)
      (hinner : Nested inner) (hrest : Nested rest) : Nested (opener :: (inner ++ closer :: rest))

/-- Nothing is left open among nested brackets. -/
theorem Nested.exists_outside {ts : List Token} (h : Nested ts) :
    ∃ us, outside opens closes 0 ts = some us := by
  induction h with
  | nil => exact ⟨[], rfl⟩
  | @plain t rest hopens hcloses _ ih =>
    obtain ⟨us, hus⟩ := ih
    refine ⟨t :: us, ?_⟩
    rw [outside, hopens, hcloses, hus]
    rfl
  | @group opener closer inner rest hpairs _ _ ihinner ihrest =>
    obtain ⟨hopener, hcloser, hcloses⟩ := hpairs.signs
    obtain ⟨us, hus⟩ := ihinner
    obtain ⟨vs, hvs⟩ := ihrest
    have hwithin := outside_within (n := 0) (closer :: rest) hus
    refine ⟨vs, ?_⟩
    rw [outside, if_pos hopener, hwithin, outside, hcloser, hcloses]
    exact hvs

/-- A bracket in front of nested tokens is the opener of a group. -/
theorem Nested.exists_group {t : Token} {ts : List Token} (h : Nested (t :: ts))
    (hopen : t.opens = true) : ∃ inner closer rest, ts = inner ++ closer :: rest ∧ Pairs t closer ∧
      Nested inner := by
  cases h with
  | plain hopens => simp [hopen] at hopens
  | group hpairs hinner => exact ⟨_, _, _, rfl, hpairs, hinner⟩

/-- A group at index `i` ends at its closer. -/
theorem spec_of_drop {ts inner rest us : List Token} {i : Nat} {t closer : Token}
    (h : ts.drop i = t :: (inner ++ closer :: rest)) (hpairs : Pairs t closer)
    (hinner : outside opens closes 0 inner = some us) :
    findClosing ts i = some (i + (inner.length + 1)) ∧ ts[i + (inner.length + 1)]? = some closer ∧
      inside ts i (i + (inner.length + 1)) = inner := by
  have hsplit : ts = ts.take i ++ t :: (inner ++ closer :: rest) := by rw [← h, List.take_append_drop]
  have hfront : (ts.take i).length = i := by
    have := congrArg List.length h
    rw [List.length_drop, List.length_cons] at this
    rw [List.length_take]
    omega
  refine ⟨?_, ?_, ?_⟩
  · have hfind := (findClosing_group (ts.take i) rest hpairs.signs.1 hinner hpairs.signs.2).1
    rwa [← hsplit, hfront] at hfind
  · rw [← List.getElem?_drop, h, List.getElem?_cons_succ, List.getElem?_append_right (Nat.le_refl _),
      Nat.sub_self]
    rfl
  · have hlength : i + (inner.length + 1) - (i + 1) = inner.length := by omega
    rw [inside, List.drop_take, hlength, ← List.drop_drop, h, List.drop_succ_cons, List.drop_zero,
      List.take_left]

theorem findClosing_nested {ts : List Token} {i k : Nat} {t : Token} (ht : ts[i]? = some t)
    (hopen : t.opens = true) (hik : i ≤ k) (h : Nested (stretch ts i k)) :
    ∃ j ≤ k, ∃ u, findClosing ts i = some j ∧ ts[j]? = some u ∧ Pairs t u ∧ Nested (inside ts i j) := by
  have hlength : k + 1 - i = k - i + 1 := by omega
  rw [stretch, drop_eq_cons ht, hlength, List.take_succ_cons] at h
  obtain ⟨inner, closer, rest, hinside, hpairs, hinner⟩ := h.exists_group hopen
  have hbehind : inner ++ closer :: (rest ++ (ts.drop (i + 1)).drop (k - i)) = ts.drop (i + 1) := by
    rw [← List.cons_append, ← List.append_assoc, ← hinside, List.take_append_drop]
  have hdrop := drop_eq_cons ht
  rw [← hbehind] at hdrop
  have hle : inner.length + 1 ≤ k - i := by
    have := congrArg List.length hinside
    rw [List.length_take, List.length_append, List.length_cons] at this
    omega
  obtain ⟨us, hus⟩ := hinner.exists_outside
  obtain ⟨hfind, hcloser, heq⟩ := spec_of_drop hdrop hpairs hus
  exact ⟨_, by omega, closer, hfind, hcloser, hpairs, heq.symm ▸ hinner⟩

end Token

namespace Text

open Token

/-- The text behind a token has the tokens behind it. -/
theorem tokens_drop {s : Text} {n : Nat} {t : Token} (h : s.tokens[n]? = some t) :
    (tokens (s.drop t.stop)).map (shift t.stop) = s.tokens.drop (n + 1) := by
  have hdivided := tokens_divided (List.mem_of_getElem? h) (.inr rfl)
  rw [(tokens_take h).2] at hdivided
  exact (List.append_cancel_left ((List.take_append_drop (n + 1) _).trans hdivided)).symm

/-- The text between two tokens has the tokens between them. -/
theorem tokens_between {s : Text} {i j : Nat} {t u : Token} (ht : s.tokens[i]? = some t)
    (hu : s.tokens[j]? = some u) (hij : i < j) :
    (s.slice t.stop u.start).tokens.map (shift t.stop) = inside s.tokens i j := by
  have htake := (tokens_take hu).1
  have ht' : (tokens (s.take u.start))[i]? = some t := by
    rw [htake, List.getElem?_take_of_lt hij, ht]
  rw [slice, ← List.drop_take, tokens_drop ht', htake, inside]

/-- The text inside a bracket group has the tokens between the bracket and its partner. -/
theorem exists_bodyText {s : Text} {i j : Nat} {t : Token} (ht : s.tokens[i]? = some t)
    (hij : i < j) (hfind : findClosing s.tokens i = some j) :
    ∃ body, bodyText s s.tokens i = some body ∧
      body.tokens.map (shift t.stop) = inside s.tokens i j := by
  obtain ⟨u, hu⟩ : ∃ u, s.tokens[j]? = some u := ⟨_, List.getElem?_eq_getElem (findClosing_lt hfind).2⟩
  refine ⟨s.slice t.stop u.start, ?_, tokens_between ht hu hij⟩
  simp only [bodyText, ht, hfind, hu, Option.bind_eq_bind, Option.bind_some, Option.pure_def]

end Text

namespace Token

/-- The partner of a bracket is the least index behind it up to which as many brackets close as open, of
whatever kind, and there is none only if the brackets are level nowhere behind it; up to any index in
front of the partner more of them open than close. Where brackets are nested from the one at index `i`
on, its partner is of its own kind and what stands between the two is nested. The text inside has the
tokens between the two. -/
theorem findClosing_exact {ts : List Token} {i : Nat} {t : Token} (ht : ts[i]? = some t)
    (hopen : t.opens = true) :
    (∀ j, findClosing ts i = some j ↔ IsLeast {j | i < j ∧ j < ts.length ∧ IsLevel ts i j} j) ∧
      (findClosing ts i = none ↔ ∀ j, i < j → j < ts.length → ¬ IsLevel ts i j) ∧
      (∀ k, i ≤ k → k < ts.length → (∀ j, findClosing ts i = some j → k < j) →
        (stretch ts i k).countP closes < (stretch ts i k).countP opens) ∧
      (∀ k, i ≤ k → Nested (stretch ts i k) → ∃ j ≤ k, ∃ u, findClosing ts i = some j ∧
        ts[j]? = some u ∧ Pairs t u ∧ Nested (inside ts i j)) ∧
      ∀ s : Text, s.tokens = ts → ∀ j, findClosing ts i = some j →
        ∃ body, bodyText s ts i = some body ∧ body.tokens.map (shift t.stop) = inside ts i j := by
  refine ⟨fun j => findClosing_eq_some_iff ht hopen, findClosing_eq_none_iff ht hopen,
    fun k hik hk hfront => ?_, fun k hik h => findClosing_nested ht hopen hik h, ?_⟩
  · have hpos := bracketDepth_stretch_pos ht hopen hik hk hfront
    rw [bracketDepth] at hpos
    omega
  · rintro s rfl j hfind
    have hij := ((findClosing_eq_some_iff ht hopen).1 hfind).1.1
    exact exists_bodyText ht hij hfind

/-- Groups of all kinds, with a bracket in a string. -/
def groupText : Text := "([\")\"], a) \x7b b \x7d"

theorem findClosing_exact_group :
    groupText.tokens[0]? = some ⟨.punct, ['('], 0, 1⟩ ∧ Nested (stretch groupText.tokens 0 9) ∧
      ∃ j ≤ 9, ∃ u, IsLeast {j | 0 < j ∧ j < groupText.tokens.length ∧ IsLevel groupText.tokens 0 j} j ∧
        groupText.tokens[j]? = some u ∧ u.isPunct [')'] = true ∧ Nested (inside groupText.tokens 0 j) ∧
        ∃ body, bodyText groupText groupText.tokens 0 = some body ∧
          body.tokens.map (shift 1) = inside groupText.tokens 0 j := by
  have htokens : stretch groupText.tokens 0 9 = ⟨.punct, ['('], 0, 1⟩ ::
      ((⟨.punct, ['['], 1, 2⟩ :: ([⟨.string, "\")\"", 2, 5⟩] ++ ⟨.punct, [']'], 5, 6⟩ ::
        [⟨.punct, [','], 6, 7⟩, ⟨.ident, "a", 8, 9⟩])) ++ ⟨.punct, [')'], 9, 10⟩ ::
          (⟨.punct, ['\x7b'], 11, 12⟩ :: ([⟨.ident, "b", 13, 14⟩] ++ ⟨.punct, ['\x7d'], 15, 16⟩ :: []))) := by
    decide +kernel
  have hnested : Nested (stretch groupText.tokens 0 9) := by
    rw [htokens]
    exact .group (by decide)
      (.group (by decide) (.plain rfl rfl .nil) (.plain rfl rfl (.plain rfl rfl .nil)))
      (.group (by decide) (.plain rfl rfl .nil) .nil)
  have ht : groupText.tokens[0]? = some ⟨.punct, ['('], 0, 1⟩ := by decide +kernel
  have hexact := findClosing_exact ht (by decide)
  obtain ⟨j, hj, u, hfind, hu, hpairs, hinside⟩ := hexact.2.2.2.1 9 (Nat.zero_le 9) hnested
  have hround : u.isPunct [')'] = true := by
    obtain ⟨pair, hpair, hopener, hcloser⟩ := hpairs
    simp only [brackets, List.mem_cons, List.not_mem_nil, or_false] at hpair
    rcases hpair with rfl | rfl | rfl
    · exact hcloser
    · simp [isPunct] at hopener
    · simp [isPunct] at hopener
  exact ⟨ht, hnested, j, hj, u, (hexact.1 j).1 hfind, hu, hround, hinside,
    hexact.2.2.2.2 groupText rfl j hfind⟩

/-- A closer of another kind counts as well. -/
example : findClosing (tokens "(a]") 0 = some 2 := by decide +kernel

end Token

end DocScaffold
