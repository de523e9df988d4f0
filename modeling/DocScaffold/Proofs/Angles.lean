import DocScaffold.Item.Enum
import DocScaffold.Proofs.Heads

/-!
# The end of a generic list

A generic list ends where its signs balance for the first time. It is passed over as a whole exactly when
no brace and no semicolon stands in it: at such a sign the search for its end breaks off, also inside
brackets and in front of an end that is there (`skipAngles_exact`). Then the item in front of the list
is not located.
-/

namespace DocScaffold

namespace Token

/-! ## Signs by sign -/

/-- How far one token raises the depth of a generic list. -/
def angle (t : Token) : Int := netDepth '<' '>' [t]

theorem netDepth_cons_angle (t : Token) (ts : List Token) :
    netDepth '<' '>' (t :: ts) = t.angle + netDepth '<' '>' ts :=
  netDepth_append '<' '>' [t] ts

theorem not_angle_of_breaks {t : Token} (h : t.breaksAngles = true) :
    t.isPunct ['<'] = false ∧ t.isPunct ['>'] = false := by
  obtain ⟨c, hc, hsign⟩ := exists_of_breaksAngles h
  rcases hc with rfl | rfl
  · exact ⟨isPunct_unique hsign (by decide), isPunct_unique hsign (by decide)⟩
  · exact ⟨isPunct_unique hsign (by decide), isPunct_unique hsign (by decide)⟩

/-- Inside a generic list every token is one of three: a sign at which the search breaks off, the end of
the list, or a token behind which it goes on at another depth. -/
theorem angleLength_cons {depth : Int} (hdepth : 0 < depth) (t : Token) (ts : List Token) :
    angleLength depth (t :: ts) =
      if t.breaksAngles then none
      else if depth + t.angle = 0 then some 1
      else (angleLength (depth + t.angle) ts).map (· + 1) := by
  rw [angleLength, angle, netDepth, netDepth, Int.add_zero, ← breaksAngles]
  by_cases hup : t.isPunct ['<'] = true
  · have hbreaks : ¬ t.breaksAngles = true := fun h => by simp [(not_angle_of_breaks h).1] at hup
    rw [if_pos hup, if_pos hup, if_neg hbreaks, if_neg (by omega)]
  · rw [if_neg hup, if_neg hup]
    by_cases hdown : t.isPunct ['>'] = true
    · have hbreaks : ¬ t.breaksAngles = true := fun h => by simp [(not_angle_of_breaks h).2] at hdown
      rw [if_pos hdown, if_pos hdown, if_neg hbreaks, ← Int.sub_eq_add_neg]
    · rw [if_neg hdown, if_neg hdown, Int.add_zero, if_neg (show ¬ depth = 0 by omega)]

theorem neg_one_le_angle (t : Token) : -1 ≤ t.angle := by
  rw [angle, netDepth, netDepth]
  split
  · omega
  · split <;> omega

/-- A depth that is not zero comes back to zero in front of none of the first tokens exactly when it does
so in none of the tokens behind the first one. -/
theorem open_cons_iff {depth : Int} (hdepth : depth ≠ 0) (t : Token) (ts : List Token) (n : Nat) :
    (∀ k < n + 1, depth + netDepth '<' '>' ((t :: ts).take k) ≠ 0) ↔
      ∀ k < n, depth + t.angle + netDepth '<' '>' (ts.take k) ≠ 0 := by
  have hsucc : ∀ k, netDepth '<' '>' ((t :: ts).take (k + 1)) =
      t.angle + netDepth '<' '>' (ts.take k) := fun k => netDepth_cons_angle t _
  constructor
  · intro h k hk
    have hopen := h (k + 1) (by omega)
    rwa [hsucc, ← Int.add_assoc] at hopen
  · intro h k hk
    cases k with
    | zero =>
      rw [List.take_zero, netDepth]
      omega
    | succ k =>
      rw [hsucc, ← Int.add_assoc]
      exact h k (by omega)

/-- The list ends behind the first tokens that bring the depth to zero, if none of them breaks it
off. -/
theorem angleLength_eq_some_iff {depth : Int} (hdepth : 0 < depth) {ts : List Token} {n : Nat} :
    angleLength depth ts = some n ↔ n ≤ ts.length ∧ depth + netDepth '<' '>' (ts.take n) = 0 ∧
      (∀ k < n, depth + netDepth '<' '>' (ts.take k) ≠ 0) ∧
      ∀ t ∈ ts.take n, t.breaksAngles = false := by
  induction ts generalizing depth n with
  | nil =>
    simp only [angleLength, List.take_nil, netDepth, Int.add_zero]
    exact ⟨fun h => by simp at h, fun h => absurd h.2.1 (by omega)⟩
  | cons t ts ih =>
    rw [angleLength_cons hdepth]
    cases n with
    | zero =>
      -- A list has at least its end, and the depth in front of it is not zero.
      rw [List.take_zero, netDepth, Int.add_zero]
      refine ⟨fun h => ?_, fun h => absurd h.2.1 (by omega)⟩
      split at h
      · simp at h
      · split at h <;> simp at h
    | succ n =>
      rw [List.take_succ_cons, netDepth_cons_angle, ← Int.add_assoc, List.forall_mem_cons,
        List.length_cons, Nat.add_le_add_iff_right]
      rw [open_cons_iff (by omega)]
      cases hbreaks : t.breaksAngles with
      | true => simp
      | false =>
        rw [if_neg (by decide)]
        by_cases hzero : depth + t.angle = 0
        · rw [if_pos hzero, hzero]
          refine ⟨fun h => ?_, fun h => ?_⟩
          · obtain rfl : n = 0 := by simpa using h.symm
            simp [netDepth]
          · obtain ⟨-, -, hfirst, -⟩ := h
            cases n with
            | zero => rfl
            | succ n =>
              have := hfirst 0 (by omega)
              rw [List.take_zero, netDepth] at this
              omega
        · have hpos : 0 < depth + t.angle := by
            have hangle := neg_one_le_angle t
            omega
          rw [if_neg hzero, Option.map_eq_some_iff]
          simp only [Nat.add_right_cancel_iff, exists_eq_right, ih hpos, true_and]

/-! ## Generic lists among tokens -/

/-- The tokens from index `i` up to index `j`. -/
def stretch (ts : List Token) (i j : Nat) : List Token := (ts.drop i).take (j + 1 - i)

/-- A generic list goes from index `i` up to index `j`: `j` is the first index up to which its signs
balance. Arrows are signs of their own. -/
structure IsList (ts : List Token) (i j : Nat) : Prop where
  le : i ≤ j
  lt : j < ts.length
  balances : BalancesAtEnd '<' '>' (stretch ts i j)

/-- Neither a brace nor a semicolon stands from index `i` up to index `j`. -/
def Unbroken (ts : List Token) (i j : Nat) : Prop := ∀ t ∈ stretch ts i j, t.breaksAngles = false

instance (up down : Char) (ts : List Token) : Decidable (BalancesAtEnd up down ts) :=
  inferInstanceAs (Decidable (_ ∧ _))

instance (ts : List Token) (i j : Nat) : Decidable (IsList ts i j) :=
  decidable_of_iff (i ≤ j ∧ j < ts.length ∧ BalancesAtEnd '<' '>' (stretch ts i j))
    ⟨fun ⟨a, b, c⟩ => ⟨a, b, c⟩, fun ⟨a, b, c⟩ => ⟨a, b, c⟩⟩

instance (ts : List Token) (i j : Nat) : Decidable (Unbroken ts i j) :=
  inferInstanceAs (Decidable (∀ _ ∈ _, _))

section

variable {ts : List Token} {i : Nat} {t : Token} (ht : ts[i]? = some t)

include ht

theorem drop_eq_cons : ts.drop i = t :: ts.drop (i + 1) := by
  obtain ⟨hlt, hget⟩ := List.getElem?_eq_some_iff.1 ht
  rw [List.drop_eq_getElem_cons hlt, hget]

theorem stretch_eq_cons (m : Nat) : stretch ts i (i + m) = t :: (ts.drop (i + 1)).take m := by
  have hm : i + m + 1 - i = m + 1 := by omega
  rw [stretch, hm, drop_eq_cons ht, List.take_succ_cons]

variable (hopen : t.isPunct ['<'] = true)

include hopen

/-- A generic list is measured behind the sign at its front. -/
theorem skipAngles_of_opener {n : Nat} :
    skipAngles ts i = some n ↔ ∃ m, angleLength 1 (ts.drop (i + 1)) = some m ∧ n = i + 1 + m := by
  rw [skipAngles, drop_eq_cons ht]
  dsimp only
  rw [if_pos hopen, angleLength, if_pos hopen, Int.zero_add, Option.map_map,
    Option.map_eq_some_iff]
  refine exists_congr fun m => and_congr_right fun _ => ?_
  simp only [Function.comp_apply]
  omega

/-- What is measured behind the sign of a generic list is where the list ends. -/
theorem angleLength_eq_some_iff_isList {m : Nat} : angleLength 1 (ts.drop (i + 1)) = some m ↔
    IsList ts i (i + m) ∧ Unbroken ts i (i + m) := by
  have hlt := (List.getElem?_eq_some_iff.1 ht).1
  have hangle : t.angle = 1 := by rw [angle, netDepth, if_pos hopen, netDepth, Int.add_zero]
  have hbreaks : t.breaksAngles = false := by
    rw [breaksAngles, isPunct_unique hopen (by decide), isPunct_unique hopen (by decide)]
    rfl
  rw [angleLength_eq_some_iff (by decide), Unbroken, stretch_eq_cons ht, List.forall_mem_cons,
    List.length_drop, ← hangle, ← netDepth_cons_angle]
  constructor
  · rintro ⟨hle, hzero, hfirst, hplain⟩
    refine ⟨⟨by omega, by omega, ?_⟩, hbreaks, hplain⟩
    rw [stretch_eq_cons ht]
    refine ⟨hzero, fun k hk hpos => ?_⟩
    obtain ⟨k, rfl⟩ := Nat.exists_eq_add_one_of_ne_zero (Nat.ne_of_gt hpos)
    rw [List.length_cons, List.length_take] at hk
    rw [List.take_succ_cons, netDepth_cons_angle, List.take_take, Nat.min_eq_left (by omega)]
    exact hfirst k (by omega)
  · rintro ⟨⟨-, hlt', hbalance⟩, -, hplain⟩
    rw [stretch_eq_cons ht] at hbalance
    refine ⟨by omega, hbalance.1, fun k hk => ?_, hplain⟩
    have hopened := hbalance.2 (k + 1) (by
      rw [List.length_cons, List.length_take, List.length_drop]
      omega) (by omega)
    rwa [List.take_succ_cons, netDepth_cons_angle, List.take_take,
      Nat.min_eq_left (by omega)] at hopened

theorem skipAngles_eq_some_iff {n : Nat} :
    skipAngles ts i = some n ↔ ∃ j, n = j + 1 ∧ IsList ts i j ∧ Unbroken ts i j := by
  rw [skipAngles_of_opener ht hopen]
  constructor
  · rintro ⟨m, hm, rfl⟩
    exact ⟨i + m, by omega, (angleLength_eq_some_iff_isList ht hopen).1 hm⟩
  · rintro ⟨j, rfl, hj⟩
    obtain ⟨m, rfl⟩ := Nat.exists_eq_add_of_le hj.1.le
    exact ⟨m, (angleLength_eq_some_iff_isList ht hopen).2 hj, by omega⟩

end

theorem stretch_take {ts : List Token} {i j k : Nat} (hi : i ≤ j) (hk : j ≤ k) :
    (stretch ts i k).take (j + 1 - i) = stretch ts i j := by
  rw [stretch, stretch, List.take_take, Nat.min_eq_left (by omega)]

/-- A generic list has one end. -/
theorem IsList.unique {ts : List Token} {i j k : Nat} (hj : IsList ts i j) (hk : IsList ts i k) :
    j = k := by
  have hnot : ∀ {m n : Nat}, IsList ts i m → IsList ts i n → ¬ m < n := by
    intro m n hm hn hlt
    have hle := hm.le
    have hlength : m + 1 - i < (stretch ts i n).length := by
      have := hn.lt
      rw [stretch, List.length_take, List.length_drop]
      omega
    have hdepth := hn.balances.2 (m + 1 - i) hlength (by omega)
    rw [stretch_take hle (Nat.le_of_lt hlt)] at hdepth
    exact hdepth hm.balances.1
  have := hnot hj hk
  have := hnot hk hj
  omega

section

variable {ts : List Token} {i j : Nat} {t : Token} (ht : ts[i]? = some t) (hopen : t.isPunct ['<'] = true)
  (hlist : IsList ts i j)

include ht hopen hlist

theorem skipAngles_of_isList :
    skipAngles ts i = if Unbroken ts i j then some (j + 1) else none := by
  split
  · rename_i hplain
    exact (skipAngles_eq_some_iff ht hopen).2 ⟨j, rfl, hlist, hplain⟩
  · rename_i hbroken
    refine Option.eq_none_iff_forall_ne_some.2 fun n hn => ?_
    obtain ⟨k, -, hk, hplain⟩ := (skipAngles_eq_some_iff ht hopen).1 hn
    rw [hk.unique hlist] at hplain
    exact hbroken hplain

theorem skipAngles_end : skipAngles ts i = some (j + 1) ↔ Unbroken ts i j := by
  rw [skipAngles_of_isList ht hopen hlist]
  split <;> simp_all

end

end Token

/-! ## Items in front of a generic list -/

namespace Item

open Token

section

variable {ts : List Token} {k j : Nat} {t opener : Token} (ht : ts[k + 2]? = some t)
  (hopen : t.isPunct ['<'] = true) (hlist : IsList ts (k + 2) j) (hopener : ts[j + 1]? = some opener)

include ht hopen hlist hopener

theorem Function.locate?_iff_unbroken (hbegins : beginsAt ts k = true)
    (hfirst : ∀ m < k, beginsAt ts m = false) (hround : opener.isPunct ['('] = true) :
    locate? ts = some (k, j + 1) ↔ Unbroken ts (k + 2) j := by
  rw [← skipAngles_end ht hopen hlist]
  exact ⟨fun h => (spec_of_locate? h).2.1, fun h => locate?_eq hfirst hbegins h hopener hround⟩

/-- The body of a struct or of an enum is found behind the list. -/
theorem bodyIndex?_iff_unbroken (hword : opener.isIdent "where" = false) :
    (Struct.bodyIndex? ts k = some (j + 1) ↔ Unbroken ts (k + 2) j) ∧
      (opener.isPunct ['{'] = true →
        (Enum.bodyIndex? ts k = some (j + 1) ↔ Unbroken ts (k + 2) j)) := by
  have hskip := skipAngles_of_isList ht hopen hlist
  rw [Struct.bodyIndex?, Enum.bodyIndex?, hskip]
  by_cases hplain : Unbroken ts (k + 2) j
  · rw [if_pos hplain]
    simp only [hopener, hword, hplain, Option.bind_eq_bind, Option.bind_some, Option.pure_def,
      Bool.false_eq_true, if_false, iff_true, true_and]
    exact fun hbrace => if_pos hbrace
  · simp [hplain]

end

end Item

namespace Token

/-- A generic list is passed over up to its end when neither a brace nor a semicolon stands in it, whatever
else does. With one of them, also in the type of an array or in the default of a constant, it counts as
unterminated, just as one that has no end. So a function, a struct or an enum is located in front of the
list exactly when the list holds neither. -/
theorem skipAngles_exact {ts : List Token} {i : Nat} {t : Token} (ht : ts[i]? = some t)
    (hopen : t.isPunct ['<'] = true) :
    (∀ j, IsList ts i j → skipAngles ts i = if Unbroken ts i j then some (j + 1) else none) ∧
      ((∀ j, ¬ IsList ts i j) → skipAngles ts i = none) ∧
      ∀ k j opener, i = k + 2 → IsList ts i j → ts[j + 1]? = some opener →
        (Item.Function.beginsAt ts k = true → (∀ m < k, Item.Function.beginsAt ts m = false) →
          opener.isPunct ['('] = true →
            (Item.Function.locate? ts = some (k, j + 1) ↔ Unbroken ts i j)) ∧
        (opener.isPunct ['('] = true ∨ opener.isPunct ['{'] = true →
          (Item.Struct.bodyIndex? ts k = some (j + 1) ↔ Unbroken ts i j)) ∧
        (opener.isPunct ['{'] = true →
          (Item.Enum.bodyIndex? ts k = some (j + 1) ↔ Unbroken ts i j)) := by
  refine ⟨fun j hlist => skipAngles_of_isList ht hopen hlist, fun hnone => ?_, ?_⟩
  · refine Option.eq_none_iff_forall_ne_some.2 fun n hn => ?_
    obtain ⟨j, -, hlist, -⟩ := (skipAngles_eq_some_iff ht hopen).1 hn
    exact hnone j hlist
  · rintro k j opener rfl hlist hopener
    have hword : ∀ sign, opener.isPunct sign = true → opener.isIdent "where" = false := by
      intro sign hsign
      simp only [isPunct, Bool.and_eq_true, beq_iff_eq] at hsign
      simp [isIdent, hsign.1]
    refine ⟨fun hbegins hfirst hround =>
      Item.Function.locate?_iff_unbroken ht hopen hlist hopener hbegins hfirst hround,
      fun hsign => ?_, fun hbrace => ?_⟩
    · have hnot := hsign.elim (hword _) (hword _)
      exact (Item.bodyIndex?_iff_unbroken ht hopen hlist hopener hnot).1
    · exact (Item.bodyIndex?_iff_unbroken ht hopen hlist hopener (hword _ hbrace)).2 hbrace

/-- Arrows and nested lists in a generic list. -/
def callText : Text := "fn call<F: Fn(u8) -> Vec<[u8]>>(f: F)"

/-- An array in a generic list. -/
def arrayText : Text := "fn read<T: Into<[u8; 4]>>(t: T)"

theorem skipAngles_exact_array :
    (IsList callText.tokens 2 16 ∧ Item.Function.locate? callText.tokens = some (0, 17)) ∧
      IsList arrayText.tokens 2 13 ∧ skipAngles arrayText.tokens 2 = none := by
  have hcall : IsList callText.tokens 2 16 := by decide +kernel
  have hcallOpen : callText.tokens[2]? = some ⟨.punct, ['<'], 7, 8⟩ := by decide +kernel
  have harray : IsList arrayText.tokens 2 13 := by decide +kernel
  have harrayOpen : arrayText.tokens[2]? = some ⟨.punct, ['<'], 7, 8⟩ := by decide +kernel
  refine ⟨⟨hcall, ?_⟩, harray, ?_⟩
  · have hitems := (skipAngles_exact hcallOpen (by decide)).2.2 0 16 ⟨.punct, ['('], 31, 32⟩ rfl hcall
      (by decide +kernel)
    exact (hitems.1 (by decide +kernel) (fun m hm => absurd hm (Nat.not_lt_zero m)) (by decide)).2
      (by decide +kernel)
  · have hskip := (skipAngles_exact harrayOpen (by decide)).1 13 harray
    rwa [if_neg (by decide +kernel)] at hskip

end Token

end DocScaffold
