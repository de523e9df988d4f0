import DocScaffold.Proofs.Starts

/-!
# Functions among the first tokens

Brackets, generic lists and functions are found by the outlines of tokens alone, and what is found among
the first tokens of a list is found without the rest of it (`locate?_of_append`,
`findClosing_of_append`).
-/

namespace DocScaffold

namespace Token

/-! ## Outlines -/

theorem closingFrom_outline (depth : Int) (ts : List Token) :
    closingFrom depth (ts.map outline) = closingFrom depth ts := by
  induction ts generalizing depth with
  | nil => rfl
  | cons t ts ih => simp only [List.map_cons, closingFrom, outline_opens, outline_closes, ih]

theorem findClosing_outline (ts : List Token) (i : Nat) :
    findClosing (ts.map outline) i = findClosing ts i := by
  rw [findClosing, ← List.map_drop, closingFrom_outline, findClosing]

theorem angleLength_outline (depth : Int) (ts : List Token) :
    angleLength depth (ts.map outline) = angleLength depth ts := by
  induction ts generalizing depth with
  | nil => rfl
  | cons t ts ih => simp only [List.map_cons, angleLength, outline_isPunct, ih]

theorem skipAngles_outline (ts : List Token) (i : Nat) :
    skipAngles (ts.map outline) i = skipAngles ts i := by
  rw [skipAngles, skipAngles, ← List.map_drop]
  cases ts.drop i with
  | nil => rfl
  | cons t rest =>
    rw [List.map_cons]
    dsimp only
    rw [outline_isPunct, ← List.map_cons, angleLength_outline]

/-! ## First tokens -/

theorem closingFrom_of_append {depth : Int} {ts us : List Token} {i : Nat}
    (h : closingFrom depth (ts ++ us) = some i) (hi : i < ts.length) :
    closingFrom depth ts = some i := by
  fun_induction closingFrom depth ts generalizing i with
  | case1 => simp at hi
  | case2 depth t ts hopens ih =>
    rw [List.cons_append, closingFrom, if_pos hopens] at h
    obtain ⟨j, hj, rfl⟩ := Option.map_eq_some_iff.1 h
    rw [ih hj (Nat.lt_of_succ_lt_succ hi)]
    rfl
  | case3 depth t ts hopens hcloses hzero =>
    rwa [List.cons_append, closingFrom, if_neg hopens, if_pos hcloses, if_pos hzero] at h
  | case4 depth t ts hopens hcloses hzero ih =>
    rw [List.cons_append, closingFrom, if_neg hopens, if_pos hcloses, if_neg hzero] at h
    obtain ⟨j, hj, rfl⟩ := Option.map_eq_some_iff.1 h
    rw [ih hj (Nat.lt_of_succ_lt_succ hi)]
    rfl
  | case5 depth t ts hopens hcloses ih =>
    rw [List.cons_append, closingFrom, if_neg hopens, if_neg hcloses] at h
    obtain ⟨j, hj, rfl⟩ := Option.map_eq_some_iff.1 h
    rw [ih hj (Nat.lt_of_succ_lt_succ hi)]
    rfl

/-- A bracket that closes among the first tokens does so whatever follows. -/
theorem findClosing_of_append {ts us : List Token} {i j : Nat} (h : findClosing (ts ++ us) i = some j)
    (hj : j < ts.length) : findClosing ts i = some j := by
  have hle := (findClosing_lt h).1
  obtain ⟨k, hk, rfl⟩ := Option.map_eq_some_iff.1 h
  rw [List.drop_append_of_le_length (by omega)] at hk
  rw [findClosing, closingFrom_of_append hk (by rw [List.length_drop]; omega)]
  rfl

theorem angleLength_pos {depth : Int} {ts : List Token} {n : Nat} (h : angleLength depth ts = some n) :
    0 < n := by
  fun_induction angleLength depth ts with
  | case1 | case5 => simp at h
  | case3 =>
    obtain rfl := Option.some.inj h
    exact Nat.one_pos
  | case2 | case4 | case6 =>
    obtain ⟨m, -, rfl⟩ := Option.map_eq_some_iff.1 h
    exact Nat.succ_pos m

theorem angleLength_of_append {depth : Int} {ts us : List Token} {n : Nat}
    (h : angleLength depth (ts ++ us) = some n) (hn : n ≤ ts.length) :
    angleLength depth ts = some n := by
  fun_induction angleLength depth ts generalizing n with
  | case1 => exact absurd (angleLength_pos h) (Nat.not_lt.2 hn)
  | case2 depth t ts hup ih =>
    rw [List.cons_append, angleLength, if_pos hup] at h
    obtain ⟨m, hm, rfl⟩ := Option.map_eq_some_iff.1 h
    rw [ih hm (Nat.le_of_succ_le_succ hn)]
    rfl
  | case3 depth t ts hup hdown hzero =>
    rwa [List.cons_append, angleLength, if_neg hup, if_pos hdown, if_pos hzero] at h
  | case4 depth t ts hup hdown hzero ih =>
    rw [List.cons_append, angleLength, if_neg hup, if_pos hdown, if_neg hzero] at h
    obtain ⟨m, hm, rfl⟩ := Option.map_eq_some_iff.1 h
    rw [ih hm (Nat.le_of_succ_le_succ hn)]
    rfl
  | case5 depth t ts hup hdown hstop =>
    rwa [List.cons_append, angleLength, if_neg hup, if_neg hdown, if_pos hstop] at h
  | case6 depth t ts hup hdown hstop ih =>
    rw [List.cons_append, angleLength, if_neg hup, if_neg hdown, if_neg hstop] at h
    obtain ⟨m, hm, rfl⟩ := Option.map_eq_some_iff.1 h
    rw [ih hm (Nat.le_of_succ_le_succ hn)]
    rfl

/-- A generic list that ends among the first tokens does so whatever follows. -/
theorem skipAngles_of_append {ts us : List Token} {i j : Nat} (h : skipAngles (ts ++ us) i = some j)
    (hj : j < ts.length) : skipAngles ts i = some j := by
  have hle := le_of_skipAngles h
  rw [skipAngles, List.drop_append_of_le_length (by omega)] at h
  rw [skipAngles]
  cases hdrop : ts.drop i with
  | nil =>
    rw [List.drop_eq_nil_iff] at hdrop
    omega
  | cons t rest =>
    have hlength := congrArg List.length hdrop
    rw [List.length_drop] at hlength
    rw [hdrop, List.cons_append] at h
    dsimp only at h ⊢
    split at h
    · rename_i hopens
      obtain ⟨n, hn, rfl⟩ := Option.map_eq_some_iff.1 h
      rw [← List.cons_append] at hn
      rw [if_pos hopens, angleLength_of_append hn (by omega)]
      rfl
    · rename_i hopens
      rw [if_neg hopens]
      exact h

end Token

/-! ## Functions -/

namespace Item.Function

open Token

/-- The function that begins at index `i`, located with its parenthesis. -/
def locateAt? (ts : List Token) (i : Nat) : Option (Nat × Nat) := do
  let keyword ← ts[i]?
  let name ← ts[i + 1]?
  if keyword.isIdent "fn" && name.kind == .ident then
    let opened ← skipAngles ts (i + 2)
    let opener ← ts[opened]?
    if opener.isPunct ['('] then some (i, opened) else none
  else none

theorem locateAt?_outline (ts : List Token) (i : Nat) :
    locateAt? (ts.map outline) i = locateAt? ts i := by
  rw [locateAt?, locateAt?, skipAngles_outline]
  cases hkeyword : ts[i]? with
  | none => simp [hkeyword]
  | some keyword =>
    cases hname : ts[i + 1]? with
    | none => simp [hkeyword, hname]
    | some name =>
      cases hskip : skipAngles ts (i + 2) with
      | none => simp [hkeyword, hname]
      | some opened =>
        cases hopener : ts[opened]? with
        | none => simp [hkeyword, hname, hopener]
        | some opener => simp [hkeyword, hname, hopener]

/-- A function at an index is `fn` with a name, and its parenthesis. -/
theorem locateAt?_eq_some_iff {ts : List Token} {i : Nat} {p : Nat × Nat} :
    locateAt? ts i = some p ↔ p.1 = i ∧ ∃ keyword name opener, ts[i]? = some keyword ∧
      ts[i + 1]? = some name ∧ ts[p.2]? = some opener ∧
      (keyword.isIdent "fn" && name.kind == .ident) = true ∧ skipAngles ts (i + 2) = some p.2 ∧
      opener.isPunct ['('] = true := by
  obtain ⟨j, opened⟩ := p
  constructor
  · intro h
    rw [locateAt?] at h
    simp only [Option.bind_eq_bind, Option.bind_eq_some_iff] at h
    obtain ⟨keyword, hkeyword, name, hname, h⟩ := h
    split at h
    · rename_i hbegin
      simp only [Option.bind_eq_some_iff] at h
      obtain ⟨opened', hskip, opener, hopener, h⟩ := h
      split at h
      · rename_i hround
        simp only [Option.some.injEq, Prod.mk.injEq] at h
        obtain ⟨rfl, rfl⟩ := h
        exact ⟨rfl, keyword, name, opener, hkeyword, hname, hopener, hbegin, hskip, hround⟩
      · simp at h
    · simp at h
  · rintro ⟨rfl, keyword, name, opener, hkeyword, hname, hopener, hbegin, hskip, hround⟩
    rw [locateAt?]
    simp only [hkeyword, hname, hskip, hopener, hbegin, hround, Option.bind_eq_bind,
      Option.bind_some, if_true]

theorem locateAt?_append {ts : List Token} {i : Nat} {p : Nat × Nat} (h : locateAt? ts i = some p)
    (us : List Token) : locateAt? (ts ++ us) i = some p := by
  rw [locateAt?_eq_some_iff] at h ⊢
  obtain ⟨hi, keyword, name, opener, hkeyword, hname, hopener, hbegin, hskip, hround⟩ := h
  exact ⟨hi, keyword, name, opener, getElem?_of_append hkeyword us, getElem?_of_append hname us,
    getElem?_of_append hopener us, hbegin,
    skipAngles_append hskip (List.getElem?_eq_some_iff.1 hopener).1, hround⟩

theorem locateAt?_of_append {ts us : List Token} {i : Nat} {p : Nat × Nat}
    (h : locateAt? (ts ++ us) i = some p) (hp : p.2 < ts.length) : locateAt? ts i = some p := by
  rw [locateAt?_eq_some_iff] at h ⊢
  obtain ⟨hi, keyword, name, opener, hkeyword, hname, hopener, hbegin, hskip, hround⟩ := h
  have hle := le_of_skipAngles hskip
  rw [List.getElem?_append_left (by omega)] at hkeyword hname hopener
  exact ⟨hi, keyword, name, opener, hkeyword, hname, hopener, hbegin,
    skipAngles_of_append hskip hp, hround⟩

/-- The function that is located is the first one. -/
theorem locate?_eq_some_iff {ts : List Token} {p : Nat × Nat} :
    locate? ts = some p ↔ locateAt? ts p.1 = some p ∧ ∀ j < p.1, locateAt? ts j = none := by
  have hlocate : locate? ts = (List.range (ts.length - 2)).findSome? (locateAt? ts) := rfl
  rw [hlocate, List.findSome?_eq_some_iff, List.range_eq_range']
  constructor
  · rintro ⟨front, i, back, hrange, hp, hfront⟩
    obtain rfl : p.1 = i := (locateAt?_eq_some_iff.1 hp).1
    obtain ⟨k, -, rfl, hrest⟩ := List.range'_eq_append_iff.1 hrange
    have hk := (List.range'_eq_cons_iff.1 hrest.symm).1
    refine ⟨hp, fun j hj => hfront j ?_⟩
    rw [List.mem_range'_1]
    omega
  · rintro ⟨hp, hfirst⟩
    obtain ⟨-, keyword, name, opener, -, -, hopener, -, hskip, -⟩ := locateAt?_eq_some_iff.1 hp
    have hle := le_of_skipAngles hskip
    have hlt := (List.getElem?_eq_some_iff.1 hopener).1
    have hrest : 0 < ts.length - 2 - p.1 := by omega
    refine ⟨List.range' 0 p.1, p.1, List.range' (p.1 + 1) (ts.length - 2 - p.1 - 1), ?_, hp, ?_⟩
    · refine List.range'_eq_append_iff.2 ⟨p.1, by omega, rfl, ?_⟩
      rw [Nat.zero_add, Nat.mul_one]
      exact (List.range'_eq_cons_iff.2 ⟨rfl, hrest, rfl⟩).symm
    · intro j hj
      rw [List.mem_range'_1] at hj
      exact hfirst j (by omega)

theorem locate?_outline (ts : List Token) : locate? (ts.map outline) = locate? ts := by
  apply Option.ext
  intro p
  rw [locate?_eq_some_iff, locate?_eq_some_iff]
  simp only [locateAt?_outline]

/-- A function whose parenthesis is among the first tokens is located without the rest. -/
theorem locate?_of_append {ts us : List Token} {p : Nat × Nat} (h : locate? (ts ++ us) = some p)
    (hp : p.2 < ts.length) : locate? ts = some p := by
  rw [locate?_eq_some_iff] at h ⊢
  refine ⟨locateAt?_of_append h.1 hp, fun j hj => ?_⟩
  cases hj' : locateAt? ts j with
  | none => rfl
  | some q => exact absurd (locateAt?_append hj' us) (by simp [h.2 j hj])

end Item.Function

end DocScaffold
