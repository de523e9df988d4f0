import DocScaffold.Item.Function
import DocScaffold.Proofs.Closed

/-!
# Tokens and their places

The tokens of a closed text stay where they are when another text follows, and those of the other text
are moved behind them (`tokens_append`). What has been found among the first tokens of a list is found
among all of them: the end of a bracket group, of a generic list and of a return type.
-/

namespace DocScaffold

/-! ## Moved tokens -/

namespace Token

/-- The token at a later place. -/
def shift (n : Nat) (t : Token) : Token := { t with start := t.start + n, stop := t.stop + n }

@[simp] theorem shift_kind (n : Nat) (t : Token) : (t.shift n).kind = t.kind := rfl

@[simp] theorem shift_value (n : Nat) (t : Token) : (t.shift n).value = t.value := rfl

@[simp] theorem shift_isIdent (n : Nat) (t : Token) (word : Text) :
    (t.shift n).isIdent word = t.isIdent word := rfl

@[simp] theorem shift_isPunct (n : Nat) (t : Token) (sign : Text) :
    (t.shift n).isPunct sign = t.isPunct sign := rfl

end Token

namespace Text

/-- The tokens of a text that begins at `offset`. -/
def tokensAt (offset : Nat) (s : Text) : List Token := Lexeme.tokensFrom offset (lexemes s)

theorem tokens_eq_tokensAt (s : Text) : s.tokens = tokensAt 0 s := rfl

@[simp] theorem tokensAt_nil (offset : Nat) : tokensAt offset [] = [] := by
  rw [tokensAt, lexemes_nil]
  rfl

theorem tokensFrom_append (offset : Nat) (ls ms : List Lexeme) :
    Lexeme.tokensFrom offset (ls ++ ms) =
      Lexeme.tokensFrom offset ls ++
        Lexeme.tokensFrom (offset + (ls.flatMap Lexeme.text).length) ms := by
  induction ls generalizing offset with
  | nil => rfl
  | cons l ls ih =>
    obtain ⟨kind, text⟩ := l
    cases kind <;> simp [Lexeme.tokensFrom, ih, Nat.add_assoc]

theorem tokensAt_append (offset : Nat) {s t : Text} (hclosed : isClosed s = true)
    (h : Apart s t) : tokensAt offset (s ++ t) = tokensAt offset s ++ tokensAt (offset + s.length) t := by
  rw [tokensAt, lexemes_append hclosed h, tokensFrom_append, flatMap_text_lexemes]
  rfl

theorem tokens_append {s t : Text} (hclosed : isClosed s = true) (h : Apart s t) :
    tokens (s ++ t) = tokens s ++ tokensAt s.length t := by
  have := tokensAt_append 0 hclosed h
  rwa [Nat.zero_add] at this

theorem tokensFrom_shift (offset n : Nat) (ls : List Lexeme) :
    Lexeme.tokensFrom (offset + n) ls = (Lexeme.tokensFrom offset ls).map (Token.shift n) := by
  induction ls generalizing offset with
  | nil => rfl
  | cons l ls ih =>
    obtain ⟨kind, text⟩ := l
    have hnext : offset + n + text.length = offset + text.length + n := by omega
    cases kind <;> simp [Lexeme.tokensFrom, hnext, ih, Token.shift]

theorem tokensAt_eq_shift (offset : Nat) (s : Text) :
    tokensAt offset s = s.tokens.map (Token.shift offset) := by
  have := tokensFrom_shift 0 offset (lexemes s)
  rwa [Nat.zero_add] at this

/-- A text of one lexeme is one token. -/
theorem tokensAt_of_lexemes {s : Text} {kind : Token.Kind} (offset : Nat)
    (h : lexemes s = [⟨.token kind, s⟩]) :
    tokensAt offset s = [⟨kind, s, offset, offset + s.length⟩] := by
  rw [tokensAt, h]
  rfl

/-! ## Parts of a text -/

theorem slice_append_left {s t : Text} {start stop : Nat} (h : stop ≤ s.length) :
    slice (s ++ t) start stop = slice s start stop := by
  unfold slice
  by_cases hstart : start ≤ s.length
  · rw [List.drop_append_of_le_length hstart, List.take_append_of_le_length]
    rw [List.length_drop]
    omega
  · have hzero : stop - start = 0 := by omega
    rw [hzero, List.take_zero, List.take_zero]

theorem slice_middle (a b c : Text) : slice (a ++ (b ++ c)) a.length (a.length + b.length) = b := by
  rw [slice, List.drop_left, Nat.add_sub_cancel_left, List.take_left]

end Text

/-! ## Brackets -/

namespace Token

/-- The tokens outside all brackets, with `depth` brackets open in front; nothing when a bracket closes
that is not open, or one stays open. -/
def outside (opens closes : Token → Bool) (depth : Nat) : List Token → Option (List Token)
  | [] => if depth = 0 then some [] else none
  | t :: rest =>
    if opens t then outside opens closes (depth + 1) rest
    else if closes t then if depth = 0 then none else outside opens closes (depth - 1) rest
    else if depth = 0 then (outside opens closes 0 rest).map (t :: ·)
    else outside opens closes depth rest

/-- How tokens are read outside all brackets: `us` are left over, with `depth` brackets open in front. -/
inductive Outside (opens closes : Token → Bool) : Nat → List Token → List Token → Prop
  | nil : Outside opens closes 0 [] []
  | opener {depth : Nat} {t : Token} {rest us : List Token} (hopens : opens t = true)
      (hrest : Outside opens closes (depth + 1) rest us) : Outside opens closes depth (t :: rest) us
  | closer {depth : Nat} {t : Token} {rest us : List Token} (hopens : opens t = false)
      (hcloses : closes t = true) (hrest : Outside opens closes depth rest us) :
      Outside opens closes (depth + 1) (t :: rest) us
  | outer {t : Token} {rest us : List Token} (hopens : opens t = false) (hcloses : closes t = false)
      (hrest : Outside opens closes 0 rest us) : Outside opens closes 0 (t :: rest) (t :: us)
  | inner {depth : Nat} {t : Token} {rest us : List Token} (hopens : opens t = false)
      (hcloses : closes t = false) (hrest : Outside opens closes (depth + 1) rest us) :
      Outside opens closes (depth + 1) (t :: rest) us

theorem outside_of_eq_some {opens closes : Token → Bool} {depth : Nat} {ts us : List Token}
    (h : outside opens closes depth ts = some us) : Outside opens closes depth ts us := by
  induction ts generalizing depth us with
  | nil =>
    cases depth with
    | zero =>
      obtain rfl : [] = us := by simpa [outside] using h
      exact .nil
    | succ depth => simp [outside] at h
  | cons t ts ih =>
    rw [outside] at h
    cases hopens : opens t with
    | true =>
      rw [if_pos hopens] at h
      exact .opener hopens (ih h)
    | false =>
      rw [if_neg (by simp [hopens])] at h
      cases hcloses : closes t with
      | true =>
        rw [if_pos hcloses] at h
        cases depth with
        | zero => simp at h
        | succ depth =>
          rw [if_neg (Nat.succ_ne_zero depth)] at h
          exact .closer hopens hcloses (ih h)
      | false =>
        rw [if_neg (by simp [hcloses])] at h
        cases depth with
        | zero =>
          obtain ⟨vs, hvs, rfl⟩ := Option.map_eq_some_iff.1 h
          exact .outer hopens hcloses (ih hvs)
        | succ depth =>
          rw [if_neg (Nat.succ_ne_zero depth)] at h
          exact .inner hopens hcloses (ih h)

theorem closingFrom_append {depth : Int} {ts us : List Token} {i : Nat}
    (h : closingFrom depth ts = some i) : closingFrom depth (ts ++ us) = some i := by
  fun_induction closingFrom depth ts generalizing i with
  | case1 => simp at h
  | case2 depth t ts hopens ih =>
    obtain ⟨j, hj, rfl⟩ := Option.map_eq_some_iff.1 h
    rw [List.cons_append, closingFrom, if_pos hopens, ih hj]
    rfl
  | case3 depth t ts hopens hcloses hzero =>
    rw [List.cons_append, closingFrom, if_neg hopens, if_pos hcloses, if_pos hzero]
    exact h
  | case4 depth t ts hopens hcloses hzero ih =>
    obtain ⟨j, hj, rfl⟩ := Option.map_eq_some_iff.1 h
    rw [List.cons_append, closingFrom, if_neg hopens, if_pos hcloses, if_neg hzero, ih hj]
    rfl
  | case5 depth t ts hopens hcloses ih =>
    obtain ⟨j, hj, rfl⟩ := Option.map_eq_some_iff.1 h
    rw [List.cons_append, closingFrom, if_neg hopens, if_neg hcloses, ih hj]
    rfl

theorem closingFrom_lt {depth : Int} {ts : List Token} {i : Nat} (h : closingFrom depth ts = some i) :
    i < ts.length := by
  fun_induction closingFrom depth ts generalizing i with
  | case1 => simp at h
  | case3 =>
    obtain rfl := Option.some.inj h
    exact Nat.succ_pos _
  | case2 depth t ts _ ih | case4 depth t ts _ _ _ ih | case5 depth t ts _ _ ih =>
    obtain ⟨j, hj, rfl⟩ := Option.map_eq_some_iff.1 h
    exact Nat.succ_lt_succ (ih hj)

theorem findClosing_append {ts us : List Token} {i j : Nat} (h : findClosing ts i = some j) :
    findClosing (ts ++ us) i = some j := by
  obtain ⟨k, hk, rfl⟩ := Option.map_eq_some_iff.1 h
  have hi : i ≤ ts.length := by
    have := closingFrom_lt hk
    rw [List.length_drop] at this
    omega
  rw [findClosing, List.drop_append_of_le_length hi, closingFrom_append hk]
  rfl

theorem findClosing_lt {ts : List Token} {i j : Nat} (h : findClosing ts i = some j) :
    i ≤ j ∧ j < ts.length := by
  obtain ⟨k, hk, rfl⟩ := Option.map_eq_some_iff.1 h
  have := closingFrom_lt hk
  rw [List.length_drop] at this
  omega

/-- A balanced group inside brackets is passed over. -/
theorem closingFrom_outside {ts us rest : List Token} {depth : Nat} {outer : Int}
    (h : outside opens closes depth ts = some us) (houter : 0 < outer) :
    closingFrom (outer + depth) (ts ++ rest) = (closingFrom outer rest).map (· + ts.length) := by
  have hmap : ∀ (t : Token) (ts : List Token) (x : Option Nat),
      (x.map (· + ts.length)).map (· + 1) = x.map (· + (t :: ts).length) := by
    intro t ts x
    cases x <;> simp [Nat.add_assoc]
  replace h := outside_of_eq_some h
  induction h with
  | nil => cases hc : closingFrom outer rest <;> simp [hc]
  | @opener depth t ts us hopens _ ih =>
    have hdepth : outer + (depth : Int) + 1 = outer + ((depth + 1 : Nat) : Int) := by omega
    rw [List.cons_append, closingFrom, if_pos hopens, hdepth, ih, hmap]
  | @closer depth t ts us hopens hcloses _ ih =>
    have hdepth : outer + ((depth + 1 : Nat) : Int) - 1 = outer + (depth : Int) := by omega
    rw [List.cons_append, closingFrom, hopens, hcloses, hdepth, if_neg (by decide), if_pos rfl,
      if_neg (by omega), ih, hmap]
  | @outer t ts us hopens hcloses _ ih | @inner _ t ts us hopens hcloses _ ih =>
    rw [List.cons_append, closingFrom, hopens, hcloses, if_neg (by decide), if_neg (by decide), ih, hmap]

/-- The bracket that closes a group, behind the tokens in front of the group. -/
theorem findClosing_group (front rest : List Token) {inner us : List Token} {opener closer : Token}
    (hopener : opener.opens = true) (hinner : outside opens closes 0 inner = some us)
    (hcloser : closer.opens = false ∧ closer.closes = true) :
    findClosing (front ++ opener :: (inner ++ closer :: rest)) front.length =
        some (front.length + (inner.length + 1)) ∧
      (front ++ opener :: (inner ++ closer :: rest)).drop (front.length + (inner.length + 1)) =
        closer :: rest := by
  have houtside : closingFrom (1 + ((0 : Nat) : Int)) (inner ++ closer :: rest) = _ :=
    closingFrom_outside hinner (by decide)
  have hend : closingFrom 1 (closer :: rest) = some 0 := by
    rw [closingFrom, hcloser.1, hcloser.2]
    rfl
  have hone : (0 : Int) + 1 = 1 + ((0 : Nat) : Int) := rfl
  rw [hend] at houtside
  constructor
  · rw [findClosing, List.drop_left, closingFrom, if_pos hopener, hone, houtside]
    simp only [Option.map_some, Option.some.injEq]
    omega
  · rw [← List.drop_drop, List.drop_left, List.drop_succ_cons, List.drop_left]

/-- The text inside a group of brackets. -/
theorem bodyText_group (s : Text) (front rest : List Token) {inner us : List Token}
    {opener closer : Token} (hopener : opener.opens = true) (hinner : outside opens closes 0 inner = some us)
    (hcloser : closer.opens = false ∧ closer.closes = true) :
    bodyText s (front ++ opener :: (inner ++ closer :: rest)) front.length =
      some (s.slice opener.stop closer.start) := by
  obtain ⟨hclosing, hdrop⟩ := findClosing_group front rest hopener hinner hcloser
  have hopened : (front ++ opener :: (inner ++ closer :: rest))[front.length]? = some opener := by
    rw [← List.head?_drop, List.drop_left]
    rfl
  have hclosed : (front ++ opener :: (inner ++ closer :: rest))[front.length + (inner.length + 1)]? =
      some closer := by
    rw [← List.head?_drop, hdrop]
    rfl
  simp only [bodyText, hopened, hclosing, hclosed, Option.bind_eq_bind, Option.bind_some,
    Option.pure_def]

/-! ## Generic lists -/

theorem angleLength_append {depth : Int} {ts us : List Token} {i : Nat}
    (h : angleLength depth ts = some i) : angleLength depth (ts ++ us) = some i := by
  fun_induction angleLength depth ts generalizing i with
  | case1 => simp at h
  | case2 depth t ts hup ih =>
    obtain ⟨j, hj, rfl⟩ := Option.map_eq_some_iff.1 h
    rw [List.cons_append, angleLength, if_pos hup, ih hj]
    rfl
  | case3 depth t ts hup hdown hzero =>
    rw [List.cons_append, angleLength, if_neg hup, if_pos hdown, if_pos hzero]
    exact h
  | case4 depth t ts hup hdown hzero ih =>
    obtain ⟨j, hj, rfl⟩ := Option.map_eq_some_iff.1 h
    rw [List.cons_append, angleLength, if_neg hup, if_pos hdown, if_neg hzero, ih hj]
    rfl
  | case5 => simp at h
  | case6 depth t ts hup hdown hstop ih =>
    obtain ⟨j, hj, rfl⟩ := Option.map_eq_some_iff.1 h
    rw [List.cons_append, angleLength, if_neg hup, if_neg hdown, if_neg hstop, ih hj]
    rfl

/-- The end of a generic list that is found in front of a last token is found whatever follows. -/
theorem getElem?_of_append {ts : List Token} {n : Nat} {t : Token} (h : ts[n]? = some t)
    (us : List Token) : (ts ++ us)[n]? = some t := by
  rw [List.getElem?_append_left (List.getElem?_eq_some_iff.1 h).1, h]

theorem skipAngles_append {ts us : List Token} {i j : Nat} (h : skipAngles ts i = some j)
    (hj : j < ts.length) : skipAngles (ts ++ us) i = some j := by
  have hi : i ≤ ts.length := by
    rcases Nat.lt_or_ge ts.length i with hi | hi
    · rw [skipAngles, List.drop_eq_nil_of_le (by omega)] at h
      simp only [Option.some.injEq] at h
      omega
    · exact hi
  rw [skipAngles, List.drop_append_of_le_length hi]
  rw [skipAngles] at h
  cases hdrop : ts.drop i with
  | nil =>
    rw [hdrop] at h
    simp only [Option.some.injEq] at h
    rw [List.drop_eq_nil_iff] at hdrop
    omega
  | cons t rest =>
    rw [hdrop] at h
    dsimp only at h
    rw [List.cons_append]
    dsimp only
    split at h
    · rename_i hopens
      obtain ⟨k, hk, rfl⟩ := Option.map_eq_some_iff.1 h
      rw [if_pos hopens, ← List.cons_append, angleLength_append hk]
      rfl
    · rename_i hopens
      rw [if_neg hopens]
      exact h

theorem le_of_skipAngles {ts : List Token} {i j : Nat} (h : skipAngles ts i = some j) : i ≤ j := by
  rw [skipAngles] at h
  split at h
  · simp only [Option.some.injEq] at h
    omega
  · split at h
    · obtain ⟨k, -, rfl⟩ := Option.map_eq_some_iff.1 h
      omega
    · simp only [Option.some.injEq] at h
      omega

/-- The depth is zero at the end of the tokens, and nowhere before it but at their front. -/
def BalancesAtEnd (up down : Char) (ts : List Token) : Prop :=
  netDepth up down ts = 0 ∧ ∀ k, k < ts.length → 0 < k → netDepth up down (ts.take k) ≠ 0

theorem angleLength_of_depth {ts rest : List Token} {depth : Int} (hdepth : 0 < depth)
    (htotal : depth + netDepth '<' '>' ts = 0)
    (hbefore : ∀ k, k < ts.length → depth + netDepth '<' '>' (ts.take k) ≠ 0)
    (hstop : ∀ t ∈ ts, t.isPunct ['{'] = false ∧ t.isPunct [';'] = false) :
    angleLength depth (ts ++ rest) = some ts.length := by
  induction ts generalizing depth with
  | nil =>
    rw [netDepth] at htotal
    omega
  | cons t ts ih =>
    have hstop' : ∀ u ∈ ts, u.isPunct ['{'] = false ∧ u.isPunct [';'] = false :=
      fun u hu => hstop u (by simp [hu])
    -- The depth behind `t`, from which the rest is measured.
    have hrest : ∀ next : Int,
        depth + (if t.isPunct ['<'] then 1 else if t.isPunct ['>'] then -1 else 0) = next →
        0 < next → (angleLength next (ts ++ rest)).map (· + 1) = some (t :: ts).length := by
      intro next hnext hpos
      rw [ih hpos _ _ hstop']
      · rfl
      · rw [netDepth] at htotal
        omega
      · intro k hk
        have := hbefore (k + 1) (by rw [List.length_cons]; omega)
        rw [List.take_succ_cons, netDepth] at this
        omega
    rw [List.cons_append, angleLength]
    by_cases hup : t.isPunct ['<'] = true
    · rw [if_pos hup]
      exact hrest (depth + 1) (by rw [if_pos hup]) (by omega)
    · rw [if_neg hup]
      by_cases hdown : t.isPunct ['>'] = true
      · rw [if_pos hdown]
        by_cases hzero : depth - 1 = 0
        · -- The list ends here, so these were all of the tokens.
          rw [if_pos hzero]
          cases ts with
          | nil => rfl
          | cons u ts =>
            have := hbefore 1 (by simp)
            rw [List.take_succ_cons, List.take_zero, netDepth, if_neg hup, if_pos hdown, netDepth] at this
            omega
        · rw [if_neg hzero]
          exact hrest (depth - 1) (by rw [if_neg hup, if_pos hdown]; omega) (by omega)
      · rw [if_neg hdown]
        have hplain := hstop t (by simp)
        rw [hplain.1, hplain.2]
        exact hrest depth (by rw [if_neg hup, if_neg hdown]; omega) hdepth

/-- A generic list is passed over when its signs balance at its end and not before. -/
theorem angleLength_of_balance {t : Token} {ts rest : List Token} (ht : t.isPunct ['<'] = true)
    (h : BalancesAtEnd '<' '>' (t :: ts))
    (hstop : ∀ u ∈ t :: ts, u.isPunct ['{'] = false ∧ u.isPunct [';'] = false) :
    angleLength 0 (t :: ts ++ rest) = some (t :: ts).length := by
  obtain ⟨htotal, hbefore⟩ := h
  rw [List.cons_append, angleLength, if_pos ht, angleLength_of_depth (by omega)]
  · rfl
  · rw [netDepth, if_pos ht] at htotal
    omega
  · intro k hk
    have := hbefore (k + 1) (by rw [List.length_cons]; omega) (by omega)
    rw [List.take_succ_cons, netDepth, if_pos ht] at this
    omega
  · exact fun u hu => hstop u (by simp [hu])

end Token

/-! ## Functions among tokens -/

namespace Item.Function

/-- Whether the token at index `i` is `fn` with a name behind it. -/
def beginsAt (ts : List Token) (i : Nat) : Bool :=
  match ts[i]?, ts[i + 1]? with
  | some keyword, some name => keyword.isIdent "fn" && name.kind == .ident
  | _, _ => false

theorem beginsAt_of_length_le {ts : List Token} {i : Nat} (h : ts.length ≤ i) :
    beginsAt ts i = false := by
  rw [beginsAt, List.getElem?_eq_none h]

/-- The first `fn` with a name is located, when its parenthesis is found. -/
theorem locate?_eq {ts : List Token} {i opened : Nat} {opener : Token}
    (hfirst : ∀ j < i, beginsAt ts j = false) (hi : beginsAt ts i = true)
    (hskip : Token.skipAngles ts (i + 2) = some opened) (hopener : ts[opened]? = some opener)
    (hround : opener.isPunct ['('] = true) : locate? ts = some (i, opened) := by
  have hle := Token.le_of_skipAngles hskip
  have hlt : opened < ts.length := (List.getElem?_eq_some_iff.1 hopener).1
  have hrange : List.range (ts.length - 2) =
      List.range i ++ i :: (List.range (ts.length - 2 - (i + 1))).map (i + 1 + ·) := by
    have hsplit : ts.length - 2 = (i + 1) + (ts.length - 2 - (i + 1)) := by omega
    rw [hsplit, List.range_add, List.range_succ, List.append_assoc]
    simp
  rw [locate?, hrange, List.findSome?_append]
  have hnone : (List.range i).findSome? (fun i => do
      let keyword ← ts[i]?
      let name ← ts[i + 1]?
      if keyword.isIdent "fn" && name.kind == .ident then
        let opened ← Token.skipAngles ts (i + 2)
        let opener ← ts[opened]?
        if opener.isPunct ['('] then some (i, opened) else none
      else none) = none := by
    rw [List.findSome?_eq_none_iff]
    intro j hj
    have hnot := hfirst j (List.mem_range.1 hj)
    rw [beginsAt] at hnot
    cases hk : ts[j]? with
    | none => rfl
    | some keyword =>
      cases hn : ts[j + 1]? with
      | none => rfl
      | some name =>
        rw [hk, hn] at hnot
        dsimp only at hnot
        simp only [Option.bind_eq_bind, Option.bind_some, hnot, Bool.false_eq_true, if_false]
  rw [hnone, List.findSome?_cons]
  rw [beginsAt] at hi
  cases hk : ts[i]? with
  | none => simp [hk] at hi
  | some keyword =>
    cases hn : ts[i + 1]? with
    | none => simp [hk, hn] at hi
    | some name =>
      rw [hk, hn] at hi
      dsimp only at hi
      simp only [hskip, hopener, hround, hi, Option.bind_eq_bind, Option.bind_some, if_true,
        Option.none_or]

/-- What is located is a `fn` with a name, and its parenthesis. -/
theorem spec_of_locate? {ts : List Token} {i opened : Nat} (h : locate? ts = some (i, opened)) :
    beginsAt ts i = true ∧ Token.skipAngles ts (i + 2) = some opened ∧
      ∃ opener, ts[opened]? = some opener ∧ opener.isPunct ['('] = true := by
  obtain ⟨j, -, hj⟩ := List.exists_of_findSome?_eq_some h
  simp only [Option.bind_eq_bind, Option.bind_eq_some_iff] at hj
  obtain ⟨keyword, hk, name, hn, hif⟩ := hj
  split at hif
  · rename_i hbegin
    simp only [Option.bind_eq_some_iff] at hif
    obtain ⟨opened', hskip, opener, hopener, hif⟩ := hif
    split at hif
    · rename_i hround
      simp only [Option.some.injEq, Prod.mk.injEq] at hif
      obtain ⟨rfl, rfl⟩ := hif
      refine ⟨?_, hskip, opener, hopener, hround⟩
      rw [beginsAt, hk, hn]
      exact hbegin
    · simp at hif
  · simp at hif

/-! ## Return types -/

/-- The brackets that count in a return type. -/
def opensType (t : Token) : Bool := t.isPunct ['('] || t.isPunct ['[']

def closesType (t : Token) : Bool := t.isPunct [')'] || t.isPunct [']']

/-- The tokens that end a return type. -/
def endsType (t : Token) : Bool :=
  t.isPunct ['{'] || t.isPunct [';'] || t.isPunct ['=', '>'] || t.isIdent "where"

theorem returnStop?_cons (depth : Int) (t : Token) (rest : List Token) :
    returnStop? depth (t :: rest) =
      if opensType t then returnStop? (depth + 1) rest
      else if closesType t then returnStop? (depth - 1) rest
      else if depth == 0 && endsType t then some t.start
      else returnStop? depth rest := by
  rw [returnStop?]
  rfl

theorem returnStop?_append {depth : Int} {ts us : List Token} {stop : Nat}
    (h : returnStop? depth ts = some stop) : returnStop? depth (ts ++ us) = some stop := by
  induction ts generalizing depth with
  | nil => simp [returnStop?] at h
  | cons t ts ih =>
    rw [returnStop?_cons] at h
    rw [List.cons_append, returnStop?_cons]
    split at h
    · rename_i hopens
      rw [if_pos hopens]
      exact ih h
    · rename_i hopens
      rw [if_neg hopens]
      split at h
      · rename_i hcloses
        rw [if_pos hcloses]
        exact ih h
      · rename_i hcloses
        rw [if_neg hcloses]
        split at h
        · rename_i hends
          rw [if_pos hends]
          exact h
        · rename_i hends
          rw [if_neg hends]
          exact ih h

/-- A type without any end outside its brackets is passed over. -/
theorem returnStop?_outside {ts us rest : List Token} {depth : Nat}
    (h : Token.outside opensType closesType depth ts = some us)
    (hus : ∀ t ∈ us, endsType t = false) :
    returnStop? depth (ts ++ rest) = returnStop? 0 rest := by
  replace h := Token.outside_of_eq_some h
  induction h with
  | nil => rfl
  | opener hopens _ ih =>
    rw [List.cons_append, returnStop?_cons, if_pos hopens]
    exact ih hus
  | @closer depth t ts us hopens hcloses _ ih =>
    have hdepth : ((depth + 1 : Nat) : Int) - 1 = (depth : Int) := by omega
    rw [List.cons_append, returnStop?_cons, hopens, hcloses, if_neg (by decide), if_pos rfl, hdepth]
    exact ih hus
  | @outer t ts us hopens hcloses _ ih =>
    rw [List.cons_append, returnStop?_cons, hopens, hcloses, hus t (by simp), Bool.and_false,
      if_neg (by decide), if_neg (by decide), if_neg (by decide)]
    exact ih fun u hu => hus u (by simp [hu])
  | @inner depth t ts us hopens hcloses _ ih =>
    have hdepth : (((depth + 1 : Nat) : Int) == 0) = false := beq_false_of_ne (by omega)
    rw [List.cons_append, returnStop?_cons, hopens, hcloses, hdepth, Bool.false_and,
      if_neg (by decide), if_neg (by decide), if_neg (by decide)]
    exact ih hus

end Item.Function

end DocScaffold
