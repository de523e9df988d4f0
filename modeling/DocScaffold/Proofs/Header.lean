import DocScaffold.Proofs.Quiet

/-!
# Headers of functions

A header that is written part by part is classified as a function and read back part by part
(`parse?_text`). Types are read back when their commas, braces and other ends stand inside brackets:
the commas of a parameter count inside `<…>` too, and so do the braces of a return type.
-/

namespace DocScaffold

open Text

/-! ## Lists inside brackets -/

namespace Text

/-- Whether nothing in a text is open at its end, neither a literal nor a bracket. -/
def isBalanced (s : Text) : Bool :=
  isClosed s && (Token.outside Token.opens Token.closes 0 s.tokens).isSome

theorem isBalanced_of_isWhole {s : Text} (h : isWhole s = true) : isBalanced s = true := by
  rw [isWhole, Bool.and_eq_true, keepsCommas_iff] at h
  obtain ⟨hclosed, outer, houter, -⟩ := h
  rw [isBalanced, hclosed, houter]
  rfl

theorem isBalanced_append {s t : Text} (hs : isBalanced s = true) (ht : isBalanced t = true)
    (h : Apart s t) : isBalanced (s ++ t) = true := by
  rw [isBalanced, Bool.and_eq_true, Option.isSome_iff_exists] at hs ht ⊢
  obtain ⟨hsclosed, a, ha⟩ := hs
  obtain ⟨htclosed, b, hb⟩ := ht
  refine ⟨isClosed_append hsclosed htclosed h, a ++ b.map (Token.shift s.length), ?_⟩
  rw [tokens_append hsclosed h, tokensAt_eq_shift, Token.outside_append ha,
    Token.outside_shift (fun _ => rfl) (fun _ => rfl), hb]
  rfl

theorem isBalanced_comma : isBalanced [',', ' '] = true := by decide +kernel

theorem isBalanced_listed {ps : List Text} (hsolid : ∀ p ∈ ps, Solid p)
    (hwhole : ∀ p ∈ ps, isWhole p = true) : isBalanced (listed ps) = true := by
  induction ps with
  | nil => exact isBalanced_of_isWhole (isWhole_filler (by decide))
  | cons p ps ih =>
    have hp := isBalanced_of_isWhole (hwhole p (by simp))
    have hrest := ih (fun q hq => hsolid q (by simp [hq])) fun q hq => hwhole q (by simp [hq])
    cases ps with
    | nil => simpa [listed] using hp
    | cons q ps =>
      have htext : p ++ ',' :: ' ' :: listed (q :: ps) = p ++ ([',', ' '] ++ listed (q :: ps)) := rfl
      rw [listed_cons_cons, htext]
      refine isBalanced_append hp (isBalanced_append isBalanced_comma hrest ?_) ?_
      · intro x hx y hy
        obtain rfl : ' ' = x := by simpa using hx
        exact space_apart (head_listed (hsolid q (by simp)) y hy)
      · exact Apart.of_head fun x _ => apart_mark (by decide)

theorem outside_of_isBalanced {s : Text} (h : isBalanced s = true) (offset : Nat) :
    ∃ outer, Token.outside Token.opens Token.closes 0 (tokensAt offset s) = some outer := by
  rw [isBalanced, Bool.and_eq_true, Option.isSome_iff_exists] at h
  obtain ⟨-, outer, houter⟩ := h
  refine ⟨outer.map (Token.shift offset), ?_⟩
  rw [tokensAt_eq_shift, Token.outside_shift (fun _ => rfl) (fun _ => rfl), houter]
  rfl

end Text

namespace Token

theorem netDepth_shift (up down : Char) (n : Nat) (ts : List Token) :
    netDepth up down (ts.map (shift n)) = netDepth up down ts := by
  induction ts with
  | nil => rfl
  | cons t ts ih => rw [List.map_cons, netDepth, netDepth, shift_isPunct, shift_isPunct, ih]

end Token

namespace Item

namespace Function

/-! ## Headers as tokens -/

/-- The tokens of a generic list, or none. -/
def IsGenerics (ts : List Token) : Prop :=
  ts = [] ∨ (∃ t rest, ts = t :: rest ∧ t.isPunct ['<'] = true) ∧ Token.BalancesAtEnd '<' '>' ts ∧
    ∀ t ∈ ts, t.isPunct ['\x7b'] = false ∧ t.isPunct [';'] = false

theorem skipAngles_generics {ts generics rest : List Token} {next : Token}
    (h : IsGenerics generics) (hnext : next.isPunct ['<'] = false) :
    Token.skipAngles (ts ++ (generics ++ next :: rest)) ts.length =
      some (ts.length + generics.length) := by
  rw [Token.skipAngles, List.drop_left]
  rcases h with rfl | ⟨⟨t, more, rfl, ht⟩, hbalance, hplain⟩
  · rw [List.nil_append]
    dsimp only
    rw [hnext]
    rfl
  · have hlength : Token.angleLength 0 (t :: more ++ next :: rest) = _ :=
      Token.angleLength_of_balance ht hbalance hplain
    rw [List.cons_append] at hlength ⊢
    dsimp only
    rw [if_pos ht, hlength, Option.map_some, Nat.add_comm]

variable {s : Text} {front generics arguments rest outer : List Token}
  {keyword name opener closer : Token}

/-- Where the parts of a header stand among its tokens. -/
theorem parse?_of_tokens
    (htokens : s.tokens =
      front ++ (keyword :: name :: (generics ++ opener :: (arguments ++ closer :: rest))))
    (hfront : ∀ j < front.length, beginsAt s.tokens j = false)
    (hkeyword : keyword.isIdent "fn" = true) (hname : name.kind = .ident)
    (hgenerics : IsGenerics generics) (hopener : opener.isPunct ['('] = true)
    (harguments : Token.outside Token.opens Token.closes 0 arguments = some outer)
    (hcloser : closer.isPunct [')'] = true) :
    (locate? s.tokens).isSome = true ∧ parse? s = some {
      name := name.value
      modifiers := (Modifiers.before s s.tokens front.length).1
      parameters := parametersOf (s.slice opener.stop closer.start)
      returnType := returnTypeOf s rest
      isExposed := s.isExposed } := by
  have hsplit : s.tokens = (front ++ [keyword, name]) ++
      (generics ++ opener :: (arguments ++ closer :: rest)) := by
    rw [htokens]
    simp
  have hlength : (front ++ [keyword, name]).length = front.length + 2 := by simp
  have hangle : opener.isPunct ['<'] = false := by
    simp only [Token.isPunct, Bool.and_eq_true, beq_iff_eq] at hopener
    simp [Token.isPunct, hopener]
  have hskip : Token.skipAngles s.tokens (front.length + 2) =
      some (front.length + 2 + generics.length) := by
    rw [← hlength, hsplit]
    exact skipAngles_generics hgenerics hangle
  have hfull : s.tokens = ((front ++ [keyword, name]) ++ generics) ++
      opener :: (arguments ++ closer :: rest) := by
    rw [hsplit, ← List.append_assoc]
  have hplace : ((front ++ [keyword, name]) ++ generics).length =
      front.length + 2 + generics.length := by
    rw [List.length_append, hlength]
  have hopens : opener.opens = true := by simp [Token.opens, hopener]
  have hcloses : closer.opens = false ∧ closer.closes = true := by
    simp only [Token.isPunct, Bool.and_eq_true, beq_iff_eq] at hcloser
    simp [Token.opens, Token.closes, Token.isPunct, hcloser]
  obtain ⟨hclosing, hbehind⟩ := Token.findClosing_group ((front ++ [keyword, name]) ++ generics) rest
    hopens harguments hcloses
  have hbody := Token.bodyText_group s ((front ++ [keyword, name]) ++ generics) rest hopens harguments
    hcloses
  rw [← hfull, hplace] at hclosing hbehind hbody
  have hopened : s.tokens[front.length + 2 + generics.length]? = some opener := by
    rw [← List.head?_drop, hfull, ← hplace, List.drop_left]
    rfl
  have hbegins : beginsAt s.tokens front.length = true := by
    rw [beginsAt, htokens, List.getElem?_append_right (Nat.le_refl _),
      List.getElem?_append_right (by omega), Nat.sub_self, Nat.add_sub_cancel_left]
    dsimp only [List.getElem?_cons_zero, List.getElem?_cons_succ]
    rw [hkeyword, hname]
    rfl
  have hlocate := locate?_eq hfront hbegins hskip hopened hopener
  have hnamed : s.tokens[front.length + 1]? = some name := by
    rw [htokens, List.getElem?_append_right (by omega), Nat.add_sub_cancel_left]
    rfl
  have hrest : s.tokens.drop (front.length + 2 + generics.length + (arguments.length + 1) + 1) =
      rest := by
    rw [← List.drop_drop, hbehind]
    rfl
  refine ⟨by rw [hlocate]; rfl, ?_⟩
  rw [parse?]
  simp only [hlocate, hnamed, hclosing, hbody, hrest, Option.bind_eq_bind, Option.bind_some,
    Option.pure_def]

end Function

/-! ## Behind the parameters -/

/-- What stands behind a header: nothing, a semicolon, a body, or the clause in front of a body. -/
inductive Tail
  | nothing
  | semicolon
  | body
  | clause (bounds : Text)

namespace Tail

/-- The space in front of a body or a clause. -/
def gap : Tail → Text
  | .nothing | .semicolon => []
  | .body | .clause _ => [' ']

def rest : Tail → Text
  | .nothing => []
  | .semicolon => [';']
  | .body => ['\x7b']
  | .clause bounds => "where".toList ++ (' ' :: (bounds ++ " \x7b".toList))

def text (t : Tail) : Text := t.gap ++ t.rest

theorem isToken_where : IsToken .ident "where".toList := by decide +kernel

theorem tokensAt_clause (bounds : Text) (offset : Nat) :
    ∃ more, tokensAt offset (text (.clause bounds)) =
      ⟨.ident, "where".toList, offset + 1, offset + 6⟩ :: more := by
  have happ : tokensAt (offset + 1) ("where".toList ++ (' ' :: (bounds ++ " \x7b".toList))) = _ :=
    tokensAt_append (offset + 1) (isToken_where.isClosed (by decide))
      (Apart.of_head fun x hx => apart_space (isToken_where.last_not_blank x hx))
  have hhead : ∀ c ∈ ("where".toList ++ (' ' :: (bounds ++ " \x7b".toList))).head?,
      isBlank c = false := isToken_where.ident_solid.head
  rw [isToken_where.tokensAt] at happ
  exact ⟨_, (tokensAt_space offset hhead).trans happ⟩

/-- No tail begins with an arrow. -/
theorem returnTypeOf_text (t : Tail) (s : Text) (offset : Nat) :
    Function.returnTypeOf s (tokensAt offset t.text) = none := by
  cases t with
  | nothing =>
    have htext : text .nothing = [] := rfl
    rw [htext, tokensAt_nil]
    rfl
  | semicolon =>
    have htext : text .semicolon = [';'] := rfl
    rw [htext, tokensAt_plain _ (by decide)]
    rfl
  | body =>
    have htext : text .body = [' ', '\x7b'] := rfl
    have hbrace : isBlank '\x7b' = false := by decide
    rw [htext, tokensAt_space _ (by simpa using hbrace), tokensAt_plain _ (by decide)]
    rfl
  | clause bounds =>
    obtain ⟨more, hmore⟩ := tokensAt_clause bounds offset
    rw [hmore]
    rfl

/-- A return type in front of a tail ends with the gap. -/
theorem returnStop?_text (t : Tail) (offset : Nat) :
    (Function.returnStop? 0 (tokensAt offset t.text)).getD (offset + t.text.length) =
      offset + t.gap.length := by
  cases t with
  | nothing =>
    have htext : text .nothing = [] := rfl
    rw [htext, tokensAt_nil]
    rfl
  | semicolon =>
    have htext : text .semicolon = [';'] := rfl
    rw [htext, tokensAt_plain _ (by decide)]
    rfl
  | body =>
    have htext : text .body = [' ', '\x7b'] := rfl
    have hbrace : isBlank '\x7b' = false := by decide
    rw [htext, tokensAt_space _ (by simpa using hbrace), tokensAt_plain _ (by decide)]
    rfl
  | clause bounds =>
    obtain ⟨more, hmore⟩ := tokensAt_clause bounds offset
    have hplain : Function.opensType ⟨.ident, "where".toList, offset + 1, offset + 6⟩ = false ∧
        Function.closesType ⟨.ident, "where".toList, offset + 1, offset + 6⟩ = false := by
      simp [Function.opensType, Function.closesType, Token.isPunct]
    have hends : Function.endsType ⟨.ident, "where".toList, offset + 1, offset + 6⟩ = true := by
      simp [Function.endsType, Token.isIdent]
    rw [hmore, Function.returnStop?_cons, hplain.1, hplain.2, hends]
    rfl

theorem apart_text {s : Text} (t : Tail) (h : ∀ c ∈ s.getLast?, isBlank c = false) :
    Apart s t.text := by
  cases t with
  | nothing => exact fun _ _ y hy => absurd hy (Option.not_mem_none y)
  | semicolon => exact Apart.of_head fun x _ => apart_mark (by decide)
  | body => exact Apart.of_head fun x hx => apart_space (h x hx)
  | clause bounds => exact Apart.of_head fun x hx => apart_space (h x hx)

end Tail

namespace Function

/-- Whether a return type stays in one piece: nothing in it is open at its end, and what would end it
stands inside round or square brackets, all of which close. -/
def isWholeType (s : Text) : Bool :=
  isClosed s && (Token.outside opensType closesType 0 s.tokens).any fun outer =>
    outer.all fun t => !endsType t

theorem isWholeType_iff {s : Text} : isWholeType s = true ↔ isClosed s = true ∧
    ∃ outer, Token.outside opensType closesType 0 s.tokens = some outer ∧
      ∀ t ∈ outer, endsType t = false := by
  rw [isWholeType, Bool.and_eq_true, Option.any_eq_true]
  simp [List.all_eq_true]

/-- An arrow and a type, or nothing. -/
def returnText : Option Text → Text
  | none => []
  | some type => ' ' :: '-' :: '>' :: ' ' :: type

theorem tokensAt_arrow (offset : Nat) (s : Text) :
    tokensAt offset (' ' :: '-' :: '>' :: s) =
      ⟨.punct, ['-', '>'], offset + 1, offset + 3⟩ :: tokensAt (offset + 3) s := by
  have hdash : isBlank '-' = false := by decide
  have harrow : lexemes ('-' :: '>' :: s) = ⟨.token .punct, ['-', '>']⟩ :: lexemes s :=
    lexemes_of_sign (by decide) ⟨rfl, rfl⟩ rfl ⟨rfl, rfl⟩ rfl
  rw [tokensAt_space offset (by simpa using hdash), tokensAt, harrow]
  rfl

theorem returnStop?_type {type : Text} (h : isWholeType type = true) (offset : Nat)
    (rest : List Token) :
    returnStop? 0 (tokensAt offset type ++ rest) = returnStop? 0 rest := by
  obtain ⟨-, outer, houter, hends⟩ := isWholeType_iff.1 h
  have hmoved : Token.outside opensType closesType 0 (tokensAt offset type) =
      some (outer.map (Token.shift offset)) := by
    rw [tokensAt_eq_shift, Token.outside_shift (fun _ => rfl) (fun _ => rfl), houter]
    rfl
  refine returnStop?_outside hmoved ?_
  intro t ht
  obtain ⟨u, hu, rfl⟩ := List.mem_map.1 ht
  exact hends u hu

/-- A written return type is read back. -/
theorem returnTypeOf_text {returnType : Option Text}
    (h : ∀ type ∈ returnType, Solid type ∧ isWholeType type = true) (t : Tail) (front : Text) :
    returnTypeOf (front ++ (returnText returnType ++ t.text))
      (tokensAt front.length (returnText returnType ++ t.text)) = returnType := by
  cases returnType with
  | none => exact t.returnTypeOf_text _ _
  | some type =>
    obtain ⟨hsolid, hwhole⟩ := h type rfl
    have hclosed := (isWholeType_iff.1 hwhole).1
    have hhead : ∀ c ∈ (type ++ t.text).head?, isBlank c = false := by
      obtain ⟨c, u, rfl⟩ := List.exists_cons_of_ne_nil hsolid.nonempty
      exact hsolid.head
    have hgap : ∀ c ∈ t.gap, isBlank c = true := by
      cases t <;> simp [Tail.gap, isBlank_space]
    -- The text behind the arrow, up to where the type is found to end.
    have hslice : slice (front ++ (returnText (some type) ++ t.text)) (front.length + 3)
        (front.length + 4 + type.length + t.gap.length) = [' '] ++ (type ++ t.gap) := by
      have hsplit : front ++ (returnText (some type) ++ t.text) =
          (front ++ [' ', '-', '>']) ++ (([' '] ++ (type ++ t.gap)) ++ t.rest) := by
        simp [returnText, Tail.text]
      have hmiddle := slice_middle (front ++ [' ', '-', '>']) ([' '] ++ (type ++ t.gap)) t.rest
      have hstart : (front ++ [' ', '-', '>']).length = front.length + 3 := List.length_append
      have hstop : front.length + 3 + ([' '] ++ (type ++ t.gap)).length =
          front.length + 4 + type.length + t.gap.length := by
        simp only [List.length_append, List.length_cons, List.length_nil]
        omega
      rwa [hstart, hstop, ← hsplit] at hmiddle
    have hlength : (front ++ (returnText (some type) ++ t.text)).length =
        front.length + 4 + type.length + t.text.length := by
      simp only [returnText, List.length_append, List.length_cons]
      omega
    have hne : type.isEmpty = false := by simpa using hsolid.nonempty
    have htokens : tokensAt front.length (returnText (some type) ++ t.text) =
        ⟨.punct, ['-', '>'], front.length + 1, front.length + 3⟩ ::
          (tokensAt (front.length + 4) type ++
            tokensAt (front.length + 4 + type.length) t.text) := by
      have harrow := tokensAt_arrow front.length (' ' :: (type ++ t.text))
      rw [tokensAt_space _ hhead, tokensAt_append _ hclosed (t.apart_text hsolid.last)] at harrow
      exact harrow
    have hpunct : Token.isPunct ⟨.punct, ['-', '>'], front.length + 1, front.length + 3⟩
        ['-', '>'] = true := by
      simp [Token.isPunct]
    rw [htokens, returnTypeOf, if_pos hpunct, returnStop?_type hwhole, hlength,
      t.returnStop?_text, hslice, trim_between (by simp [isBlank_space]) hsolid hgap]
    dsimp only
    rw [hne]
    rfl

/-! ## Results -/

/-- Whether `Result<…>` stands in a text: the word, blanks or none, and a `<` with a `>` behind it on
the same line, not directly. -/
def MentionsResult (s : Text) : Prop :=
  ∃ before blanks inner after : Text,
    s = before ++ ("Result".toList ++ (blanks ++ '<' :: (inner ++ '>' :: after))) ∧
      (∀ c ∈ blanks, isBlank c = true) ∧ inner ≠ [] ∧ '\n' ∉ inner

theorem opensResult_iff {s : Text} : opensResult s = true ↔
    ∃ blanks inner after : Text, s = blanks ++ '<' :: (inner ++ '>' :: after) ∧
      (∀ c ∈ blanks, isBlank c = true) ∧ inner ≠ [] ∧ '\n' ∉ inner := by
  have hangle : isBlank '<' = false := by decide
  constructor
  · intro h
    unfold opensResult at h
    split at h
    · rename_i rest hstart
      have hsplit : s.takeWhile isBlank ++ '<' :: rest = s := by
        rw [← hstart]
        exact List.takeWhile_append_dropWhile
      have hline : rest.takeWhile (· != '\n') ++ rest.dropWhile (· != '\n') = rest :=
        List.takeWhile_append_dropWhile
      cases htake : rest.takeWhile (· != '\n') with
      | nil => simp [htake] at h
      | cons x more =>
        rw [htake, List.drop_succ_cons, List.drop_zero, List.contains_eq_mem,
          decide_eq_true_eq] at h
        obtain ⟨a, b, rfl⟩ := List.append_of_mem h
        refine ⟨s.takeWhile isBlank, x :: a, b ++ rest.dropWhile (· != '\n'), ?_,
          fun c hc => of_mem_takeWhile isBlank hc, by simp, ?_⟩
        · rw [htake] at hline
          conv_lhs => rw [← hsplit, ← hline]
          simp
        · intro hmem
          have hnot := of_mem_takeWhile (· != '\n') (s := rest) (c := '\n')
            (by rw [htake, ← List.cons_append]; exact List.mem_append_left _ hmem)
          simp at hnot
    · simp at h
  · rintro ⟨blanks, inner, after, rfl, hblanks, hne, hline⟩
    have hstart : trimStart (blanks ++ '<' :: (inner ++ '>' :: after)) =
        '<' :: (inner ++ '>' :: after) :=
      dropWhile_append_of_head hblanks (by simpa using hangle)
    have htake : (inner ++ '>' :: after).takeWhile (· != '\n') =
        inner ++ '>' :: after.takeWhile (· != '\n') := by
      have hall : ∀ c ∈ inner, (c != '\n') = true := by
        intro c hc
        rw [bne_iff_ne]
        rintro rfl
        exact hline hc
      rw [List.takeWhile_append_of_pos hall]
      rfl
    rw [opensResult, hstart]
    obtain ⟨x, more, rfl⟩ := List.exists_cons_of_ne_nil hne
    change (((x :: more ++ '>' :: after).takeWhile (· != '\n')).drop 1).contains '>' = true
    rw [htake, List.cons_append, List.drop_succ_cons, List.drop_zero, List.contains_eq_mem,
      decide_eq_true_eq]
    simp

theorem isResultType_iff {s : Text} : isResultType s = true ↔ MentionsResult s := by
  induction s with
  | nil => simp [isResultType, MentionsResult]
  | cons c rest ih =>
    have hhere : (("Result".toList.isPrefixOf (c :: rest) &&
        opensResult ((c :: rest).drop "Result".toList.length)) = true) ↔
        ∃ blanks inner after : Text,
          c :: rest = "Result".toList ++ (blanks ++ '<' :: (inner ++ '>' :: after)) ∧
            (∀ d ∈ blanks, isBlank d = true) ∧ inner ≠ [] ∧ '\n' ∉ inner := by
      rw [Bool.and_eq_true, List.isPrefixOf_iff_prefix, opensResult_iff]
      constructor
      · rintro ⟨⟨t, ht⟩, blanks, inner, after, hopens, hrest⟩
        refine ⟨blanks, inner, after, ?_, hrest⟩
        rw [← hopens, ← ht, List.drop_left]
      · rintro ⟨blanks, inner, after, hopens, hrest⟩
        rw [hopens]
        exact ⟨⟨_, rfl⟩, blanks, inner, after, List.drop_left, hrest⟩
    rw [isResultType, Bool.or_eq_true, hhere, ih]
    constructor
    · rintro (⟨blanks, inner, after, htext, hrest⟩ | ⟨front, blanks, inner, after, htext, hrest⟩)
      · exact ⟨[], blanks, inner, after, htext, hrest⟩
      · exact ⟨c :: front, blanks, inner, after, by rw [htext]; rfl, hrest⟩
    · rintro ⟨front, blanks, inner, after, htext, hrest⟩
      cases front with
      | nil => exact .inl ⟨blanks, inner, after, htext, hrest⟩
      | cons d front =>
        rw [List.cons_append, List.cons.injEq] at htext
        exact .inr ⟨front, blanks, inner, after, htext.2, hrest⟩

end Function

/-! ## Written headers -/

/-- The header of a function, part by part. -/
structure Header where
  modifiers : Modifiers
  name : Text
  generics : Option Text
  parameters : List Parameter
  returnType : Option Text
  tail : Tail

namespace Header

def genericsText : Option Text → Text
  | none => []
  | some inner => '<' :: (inner ++ ['>'])

def text (h : Header) : Text :=
  h.modifiers.text ++ ("fn ".toList ++ (h.name ++ (genericsText h.generics ++
    ('(' :: (listed (h.parameters.map Parameter.text) ++
      (')' :: (Function.returnText h.returnType ++ h.tail.text)))))))

/-- The parts can be told apart: the angles of the generic list balance at its end only and no brace or
semicolon stands in it, the commas of parameters and what would end a return type stand inside brackets,
and no literal or comment is left open. -/
structure IsProper (h : Header) : Prop where
  modifiers : h.modifiers.IsProper
  name : IsToken .ident h.name
  generics : ∀ inner ∈ h.generics, isClosed (genericsText (some inner)) = true ∧
    Token.BalancesAtEnd '<' '>' (genericsText (some inner)).tokens ∧
    ∀ t ∈ (genericsText (some inner)).tokens, t.isPunct ['\x7b'] = false ∧ t.isPunct [';'] = false
  parameters : ∀ p ∈ h.parameters, p.IsProper
  returnType : ∀ type ∈ h.returnType, Solid type ∧ Function.isWholeType type = true

theorem isToken_fn : IsToken .ident "fn".toList := by decide +kernel

/-- What stands behind the name begins with a sign. -/
theorem exists_mark (generics : Option Text) (t : Text) :
    ∃ c u, genericsText generics ++ '(' :: t = c :: u ∧ isMark c = true := by
  cases generics with
  | none => exact ⟨'(', t, rfl, by decide⟩
  | some inner => exact ⟨'<', _, rfl, by decide⟩

theorem isGenerics_text {generics : Option Text}
    (h : ∀ inner ∈ generics, isClosed (genericsText (some inner)) = true ∧
      Token.BalancesAtEnd '<' '>' (genericsText (some inner)).tokens ∧
      ∀ t ∈ (genericsText (some inner)).tokens,
        t.isPunct ['\x7b'] = false ∧ t.isPunct [';'] = false)
    (offset : Nat) : Function.IsGenerics (tokensAt offset (genericsText generics)) := by
  cases generics with
  | none =>
    left
    exact tokensAt_nil offset
  | some inner =>
    obtain ⟨-, hbalance, hplain⟩ := h inner rfl
    right
    refine ⟨⟨_, _, tokensAt_plain offset (by decide), by simp [Token.isPunct]⟩, ?_, ?_⟩
    · rw [tokensAt_eq_shift]
      obtain ⟨htotal, hbefore⟩ := hbalance
      refine ⟨by rw [Token.netDepth_shift, htotal], fun k hk hpos => ?_⟩
      rw [← List.map_take, Token.netDepth_shift]
      exact hbefore k (by rwa [List.length_map] at hk) hpos
    · rw [tokensAt_eq_shift]
      intro t ht
      obtain ⟨u, hu, rfl⟩ := List.mem_map.1 ht
      exact hplain u hu

/-- The arguments of a header, as they are written. -/
def argumentsText (h : Header) : Text := listed (h.parameters.map Parameter.text)

/-- The header up to its opening parenthesis. -/
def leadText (h : Header) : Text :=
  h.modifiers.text ++ ("fn ".toList ++ (h.name ++ (genericsText h.generics ++ ['('])))

/-- What stands behind the closing parenthesis. -/
def endText (h : Header) : Text := Function.returnText h.returnType ++ h.tail.text

theorem text_eq (h : Header) : h.text = h.leadText ++ (h.argumentsText ++ ')' :: h.endText) := by
  simp [text, leadText, argumentsText, endText]

theorem isBalanced_arguments {h : Header} (hh : h.IsProper) : isBalanced h.argumentsText = true := by
  apply isBalanced_listed
  · intro q hq
    obtain ⟨p, hp, rfl⟩ := List.mem_map.1 hq
    exact Parameter.solid_text (hh.parameters p hp)
  · intro q hq
    obtain ⟨p, hp, rfl⟩ := List.mem_map.1 hq
    exact Parameter.isWhole_text (hh.parameters p hp)

/-- The tokens of a header, part by part. -/
theorem tokens_header {h : Header} (hh : h.IsProper) : ∃ a b c d,
    h.text.tokens = h.modifiers.text.tokens ++
      (⟨.ident, "fn".toList, h.modifiers.text.length, a⟩ :: ⟨.ident, h.name, b, c⟩ ::
        (tokensAt c (genericsText h.generics) ++
          ⟨.punct, ['('], d, h.leadText.length⟩ :: (tokensAt h.leadText.length h.argumentsText ++
            ⟨.punct, [')'], h.leadText.length + h.argumentsText.length,
              h.leadText.length + h.argumentsText.length + 1⟩ ::
              tokensAt (h.leadText.length + h.argumentsText.length + 1) h.endText))) := by
  have hmodifiers := Modifiers.spaced_text hh.modifiers
  have hfn := isToken_fn.spaced (by decide) (Modifiers.ident_head_not_blank isToken_fn)
  obtain ⟨n, w, hname⟩ := List.exists_cons_of_ne_nil hh.name.ident_ne_nil
  have hnamehead : ∀ t, ∀ e ∈ (h.name ++ t).head?, isBlank e = false := by
    intro t
    have hblank := hh.name.ident_solid.head
    rw [hname] at hblank ⊢
    exact hblank
  have hfnhead : ∀ t, ∀ e ∈ (("fn".toList ++ [' ']) ++ t).head?, isBlank e = false :=
    fun _ => hfn.head
  have harguments := isBalanced_arguments hh
  rw [isBalanced, Bool.and_eq_true] at harguments
  have hgenerics : isClosed (genericsText h.generics) = true := by
    cases hgenerics : h.generics with
    | none => exact spaced_nil.closed
    | some inner => exact (hh.generics inner hgenerics).1
  obtain ⟨e, u, hmark, hmarked⟩ := exists_mark h.generics (h.argumentsText ++ ')' :: h.endText)
  have htext : h.text = h.modifiers.text ++ (("fn".toList ++ [' ']) ++ (h.name ++
      (genericsText h.generics ++ '(' :: (h.argumentsText ++ ')' :: h.endText)))) := rfl
  have hapart : Apart h.name (genericsText h.generics ++ '(' :: (h.argumentsText ++ ')' :: h.endText)) := by
    rw [hmark]
    exact Apart.of_head fun x _ => apart_mark hmarked
  have hlength : h.modifiers.text.length + ("fn".toList ++ [' ']).length + h.name.length +
      (genericsText h.generics).length + 1 = h.leadText.length := by
    have hword : "fn ".toList.length = 3 ∧ "fn".toList.length = 2 := ⟨rfl, rfl⟩
    simp only [leadText, List.length_append, List.length_cons, List.length_nil, hword]
    omega
  have htokens := hmodifiers.tokensAt_append (hfnhead (h.name ++
    (genericsText h.generics ++ '(' :: (h.argumentsText ++ ')' :: h.endText)))) 0
  rw [← htext, Nat.zero_add, hfn.tokensAt_append (hnamehead _),
    tokensAt_append _ (hh.name.isClosed (by decide)) hapart, hh.name.tokensAt,
    tokensAt_append _ hgenerics (Apart.of_head fun x _ => apart_mark (by decide)),
    tokensAt_plain _ (by decide),
    tokensAt_append _ harguments.1 (Apart.of_head fun x _ => apart_mark (by decide)),
    tokensAt_plain _ (by decide), hlength, isToken_fn.tokensAt_spaced (by decide)] at htokens
  exact ⟨_, _, _, _, htokens⟩

/-- A written header is a function, and all its parts are read back; receivers are left out of the
parameters. -/
theorem reads_header {h : Header} (hh : h.IsProper) :
    Class.of h.text = .documented .function ∧ ∃ f, Function.parse? h.text = some f ∧
      f.modifiers = h.modifiers ∧ f.name = h.name ∧
      f.parameters = h.parameters.filterMap Parameter.member? ∧ f.returnType = h.returnType ∧
      (f.isFallible = true ↔ ∃ type ∈ h.returnType, Function.MentionsResult type) := by
  obtain ⟨a, b, c, d, htokens⟩ := tokens_header hh
  obtain ⟨outer, houter⟩ := outside_of_isBalanced (isBalanced_arguments hh) h.leadText.length
  have hquiet := Modifiers.quiet_text hh.modifiers
  have hfront : ∀ j < h.modifiers.text.tokens.length, Function.beginsAt h.text.tokens j = false := by
    intro j hj
    rw [htokens]
    exact hquiet.beginsAt _ hj
  have hfn : Token.isIdent ⟨.ident, "fn".toList, h.modifiers.text.length, a⟩ "fn" = true := by
    simp [Token.isIdent]
  obtain ⟨hlocate, hparse⟩ := Function.parse?_of_tokens htokens hfront hfn rfl
    (isGenerics_text hh.generics c) (by simp [Token.isPunct]) houter (by simp [Token.isPunct])
  have hclass := Class.of_quiet hquiet hfn htokens (by rw [hlocate])
  have hmodifiers : (Modifiers.before h.text h.text.tokens h.modifiers.text.tokens.length).1 =
      h.modifiers := by
    rw [Modifiers.before, htokens, List.take_left, text, Modifiers.takeAll_text hh.modifiers]
  have harguments : slice h.text h.leadText.length (h.leadText.length + h.argumentsText.length) =
      h.argumentsText := by
    rw [text_eq]
    exact slice_middle _ _ _
  have hreturn : Function.returnTypeOf h.text
      (tokensAt (h.leadText.length + h.argumentsText.length + 1) h.endText) = h.returnType := by
    have hsplit : h.text = (h.leadText ++ (h.argumentsText ++ [')'])) ++ h.endText := by
      rw [text_eq]
      simp
    have hlength : (h.leadText ++ (h.argumentsText ++ [')'])).length =
        h.leadText.length + h.argumentsText.length + 1 := by
      simp only [List.length_append, List.length_cons, List.length_nil]
      omega
    rw [hsplit, ← hlength]
    exact Function.returnTypeOf_text hh.returnType h.tail _
  refine ⟨hclass, _, hparse, hmodifiers, rfl, ?_, hreturn, ?_⟩
  · dsimp only
    rw [harguments]
    exact Parameter.parametersOf_listed hh.parameters
  · rw [Function.isFallible, hreturn, Option.any_eq_true]
    constructor
    · rintro ⟨type, htype, hresult⟩
      exact ⟨type, htype, Function.isResultType_iff.1 hresult⟩
    · rintro ⟨type, htype, hresult⟩
      exact ⟨type, htype, Function.isResultType_iff.2 hresult⟩

/-- A header with a part of every kind. -/
def fetch : Header where
  modifiers := ⟨.within "in crate::net", false, true, true, .foreign (some "C".toList)⟩
  name := "fetch"
  generics := some "'a, T: Into<&'a str>".toList
  parameters := [.receiver ⟨.byReference (some "a".toList), true⟩, .named ⟨"pair", "(u8, T)"⟩]
  returnType := some "Result<T, Error>".toList
  tail := .clause "T: Send"

def fetchText : Text :=
  "pub(in crate::net) async unsafe extern \"C\" fn fetch<'a, T: Into<&'a str>>".toList ++
    "(&'a mut self, pair: (u8, T)) -> Result<T, Error> where T: Send \x7b".toList

theorem reads_header_fetch : fetch.text = fetchText ∧
    Class.of fetch.text = .documented .function ∧ ∃ f, Function.parse? fetch.text = some f ∧
      f.modifiers = fetch.modifiers ∧ f.name = fetch.name ∧
      f.parameters = fetch.parameters.filterMap Parameter.member? ∧ f.returnType = fetch.returnType ∧
      (f.isFallible = true ↔ ∃ type ∈ fetch.returnType, Function.MentionsResult type) := by
  refine ⟨by decide +kernel, reads_header ?_⟩
  have hscope : Modifiers.IsScope "in crate::net" := by
    right
    refine ⟨⟨false, "crate", ["net".toList]⟩, ?_, by decide⟩
    intro segment hsegment
    simp only [List.mem_cons, List.not_mem_nil, or_false] at hsegment
    rcases hsegment with rfl | rfl <;> decide +kernel
  constructor
  · constructor
    · rintro scope h
      obtain rfl : _ = scope := by simpa [fetch] using h
      exact hscope
    · rintro abi h
      obtain rfl : _ = abi := by simpa [fetch] using h
      decide
  · decide +kernel
  · rintro inner h
    obtain rfl : _ = inner := by simpa [fetch] using h
    unfold Token.BalancesAtEnd
    decide +kernel
  · intro p hp
    simp only [fetch, List.mem_cons, List.not_mem_nil, or_false] at hp
    rcases hp with rfl | rfl
    · exact (by decide +kernel : IsToken .lifetime "\x27a".toList)
    · refine ⟨by decide +kernel, Lexeme.solid_of_ends (d := ')') (by decide) (by decide) rfl, ?_⟩
      decide +kernel
  · rintro type h
    obtain rfl : _ = type := by simpa [fetch] using h
    exact ⟨Lexeme.solid_of_ends (d := '>') (by decide) (by decide) rfl, by decide +kernel⟩

/-- Commas inside `<…>` part parameters, braces inside it end a return type, and a quote that is left
open in a generic list takes in what follows. -/
theorem misread_header :
    (Function.parse? "fn index(map: HashMap<K, V>) \x7b").map Function.parameters =
        some [⟨"map", "HashMap<K"⟩, ⟨"V>", ""⟩] ∧
      (Function.parse? "fn grid() -> Grid<\x7b 3 \x7d> \x7b").map Function.returnType =
        some (some "Grid<".toList) ∧
      Class.of "fn tag<\">(kind: \"a\") \x7b" = .unsupported none := by
  decide +kernel

end Header

end Item

end DocScaffold
