import DocScaffold.Item.Enum
import DocScaffold.Proofs.Commenting
import DocScaffold.Proofs.Entries

/-!
# Structs and enums that are written part by part

A frame is what a struct with named fields and an enum have in common: a visibility, a name, a generic
list, a clause of bounds, and braces. Whatever balanced body stands between the braces, the readers find
the name and the body (`Struct.parse?_text`, `Enum.parse?_text`).
-/

namespace DocScaffold.Item

open Text

/-! ## Where the parts of a declaration stand -/

/-- The tokens of a clause with bounds, or none. -/
structure IsClause (ts : List Token) : Prop where
  head : ∀ t ∈ ts.head?, t.isIdent "where" = true
  plain : ∀ t ∈ ts, t.isPunct ['\x7b'] = false ∧ t.isPunct [';'] = false

theorem indexFrom_eq {p : Token → Bool} {front ts rest : List Token} {t : Token}
    (hts : ∀ u ∈ ts, p u = false) (ht : p t = true) :
    indexFrom p (front ++ (ts ++ t :: rest)) front.length = some (front.length + ts.length) := by
  rw [indexFrom, List.drop_left, List.findIdx?_append,
    List.findIdx?_eq_none_iff.2 fun u hu => by simp [hts u hu], List.findIdx?_cons, ht]
  simp [Nat.add_comm]

section

variable (front rest : List Token) (keyword name : Token) {generics clause : List Token}
  {opener : Token} (hgenerics : Function.IsGenerics generics) (hclause : IsClause clause)
  (hopener : opener.isPunct ['\x7b'] = true)

include hgenerics hclause hopener

/-- The generic list is passed over in front of the clause or the brace. -/
theorem skipAngles_frame :
    Token.skipAngles (front ++ keyword :: name :: (generics ++ (clause ++ opener :: rest)))
      (front.length + 2) = some (front.length + 2 + generics.length) := by
  have hsplit : front ++ keyword :: name :: (generics ++ (clause ++ opener :: rest)) =
      (front ++ [keyword, name]) ++ (generics ++ (clause ++ opener :: rest)) := by simp
  have hlength : (front ++ [keyword, name]).length = front.length + 2 := by simp
  obtain ⟨next, more, hnext, hangle⟩ : ∃ next more, clause ++ opener :: rest = next :: more ∧
      next.isPunct ['<'] = false := by
    cases clause with
    | nil =>
      simp only [Token.isPunct, Bool.and_eq_true, beq_iff_eq] at hopener
      exact ⟨opener, rest, rfl, by simp [Token.isPunct, hopener]⟩
    | cons t clause =>
      have ht := hclause.head t rfl
      simp only [Token.isIdent, Bool.and_eq_true, beq_iff_eq] at ht
      exact ⟨t, clause ++ opener :: rest, rfl, by simp [Token.isPunct, ht]⟩
  rw [hsplit, hnext, ← hlength]
  exact Function.skipAngles_generics hgenerics hangle

/-- Both readers find the brace that opens the body. -/
theorem bodyIndex?_frame :
    Struct.bodyIndex? (front ++ keyword :: name :: (generics ++ (clause ++ opener :: rest)))
        front.length = some (front.length + 2 + generics.length + clause.length) ∧
      Enum.bodyIndex? (front ++ keyword :: name :: (generics ++ (clause ++ opener :: rest)))
        front.length = some (front.length + 2 + generics.length + clause.length) := by
  have hskip := skipAngles_frame front rest keyword name hgenerics hclause hopener
  have hfull : front ++ keyword :: name :: (generics ++ (clause ++ opener :: rest)) =
      (front ++ keyword :: name :: generics) ++ (clause ++ opener :: rest) := by simp
  have hplace : (front ++ keyword :: name :: generics).length = front.length + 2 + generics.length := by
    simp
    omega
  have hnext : (front ++ keyword :: name :: (generics ++ (clause ++ opener :: rest)))[front.length + 2 +
      generics.length]? = (clause ++ opener :: rest).head? := by
    rw [hfull, ← hplace, ← List.head?_drop, List.drop_left]
  have hbrace : opener.isIdent "where" = false := by
    simp only [Token.isPunct, Bool.and_eq_true, beq_iff_eq] at hopener
    simp [Token.isIdent, hopener]
  cases clause with
  | nil =>
    simp only [List.nil_append, List.head?_cons] at hskip hnext ⊢
    simp only [Struct.bodyIndex?, Enum.bodyIndex?, hskip, hnext, hbrace, hopener,
      Option.bind_eq_bind, Option.bind_some, Option.pure_def, if_true, if_false, Bool.false_eq_true]
    exact ⟨rfl, rfl⟩
  | cons t clause =>
    have ht := hclause.head t rfl
    have hfound : ∀ p : Token → Bool, (∀ u ∈ t :: clause, p u = false) → p opener = true →
        indexFrom p (front ++ keyword :: name :: (generics ++ (t :: clause ++ opener :: rest)))
          (front.length + 2 + generics.length) =
            some (front.length + 2 + generics.length + (t :: clause).length) := by
      intro p hp hend
      rw [hfull, ← hplace]
      exact indexFrom_eq hp hend
    rw [List.cons_append, List.head?_cons] at hnext
    rw [List.cons_append] at hskip hfound ⊢
    simp only [Struct.bodyIndex?, Enum.bodyIndex?, hskip, hnext, ht, Option.bind_eq_bind,
      Option.bind_some, if_true]
    refine ⟨hfound _ (fun u hu => ?_) (by rw [hopener, Bool.true_or]),
      hfound _ (fun u hu => (hclause.plain u hu).1) hopener⟩
    rw [(hclause.plain u hu).1, (hclause.plain u hu).2]
    rfl

end

/-- The body stands between the brace and the one that closes it. -/
theorem bodyText_frame (s : Text) (front generics clause rest : List Token) (keyword name : Token)
    {opener closer : Token} {outer : List Token} (hopener : opener.isPunct ['\x7b'] = true)
    (hrest : Token.outside Token.opens Token.closes 0 rest = some outer)
    (hcloser : closer.isPunct ['\x7d'] = true) :
    (front ++ keyword :: name :: (generics ++ (clause ++ opener :: (rest ++ [closer]))))[front.length +
        1]? = some name ∧
      (front ++ keyword :: name :: (generics ++ (clause ++ opener :: (rest ++ [closer]))))[front.length +
        2 + generics.length + clause.length]? = some opener ∧
      Token.bodyText s (front ++ keyword :: name :: (generics ++ (clause ++ opener ::
        (rest ++ [closer])))) (front.length + 2 + generics.length + clause.length) =
          some (s.slice opener.stop closer.start) := by
  have hfull : front ++ keyword :: name :: (generics ++ (clause ++ opener :: (rest ++ [closer]))) =
      (front ++ keyword :: name :: (generics ++ clause)) ++ opener :: (rest ++ [closer]) := by simp
  have hplace : (front ++ keyword :: name :: (generics ++ clause)).length =
      front.length + 2 + generics.length + clause.length := by
    simp
    omega
  refine ⟨?_, ?_, ?_⟩
  · rw [List.getElem?_append_right (by omega), Nat.add_sub_cancel_left]
    rfl
  · rw [hfull, ← hplace, ← List.head?_drop, List.drop_left]
    rfl
  · rw [hfull, ← hplace]
    refine Token.bodyText_group s _ [] (by simp [Token.opens, hopener]) hrest ?_
    simp only [Token.isPunct, Bool.and_eq_true, beq_iff_eq] at hcloser
    simp [Token.opens, Token.closes, Token.isPunct, hcloser]

/-! ## Frames -/

/-- A struct or an enum but for its body. -/
structure Frame where
  visibility : Visibility
  name : Text
  generics : Option Text
  bounds : Option Text

namespace Frame

def clauseText : Option Text → Text
  | none => []
  | some bounds => "where ".toList ++ bounds

/-- The generic list, the clause, and the brace. -/
def tailText (f : Frame) : Text :=
  Header.genericsText f.generics ++ ' ' :: (clauseText f.bounds ++ ['\x7b'])

/-- The declaration up to the brace that opens its body. -/
def leadText (f : Frame) (keyword : Keyword) : Text :=
  Modifiers.visibilityText f.visibility ++ (keyword.text ++ ' ' :: (f.name ++ f.tailText))

def text (f : Frame) (keyword : Keyword) (body : Text) : Text :=
  f.leadText keyword ++ (body ++ ['\x7d'])

/-- The parts can be told apart: the angles of the generic list balance at its end only, no brace or
semicolon stands in it or among the bounds, which a space ends, and no literal or comment is left
open. -/
structure IsProper (f : Frame) : Prop where
  scope : ∀ scope, f.visibility = .within scope → Modifiers.IsScope scope
  name : IsToken .ident f.name
  generics : ∀ inner ∈ f.generics, isClosed (Header.genericsText (some inner)) = true ∧
    Token.BalancesAtEnd '<' '>' (Header.genericsText (some inner)).tokens ∧
    ∀ t ∈ (Header.genericsText (some inner)).tokens,
      t.isPunct ['\x7b'] = false ∧ t.isPunct [';'] = false
  bounds : ∀ bounds ∈ f.bounds, Spaced bounds ∧
    ∀ t ∈ bounds.tokens, t.isPunct ['\x7b'] = false ∧ t.isPunct [';'] = false

theorem isToken_keyword (keyword : Keyword) : IsToken .ident keyword.text := by
  cases keyword <;> decide +kernel

/-- A clause is one, and a space ends it. -/
theorem spaced_clauseText {bounds : Option Text}
    (h : ∀ b ∈ bounds, Spaced b ∧ ∀ t ∈ b.tokens,
      t.isPunct ['\x7b'] = false ∧ t.isPunct [';'] = false) (offset : Nat) :
    Spaced (clauseText bounds) ∧ IsClause (tokensAt offset (clauseText bounds)) := by
  cases bounds with
  | none =>
    have hnil : tokensAt offset (clauseText none) = [] := tokensAt_nil offset
    rw [hnil]
    exact ⟨spaced_nil, by simp, by simp⟩
  | some b =>
    obtain ⟨hbounds, hplain⟩ := h b rfl
    have hwhere := Tail.isToken_where
    have hword := hwhere.spaced (by decide) hwhere.ident_solid.head
    have htokens : tokensAt offset (clauseText (some b)) =
        ⟨.ident, "where".toList, offset, offset + 5⟩ :: tokensAt (offset + 6) b := by
      have hfirst := hword.tokensAt_append hbounds.head offset
      rw [hwhere.tokensAt_spaced (by decide)] at hfirst
      exact hfirst
    refine ⟨hword.append hbounds, ?_⟩
    rw [htokens]
    refine ⟨by simp [Token.isIdent], fun t ht => ?_⟩
    rcases List.mem_cons.1 ht with rfl | ht
    · simp [Token.isPunct]
    · rw [tokensAt_eq_shift] at ht
      obtain ⟨u, hu, rfl⟩ := List.mem_map.1 ht
      exact hplain u hu

/-- What stands behind the name is apart from it. -/
theorem apart_tailText (f : Frame) {s : Text} (hs : ∀ c ∈ s.getLast?, isBlank c = false) (rest : Text) :
    Apart s (f.tailText ++ rest) := by
  rw [tailText]
  cases f.generics with
  | none => exact Apart.of_head fun x hx => apart_space (hs x hx)
  | some inner => exact Apart.of_head fun x _ => apart_mark (by decide)

variable {f : Frame} (hf : f.IsProper)

include hf

theorem isClosed_genericsText : isClosed (Header.genericsText f.generics) = true := by
  cases hgenerics : f.generics with
  | none => exact spaced_nil.closed
  | some inner => exact (hf.generics inner hgenerics).1

omit hf in
theorem apart_genericsText (rest : Text) : Apart (Header.genericsText f.generics) (' ' :: rest) := by
  refine Apart.of_head fun x hx => apart_space ?_
  cases hgenerics : f.generics with
  | none => simp [hgenerics, Header.genericsText] at hx
  | some inner =>
    rw [hgenerics, Header.genericsText, ← List.cons_append, List.getLast?_concat,
      Option.mem_some_iff] at hx
    subst hx
    decide

/-- The tokens behind the name. -/
theorem tokensAt_tailText (offset : Nat) (rest : Text) : ∃ clause a b, IsClause clause ∧
    b = offset + f.tailText.length ∧ tokensAt offset (f.tailText ++ rest) =
      tokensAt offset (Header.genericsText f.generics) ++
        (clause ++ ⟨.punct, ['\x7b'], a, b⟩ :: tokensAt b rest) := by
  have hclause := spaced_clauseText hf.bounds (offset + (Header.genericsText f.generics).length + 1)
  have hhead : ∀ c ∈ (clauseText f.bounds ++ ('\x7b' :: rest)).head?, isBlank c = false := by
    have hfirst := hclause.1.head
    cases hbounds : clauseText f.bounds with
    | nil => simp; decide
    | cons d u =>
      rw [hbounds] at hfirst
      simpa using hfirst d rfl
  have htext : f.tailText ++ rest = Header.genericsText f.generics ++
      ' ' :: (clauseText f.bounds ++ '\x7b' :: rest) := by simp [tailText]
  refine ⟨_, offset + (Header.genericsText f.generics).length + 1 + (clauseText f.bounds).length, _,
    hclause.2, rfl, ?_⟩
  have hlength : offset + (Header.genericsText f.generics).length + 1 +
      (clauseText f.bounds).length + 1 = offset + f.tailText.length := by
    simp only [tailText, List.length_append, List.length_cons, List.length_nil]
    omega
  rw [htext, tokensAt_append _ (isClosed_genericsText hf) (apart_genericsText _),
    tokensAt_space _ hhead, hclause.1.tokensAt_append (by simp; decide), tokensAt_plain _ (by decide),
    hlength]

theorem isClosed_tailText : isClosed f.tailText = true := by
  have hclause := (spaced_clauseText hf.bounds 0).1
  have hbrace : isClosed ['\x7b'] = true := by decide +kernel
  have hrest : isClosed (clauseText f.bounds ++ ['\x7b']) = true :=
    isClosed_append hclause.closed hbrace (hclause.apart (by simp; decide))
  have hspace : Apart [' '] (clauseText f.bounds ++ ['\x7b']) := by
    intro x hx y hy
    obtain rfl : ' ' = x := by simpa using hx
    apply space_apart
    have hfirst := hclause.head
    cases hbounds : clauseText f.bounds with
    | nil =>
      obtain rfl : '\x7b' = y := by simpa [hbounds] using hy
      decide
    | cons d u =>
      rw [hbounds] at hfirst hy
      exact hfirst y (by simpa using hy)
  exact isClosed_append (isClosed_genericsText hf) (isClosed_append isClosed_space hrest hspace)
    (apart_genericsText _)

/-- The declaration up to its name. -/
theorem spaced_headText (keyword : Keyword) :
    Spaced (Modifiers.visibilityText f.visibility ++ (keyword.text ++ [' '])) := by
  have hkeyword := isToken_keyword keyword
  exact (Modifiers.spaced_visibilityText hf.scope).append
    (hkeyword.spaced (by decide) hkeyword.ident_solid.head)

theorem head_name (rest : Text) : ∀ c ∈ (f.name ++ rest).head?, isBlank c = false := by
  obtain ⟨c, u, hname⟩ := List.exists_cons_of_ne_nil hf.name.ident_ne_nil
  have hblank := hf.name.ident_solid.head
  rw [hname] at hblank ⊢
  exact hblank

omit hf in
theorem text_eq (keyword : Keyword) (body : Text) : f.text keyword body =
    (Modifiers.visibilityText f.visibility ++ (keyword.text ++ [' '])) ++
      (f.name ++ (f.tailText ++ (body ++ ['\x7d']))) := by
  simp [text, leadText]

/-- The tokens of a frame with a balanced body, part by part. -/
theorem tokens_text (keyword : Keyword) {body : Text} (hbody : isBalanced body = true) :
    ∃ clause a b c d e n, IsClause clause ∧ n = (f.leadText keyword).length ∧
      (f.text keyword body).tokens = tokensAt 0 (Modifiers.visibilityText f.visibility) ++
        (⟨.ident, keyword.text, a, b⟩ :: ⟨.ident, f.name, c, d⟩ ::
          (tokensAt d (Header.genericsText f.generics) ++
            (clause ++ ⟨.punct, ['\x7b'], e, n⟩ :: (tokensAt n body ++
              [⟨.punct, ['\x7d'], n + body.length, n + body.length + 1⟩])))) := by
  have hkeyword := isToken_keyword keyword
  have hspaced := hkeyword.spaced (by decide) hkeyword.ident_solid.head
  have hvisibility := (Modifiers.spaced_visibilityText hf.scope).tokensAt_append hspaced.head 0
  rw [isBalanced, Bool.and_eq_true] at hbody
  obtain ⟨clause, e, n, hclause, hn, htail⟩ := tokensAt_tailText hf
    (((Modifiers.visibilityText f.visibility).length + (keyword.text ++ [' ']).length) + f.name.length)
    (body ++ ['\x7d'])
  have hlength : n = (f.leadText keyword).length := by
    rw [hn, leadText]
    simp only [List.length_append, List.length_cons, List.length_nil]
    omega
  have hend : tokensAt n (body ++ ['\x7d']) = tokensAt n body ++
      [⟨.punct, ['\x7d'], n + body.length, n + body.length + 1⟩] := by
    rw [tokensAt_append _ hbody.1 (Apart.of_head fun x _ => apart_mark (by decide)),
      tokensAt_plain _ (by decide), tokensAt_nil]
  have htokens := (spaced_headText hf keyword).tokensAt_append
    (head_name hf (f.tailText ++ (body ++ ['\x7d']))) 0
  rw [← text_eq, hvisibility, hkeyword.tokensAt_spaced (by decide), List.length_append, Nat.zero_add,
    Nat.zero_add, tokensAt_append _ (hf.name.isClosed (by decide))
      (apart_tailText f hf.name.ident_solid.last _), hf.name.tokensAt, htail, hend] at htokens
  simp only [List.append_assoc, List.singleton_append] at htokens
  exact ⟨clause, _, _, _, _, e, n, hclause, hlength, htokens⟩

theorem isClosed_text (keyword : Keyword) {body : Text} (hbody : isBalanced body = true) :
    isClosed (f.text keyword body) = true := by
  rw [isBalanced, Bool.and_eq_true] at hbody
  have hbrace : isClosed ['\x7d'] = true := by decide +kernel
  have hrest : isClosed (body ++ ['\x7d']) = true :=
    isClosed_append hbody.1 hbrace (Apart.of_head fun x _ => apart_mark (by decide))
  have htail : isClosed (f.tailText ++ (body ++ ['\x7d'])) = true := by
    refine isClosed_append (isClosed_tailText hf) hrest ?_
    intro x hx y _
    have hlast : f.tailText.getLast? = some '\x7b' := by
      rw [tailText, ← List.cons_append, ← List.append_assoc, List.getLast?_concat]
    rw [hlast, Option.mem_some_iff] at hx
    subst hx
    exact apart_plain (by decide) (by decide)
  rw [text_eq]
  exact isClosed_append (spaced_headText hf keyword).closed
    (isClosed_append (hf.name.isClosed (by decide)) htail
      (apart_tailText f hf.name.ident_solid.last _))
    ((spaced_headText hf keyword).apart (head_name hf _))

theorem solid_text (keyword : Keyword) (body : Text) : Solid (f.text keyword body) := by
  have hhead := (spaced_headText hf keyword).head
  have hlast : f.text keyword body = (f.leadText keyword ++ body) ++ ['\x7d'] := by
    rw [text, List.append_assoc]
  refine ⟨by simp [hlast], ?_, ?_⟩
  · rw [text_eq]
    cases hfront : Modifiers.visibilityText f.visibility ++ (keyword.text ++ [' ']) with
    | nil => simp at hfront
    | cons c u =>
      rw [hfront] at hhead
      simpa using hhead c rfl
  · rw [hlast, List.getLast?_concat]
    rintro c hc
    obtain rfl := Option.mem_some_iff.1 hc
    decide

omit hf in
/-- The body stands between the braces. -/
theorem slice_text (keyword : Keyword) (body : Text) :
    (f.text keyword body).slice (f.leadText keyword).length
      ((f.leadText keyword).length + body.length) = body :=
  slice_middle _ _ _

end Frame

/-! ## Reading a frame -/

theorem uncommented_eq {s : Text} (hsolid : Solid s) (hclosed : isClosed s = true)
    (hline : Over Inline s) : Enum.uncommented s = s := by
  have hcomment : s.beforeLineComment = s := by
    have hall : ∀ l ∈ lexemes s, (l.kind != .lineComment) = true := by
      intro l hl
      simpa using (Lexeme.of_areClosed hclosed l hl).1
    have htake : (lexemes s ++ []).takeWhile (fun l : Lexeme => l.kind != Lexeme.Kind.lineComment) =
        lexemes s ++ ([] : List Lexeme) :=
      List.takeWhile_append_of_pos hall
    rw [List.append_nil] at htake
    rw [beforeLineComment, htake, flatMap_text_lexemes]
  rw [Enum.uncommented_of_one hline, hcomment, hsolid.trim_eq]

section

variable {f : Frame} (hf : f.IsProper) {body : Text} (hbody : isBalanced body = true)

include hf hbody

/-- What the readers find in a frame. -/
theorem Frame.reads (keyword : Keyword) : ∃ i j name opener,
    Token.findKeyword keyword.text (f.text keyword body).tokens = some i ∧
    (f.text keyword body).tokens[i + 1]? = some name ∧ name.value = f.name ∧
    Struct.bodyIndex? (f.text keyword body).tokens i = some j ∧
    Enum.bodyIndex? (f.text keyword body).tokens i = some j ∧
    (f.text keyword body).tokens[j]? = some opener ∧ opener.isPunct ['\x7b'] = true ∧
    Token.bodyText (f.text keyword body) (f.text keyword body).tokens j = some body := by
  obtain ⟨clause, a, b, c, d, e, n, hclause, rfl, htokens⟩ := Frame.tokens_text hf keyword hbody
  obtain ⟨outer, houter⟩ := outside_of_isBalanced hbody (f.leadText keyword).length
  have hgenerics := Header.isGenerics_text hf.generics d
  have hopener : Token.isPunct ⟨.punct, ['\x7b'], e, (f.leadText keyword).length⟩ ['\x7b'] = true := by
    simp [Token.isPunct]
  have hcloser : Token.isPunct ⟨.punct, ['\x7d'], (f.leadText keyword).length + body.length,
      (f.leadText keyword).length + body.length + 1⟩ ['\x7d'] = true := by
    simp [Token.isPunct]
  have hfind : Token.findKeyword keyword.text (f.text keyword body).tokens =
      some (tokensAt 0 (Modifiers.visibilityText f.visibility)).length := by
    rw [htokens]
    exact (Modifiers.quiet_visibilityText hf.scope).findKeyword (by simp [Token.isIdent]) rfl
  have hindex := bodyIndex?_frame (tokensAt 0 (Modifiers.visibilityText f.visibility)) (tokensAt
    (f.leadText keyword).length body ++ [⟨.punct, ['\x7d'], (f.leadText keyword).length + body.length,
      (f.leadText keyword).length + body.length + 1⟩]) ⟨.ident, keyword.text, a, b⟩
    ⟨.ident, f.name, c, d⟩ hgenerics hclause hopener
  have hplaces := bodyText_frame (f.text keyword body)
    (tokensAt 0 (Modifiers.visibilityText f.visibility)) (tokensAt d (Header.genericsText f.generics))
    clause (tokensAt (f.leadText keyword).length body) ⟨.ident, keyword.text, a, b⟩
    ⟨.ident, f.name, c, d⟩ hopener houter hcloser
  rw [← htokens, Frame.slice_text] at hplaces
  rw [← htokens] at hindex
  exact ⟨_, _, _, _, hfind, hplaces.1, rfl, hindex.1, hindex.2, hplaces.2.1, hopener, hplaces.2.2⟩

/-- A frame of a struct is read with the named fields of its body. -/
theorem Struct.parse?_text (hne : body.trim ≠ []) : Struct.parse? (f.text .struct body) =
    some ⟨f.name, false, Struct.namedFields body, (f.text .struct body).isExposed⟩ := by
  obtain ⟨i, j, name, opener, hfind, hname, hvalue, hindex, -, hopened, hopener, hinner⟩ :=
    Frame.reads hf hbody .struct
  have hround : opener.isPunct ['('] = false := by
    simp only [Token.isPunct, Bool.and_eq_true, beq_iff_eq] at hopener
    simp [Token.isPunct, hopener]
  have hempty : body.trim.isEmpty = false := by simpa using hne
  rw [Struct.parse?]
  simp only [hfind, hname, hvalue, hindex, hopened, hround, hopener, hinner, hempty,
    Option.bind_eq_bind, Option.bind_some, Option.pure_def, if_true, if_false, Bool.false_eq_true]

/-- A frame of a struct is a struct, when no function begins in it. -/
theorem Class.of_text (hfn : ∀ i, Function.beginsAt (f.text .struct body).tokens i = false) :
    Class.of (f.text .struct body) = .documented .struct := by
  obtain ⟨clause, a, b, c, d, e, n, hclause, hn, htokens⟩ := Frame.tokens_text hf .struct hbody
  exact Class.of_quiet_struct (Modifiers.quiet_visibilityText hf.scope) (by simp [Token.isIdent]) rfl
    htokens hfn

/-- A frame of an enum on one line is read with the variants of its body. -/
theorem Enum.parse?_text (hline : Over Inline (f.text .enum body)) {variants : List Variant}
    (hvariants : (body.entries.map Variant.ofEntry).filter (fun v => !v.raw.isEmpty) = variants)
    (hne : variants ≠ []) : Enum.parse? (f.text .enum body) =
      some ⟨f.name, variants, (f.text .enum body).isExposed⟩ := by
  obtain ⟨i, j, name, opener, hfind, hname, hvalue, -, hindex, -, -, hinner⟩ :=
    Frame.reads hf hbody .enum
  have huncommented := uncommented_eq (Frame.solid_text hf .enum body)
    (Frame.isClosed_text hf .enum hbody) hline
  have hempty : variants.isEmpty = false := by simpa using hne
  rw [Enum.parse?, huncommented]
  simp only [hfind, hname, hvalue, hindex, hinner, hvariants, hempty, Option.bind_eq_bind,
    Option.bind_some, Option.pure_def, if_false, Bool.false_eq_true]

end

end DocScaffold.Item
