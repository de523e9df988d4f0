import DocScaffold.Proofs.Agreement
import DocScaffold.Proofs.Continuing
import DocScaffold.Proofs.Parameters
import DocScaffold.Proofs.Starts

/-!
# Functions in front of other text

The head of a function goes up to the brace or the semicolon outside its brackets. Everything that is
read off a function is read off its head but for its exposure, which any `pub` or `extern` in the text
behind it decides (`agree_iff_exposed`).
-/

namespace DocScaffold

open Text

namespace Text

/-- A sign of its own keeps the tokens in front of it as they are. -/
theorem tokens_append_mark {s : Text} {c : Char} (hclosed : isClosed s = true) (hc : isMark c = true)
    (x : Text) : tokens (s ++ c :: x) =
      s.tokens ++ [⟨.punct, [c], s.length, s.length + 1⟩] ++ tokensAt (s.length + 1) x := by
  have hplain : isPlain c = true := by
    rw [isMark, Bool.and_eq_true] at hc
    exact hc.1
  rw [tokens_append hclosed (Apart.of_head fun y _ => apart_mark hc), tokensAt_plain _ hplain,
    List.append_assoc, List.singleton_append]

end Text

namespace Modifiers

variable {s : Text} {ts : List Token}

theorem scopeText?_append {group : List Token} (h : ∀ t ∈ group, t.stop ≤ s.length) (x : Text) :
    scopeText? (s ++ x) group = scopeText? s group := by
  rw [scopeText?, scopeText?]
  cases hfirst : group.tail.dropLast.getLast? with
  | none => rfl
  | some first =>
    cases hlast : group.tail.dropLast.head? with
    | none => rfl
    | some last =>
      have hmem : last ∈ group :=
        List.mem_of_mem_tail (List.dropLast_subset _ (List.mem_of_head? hlast))
      simp only [Option.bind_eq_bind, Option.bind_some, slice_append_left (h last hmem)]

theorem takeVisibility_append (h : ∀ t ∈ ts, t.stop ≤ s.length) (x : Text) :
    takeVisibility (s ++ x) ts = takeVisibility s ts := by
  cases ts with
  | nil => rfl
  | cons t rest =>
    rw [takeVisibility, takeVisibility]
    cases hsplit : splitGroup 0 (t :: rest) with
    | none => rfl
    | some p =>
      obtain ⟨group, before⟩ := p
      have hgroup : ∀ u ∈ group, u.stop ≤ s.length := by
        intro u hu
        apply h
        rw [splitGroup_eq hsplit]
        exact List.mem_append_left _ hu
      cases before with
      | nil => rfl
      | cons p before =>
        dsimp only
        rw [scopeText?_append hgroup]

theorem mem_of_takeWord {word : Text} {t : Token} (h : t ∈ (takeWord word ts).2) : t ∈ ts := by
  cases ts with
  | nil => exact h
  | cons u rest =>
    rw [takeWord] at h
    split at h
    · exact List.mem_cons_of_mem u h
    · exact h

theorem mem_of_takeLinkage {t : Token} (h : t ∈ (takeLinkage ts).2) : t ∈ ts := by
  unfold takeLinkage at h
  split at h
  · split at h
    · exact List.mem_cons_of_mem _ (List.mem_cons_of_mem _ h)
    · split at h
      · exact List.mem_cons_of_mem _ h
      · exact h
  · split at h
    · simp at h
    · exact h
  · exact h

/-- Modifiers are read off the text in front of the keyword alone. -/
theorem before_append {i : Nat} (hi : i ≤ ts.length) (h : ∀ t ∈ ts, t.stop ≤ s.length) (x : Text)
    (us : List Token) : before (s ++ x) (ts ++ us) i = before s ts i := by
  have hall : ∀ t ∈ (ts.take i).reverse, t.stop ≤ s.length :=
    fun t ht => h t (List.mem_of_mem_take (List.mem_reverse.1 ht))
  have htake : takeAll (s ++ x) (ts.take i).reverse = takeAll s (ts.take i).reverse := by
    rw [takeAll, takeAll]
    dsimp only
    rw [takeVisibility_append]
    intro t ht
    exact hall t (mem_of_takeLinkage (mem_of_takeWord (mem_of_takeWord (mem_of_takeWord ht))))
  rw [before, before, List.take_append_of_le_length hi, htake]

end Modifiers

namespace Token

/-- How far tokens leave the depth of round and square brackets. -/
def typeDepth (ts : List Token) : Int := netDepth '(' ')' ts + netDepth '[' ']' ts

theorem typeDepth_cons (t : Token) (ts : List Token) : typeDepth (t :: ts) =
    (if Item.Function.opensType t then 1 else if Item.Function.closesType t then -1 else 0) +
      typeDepth ts := by
  rw [typeDepth, typeDepth, netDepth, netDepth, Item.Function.opensType, Item.Function.closesType]
  by_cases hround : t.isPunct ['('] = true
  · have hsquare := isPunct_unique (b := ['[']) hround (by decide)
    have hclose := isPunct_unique (b := [']']) hround (by decide)
    rw [hround, hsquare, hclose]
    simp only [Bool.true_or, if_true, Bool.false_eq_true, if_false]
    omega
  · rw [Bool.not_eq_true] at hround
    by_cases hclose : t.isPunct [')'] = true
    · have hsquare := isPunct_unique (b := ['[']) hclose (by decide)
      have hother := isPunct_unique (b := [']']) hclose (by decide)
      rw [hround, hclose, hsquare, hother]
      simp only [Bool.or_false, if_true, Bool.false_eq_true, if_false]
      omega
    · rw [Bool.not_eq_true] at hclose
      rw [hround, hclose]
      simp only [Bool.false_or, Bool.false_eq_true, if_false]
      omega

/-- The signs at which a generic list breaks off. -/
def breaksAngles (t : Token) : Bool := t.isPunct ['{'] || t.isPunct [';']

theorem exists_of_breaksAngles {t : Token} (h : t.breaksAngles = true) :
    ∃ c, (c = '{' ∨ c = ';') ∧ t.isPunct [c] = true := by
  rw [breaksAngles, Bool.or_eq_true] at h
  rcases h with h | h
  · exact ⟨'{', .inl rfl, h⟩
  · exact ⟨';', .inr rfl, h⟩

theorem bodyText_append {s : Text} {ts : List Token} {i close : Nat}
    (hclose : findClosing ts i = some close) (h : ∀ t ∈ ts, t.start ≤ s.length) (x : Text)
    (us : List Token) :
    bodyText (s ++ x) (ts ++ us) i = bodyText s ts i ∧ (bodyText s ts i).isSome = true := by
  obtain ⟨hle, hlt⟩ := findClosing_lt hclose
  have hi : i < ts.length := by omega
  have hstart := h ts[close] (List.getElem_mem hlt)
  rw [bodyText, bodyText, findClosing_append hclose, hclose, List.getElem?_append_left hi,
    List.getElem?_eq_getElem hi]
  simp only [Option.bind_eq_bind, Option.bind_some, List.getElem?_append_left hlt,
    List.getElem?_eq_getElem hlt, slice_append_left hstart]
  exact ⟨trivial, rfl⟩

end Token

namespace Item.Function

/-- Brackets closed, a type ends at the latest at the sign that ends it. -/
theorem exists_returnStop? {depth : Int} {ts : List Token} {t : Token}
    (hdepth : depth + Token.typeDepth ts = 0) (hends : endsType t = true)
    (hsign : opensType t = false ∧ closesType t = false) :
    ∃ u ∈ ts ++ [t], returnStop? depth (ts ++ [t]) = some u.start := by
  induction ts generalizing depth with
  | nil =>
    have hzero : depth = 0 := by
      simpa [Token.typeDepth, Token.netDepth] using hdepth
    refine ⟨t, by simp, ?_⟩
    rw [List.nil_append, returnStop?_cons, hsign.1, hsign.2, hzero, hends]
    rfl
  | cons v ts ih =>
    have hrest : ∀ depth : Int, depth + Token.typeDepth ts = 0 →
        ∃ u ∈ v :: ts ++ [t], returnStop? depth (ts ++ [t]) = some u.start := by
      intro depth h
      obtain ⟨u, hu, hstop⟩ := ih h
      exact ⟨u, List.mem_cons_of_mem v hu, hstop⟩
    rw [Token.typeDepth_cons] at hdepth
    rw [List.cons_append, returnStop?_cons]
    split
    · rename_i hopens
      rw [if_pos hopens] at hdepth
      exact hrest _ (by omega)
    · rename_i hopens
      rw [if_neg hopens] at hdepth
      split
      · rename_i hcloses
        rw [if_pos hcloses] at hdepth
        exact hrest _ (by omega)
      · rename_i hcloses
        rw [if_neg hcloses] at hdepth
        split
        · exact ⟨v, by simp, rfl⟩
        · exact hrest _ (by omega)

/-- A return type is read off the text up to the sign that ends it. -/
theorem returnTypeOf_append {s : Text} {ts : List Token} {t : Token}
    (hdepth : Token.typeDepth ts = 0) (hends : endsType t = true)
    (hsign : opensType t = false ∧ closesType t = false ∧ t.isPunct ['-', '>'] = false)
    (hstops : ∀ u ∈ ts ++ [t], u.start ≤ s.length) (x : Text) (us : List Token) :
    returnTypeOf (s ++ x) (ts ++ [t] ++ us) = returnTypeOf s (ts ++ [t]) := by
  cases ts with
  | nil =>
    rw [List.nil_append, List.singleton_append, returnTypeOf, returnTypeOf, hsign.2.2]
    rfl
  | cons v ts =>
    rw [List.cons_append, List.cons_append, returnTypeOf, returnTypeOf]
    split
    · rename_i harrow
      have hv : opensType v = false ∧ closesType v = false := by
        rw [opensType, closesType, Token.isPunct_unique harrow (by decide),
          Token.isPunct_unique harrow (by decide), Token.isPunct_unique harrow (by decide),
          Token.isPunct_unique harrow (by decide)]
        exact ⟨rfl, rfl⟩
      rw [Token.typeDepth_cons, hv.1, hv.2, if_neg (by decide), if_neg (by decide)] at hdepth
      obtain ⟨u, hu, hstop⟩ := exists_returnStop? hdepth hends ⟨hsign.1, hsign.2.1⟩
      have hle := hstops u (List.mem_cons_of_mem v hu)
      rw [returnStop?_append hstop, hstop, Option.getD_some, Option.getD_some,
        slice_append_left hle]
    · rfl

/-! ## Complete headers -/

theorem spec_of_breaksAngles {t : Token} (h : t.breaksAngles = true) : endsType t = true ∧
    opensType t = false ∧ closesType t = false ∧ t.isPunct ['-', '>'] = false := by
  obtain ⟨c, hc, hsign⟩ := Token.exists_of_breaksAngles h
  have hother : ∀ a : Text, a ≠ ['{'] → a ≠ [';'] → t.isPunct a = false := by
    intro a hbrace hsemicolon
    rcases hc with rfl | rfl
    · exact Token.isPunct_unique hsign hbrace.symm
    · exact Token.isPunct_unique hsign hsemicolon.symm
  have hends : endsType t = true := by
    rw [endsType, ← Token.breaksAngles, h]
    rfl
  have hopens : opensType t = false := by
    rw [opensType, hother _ (by decide) (by decide), hother _ (by decide) (by decide)]
    rfl
  have hcloses : closesType t = false := by
    rw [closesType, hother _ (by decide) (by decide), hother _ (by decide) (by decide)]
    rfl
  exact ⟨hends, hopens, hcloses, hother _ (by decide) (by decide)⟩

theorem parse?_eq_some_iff {s : Text} {f : Function} : parse? s = some f ↔ ∃ i opened name close arguments,
    locate? s.tokens = some (i, opened) ∧ s.tokens[i + 1]? = some name ∧
      Token.findClosing s.tokens opened = some close ∧
      Token.bodyText s s.tokens opened = some arguments ∧
      f = ⟨name.value, (Modifiers.before s s.tokens i).1, parametersOf arguments,
        returnTypeOf s (s.tokens.drop (close + 1)), s.isExposed⟩ := by
  simp only [parse?, Option.bind_eq_bind, Option.bind_eq_some_iff, Option.pure_def, Option.some.injEq,
    Prod.exists, eq_comm (b := f)]
  constructor
  · rintro ⟨i, opened, hlocate, name, hname, close, hclose, arguments, harguments, rfl⟩
    exact ⟨i, opened, name, close, arguments, hlocate, hname, hclose, harguments, rfl⟩
  · rintro ⟨i, opened, name, close, arguments, hlocate, hname, hclose, harguments, rfl⟩
    exact ⟨i, opened, hlocate, name, hname, close, hclose, arguments, harguments, rfl⟩

/-- The header of the function that is located goes up to a brace or a semicolon outside its brackets,
with which the text ends. -/
def IsComplete (s : Text) : Prop := ∃ i opened close type mark,
  locate? s.tokens = some (i, opened) ∧ Token.findClosing s.tokens opened = some close ∧
    s.tokens.drop (close + 1) = type ++ [mark] ∧ Token.typeDepth type = 0 ∧
    mark.breaksAngles = true

/-- The function of a complete header is read the same in front of other tokens, if none is located in
front of it. -/
theorem IsComplete.parse?_append {s x : Text} {us : List Token} {f : Function} (hcomplete : IsComplete s)
    (hparse : parse? s = some f) (htokens : tokens (s ++ x) = s.tokens ++ us)
    (hlocate : locate? (s.tokens ++ us) = locate? s.tokens) :
    parse? (s ++ x) = some { f with isExposed := (s ++ x).isExposed } := by
  obtain ⟨i, opened, name, close, arguments, hfirst, hname, hclose, harguments, rfl⟩ :=
    parse?_eq_some_iff.1 hparse
  obtain ⟨i', opened', close', type, mark, hfirst', hclose', hbehind, hdepth, hmark⟩ := hcomplete
  obtain ⟨rfl, rfl⟩ := Prod.mk.inj (Option.some.inj (hfirst'.symm.trans hfirst))
  obtain rfl := Option.some.inj (hclose'.symm.trans hclose)
  obtain ⟨hends, hsign⟩ := spec_of_breaksAngles hmark
  have hstart : ∀ t ∈ s.tokens, t.start ≤ s.length := fun t ht => start_le_of_mem_tokens ht
  have hlt := (Token.findClosing_lt hclose).2
  have hi := (List.getElem?_eq_some_iff.1 hname).1
  refine parse?_eq_some_iff.2 ⟨i', opened', name, close', arguments, ?_, ?_, ?_, ?_, ?_⟩
  · rw [htokens, hlocate, hfirst]
  · rw [htokens, Token.getElem?_of_append hname]
  · rw [htokens, Token.findClosing_append hclose]
  · rw [htokens, (Token.bodyText_append hclose hstart x us).1, harguments]
  · have hreturn := returnTypeOf_append hdepth hends hsign
      (fun u hu => hstart u (List.mem_of_mem_drop (hbehind ▸ hu))) x us
    rw [htokens, Modifiers.before_append (by omega) (fun t ht => (span_of_mem_tokens ht).2) x us,
      List.drop_append_of_le_length (by omega), hbehind, hreturn]

/-! ## Heads -/

/-- A function up to the sign behind its header: nothing is left open in it, its `fn` is the first
item keyword, its generic list ends, its parentheses close, and so do the brackets behind them. -/
structure IsHead (s : Text) (keyword opened close : Nat) : Prop where
  closed : isClosed s = true
  first : (s.tokens.findIdx? fun t => (Keyword.ofToken? t).isSome) = some keyword
  begins : beginsAt s.tokens keyword = true
  generics : Token.skipAngles s.tokens (keyword + 2) = some opened
  opens : ∃ opener, s.tokens[opened]? = some opener ∧ opener.isPunct ['('] = true
  closes : Token.findClosing s.tokens opened = some close
  depth : Token.typeDepth (s.tokens.drop (close + 1)) = 0

/-- The signs that a header ends at. -/
def endsHead (mark : Char) : Prop := mark = '{' ∨ mark = ';'

/-- Whether a text begins with the whole header of a function. -/
def HasHead (s : Text) : Prop := ∃ front mark behind keyword opened close,
  s = front ++ mark :: behind ∧ endsHead mark ∧ IsHead front keyword opened close

theorem isMark_of_endsHead {mark : Char} (h : endsHead mark) : isMark mark = true := by
  rcases h with rfl | rfl <;> decide

variable {s : Text} {keyword opened close : Nat} {mark : Char}

theorem exists_of_beginsAt {ts : List Token} {i : Nat} (h : beginsAt ts i = true) :
    ∃ t name, ts[i]? = some t ∧ ts[i + 1]? = some name ∧ t.isIdent "fn" = true ∧
      name.kind = .ident := by
  rw [beginsAt] at h
  split at h
  · rename_i t name ht hname
    rw [Bool.and_eq_true] at h
    exact ⟨t, name, ht, hname, h.1, by simpa using h.2⟩
  · simp at h

/-- The function of a head is the one that is located and classified. -/
theorem IsHead.spec (h : IsHead s keyword opened close) {t : Text} {us : List Token}
    (htokens : t.tokens = s.tokens ++ us) :
    Class.of t = .documented .function ∧ locate? t.tokens = some (keyword, opened) := by
  obtain ⟨first, rest, hsplit, hget, -, hnone⟩ := Keyword.split_findIdx? h.first
  obtain ⟨fn, name, hfn, hname, hident, hkind⟩ := exists_of_beginsAt h.begins
  obtain rfl : first = fn := by
    rw [hget] at hfn
    exact Option.some.inj hfn
  have hquiet := Modifiers.quiet_of_none hnone
  have hlength : (s.tokens.take keyword).length = keyword := by
    have := (List.getElem?_eq_some_iff.1 hget).1
    rw [List.length_take]
    omega
  have hwhole : t.tokens = s.tokens.take keyword ++ first :: (rest ++ us) := by
    rw [htokens]
    conv_lhs => rw [hsplit]
    rw [List.append_assoc, List.cons_append]
  obtain ⟨opener, hopener, hround⟩ := h.opens
  have hopened := (List.getElem?_eq_some_iff.1 hopener).1
  have hlocate : locate? t.tokens = some (keyword, opened) := by
    have hplace : t.tokens[opened]? = some opener := by
      rw [htokens, List.getElem?_append_left hopened]
      exact hopener
    refine locate?_eq ?_ ?_ ?_ hplace hround
    · intro j hj
      rw [hwhole]
      exact hquiet.beginsAt _ (by rw [hlength]; exact hj)
    · rw [htokens, beginsAt, List.getElem?_append_left (List.getElem?_eq_some_iff.1 hget).1,
        List.getElem?_append_left (List.getElem?_eq_some_iff.1 hname).1, hget, hname]
      dsimp only
      rw [hident, hkind]
      rfl
    · rw [htokens]
      exact Token.skipAngles_append h.generics hopened
  refine ⟨Class.of_quiet hquiet hident hwhole ?_, hlocate⟩
  rw [hlocate]
  rfl

/-- Behind a head nothing changes what is read but the exposure. -/
theorem IsHead.exists_parse? (h : IsHead s keyword opened close) (hmark : endsHead mark) :
    ∃ f : Function, ∀ x, parse? (s ++ mark :: x) =
      some { f with isExposed := (s ++ mark :: x).isExposed } := by
  generalize hsign : (⟨.punct, [mark], s.length, s.length + 1⟩ : Token) = sign
  have hbreaks : sign.breaksAngles = true := by
    subst hsign
    rcases hmark with rfl | rfl <;> rfl
  have htokens : ∀ x, tokens (s ++ mark :: x) = s.tokens ++ [sign] ++ tokensAt (s.length + 1) x := by
    subst hsign
    exact tokens_append_mark h.closed (isMark_of_endsHead hmark)
  have hwhole : tokens (s ++ [mark]) = s.tokens ++ [sign] := by
    rw [htokens, tokensAt_nil, List.append_nil]
  have hlocate : ∀ x, locate? (s ++ mark :: x).tokens = some (keyword, opened) :=
    fun x => (h.spec ((htokens x).trans (List.append_assoc _ _ _))).2
  have hclose : Token.findClosing (s ++ [mark]).tokens opened = some close := by
    rw [hwhole, Token.findClosing_append h.closes]
  obtain ⟨t, name, -, hname, -, -⟩ := exists_of_beginsAt h.begins
  obtain ⟨arguments, harguments⟩ := Option.isSome_iff_exists.1
    (Token.bodyText_append hclose (fun u hu => start_le_of_mem_tokens hu) [] []).2
  obtain ⟨f, hparse⟩ : ∃ f, parse? (s ++ [mark]) = some f :=
    ⟨_, parse?_eq_some_iff.2 ⟨keyword, opened, name, close, arguments, hlocate [],
      by rw [hwhole, Token.getElem?_of_append hname], hclose, harguments, rfl⟩⟩
  have hcomplete : IsComplete (s ++ [mark]) := by
    refine ⟨keyword, opened, close, s.tokens.drop (close + 1), sign, hlocate [], hclose, ?_, h.depth,
      hbreaks⟩
    rw [hwhole, List.drop_append_of_le_length (Token.findClosing_lt h.closes).2]
  refine ⟨f, fun x => ?_⟩
  have hsplit : s ++ mark :: x = s ++ [mark] ++ x := by simp
  have hbehind : tokens (s ++ [mark] ++ x) = (s ++ [mark]).tokens ++ tokensAt (s.length + 1) x := by
    rw [← hsplit, hwhole, htokens]
  rw [hsplit]
  refine hcomplete.parse?_append hparse hbehind ?_
  rw [← hbehind, ← hsplit, hlocate, hlocate]

end Item.Function

/-! ## Drafts -/

namespace Draft

theorem render_add (d : Draft) (lines : List Text) : (d.add lines).render =
    d.render ++ lines.flatMap fun line => '\n' :: ("/// ".toList ++ line) := by
  have happ : ∀ (w : Text) (ws vs : List Text), joined (w :: (ws ++ vs)) =
      joined (w :: ws) ++ vs.flatMap ('\n' :: ·) := by
    intro w ws vs
    induction ws generalizing w with
    | nil =>
      induction vs generalizing w with
      | nil => simp
      | cons v vs ih =>
        rw [List.nil_append] at ih ⊢
        rw [joined_cons_cons, ih v, List.flatMap_cons]
        simp [joined]
    | cons u ws ih =>
      rw [List.cons_append, joined_cons_cons, joined_cons_cons, ih u, List.append_assoc]
      rfl
  have hlines : (d.add lines).render = joined (d.headLine ::
      (d.body.map ("/// ".toList ++ ·) ++ lines.map ("/// ".toList ++ ·))) := by
    rw [render, add, ← List.map_append]
    rfl
  rw [hlines, happ, List.flatMap_map]
  rfl

/-- The lines of an example stand at the end of a template. -/
theorem render_addExample_eq (d : Draft) (e : Example) : (d.addExample e).render =
    (d.add (heading "Examples" ++ e.lines (slotText d.nextSlot "..."))).render := by
  have hbody : (d.addExample e).body =
      d.body ++ (heading "Examples" ++ e.lines (slotText d.nextSlot "...")) :=
    List.append_assoc _ _ _
  rw [render, hbody]
  rfl

/-- An example shows. -/
theorem render_addExample (d : Draft) (e : Example) : (d.addExample e).render ≠ d.render := by
  rw [render_addExample_eq, render_add]
  intro heq
  have hlength := congrArg List.length heq
  simp [heading] at hlength

end Draft

theorem Options.admitsExample_eq_iff {o : Options} {a b : Bool} :
    o.admitsExample a = o.admitsExample b ↔
      (o.includeExamples = true → o.examplesOnlyExposed = true → a = b) := by
  rw [admitsExample, admitsExample]
  cases o.includeExamples with
  | false => simp
  | true =>
    cases o.examplesOnlyExposed with
    | false => simp
    | true => simp

/-- The exposure of a function decides about its example, and about nothing else. -/
theorem Item.Function.render_eq_iff (f : Item.Function) (o : Options) (a b : Bool) :
    ({ f with isExposed := a }.draft o).render = ({ f with isExposed := b }.draft o).render ↔
      o.admitsExample a = o.admitsExample b := by
  obtain ⟨d, hdraft⟩ : ∃ d : Draft, ∀ e : Bool, { f with isExposed := e }.draft o =
      if o.admitsExample e then d.addExample f.usage else d :=
    ⟨f.addErrors (f.addSafety o (f.addReturns (f.addParameters
      (.new "Describe this function." 2)))), fun _ => rfl⟩
  have hne := d.render_addExample f.usage
  rw [hdraft, hdraft]
  cases o.admitsExample a with
  | false =>
    cases o.admitsExample b with
    | false => simp
    | true => simpa using hne.symm
  | true =>
    cases o.admitsExample b with
    | false => simpa using hne
    | true => simp

/-! ## Two continuations -/

namespace Generator

variable {g : Generator} {o : Options}

theorem document_of_function {s : Text} {f : Item.Function}
    (hclass : Item.Class.of s = .documented .function) (hparse : Item.Function.parse? s = some f) :
    g.document s o = if g.kinds.contains .function then .template .function (f.draft o).render
      else .disabled .function := by
  rw [document, hclass]
  dsimp only
  rw [Item.template?, hparse]
  rfl

open Item.Function in
/-- Two texts that a head begins are documented alike up to the exposure. -/
theorem document_eq_iff {front : Text} {mark : Char} {keyword opened close : Nat}
    (h : IsHead front keyword opened close) (hmark : endsHead mark) (x y : Text) :
    g.document (front ++ mark :: x) o = g.document (front ++ mark :: y) o ↔
      (g.kinds.contains .function = true → o.includeExamples = true → o.examplesOnlyExposed = true →
        (front ++ mark :: x).isExposed = (front ++ mark :: y).isExposed) := by
  obtain ⟨f, hf⟩ := h.exists_parse? hmark
  have hclass : ∀ x, Item.Class.of (front ++ mark :: x) = .documented .function := by
    intro x
    have htokens := tokens_append_mark h.closed (isMark_of_endsHead hmark) x
    exact (h.spec (htokens.trans (List.append_assoc _ _ _))).1
  rw [document_of_function (hclass x) (hf x), document_of_function (hclass y) (hf y)]
  cases g.kinds.contains .function with
  | false => simp
  | true =>
    rw [if_pos rfl, if_pos rfl, ← Options.admitsExample_eq_iff, ← f.render_eq_iff]
    simp

/-- The lines behind the header of a function change its template only through their own mentions of a
visibility or `extern`, when examples are for exposed functions only. Lines behind one that ends the
function do not change it at all. -/
theorem agree_iff_exposed {lines : List Text} {cursor : Nat} {d : Declaration}
    (hfound : Declaration.search lines cursor = .found d) (hkeyword : d.keyword = .fn)
    (hhead : Item.Function.HasHead d.signature ∨
      Declaration.isEnded d.keyword (d.material lines) = true) (later later' : List Text) :
    ∃ d₁ d₂, Declaration.search (lines ++ later) cursor = .found d₁ ∧
      Declaration.search (lines ++ later') cursor = .found d₂ ∧
      (g.documentBehind (lines ++ later) cursor o = g.documentBehind (lines ++ later') cursor o ↔
        (g.kinds.contains .function = true → o.includeExamples = true →
          o.examplesOnlyExposed = true → d₁.signature.isExposed = d₂.signature.isExposed)) := by
  rcases hhead with ⟨front, mark, behind, keyword, opened, close, hsignature, hmark, hhead⟩ | hended
  · obtain ⟨d₁, hsearch₁, -, -, x, hx⟩ := Declaration.search_append hfound later
    obtain ⟨d₂, hsearch₂, -, -, y, hy⟩ := Declaration.search_append hfound later'
    refine ⟨d₁, d₂, hsearch₁, hsearch₂, ?_⟩
    rw [documentBehind_of_found hsearch₁, documentBehind_of_found hsearch₂, Option.some.injEq, hx, hy,
      hsignature, List.append_assoc, List.append_assoc, List.cons_append, List.cons_append]
    exact document_eq_iff hhead hmark (behind ++ x) (behind ++ y)
  · have hbody : d.keyword.hasBody = false := by
      rw [hkeyword]
      rfl
    have hsearch₁ := Declaration.search_of_ended hfound hbody hended later
    have hsearch₂ := Declaration.search_of_ended hfound hbody hended later'
    refine ⟨d, d, hsearch₁, hsearch₂, ?_⟩
    rw [documentBehind_of_found hsearch₁, documentBehind_of_found hsearch₂]
    exact ⟨fun _ _ _ _ => rfl, fun _ => rfl⟩

/-- A function whose body ends on the line of its header. -/
def loneLines : List Text := ["///", "fn reset() \x7b\x7d"]

def loneDeclaration : Declaration := ⟨"fn reset() \x7b\x7d", .fn, 1, 1⟩

/-- Examples for exposed functions only. -/
def exposedOnly : Options := { examplesOnlyExposed := true }

theorem agree_iff_exposed_lone :
    ∃ d₁ d₂, Declaration.search (loneLines ++ ["pub fn next() \x7b".toList]) 0 = .found d₁ ∧
      Declaration.search (loneLines ++ ["fn next() \x7b".toList]) 0 = .found d₂ ∧
      (full.documentBehind (loneLines ++ ["pub fn next() \x7b".toList]) 0 exposedOnly =
          full.documentBehind (loneLines ++ ["fn next() \x7b".toList]) 0 exposedOnly ↔
        (full.kinds.contains .function = true → exposedOnly.includeExamples = true →
          exposedOnly.examplesOnlyExposed = true →
            d₁.signature.isExposed = d₂.signature.isExposed)) := by
  have hfound : Declaration.search loneLines 0 = .found loneDeclaration := by
    decide +kernel
  have hhead : Item.Function.IsHead "fn reset() " 0 2 3 := {
    closed := by decide +kernel
    first := by decide +kernel
    begins := by decide +kernel
    generics := by decide +kernel
    opens := ⟨⟨.punct, ['('], 8, 9⟩, by decide +kernel, rfl⟩
    closes := by decide +kernel
    depth := by decide +kernel }
  have hwhole : Item.Function.HasHead loneDeclaration.signature :=
    ⟨"fn reset() ", '{', ['}'], 0, 2, 3, rfl, .inl rfl, hhead⟩
  exact agree_iff_exposed hfound rfl (.inl hwhole) _ _

/-- The template behind the first of some lines. -/
def templateOf (lines : List Text) (o : Options) : Option Text :=
  (full.documentBehind lines 0 o).bind Outcome.template?

/-- What follows a function shows in its template: the visibility of the next one, a function that is
read in its place when its generic list holds a brace, and a quote that closes one in its header. -/
theorem disagree :
    templateOf (loneLines ++ ["pub fn next() \x7b".toList]) exposedOnly ≠
        templateOf (loneLines ++ ["fn next() \x7b".toList]) exposedOnly ∧
      templateOf ["///", "fn fill<T: Into<[u8; \x7b 3 \x7d]>>() \x7b\x7d", "fn next() \x7b"] {} ≠
        templateOf ["///", "fn fill<T: Into<[u8; \x7b 3 \x7d]>>() \x7b\x7d", "fn last() \x7b"] {} ∧
      templateOf ["///", "fn left(mark: \") \x7b\x7d", "\") -> u8 \x7b"] {} ≠
        templateOf ["///", "fn left(mark: \") \x7b\x7d", "fn right() \x7b"] {} := by
  decide +kernel

end Generator

end DocScaffold
