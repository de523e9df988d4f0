import Mathlib.Data.List.Infix
import DocScaffold.Proofs.Bodies
import DocScaffold.Proofs.Heads
import DocScaffold.Proofs.RespacedModifiers

/-!
# Functions over several rows

A search takes the rows of a function up to the first one that ends with a brace or a semicolon, whatever
is open there. If no row in front of the end of the parameters does so, the function that is read of what
the search takes is the one on a single line (`search_wrapped`): the rows that are taken are a front of
the text that reaches behind the parameters (`Breaks.exists_front`), nothing but the type behind them
depends on the rest (`exists_parse?_of_append`), and their pieces put together have the tokens of the
front (`Breaks.alike`).
-/

namespace DocScaffold

open Text

/-! ## Texts in front of others -/

theorem Text.IsGap.tokens {s x : Text} (h : IsGap s x) :
    Text.tokens (s ++ x) = Text.tokens s ++ tokensAt s.length x := by
  have hls : lexemes (s ++ x) = lexemes s ++ lexemes x := h
  rw [Text.tokens, hls, tokensFrom_append, flatMap_text_lexemes, Nat.zero_add]
  rfl

namespace Text

/-- The first pieces of a text are those of a text in front of a gap. -/
theorem Breaks.exists_front {s : Text} {ps qs : List Text} (h : Breaks s (ps ++ qs)) (hne : ps ≠ []) :
    ∃ front behind, s = front ++ behind ∧ IsGap front behind ∧ Breaks front ps := by
  induction ps generalizing s with
  | nil => exact absurd rfl hne
  | cons p ps ih =>
    rw [List.cons_append] at h
    generalize hall : ps ++ qs = all at h
    cases h with
    | last solid =>
      obtain ⟨rfl, rfl⟩ := List.append_eq_nil_iff.1 hall
      exact ⟨p, [], by simp, isGap_nil p, .last solid⟩
    | @cons _ w rest _ solid blank gap hrest =>
      subst hall
      rcases List.eq_nil_or_concat' ps with rfl | ⟨_, _, hps⟩
      · exact ⟨p, w ++ rest, rfl, gap, .last solid⟩
      · obtain ⟨front, behind, rfl, hgap, hfront⟩ := ih hrest (by simp [hps])
        obtain ⟨hw, hwbehind⟩ := (isGap_blanks blank hrest.head_not_blank).append hgap
        rw [← List.append_assoc w] at gap
        obtain ⟨hp, hpbehind⟩ := gap.append hwbehind
        exact ⟨p ++ (w ++ front), behind, by simp, hpbehind, .cons solid blank hp hfront⟩

/-- Pieces put together with single spaces are alike to the text that they are pieces of. -/
theorem Breaks.alike {s : Text} {ps : List Text} (h : Breaks s ps) (hs : Settled s) :
    Alike s (unwords ps).collapse := by
  have hseparate := h.separate hs
  have hcollapse : (unwords ps).collapse = squeeze (joined ps) := by
    rw [(solid_unwords h.ne_nil hseparate.solid).collapse_eq, squeeze_unwords hseparate.solid]
  have hpieces : Lexeme.core (lexemes s) = ps.flatMap fun p => Lexeme.core (lexemes p) :=
    h.filterMap_lexemes fun _ hl => if_pos hl
  have hfeeds : Lexeme.core (List.intercalate [⟨.blank, ['\n']⟩] (ps.map lexemes)) =
      (ps.map lexemes).flatMap Lexeme.core := filterMap_intercalate rfl _
  have hjoined : Settled (joined ps) := by
    intro l hl
    rw [hseparate.joined] at hl
    rcases mem_intercalate hl with hl | ⟨ls, hls, hl⟩
    · obtain rfl := List.mem_singleton.1 hl
      exact ⟨rfl, by simp⟩
    · obtain ⟨p, hp, rfl⟩ := List.mem_map.1 hls
      exact h.settled_of_mem hs p hp l hl
  refine ⟨hs, by rw [hcollapse]; exact hjoined.squeeze, ?_⟩
  rw [hcollapse, hjoined.core_squeeze, hseparate.joined, hfeeds, hpieces, List.flatMap_map]

end Text

namespace Item.Function

variable {s t x : Text} {f : Function}

/-- What is read of a function but for its type and its exposure is read in front of any text that
begins behind its parameters. -/
theorem exists_parse?_of_append (hgap : IsGap s x) (hparse : parse? (s ++ x) = some f)
    {i opened close : Nat} (hlocate : locate? (Text.tokens (s ++ x)) = some (i, opened))
    (hclose : Token.findClosing (Text.tokens (s ++ x)) opened = some close)
    (hlt : close < s.tokens.length) : ∃ g, parse? s = some g ∧ g.name = f.name ∧
      g.modifiers = f.modifiers ∧ g.parameters = f.parameters := by
  obtain ⟨i', opened', name, close', arguments, hlocate', hname, hclose', harguments, rfl⟩ :=
    parse?_eq_some_iff.1 hparse
  obtain ⟨rfl, rfl⟩ := Prod.mk.inj (Option.some.inj (hlocate'.symm.trans hlocate))
  obtain rfl := Option.some.inj (hclose'.symm.trans hclose)
  rw [hgap.tokens] at hlocate hclose hname harguments hparse
  have hle := (Token.findClosing_lt hclose).1
  have hbehind := Token.le_of_skipAngles (spec_of_locate? hlocate).2.1
  have hclose'' := Token.findClosing_of_append hclose hlt
  refine ⟨_, parse?_eq_some_iff.2 ⟨i', opened', name, close', arguments,
    locate?_of_append hlocate (by omega), ?_, hclose'', ?_, rfl⟩, rfl, ?_, rfl⟩
  · rwa [List.getElem?_append_left (by omega)] at hname
  · rw [← harguments]
    exact (Token.bodyText_append hclose'' (fun t ht => start_le_of_mem_tokens ht) x _).1.symm
  · dsimp only
    rw [hgap.tokens, Modifiers.before_append (by omega) fun t ht => (span_of_mem_tokens ht).2]

/-- The same name and the same parameters and modifiers, but for blanks. -/
structure Respaced (f g : Function) : Prop where
  name : g.name = f.name
  modifiers : f.modifiers.Respaced g.modifiers
  parameters : List.Forall₂ (fun m m' => m.name.Respaced m'.name) f.parameters g.parameters

/-- Alike texts hold the same function. -/
theorem exists_parse?_of_alike (h : Alike s t) (hparse : parse? s = some f) :
    ∃ g, parse? t = some g ∧ Respaced f g := by
  obtain ⟨i, opened, name, close, arguments, hlocate, hname, hclose, harguments, rfl⟩ :=
    parse?_eq_some_iff.1 hparse
  obtain ⟨_, _, hkeyword, hname', -, hkind⟩ := exists_of_beginsAt (spec_of_locate? hlocate).1
  obtain rfl := Option.some.inj (hname.symm.trans hname')
  simp only [Token.bodyText, hclose, Option.bind_eq_bind, Option.bind_some, Option.bind_eq_some_iff,
    Option.pure_def, Option.some.injEq] at harguments
  obtain ⟨opener, hopener, closer, hcloser, rfl⟩ := harguments
  obtain ⟨name', hname'⟩ := h.exists_at hname
  obtain ⟨opener', hopener'⟩ := h.exists_at hopener
  obtain ⟨closer', hcloser'⟩ := h.exists_at hcloser
  have hlocate' : locate? t.tokens = some (i, opened) := by
    rw [← locate?_outline, h.outlines, locate?_outline, hlocate]
  have hclose' : Token.findClosing t.tokens opened = some close := by
    rw [← Token.findClosing_outline, h.outlines, Token.findClosing_outline, hclose]
  have hbody : Token.bodyText t t.tokens opened = some (t.slice opener'.stop closer'.start) := by
    simp only [Token.bodyText, hopener'.right, hclose', hcloser'.right, Option.bind_eq_bind,
      Option.bind_some, Option.pure_def]
  have hpairs : List.Forall₂ (Modifiers.Pair s t) (s.tokens.take i).reverse (t.tokens.take i).reverse :=
    List.forall₂_reverse_iff.2 (List.forall₂_take i (Modifiers.pairs h))
  refine ⟨_, parse?_eq_some_iff.2 ⟨i, opened, name', close, _, hlocate', hname'.right, hclose', hbody,
    rfl⟩, ?_, Modifiers.takeAll_respaced hpairs, ?_⟩
  · exact hname'.value_eq (by simp [hkind])
  · exact respaced_parametersOf (hopener'.slice_inner hcloser' (Token.findClosing_lt hclose).1)

end Item.Function

namespace Declaration

/-- The first row that ends a function, with the rows in front of it and behind it. -/
theorem exists_first_end {rows : List Row} (h : isEnded .fn (Row.contents rows) = true) :
    ∃ front last behind, rows = front ++ last :: behind ∧ last.content ≠ [] ∧
      isEnded .fn (Row.contents (front ++ [last])) = true ∧
      ∀ a, a <+: Row.contents front → isEnded .fn a = false := by
  have hnil : ends .fn 0 0 [] = false := by decide
  have hcontent : ∀ {p : Text} {rs : List Row}, p ∈ Row.contents rs → ∃ r ∈ rs, r.content = p := by
    intro p rs hp
    exact List.mem_map.1 (List.mem_of_mem_filter hp)
  obtain ⟨p, hp, hends⟩ := (Option.any_eq_true _ _).1 h
  obtain ⟨r, hr, rfl⟩ := hcontent (List.mem_of_getLast? hp)
  obtain ⟨last, hfind⟩ := Option.isSome_iff_exists.1
    (List.find?_isSome.2 ⟨r, hr, hends⟩ : (rows.find? fun r => ends .fn 0 0 r.content).isSome)
  obtain ⟨hlast, front, behind, rfl, hfront⟩ := List.find?_eq_some_iff_append.1 hfind
  have hne : last.content ≠ [] := by
    intro heq
    rw [heq, hnil] at hlast
    exact absurd hlast (by decide)
  refine ⟨front, last, behind, rfl, hne, ?_, fun a ha => ?_⟩
  · rw [isEnded, Row.contents_append, Row.contents_singleton hne, List.getLast?_concat]
    exact hlast
  · rw [isEnded]
    cases hlast' : a.getLast? with
    | none => rfl
    | some p =>
      obtain ⟨r, hr, rfl⟩ := hcontent (ha.subset (List.mem_of_getLast? hlast'))
      simpa using hfront r hr

theorem endsBehind_fn (texts : List Text) : endsBehind .fn 0 0 texts = isEnded .fn texts := by
  rw [endsBehind, isEnded]
  cases texts.getLast? with
  | none => rfl
  | some text => exact ends_of_not_hasBody rfl _ _ text

/-- Pieces end a function when their text ends with a brace or a semicolon. -/
theorem isEnded_of_breaks {d : Text} {ps : List Text} (h : Breaks d ps)
    (hend : d.getLast? = some '{' ∨ d.getLast? = some ';') : isEnded .fn ps = true := by
  obtain ⟨front, p, rfl⟩ := (List.eq_nil_or_concat' ps).resolve_left h.ne_nil
  have hbrace : endsWith p "\x7b" = (p.getLast? == some '{') := endsWith_singleton p _
  have hsemicolon : endsWith p ";" = (p.getLast? == some ';') := endsWith_singleton p _
  rw [isEnded, List.getLast?_concat, Option.any_some, ends, if_neg (by decide), hbrace, hsemicolon,
    h.getLast?_eq]
  rcases hend with hend | hend
  · rw [hend, beq_self_eq_true, Bool.true_or, Bool.true_or]
  · rw [hend, beq_self_eq_true, Bool.or_true, Bool.true_or]

/-- A function that is broken over rows is read as on one line but for blanks, if no row in front of the
end of its parameters ends it. -/
theorem search_wrapped {d : Text} {lead more : List Token} {t name : Token} {rows : List Row}
    {f : Item.Function} {i opened close : Nat} {before blanks after : List Text} {cursor : Nat}
    (htokens : d.tokens = lead ++ t :: name :: more) (ht : Keyword.ofToken? t = some .fn)
    (hname : name.kind = .ident) (hlead : Modifiers.AreWritten lead)
    (hnone : ∀ u ∈ lead, Keyword.ofToken? u = none) (hsettled : Settled d)
    (hend : d.getLast? = some '{' ∨ d.getLast? = some ';')
    (hparse : Item.Function.parse? d = some f)
    (hlocate : Item.Function.locate? d.tokens = some (i, opened))
    (hclose : Token.findClosing d.tokens opened = some close)
    (hlay : Row.Lay d (lead.length + 2) rows)
    (hrows : ∀ a, a <+: Row.contents rows → isEnded .fn a = true → close < (a.flatMap tokens).length)
    (hcursor : before.length = cursor + 1) (hblank : ∀ line ∈ blanks, ∀ c ∈ line, isBlank c = true) :
    ∃ e g, search (before ++ (blanks ++ (rows.map Row.text ++ after))) cursor = .found e ∧
      e.keyword = .fn ∧ e.startLine = cursor + 1 + blanks.length ∧
      Item.Function.parse? e.signature = some g ∧ f.Respaced g := by
  have hstarts := starts_of_lay htokens ht hname hlead hnone hsettled hlay
  have hrowsSettled := hlay.settled hsettled
  obtain ⟨front, last, behind, rfl, hlast, hends, hnever⟩ :=
    exists_first_end (isEnded_of_breaks hlay.breaks hend)
  have hcontents : Row.contents (front ++ last :: behind) =
      Row.contents (front ++ [last]) ++ Row.contents behind := by
    rw [← Row.contents_append, List.append_assoc, List.singleton_append]
  have hfew := hrows _ ⟨Row.contents behind, hcontents.symm⟩ hends
  have hbreaks := hlay.breaks
  rw [hcontents] at hbreaks
  obtain ⟨text, rest, rfl, hgap, htext⟩ := hbreaks.exists_front (by
    rw [Row.contents_append, Row.contents_singleton hlast]
    simp)
  have hlength : text.tokens.length = ((Row.contents (front ++ [last])).flatMap tokens).length := by
    simpa using congrArg List.length htext.shapes
  obtain ⟨g, hg, hgname, hgmodifiers, hgparameters⟩ :=
    Item.Function.exists_parse?_of_append hgap hparse hlocate hclose (by omega)
  have htextSettled := ((settled_append hgap).1 hsettled).1
  obtain ⟨r, hr, hrespaced⟩ := Item.Function.exists_parse?_of_alike (htext.alike htextSettled) hg
  have hmem : ∀ {row : Row}, row ∈ front ++ [last] → row ∈ front ++ last :: behind := by
    intro row hrow
    rw [List.append_cons]
    exact List.mem_append_left _ hrow
  have hlines : (front ++ last :: behind).map Row.text ++ after =
      (front ++ [last]).map Row.text ++ (behind.map Row.text ++ after) := by
    simp
  rw [hlines]
  refine ⟨_, r, search_rows hcursor hblank (fun row hrow => hlay.proper row (hmem hrow))
    (fun row hrow => hrowsSettled row (hmem hrow)) ?_ hlast ?_ ?_, rfl, rfl, hr, ?_⟩
  · intro row hrow
    apply hstarts
    rwa [List.append_cons, List.head?_append_of_ne_nil _ (by simp)]
  · intro a ha
    rw [endsBehind_fn, hnever a ha]
  · rw [endsBehind_fn, hends]
  · refine ⟨by rw [hrespaced.name, hgname], ?_, ?_⟩
    · rw [← hgmodifiers]
      exact hrespaced.modifiers
    · rw [← hgparameters]
      exact hrespaced.parameters

/-- A method with a pattern, an array and a semicolon behind its parameters. -/
def sendText : Text :=
  "pub(crate) fn send(".toList ++ ([] ++ ("&self,".toList ++ ([' '] ++ ("(a,".toList ++ ([' '] ++
    ("b): (u8, u8), raw: [u8; 4],".toList ++ ([] ++ (") -> [u8;".toList ++ ([' '] ++
      "4] \x7b".toList)))))))))

/-- The method over seven lines, one of them blank, with a comment behind another. -/
def sendRows : List Row := [
  ⟨[], "pub(crate) fn send(", [], none⟩, ⟨[' '], "&self,", [' '], some " sends \x7b".toList⟩,
  ⟨[], [], [], none⟩, ⟨[' '], "(a,", [], none⟩, ⟨[' '], "b): (u8, u8), raw: [u8; 4],", [], none⟩,
  ⟨[], ") -> [u8;", [], none⟩, ⟨[' '], "4] \x7b", [], none⟩]

theorem search_wrapped_send : Row.Lay sendText 6 sendRows ∧
    ∃ f, Item.Function.parse? sendText = some f ∧
      ∃ e g, search ([[]] ++ ([[' ']] ++ (sendRows.map Row.text ++ nextLines))) 0 = .found e ∧
        e.keyword = .fn ∧ e.startLine = 2 ∧ Item.Function.parse? e.signature = some g ∧
        f.Respaced g := by
  have hbreaks : Breaks sendText (Row.contents sendRows) :=
    .cons (by decide) (List.all_eq_true.1 (by decide)) (by decide +kernel)
      (.cons (by decide) (List.all_eq_true.1 (by decide)) (by decide +kernel)
        (.cons (by decide) (List.all_eq_true.1 (by decide)) (by decide +kernel)
          (.cons (by decide) (List.all_eq_true.1 (by decide)) (by decide +kernel)
            (.cons (by decide) (List.all_eq_true.1 (by decide)) (by decide +kernel)
              (.last (by decide))))))
  have hlay : Row.Lay sendText 6 sendRows :=
    ⟨by decide +kernel, hbreaks, by decide +kernel, by decide +kernel⟩
  have hlead : Modifiers.AreWritten (sendText.tokens.take 4) := by
    refine ⟨⟨.within "crate", false, false, false, .native⟩, ⟨?_, by simp⟩, by decide +kernel⟩
    rintro scope hscope
    obtain rfl := Visibility.within.inj hscope
    exact .inl (by decide)
  have htokens : sendText.tokens = sendText.tokens.take 4 ++
      ⟨.ident, "fn", 11, 13⟩ :: ⟨.ident, "send", 14, 18⟩ :: sendText.tokens.drop 6 := by
    decide +kernel
  have hfn : Keyword.ofToken? ⟨.ident, "fn", 11, 13⟩ = some .fn := by decide
  have hlocate : Item.Function.locate? sendText.tokens = some (4, 6) := by decide +kernel
  have hclose : Token.findClosing sendText.tokens 6 = some 30 := by decide +kernel
  have hrows : ∀ a, a <+: Row.contents sendRows → isEnded .fn a = true →
      30 < (a.flatMap tokens).length := by
    have hinits : ∀ a ∈ (Row.contents sendRows).inits, isEnded .fn a = true →
        30 < (a.flatMap tokens).length := by decide +kernel
    exact fun a ha => hinits a ((List.mem_inits _ _).2 ha)
  have hlength : (sendText.tokens.take 4).length + 2 = 6 := by decide +kernel
  have hcursor : [([] : Text)].length = 0 + 1 := rfl
  have hparse : (Item.Function.parse? sendText).isSome = true := by decide +kernel
  obtain ⟨f, hf⟩ := Option.isSome_iff_exists.1 hparse
  exact ⟨hlay, f, hf, search_wrapped htokens hfn rfl hlead (by decide +kernel) (by decide +kernel)
    (by decide) hf hlocate hclose (by rw [hlength]; exact hlay) hrows hcursor
    (List.forall_mem_singleton.2 (List.all_eq_true.1 (by decide)))⟩

/-- The function that is read of the lines below the cursor. -/
def readBelow? (lines : List Text) : Option Item.Function :=
  (search ([] :: lines) 0).declaration?.bind fun e => Item.Function.parse? e.signature

def bytesText : Text := "fn f(a: [u8;".toList ++ ([' '] ++ "4]) \x7b".toList)

def pairText : Text := "fn f((a,".toList ++ ([] ++ "b): (u8, u8)) \x7b".toList)

def scopeText : Text := "pub(in  crate::a) fn f(".toList ++ ([] ++ "a: u8) \x7b".toList)

def unionText : Text := "pub(in crate::union) fn f(".toList ++ ([] ++ "a: u8) \x7b".toList)

/-- A row that ends with a semicolon inside the parameters ends the function, a break becomes a space,
the blanks in a scope become one, and an item keyword in a scope hides the function. -/
theorem search_wrapped_changed :
    (∃ ps, Breaks bytesText ps ∧ (Item.Function.parse? bytesText).isSome = true ∧
      (search ([] :: ps) 0).declaration?.isSome = true ∧ (readBelow? ps).isNone = true) ∧
    (∃ ps, Breaks pairText ps ∧ ∃ f ∈ Item.Function.parse? pairText, ∃ g ∈ readBelow? ps,
      g.parameters.map Item.Member.name ≠ f.parameters.map Item.Member.name) ∧
    (∃ ps, Breaks scopeText ps ∧ ∃ f ∈ Item.Function.parse? scopeText, ∃ g ∈ readBelow? ps,
      g.modifiers ≠ f.modifiers) ∧
    ∃ ps, Breaks unionText ps ∧ (Item.Function.parse? unionText).isSome = true ∧
      search ([] :: ps) 0 = .exhausted := by
  have hbroken : ∀ {p q w : Text}, Solid p → w.all isBlank = true → IsGap p (w ++ q) →
      Solid q → Breaks (p ++ (w ++ q)) [p, q] := fun hp hw hgap hq =>
    .cons hp (List.all_eq_true.1 hw) hgap (.last hq)
  refine ⟨⟨_, hbroken (by decide) (by decide) (by decide +kernel) (by decide), ?_⟩,
    ⟨_, hbroken (by decide) (by decide) (by decide +kernel) (by decide), ?_⟩,
    ⟨_, hbroken (by decide) (by decide) (by decide +kernel) (by decide), ?_⟩,
    ⟨_, hbroken (by decide) (by decide) (by decide +kernel) (by decide), ?_⟩⟩
  · decide +kernel
  · decide +kernel
  · decide +kernel
  · decide +kernel

end Declaration

end DocScaffold
