import DocScaffold.Proofs.Layouts

/-!
# Structs and enums over several rows

A struct or an enum ends with the first brace or semicolon that leaves its braces and parentheses
balanced. However it is broken over rows, it is found as a whole (`search_body`): a row that ends with
such a sign has it for its last token (`EndsBody.token`), and the depths are those of the tokens.
-/

namespace DocScaffold

open Text

namespace Token

/-- Whether the tokens end a body: a closing brace or a semicolon, with nothing left open. -/
def endBody (ts : List Token) : Bool :=
  ts.getLast?.any (fun t => t.isPunct ['\x7d'] || t.isPunct [';']) && netDepth '{' '}' ts == 0 &&
    netDepth '(' ')' ts == 0

theorem endBody_outline (ts : List Token) : endBody (ts.map outline) = endBody ts := by
  rw [endBody, endBody, netDepth_outline, netDepth_outline, List.getLast?_map]
  cases ts.getLast? <;> simp

theorem endBody_of_shape_eq {ts us : List Token} (h : ts.map shape = us.map shape) :
    endBody ts = endBody us := by
  rw [← endBody_outline ts, outlines_of_shape_eq h, endBody_outline]

end Token

/-! ## The last sign of a piece -/

namespace Text

/-- A piece ends with a sign that stands apart exactly when its last lexeme is the sign. -/
theorem getLast?_eq_some_iff_lexemes {p : Text} (hp : Settled p) {c : Char} (hmark : isMark c = true) :
    p.getLast? = some c ↔ (lexemes p).getLast? = some ⟨.token .punct, [c]⟩ := by
  have htext := flatMap_text_lexemes p
  rcases List.eq_nil_or_concat' (lexemes p) with hnil | ⟨front, l, hls⟩
  · rw [hnil, List.flatMap_nil] at htext
    rw [hnil, ← htext]
    simp
  · have hl : l ∈ lexemes p := by simp [hls]
    have hlast : p.getLast? = l.text.getLast? := by
      rw [hls, List.flatMap_append, List.flatMap_singleton] at htext
      rw [← htext, List.getLast?_append_of_ne_nil _ (text_ne_nil_of_mem_lexemes hl)]
    rw [hls, List.getLast?_concat, Option.some.injEq, hlast]
    constructor
    · intro h
      exact Lexeme.sign_of_last hl (hp.spec hl).1 h hmark
    · rintro rfl
      rfl

theorem endsWith_singleton (p : Text) (c : Char) : endsWith p [c] = (p.getLast? == some c) := by
  rw [Bool.eq_iff_iff, beq_iff_eq, endsWith, List.isSuffixOf_iff_suffix, List.getLast?_eq_some_iff]
  exact ⟨fun ⟨front, h⟩ => ⟨front, h.symm⟩, fun ⟨front, h⟩ => ⟨front, h.symm⟩⟩

/-- A piece that ends with a sign that stands apart has the sign for its last token. -/
theorem getLast?_tokens_of_endsWith {p : Text} (hp : Settled p) {c : Char} (hmark : isMark c = true)
    (h : endsWith p [c] = true) :
    ∃ t, p.tokens.getLast? = some t ∧ t.isPunct [c] = true := by
  rw [endsWith_singleton, beq_iff_eq, getLast?_eq_some_iff_lexemes hp hmark] at h
  obtain ⟨front, hfront⟩ := List.getLast?_eq_some_iff.1 h
  rw [tokens, hfront, tokensFrom_append]
  exact ⟨_, List.getLast?_concat, by simp [Token.isPunct]⟩

end Text

namespace Declaration

variable {k : Keyword}

/-- Whether a text ends with one of the signs that end a body. -/
def EndsBody (s : Text) : Prop := s.getLast? = some '\x7d' ∨ s.getLast? = some ';'

instance (s : Text) : Decidable (EndsBody s) := inferInstanceAs (Decidable (_ ∨ _))

theorem EndsBody.token {p : Text} (hp : Settled p) (h : EndsBody p) :
    ∃ t, p.tokens.getLast? = some t ∧ (t.isPunct ['\x7d'] || t.isPunct [';']) = true := by
  have hends : ∀ {c : Char}, p.getLast? = some c → endsWith p [c] = true := by
    intro c hc
    rw [endsWith_singleton, hc]
    exact beq_self_eq_true _
  rcases h with h | h
  · obtain ⟨t, ht, hsign⟩ := getLast?_tokens_of_endsWith hp (by decide) (hends h)
    exact ⟨t, ht, by rw [hsign, Bool.true_or]⟩
  · obtain ⟨t, ht, hsign⟩ := getLast?_tokens_of_endsWith hp (by decide) (hends h)
    exact ⟨t, ht, by rw [hsign, Bool.or_true]⟩

/-- Pieces end a declaration with a body exactly when the last of them ends with a sign for it and
their tokens end a body. -/
theorem endsBehind_iff (hbody : k.hasBody = true) {front : List Text} {p : Text} (hp : Settled p) :
    endsBehind k 0 0 (front ++ [p]) = true ↔
      EndsBody p ∧ Token.endBody ((front ++ [p]).flatMap tokens) = true := by
  have hends : (endsWith p "\x7d" || endsWith p ";") = true ↔ EndsBody p := by
    rw [Bool.or_eq_true, show endsWith p "\x7d" = _ from endsWith_singleton p '\x7d',
      show endsWith p ";" = _ from endsWith_singleton p ';', beq_iff_eq, beq_iff_eq]
    rfl
  have hlast (h : EndsBody p) : ((front ++ [p]).flatMap tokens).getLast?.any
      (fun t => t.isPunct ['\x7d'] || t.isPunct [';']) = true := by
    obtain ⟨t, ht, hsign⟩ := h.token hp
    rw [List.flatMap_append, List.flatMap_singleton,
      List.getLast?_append_of_ne_nil _ (List.ne_nil_of_mem (List.mem_of_getLast? ht)), ht]
    exact hsign
  rw [endsBehind, List.getLast?_concat, Option.any_some, ends, if_pos hbody, Int.zero_add,
    Int.zero_add, Token.endBody, Token.netDepth_flatMap, Token.netDepth_flatMap, ← depthOver,
    ← depthOver]
  simp only [Bool.and_eq_true, hends]
  constructor
  · rintro ⟨⟨hbraces, hparens⟩, h⟩
    exact ⟨h, ⟨hlast h, hbraces⟩, hparens⟩
  · rintro ⟨h, ⟨-, hbraces⟩, hparens⟩
    exact ⟨⟨hbraces, hparens⟩, h⟩

/-- A struct or an enum is found as a whole in the rows that it is laid out over, its keyword and its
name in the first of them, with the blanks in its literals made single spaces. -/
theorem search_body {d : Text} {lead more : List Token} {t name : Token} {rows : List Row}
    {before blanks after : List Text} {cursor : Nat} (hbody : k.hasBody = true)
    (htokens : d.tokens = lead ++ t :: name :: more) (ht : Keyword.ofToken? t = some k)
    (hname : name.kind = .ident) (hlead : Modifiers.AreWritten lead)
    (hnone : ∀ u ∈ lead, Keyword.ofToken? u = none) (hsettled : Settled d)
    (hlast : EndsBody d) (hend : Token.endBody d.tokens = true)
    (hfirst : ∀ n < d.tokens.length, Token.endBody (d.tokens.take n) = false)
    (hlay : Row.Lay d (lead.length + 2) rows) (hcursor : before.length = cursor + 1)
    (hblank : ∀ line ∈ blanks, ∀ c ∈ line, isBlank c = true) :
    ∃ e, search (before ++ (blanks ++ (rows.map Row.text ++ after))) cursor = .found e ∧
      e.keyword = k ∧ e.startLine = cursor + 1 + blanks.length ∧
      e.endLine + 1 = e.startLine + rows.length ∧
      e.signature.tokens.map Token.shape = d.tokens.map fun t => Token.spaced t.shape := by
  have hpieces := hlay.breaks.settled_of_mem hsettled
  have hshapes := hlay.breaks.shapes
  have hsignature := (hlay.breaks.separate hsettled).shapes
  obtain ⟨front, last, rfl⟩ := (List.eq_nil_or_concat' rows).resolve_left (by
    rintro rfl
    exact hlay.breaks.ne_nil rfl)
  have hne : last.content ≠ [] := hlay.last last List.getLast?_concat
  have hcontents := Row.contents_append front [last]
  rw [Row.contents_singleton hne] at hcontents
  have hstarts := starts_of_lay htokens ht hname hlead hnone hsettled hlay
  have hbreaks := hlay.breaks
  rw [hcontents] at hbreaks hpieces hshapes
  have hlastPiece := hpieces last.content (by simp)
  have hlastEnds : EndsBody last.content := by
    rw [EndsBody, hbreaks.getLast?_eq]
    exact hlast
  have hends : endsBehind k 0 0 (Row.contents (front ++ [last])) = true := by
    rw [hcontents, endsBehind_iff hbody hlastPiece, ← Token.endBody_of_shape_eq hshapes]
    exact ⟨hlastEnds, hend⟩
  have hnever : ∀ a, a <+: Row.contents front → endsBehind k 0 0 a = false := by
    rintro a ⟨b, hb⟩
    rw [← hb] at hpieces hshapes
    rcases List.eq_nil_or_concat' a with rfl | ⟨firsts, p, ha⟩
    · rfl
    rw [ha, ← Bool.not_eq_true, endsBehind_iff hbody (hpieces p (by simp [ha])), not_and,
      Bool.not_eq_true, ← ha]
    intro _
    -- The tokens of the pieces are the first ones of the declaration, and not all of them.
    obtain ⟨t, ht, -⟩ := hlastEnds.token hlastPiece
    have hpos := List.length_pos_of_mem (List.mem_of_getLast? ht)
    have htake := congrArg (List.take (a.flatMap tokens).length) hshapes
    have hlength := congrArg List.length hshapes
    rw [List.append_assoc, List.flatMap_append, List.map_append, ← List.map_take,
      List.take_left' (by simp)] at htake
    rw [← Token.endBody_of_shape_eq htake]
    apply hfirst
    simp only [List.length_map, List.flatMap_append, List.length_append, List.flatMap_singleton]
      at hlength
    omega
  refine ⟨_, search_rows hcursor hblank hlay.proper (hlay.settled hsettled) hstarts hne hnever hends,
    rfl, rfl, ?_, ?_⟩
  · simp only [List.length_append, List.length_singleton]
    omega
  · have hmap : d.tokens.map (fun t => Token.spaced t.shape) =
        (d.tokens.map Token.shape).map Token.spaced := by simp [List.map_map, Function.comp_def]
    rw [hsignature, hmap, hshapes, hcontents, List.map_map]
    rfl

/-- A struct with a semicolon inside its brackets. -/
def frameText : Text :=
  "pub(in net) struct Frame".toList ++ ([' '] ++ ("\x7b".toList ++ ([] ++ ("bytes: [u8;".toList ++
    ([' '] ++ ("2],".toList ++ ([' '] ++ "\x7d".toList)))))))

/-- The struct over six lines, one of them blank, with comments behind three others. -/
def frameRows : List Row := [
  ⟨[], "pub(in net) struct Frame", [' '], some " on the wire".toList⟩, ⟨[], [], [' '], none⟩,
  ⟨[], "\x7b", [], none⟩, ⟨[' '], "bytes: [u8;", [], some "bytes;".toList⟩,
  ⟨[' '], "2],", [], none⟩, ⟨[], "\x7d", [' '], some "\x7d".toList⟩]

def nextLines : List Text := ["fn next() \x7b", "\x7d"]

theorem search_body_frame : Row.Lay frameText 7 frameRows ∧
    ∃ e, search ([[]] ++ ([[' ']] ++ (frameRows.map Row.text ++ nextLines))) 0 = .found e ∧
      e.keyword = .struct ∧ e.startLine = 2 ∧ e.endLine + 1 = e.startLine + 6 ∧
      e.signature.tokens.map Token.shape = frameText.tokens.map fun t => Token.spaced t.shape := by
  have hbreaks : Breaks frameText (Row.contents frameRows) :=
    .cons (by decide) (List.all_eq_true.1 (by decide)) (by decide +kernel)
      (.cons (by decide) (List.all_eq_true.1 (by decide)) (by decide +kernel)
        (.cons (by decide) (List.all_eq_true.1 (by decide)) (by decide +kernel)
          (.cons (by decide) (List.all_eq_true.1 (by decide)) (by decide +kernel)
            (.last (by decide)))))
  have hlay : Row.Lay frameText 7 frameRows :=
    ⟨by decide, hbreaks, by decide +kernel, by decide +kernel⟩
  have hscope : Modifiers.IsScope "in net" := by
    refine .inr ⟨⟨false, "net", []⟩, ?_, by decide⟩
    intro segment hsegment
    obtain rfl := List.mem_singleton.1 hsegment
    decide +kernel
  have hlead : Modifiers.AreWritten (frameText.tokens.take 5) := by
    refine ⟨⟨.within "in net", false, false, false, .native⟩, ⟨?_, by simp⟩, by decide +kernel⟩
    rintro scope hscope'
    obtain rfl := Visibility.within.inj hscope'
    exact hscope
  have htokens : frameText.tokens = frameText.tokens.take 5 ++
      ⟨.ident, "struct", 12, 18⟩ :: ⟨.ident, "Frame", 19, 24⟩ :: frameText.tokens.drop 7 := by
    decide +kernel
  have hstruct : Keyword.ofToken? ⟨.ident, "struct", 12, 18⟩ = some .struct := by decide
  have hcursor : [([] : Text)].length = 0 + 1 := rfl
  have hlength : (frameText.tokens.take 5).length + 2 = 7 := by decide +kernel
  exact ⟨hlay, search_body rfl htokens hstruct rfl hlead (by decide +kernel) (by decide +kernel)
    (by decide) (by decide +kernel) (by decide +kernel) (by rw [hlength]; exact hlay) hcursor
    (List.forall_mem_singleton.2 (List.all_eq_true.1 (by decide)))⟩

def markText : Text := "struct Mark \x7b open: ['\u3000'] \x7d"

def unionLines : List Text := ["pub(in crate::union) struct Marks \x7b", "open: Mark", "\x7d"]

/-- A blank in a character literal becomes a space, and an item keyword in a scope hides the struct. -/
theorem search_body_changed :
    Token.endBody markText.tokens = true ∧ (∃ t ∈ markText.tokens, t.kind = .char ∧
      ∃ e, search [[], markText] 0 = .found e ∧
        ∀ u ∈ e.signature.tokens, u.kind = .char → u.value ≠ t.value) ∧
    Token.endBody (unionLines.flatMap tokens) = true ∧ search ([] :: unionLines) 0 = .stopped 3 := by
  refine ⟨by decide +kernel, ⟨⟨.char, ['\x27', '\u3000', '\x27'], 21, 24⟩, by decide +kernel, rfl,
    ⟨"struct Mark \x7b open: [' '] \x7d", .struct, 1, 1⟩, by decide +kernel, by decide +kernel⟩,
    by decide +kernel, by decide +kernel⟩

end Declaration

end DocScaffold
