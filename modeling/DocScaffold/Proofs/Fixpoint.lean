import DocScaffold.Proofs.Rows
import DocScaffold.Proofs.Starts

/-!
# Signatures are searched again

A signature that ended before its buffer did is found again on a line of its own, and stays as it is
(`search_signature`): it has the lexemes of the collected lines, so it starts where they start, and on
one line no ending is needed.
-/

namespace DocScaffold

open Text

namespace Declaration

open Lexeme

/-- What ends a declaration is a sign. -/
theorem last_of_ends {keyword : Keyword} {braces parens : Int} {text : Text}
    (h : ends keyword braces parens text = true) : ∃ c ∈ text.getLast?, isWord c = false := by
  have hsuffix : ∀ {finish : Text} {c : Char}, finish.getLast? = some c → endsWith text finish = true →
      text.getLast? = some c := by
    intro finish c hc hend
    obtain ⟨front, rfl⟩ := List.isSuffixOf_iff_suffix.1 hend
    rw [List.getLast?_append, hc, Option.some_or]
  have hsigns : isWord '\x7d' = false ∧ isWord ';' = false ∧ isWord '\x7b' = false ∧
      isWord '>' = false := by decide
  unfold ends at h
  split at h
  · simp only [Bool.and_eq_true, Bool.or_eq_true] at h
    rcases h.2 with h | h
    · exact ⟨_, hsuffix rfl h, hsigns.1⟩
    · exact ⟨_, hsuffix rfl h, hsigns.2.1⟩
  · simp only [Bool.or_eq_true] at h
    rcases h with (h | h) | h
    · exact ⟨_, hsuffix rfl h, hsigns.2.2.1⟩
    · exact ⟨_, hsuffix rfl h, hsigns.2.1⟩
    · exact ⟨_, hsuffix rfl h, hsigns.2.2.2⟩

/-- Without its comment and the blanks at its end a line still starts its declaration, unless it leaves
off behind the keyword. -/
theorem lexemes_cleaned {line : Text} {k : Keyword} (h : keyword? line = some k)
    (hhead : ∀ c ∈ line.head?, isBlank c = false) :
    Starts k (lexemes (cleaned line)) ∨ ∃ lead, lexemes (cleaned line) =
      lead ++ [⟨.token .ident, k.text⟩] ∧
        (∀ t ∈ tokensFrom 0 lead, Keyword.ofToken? t = none) ∧
          Modifiers.IsAll (tokensFrom 0 lead) := by
  obtain ⟨lead, w, after, hls, hblank, hnone, hall⟩ := keyword?_eq_some_iff.1 h
  obtain ⟨v, -, hvblank, happ⟩ :=
    exists_lexemes_trimEnd fun l hl => kind_of_mem_beforeLineComment (s := line) hl
  have hcleaned : cleaned line = trimEnd line.beforeLineComment := by
    rw [cleaned, trim, trimStart_beforeLineComment hhead]
  have hwhole : lexemes (cleaned line) ++ lexemes v =
      lead ++ ⟨.token .ident, k.text⟩ :: w :: after := by
    rw [hcleaned, ← hls, happ]
  have hv' := lexemes_blanks_append (s := []) hvblank (by simp)
  rw [List.append_nil, lexemes_nil, List.append_nil] at hv'
  rw [hv'] at hwhole
  cases hempty : v.isEmpty with
  | true =>
    rw [hempty, if_pos rfl, List.append_nil] at hwhole
    exact .inl ⟨lead, w, after, hwhole, hblank, hnone, hall⟩
  | false =>
    -- The blanks at the end are the last lexeme.
    rw [hempty, if_neg (by decide)] at hwhole
    rcases List.eq_nil_or_concat after with rfl | ⟨init, z, rfl⟩
    · refine .inr ⟨lead, ?_, hnone, hall⟩
      rw [List.append_cons lead] at hwhole
      exact (List.append_inj' hwhole rfl).1
    · refine .inl ⟨lead, w, init, ?_, hblank, hnone, hall⟩
      rw [List.concat_eq_append, ← List.cons_append, ← List.cons_append, ← List.append_assoc] at hwhole
      exact (List.append_inj' hwhole rfl).1

/-- The signature of a declaration that has ended starts it again. -/
theorem starts_signature {lines : List Text} {cursor : Nat} {d : Declaration}
    (hfound : search lines cursor = .found d) (hlt : d.endLine + 1 < lines.length)
    (hseparate : Separate (d.material lines)) :
    Starts d.keyword (lexemes d.signature) := by
  obtain ⟨hsignature, -, -, -, line, hline, hkeyword⟩ := spec_of_search hfound
  obtain ⟨more, hmaterial⟩ := exists_material hline hkeyword
  have hended := isEnded_of_search hfound hlt
  have hjoined : Starts d.keyword (lexemes (joined (d.material lines))) := by
    rw [hseparate.joined, hmaterial, List.map_cons]
    rcases lexemes_cleaned hkeyword (head_source hline) with hstarts | ⟨lead, hls, hnone, hall⟩
    · cases more with
      | nil => simpa using hstarts
      | cons m more =>
        rw [List.map_cons, List.intercalate_cons_cons, List.append_assoc]
        exact hstarts.append _
    · cases more with
      | nil =>
        -- A line that leaves off behind the keyword ends nothing.
        rw [hmaterial, isEnded] at hended
        obtain ⟨c, hc, hword⟩ := last_of_ends (by simpa using hended)
        have htext := flatMap_text_lexemes (cleaned line)
        rw [hls, List.flatMap_append, List.flatMap_singleton] at htext
        rw [← htext, List.getLast?_append_of_ne_nil _ d.keyword.text_ne_nil] at hc
        rw [d.keyword.isWord_last c hc] at hword
        exact absurd hword (by decide)
      | cons m more =>
        rw [hls, List.map_cons, List.intercalate_cons_cons, List.append_assoc, List.append_assoc]
        exact ⟨lead, _, _, rfl, rfl, hnone, hall⟩
  rw [hsignature, hseparate.lexemes_collapse, ← hseparate.joined]
  exact hjoined.squeezed fun l hl => proper_of_mem hl

/-- A declaration that ends before the buffer does is found again in its signature, which is found as it
is. No literal and no block comment may run over the end of a line, and no quote be left open. -/
theorem search_signature {lines : List Text} {cursor : Nat} {d : Declaration}
    (hfound : search lines cursor = .found d) (hlt : d.endLine + 1 < lines.length)
    (hunbroken : isUnbroken (d.material lines) = true)
    (hquote : ∀ t ∈ (joined (d.material lines)).tokens, t.isPunct ['\x27'] = false) :
    search [[], d.signature] 0 = .found ⟨d.signature, d.keyword, 1, 1⟩ := by
  have hseparate := separate_material hunbroken hquote
  obtain ⟨hsignature, hsolid⟩ := signature_eq_squeeze hfound
  have hcollapse : d.signature.collapse = d.signature := by
    rw [hsolid.collapse_eq, hsignature, squeeze_squeeze]
  have hcomment : ∀ l ∈ lexemes d.signature, l.kind ≠ .lineComment := by
    intro l hl
    rw [(spec_of_search hfound).1, hseparate.lexemes_collapse] at hl
    obtain ⟨m, hm, rfl⟩ := List.mem_map.1 hl
    rcases mem_intercalate hm with hm | ⟨ls, hls, hm⟩
    · rw [List.mem_singleton.1 hm]
      simp [squeezed]
    · obtain ⟨line, hline, rfl⟩ := List.mem_map.1 hls
      exact hseparate.comment line hline m hm
  have hbefore := beforeLineComment_of_none hcomment
  have hkeyword : keyword? d.signature = some d.keyword := by
    rw [keyword?_eq_some_iff, hbefore]
    exact starts_signature hfound hlt hseparate
  have hcleaned : cleaned d.signature = d.signature := by
    rw [cleaned, hbefore, hsolid.trim_eq]
  have hgather : gather d.keyword 1 [d.signature] = ⟨d.signature, d.keyword, 1, 1⟩ := by
    have hcollect : collect d.keyword 0 0 1 1 [d.signature] = ([d.signature], 1) := by
      rw [collect, hcleaned]
      dsimp only
      rw [if_neg (by simpa using hsolid.nonempty)]
      split <;> rfl
    rw [gather, hcollect]
    simp [unwords, hcollapse]
  rw [search, List.drop_one, List.tail_cons, List.map_singleton, hsolid.trim_eq, searchFrom,
    step_of_keyword? hkeyword]
  exact congrArg Sought.found hgather

/-- An enum with an attribute in front of it, a comment and a literal over two spaces. -/
def colorLines : List Text := [
  "///", "#[repr(u8)] pub enum Color \x7b // in order", "", "  #[doc = \"the  first\"]", "  Red,", "\x7d",
  "fn next() \x7b"]

def colorDeclaration : Declaration :=
  ⟨"pub enum Color \x7b #[doc = \"the first\"] Red, \x7d", .enum, 1, 5⟩

theorem search_signature_color : search colorLines 0 = .found colorDeclaration ∧
    search [[], colorDeclaration.signature] 0 =
      .found ⟨colorDeclaration.signature, colorDeclaration.keyword, 1, 1⟩ := by
  have hfound : search colorLines 0 = .found colorDeclaration := by decide +kernel
  exact ⟨hfound, search_signature hfound (by decide) (by decide +kernel) (by decide +kernel)⟩

end Declaration

end DocScaffold
