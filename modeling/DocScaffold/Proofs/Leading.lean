import DocScaffold.Generator
import DocScaffold.Proofs.Collecting
import DocScaffold.Proofs.Words

/-!
# The keyword that a declaration starts with

A line starts a declaration with its first item keyword (`keyword?_iff_split`). The one that a search
starts on is the first among the tokens of the signature, too, unless a literal or a comment is left open
in front of it (`exists_leading`).
-/

namespace DocScaffold

open Text

namespace Lexeme

/-- A token among those of some lexemes is one of the lexemes. -/
theorem split_tokensFrom {offset : Nat} {ls : List Lexeme} {front rest : List Token} {t : Token}
    (h : tokensFrom offset ls = front ++ t :: rest) :
    ∃ before after, ls = before ++ ⟨.token t.kind, t.value⟩ :: after ∧
      tokensFrom offset before = front ∧
      t.stop = offset + (before.flatMap Lexeme.text).length + t.value.length := by
  induction ls generalizing offset front with
  | nil => simp [tokensFrom] at h
  | cons l ls ih =>
    -- A lexeme in front of the token is put in front of those that the rest gives.
    have hstep : ∀ front', tokensFrom (offset + l.text.length) ls = front' ++ t :: rest →
        (∀ before, tokensFrom (offset + l.text.length) before = front' →
          tokensFrom offset (l :: before) = front) →
        ∃ before after, l :: ls = before ++ ⟨.token t.kind, t.value⟩ :: after ∧
          tokensFrom offset before = front ∧
          t.stop = offset + (before.flatMap Lexeme.text).length + t.value.length := by
      intro front' hrest hfront
      obtain ⟨before, after, hls, htokens, hstop⟩ := ih hrest
      refine ⟨l :: before, after, by rw [hls]; rfl, hfront before htokens, ?_⟩
      rw [hstop, List.flatMap_cons, List.length_append]
      omega
    obtain ⟨kind, text⟩ := l
    cases kind with
    | token kind =>
      rw [tokensFrom] at h
      dsimp only at h
      cases front with
      | nil =>
        rw [List.nil_append, List.cons.injEq] at h
        obtain ⟨rfl, -⟩ := h
        exact ⟨[], ls, rfl, rfl, by simp⟩
      | cons u front =>
        rw [List.cons_append, List.cons.injEq] at h
        obtain ⟨rfl, h⟩ := h
        exact hstep front h fun before hbefore => by rw [← hbefore]; rfl
    | blank | lineComment | blockComment | stray =>
      exact hstep front h fun before hbefore => by rw [← hbefore]; rfl

/-- Single spaces leave open what is open. -/
theorem isOpen_squeezed {l : Lexeme} {next : Option Lexeme} (hl : l.Proper)
    (hnext : ∀ m ∈ next, m.Proper) : l.squeezed.isOpen (next.map squeezed) = l.isOpen next := by
  have hsign : ∀ m : Lexeme, m.Proper → ∀ c, m.squeezed.isSign c = m.isSign c := by
    intro m hm c
    obtain ⟨kind, text⟩ := m
    cases kind with
    | token kind =>
      cases kind with
      | punct =>
        have hplain : ∀ d ∈ text, isBlank d = false := hm
        rw [squeezed, squeeze_of_not_blank hplain]
      | _ => rfl
    | _ => rfl
  have hstar : ∀ p : Lexeme → Bool, (∀ m, m.Proper → p m.squeezed = p m) →
      (next.map squeezed).any p = next.any p := by
    intro p hp
    cases next with
    | none => rfl
    | some m => exact hp m (hnext m rfl)
  rw [isOpen, isOpen, hsign l hl, hsign l hl, hsign l hl, hsign l hl,
    hstar _ fun m hm => hsign m hm '*', hstar _ fun m _ => rfl]
  rfl

theorem areClosed_squeezed {ls : List Lexeme} (h : ∀ l ∈ ls, l.Proper) :
    areClosed (ls.map squeezed) = areClosed ls := by
  induction ls with
  | nil => rfl
  | cons l ls ih =>
    rw [List.map_cons, areClosed, areClosed, List.head?_map,
      isOpen_squeezed (h l (by simp)) (fun m hm => h m (by simp [List.mem_of_head? hm])),
      ih fun m hm => h m (by simp [hm])]

/-- Nothing that is left open is among closed lexemes. -/
theorem of_areClosed {ls : List Lexeme} (h : areClosed ls = true) :
    ∀ l ∈ ls, l.kind ≠ .lineComment ∧ l.isSign '\x27' = false := by
  induction ls with
  | nil => simp
  | cons l ls ih =>
    rw [areClosed, Bool.and_eq_true, Bool.not_eq_true', isOpen] at h
    simp only [Bool.or_eq_false_iff, beq_eq_false_iff_ne] at h
    intro m hm
    rcases List.mem_cons.1 hm with rfl | hm
    · exact ⟨h.1.1.1.1.1, h.1.1.1.2⟩
    · exact ih h.2 m hm

end Lexeme

namespace Text

theorem Solid.squeeze {s : Text} (h : Solid s) : Solid (squeeze s) := by
  obtain ⟨c, u, rfl⟩ := List.exists_cons_of_ne_nil h.nonempty
  have hc := h.head c rfl
  refine ⟨by simp [squeeze_cons hc], by simpa [squeeze_cons hc] using hc, ?_⟩
  intro d hd
  have he := List.getLast?_eq_some_getLast (List.cons_ne_nil c u)
  generalize (c :: u).getLast (List.cons_ne_nil c u) = e at he
  obtain ⟨front, hfront⟩ := List.getLast?_eq_some_iff.1 he
  have hblank := h.last e he
  rw [hfront, squeeze_append, squeeze_cons hblank, Text.squeeze, List.getLast?_concat] at hd
  · obtain rfl : e = d := by simpa using hd
    exact hblank
  · intro x _ _ y hy
    obtain rfl : e = y := by simpa using hy
    exact hblank

end Text

namespace Keyword

theorem text_ne_nil (k : Keyword) : k.text ≠ [] := by cases k <;> decide

protected theorem squeezed (k : Keyword) :
    Lexeme.squeezed ⟨.token .ident, k.text⟩ = ⟨.token .ident, k.text⟩ := by
  have hplain : k.text.all (fun c => !isBlank c) = true := by cases k <;> decide
  rw [Lexeme.squeezed, squeeze_of_not_blank (not_blank_of_all hplain)]

theorem isWord_last (k : Keyword) : ∀ c ∈ k.text.getLast?, isWord c = true := by
  have hlast : k.text.getLast?.all isWord = true := by cases k <;> decide
  simpa [Option.all_eq_true] using hlast

theorem ofToken?_eq_some {t : Token} {k : Keyword} (h : ofToken? t = some k) :
    t.kind = .ident ∧ t.value = k.text := by
  have := List.find?_some h
  simpa [Token.isIdent] using this

theorem ofToken?_eq_none {t : Token} (h : ∀ k : Keyword, t.isIdent k.text = false) :
    ofToken? t = none := by
  rw [ofToken?, List.find?_eq_none]
  intro k _
  rw [h]
  decide

theorem ofToken?_eq_none_of_kind {t : Token} (h : t.kind ≠ .ident) : ofToken? t = none := by
  apply ofToken?_eq_none
  intro k
  simp [Token.isIdent, h]

theorem ofToken?_of_isIdent {t : Token} {k : Keyword} (h : t.isIdent k.text = true) :
    ofToken? t = some k := by
  obtain ⟨kind, value, start, stop⟩ := t
  simp only [Token.isIdent, Bool.and_eq_true, beq_iff_eq] at h
  obtain ⟨rfl, rfl⟩ := h
  cases k <;> rfl

/-- A keyword is told by the shape of its token. -/
theorem ofToken?_of_shape {t u : Token} (h : t.shape = Token.spaced u.shape) :
    ofToken? t = ofToken? u := by
  have hident : ∀ word, t.isIdent word = u.isIdent word := by
    intro word
    obtain ⟨kind, value, start, stop⟩ := u
    simp only [Token.shape] at h
    cases kind with
    | string | char =>
      simp only [Token.spaced, Prod.mk.injEq] at h
      rw [Token.isIdent, h.1]
      rfl
    | ident | lifetime | number | punct =>
      simp only [Token.spaced, Prod.mk.injEq] at h
      rw [Token.isIdent, Token.isIdent, h.1, h.2]
  rw [ofToken?, ofToken?]
  congr 1
  funext k
  exact hident k.text

theorem findIdx?_of_first {lead rest : List Token} {t : Token} {k : Keyword}
    (hlead : ∀ u ∈ lead, ofToken? u = none) (ht : ofToken? t = some k) :
    ((lead ++ t :: rest).findIdx? fun u => (ofToken? u).isSome) = some lead.length := by
  rw [List.findIdx?_append, List.findIdx?_eq_none_iff.2 fun u hu => by simp [hlead u hu],
    List.findIdx?_cons, ht]
  simp

/-- The first keyword among some tokens, with those in front of it and behind it. -/
theorem split_findIdx? {ts : List Token} {i : Nat}
    (h : (ts.findIdx? fun t => (ofToken? t).isSome) = some i) :
    ∃ t rest, ts = ts.take i ++ t :: rest ∧ ts[i]? = some t ∧ (ofToken? t).isSome = true ∧
      ∀ u ∈ ts.take i, ofToken? u = none := by
  obtain ⟨hi, hsome, hbefore⟩ := List.findIdx?_eq_some_iff_getElem.1 h
  refine ⟨ts[i], ts.drop (i + 1), ?_, List.getElem?_eq_getElem hi, hsome, ?_⟩
  · rw [List.getElem_cons_drop, List.take_append_drop]
  · intro u hu
    obtain ⟨j, hj, rfl⟩ := List.mem_take_iff_getElem.1 hu
    have hnone := hbefore j (by omega)
    rwa [Option.not_isSome_iff_eq_none] at hnone

end Keyword

namespace Declaration

/-! ## The line that starts a declaration -/

/-- A line through its first item keyword. -/
def opening (line : Text) : Text :=
  match line.beforeLineComment.tokens.find? fun t => (Keyword.ofToken? t).isSome with
  | some t => line.beforeLineComment.take t.stop
  | none => []

/-- What stands behind a lexeme begins the lexemes behind it. -/
theorem getElem?_behind {s : Text} {before after : List Lexeme} {l : Lexeme}
    (h : lexemes s = before ++ l :: after) :
    s[(before.flatMap Lexeme.text ++ l.text).length]? = (after.flatMap Lexeme.text).head? := by
  have htext := flatMap_text_lexemes s
  rw [h, List.flatMap_append, List.flatMap_cons, ← List.append_assoc] at htext
  rw [← htext, List.getElem?_append_right (Nat.le_refl _), Nat.sub_self, List.head?_eq_getElem?]

/-- The lexemes of a text around one of its tokens, and the text around it. -/
theorem split_tokens {s : Text} {lead rest : List Token} {t : Token}
    (h : s.tokens = lead ++ t :: rest) :
    ∃ before after, lexemes s = before ++ ⟨.token t.kind, t.value⟩ :: after ∧
      Lexeme.tokensFrom 0 before = lead ∧
      s = (before.flatMap Lexeme.text ++ t.value) ++ after.flatMap Lexeme.text ∧
      (before.flatMap Lexeme.text ++ t.value).length = t.stop ∧
      s[t.stop]? = (after.flatMap Lexeme.text).head? := by
  obtain ⟨before, after, hls, hbefore, hstop⟩ := Lexeme.split_tokensFrom h
  have htext := flatMap_text_lexemes s
  rw [hls, List.flatMap_append, List.flatMap_cons, ← List.append_assoc] at htext
  have hlength : (before.flatMap Lexeme.text ++ t.value).length = t.stop := by
    rw [List.length_append, hstop]
    omega
  refine ⟨before, after, hls, hbefore, htext.symm, hlength, ?_⟩
  rw [← hlength]
  exact getElem?_behind hls

/-- A line starts a declaration with its first item keyword in front of a comment, if there are
modifiers alone in front of that and a blank behind it. -/
theorem keyword?_iff_split {line : Text} {k : Keyword} :
    keyword? line = some k ↔ ∃ lead t rest next,
      line.beforeLineComment.tokens = lead ++ t :: rest ∧
      (∀ u ∈ lead, Keyword.ofToken? u = none) ∧ Keyword.ofToken? t = some k ∧
      line.beforeLineComment[t.stop]? = some next ∧ isBlank next = true ∧
      (Modifiers.before line.beforeLineComment line.beforeLineComment.tokens lead.length).2 = 0 := by
  rw [keyword?]
  simp only [Option.bind_eq_bind, Option.bind_eq_some_iff]
  generalize line.beforeLineComment = s
  constructor
  · rintro ⟨i, hi, t, ht, next, hnext, hif⟩
    rw [Option.ite_none_right_eq_some, Bool.and_eq_true, decide_eq_true_eq] at hif
    obtain ⟨⟨hbefore, hblank⟩, hkeyword⟩ := hif
    obtain ⟨u, rest, hsplit, hu, -, hnone⟩ := Keyword.split_findIdx? hi
    obtain rfl : t = u := Option.some.inj (ht.symm.trans hu)
    have hlength : (s.tokens.take i).length = i := by
      have hlt := (List.getElem?_eq_some_iff.1 ht).1
      rw [List.length_take]
      omega
    exact ⟨_, t, rest, next, hsplit, hnone, hkeyword, hnext, hblank, by rwa [hlength]⟩
  · rintro ⟨lead, t, rest, next, hsplit, hnone, hkeyword, hnext, hblank, hbefore⟩
    refine ⟨lead.length, ?_, t, ?_, next, hnext, ?_⟩
    · rw [hsplit, Keyword.findIdx?_of_first hnone hkeyword]
    · rw [hsplit, List.getElem?_append_right (Nat.le_refl _), Nat.sub_self]
      rfl
    · rw [hbefore, hblank, hkeyword]
      rfl

/-- A line is lexed through its first item keyword as it is in the whole. -/
theorem exists_opening {line : Text} {k : Keyword} {lead rest : List Token} {t : Token}
    (hsplit : line.beforeLineComment.tokens = lead ++ t :: rest)
    (hnone : ∀ u ∈ lead, Keyword.ofToken? u = none) (hkeyword : Keyword.ofToken? t = some k) :
    ∃ before after, lexemes line.beforeLineComment = before ++ ⟨.token .ident, k.text⟩ :: after ∧
      Lexeme.tokensFrom 0 before = lead ∧
      lexemes (opening line) = before ++ [⟨.token .ident, k.text⟩] ∧
      line.beforeLineComment = opening line ++ after.flatMap Lexeme.text ∧
      line.beforeLineComment[t.stop]? = (after.flatMap Lexeme.text).head? := by
  obtain ⟨hkind, hvalue⟩ := Keyword.ofToken?_eq_some hkeyword
  obtain ⟨before, after, hls, hbefore, htext, hlength, hhead⟩ := split_tokens hsplit
  have hopening : opening line = before.flatMap Lexeme.text ++ t.value := by
    have hfind : (line.beforeLineComment.tokens.find? fun t => (Keyword.ofToken? t).isSome) =
        some t := by
      rw [hsplit, List.find?_append, List.find?_eq_none.2 fun v hv => by simp [hnone v hv]]
      simp [hkeyword]
    rw [opening, hfind]
    dsimp only
    rw [htext, ← hlength, List.take_left]
  have hdrop : line.beforeLineComment = opening line ++ after.flatMap Lexeme.text := by
    rw [hopening]
    exact htext
  have hparts : lexemes (opening line ++ after.flatMap Lexeme.text) =
      (before ++ [⟨.token t.kind, t.value⟩]) ++ after := by
    rw [← hdrop, hls, List.append_assoc, List.singleton_append]
  have hlexemes := (lexemes_of_append hparts (by rw [hopening]; simp)).1
  rw [hkind, hvalue] at hls hlexemes
  exact ⟨before, after, hls, hbefore, hlexemes, hdrop, hhead⟩

theorem spec_of_opening {line : Text} {keyword : Keyword} (h : keyword? line = some keyword) :
    ∃ lead rest, lexemes (opening line) = lead ++ [⟨.token .ident, keyword.text⟩] ∧
      line.beforeLineComment = opening line ++ rest ∧ (∃ c ∈ rest.head?, isBlank c = true) ∧
      ∀ t ∈ Lexeme.tokensFrom 0 lead, Keyword.ofToken? t = none := by
  obtain ⟨front, t, behind, next, hsplit, hnone, hkeyword, hnext, hblank, -⟩ := keyword?_iff_split.1 h
  obtain ⟨before, after, -, hbefore, hlexemes, htext, hhead⟩ := exists_opening hsplit hnone hkeyword
  refine ⟨before, after.flatMap Lexeme.text, hlexemes, htext, ⟨next, hhead.symm.trans hnext, hblank⟩, ?_⟩
  rw [hbefore]
  exact hnone

theorem mem_getLast?_opening {line : Text} {keyword : Keyword} (h : keyword? line = some keyword) :
    ∀ c ∈ (opening line).getLast?, isWord c = true := by
  obtain ⟨lead, rest, hls, -, -, -⟩ := spec_of_opening h
  have htext := flatMap_text_lexemes (opening line)
  rw [hls, List.flatMap_append, List.flatMap_singleton] at htext
  intro c hc
  rw [← htext, List.getLast?_append_of_ne_nil _ keyword.text_ne_nil] at hc
  exact keyword.isWord_last c hc

theorem trimEnd_of_last {p w : Text} (hp : ∀ c ∈ p.getLast?, isBlank c = false)
    (hw : ∀ c ∈ w, isBlank c = true) : trimEnd (p ++ w) = p := by
  rw [trimEnd, List.reverse_append, dropWhile_append_of_head, List.reverse_reverse]
  · simpa using hw
  · simpa using hp

theorem trimEnd_append {p v : Text} (hp : ∀ c ∈ p.getLast?, isBlank c = false) :
    trimEnd (p ++ v) = p ++ trimEnd v := by
  obtain ⟨w, hv, hw⟩ := trimEnd_append_blanks v
  have hlast : ∀ c ∈ (p ++ trimEnd v).getLast?, isBlank c = false := by
    intro c hc
    rw [List.getLast?_append] at hc
    rcases Option.or_eq_some_iff.1 hc with hc | ⟨-, hc⟩
    · exact getLast?_trimEnd hc
    · exact hp c hc
  have happ : p ++ v = (p ++ trimEnd v) ++ w := by
    rw [List.append_assoc, ← hv]
  rw [happ, trimEnd_of_last hlast hw]

theorem head_trim (s : Text) : ∀ c ∈ (trim s).head?, isBlank c = false := by
  intro c hc
  by_cases hne : trim s = []
  · simp [hne] at hc
  · exact (solid_trim hne).head c hc

theorem head_bare (line : Text) : ∀ c ∈ (bare (trim line)).head?, isBlank c = false := by
  rw [bare]
  split
  · rw [attributeTail]
    dsimp only
    split
    · simp
    · exact head_trim _
  · exact head_trim line

theorem head_source {lines : List Text} {d : Declaration} {line : Text}
    (h : (d.sourceLines lines).head? = some line) : ∀ c ∈ line.head?, isBlank c = false := by
  rw [sourceLines] at h
  cases hlines : (lines.drop d.startLine).take (d.endLine + 1 - d.startLine) with
  | nil =>
    rw [hlines] at h
    simp at h
  | cons first rest =>
    rw [hlines] at h
    simp only [List.map_cons, List.head?_cons, Option.some.injEq] at h
    rw [← h]
    exact head_bare first

theorem opening_ne_nil {line : Text} {keyword : Keyword} (h : keyword? line = some keyword) :
    opening line ≠ [] := by
  obtain ⟨lead, rest, hls, -, -, -⟩ := spec_of_opening h
  intro hnil
  rw [hnil, lexemes_nil] at hls
  simp at hls

theorem trimStart_beforeLineComment {line : Text} (hhead : ∀ c ∈ line.head?, isBlank c = false) :
    trimStart line.beforeLineComment = line.beforeLineComment := by
  have hsplit : line.beforeLineComment ++
      ((lexemes line).dropWhile (·.kind != .lineComment)).flatMap Lexeme.text = line := by
    rw [beforeLineComment, ← List.flatMap_append, List.takeWhile_append_dropWhile,
      flatMap_text_lexemes]
  cases hbefore : line.beforeLineComment with
  | nil => rfl
  | cons c u =>
    have hblank : isBlank c = false := by
      apply hhead
      rw [← hsplit, hbefore]
      rfl
    rw [trimStart, List.dropWhile_cons_of_neg (by simp [hblank])]

/-- A cleaned line that starts a declaration. -/
theorem cleaned_eq_opening {line : Text} {keyword : Keyword} (h : keyword? line = some keyword)
    (hhead : ∀ c ∈ line.head?, isBlank c = false) :
    ∃ tail, cleaned line = opening line ++ tail ∧ ∀ c ∈ tail.head?, isBlank c = true := by
  obtain ⟨-, rest, -, htext, ⟨c, hc, hblank⟩, -⟩ := spec_of_opening h
  have hlast : ∀ d ∈ (opening line).getLast?, isBlank d = false :=
    fun d hd => isBlank_of_isWord (mem_getLast?_opening h d hd)
  refine ⟨trimEnd rest, ?_, ?_⟩
  · rw [cleaned, trim, trimStart_beforeLineComment hhead, htext, trimEnd_append hlast]
  · obtain ⟨w, hrest, -⟩ := trimEnd_append_blanks rest
    intro e he
    rw [hrest, List.head?_append, Option.mem_def.1 he, Option.some_or] at hc
    obtain rfl : e = c := by simpa using hc
    exact hblank

/-- The line that starts a declaration is the first that is collected. -/
theorem exists_material {lines : List Text} {d : Declaration} {line : Text} {keyword : Keyword}
    (hline : (d.sourceLines lines).head? = some line) (h : keyword? line = some keyword) :
    ∃ more, d.material lines = cleaned line :: more := by
  obtain ⟨tail, hcleaned, -⟩ := cleaned_eq_opening h (head_source hline)
  obtain ⟨more, hmore⟩ : ∃ more, d.sourceLines lines = line :: more := by
    cases hsource : d.sourceLines lines with
    | nil => simp [hsource] at hline
    | cons first more =>
      rw [hsource, List.head?_cons, Option.some.injEq] at hline
      exact ⟨more, by rw [hline]⟩
  have hne : (cleaned line).isEmpty = false := by
    rw [hcleaned]
    simp [opening_ne_nil h]
  exact ⟨cleanedLines more, by rw [material, hmore, cleanedLines_cons, hne, if_neg (by decide)]⟩

/-- What has been collected begins with the opening of the first line. -/
theorem unwords_material {lines : List Text} {d : Declaration} {line : Text} {keyword : Keyword}
    (hline : (d.sourceLines lines).head? = some line) (h : keyword? line = some keyword) :
    ∃ tail, unwords (d.material lines) = opening line ++ tail ∧
      ∀ c ∈ tail.head?, isBlank c = true := by
  obtain ⟨tail, hcleaned, hblank⟩ := cleaned_eq_opening h (head_source hline)
  obtain ⟨more, hmaterial⟩ := exists_material hline h
  by_cases hnil : more = []
  · refine ⟨tail, ?_, hblank⟩
    rw [hmaterial, hnil, ← hcleaned]
    simp [unwords]
  · refine ⟨tail ++ ' ' :: unwords more, ?_, ?_⟩
    · rw [hmaterial, unwords_cons hnil, hcleaned, List.append_assoc]
    · intro c hc
      cases tail with
      | nil =>
        obtain rfl : ' ' = c := by simpa using hc
        exact isBlank_space
      | cons e tail =>
        obtain rfl : e = c := by simpa using hc
        exact hblank e rfl

/-! ## The first keyword of a signature -/

/-- Keywords among tokens are told before and after blanks are made single spaces. -/
theorem ofToken?_squeezed {ls : List Lexeme} (hproper : ∀ l ∈ ls, l.Proper)
    (h : ∀ t ∈ Lexeme.tokensFrom 0 ls, Keyword.ofToken? t = none) (offset : Nat) :
    ∀ t ∈ Lexeme.tokensFrom offset (ls.map Lexeme.squeezed), Keyword.ofToken? t = none := by
  intro t ht
  have hmem := List.mem_map_of_mem (f := Token.shape) ht
  rw [Lexeme.shapes_squeezed hproper offset 0] at hmem
  obtain ⟨u, hu, hshape⟩ := List.mem_map.1 hmem
  rw [Keyword.ofToken?_of_shape hshape.symm]
  exact h u hu

/-- A signature is the collected text with single spaces. -/
theorem signature_eq_squeeze {lines : List Text} {cursor : Nat} {d : Declaration}
    (hfound : search lines cursor = .found d) :
    d.signature = squeeze (unwords (d.material lines)) ∧ Solid d.signature := by
  obtain ⟨hsignature, -, -, -, line, hline, hkeyword⟩ := spec_of_search hfound
  obtain ⟨tail, hunwords, -⟩ := unwords_material hline hkeyword
  have hsolid : Solid (unwords (d.material lines)) := by
    apply solid_unwords
    · intro hnil
      rw [hnil] at hunwords
      exact opening_ne_nil hkeyword (List.append_eq_nil_iff.1 hunwords.symm).1
    · exact fun l hl => (of_mem_material hl).1
  rw [hsignature, hsolid.collapse_eq]
  exact ⟨rfl, hsolid.squeeze⟩

/-- A signature begins with the lexemes of the line that starts the declaration, up to the keyword, unless
a literal or a comment is left open there. -/
theorem exists_lexemes_signature {lines : List Text} {cursor : Nat} {d : Declaration} {line : Text}
    (hfound : search lines cursor = .found d) (hline : (d.sourceLines lines).head? = some line)
    (hkeyword : keyword? line = some d.keyword) (hclosed : isClosed (opening line) = true) :
    ∃ more, lexemes d.signature = (lexemes (opening line)).map Lexeme.squeezed ++ more := by
  obtain ⟨tail, hunwords, htail⟩ := unwords_material hline hkeyword
  obtain ⟨lead, rest, hls, -, -, -⟩ := spec_of_opening hkeyword
  have hlast := mem_getLast?_opening hkeyword
  have hproper : ∀ l ∈ lexemes (opening line), l.Proper := fun l hl => Lexeme.proper_of_mem hl
  have hsqueezed : lexemes (squeeze (opening line)) = (lexemes (opening line)).map Lexeme.squeezed :=
    lexemes_squeeze (fun l hl => (Lexeme.of_areClosed hclosed l hl).1)
      fun l hl => (Lexeme.of_areClosed hclosed l hl).2
  have hclosed' : isClosed (squeeze (opening line)) = true := by
    rw [isClosed, hsqueezed, Lexeme.areClosed_squeezed hproper]
    exact hclosed
  have hsplit : d.signature = squeeze (opening line) ++ squeeze tail := by
    rw [(signature_eq_squeeze hfound).1, hunwords, squeeze_append]
    intro x hx hblank
    rw [isBlank_of_isWord (hlast x hx)] at hblank
    exact absurd hblank (by decide)
  have hapart : Apart (squeeze (opening line)) (squeeze tail) := by
    intro x hx y hy
    have hx' : x ∈ (opening line).getLast? := by
      have htexts := flatMap_text_lexemes (opening line)
      have htexts' := flatMap_text_lexemes (squeeze (opening line))
      rw [hsqueezed, hls, List.map_append, List.map_singleton, Keyword.squeezed, List.flatMap_append,
        List.flatMap_singleton] at htexts'
      rw [hls, List.flatMap_append, List.flatMap_singleton] at htexts
      rw [← htexts', List.getLast?_append_of_ne_nil _ d.keyword.text_ne_nil] at hx
      rwa [← htexts, List.getLast?_append_of_ne_nil _ d.keyword.text_ne_nil]
    apply apart_blank (isBlank_of_isWord (hlast x hx'))
    rcases eq_of_mem_head?_squeeze hy with rfl | hy
    · exact isBlank_space
    · exact htail y hy
  exact ⟨_, by rw [hsplit, lexemes_append hclosed' hapart, hsqueezed]⟩

/-- What stands in front of the keyword on its line stands in front of it in the signature. -/
theorem exists_tokens_signature {lines : List Text} {cursor : Nat} {d : Declaration} {line : Text}
    {lead : List Lexeme} (hfound : search lines cursor = .found d)
    (hline : (d.sourceLines lines).head? = some line) (hkeyword : keyword? line = some d.keyword)
    (hclosed : isClosed (opening line) = true)
    (hlead : lexemes (opening line) = lead ++ [⟨.token .ident, d.keyword.text⟩]) :
    ∃ t rest, d.signature.tokens = Lexeme.tokensFrom 0 (lead.map Lexeme.squeezed) ++ t :: rest ∧
      Keyword.ofToken? t = some d.keyword := by
  obtain ⟨more, hmore⟩ := exists_lexemes_signature hfound hline hkeyword hclosed
  have hone : ∀ n ls, Lexeme.tokensFrom n (⟨.token .ident, d.keyword.text⟩ :: ls) =
      ⟨.ident, d.keyword.text, n, n + d.keyword.text.length⟩ ::
        Lexeme.tokensFrom (n + d.keyword.text.length) ls := fun _ _ => rfl
  have htokens : d.signature.tokens = Lexeme.tokensFrom 0 (lexemes d.signature) := rfl
  rw [hmore, hlead, List.map_append, List.map_singleton, Keyword.squeezed, List.append_assoc,
    tokensFrom_append, List.singleton_append, hone] at htokens
  exact ⟨_, _, htokens, by cases d.keyword <;> rfl⟩

/-- The keyword that a search started on is the first one of the signature. -/
theorem exists_leading {lines : List Text} {cursor : Nat} {d : Declaration}
    (hfound : search lines cursor = .found d)
    (hclosed : ∀ line ∈ (d.sourceLines lines).head?, isClosed (opening line) = true) :
    ∃ front t rest, d.signature.tokens = front ++ t :: rest ∧
      (∀ u ∈ front, Keyword.ofToken? u = none) ∧ Keyword.ofToken? t = some d.keyword := by
  obtain ⟨-, -, -, -, line, hline, hkeyword⟩ := spec_of_search hfound
  obtain ⟨lead, rest, hls, -, -, hnone⟩ := spec_of_opening hkeyword
  obtain ⟨t, more, htokens, ht⟩ :=
    exists_tokens_signature hfound hline hkeyword (hclosed line hline) hls
  refine ⟨_, t, more, htokens, ofToken?_squeezed (fun l hl => ?_) hnone 0, ht⟩
  exact Lexeme.proper_of_mem (s := opening line) (by rw [hls]; exact List.mem_append_left _ hl)

end Declaration

end DocScaffold
