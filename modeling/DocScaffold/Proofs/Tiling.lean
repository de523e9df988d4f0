import DocScaffold.Proofs.Spacing

/-!
# Tokens as parts of their text

The lexemes of a text lie side by side, so a text is lexed part by part wherever it is divided between
two of them (`tokens_divided`). What lies outside all tokens is blank, in a comment, or a word character
that begins nothing (`tokens_cover`).
-/

namespace DocScaffold

open Text Lexeme

namespace Text

/-! ## Divided texts -/

/-- The tokens behind a division are moved by the length of what is in front of it. -/
theorem tokens_parts {s : Text} {front back : List Lexeme} (h : lexemes s = front ++ back) :
    s.tokens = tokens (front.flatMap Lexeme.text) ++
      (tokens (back.flatMap Lexeme.text)).map (Token.shift (front.flatMap Lexeme.text).length) := by
  obtain ⟨hfront, hback⟩ := lexemes_parts h
  rw [← tokensAt_eq_shift, tokensAt, tokens, tokens, hfront, hback, h, tokensFrom_append, Nat.zero_add]

/-- A text divided where a token begins or ends is lexed part by part. -/
theorem tokens_divided {s : Text} {t : Token} {e : Nat} (ht : t ∈ s.tokens)
    (he : e = t.start ∨ e = t.stop) :
    s.tokens = tokens (s.take e) ++ (tokens (s.drop e)).map (Token.shift e) := by
  obtain ⟨n, hn⟩ := List.getElem?_of_mem ht
  obtain ⟨front, back, hls, -, hstart, hstop⟩ := split_token hn
  obtain ⟨htake, htakeStop, hdrop, hdropStop⟩ := parts_of_split hls hstart hstop
  rcases he with rfl | rfl
  · rw [htake, hdrop, hstart]
    exact tokens_parts hls
  · rw [← List.singleton_append, ← List.append_assoc] at hls
    have hlength : t.stop = ((front ++ [(⟨.token t.kind, t.value⟩ : Lexeme)]).flatMap
        Lexeme.text).length := by
      rw [List.flatMap_append, List.flatMap_singleton, List.length_append, hstop, hstart]
    rw [htakeStop, hdropStop, hlength]
    exact tokens_parts hls

/-- A stretch from token to token is lexed by itself as it is in the text. -/
theorem tokens_slice {s : Text} {front more back : List Token} {first last : Token}
    (h : s.tokens = front ++ (first :: more ++ back)) (hlast : (first :: more).getLast? = some last) :
    first :: more = (s.slice first.start last.stop).tokens.map (Token.shift first.start) := by
  have hstop : s.tokens[front.length + more.length]? = some last := by
    rw [h, List.getElem?_append_right (by omega), Nat.add_sub_cancel_left,
      List.getElem?_append_left (by simp), ← hlast, List.getLast?_eq_getElem?]
    rfl
  have htake : tokens (s.take last.stop) = front ++ first :: more := by
    rw [(tokens_take hstop).2, h, ← List.append_assoc, List.take_left']
    simp
    omega
  have hfirst : (tokens (s.take last.stop))[front.length]? = some first := by
    rw [htake, List.getElem?_append_right (Nat.le_refl _), Nat.sub_self]
    rfl
  have hdivided := tokens_divided (List.mem_of_getElem? hfirst) (.inl rfl)
  rw [(tokens_take hfirst).1, htake, List.take_left] at hdivided
  rw [slice, ← List.drop_take]
  exact List.append_cancel_left hdivided

/-- A raw string with a quote inside, a comment, a stray character and a quote that nothing ends. -/
def rawText : Text := "r#\"a\"b\"# /*c*/ ²d \"e"

theorem tokens_divided_raw : (⟨.string, "r#\"a\"b\"#", 0, 8⟩ : Token) ∈ rawText.tokens ∧
    rawText.tokens = tokens (rawText.take 8) ++ (tokens (rawText.drop 8)).map (Token.shift 8) :=
  have ht : (⟨.string, "r#\"a\"b\"#", 0, 8⟩ : Token) ∈ rawText.tokens := by decide +kernel
  ⟨ht, tokens_divided ht (.inr rfl)⟩

end Text

/-! ## What is passed over -/

namespace Lexeme

/-- A line comment goes on to the end of its line, a block comment to the first sign of its end. -/
def IsCommentText (s : Text) : Prop :=
  (∃ w, s = '/' :: '/' :: w ∧ '\n' ∉ w) ∨
    ∃ w, s = '/' :: '*' :: (w ++ ['*', '/']) ∧ ¬ ['*', '/'] <:+: w

def isComment (l : Lexeme) : Bool := l.kind == .lineComment || l.kind == .blockComment

/-- A line comment goes on to the end of its line. -/
theorem exists_of_lineComment {s rest : Text} {l : Lexeme} (h : first? s = some (l, rest))
    (hkind : l.kind = .lineComment) : ∃ w, l.text = '/' :: '/' :: w ∧ '\n' ∉ w := by
  have hcut : cutLineComment s = some (l.text, rest) :=
    cut_of_first? h (by simp [rules, hkind]) (by simp [hkind])
  obtain ⟨more, -, htext, -⟩ := cutLineComment_eq_some hcut
  refine ⟨more.takeWhile (· != '\n'), htext, fun hn => ?_⟩
  exact absurd (of_mem_takeWhile (· != '\n') hn) (by decide)

theorem isCommentText_of_first? {s rest : Text} {l : Lexeme} (h : first? s = some (l, rest))
    (hl : l.isComment = true) : IsCommentText l.text := by
  have hkind : l.kind = .lineComment ∨ l.kind = .blockComment := by simpa [isComment] using hl
  rcases hkind with hkind | hkind
  · exact .inl (exists_of_lineComment h hkind)
  · have hcut : cutBlockComment s = some (l.text, rest) :=
      cut_of_first? h (by simp [rules, hkind]) (by simp [hkind])
    obtain ⟨more, body, -, hbody, htext⟩ := cutBlockComment_eq_some hcut
    obtain ⟨w, rfl, hw⟩ := exists_of_cutThrough (by simp) hbody
    exact .inr ⟨w, htext, hw⟩

/-- A word character that begins neither a name nor a number. -/
def isStrayChar (c : Char) : Bool := isWord c && !isNameStart c && !isDigit c

theorem exists_of_stray {s rest : Text} {l : Lexeme} (h : first? s = some (l, rest))
    (hkind : l.kind = .stray) : ∃ c, l.text = [c] ∧ isStrayChar c = true := by
  have hcut : cutRun (fun _ => true) (fun _ => false) s = some (l.text, rest) :=
    cut_of_first? h (by simp [rules, hkind]) (by simp [hkind])
  obtain ⟨⟨c, w, htext, -, hw⟩, -⟩ := cutRun_eq_some hcut
  have hnil : w = [] := List.eq_nil_iff_forall_not_mem.2 fun d hd => absurd (hw d hd) (by decide)
  obtain ⟨hword, hname, hdigit⟩ := spec_of_stray h hkind c (by simp [htext])
  exact ⟨c, by rw [htext, hnil], by simp [isStrayChar, hword, hname, hdigit]⟩

theorem placed_append_cons (offset : Nat) (front back : List Lexeme) (l : Lexeme) :
    (offset + (front.flatMap Lexeme.text).length, l) ∈ placedFrom offset (front ++ l :: back) := by
  rw [placedFrom_append]
  simp [placedFrom]

theorem pairwise_tokensFrom (offset : Nat) {ls : List Lexeme} (hne : ∀ l ∈ ls, l.text ≠ []) :
    (tokensFrom offset ls).Pairwise fun t u => t.stop ≤ u.start := by
  induction ls generalizing offset with
  | nil => exact .nil
  | cons l ls ih =>
    have hrest : ∀ m ∈ ls, m.text ≠ [] := fun m hm => hne m (List.mem_cons_of_mem _ hm)
    have hnext := ih (offset + l.text.length) hrest
    obtain ⟨kind, text⟩ := l
    cases kind with
    | token kind =>
      refine .cons (fun u hu => ?_) hnext
      exact (span_of_mem_tokensFrom hrest hu).1
    | blank | lineComment | blockComment | stray => exact hnext

end Lexeme

namespace Text

/-- Whether a place lies inside a comment that is taken as a lexeme. -/
def IsCommented (s : Text) (i : Nat) : Prop :=
  ∃ p ∈ placedFrom 0 (lexemes s), IsCommentText p.2.text ∧ p.2.isComment = true ∧
    p.2.covers p.1 i = true

theorem slice_of_mem_tokens {s : Text} {t : Token} (ht : t ∈ s.tokens) :
    t.value = s.slice t.start t.stop ∧ t.stop = t.start + t.value.length := by
  obtain ⟨n, hn⟩ := List.getElem?_of_mem ht
  obtain ⟨front, back, hls, -, hstart, hstop⟩ := split_token hn
  have htext := flatMap_text_lexemes s
  rw [hls, List.flatMap_append, List.flatMap_cons] at htext
  refine ⟨?_, hstop⟩
  rw [hstop, hstart, ← htext]
  exact (slice_middle _ _ _).symm

theorem pairwise_tokens (s : Text) : s.tokens.Pairwise fun t u => t.stop ≤ u.start :=
  pairwise_tokensFrom 0 fun _ hl => text_ne_nil_of_mem_lexemes hl

/-- Of two tokens that cover a place there is one. -/
theorem eq_of_covered {s : Text} {t u : Token} {i : Nat} (ht : t ∈ s.tokens) (hu : u ∈ s.tokens)
    (hti : t.start ≤ i ∧ i < t.stop) (hui : u.start ≤ i ∧ i < u.stop) : t = u := by
  have hpairs := List.pairwise_iff_getElem.1 (pairwise_tokens s)
  obtain ⟨n, hn, rfl⟩ := List.getElem_of_mem ht
  obtain ⟨m, hm, rfl⟩ := List.getElem_of_mem hu
  rcases Nat.lt_trichotomy n m with hlt | rfl | hgt
  · have := hpairs n m hn hm hlt
    omega
  · rfl
  · have := hpairs m n hm hn hgt
    omega

/-- What covers a place of a text. -/
theorem covered_of_lt {s : Text} {i : Nat} (h : i < s.length) :
    (∃ t ∈ s.tokens, t.start ≤ i ∧ i < t.stop) ∨ isBlank s[i] = true ∨ s.IsCommented i ∨
      isStrayChar s[i] = true := by
  have htext : (lexemes s).flatMap Lexeme.text = s.take i ++ s[i] :: s.drop (i + 1) := by
    rw [flatMap_text_lexemes, List.getElem_cons_drop, List.take_append_drop]
  obtain ⟨front, l, back, u, v, hls, hl, hu, -⟩ := exists_lexeme_at htext
  have hplace : (front.flatMap Lexeme.text).length + u.length = i := by
    rw [← List.length_append, hu, List.length_take]
    omega
  have hmem : l ∈ lexemes s := by simp [hls]
  have hproper := proper_of_mem hmem
  have hcomment : l.isComment = true → s.IsCommented i := by
    intro hcomment
    obtain ⟨t, rest, hfirst⟩ := exists_first?_of_mem hmem
    refine ⟨_, hls ▸ placed_append_cons 0 front back l, isCommentText_of_first? hfirst hcomment,
      hcomment, ?_⟩
    simp only [covers, hl, List.length_append, List.length_cons, Bool.and_eq_true, decide_eq_true_eq]
    omega
  obtain ⟨kind, text⟩ := l
  dsimp only at hl
  subst hl
  cases kind with
  | blank => exact .inr (.inl (hproper _ (by simp)))
  | lineComment | blockComment => exact .inr (.inr (.inl (hcomment rfl)))
  | stray =>
    obtain ⟨t, rest, hfirst⟩ := exists_first?_of_mem hmem
    obtain ⟨c, htext, hc⟩ := exists_of_stray hfirst rfl
    obtain ⟨-, hone⟩ := (List.append_eq_singleton_iff.1 htext).resolve_right (by simp)
    rw [(List.cons.inj hone).1]
    exact .inr (.inr (.inr hc))
  | token kind =>
    refine .inl ⟨⟨kind, u ++ s[i] :: v, (front.flatMap Lexeme.text).length,
      (front.flatMap Lexeme.text).length + (u ++ s[i] :: v).length⟩, ?_, ?_⟩
    · rw [tokens, hls, tokensFrom_append, Nat.zero_add]
      simp [tokensFrom]
    · simp only [List.length_append, List.length_cons]
      omega

/-- Tokens are the parts of a text between their edges, one behind the other, and every place outside
comments that is neither blank nor stray belongs to one of them. -/
theorem tokens_cover (s : Text) :
    (∀ t ∈ s.tokens, t.value ≠ [] ∧ t.start < t.stop ∧ t.stop ≤ s.length ∧
      t.value = s.slice t.start t.stop) ∧
    (s.tokens.Pairwise fun t u => t.stop ≤ u.start) ∧
    ∀ (i : Nat) (h : i < s.length), (∃! t, t ∈ s.tokens ∧ t.start ≤ i ∧ i < t.stop) ∨
      isBlank s[i] = true ∨ s.IsCommented i ∨ isStrayChar s[i] = true := by
  refine ⟨fun t ht => ?_, pairwise_tokens s, fun i hi => ?_⟩
  · obtain ⟨hlt, hstop⟩ := span_of_mem_tokens ht
    obtain ⟨hslice, hlength⟩ := slice_of_mem_tokens ht
    refine ⟨fun hnil => ?_, hlt, hstop, hslice⟩
    rw [hnil, List.length_nil] at hlength
    omega
  · refine (covered_of_lt hi).imp_left ?_
    rintro ⟨t, ht, hti⟩
    exact ⟨t, ⟨ht, hti⟩, fun u hu => eq_of_covered hu.1 ht hu.2 hti⟩

theorem tokens_cover_raw : (⟨.string, "r#\"a\"b\"#", 0, 8⟩ : Token) ∈ rawText.tokens ∧
    0 < 8 ∧ ∃ h : 15 < rawText.length, ((∃! t, t ∈ rawText.tokens ∧ t.start ≤ 15 ∧ 15 < t.stop) ∨
      isBlank rawText[15] = true ∨ rawText.IsCommented 15 ∨ isStrayChar rawText[15] = true) :=
  have ht : (⟨.string, "r#\"a\"b\"#", 0, 8⟩ : Token) ∈ rawText.tokens := by decide +kernel
  ⟨ht, ((tokens_cover rawText).1 _ ht).2.1, by decide, (tokens_cover rawText).2.2 15 (by decide)⟩

end Text
end DocScaffold
