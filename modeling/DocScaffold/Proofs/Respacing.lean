import DocScaffold.Proofs.Receivers

/-!
# What is read of texts that differ in their blanks

The parameters of alike texts are as many, with names that have the same tokens
(`respaced_parametersOf`). A name ends at the first colon of its entry, which need not be a token: it may
stand in a literal (`colon_in_lexeme`). Names that are identifiers are the same.
-/

namespace DocScaffold

open Text Lexeme

namespace Text

/-! ## Characters without blanks -/

/-- The characters of a text that are no blanks. -/
def dense (s : Text) : Text := s.filter fun c => !isBlank c

theorem dense_append (s t : Text) : dense (s ++ t) = dense s ++ dense t := List.filter_append s t

theorem dense_blanks {w : Text} (hw : ∀ c ∈ w, isBlank c = true) : dense w = [] := by
  rw [dense, List.filter_eq_nil_iff]
  intro c hc
  simp [hw c hc]

theorem dense_trim (s : Text) : dense (trim s) = dense s := by
  obtain ⟨w, v, heq, hw, hv⟩ := exists_trim s
  conv_rhs => rw [heq, dense_append, dense_append, dense_blanks hw, dense_blanks hv]
  rw [List.nil_append, List.append_nil]

theorem dense_squeeze (s : Text) : dense (squeeze s) = dense s := by
  induction s with
  | nil => rfl
  | cons c s ih =>
    have hspace : isBlank ' ' = true := isBlank_space
    cases hc : isBlank c with
    | false => rw [squeeze_cons hc, dense, dense, List.filter_cons, List.filter_cons, ← dense, ih, dense]
    | true =>
      have hcons : dense (c :: s) = dense s := by simp [dense, hc]
      rw [hcons, ← ih]
      cases hs : s.head?.any isBlank with
      | false =>
        rw [squeeze_blank hc hs]
        simp [dense, hspace]
      | true => rw [squeeze_blank_blank hc hs]

/-- A part of a text that may hold blanks is cut off without the blanks as with them. -/
theorem dense_takeWhile {p : Char → Bool} (hp : ∀ c, isBlank c = true → p c = true) (s : Text) :
    dense (s.takeWhile p) = (dense s).takeWhile p := by
  induction s with
  | nil => rfl
  | cons c s ih =>
    cases hc : isBlank c with
    | true =>
      have hcons : ∀ t, dense (c :: t) = dense t := by simp [dense, hc]
      rw [List.takeWhile_cons_of_pos (hp c hc), hcons, hcons, ih]
    | false =>
      have hcons : ∀ t, dense (c :: t) = c :: dense t := by simp [dense, hc]
      rw [hcons, List.takeWhile_cons, List.takeWhile_cons]
      split
      · rw [hcons, ih]
      · rfl

/-- The characters of a text are those of its tokens. -/
theorem dense_core (s : Text) : dense s = (core (lexemes s)).flatMap fun l => dense l.text := by
  have hlexemes : ∀ ls : List Lexeme, (∀ l ∈ ls, l.Proper) →
      dense (ls.flatMap Lexeme.text) = (core ls).flatMap fun l => dense l.text := by
    intro ls hls
    induction ls with
    | nil => rfl
    | cons l ls ih =>
      have hl := hls l List.mem_cons_self
      rw [List.flatMap_cons, dense_append, ih fun m hm => hls m (List.mem_cons_of_mem l hm)]
      obtain ⟨kind, text⟩ := l
      by_cases hkind : kind = .blank
      · subst hkind
        rw [core_cons_of_blank rfl, dense_blanks hl, List.nil_append]
      · rw [core_cons hkind, List.flatMap_cons, squeezed, dense_squeeze]
  rw [← hlexemes _ fun l hl => proper_of_mem hl, flatMap_text_lexemes]

theorem Alike.dense_eq {s t : Text} (h : Alike s t) : dense t = dense s := by
  rw [dense_core, ← h.core, ← dense_core]

/-! ## In front of a colon -/

def beforeColon (s : Text) : Text := s.takeWhile (· != ':')

theorem beforeColon_append {s t : Text} (h : ':' ∉ s) : beforeColon (s ++ t) = s ++ beforeColon t := by
  apply List.takeWhile_append_of_pos
  intro c hc
  rw [bne_iff_ne]
  rintro rfl
  exact h hc

theorem beforeColon_of_head {s : Text} (h : s.head? = some ':') : beforeColon s = [] := by
  obtain ⟨t, rfl⟩ := List.head?_eq_some_iff.1 h
  rfl

theorem beforeColon_of_not_mem {s : Text} (h : ':' ∉ s) : beforeColon s = s := by
  simpa [beforeColon] using beforeColon_append (t := []) h

theorem dense_beforeColon (s : Text) : dense (beforeColon s) = beforeColon (dense s) := by
  apply dense_takeWhile
  intro c hc
  rw [bne_iff_ne]
  rintro rfl
  exact absurd hc (by decide)

theorem beforeColon_subset (s t : Text) : beforeColon s ⊆ beforeColon (s ++ t) := by
  rw [beforeColon, beforeColon, List.takeWhile_append]
  split
  · exact List.Subset.trans (List.takeWhile_subset _) (List.subset_append_left _ _)
  · exact List.Subset.refl _

/-- Whether a text has a quote. -/
def IsQuoted (s : Text) : Prop := '"' ∈ s ∨ '\x27' ∈ s

theorem IsQuoted.mono {s t : Text} (h : IsQuoted s) (hst : s ⊆ t) : IsQuoted t :=
  h.imp (fun hs => hst hs) fun hs => hst hs

theorem IsQuoted.trim {s : Text} (h : IsQuoted s) : IsQuoted (Text.trim s) := by
  obtain ⟨w, v, heq, hw, hv⟩ := exists_trim s
  have hmem : ∀ {c : Char}, isBlank c = false → c ∈ s → c ∈ Text.trim s := by
    intro c hc hs
    rw [heq, List.mem_append, List.mem_append] at hs
    rcases hs with hs | hs | hs
    · rw [hw c hs] at hc
      exact absurd hc (by decide)
    · exact hs
    · rw [hv c hs] at hc
      exact absurd hc (by decide)
  exact h.imp (hmem (by decide)) (hmem (by decide))

theorem IsToken.not_isQuoted {s : Text} (h : IsToken .ident s) : ¬ IsQuoted s := by
  intro hquoted
  obtain ⟨c, w, hc, hw, hs⟩ := h.ident_spec
  have hword : ∀ d ∈ s, isWord d = true ∨ d = '#' := by
    have hcw : ∀ d ∈ c :: w, isWord d = true :=
      List.forall_mem_cons.2 ⟨isWord_of_isNameStart c hc, hw⟩
    rcases hs with rfl | rfl
    · exact fun d hd => .inl (hcw d hd)
    · refine List.forall_mem_cons.2 ⟨.inl (by decide), List.forall_mem_cons.2 ⟨.inr rfl, ?_⟩⟩
      exact fun d hd => .inl (hcw d hd)
  rcases hquoted with hquoted | hquoted
  · exact absurd (hword _ hquoted) (by decide)
  · exact absurd (hword _ hquoted) (by decide)

theorem IsQuoted.in_front {s : Text} (h : IsQuoted s) (hcolon : ':' ∉ s) (t : Text) :
    IsQuoted (beforeColon (s ++ t)) := by
  rw [beforeColon_append hcolon]
  exact h.mono (List.subset_append_left _ _)

theorem isQuoted_cutRawString {s a b : Text} (h : cutRawString s = some (a, b)) :
    IsQuoted (beforeColon a) := by
  obtain ⟨hashes, rest, body, hhashes, -, -, rfl⟩ := cutRawString_eq_some h
  have hcolon : ':' ∉ hashes := fun hc => absurd (hhashes _ hc) (by decide)
  have hfront : 'r' :: (hashes ++ '"' :: body) = 'r' :: hashes ++ ['"'] ++ body := by simp
  rw [hfront]
  exact IsQuoted.in_front (.inl (by simp)) (by simpa using hcolon) body

theorem isQuoted_cutString {s a b : Text} (h : cutString s = some (a, b)) :
    IsQuoted (beforeColon a) := by
  obtain ⟨rest, body, -, -, rfl⟩ := cutString_eq_some h
  exact IsQuoted.in_front (s := ['"']) (.inl (by simp)) (by decide) body

theorem isQuoted_cutChar {s a b : Text} (h : cutChar s = some (a, b)) :
    IsQuoted (beforeColon a) := by
  obtain ⟨-, ⟨c, rfl⟩ | ⟨c, -, -, rfl⟩⟩ := cutChar_eq_some h
  · exact IsQuoted.in_front (s := ['\x27']) (.inr (by simp)) (by decide) _
  · exact IsQuoted.in_front (s := ['\x27']) (.inr (by simp)) (by decide) _

theorem IsQuoted.mark {a : Text} (h : IsQuoted (beforeColon a)) :
    IsQuoted (beforeColon ('b' :: a)) := by
  have hfront : beforeColon (['b'] ++ a) = ['b'] ++ beforeColon a := beforeColon_append (by decide)
  exact hfront ▸ h.mono (List.subset_append_right _ _)

theorem colon_of_cutPunct {s a b : Text} (h : cutPunct s = some (a, b)) (hcolon : ':' ∈ a) :
    a.head? = some ':' := by
  obtain ⟨-, hsign | ⟨c, -, -, rfl⟩⟩ := cutPunct_eq_some h
  · simp only [List.mem_cons, List.not_mem_nil, or_false] at hsign
    rcases hsign with rfl | rfl | rfl | rfl | rfl <;> simp at hcolon ⊢
  · simpa [eq_comm] using hcolon

/-- A colon inside a lexeme begins it, or stands behind a quote. -/
theorem colon_in_lexeme {s : Text} (hs : Settled s) {l : Lexeme} (hl : l ∈ lexemes s)
    (hcolon : ':' ∈ l.text) : l.text.head? = some ':' ∨ IsQuoted (beforeColon l.text) := by
  obtain ⟨t, rest, hfirst⟩ := exists_first?_of_mem hl
  have hproper := proper_of_mem hl
  have hlexemes := lexemes_first hfirst
  obtain ⟨hloose, hcomment⟩ := hs l hl
  have hword : isWord ':' = true → False := by decide
  cases isFirst_of_first? hfirst with
  | blank hcut =>
    have hblank : isBlank ':' = true := hproper _ hcolon
    exact absurd hblank (by decide)
  | lineComment hcut => simp [isLoose] at hloose
  | blockComment hcut => exact absurd rfl hcomment
  | rawString hcut =>
    exact .inr (of_cutByte (fun _ ha => ha.mark) (fun _ _ _ => isQuoted_cutRawString) hcut)
  | string hcut =>
    exact .inr (of_cutByte (fun _ ha => ha.mark) (fun _ _ _ => isQuoted_cutString) hcut)
  | char hcut =>
    exact .inr (of_cutByte (fun _ ha => ha.mark) (fun _ _ _ => isQuoted_cutChar) hcut)
  | @lifetime text hcut =>
    have hlifetime : IsToken .lifetime text := hlexemes
    obtain ⟨c, w, rfl, -, -⟩ := hlifetime.lifetime_spec
    exact .inr (IsQuoted.in_front (s := ['\x27']) (.inr (by simp)) (by decide) _)
  | @ident text hcut =>
    have hident : IsToken .ident text := hlexemes
    exact absurd hcolon hident.colon_not_mem
  | number hcut =>
    obtain ⟨⟨c, w, rfl, hc, hw⟩, -⟩ := cutRun_eq_some hcut
    rcases List.mem_cons.1 hcolon with rfl | hcolon
    · exact absurd hc (by decide)
    · exact (hword (hw _ hcolon)).elim
  | punct hcut => exact .inl (colon_of_cutPunct hcut hcolon)
  | stray _ =>
    obtain rfl : ':' = _ := List.mem_singleton.1 hcolon
    exact (hword (spec_of_stray hfirst rfl ':' rfl).1).elim

/-- A text without a quote in front of its first colon is divided by it between two lexemes. -/
theorem exists_beforeColon {s : Text} (hs : Settled s) (hquote : ¬ IsQuoted (beforeColon s)) :
    ∃ front back, lexemes s = front ++ back ∧ beforeColon s = front.flatMap Lexeme.text ∧
      ∀ l ∈ back.head?, l.text.head? = some ':' := by
  have hcolon : ∀ l ∈ lexemes s, ':' ∈ l.text →
      l.text.head? = some ':' ∨ IsQuoted (beforeColon l.text) := fun l => colon_in_lexeme hs
  have htext := flatMap_text_lexemes s
  generalize lexemes s = ls at hcolon htext ⊢
  subst htext
  clear hs
  induction ls with
  | nil => exact ⟨[], [], rfl, rfl, by simp⟩
  | cons l ls ih =>
    rw [List.flatMap_cons] at hquote ⊢
    by_cases hl : ':' ∈ l.text
    · rcases hcolon l (by simp) hl with hhead | hquoted
      · refine ⟨[], l :: ls, rfl, beforeColon_of_head ?_, by simpa using hhead⟩
        rw [List.head?_append, hhead]
        rfl
      · exact absurd (hquoted.mono (beforeColon_subset _ _)) hquote
    · rw [beforeColon_append hl] at hquote ⊢
      obtain ⟨front, back, rfl, hfront, hback⟩ := ih (fun m hm => hcolon m (by simp [hm]))
        fun h => hquote (h.mono (List.subset_append_right _ _))
      exact ⟨l :: front, back, rfl, by rw [hfront, List.flatMap_cons], hback⟩

theorem Alike.not_mem_colon {s t : Text} (h : Alike s t) (hs : ':' ∉ s) : ':' ∉ t := by
  have hmem : ∀ u, ':' ∈ dense u ↔ ':' ∈ u := by
    intro u
    have hblank : isBlank ':' = false := by decide
    simp [dense, hblank]
  rwa [← hmem, h.dense_eq, hmem]

theorem head?_of_squeeze {s t : Text} {c : Char} (hc : isBlank c = false) (h : squeeze t = squeeze s)
    (hs : s.head? = some c) : t.head? = some c := by
  have hspace : isBlank ' ' = true := isBlank_space
  have hhead := congrArg List.head? h
  rw [head?_squeeze, head?_squeeze, hs, Option.map_some, if_neg (by simp [hc]), Option.map_eq_some_iff]
    at hhead
  obtain ⟨d, hd, hdc⟩ := hhead
  split at hdc
  · rw [← hdc, hspace] at hc
    exact absurd hc (by decide)
  · rw [hd, hdc]

/-- What stands in front of a colon is alike, unless the colon may be one of a literal. -/
theorem Alike.beforeColon {s t : Text} (h : Alike s t) (hquote : ¬ IsQuoted (beforeColon s)) :
    Alike (Text.beforeColon s) (Text.beforeColon t) := by
  have hnot : ∀ u, ':' ∉ Text.beforeColon u :=
    fun u hu => absurd (of_mem_takeWhile (· != ':') hu) (by decide)
  obtain ⟨front, back, hs, hfront, hback⟩ := exists_beforeColon h.left hquote
  cases back with
  | nil =>
    have hself : Text.beforeColon s = s := by
      rw [hfront, ← List.append_nil front, ← hs, flatMap_text_lexemes]
    have hcolon := h.not_mem_colon (hself ▸ hnot s)
    rwa [hself, beforeColon_of_not_mem hcolon]
  | cons l back =>
    have hl := hback l rfl
    have hkind : l.kind ≠ .blank := by
      intro hkind
      have hproper := proper_of_mem (s := s) (l := l) (by simp [hs])
      obtain ⟨kind, text⟩ := l
      obtain rfl : kind = .blank := hkind
      exact absurd (hproper ':' (List.mem_of_head? hl)) (by decide)
    have hcore := h.core.symm
    rw [hs, core_append, core_cons hkind] at hcore
    obtain ⟨front', l', back', ht, hkind', hsqueezed, hcfront, hcback⟩ := exists_of_core hcore
    have hparts := (h.parts hs ht hcfront.symm
      (by rw [core_cons hkind, core_cons hkind', hsqueezed, hcback])).1
    rw [← hfront] at hparts
    have hl' : l'.text.head? = some ':' := head?_of_squeeze (by decide)
      (congrArg Lexeme.text hsqueezed) hl
    have hsplit : Text.beforeColon t = front'.flatMap Lexeme.text := by
      rw [← flatMap_text_lexemes t, ht, List.flatMap_append,
        beforeColon_append (hparts.not_mem_colon (hnot s)), List.flatMap_cons, beforeColon_of_head,
        List.append_nil]
      rw [List.head?_append, hl']
      rfl
    rw [hsplit]
    exact hparts

/-- A solid text that is alike to an identifier is the identifier. -/
theorem Alike.eq_of_ident {s t : Text} (h : Alike s t) (hs : IsToken .ident s) (ht : Solid t) :
    t = s := by
  have hone : lexemes s = [⟨.token .ident, s⟩] := hs
  have hcore : Lexeme.core (lexemes t) = [Item.wordLexeme s] := by
    rw [← h.core, hone, core_cons (by simp), squeezed, squeeze_of_not_blank (hs.not_blank (by decide))]
    rfl
  exact Item.eq_of_word ht h.right hcore

/-- Texts that differ in their blanks at most: they have the same characters but for the blanks, and the
same tokens where no colon can be one of a literal. An identifier is the same. -/
structure Respaced (s t : Text) : Prop where
  dense : t.dense = s.dense
  alike : ¬ IsQuoted s → Alike s t
  ident : IsToken .ident s → t = s

theorem withoutAttributes_trim (s : Text) : trim (withoutAttributes s) = withoutAttributes s := by
  fun_induction withoutAttributes s with
  | case1 s _ =>
    by_cases hnil : trim s = []
    · rw [hnil]
      rfl
    · exact (solid_trim hnil).trim_eq
  | case2 s n _ _ ih => exact ih

end Text

namespace Item

/-! ## Names -/

theorem respaced_ofEntry {s t : Text} (h : Alike s t) :
    Respaced (Member.ofEntry s).name (Member.ofEntry t).name := by
  have hname : ∀ u, (Member.ofEntry u).name = trim (beforeColon u) := fun _ => rfl
  have hfront (hquote : ¬ IsQuoted (trim (beforeColon s))) : Alike (beforeColon s) (beforeColon t) :=
    h.beforeColon fun hquoted => hquote hquoted.trim
  rw [hname, hname]
  refine ⟨by rw [dense_trim, dense_trim, dense_beforeColon, dense_beforeColon, h.dense_eq],
    fun hquote => (hfront hquote).trim, fun hident => ?_⟩
  have halike := hfront hident.not_isQuoted
  have hempty := halike.trim_isEmpty
  rw [List.isEmpty_eq_false_iff.2 hident.ident_ne_nil, List.isEmpty_eq_false_iff] at hempty
  exact halike.trim.eq_of_ident hident (solid_trim hempty)

/-- Alike texts hold as many parameters, and their names differ in their blanks at most. -/
theorem respaced_parametersOf {s t : Text} (h : Alike s t) :
    List.Forall₂ (fun m m' => Respaced m.name m'.name) (Function.parametersOf s)
      (Function.parametersOf t) := by
  have hentries : List.Forall₂ (fun a b => Alike a b ∧ trim a = a ∧ trim b = b)
      (s.entries.map withoutAttributes) (t.entries.map withoutAttributes) :=
    List.rel_map (fun _ _ h => ⟨h.withoutAttributes, withoutAttributes_trim _, withoutAttributes_trim _⟩)
      h.entries
  rw [Function.parametersOf, Function.parametersOf, List.forall₂_map_left_iff, List.forall₂_map_right_iff]
  refine (List.rel_filter ?_ hentries).imp fun _ _ h => respaced_ofEntry h.1
  rintro a b ⟨hab, ha, hb⟩
  have hempty := hab.trim_isEmpty
  rw [ha, hb] at hempty
  dsimp only
  rw [hempty]
  cases hnil : a.isEmpty with
  | true => simp
  | false =>
    rw [hnil, List.isEmpty_eq_false_iff] at hempty
    rw [List.isEmpty_eq_false_iff] at hnil
    rw [← ha] at hnil
    rw [← hb] at hempty
    have hsa := solid_trim hnil
    have hsb := solid_trim hempty
    rw [ha] at hsa
    rw [hb] at hsb
    have hreceiver : isReceiver b = isReceiver a := by
      rw [Bool.eq_iff_iff, isReceiver_iff hsb hab.right, isReceiver_iff hsa hab.left, hab.core]
    rw [hreceiver]

end Item

end DocScaffold
