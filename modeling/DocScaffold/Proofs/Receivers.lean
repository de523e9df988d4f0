import DocScaffold.Proofs.Parameters
import DocScaffold.Proofs.Pieces

/-!
# Receivers by their tokens

Whether a parameter is a receiver is told from its tokens (`isReceiver_iff`), so parameters that differ
in their blanks are both receivers or both none.
-/

namespace DocScaffold

open Text Lexeme

namespace Text

/-! ## First tokens -/

/-- A token with blanks behind it is the first one of a text. -/
theorem core_token_blanks {kind : Token.Kind} {a w z : Text} (ha : IsToken kind a)
    (hkind : kind ≠ .punct) (hlast : ∀ c ∈ a.getLast?, isBlank c = false)
    (hw : ∀ c ∈ w, isBlank c = true) (hne : w ≠ []) (hz : ∀ c ∈ z.head?, isBlank c = false) :
    core (lexemes (a ++ (w ++ z))) = ⟨.token kind, squeeze a⟩ :: core (lexemes z) := by
  have hapart : Apart a (w ++ z) := by
    obtain ⟨c, v, rfl⟩ := List.exists_cons_of_ne_nil hne
    exact Apart.of_head fun x hx => apart_blank (hlast x hx) (hw c (by simp))
  have hone : lexemes a = [⟨.token kind, a⟩] := ha
  rw [lexemes_append (ha.isClosed hkind) hapart, hone, List.singleton_append, core_cons (by simp),
    core_blanks_append hw hz]
  rfl

/-- The first token of a text that begins with no blank is its first lexeme. -/
theorem exists_first_of_core {s : Text} (hhead : ∀ c ∈ s.head?, isBlank c = false) {l : Lexeme}
    {ms : List Lexeme} (h : core (lexemes s) = l :: ms) :
    ∃ a rest, first? s = some (⟨l.kind, a⟩, rest) ∧ squeeze a = l.text ∧ core (lexemes rest) = ms := by
  rw [← List.nil_append (l :: ms)] at h
  obtain ⟨front, ⟨kind, a⟩, back, hls, -, rfl, hfront, hback⟩ := exists_of_core h
  cases front with
  | nil =>
    obtain ⟨rest, hfirst, hrest⟩ := first?_of_lexemes hls
    exact ⟨a, rest, hfirst, rfl, by rw [hrest, hback]⟩
  | cons b front =>
    obtain ⟨rest, hfirst, -⟩ := first?_of_lexemes hls
    obtain ⟨hne, happ⟩ := first?_eq_some hfirst
    have hkind := core_eq_nil_iff.1 hfront b (by simp)
    have hproper := proper_of_first? hfirst
    obtain ⟨c, v, hc⟩ := List.exists_cons_of_ne_nil hne
    obtain ⟨bkind, btext⟩ := b
    obtain rfl : bkind = .blank := hkind
    have hblank : isBlank c = true := hproper c (by rw [hc]; exact List.mem_cons_self)
    rw [hhead c (by rw [← happ, hc]; rfl)] at hblank
    exact absurd hblank (by decide)

/-- The first lexeme of a text is a text of its own. -/
theorem lexemes_first {s rest : Text} {l : Lexeme} (h : first? s = some (l, rest)) :
    lexemes l.text = [l] := by
  have happ := (first?_eq_some h).2
  have hls : lexemes (l.text ++ rest) = [l] ++ lexemes rest := by
    rw [happ, lexemes_of_first? h]
    rfl
  exact (lexemes_of_append hls (by simp)).1

theorem Settled.rest {s rest : Text} (hs : Settled s) {l : Lexeme} (h : first? s = some (l, rest)) :
    Settled rest :=
  fun m hm => hs m (by rw [lexemes_of_first? h]; exact List.mem_cons_of_mem l hm)

/-- Settled texts stay so with single spaces. -/
theorem Settled.squeezed {s : Text} (hs : Settled s) :
    lexemes (Text.squeeze s) = (lexemes s).map Lexeme.squeezed :=
  lexemes_squeeze (fun _ hl => (hs.spec hl).1) fun _ hl => (hs.spec hl).2.2

theorem Settled.squeeze {s : Text} (hs : Settled s) : Settled (Text.squeeze s) := by
  intro m hm
  rw [hs.squeezed] at hm
  obtain ⟨l, hl, rfl⟩ := List.mem_map.1 hm
  have hplain : l.kind = .token .punct → l.squeezed = l := by
    intro hkind
    have hproper := proper_of_mem hl
    obtain ⟨kind, text⟩ := l
    obtain rfl : kind = .token .punct := hkind
    rw [Lexeme.squeezed, squeeze_of_not_blank hproper]
  obtain ⟨hloose, hblock⟩ := hs l hl
  refine ⟨?_, hblock⟩
  by_cases hkind : l.kind = .token .punct
  · rwa [hplain hkind]
  · have hkind' : l.squeezed.kind ≠ .token .punct := hkind
    have hcomment : l.squeezed.kind ≠ .lineComment := (hs.spec hl).1
    simp [isLoose, isSign, hkind', hcomment]

theorem Settled.core_squeeze {s : Text} (hs : Settled s) :
    core (lexemes (Text.squeeze s)) = core (lexemes s) := by
  rw [hs.squeezed, core_squeezed]

theorem Solid.no_blanks {s u v : Text} (hsolid : Solid s) (heq : s = u ++ v)
    (hv : ∀ c ∈ v, isBlank c = true) : v = [] := by
  by_contra hne
  have hblank := hv _ (List.getLast_mem hne)
  rw [hsolid.last] at hblank
  · exact absurd hblank (by decide)
  · rw [heq, List.getLast?_append_of_ne_nil _ hne, List.getLast?_eq_some_getLast hne]
    rfl

/-- A solid text with a single token is the token. -/
theorem Solid.eq_of_core {s : Text} (hsolid : Solid s) (hs : Settled s) {l : Lexeme}
    (h : core (lexemes s) = [l]) : first? s = some (⟨l.kind, s⟩, []) ∧ Text.squeeze s = l.text := by
  obtain ⟨a, rest, hfirst, ha, hrest⟩ := exists_first_of_core hsolid.head h
  obtain ⟨w, v, heq, hw, hv⟩ := exists_trim rest
  rw [(hs.rest hfirst).trim_eq_nil_iff.2 hrest, List.nil_append] at heq
  have htext := (first?_eq_some hfirst).2
  obtain rfl : rest = [] := by
    refine hsolid.no_blanks htext.symm ?_
    rw [heq]
    exact fun c hc => (List.mem_append.1 hc).elim (hw c) (hv c)
  rw [List.append_nil] at htext
  obtain rfl : a = s := htext
  exact ⟨hfirst, ha⟩

/-- A solid text with more than one token is the first one, blanks and a solid text. -/
theorem Solid.exists_peel {s : Text} (hsolid : Solid s) (hs : Settled s) {l : Lexeme}
    {ms : List Lexeme} (h : core (lexemes s) = l :: ms) (hms : ms ≠ []) :
    ∃ a w z, s = a ++ (w ++ z) ∧ first? s = some (⟨l.kind, a⟩, w ++ z) ∧ Text.squeeze a = l.text ∧
      (∀ c ∈ w, isBlank c = true) ∧ Solid z ∧ Settled z ∧ core (lexemes z) = ms := by
  obtain ⟨a, rest, hfirst, ha, hrest⟩ := exists_first_of_core hsolid.head h
  obtain ⟨w, v, heq, hw, hv⟩ := exists_trim rest
  have hsettled := hs.rest hfirst
  have hne : Text.trim rest ≠ [] := by
    rw [Ne, hsettled.trim_eq_nil_iff, hrest]
    exact hms
  have htext := (first?_eq_some hfirst).2
  obtain rfl : v = [] := by
    refine hsolid.no_blanks (u := a ++ (w ++ Text.trim rest)) ?_ hv
    rw [List.append_assoc, List.append_assoc, ← heq, ← htext]
  rw [List.append_nil] at heq
  refine ⟨a, w, Text.trim rest, ?_, ?_, ha, hw, solid_trim hne, hsettled.trim,
    by rw [hsettled.core_trim, hrest]⟩
  · rw [← heq, ← htext]
  · rw [← heq, hfirst]

end Text

namespace Item

/-! ## Receivers -/

/-- A word as a lexeme. -/
def wordLexeme (text : Text) : Lexeme := ⟨.token .ident, text⟩

/-- Whether lexemes without blanks are `self` or `mut self`. -/
def IsSelf (ls : List Lexeme) : Prop :=
  ls = [wordLexeme "self"] ∨ ls = [wordLexeme "mut", wordLexeme "self"]

/-- Whether a text is `self` behind a `mut` or none. -/
def isSelf (s : Text) : Bool := (dropWord? "mut" s).getD s == "self".toList

theorem dropWord?_eq_some_iff {start s t : Text} : dropWord? start s = some t ↔
    ∃ w, s = start ++ (w ++ t) ∧ w ≠ [] ∧ (∀ c ∈ w, isBlank c = true) ∧
      ∀ c ∈ t.head?, isBlank c = false := by
  constructor
  · intro h
    unfold dropWord? at h
    split at h
    · rename_i hbegin
      obtain ⟨rest, rfl⟩ := List.isPrefixOf_iff_prefix.1 hbegin
      rw [List.drop_left] at h
      split at h
      · rename_i d more
        split at h
        · rename_i hd
          simp only [Option.some.injEq] at h
          subst h
          refine ⟨d :: more.takeWhile isBlank, ?_, by simp, ?_, fun c hc => head?_dropWhile isBlank hc⟩
          · rw [List.cons_append, trimStart, List.takeWhile_append_dropWhile]
          · intro c hc
            rcases List.mem_cons.1 hc with rfl | hc
            · exact hd
            · exact of_mem_takeWhile isBlank hc
        · simp at h
      · simp at h
    · simp at h
  · rintro ⟨w, rfl, hne, hw, ht⟩
    obtain ⟨d, v, rfl⟩ := List.exists_cons_of_ne_nil hne
    have hv : trimStart (v ++ t) = t :=
      dropWhile_append_of_head (fun c hc => hw c (List.mem_cons_of_mem d hc)) ht
    rw [dropWord?, if_pos (by simp), List.drop_left, List.cons_append]
    dsimp only
    rw [if_pos (hw d (by simp)), hv]

/-- A text that begins with a word. -/
theorem eq_of_first? {s a rest word : Text} (h : first? s = some (⟨(wordLexeme word).kind, a⟩, rest))
    (ha : squeeze a = (wordLexeme word).text) : a = word := by
  rwa [squeeze_of_not_blank (proper_of_first? h)] at ha

/-- A text that is a single word. -/
theorem eq_of_word {s : Text} (hsolid : Solid s) (hs : Settled s) {word : Text}
    (h : core (lexemes s) = [wordLexeme word]) : s = word := by
  obtain ⟨hfirst, hsqueeze⟩ := hsolid.eq_of_core hs h
  exact eq_of_first? hfirst hsqueeze

/-- Whether a solid text is `self` is told from its tokens. -/
theorem isSelf_iff {s : Text} (hsolid : Solid s) (hs : Settled s) :
    isSelf s = true ↔ IsSelf (core (lexemes s)) := by
  have hself : core (lexemes "self") = [wordLexeme "self"] := by decide +kernel
  rw [isSelf, beq_iff_eq]
  constructor
  · intro h
    cases hdrop : dropWord? "mut" s with
    | none =>
      rw [hdrop, Option.getD_none] at h
      rw [h]
      exact .inl hself
    | some t =>
      rw [hdrop, Option.getD_some] at h
      subst h
      obtain ⟨w, rfl, hne, hw, ht⟩ := dropWord?_eq_some_iff.1 hdrop
      have hmut : IsToken .ident "mut" := by decide +kernel
      refine .inr ?_
      rw [core_token_blanks hmut (by decide) hmut.ident_solid.last hw hne ht, hself]
      rfl
  · rintro (h | h)
    · rw [eq_of_word hsolid hs h]
      rfl
    · obtain ⟨a, w, z, rfl, hfirst, ha, hw, hz, hzsettled, hzcore⟩ := hsolid.exists_peel hs h (by simp)
      obtain rfl := eq_of_first? hfirst ha
      obtain rfl := eq_of_word hz hzsettled hzcore
      have hne : w ≠ [] := by
        rintro rfl
        exact absurd (head_behind_word hfirst (.inl rfl) 's' rfl) (by decide)
      have hdrop : dropWord? "mut" _ = some "self".toList :=
        dropWord?_eq_some_iff.2 ⟨w, rfl, hne, hw, hz.head⟩
      rw [hdrop]
      rfl

/-- What is `self` begins with a word. -/
theorem head_of_isSelf {s : Text} (hsolid : Solid s) (hs : Settled s) (h : IsSelf (core (lexemes s))) :
    ∃ c ∈ s.head?, isWord c = true := by
  rcases h with h | h
  · rw [eq_of_word hsolid hs h]
    exact ⟨'s', rfl, by decide⟩
  · obtain ⟨a, w, z, rfl, hfirst, ha, -⟩ := hsolid.exists_peel hs h (by simp)
    obtain rfl := eq_of_first? hfirst ha
    exact ⟨'m', rfl, by decide⟩

/-- A text with a lifetime in front begins with the lifetime, unless it holds a lone quote. -/
theorem first?_lifetime {name rest : Text} (hs : Settled ('\x27' :: (name ++ rest)))
    (hne : name ≠ []) (hname : ∀ c ∈ name, isWord c = true)
    (hrest : ∃ c ∈ rest.head?, isBlank c = true) :
    first? ('\x27' :: (name ++ rest)) = some (⟨.token .lifetime, '\x27' :: name⟩, rest) := by
  obtain ⟨d, v, rfl⟩ := List.exists_cons_of_ne_nil hne
  obtain ⟨c, hc, hblank⟩ := hrest
  have hquote : isWord '\x27' = false ∧ isBlank '\x27' = false := by decide
  have hstop : ∀ e ∈ rest.head?, isWord e = false := by
    intro e he
    rw [Option.mem_unique he hc]
    exact isWord_of_isBlank hblank
  have hchar : cutChar ('\x27' :: (d :: v ++ rest)) = none := by
    rw [List.cons_append, cutChar_word_eq_none_iff (hname d List.mem_cons_self)]
    intro more heq
    cases v with
    | nil =>
      rw [List.nil_append] at heq
      rw [heq] at hc
      obtain rfl : '\x27' = c := by simpa using hc
      exact absurd hblank (by decide)
    | cons f v =>
      obtain rfl : f = '\x27' := (List.cons.inj heq).1
      exact absurd (hname '\x27' (by simp)) (by decide)
  have hsome := isSome_cutLifetime (fun l hl => (hs l hl).1) hchar
  obtain ⟨e, more, heq, hstart⟩ := exists_of_isSome_cutLifetime hsome
  obtain rfl : d = e := (List.cons.inj heq).1
  have hrun : cutName (d :: v ++ rest) = some (d :: v, rest) :=
    cutRun_append hstart (fun e he => hname e (List.mem_cons_of_mem d he)) hstop
  have hlifetime : cutLifetime ('\x27' :: (d :: v ++ rest)) = some ('\x27' :: d :: v, rest) := by
    rw [cutLifetime, hrun]
    rfl
  have hbyte : ∀ cut : Text → Cut, ∀ r, cutByte cut ('\x27' :: r) = cut ('\x27' :: r) := fun _ _ => rfl
  have hfirst : ∀ r, cutRun isBlank isBlank ('\x27' :: r) = none ∧ cutLineComment ('\x27' :: r) = none ∧
      cutBlockComment ('\x27' :: r) = none ∧ cutRawString ('\x27' :: r) = none ∧
      cutString ('\x27' :: r) = none := fun _ => ⟨rfl, rfl, rfl, rfl, rfl⟩
  simp only [first?, rules, List.findSome?_cons, hbyte, hfirst, hchar, hlifetime, Option.map_none,
    Option.map_some]

/-- What is dropped in front of a parameter is nothing, or a word behind a quote. -/
theorem dropLifetime_cases (s : Text) : dropLifetime s = s ∨
    ∃ name w t, s = '\x27' :: (name ++ (w ++ t)) ∧ dropLifetime s = t ∧
      (name ≠ [] ∧ ∀ c ∈ name, isWord c = true) ∧ (w ≠ [] ∧ ∀ c ∈ w, isBlank c = true) ∧
      ∀ c ∈ t.head?, isBlank c = false := by
  unfold dropLifetime
  split
  · rename_i rest
    split
    · rename_i d v c more hname hrest
      split
      · rename_i hblank
        have hwhole : rest = (d :: v) ++ ((c :: more.takeWhile isBlank) ++ trimStart more) := by
          rw [← hname, List.cons_append, trimStart, List.takeWhile_append_dropWhile, ← hrest,
            List.takeWhile_append_dropWhile]
        refine .inr ⟨d :: v, c :: more.takeWhile isBlank, trimStart more, by rw [hwhole], rfl,
          ⟨by simp, ?_⟩, ⟨by simp, ?_⟩, fun e he => head?_dropWhile isBlank he⟩
        · rw [← hname]
          exact fun e he => of_mem_takeWhile isWord he
        · intro e he
          rcases List.mem_cons.1 he with rfl | he
          · exact hblank
          · exact of_mem_takeWhile isBlank he
      · exact .inl rfl
    · exact .inl rfl
  · exact .inl rfl

/-- Whether a solid text is `self` behind a lifetime or none is told from its tokens. -/
theorem isSelf_dropLifetime_iff {s : Text} (hsolid : Solid s) (hs : Settled s) :
    isSelf (dropLifetime s) = true ↔ IsSelf (core (lexemes s)) ∨
      ∃ name ls, core (lexemes s) = ⟨.token .lifetime, name⟩ :: ls ∧ IsSelf ls := by
  constructor
  · intro h
    rcases dropLifetime_cases s with hsame | ⟨name, w, t, rfl, heq, hname, ⟨hne, hw⟩, ht⟩
    · rw [hsame] at h
      exact .inl ((isSelf_iff hsolid hs).1 h)
    · rw [heq] at h
      have hnil : t ≠ [] := by
        rintro rfl
        exact absurd h (by decide)
      have hblank : ∃ c ∈ (w ++ t).head?, isBlank c = true := by
        obtain ⟨c, v, rfl⟩ := List.exists_cons_of_ne_nil hne
        exact ⟨c, rfl, hw c (by simp)⟩
      have hfirst := first?_lifetime hs hname.1 hname.2 hblank
      have hgap : lexemes (w ++ t) = lexemes w ++ lexemes t := isGap_blanks hw ht
      have hsettled : Settled t :=
        fun l hl => hs.rest hfirst l (by rw [hgap]; exact List.mem_append_right _ hl)
      have hlast : Solid t := by
        refine ⟨hnil, ht, fun c hc => hsolid.last c ?_⟩
        rw [← List.append_assoc, ← List.cons_append, List.getLast?_append_of_ne_nil _ hnil]
        exact hc
      refine .inr ⟨squeeze ('\x27' :: name), core (lexemes t), ?_, (isSelf_iff hlast hsettled).1 h⟩
      rw [lexemes_of_first? hfirst, core_cons (by simp), core_blanks_append hw ht]
      rfl
  · rintro (h | ⟨name, ls, h, hself⟩)
    · have hself := (isSelf_iff hsolid hs).2 h
      rwa [dropLifetime.eq_2 s]
      rintro rest rfl
      have hnot : isSelf ('\x27' :: rest) = false := rfl
      rw [hnot] at hself
      exact absurd hself (by decide)
    · have hne : ls ≠ [] := by rcases hself with rfl | rfl <;> simp
      obtain ⟨a, w, z, rfl, hfirst, -, hw, hz, hzsettled, rfl⟩ := hsolid.exists_peel hs h hne
      obtain ⟨c, hc, hword⟩ := head_of_isSelf hz hzsettled hself
      have hwne : w ≠ [] := by
        rintro rfl
        rw [head_behind_word hfirst (.inr rfl) c hc] at hword
        exact absurd hword (by decide)
      have hlifetime : IsToken .lifetime a := lexemes_first hfirst
      obtain ⟨d, v, rfl, -⟩ := hlifetime.lifetime_spec
      have hdrop : dropLifetime ('\x27' :: (d :: v ++ (w ++ z))) = z :=
        Receiver.dropLifetime_text hlifetime hw hwne hz.head
      rw [List.cons_append, hdrop]
      exact (isSelf_iff hz hzsettled).2 hself

/-- Whether lexemes without blanks are a receiver: `self` with or without `mut`, by value or by
reference, which may name its lifetime. -/
def AreReceiver (ls : List Lexeme) : Prop :=
  IsSelf ls ∨ ∃ ms, ls = ⟨.token .punct, ['&']⟩ :: ms ∧
    (IsSelf ms ∨ ∃ name ns, ms = ⟨.token .lifetime, name⟩ :: ns ∧ IsSelf ns)

theorem areReceiver_reference (ls : List Lexeme) : AreReceiver (⟨.token .punct, ['&']⟩ :: ls) ↔
    IsSelf ls ∨ ∃ name ns, ls = ⟨.token .lifetime, name⟩ :: ns ∧ IsSelf ns := by
  simp [AreReceiver, IsSelf, wordLexeme]

/-- Behind a reference sign stand blanks and what is referred to. -/
theorem lexemes_reference (rest : Text) : lexemes ('&' :: rest) =
    ⟨.token .punct, ['&']⟩ :: (lexemes (rest.takeWhile isBlank) ++ lexemes (trimStart rest)) := by
  have hsplit : rest = rest.takeWhile isBlank ++ trimStart rest :=
    List.takeWhile_append_dropWhile.symm
  have hgap : lexemes rest = lexemes (rest.takeWhile isBlank) ++ lexemes (trimStart rest) := by
    conv_lhs => rw [hsplit]
    exact isGap_blanks (fun c hc => of_mem_takeWhile isBlank hc) fun c hc => head?_dropWhile isBlank hc
  rw [lexemes_of_isPlain (by decide), hgap]

theorem core_reference (rest : Text) : core (lexemes ('&' :: rest)) =
    ⟨.token .punct, ['&']⟩ :: core (lexemes (trimStart rest)) := by
  rw [lexemes_reference, core_cons (by simp), core_append,
    core_blanks fun c hc => of_mem_takeWhile isBlank hc]
  rfl

/-- What is referred to may have a lifetime in front. -/
theorem areReceiver_reference_iff {rest : Text} (hsolid : Solid ('&' :: rest))
    (hs : Settled ('&' :: rest)) :
    AreReceiver (core (lexemes ('&' :: rest))) ↔ isSelf (dropLifetime (trimStart rest)) = true := by
  have hsplit : rest = rest.takeWhile isBlank ++ trimStart rest :=
    List.takeWhile_append_dropWhile.symm
  have hhead : ∀ c ∈ (trimStart rest).head?, isBlank c = false := fun c hc => head?_dropWhile isBlank hc
  have hrest : Settled (trimStart rest) :=
    fun l hl => hs l (by rw [lexemes_reference]; simp [hl])
  rw [core_reference, areReceiver_reference]
  by_cases hnil : trimStart rest = []
  · rw [hnil, lexemes_nil]
    refine ⟨fun h => ?_, fun h => absurd h (by decide)⟩
    rcases h with (h | h) | ⟨name, ns, h, -⟩ <;> simp [core] at h
  · refine (isSelf_dropLifetime_iff ⟨hnil, hhead, fun c hc => hsolid.last c ?_⟩ hrest).symm
    rw [hsplit, ← List.cons_append, List.getLast?_append_of_ne_nil _ hnil]
    exact hc

/-- Whether a parameter is a receiver is told from its tokens. -/
theorem isReceiver_iff {s : Text} (hsolid : Solid s) (hs : Settled s) :
    isReceiver s = true ↔ AreReceiver (core (lexemes s)) := by
  have hreceiver : isReceiver s = isSelf (behindReference (squeeze s)) := by
    rw [← hsolid.collapse_eq]
    rfl
  rw [hreceiver, ← hs.core_squeeze]
  have hsettled := hs.squeeze
  have hsqueezed := hsolid.squeeze
  generalize squeeze s = t at hsettled hsqueezed
  by_cases hand : ∃ rest, t = '&' :: rest
  · obtain ⟨rest, rfl⟩ := hand
    exact (areReceiver_reference_iff hsqueezed hsettled).symm
  · have hbehind : behindReference t = t := by
      unfold behindReference
      split
      · rename_i rest
        exact absurd ⟨rest, rfl⟩ hand
      · rfl
    rw [hbehind, isSelf_iff hsqueezed hsettled]
    refine ⟨.inl, fun h => h.resolve_right ?_⟩
    rintro ⟨ms, hms, -⟩
    obtain ⟨a, rest, hfirst, ha, -⟩ := exists_first_of_core hsqueezed.head hms
    rw [squeeze_of_not_blank (proper_of_first? hfirst)] at ha
    dsimp only at ha
    exact hand ⟨rest, by rw [← (first?_eq_some hfirst).2, ha]; rfl⟩

end Item

end DocScaffold
