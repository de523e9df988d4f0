import DocScaffold.Proofs.Words

/-!
# Parameters as they are written

Parameters with a comma and a space between them are read back one by one (`parametersOf_listed`), as
long as the commas of their types stand inside brackets. Receivers are left out.
-/

namespace DocScaffold

/-! ## Texts that a list keeps whole -/

namespace Token

theorem outside_append {up down : Token → Bool} {ts us rest : List Token} {depth : Nat}
    (h : outside up down depth ts = some us) :
    outside up down depth (ts ++ rest) = (outside up down 0 rest).map (us ++ ·) := by
  replace h := outside_of_eq_some h
  induction h with
  | nil =>
    rw [List.nil_append]
    cases outside up down 0 rest <;> rfl
  | opener hup _ ih => rw [List.cons_append, outside, if_pos hup, ih]
  | @closer depth t ts us hup hdown _ ih =>
    rw [List.cons_append, outside, hup, hdown, if_neg (by decide), if_pos rfl,
      if_neg (Nat.succ_ne_zero depth), Nat.add_sub_cancel, ih]
  | outer hup hdown _ ih =>
    rw [List.cons_append, outside, hup, hdown, if_neg (by decide), if_neg (by decide), if_pos rfl, ih]
    cases outside up down 0 rest <;> simp
  | @inner depth t ts us hup hdown _ ih =>
    rw [List.cons_append, outside, hup, hdown, if_neg (by decide), if_neg (by decide),
      if_neg (Nat.succ_ne_zero depth), ih]

theorem outside_shift {up down : Token → Bool} {n : Nat} (hup : ∀ t, up (shift n t) = up t)
    (hdown : ∀ t, down (shift n t) = down t) (depth : Nat) (ts : List Token) :
    outside up down depth (ts.map (shift n)) = (outside up down depth ts).map (List.map (shift n)) := by
  induction ts generalizing depth with
  | nil =>
    rw [List.map_nil, outside]
    split <;> simp
  | cons t ts ih =>
    rw [List.map_cons, outside, outside, hup, hdown]
    split
    · exact ih _
    · split
      · split
        · rfl
        · exact ih _
      · split
        · rw [ih]
          cases outside up down 0 ts <;> simp
        · exact ih _

end Token

namespace Text

/-- Whether every comma of some tokens stands inside brackets, and all brackets among them close. -/
def keepsCommas (ts : List Token) : Bool :=
  (Token.outside Token.opens Token.closes 0 ts).any fun outer => outer.all fun t => !t.isPunct [',']

/-- Whether a list keeps the text in one piece: nothing in it is open at its end, and no comma in it
stands outside all brackets. -/
def isWhole (s : Text) : Bool := isClosed s && keepsCommas s.tokens

theorem isClosed_of_isWhole {s : Text} (h : isWhole s = true) : isClosed s = true := by
  rw [isWhole, Bool.and_eq_true] at h
  exact h.1

theorem keepsCommas_iff {ts : List Token} : keepsCommas ts = true ↔
    ∃ outer, Token.outside Token.opens Token.closes 0 ts = some outer ∧
      ∀ t ∈ outer, t.isPunct [','] = false := by
  rw [keepsCommas, Option.any_eq_true]
  simp [List.all_eq_true]

theorem keepsCommas_shift (n : Nat) (ts : List Token) :
    keepsCommas (ts.map (Token.shift n)) = keepsCommas ts := by
  rw [keepsCommas, Token.outside_shift (fun _ => rfl) (fun _ => rfl), keepsCommas]
  cases Token.outside Token.opens Token.closes 0 ts with
  | none => rfl
  | some outer => simp [List.all_map, Function.comp_def]

theorem keepsCommas_append {ts us : List Token} (hts : keepsCommas ts = true)
    (hus : keepsCommas us = true) : keepsCommas (ts ++ us) = true := by
  rw [keepsCommas_iff] at hts hus ⊢
  obtain ⟨a, ha, hcommas⟩ := hts
  obtain ⟨b, hb, hcommas'⟩ := hus
  refine ⟨a ++ b, by rw [Token.outside_append ha, hb]; rfl, ?_⟩
  intro t ht
  rcases List.mem_append.1 ht with ht | ht
  · exact hcommas t ht
  · exact hcommas' t ht

theorem isWhole_append {s t : Text} (hs : isWhole s = true) (ht : isWhole t = true)
    (h : Apart s t) : isWhole (s ++ t) = true := by
  rw [isWhole, Bool.and_eq_true] at hs ht ⊢
  refine ⟨isClosed_append hs.1 ht.1 h, ?_⟩
  rw [tokens_append hs.1 h, tokensAt_eq_shift]
  exact keepsCommas_append hs.2 (by rw [keepsCommas_shift]; exact ht.2)

/-- Texts that stand between what is written. -/
def fillers : List Text :=
  [[], [' '], ['#'], ['&'], [':', ':'], [':', ' '], "in ".toList, "pub".toList, "pub ".toList]

theorem isWhole_filler {s : Text} (h : s ∈ fillers) : isWhole s = true := by
  have hall : fillers.all isWhole = true := by decide +kernel
  exact List.all_eq_true.1 hall s h

theorem IsToken.isWhole {kind : Token.Kind} {s : Text} (h : IsToken kind s)
    (hkind : kind ≠ .punct) : isWhole s = true := by
  rw [Text.isWhole, Bool.and_eq_true]
  refine ⟨h.isClosed hkind, ?_⟩
  rw [tokens_eq_tokensAt, h.tokensAt, keepsCommas_iff]
  have hsign : ∀ sign, Token.isPunct ⟨kind, s, 0, 0 + s.length⟩ sign = false := by
    intro sign
    simp [Token.isPunct, hkind]
  generalize Token.mk kind s 0 (0 + s.length) = t at hsign
  refine ⟨[t], by simp [Token.outside, Token.opens, Token.closes, hsign], ?_⟩
  intro u hu
  rw [List.mem_singleton] at hu
  rw [hu, hsign]

/-! ## Lists of texts -/

theorem tokensAt_plain {c : Char} {s : Text} (offset : Nat) (h : isPlain c = true) :
    tokensAt offset (c :: s) =
      ⟨.punct, [c], offset, offset + 1⟩ :: tokensAt (offset + 1) s := by
  rw [tokensAt, lexemes_of_isPlain h]
  rfl

/-- Blanks in front of a text move its tokens. -/
theorem tokensAt_space {s : Text} (offset : Nat) (h : ∀ c ∈ s.head?, isBlank c = false) :
    tokensAt offset (' ' :: s) = tokensAt (offset + 1) s := by
  have hfirst : Lexeme.first? ([' '] ++ s) = some (⟨.blank, [' ']⟩, s) :=
    first?_blank (by simp) (by simp [isBlank_space]) h
  rw [tokensAt, ← List.singleton_append, lexemes_of_first? hfirst]
  rfl

theorem piecesFrom_append {s : Text} {start depth : Nat} {ts outer rest : List Token}
    (h : Token.outside Token.opens Token.closes depth ts = some outer)
    (hcommas : ∀ t ∈ outer, t.isPunct [','] = false) :
    piecesFrom s depth start (ts ++ rest) = piecesFrom s 0 start rest := by
  replace h := Token.outside_of_eq_some h
  induction h with
  | nil => rfl
  | opener hopens _ ih =>
    rw [List.cons_append, piecesFrom, if_pos hopens]
    exact ih hcommas
  | @closer depth t ts us hopens hcloses _ ih =>
    have hdepth : ((depth + 1 : Nat) : Int) - 1 = (depth : Int) := by omega
    rw [List.cons_append, piecesFrom, hopens, hcloses, if_neg (by decide), if_pos rfl, hdepth]
    exact ih hcommas
  | @outer t ts us hopens hcloses _ ih =>
    rw [List.cons_append, piecesFrom, hopens, hcloses, hcommas t (by simp), Bool.false_and,
      if_neg (by decide), if_neg (by decide), if_neg (by decide)]
    exact ih fun u hu => hcommas u (by simp [hu])
  | @inner depth t ts us hopens hcloses _ ih =>
    have hdepth : (((depth + 1 : Nat) : Int) == 0) = false := beq_false_of_ne (by omega)
    rw [List.cons_append, piecesFrom, hopens, hcloses, hdepth, Bool.and_false,
      if_neg (by decide), if_neg (by decide), if_neg (by decide)]
    exact ih hcommas

theorem piecesFrom_whole {s p : Text} (start offset : Nat) (rest : List Token)
    (h : isWhole p = true) :
    piecesFrom s 0 start (tokensAt offset p ++ rest) = piecesFrom s 0 start rest := by
  rw [isWhole, Bool.and_eq_true, ← keepsCommas_shift offset, ← tokensAt_eq_shift,
    keepsCommas_iff] at h
  obtain ⟨-, outer, houter, hcommas⟩ := h
  exact piecesFrom_append houter hcommas

theorem piecesFrom_comma (s : Text) (start place stop : Nat) (rest : List Token) :
    piecesFrom s 0 start (⟨.punct, [','], place, stop⟩ :: rest) =
      s.slice start place :: piecesFrom s 0 stop rest := rfl

theorem listed_cons_cons (p q : Text) (rest : List Text) :
    listed (p :: q :: rest) = p ++ ',' :: ' ' :: listed (q :: rest) := by
  rw [listed, List.intercalate_cons_cons, List.append_assoc]
  rfl

theorem head_listed {p : Text} {ps : List Text} (h : Solid p) :
    ∀ c ∈ (listed (p :: ps)).head?, isBlank c = false := by
  obtain ⟨c, u, rfl⟩ := List.exists_cons_of_ne_nil h.nonempty
  have hc := h.head c rfl
  cases ps with
  | nil => simpa [listed] using hc
  | cons q ps =>
    rw [listed_cons_cons]
    simpa using hc

theorem tokensAt_blanks {w : Text} (hw : ∀ c ∈ w, isBlank c = true) (offset : Nat) :
    tokensAt offset w = [] := by
  by_cases hne : w = []
  · rw [hne, tokensAt_nil]
  · have hfirst := first?_blank (b := []) hne hw (by simp)
    rw [List.append_nil] at hfirst
    rw [tokensAt, lexemes_of_first? hfirst, lexemes_nil]
    rfl

/-- A piece that a list with `back` behind it may hold; one may be empty when nothing stands behind the
list, so that a list may end in a comma. -/
def IsPiece (back p : Text) : Prop := Solid p ∨ p = [] ∧ back = []

theorem IsPiece.trim_between {back w p v : Text} (h : IsPiece back p)
    (hw : ∀ c ∈ w, isBlank c = true) (hv : ∀ c ∈ v, isBlank c = true) : trim (w ++ (p ++ v)) = p := by
  rcases h with hsolid | ⟨rfl, -⟩
  · exact Text.trim_between hw hsolid hv
  · rw [List.nil_append]
    exact trim_blanks fun c hc => (List.mem_append.1 hc).elim (hw c) (hv c)

theorem IsPiece.head {back p : Text} (h : IsPiece back p) (ps : List Text) :
    ∀ c ∈ (listed (p :: ps) ++ back).head?, isBlank c = false := by
  rcases h with hsolid | ⟨rfl, rfl⟩
  · have hhead : ∀ c ∈ (listed (p :: ps)).head?, isBlank c = false := head_listed hsolid
    cases hlisted : listed (p :: ps) with
    | nil =>
      cases ps with
      | nil => exact absurd (by simpa [listed] using hlisted) hsolid.nonempty
      | cons q ps =>
        rw [listed_cons_cons] at hlisted
        simp at hlisted
    | cons c u =>
      rw [hlisted] at hhead
      simpa using hhead c rfl
  · cases ps with
    | nil => simp [listed]
    | cons q ps =>
      rw [listed_cons_cons]
      simp only [List.nil_append, List.cons_append, List.head?_cons, Option.mem_some_iff]
      rintro c rfl
      decide

/-- The first of several entries, behind a text of which only blanks are left open. -/
theorem piecesFrom_entry {front back p rest : Text} {start : Nat} (hpiece : IsPiece back p)
    (hwhole : isWhole p = true) (hstart : start ≤ front.length)
    (hfront : ∀ c ∈ front.drop start, isBlank c = true) (hrest : ∀ c ∈ rest.head?, isBlank c = false) :
    (piecesFrom (front ++ (p ++ ',' :: ' ' :: rest)) 0 start
      (tokensAt front.length (p ++ ',' :: ' ' :: rest))).map trim =
      p :: (piecesFrom (front ++ (p ++ ',' :: ' ' :: rest)) 0 (front.length + p.length + 1)
        (tokensAt (front.length + p.length + 2) rest)).map trim := by
  have hapart : Apart p (',' :: ' ' :: rest) := Apart.of_head fun x _ => apart_mark (by decide)
  have hcomma : tokensAt (front.length + p.length) (',' :: ' ' :: rest) =
      ⟨.punct, [','], front.length + p.length, front.length + p.length + 1⟩ ::
        tokensAt (front.length + p.length + 2) rest := by
    rw [tokensAt_plain _ (by decide), tokensAt_space _ hrest]
  have hslice : slice (front ++ (p ++ ',' :: ' ' :: rest)) start (front.length + p.length) =
      front.drop start ++ p := by
    rw [← List.append_assoc, slice_append_left (by simp), slice, List.drop_append_of_le_length hstart,
      List.take_of_length_le (by simp; omega)]
  have htrim : trim (front.drop start ++ p) = p := by
    have htrimmed := hpiece.trim_between hfront (show ∀ c ∈ ([] : Text), isBlank c = true by simp)
    rwa [List.append_nil] at htrimmed
  rw [tokensAt_append _ (isClosed_of_isWhole hwhole) hapart,
    piecesFrom_whole start front.length _ hwhole, hcomma, piecesFrom_comma, List.map_cons, hslice, htrim]

/-- The last entry, behind a text of which only blanks are left open, with spaces behind it. -/
theorem piecesFrom_last {front back p : Text} {start : Nat} (hpiece : IsPiece back p)
    (hwhole : isWhole p = true) (hstart : start ≤ front.length)
    (hfront : ∀ c ∈ front.drop start, isBlank c = true) (hback : ∀ c ∈ back, c = ' ') :
    (piecesFrom (front ++ (p ++ back)) 0 start (tokensAt front.length (p ++ back))).map trim = [p] := by
  have hblank : ∀ c ∈ back, isBlank c = true := fun c hc => hback c hc ▸ isBlank_space
  have hapart : Apart p back := by
    intro x hx y hy
    rw [hback y (List.mem_of_head? hy)]
    rcases hpiece with hsolid | ⟨rfl, -⟩
    · exact apart_space (hsolid.last x hx)
    · simp at hx
  have hpieces := piecesFrom_whole (s := front ++ (p ++ back)) start front.length [] hwhole
  rw [List.append_nil] at hpieces
  rw [tokensAt_append _ (isClosed_of_isWhole hwhole) hapart, tokensAt_blanks hblank, List.append_nil,
    hpieces, piecesFrom, List.map_singleton, List.drop_append_of_le_length hstart,
    hpiece.trim_between hfront hblank]

/-- Entries behind a text of which only blanks are left open, with spaces behind them. -/
theorem piecesFrom_listed {p : Text} {ps : List Text} (front back : Text) (start : Nat)
    (hpiece : ∀ q ∈ p :: ps, IsPiece back q) (hwhole : ∀ q ∈ p :: ps, isWhole q = true)
    (hstart : start ≤ front.length) (hfront : ∀ c ∈ front.drop start, isBlank c = true)
    (hback : ∀ c ∈ back, c = ' ') :
    (piecesFrom (front ++ (listed (p :: ps) ++ back)) 0 start
      (tokensAt front.length (listed (p :: ps) ++ back))).map trim = p :: ps := by
  induction ps generalizing p front start with
  | nil =>
    have hlisted : listed [p] = p := by simp [listed]
    rw [hlisted]
    exact piecesFrom_last (hpiece p (by simp)) (hwhole p (by simp)) hstart hfront hback
  | cons q ps ih =>
    have hq : IsPiece back q := hpiece q (by simp)
    have hlisted : listed (p :: q :: ps) ++ back = p ++ ',' :: ' ' :: (listed (q :: ps) ++ back) := by
      rw [listed_cons_cons]
      simp
    -- The entry, its comma and the space go to the text in front; only the space is left open.
    have hbehind : (front ++ (p ++ [',', ' '])).drop (front.length + p.length + 1) = [' '] := by
      have hsplit : front ++ (p ++ [',', ' ']) = (front ++ p ++ [',']) ++ [' '] := by simp
      rw [hsplit]
      exact List.drop_left' (by simp; omega)
    have htext : front ++ (p ++ [',', ' ']) ++ (listed (q :: ps) ++ back) =
        front ++ (p ++ ',' :: ' ' :: (listed (q :: ps) ++ back)) := by simp
    have hlength : (front ++ (p ++ [',', ' '])).length = front.length + p.length + 2 := by
      simp
      omega
    have hnext := ih (front ++ (p ++ [',', ' '])) (front.length + p.length + 1)
      (fun r hr => hpiece r (List.mem_cons_of_mem p hr))
      (fun r hr => hwhole r (List.mem_cons_of_mem p hr))
      (by omega) (by rw [hbehind]; simp [isBlank_space])
    rw [htext, hlength] at hnext
    rw [hlisted, piecesFrom_entry (hpiece p (by simp)) (hwhole p (by simp)) hstart hfront (hq.head ps),
      hnext]

/-- A list of entries is read entry by entry. -/
theorem entries_listed {ps : List Text} (hsolid : ∀ p ∈ ps, Solid p)
    (hwhole : ∀ p ∈ ps, isWhole p = true) : (listed ps).entries = ps := by
  cases ps with
  | nil =>
    rw [entries, tokens_eq_tokensAt]
    simp [listed, piecesFrom, trim, trimStart, trimEnd]
  | cons p ps =>
    have hpieces := piecesFrom_listed [] [] 0 (fun q hq => .inl (hsolid q hq)) hwhole (by simp)
      (by simp) (by simp)
    rw [List.nil_append, List.append_nil, List.length_nil] at hpieces
    rw [entries, tokens_eq_tokensAt, hpieces, List.filter_eq_self]
    intro q hq
    simpa using (hsolid q hq).nonempty

/-- A text whose first token is no hash has no attributes in front. -/
theorem withoutAttributes_of_head {s : Text} (h : ∀ t ∈ s.tokens.head?, t.isPunct ['#'] = false) :
    withoutAttributes s = trim s := by
  apply withoutAttributes_of_none
  rw [attributeEnd?]
  split
  · rename_i t u rest hts
    rw [hts] at h
    rw [h t rfl]
    rfl
  · rfl

/-! ## Characters that stay -/

theorem mem_dropWhile {p : Char → Bool} {s : Text} {c : Char} (h : c ∈ s) (hc : p c = false) :
    c ∈ s.dropWhile p := by
  have hsplit : s.takeWhile p ++ s.dropWhile p = s := List.takeWhile_append_dropWhile
  rw [← hsplit] at h
  rcases List.mem_append.1 h with h | h
  · rw [of_mem_takeWhile p h] at hc
    exact absurd hc (by decide)
  · exact h

theorem exists_word {s : Text} {c : Char} (h : c ∈ s) (hc : isBlank c = false) :
    ∃ w ∈ words s, c ∈ w := by
  induction s with
  | nil => simp at h
  | cons d rest ih =>
    cases hd : isBlank d with
    | true =>
      rw [words_blank hd]
      rcases List.mem_cons.1 h with rfl | h
      · rw [hd] at hc
        exact absurd hc (by decide)
      · exact ih h
    | false =>
      by_cases hnext : ∀ e ∈ rest.head?, isBlank e = true
      · rw [words_alone hd hnext]
        rcases List.mem_cons.1 h with rfl | h
        · exact ⟨[c], by simp, by simp⟩
        · obtain ⟨w, hw, hcw⟩ := ih h
          exact ⟨w, by simp [hw], hcw⟩
      · cases rest with
        | nil => simp at hnext
        | cons e rest =>
          have he : isBlank e = false := by simpa using hnext
          cases hwords : words (e :: rest) with
          | nil =>
            have hne := words_ne_nil he (s := rest)
            exact absurd hwords hne
          | cons w ws =>
            rw [words_longer hd he hwords]
            rw [hwords] at ih
            rcases List.mem_cons.1 h with rfl | h
            · exact ⟨c :: w, by simp, by simp⟩
            · obtain ⟨v, hv, hcv⟩ := ih h
              rcases List.mem_cons.1 hv with rfl | hv
              · exact ⟨d :: v, by simp, by simp [hcv]⟩
              · exact ⟨v, by simp [hv], hcv⟩

theorem mem_unwords {w : Text} {ws : List Text} {c : Char} (hw : w ∈ ws) (hc : c ∈ w) :
    c ∈ unwords ws := by
  induction ws with
  | nil => simp at hw
  | cons v ws ih =>
    by_cases hne : ws = []
    · subst hne
      rw [List.mem_singleton] at hw
      simpa [unwords, ← hw] using hc
    · rw [unwords_cons hne]
      rcases List.mem_cons.1 hw with rfl | hw
      · simp [hc]
      · simp [ih hw]

theorem mem_collapse {s : Text} {c : Char} (h : c ∈ s) (hc : isBlank c = false) :
    c ∈ collapse s := by
  obtain ⟨w, hw, hcw⟩ := exists_word h hc
  exact mem_unwords hw hcw

end Text

namespace Item

open Text

/-! ## Receivers -/

theorem mem_dropWord? {start s t : Text} {c : Char} (h : dropWord? start s = some t) (hs : c ∈ s)
    (hstart : c ∉ start) (hc : isBlank c = false) : c ∈ t := by
  unfold dropWord? at h
  split at h
  · rename_i hbegin
    obtain ⟨rest, rfl⟩ := List.isPrefixOf_iff_prefix.1 hbegin
    rw [List.drop_left] at h
    split at h
    · rename_i d more
      split at h
      · rename_i hd
        simp only [Option.some.injEq] at h
        subst h
        apply mem_dropWhile _ hc
        have hmore : c ∈ d :: more := (List.mem_append.1 hs).resolve_left hstart
        rcases List.mem_cons.1 hmore with rfl | hmore
        · rw [hd] at hc
          exact absurd hc (by decide)
        · exact hmore
      · simp at h
    · simp at h
  · simp at h

theorem mem_dropLifetime {s : Text} {c : Char} (hs : c ∈ s) (hblank : isBlank c = false)
    (hword : isWord c = false) (hquote : c ≠ '\x27') : c ∈ dropLifetime s := by
  unfold dropLifetime
  split
  · rename_i rest
    have hrest : c ∈ rest := (List.mem_cons.1 hs).resolve_left hquote
    have hdrop := mem_dropWhile hrest hword
    split
    · rename_i d more _ hmore
      split
      · rename_i hd
        rw [hmore] at hdrop
        apply mem_dropWhile _ hblank
        rcases List.mem_cons.1 hdrop with rfl | hdrop
        · rw [hd] at hblank
          exact absurd hblank (by decide)
        · exact hdrop
      · exact hs
    · exact hs
  · exact hs

/-- A parameter without the reference in front. -/
def behindReference (s : Text) : Text :=
  match s with
  | '&' :: rest => dropLifetime (trimStart rest)
  | _ => s

theorem isReceiver_eq (s : Text) :
    isReceiver s = ((dropWord? "mut" (behindReference s.collapse)).getD (behindReference s.collapse) ==
      "self".toList) := rfl

/-- A parameter with a type is no receiver. -/
theorem isReceiver_of_colon {s : Text} (h : ':' ∈ s) : isReceiver s = false := by
  have hblank : isBlank ':' = false := by decide
  have hs := mem_collapse h hblank
  have hbehind : ':' ∈ behindReference s.collapse := by
    unfold behindReference
    split
    · rename_i rest heq
      rw [heq] at hs
      have hrest : ':' ∈ rest := (List.mem_cons.1 hs).resolve_left (by decide)
      exact mem_dropLifetime (mem_dropWhile hrest hblank) hblank (by decide) (by decide)
    · exact hs
  have hself : ':' ∉ "self".toList := by decide
  rw [isReceiver_eq, beq_eq_false_iff_ne]
  generalize behindReference s.collapse = v at hbehind
  intro heq
  cases hmut : dropWord? "mut".toList v with
  | none =>
    rw [hmut, Option.getD_none] at heq
    rw [heq] at hbehind
    exact hself hbehind
  | some t =>
    rw [hmut, Option.getD_some] at heq
    have := mem_dropWord? hmut hbehind (by decide) hblank
    rw [heq] at this
    exact hself this

/-- How `self` is passed; a reference may name its lifetime. -/
inductive Passing
  | byValue
  | byReference (lifetime : Option Text)

structure Receiver where
  passing : Passing
  isMutable : Bool

namespace Receiver

/-- What stands in front of `self` and its `mut`. -/
def lead : Passing → Text
  | .byValue => []
  | .byReference none => ['&']
  | .byReference (some name) => '&' :: '\x27' :: name ++ [' ']

def word (isMutable : Bool) : Text := if isMutable then "mut self" else "self"

def text (r : Receiver) : Text := lead r.passing ++ word r.isMutable

/-- The lifetime of a receiver is one. -/
def IsProper (r : Receiver) : Prop :=
  match r.passing with
  | .byReference (some name) => IsToken .lifetime ('\x27' :: name)
  | _ => True

theorem solid_word (isMutable : Bool) : Solid (word isMutable) := by
  cases isMutable
  · exact Lexeme.solid_of_ends (d := 'f') (by decide) (by decide) rfl
  · exact Lexeme.solid_of_ends (d := 'f') (by decide) (by decide) rfl

theorem isWhole_word (isMutable : Bool) :
    isWhole (word isMutable) = true ∧ isWhole (' ' :: word isMutable) = true := by
  cases isMutable <;> decide +kernel

theorem solid_text (r : Receiver) : Solid r.text := by
  obtain ⟨passing, isMutable⟩ := r
  have hword := solid_word isMutable
  have hlast : ∀ front : Text, ∀ c ∈ (front ++ word isMutable).getLast?, isBlank c = false := by
    intro front c hc
    apply hword.last
    rw [List.getLast?_append] at hc
    cases h : (word isMutable).getLast? with
    | none => exact absurd (List.getLast?_eq_none_iff.1 h) hword.nonempty
    | some d => simpa [h] using hc
  have hand : isBlank '&' = false := by decide
  cases passing with
  | byValue => exact hword
  | byReference lifetime =>
    cases lifetime with
    | none => exact ⟨by simp [text, lead], by simpa [text, lead] using hand, hlast _⟩
    | some name => exact ⟨by simp [text, lead], by simpa [text, lead] using hand, hlast _⟩

theorem isWhole_text {r : Receiver} (h : r.IsProper) : isWhole r.text = true := by
  obtain ⟨passing, isMutable⟩ := r
  have hword := isWhole_word isMutable
  have hand : isWhole ['&'] = true := isWhole_filler (by decide)
  have hapart : ∀ t, Apart ['&'] t := by
    intro t x hx y _
    obtain rfl : '&' = x := by simpa using hx
    exact apart_plain (by decide) (by decide)
  cases passing with
  | byValue => exact hword.1
  | byReference lifetime =>
    cases lifetime with
    | none => exact isWhole_append hand hword.1 (hapart _)
    | some name =>
      have hname : IsToken .lifetime ('\x27' :: name) := h
      have htext : text ⟨.byReference (some name), isMutable⟩ =
          ['&'] ++ (('\x27' :: name) ++ ' ' :: word isMutable) := by simp [text, lead]
      rw [htext]
      refine isWhole_append hand (isWhole_append (hname.isWhole (by decide)) hword.2 ?_) (hapart _)
      have hplain := hname.not_blank (by decide)
      exact Apart.of_head fun x hx => apart_space (hplain x (List.mem_of_getLast? hx))

theorem squeeze_word (isMutable : Bool) :
    squeeze (word isMutable) = word isMutable ∧
      squeeze (' ' :: word isMutable) = ' ' :: word isMutable := by
  cases isMutable <;> decide

theorem collapse_text {r : Receiver} (h : r.IsProper) : r.text.collapse = r.text := by
  rw [(solid_text r).collapse_eq]
  obtain ⟨passing, isMutable⟩ := r
  have hword := squeeze_word isMutable
  cases passing with
  | byValue => exact hword.1
  | byReference lifetime =>
    cases lifetime with
    | none =>
      change squeeze ('&' :: word isMutable) = '&' :: word isMutable
      rw [squeeze_cons (by decide), hword.1]
    | some name =>
      have hname : IsToken .lifetime ('\x27' :: name) := h
      have htext : text ⟨.byReference (some name), isMutable⟩ =
          '&' :: (('\x27' :: name) ++ ' ' :: word isMutable) := by simp [text, lead]
      rw [htext, squeeze_cons (by decide), squeeze_append_of_not_blank (hname.not_blank (by decide)),
        hword.2]

theorem dropLifetime_text {name w t : Text} (h : IsToken .lifetime ('\x27' :: name))
    (hw : ∀ c ∈ w, isBlank c = true) (hne : w ≠ []) (ht : ∀ c ∈ t.head?, isBlank c = false) :
    dropLifetime ('\x27' :: (name ++ (w ++ t))) = t := by
  obtain ⟨c, more, heq, hc, hmore⟩ := h.lifetime_spec
  obtain rfl : name = c :: more := by simpa using heq
  have hrun : ∀ d ∈ c :: more, isWord d = true := by
    intro d hd
    rcases List.mem_cons.1 hd with rfl | hd
    · exact isWord_of_isNameStart d hc
    · exact hmore d hd
  obtain ⟨d, v, rfl⟩ := List.exists_cons_of_ne_nil hne
  have hd : isBlank d = true := hw d (by simp)
  have hstop : ∀ e ∈ (d :: v ++ t).head?, isWord e = false := by
    simpa using isWord_of_isBlank hd
  have hstart : trimStart (v ++ t) = t :=
    dropWhile_append_of_head (fun e he => hw e (List.mem_cons_of_mem d he)) ht
  rw [dropLifetime, takeWhile_append_of_head hrun hstop, dropWhile_append_of_head hrun hstop,
    List.cons_append]
  dsimp only
  rw [hd, if_pos rfl, hstart]

theorem isReceiver_text {r : Receiver} (h : r.IsProper) : isReceiver r.text = true := by
  rw [isReceiver_eq, collapse_text h]
  obtain ⟨passing, isMutable⟩ := r
  have hself : ((dropWord? "mut" (word isMutable)).getD (word isMutable) == "self".toList) = true := by
    cases isMutable <;> decide
  have hhead : ∀ c ∈ (word isMutable).head?, isBlank c = false := (solid_word isMutable).head
  cases passing with
  | byValue =>
    cases isMutable <;> decide
  | byReference lifetime =>
    cases lifetime with
    | none => cases isMutable <;> decide
    | some name =>
      have htext : text ⟨.byReference (some name), isMutable⟩ =
          '&' :: '\x27' :: (name ++ ' ' :: word isMutable) := by simp [text, lead]
      have hquote : trimStart ('\x27' :: (name ++ ' ' :: word isMutable)) =
          '\x27' :: (name ++ ' ' :: word isMutable) := by
        rw [trimStart, List.dropWhile_cons_of_neg (by decide)]
      have hdrop : dropLifetime ('\x27' :: (name ++ ([' '] ++ word isMutable))) = word isMutable :=
        dropLifetime_text h (by simp [isBlank_space]) (by simp) hhead
      rw [List.singleton_append] at hdrop
      rw [htext, behindReference, hquote, hdrop]
      exact hself

theorem head_tokens {r : Receiver} : ∀ t ∈ r.text.tokens.head?, t.isPunct ['#'] = false := by
  obtain ⟨passing, isMutable⟩ := r
  cases passing with
  | byValue => cases isMutable <;> decide +kernel
  | byReference lifetime =>
    have htext : ∃ u, text ⟨.byReference lifetime, isMutable⟩ = '&' :: u := by
      cases lifetime with
      | none => exact ⟨_, rfl⟩
      | some name => exact ⟨_, rfl⟩
    obtain ⟨u, hu⟩ := htext
    rw [hu, tokens_eq_tokensAt, tokensAt_plain 0 (by decide)]
    intro t ht
    obtain rfl : _ = t := by simpa using ht
    decide

end Receiver

/-! ## Parameters -/

/-- A parameter as it is written. -/
inductive Parameter
  | receiver (r : Receiver)
  | named (m : Member)

namespace Parameter

def text : Parameter → Text
  | .receiver r => r.text
  | .named m => m.name ++ ':' :: ' ' :: m.type

/-- What a template shows of a parameter. -/
def member? : Parameter → Option Member
  | .receiver _ => none
  | .named m => some m

/-- A name, and a type that a list keeps whole. -/
def IsProper : Parameter → Prop
  | .receiver r => r.IsProper
  | .named m => IsToken .ident m.name ∧ Solid m.type ∧ isWhole m.type = true

theorem solid_text {p : Parameter} (h : p.IsProper) : Solid p.text := by
  cases p with
  | receiver r => exact r.solid_text
  | named m =>
    obtain ⟨hname, htype, -⟩ := h
    have hsplit : text (.named m) = (m.name ++ [':']) ++ ' ' :: m.type := by simp [text]
    rw [hsplit]
    exact (hname.ident_solid.concat (by decide)).join htype ' '

theorem isWhole_text {p : Parameter} (h : p.IsProper) : isWhole p.text = true := by
  cases p with
  | receiver r => exact Receiver.isWhole_text h
  | named m =>
    obtain ⟨hname, htype, hwhole⟩ := h
    have hcolon : isWhole [':', ' '] = true := isWhole_filler (by decide)
    have hsplit : text (.named m) = m.name ++ ([':', ' '] ++ m.type) := by simp [text]
    rw [hsplit]
    refine isWhole_append (hname.isWhole (by decide)) (isWhole_append hcolon hwhole ?_) ?_
    · intro x hx y hy
      obtain rfl : ' ' = x := by simpa using hx
      exact space_apart (htype.head y hy)
    · exact Apart.of_head fun x hx => apart_colon (hname.ident_last x hx)

theorem withoutAttributes_text {p : Parameter} (h : p.IsProper) : p.text.withoutAttributes = p.text := by
  have htrim : trim p.text = p.text := (solid_text h).trim_eq
  rw [withoutAttributes_of_head, htrim]
  cases p with
  | receiver r => exact r.head_tokens
  | named m =>
    obtain ⟨hname, -, -⟩ := h
    have happ : (text (.named m)).tokens =
        tokensAt 0 m.name ++ tokensAt m.name.length (':' :: ' ' :: m.type) :=
      tokens_append (hname.isClosed (by decide))
        (Apart.of_head fun x hx => apart_colon (hname.ident_last x hx))
    rw [happ, hname.tokensAt]
    intro t ht
    obtain rfl : _ = t := by simpa using ht
    simp [Token.isPunct]

theorem ofEntry_text {m : Member} (h : (named m).IsProper) : Member.ofEntry (named m).text = m := by
  obtain ⟨hname, htype, -⟩ := h
  have hrun : ∀ c ∈ m.name, (c != ':') = true := by
    intro c hc
    rw [bne_iff_ne]
    rintro rfl
    exact hname.colon_not_mem hc
  have hstop : ∀ c ∈ (':' :: ' ' :: m.type).head?, (c != ':') = false := by simp
  rw [Member.ofEntry, text, cutAt, takeWhile_append_of_head hrun hstop,
    dropWhile_append_of_head hrun hstop]
  dsimp only
  rw [hname.ident_solid.trim_eq, List.drop_succ_cons, List.drop_zero, trim_space htype]

/-- Written parameters are read back, but for receivers. -/
theorem parametersOf_listed {ps : List Parameter} (h : ∀ p ∈ ps, p.IsProper) :
    Function.parametersOf (listed (ps.map text)) = ps.filterMap member? := by
  have hentries : (listed (ps.map text)).entries = ps.map text := by
    apply entries_listed
    · intro q hq
      obtain ⟨p, hp, rfl⟩ := List.mem_map.1 hq
      exact solid_text (h p hp)
    · intro q hq
      obtain ⟨p, hp, rfl⟩ := List.mem_map.1 hq
      exact isWhole_text (h p hp)
  rw [Function.parametersOf, hentries]
  clear hentries
  induction ps with
  | nil => rfl
  | cons p ps ih =>
    have hp := h p (by simp)
    have hrest := ih fun q hq => h q (by simp [hq])
    have hne : p.text.isEmpty = false := by simpa using (solid_text hp).nonempty
    rw [List.map_cons, List.map_cons, withoutAttributes_text hp, List.filter_cons, hne]
    cases p with
    | receiver r =>
      rw [text, Receiver.isReceiver_text hp]
      exact hrest
    | named m =>
      have hcolon : ':' ∈ text (.named m) := by simp [text]
      rw [isReceiver_of_colon hcolon]
      have hmember : (named m).member? = some m := rfl
      rw [List.filterMap_cons, hmember]
      dsimp only
      rw [← hrest, ← ofEntry_text hp]
      simp [ofEntry_text hp]

end Parameter

end Item

end DocScaffold
