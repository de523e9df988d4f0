import DocScaffold.Proofs.Parameters
import DocScaffold.Proofs.Rows
import DocScaffold.Proofs.Tiling

/-!
# Entries and the tokens of their body

The entries of a body are the stretches between the commas outside all brackets. Nothing but these commas
is lost, no entry is cut any further, and entries with commas between them are read back
(`entries_divide`).
-/

namespace DocScaffold

open Text

namespace Token

/-- How many more brackets are opened than closed. -/
def bracketDepth (ts : List Token) : Int := ts.countP opens - ts.countP closes

theorem bracketDepth_append (ts us : List Token) :
    bracketDepth (ts ++ us) = bracketDepth ts + bracketDepth us := by
  simp only [bracketDepth, List.countP_append, Nat.cast_add]
  omega

theorem bracketDepth_beq_zero (ts : List Token) :
    (bracketDepth ts == 0) = (ts.countP opens == ts.countP closes) := by
  rw [Bool.eq_iff_iff, beq_iff_eq, beq_iff_eq, bracketDepth]
  omega

/-- The tokens but for the commas outside all brackets; `front` stands in front of them. -/
def unlisted (front : List Token) : List Token → List Token
  | [] => []
  | t :: rest =>
    if t.isPunct [','] && front.countP opens == front.countP closes then unlisted (front ++ [t]) rest
    else t :: unlisted (front ++ [t]) rest

/-- Whether no comma stands outside all brackets, `depth` of which are open in front. -/
def Uncut (depth : Int) : List Token → Prop
  | [] => True
  | t :: rest => ¬ (t.isPunct [','] = true ∧ depth = 0) ∧ Uncut (depth + bracketDepth [t]) rest

theorem bracketDepth_opener {t : Token} (h : t.opens = true) : bracketDepth [t] = 1 := by
  have hcloses : t.closes = false := by
    rw [opens, Bool.or_eq_true, Bool.or_eq_true] at h
    rcases h with (h | h) | h <;> simp [closes, isPunct_unique h]
  simp [bracketDepth, h, hcloses]

theorem bracketDepth_closer {t : Token} (hopens : t.opens = false) (h : t.closes = true) :
    bracketDepth [t] = -1 := by
  simp [bracketDepth, h, hopens]

theorem bracketDepth_other {t : Token} (hopens : t.opens = false) (hcloses : t.closes = false) :
    bracketDepth [t] = 0 := by
  simp [bracketDepth, hopens, hcloses]

theorem not_bracket_of_comma {t : Token} (h : t.isPunct [','] = true) :
    t.opens = false ∧ t.closes = false := by
  simp [opens, closes, isPunct_unique h]

/-- Whether commas stand outside all brackets does not depend on the places of the tokens. -/
theorem Uncut.of_shapes {depth : Int} {ts us : List Token} (h : Uncut depth ts)
    (hshapes : ts.map shape = us.map shape) : Uncut depth us := by
  induction ts generalizing depth us with
  | nil =>
    rw [List.map_eq_nil_iff.1 hshapes.symm]
    trivial
  | cons t ts ih =>
    cases us with
    | nil => simp at hshapes
    | cons u us =>
      obtain ⟨hhead, htail⟩ := List.cons.inj hshapes
      obtain ⟨kind, value, start, stop⟩ := t
      obtain ⟨kind', value', start', stop'⟩ := u
      obtain ⟨rfl, rfl⟩ := Prod.mk.inj hhead
      exact ⟨h.1, ih h.2 htail⟩

end Token

namespace Text

open Token

/-- A token that cuts nothing only changes the depth. -/
theorem piecesFrom_cons {s : Text} {depth : Int} {start : Nat} {t : Token} {rest : List Token}
    (h : ¬ (t.isPunct [','] = true ∧ depth = 0)) : piecesFrom s depth start (t :: rest) =
      piecesFrom s (depth + bracketDepth [t]) start rest := by
  rw [piecesFrom]
  split
  · rename_i hopens
    rw [bracketDepth_opener hopens]
  · rename_i hopens
    rw [Bool.not_eq_true] at hopens
    split
    · rename_i hcloses
      rw [bracketDepth_closer hopens hcloses]
      rfl
    · rename_i hcloses
      rw [Bool.not_eq_true] at hcloses
      rw [bracketDepth_other hopens hcloses, Int.add_zero, if_neg (by simpa using h)]

/-- Where nothing is cut, all is one piece. -/
theorem piecesFrom_of_uncut {s : Text} {depth : Int} {start : Nat} {ts : List Token}
    (h : Uncut depth ts) : piecesFrom s depth start ts = [s.drop start] := by
  induction ts generalizing depth with
  | nil => rfl
  | cons t ts ih => rw [piecesFrom_cons h.1, ih h.2]

end Text

namespace Lexeme

open Token

/-! ## Segments -/

/-- The change that a lexeme makes to the depth of brackets. -/
def rise (l : Lexeme) : Int := bracketDepth (tokensFrom 0 [l])

/-- The stretches of lexemes between the commas at depth zero, `depth` being the depth in front. -/
def segments (depth : Int) : List Lexeme → List (List Lexeme)
  | [] => [[]]
  | l :: rest =>
    if l.isSign ',' && depth == 0 then [] :: segments depth rest
    else (segments (depth + l.rise) rest).modifyHead (l :: ·)

theorem rise_token (kind : Token.Kind) (text : Text) (start stop : Nat) :
    rise ⟨.token kind, text⟩ = bracketDepth [⟨kind, text, start, stop⟩] := rfl

theorem isSign_token {kind : Token.Kind} {text : Text} {c : Char} (start stop : Nat) :
    isSign c ⟨.token kind, text⟩ = Token.isPunct ⟨kind, text, start, stop⟩ [c] := by
  cases kind <;> rfl

theorem uncut_cons {depth : Int} {l : Lexeme} {ls : List Lexeme}
    (hcomma : ¬ (l.isSign ',' = true ∧ depth = 0)) (h : Uncut (depth + l.rise) (tokensFrom 0 ls)) :
    Uncut depth (tokensFrom 0 (l :: ls)) := by
  have h := h.of_shapes ((map_shape_tokensFrom 0 ls).trans
    (map_shape_tokensFrom (0 + l.text.length) ls).symm)
  obtain ⟨kind, text⟩ := l
  cases kind with
  | token kind =>
    rw [isSign_token 0 (0 + text.length)] at hcomma
    exact ⟨hcomma, h⟩
  | blank | lineComment | blockComment | stray =>
    change Uncut (depth + 0) _ at h
    rwa [Int.add_zero] at h

/-- The first segment begins the lexemes, and no segment has a comma at depth zero. -/
theorem exists_segments (depth : Int) (ls : List Lexeme) :
    ∃ first more, segments depth ls = first :: more ∧
      (first <+: ls ∧ Uncut depth (tokensFrom 0 first)) ∧
        ∀ segment ∈ more, segment <:+: ls ∧ Uncut 0 (tokensFrom 0 segment) := by
  induction ls generalizing depth with
  | nil => exact ⟨[], [], rfl, ⟨List.prefix_rfl, trivial⟩, by simp⟩
  | cons l ls ih =>
    rw [segments]
    split
    · rename_i hcut
      rw [Bool.and_eq_true, beq_iff_eq] at hcut
      obtain ⟨-, rfl⟩ := hcut
      obtain ⟨first, more, h, ⟨hfront, huncut⟩, hmore⟩ := ih 0
      refine ⟨[], segments 0 ls, rfl, ⟨List.nil_prefix, trivial⟩, ?_⟩
      rw [h]
      refine List.forall_mem_cons.2 ⟨⟨hfront.isInfix.trans (List.suffix_cons l ls).isInfix, huncut⟩, ?_⟩
      exact fun segment hs => (hmore segment hs).imp_left (·.trans (List.suffix_cons l ls).isInfix)
    · rename_i hcut
      rw [Bool.and_eq_true, beq_iff_eq] at hcut
      obtain ⟨first, more, h, ⟨hfront, huncut⟩, hmore⟩ := ih (depth + l.rise)
      refine ⟨l :: first, more, by rw [h]; rfl, ⟨?_, uncut_cons hcut huncut⟩, ?_⟩
      · exact (List.prefix_cons_inj l).2 hfront
      · exact fun segment hs => (hmore segment hs).imp_left (·.trans (List.suffix_cons l ls).isInfix)

theorem of_mem_segments {segment ls : List Lexeme} (h : segment ∈ segments 0 ls) :
    segment <:+: ls ∧ Uncut 0 (tokensFrom 0 segment) := by
  obtain ⟨first, more, hsegments, ⟨hfront, huncut⟩, hmore⟩ := exists_segments 0 ls
  rw [hsegments] at h
  rcases List.mem_cons.1 h with rfl | h
  · exact ⟨hfront.isInfix, huncut⟩
  · exact hmore segment h

theorem flatMap_modifyHead_segments (depth : Int) (l : Lexeme) (ls : List Lexeme) :
    ((segments depth ls).modifyHead (l :: ·)).flatMap (·.filterMap shape?) =
      [l].filterMap shape? ++ (segments depth ls).flatMap (·.filterMap shape?) := by
  obtain ⟨first, more, h, -⟩ := exists_segments depth ls
  rw [h, List.modifyHead_cons, List.flatMap_cons, List.flatMap_cons, ← List.append_assoc,
    ← List.filterMap_append, List.singleton_append]

/-- The segments hold all tokens but the commas between them. -/
theorem shapes_segments (front : List Token) (offset : Nat) (ls : List Lexeme) :
    (segments (bracketDepth front) ls).flatMap (·.filterMap shape?) =
      (unlisted front (tokensFrom offset ls)).map Token.shape := by
  induction ls generalizing front offset with
  | nil => rfl
  | cons l ls ih =>
    rw [segments]
    obtain ⟨kind, text⟩ := l
    cases kind with
    | token kind =>
      have hnext := ih (front ++ [⟨kind, text, offset, offset + text.length⟩]) (offset + text.length)
      rw [bracketDepth_append, ← rise_token] at hnext
      rw [tokensFrom, isSign_token offset (offset + text.length), bracketDepth_beq_zero]
      dsimp only
      rw [unlisted]
      split
      · rename_i hcut
        rw [Bool.and_eq_true] at hcut
        obtain ⟨hopens, hcloses⟩ := not_bracket_of_comma hcut.1
        have hzero : rise ⟨.token kind, text⟩ = 0 := bracketDepth_other hopens hcloses
        rw [hzero, Int.add_zero] at hnext
        exact hnext
      · rw [flatMap_modifyHead_segments, hnext]
        rfl
    | blank | lineComment | blockComment | stray =>
      rw [if_neg (by simp [isSign]), flatMap_modifyHead_segments]
      have hnext := ih front (offset + text.length)
      rw [← Int.add_zero (bracketDepth front)] at hnext
      exact hnext

theorem modifyHead_nil (segments : List (List Lexeme)) : segments.modifyHead ([] ++ ·) = segments := by
  cases segments <;> rfl

theorem modifyHead_concat (mid : List Lexeme) (l : Lexeme) (segments : List (List Lexeme)) :
    segments.modifyHead ((mid ++ [l]) ++ ·) =
      (segments.modifyHead (l :: ·)).modifyHead (mid ++ ·) := by
  cases segments with
  | nil => rfl
  | cons first more => simp

/-- Where the pieces of a text begin behind some lexemes, they are the segments of the others. -/
theorem piecesFrom_segments {s : Text} (before mid : List Lexeme) {after : List Lexeme} (depth : Int)
    (h : lexemes s = before ++ (mid ++ after)) :
    piecesFrom s depth (before.flatMap Lexeme.text).length
        (tokensFrom ((before ++ mid).flatMap Lexeme.text).length after) =
      ((segments depth after).modifyHead (mid ++ ·)).map (·.flatMap Lexeme.text) := by
  have htext := flatMap_text_lexemes s
  rw [h, List.flatMap_append, List.flatMap_append] at htext
  induction after generalizing before mid depth with
  | nil =>
    rw [← htext, tokensFrom, piecesFrom]
    simp [segments]
  | cons l after ih =>
    rw [List.flatMap_cons] at htext
    have hlength : ((before ++ (mid ++ [l])).flatMap Lexeme.text).length =
        ((before ++ mid).flatMap Lexeme.text).length + l.text.length := by
      simp
      omega
    have hstep := ih before (mid ++ [l]) (depth + l.rise) (by rw [h]; simp) (by rw [← htext]; simp)
    rw [modifyHead_concat, hlength] at hstep
    rw [segments]
    obtain ⟨kind, text⟩ := l
    cases kind with
    | token kind =>
      rw [tokensFrom]
      dsimp only
      rw [isSign_token _ _]
      split
      · rename_i hcut
        rw [Bool.and_eq_true, beq_iff_eq, Token.isPunct, Bool.and_eq_true, beq_iff_eq, beq_iff_eq] at hcut
        obtain ⟨⟨rfl, rfl⟩, rfl⟩ := hcut
        have hnext := ih (before ++ (mid ++ [⟨.token .punct, [',']⟩])) [] 0 (by rw [h]; simp)
          (by rw [← htext]; simp)
        have hslice : s.slice (before.flatMap Lexeme.text).length
            ((before ++ mid).flatMap Lexeme.text).length = mid.flatMap Lexeme.text := by
          rw [← htext, List.flatMap_append, List.length_append]
          exact slice_middle _ _ _
        rw [modifyHead_nil, List.append_nil, hlength] at hnext
        rw [piecesFrom_comma, hslice, hnext, List.modifyHead_cons, List.append_nil]
        rfl
      · rename_i hcut
        rw [piecesFrom_cons (by simpa using hcut), ← rise_token]
        exact hstep
    | blank | lineComment | blockComment | stray =>
      change piecesFrom s (depth + 0) _ _ = _ at hstep
      rw [Int.add_zero] at hstep
      rw [if_neg (by simp [isSign])]
      exact hstep

end Lexeme

namespace Text

open Lexeme Token

/-- Lexemes that stand side by side in a text are lexed by themselves as they are in the text. -/
theorem lexemes_within {s : Text} {ls : List Lexeme} (h : ls <:+: lexemes s) :
    lexemes (ls.flatMap Lexeme.text) = ls := by
  obtain ⟨before, after, h⟩ := h
  have hfront := (lexemes_parts h.symm).1
  exact (lexemes_parts hfront).2

/-- Blanks behind some lexemes hold no token. -/
theorem tokens_of_blanks_behind {s : Text} {front back : List Lexeme} (h : lexemes s = front ++ back)
    (hback : ∀ c ∈ back.flatMap Lexeme.text, isBlank c = true) : tokens s = tokensFrom 0 front := by
  have halone := (lexemes_parts h).2
  have hblanks := tokensAt_blanks hback (0 + (front.flatMap Lexeme.text).length)
  rw [tokensAt, halone] at hblanks
  rw [tokens, h, tokensFrom_append, hblanks, List.append_nil]

/-- A blank in a line comment stands behind its sign. -/
theorem exists_comment_front {u v x : Text} {c : Char} (h : u ++ c :: v = '/' :: '/' :: x)
    (hc : isBlank c = true) : ∃ w, u = '/' :: '/' :: w ∧ x = w ++ c :: v := by
  have hslash : c ≠ '/' := by
    rintro rfl
    exact absurd hc (by decide)
  match u with
  | [] => exact absurd (List.cons.inj h).1 hslash
  | [_] => exact absurd (List.cons.inj (List.cons.inj h).2).1 hslash
  | a :: b :: w =>
    obtain ⟨rfl, hrest⟩ := List.cons.inj h
    obtain ⟨rfl, hx⟩ := List.cons.inj hrest
    exact ⟨w, rfl, hx.symm⟩

/-- Blanks at the end of a text change none of its tokens. -/
theorem tokens_append_blanks {t w : Text} (ht : ∀ c ∈ t.getLast?, isBlank c = false)
    (hw : ∀ c ∈ w, isBlank c = true) : tokens (t ++ w) = tokens t := by
  rcases lexemes_append_blanks_or ht hw with hls | ⟨before, u, c, v, after, hls, rfl, rfl⟩
  · exact tokens_of_blanks_behind hls (by rwa [flatMap_text_lexemes])
  · -- The blanks go on with a line comment at the end of the text, which ends before them.
    have hmem : ⟨.lineComment, u ++ c :: v⟩ ∈ before ++ ⟨.lineComment, u ++ c :: v⟩ :: after := by simp
    obtain ⟨r, rest, hfirst⟩ := exists_first?_of_mem (hls ▸ hmem)
    obtain ⟨x, hx, hbreak⟩ := exists_of_lineComment hfirst rfl
    obtain ⟨u, rfl, rfl⟩ := exists_comment_front hx (hw c (by simp))
    have hcomment := lexemes_line_comment fun hmem => hbreak (List.mem_append_left (c :: v) hmem)
    have hnarrow := (lexemes_narrow (by rw [← List.append_assoc]; exact hls)).1
    rw [hcomment] at hnarrow
    have hfront := List.append_cons before ⟨.lineComment, '/' :: '/' :: u ++ c :: v⟩ after
    rw [tokens_of_blanks_behind (hls.trans hfront) fun d hd => hw d (by simp [hd]), tokens, hnarrow,
      tokensFrom_append, tokensFrom_append]
    rfl

/-- The blanks at both ends of a text hold no token, and change none. -/
theorem shapes_trim (s : Text) : (trim s).tokens.map Token.shape = s.tokens.map Token.shape := by
  obtain ⟨w, v, hs, hw, hv⟩ := exists_trim s
  by_cases hnil : trim s = []
  · rw [hnil, List.nil_append] at hs
    have hblank : ∀ c ∈ s, isBlank c = true := by
      rw [hs]
      exact fun c hc => (List.mem_append.1 hc).elim (hw c) (hv c)
    rw [hnil, tokens_eq_tokensAt s, tokensAt_blanks hblank, tokens_eq_tokensAt, tokensAt_nil]
  · have hsolid := solid_trim hnil
    have hhead : ∀ c ∈ (trim s ++ v).head?, isBlank c = false := by
      rw [List.head?_append_of_ne_nil _ hnil]
      exact hsolid.head
    conv_rhs => rw [hs, tokens_eq_tokensAt, map_shape_tokensAt_blanks hw hhead,
      tokens_append_blanks hsolid.last hv]

/-! ## Entries -/

theorem pieces_eq (s : Text) :
    piecesFrom s 0 0 s.tokens = (segments 0 (lexemes s)).map (·.flatMap Lexeme.text) := by
  obtain ⟨first, more, hsegments, -⟩ := exists_segments 0 (lexemes s)
  have hpieces := piecesFrom_segments [] [] 0 (List.nil_append (lexemes s)).symm
  rwa [hsegments] at hpieces ⊢

theorem shapes_pieces (s : Text) :
    ((piecesFrom s 0 0 s.tokens).flatMap fun p => p.tokens.map Token.shape) =
      (unlisted [] s.tokens).map Token.shape := by
  rw [pieces_eq, List.flatMap_map, tokens, ← shapes_segments [] 0]
  refine List.flatMap_congr fun segment hsegment => ?_
  rw [map_shape_tokens, lexemes_within (of_mem_segments hsegment).1]

theorem shapes_trimmed (ps : List Text) :
    (((ps.map trim).filter fun p => !p.isEmpty).flatMap fun p => p.tokens.map Token.shape) =
      ps.flatMap fun p => p.tokens.map Token.shape := by
  induction ps with
  | nil => rfl
  | cons p ps ih =>
    rw [List.map_cons, List.filter_cons, List.flatMap_cons, ← ih, ← shapes_trim p]
    split
    · rw [List.flatMap_cons]
    · rename_i hempty
      rw [show trim p = [] by simpa using hempty, tokens_eq_tokensAt, tokensAt_nil]
      rfl

theorem entries_of_uncut {p : Text} (hp : Solid p) (h : Uncut 0 p.tokens) : p.entries = [p] := by
  rw [entries, piecesFrom_of_uncut h, List.drop_zero, List.map_singleton, hp.trim_eq,
    List.filter_cons_of_pos (by simpa using hp.nonempty), List.filter_nil]

theorem spec_of_mem_entries {s p : Text} (h : p ∈ s.entries) : Solid p ∧ Uncut 0 p.tokens := by
  obtain ⟨h, hne⟩ := List.mem_filter.1 h
  obtain ⟨q, hq, rfl⟩ := List.mem_map.1 h
  refine ⟨solid_trim (by simpa using hne), ?_⟩
  rw [pieces_eq, List.mem_map] at hq
  obtain ⟨segment, hsegment, rfl⟩ := hq
  obtain ⟨hwithin, huncut⟩ := of_mem_segments hsegment
  rw [← lexemes_within hwithin] at huncut
  exact huncut.of_shapes (shapes_trim _).symm

/-- The entries of a body hold its tokens but for the commas outside all brackets, whether or not the
brackets match. An entry has no blanks at its ends and is the only entry of itself. Texts without such
commas, in which all brackets close and nothing is open at the end, are the entries of their list. -/
theorem entries_divide (s : Text) :
    (s.entries.flatMap fun p => p.tokens.map Token.shape) = (unlisted [] s.tokens).map Token.shape ∧
      (∀ p ∈ s.entries, p ≠ [] ∧ trim p = p ∧ p.entries = [p]) ∧
        ∀ ps : List Text, (∀ p ∈ ps, Solid p ∧ isWhole p = true) → (listed ps).entries = ps := by
  refine ⟨?_, fun p hp => ?_, fun ps hps => ?_⟩
  · rw [entries, shapes_trimmed, shapes_pieces]
  · obtain ⟨hsolid, huncut⟩ := spec_of_mem_entries hp
    exact ⟨hsolid.nonempty, hsolid.trim_eq, entries_of_uncut hsolid huncut⟩
  · exact entries_listed (fun p hp => (hps p hp).1) fun p hp => (hps p hp).2

/-- A comma in round brackets cuts nothing, nor does one behind a bracket that closes too much. -/
def strayText : Text := "(u8, i8), c), d"

def pairText : Text := "(u8, i8)"

theorem entries_divide_stray :
    (pairText ∈ entries strayText ∧ trim pairText = pairText ∧ entries pairText = [pairText]) ∧
      entries (listed [pairText, "c"]) = [pairText, "c"] :=
  have hmem : pairText ∈ entries strayText := by decide +kernel
  have hentry := (entries_divide strayText).2.1 pairText hmem
  ⟨⟨hmem, hentry.2.1, hentry.2.2⟩, (entries_divide []).2.2 [pairText, "c"] (by decide +kernel)⟩

end Text

end DocScaffold
