import DocScaffold.Proofs.Rows
import DocScaffold.Proofs.Starts

/-!
# Attributes in front of a declaration

Attributes may be written on lines of their own, several on a line or one over many, and in front of
the declaration on its line. The declaration is found as if they were not there, provided that its line
does not begin inside an attribute: what stands behind the end of such an attribute is passed over
(`search_attributes`).
-/

namespace DocScaffold

open Text

namespace Lexeme

/-- How many square brackets are open behind lexemes that go on with attributes, with `depth` open in
front of them; nothing when they are no attributes. Between attributes stand blanks only. -/
def attributesDepth? : Nat → List Lexeme → Option Nat
  | depth, [] => some depth
  | 0, l :: rest =>
    if l.kind == .blank then attributesDepth? 0 rest
    else match rest with
      | [] => none
      | m :: rest => if l.isSign '#' && m.isSign '[' then attributesDepth? 1 rest else none
  | depth + 1, l :: rest =>
    if l.isSign '[' then attributesDepth? (depth + 2) rest
    else if l.isSign ']' then attributesDepth? depth rest
    else attributesDepth? (depth + 1) rest

theorem eq_of_isSign {c : Char} {l : Lexeme} (h : l.isSign c = true) :
    l = ⟨.token .punct, [c]⟩ := by
  obtain ⟨kind, text⟩ := l
  rw [isSign, Bool.and_eq_true, beq_iff_eq, beq_iff_eq] at h
  obtain ⟨rfl, rfl⟩ := h
  rfl

theorem tokensFrom_sign (c : Char) (offset : Nat) (ls : List Lexeme) :
    tokensFrom offset (⟨.token .punct, [c]⟩ :: ls) =
      ⟨.punct, [c], offset, offset + 1⟩ :: tokensFrom (offset + 1) ls := rfl

/-- A lexeme is a token or none. -/
theorem tokensFrom_cons (offset : Nat) (l : Lexeme) (ls : List Lexeme) :
    tokensFrom offset (l :: ls) = tokensFrom (offset + l.text.length) ls ∨
      ∃ t : Token, (∀ c, t.isPunct [c] = l.isSign c) ∧ t.stop = offset + l.text.length ∧
        tokensFrom offset (l :: ls) = t :: tokensFrom (offset + l.text.length) ls := by
  obtain ⟨kind, text⟩ := l
  cases kind with
  | token kind =>
    refine .inr ⟨⟨kind, text, offset, offset + text.length⟩, fun c => ?_, rfl, rfl⟩
    cases kind <;> rfl
  | blank | lineComment | blockComment | stray => exact .inl rfl

/-- Attributes leave as many square brackets open as their tokens do. -/
theorem netDepth_of_attributesDepth? {depth depth' : Nat} {ls : List Lexeme}
    (h : attributesDepth? depth ls = some depth') (offset : Nat) :
    depth + Token.netDepth '[' ']' (tokensFrom offset ls) = depth' := by
  fun_induction attributesDepth? depth ls generalizing offset with
  | case1 depth =>
    obtain rfl := Option.some.inj h
    simp [tokensFrom, Token.netDepth]
  | case2 l rest hblank ih =>
    obtain ⟨kind, text⟩ := l
    obtain rfl : kind = .blank := by simpa using hblank
    exact ih h _
  | case3 => simp at h
  | case4 l hl m rest hsigns ih =>
    rw [Bool.and_eq_true] at hsigns
    rw [eq_of_isSign hsigns.1, eq_of_isSign hsigns.2, tokensFrom_sign, tokensFrom_sign]
    have := ih h (offset + 1 + 1)
    simp [Token.netDepth, Token.isPunct]
    omega
  | case5 => simp at h
  | case6 depth l rest hopen ih =>
    rw [eq_of_isSign hopen, tokensFrom_sign]
    have := ih h (offset + 1)
    simp [Token.netDepth, Token.isPunct]
    omega
  | case7 depth l rest hopen hclose ih =>
    rw [eq_of_isSign hclose, tokensFrom_sign]
    have := ih h (offset + 1)
    simp [Token.netDepth, Token.isPunct]
    omega
  | case8 depth l rest hopen hclose ih =>
    have hrest := ih h (offset + l.text.length)
    rcases tokensFrom_cons offset l rest with htokens | ⟨t, ht, -, htokens⟩
    · rw [htokens, hrest]
    · rw [htokens, Token.netDepth, ht, ht, if_neg hopen, if_neg hclose, Int.zero_add, hrest]

end Lexeme

namespace Declaration

open Lexeme

/-- Whether the attributes in a text are closed up to `stop`, with `depth` brackets open at the end of
the text: when none is, only blanks stand behind. -/
def ClosedAt (depth : Nat) (s : Text) (stop : Nat) : Prop :=
  stop ≤ s.length ∧ (depth = 0 → ∀ c ∈ s.drop stop, isBlank c = true)

/-- Behind attributes it is known how many brackets are open, and where the last one was closed. `s` is
the text in front of the attributes. -/
theorem attributesEnd_of_depth {depth depth' : Nat} {ls : List Lexeme}
    (h : attributesDepth? depth ls = some depth') (s : Text) (stop : Nat)
    (hstop : ClosedAt depth s stop) (hproper : ∀ l ∈ ls, l.Proper) (ts : List Token) :
    ∃ stop', attributesEnd depth stop (tokensFrom s.length ls ++ ts) =
        attributesEnd depth' stop' ts ∧ ClosedAt depth' (s ++ ls.flatMap Lexeme.text) stop' := by
  have hopen : ∀ {depth stop : Nat} {s : Text} (t : Text), stop ≤ s.length →
      ClosedAt (depth + 1) (s ++ t) stop :=
    fun t hle => ⟨by rw [List.length_append]; omega, by simp⟩
  fun_induction attributesDepth? depth ls generalizing s stop with
  | case1 depth =>
    obtain rfl := Option.some.inj h
    exact ⟨stop, rfl, by simpa using hstop⟩
  | case2 l rest hblank ih =>
    obtain ⟨kind, text⟩ := l
    obtain rfl : kind = .blank := by simpa using hblank
    have htext : ∀ c ∈ text, isBlank c = true := hproper _ (List.mem_cons_self)
    have hih := ih h (s ++ text) stop ⟨?_, fun _ c hc => ?_⟩ fun m hm => hproper m (by simp [hm])
    · simpa [tokensFrom] using hih
    · rw [List.length_append]
      exact Nat.le_add_right_of_le hstop.1
    · rw [List.drop_append] at hc
      rcases List.mem_append.1 hc with hc | hc
      · exact hstop.2 rfl c hc
      · exact htext c (List.mem_of_mem_drop hc)
  | case3 => simp at h
  | case4 l hl m rest hsigns ih =>
    rw [Bool.and_eq_true] at hsigns
    obtain rfl := eq_of_isSign hsigns.1
    obtain rfl := eq_of_isSign hsigns.2
    have hih := ih h (s ++ ['#', '[']) stop (hopen _ hstop.1) fun n hn => hproper n (by simp [hn])
    simpa [tokensFrom, attributesEnd, Token.isPunct] using hih
  | case5 => simp at h
  | case6 depth l rest hsign ih =>
    obtain rfl := eq_of_isSign hsign
    have hih := ih h (s ++ ['[']) stop (hopen _ hstop.1) fun n hn => hproper n (by simp [hn])
    simpa [tokensFrom, attributesEnd, Token.isPunct, Int.add_assoc] using hih
  | case7 depth l rest hsign hclose ih =>
    obtain rfl := eq_of_isSign hclose
    -- The end of the attribute is the end of what has been read.
    have hend : ClosedAt depth (s ++ [']']) (if depth = 0 then s.length + 1 else stop) := by
      split
      · exact ⟨by simp, fun _ => by simp⟩
      · rename_i hdepth
        exact ⟨by simpa using Nat.le_succ_of_le hstop.1, fun h0 => absurd h0 hdepth⟩
    have hih := ih h (s ++ [']']) _ hend fun n hn => hproper n (by simp [hn])
    simpa [tokensFrom, attributesEnd, Token.isPunct] using hih
  | case8 depth l rest hsign hclose ih =>
    have hih := ih h (s ++ l.text) stop (hopen _ hstop.1) fun n hn => hproper n (by simp [hn])
    rw [List.append_assoc, ← List.flatMap_cons, List.length_append] at hih
    rcases tokensFrom_cons s.length l rest with htokens | ⟨t, ht, -, htokens⟩
    · rwa [htokens]
    · have hdepth : (((depth + 1 : Nat) : Int) == 0) = false := beq_false_of_ne (by omega)
      rw [htokens, List.cons_append, attributesEnd, ht, ht, if_neg hsign, if_neg hclose, hdepth]
      exact hih

/-- Attributes that a text begins with. -/
theorem attributesEnd_text {depth : Nat} {p t : Text} (hgap : IsGap p t)
    (h : attributesDepth? 0 (lexemes p) = some depth) :
    ∃ stop, attributesEnd 0 0 (p ++ t).tokens = attributesEnd depth stop (tokensAt p.length t) ∧
      ClosedAt depth p stop := by
  have hend := attributesEnd_of_depth h [] 0 ⟨Nat.le_refl _, by simp⟩
    (fun l hl => proper_of_mem hl) (tokensAt p.length t)
  rw [List.nil_append, flatMap_text_lexemes] at hend
  rw [tokens, show lexemes (p ++ t) = lexemes p ++ lexemes t from hgap, tokensFrom_append,
    flatMap_text_lexemes, Nat.zero_add]
  exact hend

/-! ## Lines of attributes -/

/-- Attributes begin with their signs. -/
theorem beginsAttribute_of_depth {depth : Nat} {p : Text}
    (h : attributesDepth? 0 (lexemes p) = some depth) (hp : Solid p) (t : Text) :
    beginsAttribute (p ++ t) = true := by
  have htext := flatMap_text_lexemes p
  cases hls : lexemes p with
  | nil =>
    rw [hls] at htext
    exact absurd htext.symm hp.nonempty
  | cons l rest =>
    have hl : l ∈ lexemes p := by simp [hls]
    rw [hls, List.flatMap_cons] at htext
    have hkind : (l.kind == .blank) = false := by
      rw [beq_eq_false_iff_ne]
      intro hkind
      obtain ⟨c, u, hu⟩ := List.exists_cons_of_ne_nil (text_ne_nil_of_mem_lexemes hl)
      have hproper := proper_of_mem hl
      obtain ⟨kind, text⟩ := l
      obtain rfl : kind = .blank := hkind
      obtain rfl : text = c :: u := hu
      have hblank := hproper c (by simp)
      rw [hp.head c (by rw [← htext]; rfl)] at hblank
      exact absurd hblank (by decide)
    rw [hls] at h
    cases rest with
    | nil => simp [attributesDepth?, hkind] at h
    | cons m rest =>
      simp only [attributesDepth?, hkind, Bool.false_eq_true, if_false] at h
      split at h
      · rename_i hsigns
        rw [Bool.and_eq_true] at hsigns
        rw [eq_of_isSign hsigns.1, List.flatMap_cons, eq_of_isSign hsigns.2] at htext
        rw [← htext]
        rfl
      · simp at h

/-- A trimmed line that goes on with attributes leaves as many brackets open as it has. -/
theorem step_attributes {depth depth' : Nat} {p : Text} (hp : p = [] ∨ Solid p)
    (h : attributesDepth? depth (lexemes p) = some depth') : step depth p = .next depth' := by
  cases depth with
  | succ depth =>
    have hdepth := netDepth_of_attributesDepth? h 0
    rw [step, if_pos (by omega), tokens, hdepth, Int.max_eq_left (by omega)]
  | zero =>
    rw [step, if_neg (by simp)]
    rcases hp with rfl | hsolid
    · rw [lexemes_nil] at h
      obtain rfl := Option.some.inj h
      rfl
    · obtain ⟨stop, hend, -, hstop⟩ := attributesEnd_text (isGap_nil p) h
      have hbegins := beginsAttribute_of_depth h hsolid []
      rw [List.append_nil, tokensAt_nil, attributesEnd] at hend
      rw [List.append_nil] at hbegins
      have htail : attributeTail p = ((depth' : Int), []) := by
        unfold attributeTail
        rw [hend]
        dsimp only
        cases depth' with
        | succ depth' => rw [if_pos (by omega)]
        | zero => rw [if_neg (by simp), trim_blanks (hstop rfl)]; rfl
      rw [if_neg (by simpa using hsolid.nonempty), if_pos hbegins, htail]
      rfl

/-- How many square brackets are open behind lines of attributes, each of them trimmed. -/
def attributesOver? (depth : Nat) : List Text → Option Nat
  | [] => some depth
  | line :: rest =>
    (attributesDepth? depth (lexemes (trim line))).bind fun depth => attributesOver? depth rest

theorem depthBehind?_attributes {depth depth' : Nat} {front : List Text}
    (h : attributesOver? depth front = some depth') :
    depthBehind? depth (front.map trim) = some (depth' : Int) := by
  induction front generalizing depth with
  | nil =>
    obtain rfl := Option.some.inj h
    rfl
  | cons line front ih =>
    obtain ⟨mid, hline, hfront⟩ := Option.bind_eq_some_iff.1 h
    have hp : trim line = [] ∨ Solid (trim line) := by
      by_cases hnil : trim line = []
      · exact .inl hnil
      · exact .inr (solid_trim hnil)
    rw [List.map_cons, depthBehind?_cons (step_attributes hp hline), ih hfront]

/-- Lines of attributes are passed over. -/
theorem searchFrom_attributes {depth depth' : Nat} {front : List Text}
    (h : attributesOver? depth front = some depth') (index : Nat) (rest : List Text) :
    searchFrom depth index (front.map trim ++ rest) =
      searchFrom depth' (index + front.length) rest := by
  rw [searchFrom_append (depthBehind?_attributes h), List.length_map]

/-! ## The line behind attributes -/

/-- A text behind another, with the blanks between them. -/
theorem exists_trim_append (a b : Text) (hb : trim b ≠ []) :
    ∃ w, trim (a ++ b) = trim a ++ (w ++ trim b) ∧ (∀ c ∈ w, isBlank c = true) ∧
      (trim a = [] → w = []) := by
  obtain ⟨w, v, ha, hw, hv⟩ := exists_trim a
  obtain ⟨w', v', hb', hw', hv'⟩ := exists_trim b
  have hmiddle : ∀ c ∈ v ++ w', isBlank c = true :=
    fun c hc => (List.mem_append.1 hc).elim (hv c) (hw' c)
  have hwhole : a ++ b = w ++ (trim a ++ ((v ++ w') ++ trim b) ++ v') := by
    conv_lhs => rw [ha, hb']
    simp
  by_cases hnil : trim a = []
  · refine ⟨[], ?_, by simp, fun _ => rfl⟩
    have hfront : ∀ c ∈ w ++ (v ++ w'), isBlank c = true :=
      fun c hc => (List.mem_append.1 hc).elim (hw c) (hmiddle c)
    rw [hwhole, hnil, List.nil_append, List.append_assoc, ← List.append_assoc w,
      trim_between hfront (solid_trim hb) hv', List.nil_append, List.nil_append]
  · refine ⟨v ++ w', ?_, hmiddle, fun h => absurd h hnil⟩
    have hsolid : Solid (trim a ++ ((v ++ w') ++ trim b)) := by
      refine ⟨by simp [hnil], ?_, ?_⟩
      · rw [List.head?_append_of_ne_nil _ hnil]
        exact (solid_trim hnil).head
      · rw [← List.append_assoc, List.getLast?_append_of_ne_nil _ hb]
        exact (solid_trim hb).last
    rw [hwhole, trim_between hw hsolid hv']

variable {depth : Nat} {back line : Text} {k : Keyword}

/-- Attributes in front of a declaration on its line, without the blanks in front of them. -/
theorem isGap_line {w : Text} (hloose : ∀ l ∈ lexemes (trim back), l.isLoose = false)
    (hgap : IsGap (trim back) (trim line)) (hw : ∀ c ∈ w, isBlank c = true) :
    IsGap (trim back) (w ++ trim line) := by
  by_cases hnil : w = []
  · rwa [hnil]
  · have hlast : ∀ c ∈ (trim back).getLast?, isBlank c = false := by
      by_cases hback : trim back = []
      · simp [hback]
      · exact (solid_trim hback).last
    exact lexemes_replaced hgap hloose (replaces_blanks (w := []) hlast hw hnil)

/-- What starts a declaration has a word for its first token. -/
theorem head_of_keyword? (h : keyword? line = some k) {w : Text} (hw : ∀ c ∈ w, isBlank c = true)
    (hhead : ∀ c ∈ line.head?, isBlank c = false) (offset : Nat) :
    ∀ t ∈ (tokensAt offset (w ++ line)).head?, t.kind = .ident := by
  obtain ⟨lead, v, after, hls, -, -, hall⟩ := keyword?_eq_some_iff.1 h
  obtain ⟨more, hlexemes⟩ : ∃ more,
      lexemes line = lead ++ (⟨.token .ident, k.text⟩ :: (v :: after ++ more)) := by
    refine ⟨(lexemes line).dropWhile (·.kind != .lineComment), ?_⟩
    rw [← List.cons_append, ← List.append_assoc, ← hls, lexemes_beforeLineComment,
      List.takeWhile_append_dropWhile]
  have hshapes : (tokensAt offset (w ++ line)).map Token.shape =
      (tokensFrom 0 lead).map Token.shape ++
        (.ident, k.text) :: (v :: after ++ more).filterMap shape? := by
    rw [map_shape_tokensAt_blanks hw hhead, map_shape_tokens, hlexemes, List.filterMap_append,
      map_shape_tokensFrom]
    rfl
  intro t ht
  have hshape : t.shape ∈ ((tokensAt offset (w ++ line)).map Token.shape).head? := by
    rw [List.head?_map]
    exact Option.mem_map_of_mem _ ht
  rw [hshapes] at hshape
  cases htokens : tokensFrom 0 lead with
  | nil =>
    rw [htokens] at hshape
    exact congrArg Prod.fst (Option.some.inj hshape).symm
  | cons u us =>
    rw [htokens] at hshape
    have hkind := congrArg Prod.fst (Option.some.inj hshape)
    rw [← hall.head u (by rw [htokens]; rfl)]
    exact hkind.symm

/-- Attributes end at the latest at a word. -/
theorem attributesEnd_ident (stop : Nat) {ts : List Token} (h : ∀ t ∈ ts.head?, t.kind = .ident) :
    attributesEnd 0 stop ts = (0, stop) := by
  cases ts with
  | nil => rfl
  | cons t ts =>
    have hpunct : ∀ sign, t.isPunct sign = false := by
      intro sign
      rw [Token.isPunct, h t rfl]
      rfl
    simp [attributesEnd, hpunct]

/-- A line that starts a declaration behind attributes starts it without them. -/
theorem step_line (hback : attributesDepth? 0 (lexemes (trim back)) = some 0)
    (hloose : ∀ l ∈ lexemes (trim back), l.isLoose = false)
    (hgap : IsGap (trim back) (trim line)) (hline : keyword? (trim line) = some k) :
    step 0 (trim (back ++ line)) = .start k (trim line) := by
  obtain ⟨-, hne, hplain⟩ := stepPlain_of_keyword? hline
  obtain ⟨w, htrim, hw, hnone⟩ := exists_trim_append back line hne
  by_cases hnil : trim back = []
  · rw [htrim, hnil, hnone hnil, List.nil_append, List.nil_append]
    exact step_of_keyword? hline
  · obtain ⟨stop, hend, hle, hstop⟩ := attributesEnd_text (isGap_line hloose hgap hw) hback
    have hbegins := beginsAttribute_of_depth hback (solid_trim hnil) (w ++ trim line)
    have htail : attributeTail (trim back ++ (w ++ trim line)) = (0, trim line) := by
      unfold attributeTail
      rw [hend, Int.natCast_zero, attributesEnd_ident stop (head_of_keyword? hline hw
        (solid_trim hne).head _)]
      dsimp only
      rw [if_neg (by decide), List.drop_append_of_le_length hle, ← List.append_assoc]
      have hblank : ∀ c ∈ (trim back).drop stop ++ w, isBlank c = true :=
        fun c hc => (List.mem_append.1 hc).elim (hstop rfl c) (hw c)
      have hbetween := trim_between hblank (solid_trim hne) (v := []) (by simp)
      rw [List.append_nil] at hbetween
      rw [hbetween]
    rw [htrim, step, if_neg (by decide), if_neg (by simp [hnil]), if_pos hbegins, htail]
    dsimp only
    rw [if_neg (by simp [hne, hline]), hplain]

/-- Behind the end of an attribute that begins on an earlier line nothing is found. -/
theorem step_inside (hdepth : depth ≠ 0)
    (hback : attributesDepth? depth (lexemes (trim back)) = some 0)
    (hloose : ∀ l ∈ lexemes (trim back), l.isLoose = false)
    (hgap : IsGap (trim back) (trim line)) (hne : trim line ≠ []) :
    step depth (trim (back ++ line)) =
      .next (max (Token.netDepth '[' ']' (trim line).tokens) 0) := by
  obtain ⟨w, htrim, hw, -⟩ := exists_trim_append back line hne
  have hline := congrArg (Token.netDepth '[' ']') (Token.outlines_of_shape_eq
    (map_shape_tokensAt_blanks hw (solid_trim hne).head (trim back).length))
  rw [Token.netDepth_outline, Token.netDepth_outline] at hline
  have hclosed := netDepth_of_attributesDepth? hback 0
  rw [htrim, step, if_pos (by omega), tokens,
    show lexemes _ = _ from isGap_line hloose hgap hw, tokensFrom_append, flatMap_text_lexemes,
    Nat.zero_add, Token.netDepth_append, ← Int.add_assoc, hclosed, ← tokensAt, hline,
    Int.natCast_zero, Int.zero_add]

/-- Attributes laid out over the lines `front` and in front of `line` leave what is found as it is when
none of them goes over into the line of the declaration. When one does, the line is passed over. -/
theorem search_attributes {before after : List Text} {cursor : Nat} {front : List Text}
    (hcursor : before.length = cursor + 1) (hfront : attributesOver? 0 front = some depth)
    (hback : attributesDepth? depth (lexemes (trim back)) = some 0)
    (hloose : ∀ l ∈ lexemes (trim back), l.isLoose = false) (hgap : IsGap (trim back) (trim line))
    (hline : keyword? (trim line) = some k) :
    (depth = 0 → ∃ d e, search (before ++ (front ++ (back ++ line) :: after)) cursor = .found d ∧
      search (before ++ line :: after) cursor = .found e ∧ d.signature = e.signature ∧
        d.keyword = e.keyword) ∧
    (depth ≠ 0 → search (before ++ (front ++ (back ++ line) :: after)) cursor =
      searchFrom (max (Token.netDepth '[' ']' (trim line).tokens) 0) (cursor + front.length + 2)
        (after.map trim)) := by
  have hsearch : search (before ++ (front ++ (back ++ line) :: after)) cursor =
      searchFrom depth (cursor + 1 + front.length) (trim (back ++ line) :: after.map trim) := by
    rw [search, ← hcursor, List.drop_left, List.map_append, hcursor]
    exact searchFrom_attributes hfront (cursor + 1) _
  refine ⟨?_, fun hdepth => ?_⟩
  · rintro rfl
    have hwithout : search (before ++ line :: after) cursor =
        .found (gather k (cursor + 1) (trim line :: after.map trim)) := by
      rw [search, ← hcursor, List.drop_left, List.map_cons, hcursor, searchFrom,
        step_of_keyword? hline]
    have hwith : search (before ++ (front ++ (back ++ line) :: after)) cursor =
        .found (gather k (cursor + 1 + front.length) (trim line :: after.map trim)) := by
      rw [hsearch, searchFrom, Int.natCast_zero, step_line hback hloose hgap hline]
    exact ⟨_, _, hwith, hwithout, signature_gather k _ _ _, rfl⟩
  · obtain ⟨-, hne, -⟩ := stepPlain_of_keyword? hline
    rw [hsearch, searchFrom, step_inside hdepth hback hloose hgap hne]
    dsimp only
    congr 1
    omega

/-- Attributes over three lines, two of them on one line, and one in front of a struct. -/
def deriveLines : List Text := ["#[derive(", "  Debug,", ")] #[cfg(test)]", ""]

/-- Attributes with the second one in front of a struct, broken inside its brackets. -/
def openLines : List Text := ["#[inline]", "#[derive("]

def boxText : Text := "struct Box { items: [u8; 2] }"

/-- The attributes change nothing when they end in front of the line of the struct or on it, and hide
the struct when the last of them begins on another line. -/
theorem search_attributes_box :
    (∃ d e, search ([[]] ++ (deriveLines ++ ("#[doc = \"a box\"]" ++ boxText) :: [])) 0 = .found d ∧
      search ([[]] ++ boxText :: []) 0 = .found e ∧ d.signature = e.signature ∧
        d.keyword = e.keyword) ∧
    search ([[]] ++ (openLines ++ ("Debug)]" ++ boxText) :: [])) 0 = .exhausted := by
  have hline : keyword? (trim boxText) = some .struct := by decide +kernel
  constructor
  · have hfront : attributesOver? 0 deriveLines = some 0 := by decide +kernel
    exact (search_attributes rfl hfront (by decide +kernel) (by decide +kernel) (by decide +kernel)
      hline).1 rfl
  · have hfront : attributesOver? 0 openLines = some 1 := by decide +kernel
    have hback : attributesDepth? 1 (lexemes (trim "Debug)]")) = some 0 := by decide +kernel
    have hcursor : [([] : Text)].length = 0 + 1 := rfl
    rw [(search_attributes hcursor hfront hback (by decide +kernel) (by decide +kernel) hline).2
      (by decide)]
    decide +kernel

end Declaration

end DocScaffold
