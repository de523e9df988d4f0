import DocScaffold.Declaration.Search
import DocScaffold.Proofs.Joining

/-!
# The lines of a declaration

A search collects the lines of a declaration one by one, and counts brackets in each of them by itself.
The signature is made of all of them at once. Both see the same tokens as long as no literal runs over
the end of a line (`shapes_signature`).
-/

namespace DocScaffold

namespace Text

/-! ## Lines without their comments -/

theorem lexemes_beforeLineComment (s : Text) :
    lexemes s.beforeLineComment = (lexemes s).takeWhile (·.kind != .lineComment) := by
  have hsplit : (lexemes s).takeWhile (·.kind != .lineComment) ++
      (lexemes s).dropWhile (·.kind != .lineComment) = lexemes s := List.takeWhile_append_dropWhile
  have htext := flatMap_text_lexemes s
  rw [beforeLineComment]
  generalize (lexemes s).takeWhile (·.kind != .lineComment) = before at hsplit ⊢
  generalize (lexemes s).dropWhile (·.kind != .lineComment) = after at hsplit
  rw [← hsplit, List.flatMap_append] at htext
  have hlexemes : lexemes (before.flatMap Lexeme.text ++ after.flatMap Lexeme.text) =
      before ++ after := by
    rw [htext, hsplit]
  exact (lexemes_of_append hlexemes rfl).1

theorem beforeLineComment_nil : beforeLineComment [] = [] := by
  rw [beforeLineComment, lexemes_nil]
  rfl

theorem kind_of_mem_beforeLineComment {s : Text} {l : Lexeme} (h : l ∈ lexemes s.beforeLineComment) :
    l.kind ≠ .lineComment := by
  rw [lexemes_beforeLineComment] at h
  simpa using List.all_eq_true.1 List.all_takeWhile l h

/-- Blanks in front of a text are a lexeme of their own. -/
theorem exists_lexemes_trimStart (s : Text) : ∃ front, lexemes s = front ++ lexemes (trimStart s) := by
  cases hs : s.head?.any isBlank with
  | false =>
    have hstart : trimStart s = s := by
      cases s with
      | nil => rfl
      | cons c s => rw [trimStart, List.dropWhile_cons_of_neg (by simpa using hs)]
    exact ⟨[], by rw [hstart, List.nil_append]⟩
  | true =>
    obtain ⟨w, b, rfl, hne, hw, hb⟩ := exists_blanks hs
    rw [trimStart, dropWhile_append_of_head hw hb]
    exact ⟨[⟨.blank, w⟩], lexemes_of_first? (first?_blank hne hw hb)⟩

/-- What ends with a blank is a lexeme of blanks or a line comment. -/
theorem kind_of_blank_last {l : Lexeme} (h : l.Proper) {c : Char} (hc : c ∈ l.text.getLast?)
    (hblank : isBlank c = true) : l.kind = .blank ∨ l.kind = .lineComment := by
  have hsolid : ¬ Solid l.text := by
    intro hsolid
    rw [hsolid.last c hc] at hblank
    exact absurd hblank (by decide)
  have hplain : ¬ ∀ d ∈ l.text, isBlank d = false := by
    intro hplain
    rw [hplain c (List.mem_of_getLast? hc)] at hblank
    exact absurd hblank (by decide)
  obtain ⟨kind, text⟩ := l
  cases kind with
  | blank => exact .inl rfl
  | lineComment => exact .inr rfl
  | blockComment => exact absurd h hsolid
  | stray => exact absurd h hplain
  | token k =>
    cases k with
    | string | char => exact absurd h hsolid
    | ident | lifetime | number | punct => exact absurd h hplain

/-- Blanks at the end of a text are a lexeme of their own behind the others, or a line comment takes the
first of them. -/
theorem lexemes_append_blanks_or {t w : Text} (ht : ∀ c ∈ t.getLast?, isBlank c = false)
    (hw : ∀ c ∈ w, isBlank c = true) : lexemes (t ++ w) = lexemes t ++ lexemes w ∨
      ∃ before u c v after, lexemes (t ++ w) = before ++ ⟨.lineComment, u ++ c :: v⟩ :: after ∧
        before.flatMap Lexeme.text ++ u = t ∧ c :: (v ++ after.flatMap Lexeme.text) = w := by
  cases w with
  | nil => exact .inl (by rw [List.append_nil, lexemes_nil, List.append_nil])
  | cons c w =>
    obtain ⟨before, m, after, u, v, hls, hm, hu, hv⟩ :=
      exists_lexeme_at (flatMap_text_lexemes (t ++ c :: w))
    have hproper := Lexeme.proper_of_mem (s := t ++ c :: w) (l := m) (by simp [hls])
    have hlast : ∃ d ∈ m.text.getLast?, isBlank d = true := by
      have hne : c :: v ≠ [] := by simp
      refine ⟨(c :: v).getLast hne, ?_, hw _ ?_⟩
      · rw [hm, List.getLast?_append, List.getLast?_eq_some_getLast hne]
        rfl
      · rw [← hv, ← List.cons_append]
        exact List.mem_append_left _ (List.getLast_mem hne)
    obtain ⟨d, hd, hblank⟩ := hlast
    obtain ⟨kind, text⟩ := m
    rcases kind_of_blank_last hproper hd hblank with rfl | rfl
    · -- Blanks do not begin in the text in front, which ends with another character.
      refine .inl ?_
      have hnil : u = [] := by
        by_contra hne
        have hlast := List.getLast?_eq_some_getLast hne
        have hend : isBlank (u.getLast hne) = true := hproper _ (by rw [hm]; simp)
        rw [ht (u.getLast hne)] at hend
        · exact absurd hend (by decide)
        · rw [← hu, List.getLast?_append, hlast]
          rfl
      rw [hnil, List.append_nil] at hu
      obtain ⟨hbefore, hafter⟩ := lexemes_of_append hls hu
      rw [hls, hbefore, hafter]
    · obtain rfl : text = u ++ c :: v := hm
      exact .inr ⟨before, u, c, v, after, hls, hu, by rw [hv]⟩

theorem lexemes_append_blanks {t w : Text} (ht : ∀ c ∈ t.getLast?, isBlank c = false)
    (hw : ∀ c ∈ w, isBlank c = true) (hcomment : ∀ l ∈ lexemes (t ++ w), l.kind ≠ .lineComment) :
    lexemes (t ++ w) = lexemes t ++ lexemes w := by
  rcases lexemes_append_blanks_or ht hw with h | ⟨before, u, c, v, after, hls, -⟩
  · exact h
  · exact absurd rfl (hcomment ⟨.lineComment, u ++ c :: v⟩ (by simp [hls]))

theorem trimEnd_append_blanks (s : Text) :
    ∃ w, s = trimEnd s ++ w ∧ (∀ c ∈ w, isBlank c = true) := by
  refine ⟨(s.reverse.takeWhile isBlank).reverse, ?_, ?_⟩
  · have happ : s.reverse.takeWhile isBlank ++ s.reverse.dropWhile isBlank = s.reverse :=
      List.takeWhile_append_dropWhile
    have hrev := congrArg List.reverse happ
    rw [List.reverse_append, List.reverse_reverse] at hrev
    exact hrev.symm
  · intro c hc
    exact of_mem_takeWhile isBlank (List.mem_reverse.1 hc)

theorem getLast?_trimEnd {s : Text} {c : Char} (h : c ∈ (trimEnd s).getLast?) :
    isBlank c = false := by
  rw [trimEnd, List.getLast?_reverse] at h
  exact head?_dropWhile isBlank h

/-- Without comments, the blanks at the end of a text are a lexeme of their own. -/
theorem exists_lexemes_trimEnd {s : Text} (h : ∀ l ∈ lexemes s, l.kind ≠ .lineComment) :
    ∃ w, s = trimEnd s ++ w ∧ (∀ c ∈ w, isBlank c = true) ∧
      lexemes s = lexemes (trimEnd s) ++ lexemes w := by
  obtain ⟨w, hw, hblank⟩ := trimEnd_append_blanks s
  refine ⟨w, hw, hblank, ?_⟩
  rw [hw] at h
  rw [← lexemes_append_blanks (fun c hc => getLast?_trimEnd hc) hblank h, ← hw]

end Text

namespace Declaration

open Text

theorem kind_of_mem_cleaned {line : Text} {l : Lexeme} (h : l ∈ lexemes (cleaned line)) :
    l.kind ≠ .lineComment := by
  have hstart : ∀ m ∈ lexemes (trimStart line.beforeLineComment), m.kind ≠ .lineComment := by
    intro m hm
    obtain ⟨front, hfront⟩ := exists_lexemes_trimStart line.beforeLineComment
    exact kind_of_mem_beforeLineComment (hfront ▸ List.mem_append_right front hm)
  obtain ⟨w, -, -, happ⟩ := exists_lexemes_trimEnd hstart
  exact hstart l (by rw [happ]; exact List.mem_append_left _ h)

theorem solid_cleaned {line : Text} (h : cleaned line ≠ []) : Solid (cleaned line) := solid_trim h

theorem cleaned_nil : cleaned [] = [] := by
  rw [cleaned, beforeLineComment_nil]
  rfl

/-! ## Collecting -/

/-- The cleaned lines that are not empty. -/
def cleanedLines (lines : List Text) : List Text :=
  (lines.map cleaned).filter fun text => !text.isEmpty

/-- How far the brackets of the lines, each by itself, leave the depth. -/
def depthOver (up down : Char) (lines : List Text) : Int :=
  (lines.map fun line => Token.netDepth up down line.tokens).sum

theorem cleanedLines_cons (line : Text) (lines : List Text) :
    cleanedLines (line :: lines) =
      if (cleaned line).isEmpty then cleanedLines lines else cleaned line :: cleanedLines lines := by
  rw [cleanedLines, List.map_cons, List.filter_cons]
  cases (cleaned line).isEmpty <;> rfl

/-- A declaration without a body is ended by its last line alone. -/
theorem ends_of_not_hasBody {keyword : Keyword} (h : keyword.hasBody = false) (braces parens : Int)
    (text : Text) : ends keyword braces parens text = ends keyword 0 0 text := by
  rw [ends, ends, h]
  rfl

/-- A line that holds only blanks and a comment is passed over. -/
theorem collect_cons_of_empty {line : Text} (h : cleaned line = []) (keyword : Keyword)
    (braces parens : Int) (last index : Nat) (rest : List Text) :
    collect keyword braces parens last index (line :: rest) =
      collect keyword braces parens index (index + 1) rest := by
  rw [collect, h]
  rfl

/-- A line is the last one that is collected, or the collection goes on behind it; where it stands does
not matter. -/
theorem collect_cases (keyword : Keyword) (braces parens : Int) (line : Text) :
    (∀ last index rest, collect keyword braces parens last index (line :: rest) =
      ([cleaned line], index)) ∨
    ∃ braces' parens' texts, ∀ last index rest,
      collect keyword braces parens last index (line :: rest) =
        (texts ++ (collect keyword braces' parens' index (index + 1) rest).1,
          (collect keyword braces' parens' index (index + 1) rest).2) := by
  by_cases hempty : cleaned line = []
  · exact .inr ⟨braces, parens, [], fun last index rest => collect_cons_of_empty hempty ..⟩
  · have hempty : ¬ (cleaned line).isEmpty = true := by simpa using hempty
    let braces' := braces + Token.netDepth '{' '}' (cleaned line).tokens
    let parens' := parens + Token.netDepth '(' ')' (cleaned line).tokens
    by_cases hends : ends keyword braces' parens' (cleaned line) = true
    · refine .inl fun last index rest => ?_
      rw [collect]
      dsimp only
      rw [if_neg hempty, if_pos hends]
    · refine .inr ⟨braces', parens', [cleaned line], fun last index rest => ?_⟩
      rw [collect]
      dsimp only
      rw [if_neg hempty, if_neg hends]
      rfl

/-- Whether the last of the collected lines ends the declaration. -/
def isEnded (keyword : Keyword) (texts : List Text) : Bool :=
  texts.getLast?.any (ends keyword 0 0)

/-- What the collection of lines has done when it comes to its end: the depths are those in front of
the lines, and `e` is the last line taken. -/
structure Collected (keyword : Keyword) (braces parens : Int) (last : Nat) (lines texts : List Text)
    (e : Nat) : Prop where
  start : last ≤ e
  progress : lines ≠ [] → last < e
  stop : e ≤ last + lines.length
  texts_eq : texts = cleanedLines (lines.take (e - last))
  balanced : keyword.hasBody = true → e < last + lines.length →
    braces + depthOver '{' '}' texts = 0 ∧ parens + depthOver '(' ')' texts = 0
  ended : e < last + lines.length → isEnded keyword texts = true

theorem balanced_of_ends {keyword : Keyword} {braces parens : Int} {text : Text}
    (hbody : keyword.hasBody = true) (h : ends keyword braces parens text = true) :
    braces = 0 ∧ parens = 0 := by
  rw [ends, if_pos hbody] at h
  simp only [Bool.and_eq_true, beq_iff_eq] at h
  exact h.1

section

variable {keyword : Keyword} {braces parens : Int} {last e : Nat} {line : Text} {rest texts : List Text}

/-- The line in front was passed over. -/
theorem Collected.cons_empty (h : Collected keyword braces parens (last + 1) rest texts e)
    (hempty : (cleaned line).isEmpty = true) :
    Collected keyword braces parens last (line :: rest) texts e := by
  have hstart := h.start
  have hstop := h.stop
  have hlength : (line :: rest).length = rest.length + 1 := rfl
  refine ⟨by omega, fun _ => by omega, by omega, ?_, fun hbody hlt => h.balanced hbody (by omega),
    fun hlt => h.ended (by omega)⟩
  have htake : e - last = (e - (last + 1)) + 1 := by omega
  rw [htake, List.take_succ_cons, cleanedLines_cons, if_pos hempty]
  exact h.texts_eq

/-- The line in front was taken, and did not end the declaration. -/
theorem Collected.cons (hempty : ¬ (cleaned line).isEmpty = true)
    (h : Collected keyword (braces + Token.netDepth '{' '}' (cleaned line).tokens)
      (parens + Token.netDepth '(' ')' (cleaned line).tokens) (last + 1) rest texts e) :
    Collected keyword braces parens last (line :: rest) (cleaned line :: texts) e := by
  have hstart := h.start
  have hstop := h.stop
  have hlength : (line :: rest).length = rest.length + 1 := rfl
  refine ⟨by omega, fun _ => by omega, by omega, ?_, fun hbody hlt => ?_, fun hlt => ?_⟩
  · have htake : e - last = (e - (last + 1)) + 1 := by omega
    rw [htake, List.take_succ_cons, cleanedLines_cons, if_neg hempty, h.texts_eq]
  · have hbalanced := h.balanced hbody (by omega)
    rw [Int.add_assoc, Int.add_assoc] at hbalanced
    simpa [depthOver] using hbalanced
  · have hended := h.ended (by omega)
    rw [isEnded] at hended ⊢
    cases texts with
    | nil => simp at hended
    | cons text texts => exact hended

/-- The line ends the declaration. -/
theorem collected_of_ends (hempty : ¬ (cleaned line).isEmpty = true)
    (hends : ends keyword (braces + Token.netDepth '{' '}' (cleaned line).tokens)
      (parens + Token.netDepth '(' ')' (cleaned line).tokens) (cleaned line) = true) :
    Collected keyword braces parens last (line :: rest) [cleaned line] (last + 1) := by
  refine ⟨by simp, fun _ => by simp, by simp, ?_, fun hbody _ => ?_, fun _ => ?_⟩
  · rw [Nat.add_sub_cancel_left, List.take_succ_cons, cleanedLines_cons, if_neg hempty]
    rfl
  · simpa [depthOver] using balanced_of_ends hbody hends
  · cases hbody : keyword.hasBody with
    | false =>
      rw [ends_of_not_hasBody hbody] at hends
      simpa [isEnded] using hends
    | true =>
      obtain ⟨hbraces, hparens⟩ := balanced_of_ends hbody hends
      rw [hbraces, hparens] at hends
      simpa [isEnded] using hends

end

theorem collected (keyword : Keyword) (braces parens : Int) (last : Nat) (lines : List Text) :
    Collected keyword braces parens last lines (collect keyword braces parens last (last + 1) lines).1
      (collect keyword braces parens last (last + 1) lines).2 := by
  induction lines generalizing braces parens last with
  | nil =>
    exact ⟨Nat.le_refl _, fun h => absurd rfl h, Nat.le_refl _, by simp [collect, cleanedLines],
      fun _ h => absurd h (by simp [collect]), fun h => absurd h (by simp [collect])⟩
  | cons line rest ih =>
    rw [collect]
    dsimp only
    split
    · rename_i hempty
      exact (ih braces parens (last + 1)).cons_empty hempty
    · rename_i hempty
      split
      · rename_i hends
        exact collected_of_ends hempty hends
      · exact .cons hempty (ih _ _ (last + 1))

/-- Which lines are collected does not depend on the places that they are given. -/
theorem collect_texts (keyword : Keyword) (braces parens : Int) (last index last' index' : Nat)
    (lines : List Text) : (collect keyword braces parens last index lines).1 =
      (collect keyword braces parens last' index' lines).1 := by
  induction lines generalizing braces parens last index last' index' with
  | nil => rfl
  | cons line rest ih =>
    rcases collect_cases keyword braces parens line with h | ⟨braces', parens', texts, h⟩
    · rw [h, h]
    · rw [h, h, ih braces' parens' index (index + 1) index' (index' + 1)]

theorem signature_gather (keyword : Keyword) (index index' : Nat) (lines : List Text) :
    (gather keyword index lines).signature = (gather keyword index' lines).signature := by
  have hsignature : ∀ index, (gather keyword index lines).signature =
      (unwords (collect keyword 0 0 index index lines).1).collapse := fun _ => rfl
  rw [hsignature, hsignature, collect_texts keyword 0 0 index index index' index']

/-! ## Searching -/

/-- The line that starts a declaration, without the attributes in front of it. -/
def bare (line : Text) : Text := if beginsAttribute line then (attributeTail line).2 else line

theorem stepPlain_eq_start {line text : Text} {keyword : Keyword}
    (h : stepPlain line = .start keyword text) : text = line ∧ keyword? line = some keyword := by
  unfold stepPlain at h
  split at h
  · simp at h
  · split at h
    · rename_i hkeyword
      simp only [Step.start.injEq] at h
      obtain ⟨rfl, rfl⟩ := h
      exact ⟨rfl, hkeyword⟩
    · simp at h

theorem step_eq_start {depth : Int} {line text : Text} {keyword : Keyword}
    (h : step depth line = .start keyword text) :
    text = bare line ∧ keyword? (bare line) = some keyword := by
  unfold step at h
  split at h
  · simp at h
  · split at h
    · simp at h
    · split at h
      · rename_i hattribute
        rw [bare, if_pos hattribute]
        dsimp only at h
        split at h
        · simp at h
        · obtain ⟨rfl, hkeyword⟩ := stepPlain_eq_start h
          exact ⟨rfl, hkeyword⟩
      · rename_i hattribute
        rw [bare, if_neg hattribute]
        obtain ⟨rfl, hkeyword⟩ := stepPlain_eq_start h
        exact ⟨rfl, hkeyword⟩

/-- The depth of square brackets behind some trimmed lines, `depth` being the one in front of them;
nothing when one of them stops the search or starts a declaration. -/
def depthBehind? (depth : Int) : List Text → Option Int
  | [] => some depth
  | line :: rest =>
    match step depth line with
    | .next depth => depthBehind? depth rest
    | _ => none

theorem depthBehind?_cons {depth depth' : Int} {line : Text} (h : step depth line = .next depth')
    (rest : List Text) : depthBehind? depth (line :: rest) = depthBehind? depth' rest := by
  rw [depthBehind?, h]

theorem exists_of_depthBehind?_cons {depth depth' : Int} {line : Text} {rest : List Text}
    (h : depthBehind? depth (line :: rest) = some depth') :
    ∃ mid, step depth line = .next mid ∧ depthBehind? mid rest = some depth' := by
  rw [depthBehind?] at h
  cases hstep : step depth line with
  | next mid => exact ⟨mid, rfl, by rwa [hstep] at h⟩
  | stop => simp [hstep] at h
  | start keyword text => simp [hstep] at h

theorem depthBehind?_append {depth depth' : Int} {front : List Text}
    (h : depthBehind? depth front = some depth') (rest : List Text) :
    depthBehind? depth (front ++ rest) = depthBehind? depth' rest := by
  induction front generalizing depth with
  | nil =>
    obtain rfl := Option.some.inj h
    rfl
  | cons line front ih =>
    obtain ⟨mid, hstep, hfront⟩ := exists_of_depthBehind?_cons h
    rw [List.cons_append, depthBehind?_cons hstep, ih hfront]

/-- Lines that neither stop a search nor start a declaration are passed over. -/
theorem searchFrom_append {depth depth' : Int} {front : List Text}
    (h : depthBehind? depth front = some depth') (index : Nat) (rest : List Text) :
    searchFrom depth index (front ++ rest) = searchFrom depth' (index + front.length) rest := by
  induction front generalizing depth index with
  | nil =>
    obtain rfl := Option.some.inj h
    rfl
  | cons line front ih =>
    obtain ⟨mid, hstep, hfront⟩ := exists_of_depthBehind?_cons h
    rw [List.cons_append, searchFrom, hstep]
    dsimp only
    rw [ih hfront, List.length_cons, Nat.add_assoc, Nat.add_comm 1]

theorem step_nil (depth : Int) : step depth [] = .next (max depth 0) := by
  rw [step]
  split
  · have htokens : tokens [] = [] := by rw [tokens, lexemes_nil]; rfl
    rw [htokens, Token.netDepth, Int.add_zero]
  · rename_i hdepth
    rw [Int.max_eq_right (by omega)]
    rfl

/-- Empty lines leave the depth as it is. -/
theorem depthBehind?_empty {depth : Int} (hdepth : 0 ≤ depth) {lines : List Text}
    (h : ∀ line ∈ lines, line = []) : depthBehind? depth lines = some depth := by
  induction lines with
  | nil => rfl
  | cons line lines ih =>
    obtain rfl := h line (by simp)
    have hstep : step depth [] = .next depth := by rw [step_nil, Int.max_eq_left hdepth]
    rw [depthBehind?_cons hstep, ih fun line hline => h line (by simp [hline])]

/-- A declaration that is found is gathered from the first line that is not passed over. -/
theorem exists_start {depth : Int} {index : Nat} {lines : List Text} {d : Declaration}
    (h : searchFrom depth index lines = .found d) :
    ∃ front line rest depth', lines = front ++ line :: rest ∧ depthBehind? depth front = some depth' ∧
      step depth' line = .start d.keyword (bare line) ∧
      d = gather d.keyword (index + front.length) (bare line :: rest) := by
  induction lines generalizing depth index with
  | nil => simp [searchFrom] at h
  | cons line rest ih =>
    rw [searchFrom] at h
    split at h
    · rename_i mid hstep
      obtain ⟨front, start, tail, depth', rfl, hdepth, hstart, hd⟩ := ih h
      refine ⟨line :: front, start, tail, depth', rfl, by rw [depthBehind?_cons hstep, hdepth], hstart, ?_⟩
      rwa [List.length_cons, Nat.add_comm front.length, ← Nat.add_assoc]
    · simp at h
    · rename_i keyword text hstep
      obtain ⟨rfl, -⟩ := step_eq_start hstep
      obtain rfl := Sought.found.inj h
      exact ⟨[], line, rest, depth, rfl, rfl, hstep, rfl⟩

/-- A declaration that is found is gathered from the line that starts it, with more lines behind it
too. -/
theorem exists_gather {depth : Int} {index : Nat} {lines : List Text} {d : Declaration}
    (h : searchFrom depth index lines = .found d) :
    ∃ k line rest keyword, lines.drop k = line :: rest ∧ keyword? (bare line) = some keyword ∧
      d = gather keyword (index + k) (bare line :: rest) ∧
      ∀ later, searchFrom depth index (lines ++ later) =
        .found (gather keyword (index + k) (bare line :: (rest ++ later))) := by
  obtain ⟨front, line, rest, depth', rfl, hdepth, hstart, hd⟩ := exists_start h
  refine ⟨front.length, line, rest, d.keyword, List.drop_left, (step_eq_start hstart).2, hd, ?_⟩
  intro later
  rw [List.append_assoc, searchFrom_append hdepth, List.cons_append, searchFrom, hstart]

/-- The trimmed lines from the first line of a declaration to its last, the first of them without its
attributes. -/
def sourceLines (lines : List Text) (d : Declaration) : List Text :=
  match ((lines.drop d.startLine).take (d.endLine + 1 - d.startLine)).map trim with
  | [] => []
  | line :: rest => bare line :: rest

/-- The lines that a declaration is put together from: without comments, and none of them empty. -/
def material (lines : List Text) (d : Declaration) : List Text := cleanedLines (sourceLines lines d)

/-- What is gathered from the lines behind an index is the material of the declaration. -/
theorem spec_of_gather {lines : List Text} {index : Nat} {line : Text} {rest : List Text}
    (hdrop : (lines.drop (index + 1)).map trim = line :: rest) (keyword : Keyword) :
    let d := gather keyword (index + 1) (bare line :: rest)
    d.material lines = (collect keyword 0 0 (index + 1) (index + 1) (bare line :: rest)).1 ∧
      (d.sourceLines lines).head? = some (bare line) ∧
      Collected keyword 0 0 index (bare line :: rest) (d.material lines) d.endLine := by
  have hcollected := collected keyword 0 0 index (bare line :: rest)
  have hgather : gather keyword (index + 1) (bare line :: rest) =
      ⟨(unwords (collect keyword 0 0 index (index + 1) (bare line :: rest)).1).collapse, keyword,
        index + 1, (collect keyword 0 0 index (index + 1) (bare line :: rest)).2⟩ := rfl
  have hsame : collect keyword 0 0 (index + 1) (index + 1) (bare line :: rest) =
      collect keyword 0 0 index (index + 1) (bare line :: rest) := rfl
  dsimp only
  rw [hgather, hsame]
  generalize collect keyword 0 0 index (index + 1) (bare line :: rest) = p at hcollected
  have hprogress := hcollected.progress (by simp)
  have htake : p.2 - index = (p.2 - (index + 1)) + 1 := by omega
  have htake' : p.2 + 1 - (index + 1) = (p.2 - (index + 1)) + 1 := by omega
  have hsource : sourceLines lines ⟨(unwords p.1).collapse, keyword, index + 1, p.2⟩ =
      (bare line :: rest).take (p.2 - index) := by
    rw [sourceLines]
    dsimp only
    rw [List.map_take, htake', hdrop, htake]
    rfl
  have hmaterial : material lines ⟨(unwords p.1).collapse, keyword, index + 1, p.2⟩ = p.1 := by
    rw [material, hsource, hcollected.texts_eq]
  rw [hmaterial, hsource, htake]
  exact ⟨rfl, rfl, hcollected⟩

/-- What a search that finds a declaration has collected, from the line that starts it on. -/
theorem collected_of_search {lines : List Text} {cursor : Nat} {d : Declaration}
    (h : search lines cursor = .found d) :
    d.signature = (unwords (d.material lines)).collapse ∧ ∃ index line rest,
      d.startLine = index + 1 ∧ index + 1 + (line :: rest).length = lines.length ∧
      (d.sourceLines lines).head? = some line ∧ keyword? line = some d.keyword ∧
      Collected d.keyword 0 0 index (line :: rest) (d.material lines) d.endLine := by
  obtain ⟨k, line, rest, keyword, hdrop, hkeyword, hd, -⟩ := exists_gather h
  have hindex : cursor + 1 + k = cursor + k + 1 := by omega
  rw [← List.map_drop, List.drop_drop, hindex] at hdrop
  have hlength := congrArg List.length hdrop
  rw [List.length_map, List.length_drop, List.length_cons] at hlength
  obtain ⟨hmaterial, hhead, hcollected⟩ := spec_of_gather hdrop keyword
  rw [hindex] at hd
  rw [← hd] at hmaterial hhead hcollected
  have hsame : d.keyword = keyword := by rw [hd]; rfl
  rw [← hsame] at hkeyword hcollected
  refine ⟨?_, cursor + k, bare line, rest, by rw [hd]; rfl, ?_, hhead, hkeyword, hcollected⟩
  · rw [hmaterial, hd]
    rfl
  · rw [List.length_cons]
    omega

theorem spec_of_search {lines : List Text} {cursor : Nat} {d : Declaration}
    (h : search lines cursor = .found d) :
    d.signature = (unwords (d.material lines)).collapse ∧ d.startLine ≤ d.endLine ∧
      d.endLine < lines.length ∧
      (d.keyword.hasBody = true → d.endLine + 1 < lines.length →
        depthOver '{' '}' (d.material lines) = 0 ∧ depthOver '(' ')' (d.material lines) = 0) ∧
      ∃ line, (d.sourceLines lines).head? = some line ∧ keyword? line = some d.keyword := by
  obtain ⟨hsignature, index, line, rest, hstart, hlength, hhead, hkeyword, hcollected⟩ :=
    collected_of_search h
  have hprogress := hcollected.progress (by simp)
  have hstop := hcollected.stop
  refine ⟨hsignature, by omega, by omega, fun hbody hlt => ?_, line, hhead, hkeyword⟩
  simpa using hcollected.balanced hbody (by omega)

/-- A declaration that ends before the buffer does ends with its last line. -/
theorem isEnded_of_search {lines : List Text} {cursor : Nat} {d : Declaration}
    (h : search lines cursor = .found d) (hlt : d.endLine + 1 < lines.length) :
    isEnded d.keyword (d.material lines) = true := by
  obtain ⟨-, index, line, rest, -, hlength, -, -, hcollected⟩ := collected_of_search h
  exact hcollected.ended (by omega)

/-! ## The signature against its lines -/

theorem of_mem_material {lines : List Text} {d : Declaration} {text : Text}
    (h : text ∈ d.material lines) :
    Solid text ∧ ∀ l ∈ lexemes text, l.kind ≠ .lineComment := by
  rw [material, cleanedLines, List.mem_filter] at h
  obtain ⟨hmem, hne⟩ := h
  obtain ⟨line, -, rfl⟩ := List.mem_map.1 hmem
  exact ⟨solid_cleaned (by simpa using hne), fun l hl => kind_of_mem_cleaned hl⟩

theorem separate_material {lines : List Text} {d : Declaration}
    (hunbroken : isUnbroken (d.material lines) = true)
    (hquote : ∀ t ∈ (joined (d.material lines)).tokens, t.isPunct ['\x27'] = false) :
    Separate (d.material lines) :=
  separate_of_unbroken (fun _ hl => (of_mem_material hl).1) (fun _ hl => (of_mem_material hl).2)
    hunbroken hquote

/-- The signature has the tokens of the lines that were collected, with single spaces in its literals.
So it has the depths of brackets that were counted line by line, which are zero for a struct or an enum
that ends before the buffer does. -/
theorem shapes_signature {lines : List Text} {cursor : Nat} {d : Declaration}
    (hfound : search lines cursor = .found d) (hunbroken : isUnbroken (d.material lines) = true)
    (hquote : ∀ t ∈ (joined (d.material lines)).tokens, t.isPunct ['\x27'] = false) :
    d.signature.tokens.map Token.shape =
        ((d.material lines).flatMap tokens).map (fun t => Token.spaced t.shape) ∧
      (∀ up down, Token.netDepth up down d.signature.tokens =
        depthOver up down (d.material lines)) ∧
      (d.keyword.hasBody = true → d.endLine + 1 < lines.length →
        Token.netDepth '{' '}' d.signature.tokens = 0 ∧
          Token.netDepth '(' ')' d.signature.tokens = 0) := by
  obtain ⟨hsignature, -, -, hbalanced, -⟩ := spec_of_search hfound
  have hshapes : d.signature.tokens.map Token.shape =
      ((d.material lines).flatMap tokens).map fun t => Token.spaced t.shape := by
    rw [hsignature]
    exact (separate_material hunbroken hquote).shapes
  have hdepth : ∀ up down, Token.netDepth up down d.signature.tokens =
      depthOver up down (d.material lines) := by
    intro up down
    rw [Token.netDepth_of_shapes up down hshapes, Token.netDepth_flatMap]
    rfl
  refine ⟨hshapes, hdepth, fun hbody hlt => ?_⟩
  rw [hdepth, hdepth]
  exact hbalanced hbody hlt

/-- A struct over several lines with a comment and a literal with two spaces. -/
def pointLines : List Text := [
  "///", "pub struct Point \x7b  // on a grid", "    #[doc = \"x  y\"]", "    x: i32,", "\x7d",
  "fn next() \x7b"]

def pointSignature : Text := "pub struct Point \x7b #[doc = \"x y\"] x: i32, \x7d"

theorem shapes_signature_point :
    search pointLines 0 = .found ⟨pointSignature, .struct, 1, 4⟩ ∧
      ∀ up down, Token.netDepth up down (tokens pointSignature) =
        depthOver up down ["pub struct Point \x7b", "#[doc = \"x  y\"]", "x: i32,", "\x7d"] := by
  have hfound : search pointLines 0 = .found ⟨pointSignature, .struct, 1, 4⟩ := by
    decide +kernel
  have h := shapes_signature hfound (by decide +kernel) (by decide +kernel)
  refine ⟨hfound, fun up down => (h.2.1 up down).trans ?_⟩
  congr 1
  decide +kernel

end Declaration

end DocScaffold
