import DocScaffold.Text.Digit
import DocScaffold.Text.Word
import DocScaffold.Token.Basic

/-!
# Cutting a text into lexemes

At each place the first rule that applies cuts off one lexeme, and the last rule applies to every
character, so the lexemes of a text put together are the text (`flatMap_text_lexemes`). Block
comments do not nest; one that is never closed is two signs.
-/

namespace DocScaffold

/-- A beginning of a text and what is left of it. -/
abbrev Text.Cut := Option (Text × Text)

namespace Text

/-- Puts `head` in front of what a cut took. -/
def Cut.after (head : Text) (cut : Cut) : Cut := cut.map fun (a, b) => (head ++ a, b)

/-- A character in `first`, then as many in `more` as there are. -/
def cutRun (first more : Char → Bool) : Text → Cut
  | [] => none
  | c :: rest => if first c then some (c :: rest.takeWhile more, rest.dropWhile more) else none

/-- Everything up to the end of the first `mark`. -/
def cutThrough (mark : Text) : Text → Cut
  | [] => if mark.isEmpty then some ([], []) else none
  | c :: rest =>
    if mark.isPrefixOf (c :: rest) then some (mark, (c :: rest).drop mark.length)
    else (cutThrough mark rest).after [c]

def cutLineComment : Text → Cut
  | '/' :: '/' :: rest =>
    some ('/' :: '/' :: rest.takeWhile (· != '\n'), rest.dropWhile (· != '\n'))
  | _ => none

def cutBlockComment : Text → Cut
  | '/' :: '*' :: rest => (cutThrough ['*', '/'] rest).after ['/', '*']
  | _ => none

/-- A literal with or without the mark of a byte literal. -/
def cutByte (cut : Text → Cut) : Text → Cut
  | 'b' :: rest => (cut rest).after ['b']
  | s => cut s

/-- A raw string ends at a quote with as many hashes as it begins with. -/
def cutRawString : Text → Cut
  | 'r' :: rest =>
    let hashes := rest.takeWhile (· == '#')
    match rest.dropWhile (· == '#') with
    | '"' :: body => (cutThrough ('"' :: hashes) body).after ('r' :: hashes ++ ['"'])
    | _ => none
  | _ => none

/-- The rest of a string behind its opening quote; a backslash hides the character behind it. -/
def cutQuoted : Text → Cut
  | [] => none
  | '"' :: rest => some (['"'], rest)
  | '\\' :: [] => none
  | '\\' :: c :: rest => (cutQuoted rest).after ['\\', c]
  | c :: rest => (cutQuoted rest).after [c]

def cutString : Text → Cut
  | '"' :: rest => (cutQuoted rest).after ['"']
  | _ => none

def cutChar : Text → Cut
  | '\x27' :: '\\' :: c :: '\x27' :: rest => some (['\x27', '\\', c, '\x27'], rest)
  | '\x27' :: c :: '\x27' :: rest =>
    if c == '\\' || c == '\x27' then none else some (['\x27', c, '\x27'], rest)
  | _ => none

def cutName : Text → Cut := cutRun isNameStart isWord

def cutLifetime : Text → Cut
  | '\x27' :: rest => (cutName rest).after ['\x27']
  | _ => none

/-- The `r#` of a raw identifier belongs to it. -/
def cutIdent : Text → Cut
  | 'r' :: '#' :: rest => ((cutName rest).after ['r', '#']).or (cutName ('r' :: '#' :: rest))
  | s => cutName s

def cutPunct : Text → Cut
  | [] => none
  | '-' :: '>' :: rest => some (['-', '>'], rest)
  | '=' :: '>' :: rest => some (['=', '>'], rest)
  | ':' :: ':' :: rest => some ([':', ':'], rest)
  | '.' :: '.' :: '=' :: rest => some (['.', '.', '='], rest)
  | '.' :: '.' :: rest => some (['.', '.'], rest)
  | c :: rest => if isBlank c || isWord c then none else some ([c], rest)

end Text

/-- What a lexeme is. `stray` is a word character that can begin no token. -/
inductive Lexeme.Kind
  | blank
  | lineComment
  | blockComment
  | token (kind : Token.Kind)
  | stray
  deriving DecidableEq

structure Lexeme where
  kind : Lexeme.Kind
  text : Text
  deriving DecidableEq

namespace Lexeme

open Text

/-- The rules in the order in which they are tried. -/
def rules : List (Kind × (Text → Cut)) := [
  (.blank, cutRun isBlank isBlank),
  (.lineComment, cutLineComment),
  (.blockComment, cutBlockComment),
  (.token .string, cutByte cutRawString),
  (.token .string, cutByte cutString),
  (.token .char, cutByte cutChar),
  (.token .lifetime, cutLifetime),
  (.token .ident, cutIdent),
  (.token .number, cutRun isDigit isWord),
  (.token .punct, cutPunct),
  (.stray, cutRun (fun _ => true) (fun _ => false))]

/-- The first lexeme and the text behind it. -/
def first? (s : Text) : Option (Lexeme × Text) :=
  rules.findSome? fun (kind, cut) => (cut s).map fun (a, b) => (⟨kind, a⟩, b)

end Lexeme

namespace Text

/-- A cut takes something, and loses nothing. -/
def IsCut (cut : Text → Cut) : Prop := ∀ s a b, cut s = some (a, b) → a ≠ [] ∧ a ++ b = s

theorem Cut.after_eq_some {head : Text} {cut : Cut} {a b : Text} (h : cut.after head = some (a, b)) :
    ∃ a', cut = some (a', b) ∧ a = head ++ a' := by
  cases cut with
  | none => simp [Cut.after] at h
  | some p =>
    simp only [Cut.after, Option.map_some, Option.some.injEq, Prod.mk.injEq] at h
    exact ⟨p.1, by simp [← h.2], h.1.symm⟩

/-! Each rule takes its own sign and goes on with the text behind it. -/

theorem cutLineComment_eq_some {s a b : Text} (h : cutLineComment s = some (a, b)) :
    ∃ rest, s = '/' :: '/' :: rest ∧ a = '/' :: '/' :: rest.takeWhile (· != '\n') ∧
      b = rest.dropWhile (· != '\n') := by
  unfold cutLineComment at h
  split at h
  · simp only [Option.some.injEq, Prod.mk.injEq] at h
    exact ⟨_, rfl, h.1.symm, h.2.symm⟩
  · simp at h

theorem cutBlockComment_eq_some {s a b : Text} (h : cutBlockComment s = some (a, b)) :
    ∃ rest body, s = '/' :: '*' :: rest ∧ cutThrough ['*', '/'] rest = some (body, b) ∧
      a = '/' :: '*' :: body := by
  unfold cutBlockComment at h
  split at h
  · obtain ⟨body, hbody, rfl⟩ := Cut.after_eq_some h
    exact ⟨_, body, rfl, hbody, rfl⟩
  · simp at h

/-- A literal has the mark of a byte literal in front, or is one without it. -/
theorem cutByte_eq_some {cut : Text → Cut} {s a b : Text} (h : cutByte cut s = some (a, b)) :
    (∃ rest body, s = 'b' :: rest ∧ cut rest = some (body, b) ∧ a = 'b' :: body) ∨
      (∀ rest, s ≠ 'b' :: rest) ∧ cut s = some (a, b) := by
  unfold cutByte at h
  split at h
  · obtain ⟨body, hbody, rfl⟩ := Cut.after_eq_some h
    exact .inl ⟨_, body, rfl, hbody, rfl⟩
  · rename_i hb
    exact .inr ⟨fun rest hs => hb rest hs, h⟩

theorem cutRawString_eq_some {s a b : Text} (h : cutRawString s = some (a, b)) :
    ∃ hashes rest body, (∀ c ∈ hashes, c = '#') ∧ s = 'r' :: (hashes ++ '"' :: rest) ∧
      cutThrough ('"' :: hashes) rest = some (body, b) ∧ a = 'r' :: (hashes ++ '"' :: body) := by
  unfold cutRawString at h
  split at h
  · rename_i more
    dsimp only at h
    split at h
    · rename_i rest hrest
      obtain ⟨body, hbody, rfl⟩ := Cut.after_eq_some h
      refine ⟨more.takeWhile (· == '#'), rest, body, fun c hc => ?_, ?_, hbody, by simp⟩
      · exact beq_iff_eq.1 (List.all_eq_true.1 (List.all_takeWhile (p := (· == '#'))) c hc)
      · rw [← hrest, List.takeWhile_append_dropWhile]
    · simp at h
  · simp at h

theorem cutString_eq_some {s a b : Text} (h : cutString s = some (a, b)) :
    ∃ rest body, s = '"' :: rest ∧ cutQuoted rest = some (body, b) ∧ a = '"' :: body := by
  unfold cutString at h
  split at h
  · obtain ⟨body, hbody, rfl⟩ := Cut.after_eq_some h
    exact ⟨_, body, rfl, hbody, rfl⟩
  · simp at h

/-- Between its quotes a character literal has one character, behind a backslash or plain. -/
theorem cutChar_eq_some {s a b : Text} (h : cutChar s = some (a, b)) :
    s = a ++ b ∧ ((∃ c, a = ['\x27', '\\', c, '\x27']) ∨
      ∃ c, c ≠ '\\' ∧ c ≠ '\x27' ∧ a = ['\x27', c, '\x27']) := by
  unfold cutChar at h
  split at h
  · simp only [Option.some.injEq, Prod.mk.injEq] at h
    obtain ⟨rfl, rfl⟩ := h
    exact ⟨rfl, .inl ⟨_, rfl⟩⟩
  · split at h
    · simp at h
    · rename_i hc
      simp only [Option.some.injEq, Prod.mk.injEq] at h
      obtain ⟨rfl, rfl⟩ := h
      simp only [Bool.or_eq_true, beq_iff_eq, not_or] at hc
      exact ⟨rfl, .inr ⟨_, hc.1, hc.2, rfl⟩⟩
  · simp at h

theorem cutLifetime_eq_some {s a b : Text} (h : cutLifetime s = some (a, b)) :
    ∃ rest name, s = '\x27' :: rest ∧ cutName rest = some (name, b) ∧ a = '\x27' :: name := by
  unfold cutLifetime at h
  split at h
  · obtain ⟨name, hname, rfl⟩ := Cut.after_eq_some h
    exact ⟨_, name, rfl, hname, rfl⟩
  · simp at h

/-- An identifier is a name, with or without the mark of a raw one. -/
theorem cutIdent_eq_some {s a b : Text} (h : cutIdent s = some (a, b)) :
    (∃ rest name, s = 'r' :: '#' :: rest ∧ cutName rest = some (name, b) ∧
      a = 'r' :: '#' :: name) ∨ cutName s = some (a, b) := by
  unfold cutIdent at h
  split at h
  · rcases Option.or_eq_some_iff.1 h with h | ⟨-, h⟩
    · obtain ⟨name, hname, rfl⟩ := Cut.after_eq_some h
      exact .inl ⟨_, name, rfl, hname, rfl⟩
    · exact .inr h
  · exact .inr h

/-- A sign is a compound one or a single character. -/
theorem cutPunct_eq_some {s a b : Text} (h : cutPunct s = some (a, b)) :
    s = a ++ b ∧ (a ∈ ([['-', '>'], ['=', '>'], [':', ':'], ['.', '.', '='], ['.', '.']] : List Text) ∨
      ∃ c, isBlank c = false ∧ isWord c = false ∧ a = [c]) := by
  unfold cutPunct at h
  split at h
  case h_7 =>
    split at h
    · simp at h
    · rename_i hc
      simp only [Option.some.injEq, Prod.mk.injEq] at h
      obtain ⟨rfl, rfl⟩ := h
      rw [Bool.or_eq_true, not_or, Bool.not_eq_true, Bool.not_eq_true] at hc
      exact ⟨rfl, .inr ⟨_, hc.1, hc.2, rfl⟩⟩
  all_goals simp only [Option.some.injEq, Prod.mk.injEq, reduceCtorEq] at h
  all_goals obtain ⟨rfl, rfl⟩ := h
  all_goals simp

theorem isCut_cutRun (first more : Char → Bool) : IsCut (cutRun first more) := by
  intro s a b h
  unfold cutRun at h
  split at h
  · simp at h
  · split at h
    · simp only [Option.some.injEq, Prod.mk.injEq] at h
      obtain ⟨rfl, rfl⟩ := h
      simp [List.takeWhile_append_dropWhile]
    · simp at h

theorem append_of_cutThrough {mark : Text} {s a b : Text} (h : cutThrough mark s = some (a, b)) :
    a ++ b = s := by
  induction s generalizing a with
  | nil =>
    unfold cutThrough at h
    split at h <;> simp_all
  | cons c rest ih =>
    unfold cutThrough at h
    split at h
    · rename_i hp
      simp only [Option.some.injEq, Prod.mk.injEq] at h
      obtain ⟨rfl, rfl⟩ := h
      obtain ⟨t, ht⟩ := List.isPrefixOf_iff_prefix.1 hp
      rw [← ht]
      simp
    · obtain ⟨a', h', rfl⟩ := Cut.after_eq_some h
      simp [ih h']

theorem append_of_cutQuoted {s a b : Text} (h : cutQuoted s = some (a, b)) : a ++ b = s := by
  fun_induction cutQuoted s generalizing a with
  | case1 => simp at h
  | case2 rest =>
    simp only [Option.some.injEq, Prod.mk.injEq] at h
    obtain ⟨rfl, rfl⟩ := h
    simp
  | case3 => simp at h
  | case4 c rest ih =>
    obtain ⟨a', h', rfl⟩ := Cut.after_eq_some h
    simp [ih h']
  | case5 c rest _ _ _ ih =>
    obtain ⟨a', h', rfl⟩ := Cut.after_eq_some h
    simp [ih h']

theorem isCut_cutLineComment : IsCut cutLineComment := by
  intro s a b h
  obtain ⟨rest, rfl, rfl, rfl⟩ := cutLineComment_eq_some h
  simp [List.takeWhile_append_dropWhile]

theorem isCut_cutBlockComment : IsCut cutBlockComment := by
  intro s a b h
  obtain ⟨rest, body, rfl, hbody, rfl⟩ := cutBlockComment_eq_some h
  simp [append_of_cutThrough hbody]

theorem isCut_cutByte {cut : Text → Cut} (hcut : IsCut cut) : IsCut (cutByte cut) := by
  intro s a b h
  rcases cutByte_eq_some h with ⟨rest, body, rfl, hbody, rfl⟩ | ⟨-, h⟩
  · simp [(hcut _ _ _ hbody).2]
  · exact hcut _ _ _ h

theorem isCut_cutRawString : IsCut cutRawString := by
  intro s a b h
  obtain ⟨hashes, rest, body, -, rfl, hbody, rfl⟩ := cutRawString_eq_some h
  simp [append_of_cutThrough hbody]

theorem isCut_cutString : IsCut cutString := by
  intro s a b h
  obtain ⟨rest, body, rfl, hbody, rfl⟩ := cutString_eq_some h
  simp [append_of_cutQuoted hbody]

theorem isCut_cutChar : IsCut cutChar := by
  intro s a b h
  obtain ⟨rfl, ⟨c, rfl⟩ | ⟨c, -, -, rfl⟩⟩ := cutChar_eq_some h <;> simp

theorem isCut_cutLifetime : IsCut cutLifetime := by
  intro s a b h
  obtain ⟨rest, name, rfl, hname, rfl⟩ := cutLifetime_eq_some h
  simp [(isCut_cutRun _ _ _ _ _ hname).2]

theorem isCut_cutIdent : IsCut cutIdent := by
  intro s a b h
  rcases cutIdent_eq_some h with ⟨rest, name, rfl, hname, rfl⟩ | hname
  · simp [(isCut_cutRun _ _ _ _ _ hname).2]
  · exact isCut_cutRun _ _ _ _ _ hname

theorem isCut_cutPunct : IsCut cutPunct := by
  intro s a b h
  obtain ⟨rfl, hsign | ⟨c, -, -, rfl⟩⟩ := cutPunct_eq_some h
  · exact ⟨fun ha => absurd (ha ▸ hsign) (by decide), rfl⟩
  · simp

end Text

namespace Lexeme

open Text

theorem isCut_of_mem_rules {rule : Kind × (Text → Cut)} (h : rule ∈ rules) : IsCut rule.2 := by
  simp only [rules, List.mem_cons, List.not_mem_nil, or_false] at h
  rcases h with rfl | rfl | rfl | rfl | rfl | rfl | rfl | rfl | rfl | rfl | rfl
  · exact isCut_cutRun _ _
  · exact isCut_cutLineComment
  · exact isCut_cutBlockComment
  · exact isCut_cutByte isCut_cutRawString
  · exact isCut_cutByte isCut_cutString
  · exact isCut_cutByte isCut_cutChar
  · exact isCut_cutLifetime
  · exact isCut_cutIdent
  · exact isCut_cutRun _ _
  · exact isCut_cutPunct
  · exact isCut_cutRun _ _

theorem first?_eq_some {s rest : Text} {l : Lexeme} (h : first? s = some (l, rest)) :
    l.text ≠ [] ∧ l.text ++ rest = s := by
  obtain ⟨rule, hmem, hcut⟩ := List.exists_of_findSome?_eq_some h
  obtain ⟨p, hp, hl⟩ := Option.map_eq_some_iff.1 hcut
  obtain ⟨a, b⟩ := p
  simp only [Prod.mk.injEq] at hl
  obtain ⟨rfl, rfl⟩ := hl
  exact isCut_of_mem_rules hmem _ _ _ hp

theorem first?_eq_none {s : Text} (h : first? s = none) : s = [] := by
  cases s with
  | nil => rfl
  | cons c rest =>
    have := List.findSome?_eq_none_iff.1 h
      (.stray, cutRun (fun _ => true) (fun _ => false)) (by simp [rules])
    simp [cutRun] at this

theorem length_lt_of_first? {s rest : Text} {l : Lexeme} (h : first? s = some (l, rest)) :
    rest.length < s.length := by
  obtain ⟨hne, happ⟩ := first?_eq_some h
  rw [← happ, List.length_append]
  have := List.length_pos_iff.2 hne
  omega

end Lexeme

namespace Text

/-- The lexemes of a text, from its start to its end. -/
def lexemes (s : Text) : List Lexeme :=
  match h : Lexeme.first? s with
  | none => []
  | some (l, rest) =>
    have := Lexeme.length_lt_of_first? h
    l :: lexemes rest
termination_by s.length

theorem flatMap_text_lexemes (s : Text) : (lexemes s).flatMap Lexeme.text = s := by
  fun_induction lexemes s with
  | case1 s h => simp [Lexeme.first?_eq_none h]
  | case2 s l rest h _ ih => simp [ih, (Lexeme.first?_eq_some h).2]

/-- The text before its first line comment; a comment sign inside a literal starts none. -/
def beforeLineComment (s : Text) : Text :=
  ((lexemes s).takeWhile (·.kind != .lineComment)).flatMap Lexeme.text

end Text

namespace Lexeme

/-- The tokens among the lexemes of a text that begins at `offset`. -/
def tokensFrom (offset : Nat) : List Lexeme → List Token
  | [] => []
  | l :: rest =>
    let next := offset + l.text.length
    match l.kind with
    | .token kind => ⟨kind, l.text, offset, next⟩ :: tokensFrom next rest
    | _ => tokensFrom next rest

end Lexeme

/-- The tokens of a text in order; blanks, comments and stray characters are left out. -/
def Text.tokens (s : Text) : List Token := Lexeme.tokensFrom 0 (lexemes s)

end DocScaffold
