import DocScaffold.Proofs.Collecting
import DocScaffold.Proofs.Tiling

/-!
# Texts in front of their line comment

What is cut off a text begins where its first line comment does, whatever quotes and block comments
stand in front of it. The tokens before that place stay, with their spans, and nothing more is cut off a
second time (`beforeLineComment_exact`).
-/

namespace DocScaffold.Text

open Lexeme

/-! ## Where a line comment begins -/

/-- Where the first line comment of a text begins. -/
def commentStart? (s : Text) : Option Nat :=
  ((placedFrom 0 (lexemes s)).find? fun p => p.2.kind == .lineComment).map (·.1)

theorem find?_placedFrom_of_none {ls : List Lexeme} (h : ∀ l ∈ ls, l.kind ≠ .lineComment)
    (offset : Nat) :
    (placedFrom offset ls).find? (fun p => p.2.kind == .lineComment) = none := by
  induction ls generalizing offset with
  | nil => rfl
  | cons l ls ih =>
    have hl : (l.kind == .lineComment) = false := by simpa using h l List.mem_cons_self
    rw [placedFrom, List.find?_cons, hl]
    exact ih (fun m hm => h m (List.mem_cons_of_mem l hm)) _

theorem commentStart?_of_none {s : Text} (h : ∀ l ∈ lexemes s, l.kind ≠ .lineComment) :
    commentStart? s = none := by
  rw [commentStart?, find?_placedFrom_of_none h, Option.map_none]

theorem commentStart?_of_split {s : Text} {front back : List Lexeme} {l : Lexeme}
    (h : lexemes s = front ++ l :: back) (hfront : ∀ m ∈ front, m.kind ≠ .lineComment)
    (hl : l.kind = .lineComment) :
    commentStart? s = some (front.flatMap Lexeme.text).length := by
  rw [commentStart?, h, placedFrom_append, List.find?_append, find?_placedFrom_of_none hfront,
    Option.none_or, placedFrom, List.find?_cons, hl, Nat.zero_add]
  rfl

/-- A text has no line comment, or it falls into the lexemes in front of the first one, the comment and
the lexemes behind it. -/
theorem exists_comment_split (s : Text) : (∀ l ∈ lexemes s, l.kind ≠ .lineComment) ∨
    ∃ front l back, lexemes s = front ++ l :: back ∧ (∀ m ∈ front, m.kind ≠ .lineComment) ∧
      l.kind = .lineComment := by
  cases hrest : (lexemes s).dropWhile (·.kind != .lineComment) with
  | nil => exact .inl (by simpa [List.dropWhile_eq_nil_iff] using hrest)
  | cons l back =>
    refine .inr ⟨(lexemes s).takeWhile (·.kind != .lineComment), l, back, ?_, fun m hm => ?_, ?_⟩
    · rw [← hrest, List.takeWhile_append_dropWhile]
    · simpa using List.all_eq_true.1 List.all_takeWhile m hm
    · have hhead := List.head?_dropWhile_not (·.kind != .lineComment) (lexemes s)
      rw [hrest] at hhead
      simpa using hhead

/-! ## What is left -/

section Split

variable {s : Text} {front back : List Lexeme} {l : Lexeme} (h : lexemes s = front ++ l :: back)

include h

theorem beforeLineComment_of_split (hfront : ∀ m ∈ front, m.kind ≠ .lineComment)
    (hl : l.kind = .lineComment) : s.beforeLineComment = front.flatMap Lexeme.text := by
  have hkeep : ∀ m ∈ front, (m.kind != .lineComment) = true := by simpa using hfront
  rw [beforeLineComment, h, List.takeWhile_append_of_pos hkeep,
    List.takeWhile_cons_of_neg (by simp [hl]), List.append_nil]

/-- The tokens in front of a lexeme are those that start before it. -/
theorem tokens_front_of_split : tokens (front.flatMap Lexeme.text) =
    s.tokens.filter fun t => t.start < (front.flatMap Lexeme.text).length := by
  have hne : ∀ m ∈ l :: back, m.text ≠ [] := fun m hm =>
    text_ne_nil_of_mem_lexemes (h ▸ List.mem_append_right front hm)
  have hbefore : ∀ t ∈ tokens (front.flatMap Lexeme.text),
      decide (t.start < (front.flatMap Lexeme.text).length) = true := by
    intro t ht
    obtain ⟨hlt, hle⟩ := span_of_mem_tokens ht
    exact decide_eq_true (by omega)
  have hbehind : ∀ t ∈ tokensFrom (front.flatMap Lexeme.text).length (l :: back),
      ¬ decide (t.start < (front.flatMap Lexeme.text).length) = true := by
    intro t ht
    have hle := (span_of_mem_tokensFrom hne ht).1
    simpa using hle
  have hsplit : s.tokens = tokens (front.flatMap Lexeme.text) ++
      tokensFrom (front.flatMap Lexeme.text).length (l :: back) := by
    rw [tokens, tokens, (lexemes_parts h).1, h, tokensFrom_append, Nat.zero_add]
  rw [hsplit, List.filter_append, List.filter_eq_self.2 hbefore, List.filter_eq_nil_iff.2 hbehind,
    List.append_nil]

/-- On a single line nothing stands behind a line comment. -/
theorem eq_nil_of_split (hl : l.kind = .lineComment) (hline : '\n' ∉ s) : back = [] := by
  obtain ⟨t, rest, hfirst⟩ := exists_first?_of_mem (s := s) (l := l) (by simp [h])
  obtain ⟨words, hwords, -⟩ := exists_of_lineComment hfirst hl
  have htext := flatMap_text_lexemes s
  rw [h, List.flatMap_append, List.flatMap_cons] at htext
  have hcomment := (lexemes_parts h).2
  rw [List.flatMap_cons, hwords, List.cons_append, List.cons_append,
    lexemes_line_comment fun hmem => hline ?_] at hcomment
  · exact (List.cons.inj hcomment).2.symm
  · rw [← htext, hwords]
    exact List.mem_append_right _ (List.mem_cons_of_mem _ (List.mem_cons_of_mem _ hmem))

end Split

/-- What stands in front of the first line comment is a front of the text with exactly the tokens that
start before the comment. It has no line comment itself, and on a single line no token is lost. -/
theorem beforeLineComment_exact (s : Text) :
    s.beforeLineComment = s.take ((commentStart? s).getD s.length) ∧ s.beforeLineComment <+: s ∧
      s.beforeLineComment.tokens =
        s.tokens.filter (fun t => (commentStart? s).all fun n => t.start < n) ∧
      s.beforeLineComment.beforeLineComment = s.beforeLineComment ∧
      ('\n' ∉ s → s.beforeLineComment.tokens = s.tokens) := by
  have htwice : s.beforeLineComment.beforeLineComment = s.beforeLineComment :=
    beforeLineComment_of_none fun l hl => kind_of_mem_beforeLineComment hl
  rcases exists_comment_split s with hnone | ⟨front, l, back, hls, hfront, hl⟩
  · rw [commentStart?_of_none hnone, beforeLineComment_of_none hnone]
    refine ⟨by simp, List.prefix_refl s, ?_, beforeLineComment_of_none hnone, fun _ => rfl⟩
    exact (List.filter_eq_self.2 fun t _ => rfl).symm
  · have htext := flatMap_text_lexemes s
    rw [hls, List.flatMap_append] at htext
    rw [beforeLineComment_of_split hls hfront hl] at htwice ⊢
    rw [commentStart?_of_split hls hfront hl]
    refine ⟨?_, ⟨_, htext⟩, tokens_front_of_split hls, htwice, fun hline => ?_⟩
    · conv_rhs => rw [← htext]
      rw [Option.getD_some, List.take_left]
    · rw [tokens, tokens, (lexemes_parts hls).1, hls, eq_nil_of_split hls hl hline, tokensFrom_append,
        tokensFrom, hl]
      simp [tokensFrom]

/-- Slashes in a string and in a block comment, a quote that nothing ends, and a comment. -/
def slashedText : Text := "x: \"a//b\" /* // */ ' // \"c\""

theorem beforeLineComment_exact_slashed : '\n' ∉ slashedText ∧ commentStart? slashedText = some 21 ∧
    slashedText.beforeLineComment.tokens = slashedText.tokens :=
  have hline : '\n' ∉ slashedText := by decide
  ⟨hline, by decide +kernel, (beforeLineComment_exact slashedText).2.2.2.2 hline⟩

end DocScaffold.Text
