import DocScaffold.Token.Lexeme

/-!
# Spans of tokens

Every token covers a non-empty part of its text.
-/

namespace DocScaffold

namespace Text

theorem text_ne_nil_of_mem_lexemes {s : Text} {l : Lexeme} (h : l ∈ lexemes s) : l.text ≠ [] := by
  fun_induction lexemes s with
  | case1 => simp at h
  | case2 s m rest hm _ ih =>
    rcases List.mem_cons.1 h with rfl | h
    · exact (Lexeme.first?_eq_some hm).1
    · exact ih h

end Text

namespace Lexeme

theorem span_of_mem_tokensFrom {offset : Nat} {ls : List Lexeme} {t : Token}
    (hne : ∀ l ∈ ls, l.text ≠ []) (h : t ∈ tokensFrom offset ls) :
    offset ≤ t.start ∧ t.start < t.stop ∧
      t.stop ≤ offset + (ls.flatMap Lexeme.text).length := by
  induction ls generalizing offset with
  | nil => simp [tokensFrom] at h
  | cons l rest ih =>
    have hpos := List.length_pos_iff.2 (hne l (by simp))
    have hrest : ∀ m ∈ rest, m.text ≠ [] := fun m hm => hne m (by simp [hm])
    rw [List.flatMap_cons, List.length_append]
    unfold tokensFrom at h
    dsimp only at h
    split at h
    · rcases List.mem_cons.1 h with rfl | h
      · dsimp only
        omega
      · have := ih hrest h
        omega
    · have := ih hrest h
      omega

end Lexeme

namespace Text

theorem span_of_mem_tokens {s : Text} {t : Token} (h : t ∈ tokens s) :
    t.start < t.stop ∧ t.stop ≤ s.length := by
  have := Lexeme.span_of_mem_tokensFrom (fun _ hl => text_ne_nil_of_mem_lexemes hl) h
  rw [flatMap_text_lexemes] at this
  omega

theorem start_le_of_mem_tokens {s : Text} {t : Token} (h : t ∈ tokens s) : t.start ≤ s.length :=
  Nat.le_trans (Nat.le_of_lt (span_of_mem_tokens h).1) (span_of_mem_tokens h).2

end Text

end DocScaffold
