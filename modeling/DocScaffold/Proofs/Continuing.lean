import DocScaffold.Proofs.Leading

/-!
# Searches that go on over more lines

The lines behind those in which a declaration is found only ever add to the end of its signature
(`search_append`), and they do not matter at all when its last line ends it (`search_of_ended`).
-/

namespace DocScaffold

open Text

namespace Text

theorem unwords_append {ws vs : List Text} (hws : ws ≠ []) (hvs : vs ≠ []) :
    unwords (ws ++ vs) = unwords ws ++ ' ' :: unwords vs := by
  induction ws with
  | nil => exact absurd rfl hws
  | cons w ws ih =>
    by_cases h : ws = []
    · subst h
      rw [List.singleton_append, unwords_cons hvs]
      simp [unwords]
    · have happ : ws ++ vs ≠ [] := by simp [hvs]
      rw [List.cons_append, unwords_cons happ, unwords_cons h, ih h, List.append_assoc]
      rfl

end Text

namespace Declaration

/-! ## Collecting -/

theorem collect_append (keyword : Keyword) (braces parens : Int) (last index : Nat)
    (lines later : List Text) : ∃ more,
      (collect keyword braces parens last index (lines ++ later)).1 =
        (collect keyword braces parens last index lines).1 ++ more := by
  induction lines generalizing braces parens last index with
  | nil => exact ⟨_, rfl⟩
  | cons line rest ih =>
    rw [List.cons_append]
    rcases collect_cases keyword braces parens line with h | ⟨braces', parens', texts, h⟩
    · exact ⟨[], by rw [h, h, List.append_nil]⟩
    · obtain ⟨more, hmore⟩ := ih braces' parens' index (index + 1)
      exact ⟨more, by rw [h, h, hmore, List.append_assoc]⟩

theorem collect_of_ended {keyword : Keyword} (hbody : keyword.hasBody = false) (braces parens : Int)
    (last index : Nat) (lines later : List Text)
    (h : isEnded keyword (collect keyword braces parens last index lines).1 = true) :
    collect keyword braces parens last index (lines ++ later) =
      collect keyword braces parens last index lines := by
  induction lines generalizing braces parens last index with
  | nil => simp [collect, isEnded] at h
  | cons line rest ih =>
    rw [collect] at h
    rw [List.cons_append, collect, collect]
    dsimp only at h ⊢
    split
    · rename_i hempty
      rw [if_pos hempty] at h
      exact ih braces parens index (index + 1) h
    · rename_i hempty
      rw [if_neg hempty] at h
      split
      · rfl
      · rename_i hends
        rw [if_neg hends] at h
        -- The line itself does not end the declaration, so it is not the last one.
        have hrest : isEnded keyword (collect keyword
            (braces + Token.netDepth '{' '}' (cleaned line).tokens)
            (parens + Token.netDepth '(' ')' (cleaned line).tokens) index (index + 1) rest).1 =
              true := by
          rw [ends_of_not_hasBody hbody] at hends
          generalize collect keyword _ _ index (index + 1) rest = p at h ⊢
          obtain ⟨texts, stop⟩ := p
          cases texts with
          | nil => exact absurd h hends
          | cons text texts => exact h
        rw [ih _ _ _ _ hrest]

/-! ## Searching -/

variable {lines : List Text} {cursor : Nat} {d : Declaration}

/-- A search that has found something finds it again in front of more lines. -/
theorem exists_continued (h : search lines cursor = .found d) (later : List Text) :
    ∃ line rest, d.material lines = (collect d.keyword 0 0 d.startLine d.startLine (line :: rest)).1 ∧
      d = gather d.keyword d.startLine (line :: rest) ∧ search (lines ++ later) cursor =
        .found (gather d.keyword d.startLine (line :: (rest ++ later.map trim))) ∧
      (gather d.keyword d.startLine (line :: (rest ++ later.map trim))).material (lines ++ later) =
        (collect d.keyword 0 0 d.startLine d.startLine (line :: (rest ++ later.map trim))).1 := by
  obtain ⟨k, line, rest, keyword, hdrop, -, rfl, hmore⟩ := exists_gather h
  have hindex : cursor + 1 + k = cursor + k + 1 := by omega
  rw [← List.map_drop, List.drop_drop, hindex] at hdrop
  have hlength := congrArg List.length hdrop
  rw [List.length_map, List.length_drop, List.length_cons] at hlength
  have hdrop' : ((lines ++ later).drop (cursor + k + 1)).map trim =
      line :: (rest ++ later.map trim) := by
    rw [List.drop_append_of_le_length (by omega), List.map_append, hdrop]
    rfl
  refine ⟨bare line, rest, ?_, rfl, ?_, ?_⟩
  · rw [hindex]
    exact (spec_of_gather hdrop keyword).1
  · rw [search, List.drop_append_of_le_length (by omega), List.map_append]
    exact hmore (later.map trim)
  · rw [hindex]
    exact (spec_of_gather hdrop' keyword).1

/-- More lines add to the end of a signature. -/
theorem search_append (h : search lines cursor = .found d) (later : List Text) :
    ∃ d', search (lines ++ later) cursor = .found d' ∧ d'.keyword = d.keyword ∧
      d'.startLine = d.startLine ∧ ∃ x, d'.signature = d.signature ++ x := by
  obtain ⟨line, rest, hmaterial, -, hsearch, hmaterial'⟩ := exists_continued h later
  refine ⟨_, hsearch, rfl, rfl, ?_⟩
  obtain ⟨more, hmore⟩ := collect_append d.keyword 0 0 d.startLine d.startLine (line :: rest)
    (later.map trim)
  rw [← List.cons_append] at hmaterial'
  rw [hmore, ← hmaterial] at hmaterial'
  obtain ⟨hsignature, hsolid⟩ := signature_eq_squeeze h
  rw [(signature_eq_squeeze hsearch).1, ← List.cons_append, hmaterial', hsignature]
  by_cases hnil : more = []
  · exact ⟨[], by rw [hnil, List.append_nil, List.append_nil]⟩
  · have hne : d.material lines ≠ [] := by
      intro heq
      rw [heq] at hsignature
      exact hsolid.nonempty hsignature
    have hwords : Solid (unwords (d.material lines)) :=
      solid_unwords hne fun l hl => (of_mem_material hl).1
    refine ⟨squeeze (' ' :: unwords more), ?_⟩
    rw [unwords_append hne hnil, squeeze_append]
    intro x hx hblank
    rw [hwords.last x hx] at hblank
    exact absurd hblank (by decide)

/-- What follows the line that ends a declaration without a body does not matter. -/
theorem search_of_ended (h : search lines cursor = .found d) (hbody : d.keyword.hasBody = false)
    (hended : isEnded d.keyword (d.material lines) = true) (later : List Text) :
    search (lines ++ later) cursor = .found d := by
  obtain ⟨line, rest, hmaterial, hd, hsearch, -⟩ := exists_continued h later
  rw [hmaterial] at hended
  have hcollect := collect_of_ended hbody 0 0 d.startLine d.startLine (line :: rest)
    (later.map trim) hended
  have hgather : gather d.keyword d.startLine (line :: (rest ++ later.map trim)) = d := by
    rw [← List.cons_append, gather, hcollect]
    exact hd.symm
  rw [hsearch, hgather]

end Declaration

end DocScaffold
