import DocScaffold.Proofs.Collecting

/-!
# What a search reads

A search reads the lines behind the cursor up to the last one of the declaration that it finds. So the
lines elsewhere may be any, and the cursor may be moved over lines that start nothing, as long as it
does not come to stand inside an attribute (`search_local`).
-/

namespace DocScaffold.Declaration

open Text

/-! ## Collecting -/

/-- A collection that ends in front of the last line has read the lines up to its end only. -/
theorem exists_read_of_collect {keyword : Keyword} {braces parens : Int} {last index e : Nat}
    {lines texts : List Text} (hindex : index ≤ last + 1)
    (h : collect keyword braces parens last index lines = (texts, e))
    (hlt : e + 1 < index + lines.length) :
    ∃ front rest, lines = front ++ rest ∧ index + front.length = e + 1 ∧
      ∀ later, collect keyword braces parens last index (front ++ later) = (texts, e) := by
  induction lines generalizing braces parens last index e texts with
  | nil =>
    obtain ⟨-, rfl⟩ := Prod.mk.inj h
    rw [List.length_nil] at hlt
    omega
  | cons line lines ih =>
    rw [List.length_cons] at hlt
    rcases collect_cases keyword braces parens line with hline | ⟨braces', parens', front, hline⟩
    · obtain ⟨rfl, rfl⟩ := Prod.mk.inj ((hline last index lines).symm.trans h)
      exact ⟨[line], lines, rfl, rfl, fun later => hline last index later⟩
    · obtain ⟨rfl, rfl⟩ := Prod.mk.inj ((hline last index lines).symm.trans h)
      obtain ⟨front, rest, hlines, hlength, hread⟩ :=
        @ih braces' parens' index (index + 1) _ _ (Nat.le_refl _) rfl (by omega)
      refine ⟨line :: front, rest, by rw [hlines]; rfl, by rw [List.length_cons]; omega,
        fun later => ?_⟩
      rw [List.cons_append, hline, hread]

/-! ## Searching -/

/-- A search that finds a declaration in front of the last line has read the lines up to its end only. -/
theorem exists_read_of_searchFrom {depth : Int} {index : Nat} {lines : List Text} {d : Declaration}
    (h : searchFrom depth index lines = .found d) (hlt : d.endLine + 1 < index + lines.length) :
    ∃ front rest, lines = front ++ rest ∧ index + front.length = d.endLine + 1 ∧
      ∀ later, searchFrom depth index (front ++ later) = .found d := by
  obtain ⟨passed, line, rest, depth', rfl, hdepth, hstart, hd⟩ := exists_start h
  have hlines : d.endLine + 1 < index + passed.length + (bare line :: rest).length := by
    rw [List.length_append, List.length_cons] at hlt
    rw [List.length_cons]
    omega
  obtain ⟨texts, e, hcollect⟩ : ∃ texts e,
      collect d.keyword 0 0 (index + passed.length) (index + passed.length) (bare line :: rest) =
        (texts, e) := ⟨_, _, rfl⟩
  have hgather : ∀ lines, collect d.keyword 0 0 (index + passed.length) (index + passed.length)
      lines = (texts, e) → gather d.keyword (index + passed.length) lines = d := by
    intro lines hlines
    rw [hd, gather, gather, hlines, hcollect]
  have he : d.endLine = e := by
    rw [hd, gather, hcollect]
  rw [he] at hlines
  obtain ⟨front, back, hfront, hlength, hread⟩ :=
    exists_read_of_collect (Nat.le_succ _) hcollect hlines
  cases front with
  | nil =>
    -- Some line has been read, as a collection of none ends where it begins.
    obtain ⟨-, rfl⟩ := Prod.mk.inj (hread [])
    rw [List.length_nil] at hlength
    omega
  | cons first front =>
    obtain ⟨rfl, rfl⟩ := List.cons.inj hfront
    refine ⟨passed ++ line :: front, back, by simp, ?_, fun later => ?_⟩
    · rw [List.length_cons] at hlength
      rw [List.length_append, List.length_cons, he]
      omega
    · rw [List.append_assoc, searchFrom_append hdepth, List.cons_append, searchFrom, hstart]
      exact congrArg Sought.found (hgather _ (hread later))

/-- A line that a search has passed over with no attribute open is as good a place for the cursor. -/
theorem search_passed {lines : List Text} {cursor later : Nat} (hlater : cursor ≤ later)
    (h : depthBehind? 0 (((lines.take (later + 1)).drop (cursor + 1)).map trim) = some 0) :
    search lines later = search lines cursor := by
  have hlines : lines.drop (cursor + 1) =
      (lines.take (later + 1)).drop (cursor + 1) ++ lines.drop (later + 1) := by
    rw [List.drop_take]
    have hdrop : lines.drop (later + 1) = (lines.drop (cursor + 1)).drop (later - cursor) := by
      rw [List.drop_drop]
      congr 1
      omega
    rw [hdrop, show later + 1 - (cursor + 1) = later - cursor by omega, List.take_append_drop]
  rw [search, search, hlines, List.map_append, searchFrom_append h, List.length_map]
  by_cases hlt : later + 1 ≤ lines.length
  · have hlength : ((lines.take (later + 1)).drop (cursor + 1)).length = later - cursor := by
      rw [List.length_drop, List.length_take]
      omega
    rw [hlength, show cursor + 1 + (later - cursor) = later + 1 by omega]
  · rw [List.drop_eq_nil_of_le (by omega)]
    rfl

/-- A declaration that a search finds stands behind the cursor and inside the buffer. A buffer that has
the same lines from the one behind the cursor to the last one of the declaration holds the same
declaration, unless it was cut off by the end of the buffer. And a search finds the same from every line
that it passes over, with no attribute open behind it. -/
theorem search_local (lines : List Text) (cursor : Nat) :
    (∀ d, search lines cursor = .found d → cursor < d.startLine ∧ d.startLine ≤ d.endLine ∧
      d.endLine < lines.length ∧ (d.endLine + 1 < lines.length → ∀ lines' : List Text,
        (∀ i, cursor < i → i ≤ d.endLine → lines'[i]? = lines[i]?) →
          search lines' cursor = .found d)) ∧
      ∀ later, cursor ≤ later →
        depthBehind? 0 (((lines.take (later + 1)).drop (cursor + 1)).map trim) = some 0 →
          search lines later = search lines cursor := by
  refine ⟨fun d h => ?_, fun later hlater hdepth => search_passed hlater hdepth⟩
  obtain ⟨-, hle, hlength, -⟩ := spec_of_search h
  have hcursor : cursor < d.startLine := by
    obtain ⟨front, line, rest, -, -, -, -, hd⟩ := exists_start h
    rw [hd, gather]
    dsimp only
    omega
  refine ⟨hcursor, hle, hlength, fun hlt lines' hsame => ?_⟩
  obtain ⟨front, rest, hlines, hfront, hread⟩ := exists_read_of_searchFrom h (by
    rw [List.length_map, List.length_drop]
    omega)
  -- The other buffer begins behind the cursor with the lines that have been read.
  have htake : ((lines'.drop (cursor + 1)).map trim).take front.length = front := by
    have hbegins : front = ((lines.drop (cursor + 1)).map trim).take front.length := by
      rw [hlines, List.take_left]
    conv_rhs => rw [hbegins]
    refine List.ext_getElem? fun i => ?_
    rw [List.getElem?_take, List.getElem?_take]
    split
    · rw [List.getElem?_map, List.getElem?_map, List.getElem?_drop, List.getElem?_drop,
        hsame (cursor + 1 + i) (by omega) (by omega)]
    · rfl
  rw [search, ← List.take_append_drop front.length ((lines'.drop (cursor + 1)).map trim), htake]
  exact hread _

/-- A struct behind an attribute over two lines, with a method behind it. -/
def unitLines : List Text := [
  "///", "#[derive(", "    Debug)]", "", "struct Unit;", "fn next() \x7b"]

/-- The same struct among other lines. -/
def otherLines : List Text := [
  "", "#[derive(", "    Debug)]", "", "struct Unit;", "\x7d /* \"", "", "fn last();"]

theorem search_local_unit :
    let unit : Declaration := ⟨"struct Unit;", .struct, 4, 4⟩
    search unitLines 0 = .found unit ∧ search otherLines 0 = .found unit ∧
      search unitLines 2 = .found unit := by
  intro unit
  have hfound : search unitLines 0 = .found unit := by decide +kernel
  obtain ⟨hread, hpassed⟩ := search_local unitLines 0
  obtain ⟨-, -, -, hother⟩ := hread unit hfound
  refine ⟨hfound, hother (by decide) otherLines ?_, (hpassed 2 (by decide) (by decide +kernel)).trans hfound⟩
  intro i hi hle
  have hcases : i = 1 ∨ i = 2 ∨ i = 3 ∨ i = 4 := by
    simp only [unit] at hle
    omega
  rcases hcases with rfl | rfl | rfl | rfl <;> rfl

end DocScaffold.Declaration
