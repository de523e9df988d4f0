import DocScaffold.Proofs.Collecting
import DocScaffold.Proofs.Words

/-!
# Lines put into a buffer

Blank lines may be put anywhere between the cursor and the last line of a declaration, and line comments
anywhere behind its first line. The declaration that is found is the same, but for its place
(`search_inserted`).
-/

namespace DocScaffold.Declaration

open Text

/-! ## Lines put in front of others -/

/-- The lines, of which the first has the given index, with the lines `ins i` in front of line `i`. -/
def inserted (ins : Nat → List Text) (index : Nat) : List Text → List Text
  | [] => []
  | line :: lines => ins index ++ line :: inserted ins (index + 1) lines

/-- How many lines are put in front of the first `n` lines. -/
def tally (ins : Nat → List Text) : Nat → Nat
  | 0 => 0
  | n + 1 => tally ins n + (ins n).length

variable {ins : Nat → List Text}

theorem tally_succ (ins : Nat → List Text) (n : Nat) :
    tally ins (n + 1) = tally ins n + (ins n).length := rfl

/-- Where nothing is put in, the tally stays. -/
theorem tally_eq_of_none {m n : Nat} (hle : m ≤ n) (h : ∀ i, m ≤ i → i < n → ins i = []) :
    tally ins n = tally ins m := by
  induction n, hle using Nat.le_induction with
  | base => rfl
  | succ n hle ih =>
    rw [tally_succ, ih fun i hi hlt => h i hi (by omega), h n hle (by omega)]
    rfl

theorem tally_map (f : Text → Text) (n : Nat) : tally (fun i => (ins i).map f) n = tally ins n := by
  induction n with
  | zero => rfl
  | succ n ih => rw [tally_succ, tally_succ, ih, List.length_map]

theorem map_inserted (f : Text → Text) (index : Nat) (lines : List Text) :
    (inserted ins index lines).map f = inserted (fun i => (ins i).map f) index (lines.map f) := by
  induction lines generalizing index with
  | nil => rfl
  | cons line lines ih =>
    rw [inserted, List.map_append, List.map_cons, ih]
    rfl

theorem inserted_append (index : Nat) (front rest : List Text) :
    inserted ins index (front ++ rest) =
      inserted ins index front ++ inserted ins (index + front.length) rest := by
  induction front generalizing index with
  | nil => rfl
  | cons line front ih =>
    rw [List.cons_append, inserted, inserted, ih, List.append_assoc, List.cons_append,
      List.length_cons, Nat.add_assoc, Nat.add_comm 1]

theorem inserted_of_none {index : Nat} {lines : List Text}
    (h : ∀ i, index ≤ i → i < index + lines.length → ins i = []) : inserted ins index lines = lines := by
  induction lines generalizing index with
  | nil => rfl
  | cons line lines ih =>
    rw [List.length_cons] at h
    rw [inserted, h index (by omega) (by omega), ih fun i hi hlt => h i (by omega) (by omega)]
    rfl

theorem length_inserted (index : Nat) (lines : List Text) :
    (inserted ins index lines).length + tally ins index =
      lines.length + tally ins (index + lines.length) := by
  induction lines generalizing index with
  | nil => rfl
  | cons line lines ih =>
    have hrest := ih (index + 1)
    rw [tally_succ] at hrest
    rw [inserted, List.length_append, List.length_cons, List.length_cons,
      Nat.add_comm lines.length 1, ← Nat.add_assoc index]
    omega

/-! ## Searching -/

/-- The depth behind a line that is passed over is never negative. -/
theorem nonneg_of_step {depth depth' : Int} {line : Text} (h : step depth line = .next depth') :
    0 ≤ depth' := by
  have hplain : ∀ line, stepPlain line = .next depth' → 0 ≤ depth' := by
    intro line h
    unfold stepPlain at h
    split at h
    · simp at h
    · split at h
      · simp at h
      · obtain rfl := Step.next.inj h
        exact Int.le_refl 0
  unfold step at h
  split at h
  · obtain rfl := Step.next.inj h
    exact Int.le_max_right _ _
  · split at h
    · obtain rfl := Step.next.inj h
      exact Int.le_refl 0
    · split at h
      · dsimp only at h
        split at h
        · obtain rfl := Step.next.inj h
          rw [attributeTail]
          dsimp only
          split
          · exact Int.le_of_lt ‹_›
          · exact Int.le_refl 0
        · exact hplain _ h
      · exact hplain _ h

/-- Empty lines among lines that are passed over leave the depth as it is. -/
theorem depthBehind?_inserted {depth depth' : Int} {index : Nat} {front : List Text}
    (hdepth : 0 ≤ depth) (h : depthBehind? depth front = some depth')
    (hempty : ∀ i, i ≤ index + front.length → ∀ line ∈ ins i, line = []) :
    depthBehind? depth (inserted ins index front ++ ins (index + front.length)) = some depth' := by
  induction front generalizing depth index with
  | nil =>
    obtain rfl := Option.some.inj h
    exact depthBehind?_empty hdepth (hempty index (Nat.le_refl _))
  | cons line front ih =>
    rw [List.length_cons, Nat.add_comm front.length, ← Nat.add_assoc] at hempty ⊢
    rw [inserted, List.append_assoc, depthBehind?_append
      (depthBehind?_empty hdepth (hempty index (by omega))), List.cons_append]
    obtain ⟨mid, hstep, hfront⟩ := exists_of_depthBehind?_cons h
    rw [depthBehind?_cons hstep]
    exact ih (nonneg_of_step hstep) hfront hempty

/-! ## Collecting -/

variable {keyword : Keyword}

theorem collect_cons (keyword : Keyword) (braces parens : Int) (last last' index : Nat) (line : Text)
    (rest : List Text) : collect keyword braces parens last index (line :: rest) =
      collect keyword braces parens last' index (line :: rest) := rfl

theorem collect_empty_append {front : List Text} (h : ∀ line ∈ front, cleaned line = [])
    (braces parens : Int) (last index : Nat) (line : Text) (rest : List Text) :
    collect keyword braces parens last index (front ++ line :: rest) =
      collect keyword braces parens last (index + front.length) (line :: rest) := by
  induction front generalizing last index with
  | nil => rfl
  | cons first front ih =>
    rw [List.cons_append, collect_cons_of_empty (h first (by simp)),
      ih fun line hline => h line (by simp [hline]), List.length_cons, Nat.add_assoc, Nat.add_comm 1]
    exact collect_cons ..

/-- Lines that hold no more than a comment, behind the first line of a declaration, move the others. -/
theorem collect_inserted {braces parens : Int} {last index e : Nat} {line : Text}
    {rest texts : List Text} (hempty : ∀ i, index < i → ∀ line ∈ ins i, cleaned line = [])
    (h : collect keyword braces parens last index (line :: rest) = (texts, e)) (last' : Nat) :
    collect keyword braces parens last' (index + tally ins (index + 1))
      (line :: inserted ins (index + 1) rest) = (texts, e + tally ins (e + 1)) := by
  induction rest generalizing braces parens last index e line texts last' with
  | nil =>
    rcases collect_cases keyword braces parens line with hline | ⟨braces', parens', front, hline⟩
    · obtain ⟨rfl, rfl⟩ := Prod.mk.inj ((hline last index []).symm.trans h)
      rw [hline]
    · obtain ⟨rfl, rfl⟩ := Prod.mk.inj ((hline last index []).symm.trans h)
      rw [inserted, hline]
      rfl
  | cons next rest ih =>
    rcases collect_cases keyword braces parens line with hline | ⟨braces', parens', front, hline⟩
    · obtain ⟨rfl, rfl⟩ := Prod.mk.inj ((hline last index (next :: rest)).symm.trans h)
      rw [hline]
    · obtain ⟨texts', e', hrest⟩ : ∃ texts' e',
          collect keyword braces' parens' index (index + 1) (next :: rest) = (texts', e') :=
        ⟨_, _, rfl⟩
      rw [hline, hrest] at h
      obtain ⟨rfl, rfl⟩ := Prod.mk.inj h
      have hplace : index + tally ins (index + 1) + 1 + (ins (index + 1)).length =
          index + 1 + tally ins (index + 1 + 1) := by
        rw [tally_succ ins (index + 1)]
        omega
      rw [inserted, hline, collect_empty_append (hempty (index + 1) (by omega)), hplace,
        ih (fun i hi => hempty i (by omega)) hrest]

/-! ## Lines put into a buffer -/

variable {lines : List Text} {cursor : Nat} {d : Declaration}

theorem searchFrom_inserted {index : Nat} (h : searchFrom 0 index lines = .found d)
    (hindex : tally ins index = 0) (hempty : ∀ i, i ≤ d.startLine → ∀ line ∈ ins i, line = [])
    (hcleaned : ∀ i, ∀ line ∈ ins i, cleaned line = []) :
    searchFrom 0 index (inserted ins index lines) = .found ⟨d.signature, d.keyword,
      d.startLine + tally ins (d.startLine + 1), d.endLine + tally ins (d.endLine + 1)⟩ := by
  obtain ⟨front, line, rest, depth, rfl, hdepth, hstart, hd⟩ := exists_start h
  have hstartLine : d.startLine = index + front.length := by rw [hd]; rfl
  rw [hstartLine] at hempty ⊢
  have hfront := depthBehind?_inserted (Int.le_refl 0) hdepth hempty
  have hplace : index + (inserted ins index front ++ ins (index + front.length)).length =
      index + front.length + tally ins (index + front.length + 1) := by
    have hlength : (inserted ins index front).length + tally ins index =
        front.length + tally ins (index + front.length) := length_inserted index front
    rw [List.length_append, tally_succ]
    omega
  -- The first line stands behind all that is put in front of it.
  rw [inserted_append, inserted, ← List.append_assoc, searchFrom_append hfront, searchFrom, hstart,
    hplace]
  obtain ⟨texts, e, hcollect⟩ : ∃ texts e, collect d.keyword 0 0 (index + front.length)
      (index + front.length) (bare line :: rest) = (texts, e) := ⟨_, _, rfl⟩
  have hmoved := collect_inserted (fun i _ => hcleaned i) hcollect
    (index + front.length + tally ins (index + front.length + 1))
  rw [gather, hcollect] at hd
  dsimp only
  rw [gather, hmoved, congrArg signature hd, congrArg endLine hd]

theorem behind_inserted (hlength : cursor + 1 ≤ lines.length) (hnone : ∀ i, i ≤ cursor → ins i = []) :
    ((inserted ins 0 lines).drop (cursor + 1)).map trim =
      inserted (fun i => (ins i).map trim) (cursor + 1) ((lines.drop (cursor + 1)).map trim) := by
  have htake : (lines.take (cursor + 1)).length = cursor + 1 := by
    rw [List.length_take]
    omega
  have hfront : inserted ins 0 (lines.take (cursor + 1)) = lines.take (cursor + 1) := by
    refine inserted_of_none fun i _ hlt => hnone i ?_
    omega
  have hsplit : inserted ins 0 lines =
      lines.take (cursor + 1) ++ inserted ins (cursor + 1) (lines.drop (cursor + 1)) := by
    conv_lhs => rw [← List.take_append_drop (cursor + 1) lines]
    rw [inserted_append, hfront, htake, Nat.zero_add]
  rw [hsplit, List.drop_left' htake, map_inserted]

theorem cleaned_comment {line : Text} (h : line.startsWith "//" = true) : cleaned line = [] := by
  rw [startsWith, List.isPrefixOf_iff_prefix] at h
  obtain ⟨rest, rfl⟩ := h
  have hbefore : beforeLineComment ('/' :: '/' :: rest) = [] := by
    rw [beforeLineComment, lexemes_of_first? (first?_line_comment rest)]
    rfl
  exact congrArg trim hbefore

/-- A declaration is found with the same signature when blank lines are put behind the cursor and line
comments behind its first line, all of them in front of its last line. Its first line moves by the lines
put in front of it, and its last line by all of them. -/
theorem search_inserted (h : search lines cursor = .found d)
    (hplace : ∀ i, ins i ≠ [] → cursor < i ∧ i ≤ d.endLine)
    (hlines : ∀ i, ∀ line ∈ ins i, (∀ c ∈ line, isBlank c = true) ∨
      d.startLine < i ∧ (trim line).startsWith "//" = true) :
    search (inserted ins 0 lines) cursor = .found ⟨d.signature, d.keyword,
      d.startLine + tally ins (d.startLine + 1), d.endLine + tally ins lines.length⟩ := by
  obtain ⟨-, -, hlt, -⟩ := spec_of_search h
  have hlength : cursor + 1 ≤ lines.length := by
    obtain ⟨front, line, rest, -, hbehind, -⟩ := exists_start h
    have hlength := congrArg List.length hbehind
    rw [List.length_map, List.length_drop, List.length_append, List.length_cons] at hlength
    omega
  have hnone : ∀ i, i ≤ cursor → ins i = [] := by
    intro i hi
    by_contra hne
    exact absurd (hplace i hne).1 (by omega)
  have hcursor : tally ins (cursor + 1) = 0 :=
    tally_eq_of_none (Nat.zero_le _) fun i _ hi => hnone i (by omega)
  have htotal : tally ins lines.length = tally ins (d.endLine + 1) := by
    refine tally_eq_of_none hlt fun i hi _ => ?_
    by_contra hne
    exact absurd (hplace i hne).2 (by omega)
  have hempty : ∀ i, i ≤ d.startLine → ∀ line ∈ (ins i).map trim, line = [] := by
    intro i hi line hline
    obtain ⟨l, hl, rfl⟩ := List.mem_map.1 hline
    rcases hlines i l hl with hblank | ⟨hbehind, -⟩
    · exact trim_blanks hblank
    · omega
  have hcleaned : ∀ i, ∀ line ∈ (ins i).map trim, cleaned line = [] := by
    intro i line hline
    obtain ⟨l, hl, rfl⟩ := List.mem_map.1 hline
    rcases hlines i l hl with hblank | ⟨-, hcomment⟩
    · rw [trim_blanks hblank, cleaned_nil]
    · exact cleaned_comment hcomment
  have hfound := searchFrom_inserted h (by rwa [tally_map]) hempty hcleaned
  rw [tally_map, tally_map] at hfound
  rw [search, behind_inserted hlength hnone, hfound, htotal]

/-- A struct behind an attribute over two lines. -/
def gridLines : List Text := [
  "///", "#[derive(", "    Debug)]", "struct Grid \x7b", "    width: u8,", "\x7d", "fn next() \x7b"]

/-- Blank lines inside the attribute and in front of the struct, comments among its fields. -/
def gridGaps : Nat → List Text
  | 2 => ["  "]
  | 3 => ["", ""]
  | 4 => ["    // in cells: [\x7b", ""]
  | 5 => ["/// \x7d"]
  | _ => []

theorem search_inserted_grid :
    search gridLines 0 = .found ⟨"struct Grid \x7b width: u8, \x7d", .struct, 3, 5⟩ ∧
      search (inserted gridGaps 0 gridLines) 0 =
        .found ⟨"struct Grid \x7b width: u8, \x7d", .struct, 6, 11⟩ := by
  have hfound : search gridLines 0 = .found ⟨"struct Grid \x7b width: u8, \x7d", .struct, 3, 5⟩ := by
    decide +kernel
  have hplace : ∀ i < 6, gridGaps i ≠ [] → 0 < i ∧ i ≤ 5 := by decide
  have hall : ((List.range 6).all fun i => (gridGaps i).all fun line =>
      line.all isBlank || decide (3 < i) && (trim line).startsWith "//") = true := by decide +kernel
  have hlines : ∀ i < 6, ∀ line ∈ gridGaps i, (∀ c ∈ line, isBlank c = true) ∨
      3 < i ∧ (trim line).startsWith "//" = true := by
    intro i hi line hline
    have hallows := List.all_eq_true.1 (List.all_eq_true.1 hall i (List.mem_range.2 hi)) line hline
    rwa [Bool.or_eq_true, Bool.and_eq_true, List.all_eq_true, decide_eq_true_eq] at hallows
  have hnone : ∀ i, 6 ≤ i → gridGaps i = [] := by
    intro i hi
    obtain ⟨n, rfl⟩ := Nat.exists_eq_add_of_le' hi
    rfl
  refine ⟨hfound, search_inserted hfound (fun i hne => ?_) fun i line hline => ?_⟩
  · by_cases hi : i < 6
    · exact hplace i hi hne
    · exact absurd (hnone i (by omega)) hne
  · by_cases hi : i < 6
    · exact hlines i hi line hline
    · rw [hnone i (by omega)] at hline
      simp at hline

end DocScaffold.Declaration
