import DocScaffold.Text.Case
import DocScaffold.Text.Word

/-!
# Classes of characters

The classes are given by ranges, so that two of them are disjoint is a comparison of two tables. Blanks
are no word characters (`isWord_of_isBlank`). Neither the word characters nor lower case bring in a
reserved one: line breaks and the dollar sign are reserved (`isReserved_of_isWord`, `mem_lower`).
-/

namespace DocScaffold.Text

theorem Ranges.mem_of_has {n : Nat} {rs : Ranges} (h : rs.has n = true) :
    ∃ r ∈ rs, r.1 ≤ n ∧ n ≤ r.2 := by
  induction rs with
  | nil => simp [Ranges.has] at h
  | cons r rs ih =>
    obtain ⟨lo, hi⟩ := r
    rw [Ranges.has] at h
    split at h
    · simp at h
    · rename_i hlo
      rcases Bool.or_eq_true_iff.1 h with h | h
      · exact ⟨(lo, hi), by simp, by omega, by simpa using h⟩
      · obtain ⟨r, hr, hn⟩ := ih h
        exact ⟨r, by simp [hr], hn⟩

/-- No range of one table meets a range of the other. -/
def Ranges.isApart (rs ws : Ranges) : Bool :=
  rs.all fun r => ws.all fun w => r.2.blt w.1 || w.2.blt r.1

theorem Ranges.has_eq_false_of_isApart {rs ws : Ranges} (h : rs.isApart ws = true) {n : Nat}
    (hn : rs.has n = true) : ws.has n = false := by
  obtain ⟨r, hr, hlo, hhi⟩ := mem_of_has hn
  cases hw : ws.has n with
  | false => rfl
  | true =>
    obtain ⟨w, hw, hlo', hhi'⟩ := mem_of_has hw
    have hpair := List.all_eq_true.1 (List.all_eq_true.1 h r hr) w hw
    simp only [Bool.or_eq_true, Nat.blt_eq] at hpair
    omega

theorem isApart_blankRanges_wordRanges : Ranges.isApart blankRanges wordRanges = true := by
  decide +kernel

theorem isNameStart_of_isBlank {c : Char} (h : isBlank c = true) : isNameStart c = false := by
  obtain ⟨r, hr, hlo, hhi⟩ := Ranges.mem_of_has h
  have hc : ¬ isNameStart c = true := by
    intro hname
    simp only [isNameStart, Bool.or_eq_true, Bool.and_eq_true, decide_eq_true_eq, beq_iff_eq,
      Char.le_def, UInt32.le_iff_toNat_le] at hname
    have hn : (97 ≤ c.toNat ∧ c.toNat ≤ 122) ∨ (65 ≤ c.toNat ∧ c.toNat ≤ 90) ∨ c.toNat = 95 := by
      rcases hname with (⟨h1, h2⟩ | ⟨h1, h2⟩) | rfl
      · exact .inl ⟨h1, h2⟩
      · exact .inr (.inl ⟨h1, h2⟩)
      · exact .inr (.inr (by decide))
    simp only [blankRanges, List.mem_cons, List.not_mem_nil, or_false] at hr
    rcases hr with rfl | rfl | rfl | rfl | rfl | rfl | rfl | rfl | rfl | rfl <;>
      dsimp only at hlo hhi <;> omega
  simpa using hc

theorem isWord_of_isBlank {c : Char} (h : isBlank c = true) : isWord c = false := by
  unfold isWord
  split
  · rename_i hlt
    rw [isNameStart_of_isBlank h, Bool.false_or, Bool.and_eq_false_iff]
    obtain ⟨r, hr, hlo, hhi⟩ := Ranges.mem_of_has h
    simp only [decide_eq_false_iff_not, Char.le_def, UInt32.le_iff_toNat_le]
    have hbounds : c.toNat < 48 ∨ 57 < c.toNat := by
      simp only [blankRanges, List.mem_cons, List.not_mem_nil, or_false] at hr
      rcases hr with rfl | rfl | rfl | rfl | rfl | rfl | rfl | rfl | rfl | rfl <;>
        dsimp only at hlo hhi <;> omega
    rcases hbounds with hb | hb
    · exact .inl (Nat.not_le.2 hb)
    · exact .inr (Nat.not_le.2 hb)
  · exact Ranges.has_eq_false_of_isApart isApart_blankRanges_wordRanges h

theorem isBlank_of_isWord {c : Char} (h : isWord c = true) : isBlank c = false := by
  cases hb : isBlank c with
  | false => rfl
  | true =>
    rw [isWord_of_isBlank hb] at h
    exact absurd h (by decide)

theorem isBlank_of_isNameStart {c : Char} (h : isNameStart c = true) : isBlank c = false :=
  isBlank_of_isWord (isWord_of_isNameStart c h)

theorem not_blank_of_all {s : Text} (h : (s.all fun c => !isBlank c) = true) :
    ∀ c ∈ s, isBlank c = false := by
  intro c hc
  simpa using List.all_eq_true.1 h c hc

/-! ## Reserved characters -/

/-- Control characters, the dollar sign, the separators of lines and the codes that are no
characters. -/
def reservedRanges : Ranges := [
    (0x00, 0x1F), (0x24, 0x24), (0x7F, 0x9F), (0x2028, 0x2029), (0xD800, 0xDFFF)]

def isReserved (c : Char) : Bool := reservedRanges.has c.toNat

theorem isReserved_of_isLineBreak {c : Char} (h : isLineBreak c = true) : isReserved c = true := by
  obtain ⟨r, hr, hlo, hhi⟩ := Ranges.mem_of_has h
  simp only [lineBreakRanges, List.mem_cons, List.not_mem_nil, or_false] at hr
  simp only [isReserved, reservedRanges, Ranges.has]
  rcases hr with rfl | rfl | rfl | rfl <;> dsimp only at hlo hhi <;> grind

theorem isApart_reservedRanges_wordRanges : Ranges.isApart reservedRanges wordRanges = true := by
  decide +kernel

theorem isReserved_of_isWord {c : Char} (h : isWord c = true) : isReserved c = false := by
  cases hc : isReserved c with
  | false => rfl
  | true =>
    obtain ⟨r, hr, hlo, hhi⟩ := Ranges.mem_of_has hc
    unfold isWord at h
    split at h
    · -- Letters, digits and the underscore lie between the reserved characters of ASCII.
      simp only [isNameStart, Bool.or_eq_true, Bool.and_eq_true, decide_eq_true_eq, beq_iff_eq,
        Char.le_def, UInt32.le_iff_toNat_le] at h
      have hn : 48 ≤ c.toNat ∧ c.toNat ≤ 122 := by
        rcases h with ((⟨h1, h2⟩ | ⟨h1, h2⟩) | rfl) | ⟨h1, h2⟩
        · exact ⟨Nat.le_trans (by decide) h1, Nat.le_trans h2 (by decide)⟩
        · exact ⟨Nat.le_trans (by decide) h1, Nat.le_trans h2 (by decide)⟩
        · decide
        · exact ⟨Nat.le_trans (by decide) h1, Nat.le_trans h2 (by decide)⟩
      simp only [reservedRanges, List.mem_cons, List.not_mem_nil, or_false] at hr
      rcases hr with rfl | rfl | rfl | rfl | rfl <;> dsimp only at hlo hhi <;> omega
    · rw [Ranges.has_eq_false_of_isApart isApart_reservedRanges_wordRanges hc] at h
      exact absurd h (by decide)

/-! ## Lower case -/

/-- No run of the case table leads to a reserved code. -/
theorem lowerRuns_avoid_reserved :
    (lowerRuns.all fun r => 0 ≤ r.first + r.shift && r.last + r.shift < 0x110000 &&
      !reservedRanges.any fun w => r.first + r.shift ≤ w.2 && w.1 ≤ r.last + r.shift) = true := by
  decide +kernel

theorem isReserved_of_mem_lowerRuns {r : CaseRun} (hr : r ∈ lowerRuns) {n : Nat}
    (hfirst : r.first ≤ n) (hlast : n ≤ r.last) :
    isReserved (Char.ofNat (n + r.shift).toNat) = false := by
  have hall := List.all_eq_true.1 lowerRuns_avoid_reserved r hr
  simp only [Bool.and_eq_true, decide_eq_true_eq, Bool.not_eq_true', List.any_eq_false] at hall
  obtain ⟨⟨hpos, hbound⟩, havoid⟩ := hall
  have hreserved : ∀ w ∈ reservedRanges,
      ¬ (w.1 ≤ (n + r.shift).toNat ∧ (n + r.shift).toNat ≤ w.2) := by
    intro w hw hmeet
    have := havoid w hw
    omega
  have hvalid : Nat.isValidChar (n + r.shift).toNat := by
    have := hreserved (0xD800, 0xDFFF) (by decide)
    rw [Nat.isValidChar]
    omega
  have hcode : (Char.ofNat (n + r.shift).toNat).toNat = (n + r.shift).toNat := by
    rw [Char.ofNat, dif_pos hvalid]
    rfl
  cases hhas : isReserved (Char.ofNat (n + r.shift).toNat) with
  | false => rfl
  | true =>
    obtain ⟨w, hw, hlo, hhi⟩ := Ranges.mem_of_has hhas
    rw [hcode] at hlo hhi
    exact absurd ⟨hlo, hhi⟩ (hreserved w hw)

theorem mem_lowerAt {before after : Text} {c d : Char} (h : d ∈ lowerAt before after c) :
    d = c ∨ isReserved d = false := by
  rw [lowerAt] at h
  split at h
  · right
    split at h
    · obtain rfl := List.mem_singleton.1 h
      decide
    · obtain rfl := List.mem_singleton.1 h
      decide
  · split at h
    · right
      rcases List.mem_cons.1 h with rfl | h
      · decide
      · obtain rfl := List.mem_singleton.1 h
        decide
    · obtain rfl := List.mem_singleton.1 h
      cases hrun : lowerRuns.find? fun r =>
          r.first ≤ c.toNat && c.toNat ≤ r.last && (c.toNat - r.first) % r.step == 0 with
      | none =>
        left
        rw [CaseRun.apply, hrun]
        exact Char.ofNat_toNat c
      | some r =>
        right
        have hfound := List.find?_some hrun
        simp only [Bool.and_eq_true, decide_eq_true_eq] at hfound
        rw [CaseRun.apply, hrun]
        exact isReserved_of_mem_lowerRuns (List.mem_of_find?_eq_some hrun) hfound.1.1 hfound.1.2

/-- Lower case brings in no reserved character. -/
theorem mem_lower {s : Text} {c : Char} (h : c ∈ lower s) : c ∈ s ∨ isReserved c = false := by
  have hfrom : ∀ before s : Text, c ∈ lowerFrom before s → c ∈ s ∨ isReserved c = false := by
    intro before s h
    induction s generalizing before with
    | nil => simp [lowerFrom] at h
    | cons d rest ih =>
      rw [lowerFrom, List.mem_append] at h
      rcases h with h | h
      · rcases mem_lowerAt h with rfl | h
        · simp
        · exact .inr h
      · exact (ih _ h).imp_left (List.mem_cons_of_mem d)
  exact hfrom [] s h

end DocScaffold.Text
