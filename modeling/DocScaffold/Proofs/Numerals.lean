import Mathlib.Algebra.Group.Nat.Defs
import DocScaffold.Proofs.Fragments
import DocScaffold.Text.Integer

/-!
# Integers read back

Decimal notation is read back as long as it keeps to the limit on digits, and refused beyond it
(`readInteger_ofInt`).
-/

namespace DocScaffold.Text

/-! ## Digits -/

theorem toNat_of_isAsciiDigit {c : Char} (h : isAsciiDigit c = true) :
    48 ≤ c.toNat ∧ c.toNat ≤ 57 := by
  rw [isAsciiDigit, Bool.and_eq_true, decide_eq_true_eq, decide_eq_true_eq] at h
  exact ⟨UInt32.le_iff_toNat_le.1 h.1, UInt32.le_iff_toNat_le.1 h.2⟩

theorem all_isAsciiDigit_ofNat (n : Nat) : (ofNat n).all isAsciiDigit = true :=
  List.all_eq_true.2 fun _ hc => isAsciiDigit_of_mem_ofNat hc

theorem ofNat_ne_nil (n : Nat) : ofNat n ≠ [] := Nat.toDigits_ne_nil

/-- A number begins with a zero only if it is zero. -/
theorem eq_zero_of_head?_ofNat {n : Nat} (h : (ofNat n).head? = some '0') : n = 0 := by
  induction n using Nat.strongRecOn with
  | ind n ih =>
    rw [ofNat, Nat.toDigits_eq_if (by decide)] at h
    split at h
    · rename_i hlt
      have hvalue : n.digitChar.toNat = '0'.toNat := congrArg Char.toNat (Option.some.inj h)
      rw [Nat.toNat_digitChar_of_lt_ten hlt] at hvalue
      exact Nat.add_left_cancel hvalue
    · rename_i hge
      rw [List.head?_append_of_ne_nil _ Nat.toDigits_ne_nil] at h
      have hzero := ih (n / 10) (by omega) h
      omega

/-- A number from a power of ten on has more digits than the exponent says. -/
theorem lt_length_ofNat {k n : Nat} (h : 10 ^ k ≤ n) : k < (ofNat n).length := by
  induction k generalizing n with
  | zero => exact List.length_pos_of_ne_nil (ofNat_ne_nil n)
  | succ k ih =>
    rw [Nat.pow_succ] at h
    have hpos : 0 < 10 ^ k := Nat.pow_pos (by decide)
    have hlength := ih (n := n / 10) (by omega)
    rw [ofNat, Nat.toDigits_eq_if (by decide), if_neg (by omega), List.length_append]
    rw [ofNat] at hlength
    simp only [List.length_singleton]
    omega

theorem valueOf_ofNat (n : Nat) : valueOf ((ofNat n).map fun c => c.toNat - 48) = n := by
  rw [valueOf, List.foldl_map]
  exact Nat.ofDigitChars_eq_foldl.symm.trans (Nat.ofDigitChars_toDigits (by decide) (by decide))

theorem asciiNumber_ofNat (n : Nat) : asciiNumber (ofNat n) = n := valueOf_ofNat n

/-! ## Numerals -/

theorem digitIn?_of_isAsciiDigit {c : Char} (h : isAsciiDigit c = true) :
    digitIn? 10 c = some (c.toNat - 48) := by
  have hbounds := toNat_of_isAsciiDigit h
  simp only [digitIn?, h, if_true]
  rw [if_pos (by omega)]

theorem digitRun_digits {s : Text} (h : s.all isAsciiDigit = true) :
    digitRun 10 s = (s.map fun c => c.toNat - 48, []) := by
  induction s with
  | nil => rfl
  | cons c rest ih =>
    rw [List.all_cons, Bool.and_eq_true] at h
    have hrest : ∀ e more, rest ≠ '_' :: e :: more := by
      rintro e more rfl
      exact absurd h.2 (by simp [show isAsciiDigit '_' = false by decide])
    rw [digitRun, digitIn?_of_isAsciiDigit h.1]
    dsimp only
    split
    · exact absurd rfl (hrest _ _)
    · rw [ih h.2]
      rfl

theorem not_numberSpace_of_isAsciiDigit {c : Char} (h : isAsciiDigit c = true) :
    isNumberSpace c = false := by
  rw [isNumberSpace, isBlank_of_isWord (isWord_of_isAsciiDigit h), Bool.false_and]

/-- A numeral is an integer in decimal notation as it stands. -/
theorem map_numeralChar_ofInt (i : Int) : (ofInt i).map numeralChar = ofInt i := by
  have hplain : ∀ c ∈ ofInt i, c.toNat < 127 := by
    intro c hc
    have hdigits : ∀ n, c ∈ ofNat n → c.toNat < 127 := fun n hn => by
      have := toNat_of_isAsciiDigit (isAsciiDigit_of_mem_ofNat hn)
      omega
    rw [ofInt] at hc
    split at hc
    · rcases List.mem_cons.1 hc with rfl | hc
      · decide
      · exact hdigits _ hc
    · exact hdigits _ hc
  have hmap : (ofInt i).map numeralChar = (ofInt i).map id :=
    List.map_congr_left fun c hc => by rw [numeralChar, if_pos (hplain c hc), id]
  rw [hmap, List.map_id]

theorem withoutBase_ten (s : Text) : withoutBase 10 s = s := by
  rw [withoutBase.eq_def]
  split
  · rw [if_neg]
    simp [namesBase]
  · rfl

/-- What is read of digits behind a sign. -/
theorem readDigits_ofNat (n : Nat) :
    digitRun 10 (withoutBase 10 (ofNat n)) = ((ofNat n).map fun c => c.toNat - 48, []) := by
  rw [withoutBase_ten, digitRun_digits (all_isAsciiDigit_ofNat n)]

theorem dropWhile_ofNat (n : Nat) : (ofNat n).dropWhile isNumberSpace = ofNat n := by
  obtain ⟨c, rest, hcons⟩ := List.exists_cons_of_ne_nil (ofNat_ne_nil n)
  have hc : isAsciiDigit c = true := isAsciiDigit_of_mem_ofNat (n := n) (by simp [hcons])
  rw [hcons, List.dropWhile_cons_of_neg (by simp [not_numberSpace_of_isAsciiDigit hc])]

/-- Decimal notation is read back, unless it has too many digits. -/
theorem readInteger_ofInt (i : Int) : readInteger 10 (ofInt i) =
    if digitLimit < (ofNat i.natAbs).length then .error (.tooLong (ofNat i.natAbs).length)
    else .ok i := by
  have hempty : ((ofNat i.natAbs).map fun c => c.toNat - 48).isEmpty = false := by
    simp [ofNat_ne_nil]
  have hvalue : ((ofNat i.natAbs).map fun c => c.toNat - 48).foldl (fun n d => 10 * n + d) 0 =
      i.natAbs := valueOf_ofNat i.natAbs
  rw [readInteger]
  split
  rename_i isNegative s hsign
  obtain ⟨rfl, rfl, hvalue'⟩ : isNegative = decide (i < 0) ∧ s = ofNat i.natAbs ∧
      (if i < 0 then -(i.natAbs : Int) else i.natAbs) = i := by
    by_cases hneg : i < 0
    · rw [ofInt, if_pos hneg, List.dropWhile_cons_of_neg (by decide)] at hsign
      obtain ⟨rfl, rfl⟩ := Prod.mk.inj hsign
      refine ⟨by simp [hneg], rfl, ?_⟩
      rw [if_pos hneg]
      omega
    · rw [ofInt, if_neg hneg, dropWhile_ofNat] at hsign
      obtain ⟨c, rest, hcons⟩ := List.exists_cons_of_ne_nil (ofNat_ne_nil i.natAbs)
      have hc : isAsciiDigit c = true := isAsciiDigit_of_mem_ofNat (n := i.natAbs) (by simp [hcons])
      have hresult : isNegative = false ∧ s = ofNat i.natAbs := by
        split at hsign
        · rename_i hminus
          rw [hcons] at hminus
          rw [(List.cons.inj hminus).1] at hc
          exact absurd hc (by decide)
        · rename_i hplus
          rw [hcons] at hplus
          rw [(List.cons.inj hplus).1] at hc
          exact absurd hc (by decide)
        · obtain ⟨rfl, rfl⟩ := Prod.mk.inj hsign
          exact ⟨rfl, rfl⟩
      obtain ⟨rfl, rfl⟩ := hresult
      refine ⟨by simp [hneg], rfl, ?_⟩
      rw [if_neg hneg]
      omega
  simp only [readDigits_ofNat, List.length_map, hempty, hvalue, List.all_nil, Bool.not_true,
    Bool.or_false, decide_true, Bool.true_and, decide_eq_true_eq, hvalue', Bool.false_eq_true,
    if_false]

theorem integer?_ofInt {i : Int} (h : (ofNat i.natAbs).length ≤ digitLimit) :
    integer? (ofInt i) = some i := by
  rw [integer?, map_numeralChar_ofInt, readInteger_ofInt, if_neg (by omega)]
  rfl

theorem integer?_ofInt_of_long {i : Int} (h : digitLimit < (ofNat i.natAbs).length) :
    integer? (ofInt i) = none := by
  rw [integer?, map_numeralChar_ofInt, readInteger_ofInt, if_pos h]
  rfl

end DocScaffold.Text
