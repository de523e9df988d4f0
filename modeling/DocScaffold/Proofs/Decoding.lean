import DocScaffold.Text.Utf8

/-!
# Encoded texts

Every text is decoded from the bytes that it is encoded in (`decode_encode`).
-/

namespace DocScaffold.Utf8

/-- The decoder passes over the bytes of a sequence that it has read. -/
theorem decodeFrom_skip (position : Nat) (bytes rest : List UInt8) :
    decodeFrom position bytes.length (bytes ++ rest) =
      decodeFrom (position + bytes.length) 0 rest := by
  induction bytes generalizing position with
  | nil => rfl
  | cons b bytes ih =>
    rw [List.cons_append, List.length_cons, decodeFrom, ih]
    congr 1
    omega

theorem continuation_cons {taken count value lo hi : Nat} {b : UInt8} (rest : List UInt8)
    (h : lo ≤ b.toNat ∧ b.toNat ≤ hi) :
    continuation taken (count + 1) value lo hi (b :: rest) =
      continuation (taken + 1) count (value * 64 + (b.toNat - 0x80)) 0x80 0xBF rest := by
  rw [continuation, if_pos (by simpa using h)]

/-- The bytes of a character in one sequence. -/
structure Writes (c : Char) (lead : UInt8) (tail : List UInt8) (value lo hi : Nat) : Prop where
  lead : lead? lead = some (tail.length, value, lo, hi)
  tail : ∀ rest, continuation 1 tail.length value lo hi (tail ++ rest) = .ok c.toNat

theorem Writes.decodeFrom {c : Char} {lead : UInt8} {tail : List UInt8} {value lo hi : Nat}
    (h : Writes c lead tail value lo hi) (position : Nat) (rest : List UInt8) :
    decodeFrom position 0 (lead :: (tail ++ rest)) =
      (decodeFrom (position + 1 + tail.length) 0 rest).map (c :: ·) := by
  rw [Utf8.decodeFrom, h.lead]
  dsimp only
  rw [h.tail]
  dsimp only
  rw [decodeFrom_skip, Char.ofNat_toNat]
  cases Utf8.decodeFrom (position + 1 + tail.length) 0 rest <;> rfl

/-- The value of a byte that is written as a number. -/
theorem toNat_octet {n : Nat} (h : n < 256) : (UInt8.ofNat n).toNat = n :=
  UInt8.toNat_ofNat_of_lt h

theorem toNat_tail (n : Nat) : (UInt8.ofNat (n % 64 + 128)).toNat = n % 64 + 128 :=
  toNat_octet (by omega)

/-! ## Sequences by their length -/

section Lengths

variable {c : Char}

theorem writes_one (h : c.toNat ≤ 0x7F) : Writes c (UInt8.ofNat c.toNat) [] c.toNat 0 0 where
  lead := by
    rw [lead?, toNat_octet (by omega), if_pos (by omega)]
    rfl
  tail _ := rfl

theorem writes_two (hlow : 0x7F < c.toNat) (hhigh : c.toNat ≤ 0x7FF) :
    Writes c (UInt8.ofNat (c.toNat / 64 % 32 + 192)) [UInt8.ofNat (c.toNat % 64 + 128)]
      (c.toNat / 64 % 32) 0x80 0xBF where
  lead := by
    simp only [lead?, toNat_octet (n := c.toNat / 64 % 32 + 192) (by omega)]
    rw [if_neg (by omega), if_neg (by omega), if_pos (by omega), Nat.add_sub_cancel]
    rfl
  tail rest := by
    have htail := toNat_tail c.toNat
    rw [List.length_singleton, List.singleton_append, continuation_cons _ (by omega), continuation,
      htail]
    exact congrArg Except.ok (by omega)

/-- Three bytes write neither what two can write nor a surrogate. -/
theorem writes_three (hlow : 0x7FF < c.toNat) (hhigh : c.toNat ≤ 0xFFFF)
    (hvalid : c.toNat < 0xD800 ∨ 0xDFFF < c.toNat) :
    Writes c (UInt8.ofNat (c.toNat / 4096 % 16 + 224))
      [UInt8.ofNat (c.toNat / 64 % 64 + 128), UInt8.ofNat (c.toNat % 64 + 128)]
      (c.toNat / 4096 % 16) (if c.toNat / 4096 % 16 + 224 = 0xE0 then 0xA0 else 0x80)
      (if c.toNat / 4096 % 16 + 224 = 0xED then 0x9F else 0xBF) where
  lead := by
    simp only [lead?, toNat_octet (n := c.toNat / 4096 % 16 + 224) (by omega)]
    rw [if_neg (by omega), if_neg (by omega), if_neg (by omega), if_pos (by omega),
      Nat.add_sub_cancel]
    rfl
  tail rest := by
    have htail := toNat_tail c.toNat
    have hmiddle := toNat_tail (c.toNat / 64)
    rw [List.length_cons, List.length_singleton, List.cons_append, List.singleton_append,
      continuation_cons _ (by split <;> split <;> omega), continuation_cons _ (by omega),
      continuation, htail, hmiddle]
    exact congrArg Except.ok (by omega)

/-- Four bytes write neither what three can write nor more than the last character. -/
theorem writes_four (hlow : 0xFFFF < c.toNat) (hhigh : c.toNat < 0x110000) :
    Writes c (UInt8.ofNat (c.toNat / 262144 % 8 + 240))
      [UInt8.ofNat (c.toNat / 4096 % 64 + 128), UInt8.ofNat (c.toNat / 64 % 64 + 128),
        UInt8.ofNat (c.toNat % 64 + 128)]
      (c.toNat / 262144 % 8) (if c.toNat / 262144 % 8 + 240 = 0xF0 then 0x90 else 0x80)
      (if c.toNat / 262144 % 8 + 240 = 0xF4 then 0x8F else 0xBF) where
  lead := by
    simp only [lead?, toNat_octet (n := c.toNat / 262144 % 8 + 240) (by omega)]
    rw [if_neg (by omega), if_neg (by omega), if_neg (by omega), if_neg (by omega),
      if_pos (by omega), Nat.add_sub_cancel]
    rfl
  tail rest := by
    have htail := toNat_tail c.toNat
    have hmiddle := toNat_tail (c.toNat / 64)
    have hfirst := toNat_tail (c.toNat / 4096)
    rw [List.length_cons, List.length_cons, List.length_singleton, List.cons_append,
      List.cons_append, List.singleton_append,
      continuation_cons _ (by split <;> split <;> omega), continuation_cons _ (by omega),
      continuation_cons _ (by omega), continuation, htail, hmiddle, hfirst]
    exact congrArg Except.ok (by omega)

end Lengths

theorem exists_writes (c : Char) : ∃ lead tail value lo hi,
    String.utf8EncodeChar c = lead :: tail ∧ Writes c lead tail value lo hi := by
  have hvalid : c.toNat < 0xD800 ∨ 0xDFFF < c.toNat ∧ c.toNat < 0x110000 := c.valid
  have hvalue : c.val.toNat = c.toNat := rfl
  unfold String.utf8EncodeChar
  rw [hvalue]
  dsimp only
  split
  · exact ⟨_, _, _, _, _, rfl, writes_one (by omega)⟩
  split
  · exact ⟨_, _, _, _, _, rfl, writes_two (by omega) (by omega)⟩
  split
  · exact ⟨_, _, _, _, _, rfl, writes_three (by omega) (by omega) (by omega)⟩
  · exact ⟨_, _, _, _, _, rfl, writes_four (by omega) (by omega)⟩

/-! ## Texts -/

theorem decodeFrom_encode (position : Nat) (s : Text) : decodeFrom position 0 (encode s) = .ok s := by
  induction s generalizing position with
  | nil => rfl
  | cons c s ih =>
    obtain ⟨lead, tail, value, lo, hi, hbytes, hwrites⟩ := exists_writes c
    have hencode : encode (c :: s) = lead :: (tail ++ encode s) := by
      rw [encode, List.flatMap_cons, hbytes]
      rfl
    rw [hencode, hwrites.decodeFrom, ih]
    rfl

/-- Decoding undoes encoding. -/
theorem decode_encode (s : Text) : decode (encode s) = .ok s := decodeFrom_encode 0 s

end DocScaffold.Utf8
