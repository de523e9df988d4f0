import DocScaffold.Json.Encoding
import DocScaffold.Json.Printer
import DocScaffold.Proofs.Decoding
import DocScaffold.Proofs.Numerals

/-!
# JSON read back

Values of texts and integers are read back from their text (`read_text`), and from its bytes
(`readBytes_text`), as long as their integers keep to the limit on digits and their collections to the
limit on nesting.
-/

namespace DocScaffold.Json

open Text

/-! ## Strings -/

theorem hexValue?_digitChar {d : Nat} (h : d < 16) : hexValue? d.digitChar = some d := by
  revert d
  decide

theorem hex_control {n : Nat} (h : n < 0x20) :
    hex 4 n = ['0', '0', (n / 16).digitChar, (n % 16).digitChar] := by
  revert n
  decide

theorem readUnits_bind (u : Nat) (s : Text) :
    (do let (units, rest) ← readUnits s; return (u :: units, rest)) =
      (readUnits s).map fun p => (u :: p.1, p.2) := by
  cases readUnits s <;> rfl

/-- Every character is read back from the way in which it is written. -/
theorem readUnits_writtenChar (c : Char) (more : Text) : readUnits (writtenChar c ++ more) =
    (readUnits more).map fun p => (c.toNat :: p.1, p.2) := by
  rw [writtenChar]
  split
  · rename_i h
    rw [Bool.or_eq_true, beq_iff_eq, beq_iff_eq] at h
    rcases h with rfl | rfl
    · exact readUnits_bind 0x22 more
    · exact readUnits_bind 0x5C more
  · rename_i h
    rw [Bool.or_eq_true, beq_iff_eq, beq_iff_eq, not_or] at h
    split
    · rename_i hcontrol
      have hhigh := hexValue?_digitChar (d := c.toNat / 16) (by omega)
      have hlow := hexValue?_digitChar (d := c.toNat % 16) (by omega)
      rw [hex_control hcontrol]
      simp only [List.cons_append, List.nil_append]
      have hzero : hexValue? '0' = some 0 := by decide
      have hvalue : ((0 * 16 + 0) * 16 + c.toNat / 16) * 16 + c.toNat % 16 = c.toNat := by omega
      rw [readUnits, hzero, hhigh, hlow]
      dsimp only
      rw [hvalue]
      exact readUnits_bind c.toNat more
    · rename_i hgraphic
      rw [List.singleton_append, readUnits.eq_def]
      split
      · simp_all
      · simp_all
      · simp_all
      · simp_all
      · rename_i d rest _ _ _ heq
        obtain ⟨rfl, rfl⟩ := List.cons.inj heq
        rw [if_neg (by simp [hgraphic, h.2])]
        exact readUnits_bind c.toNat _

theorem readUnits_written (s rest : Text) :
    readUnits (s.flatMap writtenChar ++ '"' :: rest) = .ok (s.map Char.toNat, rest) := by
  induction s with
  | nil => rfl
  | cons c s ih =>
    rw [List.flatMap_cons, List.append_assoc, readUnits_writtenChar, ih]
    rfl

/-- No character is half of a surrogate pair. -/
theorem not_surrogate (c : Char) : isHigh c.toNat = false ∧ isLow c.toNat = false := by
  have hvalid : c.toNat < 0xD800 ∨ 0xDFFF < c.toNat ∧ c.toNat < 0x110000 := c.valid
  rw [isHigh, isLow]
  refine ⟨?_, ?_⟩ <;> rw [Bool.eq_false_iff, Ne, Bool.and_eq_true, decide_eq_true_eq,
    decide_eq_true_eq] <;> omega

theorem paired?_toNat (s : Text) : paired? (s.map Char.toNat) = some s := by
  induction s with
  | nil => rfl
  | cons c s ih =>
    obtain ⟨hhigh, hlow⟩ := not_surrogate c
    cases s with
    | nil => simp [paired?, hhigh, hlow, Char.ofNat_toNat]
    | cons d s =>
      rw [List.map_cons] at ih
      rw [List.map_cons, List.map_cons, paired?, hhigh, hlow, ih, Char.ofNat_toNat]
      rfl

theorem readValue_quote (nesting fuel : Nat) (more : Text) :
    readValue nesting (fuel + 1) ('"' :: more) = (do
      let (units, rest) ← readUnits more
      return (match paired? units with | some t => .string t | none => .brokenString, rest)) := rfl

theorem readValue_string (nesting fuel : Nat) (s rest : Text) :
    readValue nesting (fuel + 1) (writtenString s ++ rest) = .ok (.string s, rest) := by
  have htext : writtenString s ++ rest = '"' :: (s.flatMap writtenChar ++ '"' :: rest) := by
    simp [writtenString]
  rw [htext, readValue_quote, readUnits_written]
  simp only [bind, Except.bind, pure, Except.pure, paired?_toNat]

/-! ## Integers -/

/-- Whether a text can stand behind a value, since no number goes on in it. -/
def Follows (rest : Text) : Prop :=
  ∀ c ∈ rest.head?, isAsciiDigit c = false ∧ c ≠ '.' ∧ c ≠ 'e' ∧ c ≠ 'E'

theorem readFraction_of_follows {rest : Text} (h : Follows rest) : readFraction rest = ([], rest) := by
  cases rest with
  | nil => rfl
  | cons c rest =>
    rw [readFraction.eq_2]
    rintro more heq
    exact (h c rfl).2.1 (List.cons.inj heq).1

theorem readExponent_of_follows {rest : Text} (h : Follows rest) : readExponent rest = (none, rest) := by
  cases rest with
  | nil => rfl
  | cons c rest =>
    obtain ⟨-, -, hsmall, hcapital⟩ := h c rfl
    rw [readExponent.eq_def]
    dsimp only
    rw [if_neg (by simp [hsmall, hcapital])]

/-- Decimal notation is read up to its end, unless it has too many digits. -/
theorem readNumber_ofNat (isNegative : Bool) (n : Nat) {rest : Text} (h : Follows rest) :
    readNumber isNegative (ofNat n ++ rest) =
      if digitLimit < (ofNat n).length then .error .tooManyDigits
      else .ok (.integer (if isNegative then -n else n), rest) := by
  have hdigits : (ofNat n ++ rest).takeWhile isAsciiDigit = ofNat n :=
    takeWhile_append_of_head (fun c hc => isAsciiDigit_of_mem_ofNat hc) fun c hc => (h c hc).1
  have hzero : ∀ more, ofNat n ++ rest = '0' :: more → n = 0 := by
    intro more heq
    obtain ⟨c, w, hcons⟩ := List.exists_cons_of_ne_nil (ofNat_ne_nil n)
    apply eq_zero_of_head?_ofNat
    rw [hcons, List.cons_append, List.cons.injEq] at heq
    rw [hcons, heq.1]
    rfl
  have hempty : (ofNat n).isEmpty = false := by simp [ofNat_ne_nil]
  -- A zero in front is read by itself.
  by_cases hn : n = 0
  · subst hn
    have hone : ofNat 0 ++ rest = '0' :: rest := rfl
    rw [hone, readNumber.eq_1]
    simp only [List.length_singleton, List.drop_succ_cons, List.drop_zero, List.isEmpty_cons,
      Bool.false_eq_true, if_false, readFraction_of_follows h, readExponent_of_follows h,
      List.isEmpty_nil, Option.isNone_none, Bool.and_self, if_true]
    rfl
  · rw [readNumber.eq_2 _ _ fun more heq => hn (hzero more heq)]
    simp only [hdigits, hempty, Bool.false_eq_true, if_false, List.drop_left,
      readFraction_of_follows h, readExponent_of_follows h, List.isEmpty_nil, Option.isNone_none,
      Bool.and_self, if_true, asciiNumber_ofNat]

/-- What begins with a digit is no literal, with or without a sign. -/
theorem findSome?_literals {c : Char} (h : isAsciiDigit c = true) (more : Text) :
    (literals.findSome? fun p => readWord p.1 p.2 (c :: more)) = none ∧
      (literals.findSome? fun p => readWord p.1 p.2 ('-' :: c :: more)) = none := by
  have hne : ∀ d, isAsciiDigit d = false → d ≠ c := by
    rintro d hd rfl
    rw [h] at hd
    exact absurd hd (by decide)
  have hwords : ∀ p ∈ literals, p.1.isPrefixOf (c :: more) = false ∧
      p.1.isPrefixOf ('-' :: c :: more) = false := by
    simp [literals, List.isPrefixOf, hne 'n' (by decide), hne 't' (by decide), hne 'f' (by decide),
      hne 'N' (by decide), hne 'I' (by decide), hne '-' (by decide)]
  constructor <;> refine List.findSome?_eq_none_iff.2 fun p hp => ?_ <;> rw [readWord, if_neg]
  · simp [(hwords p hp).1]
  · simp [(hwords p hp).2]

theorem readValue_number {nesting fuel : Nat} {c : Char} {more : Text} (hspace : isSpace c = false)
    (hquote : c ≠ '"') (hbracket : c ≠ '[') (hbrace : c ≠ '{')
    (hliteral : (literals.findSome? fun p => readWord p.1 p.2 (c :: more)) = none) :
    readValue nesting (fuel + 1) (c :: more) =
      match c :: more with
      | '-' :: rest => readNumber true rest
      | s => readNumber false s := by
  have hskip : skipSpace (c :: more) = c :: more := List.dropWhile_cons_of_neg (by simp [hspace])
  rw [readValue.eq_def]
  simp only [hskip]
  split
  · simp_all
  · simp_all
  · simp_all
  · rw [hliteral]
    rfl

/-- An integer is read off the front of a text, unless it has too many digits. -/
theorem readValue_integer (nesting fuel : Nat) (i : Int) {rest : Text} (h : Follows rest) :
    readValue nesting (fuel + 1) (ofInt i ++ rest) =
      if digitLimit < (ofNat i.natAbs).length then .error .tooManyDigits
      else .ok (.integer i, rest) := by
  obtain ⟨c, w, hcons⟩ := List.exists_cons_of_ne_nil (ofNat_ne_nil i.natAbs)
  have hc : isAsciiDigit c = true := isAsciiDigit_of_mem_ofNat (n := i.natAbs) (by simp [hcons])
  have hne : ∀ d, isAsciiDigit d = false → c ≠ d := by
    rintro d hd rfl
    rw [hc] at hd
    exact absurd hd (by decide)
  have hspace : isSpace c = false := by
    simp [isSpace, hne ' ' (by decide), hne '\t' (by decide), hne '\n' (by decide),
      hne '\r' (by decide)]
  obtain ⟨hdigit, hminus⟩ := findSome?_literals hc (w ++ rest)
  by_cases hneg : i < 0
  · have htext : ofInt i ++ rest = '-' :: c :: (w ++ rest) := by rw [ofInt, if_pos hneg, hcons]; rfl
    rw [htext, readValue_number (by decide) (by decide) (by decide) (by decide) hminus]
    change readNumber true (c :: (w ++ rest)) = _
    have hvalue : -(i.natAbs : Int) = i := by omega
    rw [← List.cons_append, ← hcons, readNumber_ofNat true _ h, if_pos rfl, hvalue]
  · have htext : ofInt i ++ rest = c :: (w ++ rest) := by rw [ofInt, if_neg hneg, hcons]; rfl
    rw [htext, readValue_number hspace (hne _ (by decide)) (hne _ (by decide)) (hne _ (by decide))
      hdigit]
    split
    · rename_i heq
      exact absurd (List.cons.inj heq).1 (hne _ (by decide))
    · have hvalue : (i.natAbs : Int) = i := by omega
      rw [← List.cons_append, ← hcons, readNumber_ofNat false _ h]
      simp only [Bool.false_eq_true, if_false, hvalue]

/-! ## Collections -/

/-- A value that is read back as it is, with collections in one another at most `nesting` deep. -/
inductive Exact : Nat → Json → Prop
  | null {nesting : Nat} : Exact nesting .null
  | bool {nesting : Nat} (value : Bool) : Exact nesting (.bool value)
  | integer {nesting : Nat} {value : Int} (limit : (ofNat value.natAbs).length ≤ digitLimit) :
    Exact nesting (.integer value)
  | string {nesting : Nat} (value : Text) : Exact nesting (.string value)
  | array {nesting : Nat} {items : List Json} (items_exact : ∀ item ∈ items, Exact nesting item) :
    Exact (nesting + 1) (.array items)
  | object {nesting : Nat} {members : List (Text × Json)}
    (members_exact : ∀ m ∈ members, Exact nesting m.2) : Exact (nesting + 1) (.object members)

theorem follows_mark {c : Char} (h : c ∈ [',', ']', '}']) (rest : Text) : Follows (c :: rest) := by
  intro d hd
  obtain rfl : c = d := by simpa using hd
  simp only [List.mem_cons, List.not_mem_nil, or_false] at h
  rcases h with rfl | rfl | rfl <;> decide

/-- The first character of a value is neither blank nor a mark that ends a collection. -/
theorem exists_head_text {nesting : Nat} {v : Json} (h : Exact nesting v) :
    ∃ c more, v.text = c :: more ∧ isSpace c = false ∧ c ≠ ']' ∧ c ≠ '}' := by
  cases h with
  | null => exact ⟨_, _, rfl, by decide, by decide, by decide⟩
  | bool value => cases value <;> exact ⟨_, _, rfl, by decide, by decide, by decide⟩
  | @integer _ value limit =>
    obtain ⟨c, w, hcons⟩ := List.exists_cons_of_ne_nil (ofNat_ne_nil value.natAbs)
    have hc : isAsciiDigit c = true := isAsciiDigit_of_mem_ofNat (n := value.natAbs) (by simp [hcons])
    have hbounds := toNat_of_isAsciiDigit hc
    rw [text, ofInt]
    split
    · exact ⟨_, _, rfl, by decide, by decide, by decide⟩
    · refine ⟨c, w, hcons, ?_, ?_, ?_⟩
      · simp only [isSpace, Bool.or_eq_false_iff, beq_eq_false_iff_ne]
        refine ⟨⟨⟨?_, ?_⟩, ?_⟩, ?_⟩ <;> rintro rfl <;> exact absurd hc (by decide)
      · rintro rfl
        exact absurd hc (by decide)
      · rintro rfl
        exact absurd hc (by decide)
  | string value => exact ⟨_, _, rfl, by decide, by decide, by decide⟩
  | array => exact ⟨_, _, rfl, by decide, by decide, by decide⟩
  | object => exact ⟨_, _, rfl, by decide, by decide, by decide⟩

/-- Whether a value is read off the front of every text that it can stand in. -/
def Reads (nesting : Nat) (v : Json) : Prop :=
  ∀ fuel rest, v.text.length < fuel → Follows rest →
    readValue nesting fuel (v.text ++ rest) = .ok (v, rest)

theorem readItems_last {nesting fuel : Nat} {s rest : Text} {item : Json}
    (h : readValue nesting fuel s = .ok (item, ']' :: rest)) :
    readItems nesting (fuel + 1) s = .ok ([item], rest) := by
  rw [readItems, h]
  rfl

theorem readItems_more {nesting fuel : Nat} {s more rest : Text} {item : Json} {items : List Json}
    (h : readValue nesting fuel s = .ok (item, ',' :: more))
    (hmore : readItems nesting fuel more = .ok (items, rest)) :
    readItems nesting (fuel + 1) s = .ok (item :: items, rest) := by
  rw [readItems, h]
  change (readItems nesting fuel more >>= _) = _
  rw [hmore]
  rfl

theorem readItems_text {nesting : Nat} {items : List Json} (hne : items ≠ [])
    (hitems : ∀ item ∈ items, Reads nesting item) {fuel : Nat}
    (hfuel : (List.intercalate [','] (itemTexts items)).length + 1 < fuel) (rest : Text) :
    readItems nesting fuel (List.intercalate [','] (itemTexts items) ++ ']' :: rest) =
      .ok (items, rest) := by
  obtain ⟨fuel, rfl⟩ : ∃ k, fuel = k + 1 := ⟨fuel - 1, by omega⟩
  induction items generalizing fuel with
  | nil => exact absurd rfl hne
  | cons item items ih =>
    have hitem := hitems item (by simp)
    cases items with
    | nil =>
      simp only [itemTexts, List.intercalate_singleton] at hfuel ⊢
      exact readItems_last (hitem fuel _ (by omega) (follows_mark (by simp) rest))
    | cons next items =>
      simp only [itemTexts, List.intercalate_cons_cons, List.append_assoc, List.length_append,
        List.length_cons, List.cons_append] at hfuel ⊢
      refine readItems_more (hitem fuel _ (by omega) (follows_mark (by simp) _)) ?_
      obtain ⟨fuel, rfl⟩ : ∃ k, fuel = k + 1 := ⟨fuel - 1, by omega⟩
      exact ih (by simp) (fun i hi => hitems i (by simp [hi])) fuel (by
        simp only [itemTexts]
        omega)

theorem readMembers_name {nesting fuel : Nat} (name s : Text) :
    readMembers nesting (fuel + 1) (writtenString name ++ ':' :: s) = (do
      let (value, rest) ← readValue nesting fuel s
      match skipSpace rest with
      | ',' :: rest =>
        let (members, rest) ← readMembers nesting fuel rest
        return ((name, value) :: members, rest)
      | '}' :: rest => return ([(name, value)], rest)
      | _ => .error .malformed) := by
  have htext : writtenString name ++ ':' :: s =
      '"' :: (name.flatMap writtenChar ++ '"' :: ':' :: s) := by simp [writtenString]
  rw [htext, readMembers]
  change (readUnits (name.flatMap writtenChar ++ '"' :: ':' :: s) >>= _) = _
  rw [readUnits_written]
  change (readValue nesting fuel s >>= _) = _
  rw [paired?_toNat]
  rfl

theorem readMembers_last {nesting fuel : Nat} {name s rest : Text} {value : Json}
    (h : readValue nesting fuel s = .ok (value, '}' :: rest)) :
    readMembers nesting (fuel + 1) (writtenString name ++ ':' :: s) = .ok ([(name, value)], rest) := by
  rw [readMembers_name, h]
  rfl

theorem readMembers_more {nesting fuel : Nat} {name s more : Text} {value : Json}
    (h : readValue nesting fuel s = .ok (value, ',' :: more)) :
    readMembers nesting (fuel + 1) (writtenString name ++ ':' :: s) =
      (readMembers nesting fuel more).map fun p => ((name, value) :: p.1, p.2) := by
  rw [readMembers_name, h]
  change (do
    let (members, rest) ← readMembers nesting fuel more
    return ((name, value) :: members, rest)) = _
  cases readMembers nesting fuel more <;> rfl

theorem readMembers_of_error {nesting fuel : Nat} {name s : Text} {e : ReadError}
    (h : readValue nesting fuel s = .error e) :
    readMembers nesting (fuel + 1) (writtenString name ++ ':' :: s) = .error e := by
  rw [readMembers_name, h]
  rfl

theorem readMembers_text {nesting : Nat} {members : List (Text × Json)} (hne : members ≠ [])
    (hmembers : ∀ m ∈ members, Reads nesting m.2) {fuel : Nat}
    (hfuel : (List.intercalate [','] (memberTexts members)).length + 1 < fuel) (rest : Text) :
    readMembers nesting fuel (List.intercalate [','] (memberTexts members) ++ '}' :: rest) =
      .ok (members, rest) := by
  obtain ⟨fuel, rfl⟩ : ∃ k, fuel = k + 1 := ⟨fuel - 1, by omega⟩
  induction members generalizing fuel with
  | nil => exact absurd rfl hne
  | cons m members ih =>
    obtain ⟨name, value⟩ := m
    have hvalue : Reads nesting value := hmembers (name, value) (by simp)
    cases members with
    | nil =>
      simp only [memberTexts, List.intercalate_singleton, List.append_assoc, List.cons_append,
        List.length_append, List.length_cons] at hfuel ⊢
      exact readMembers_last (hvalue fuel _ (by omega) (follows_mark (by simp) rest))
    | cons next members =>
      obtain ⟨nextName, nextValue⟩ := next
      simp only [memberTexts, List.intercalate_cons_cons, List.append_assoc, List.length_append,
        List.length_cons, List.cons_append] at hfuel ⊢
      rw [readMembers_more (hvalue fuel _ (by omega) (follows_mark (by simp) _))]
      obtain ⟨fuel, rfl⟩ : ∃ k, fuel = k + 1 := ⟨fuel - 1, by omega⟩
      have hmore := ih (by simp) (fun m hm => hmembers m (by simp [hm])) fuel (by
        simp only [memberTexts]
        omega)
      simp only [memberTexts] at hmore
      rw [List.nil_append, hmore]
      rfl

/-- An integer with too many digits behind members that are read ends the reading. -/
theorem readMembers_of_long {nesting : Nat} {front more : List (Text × Json)} {name : Text} {i : Int}
    (hfront : ∀ m ∈ front, Reads nesting m.2) (h : digitLimit < (ofNat i.natAbs).length) {fuel : Nat}
    (hfuel : (List.intercalate [','] (memberTexts (front ++ (name, .integer i) :: more))).length + 1 <
      fuel) (rest : Text) :
    readMembers nesting fuel (List.intercalate [','] (memberTexts (front ++ (name, .integer i) :: more)) ++
      '}' :: rest) = .error .tooManyDigits := by
  obtain ⟨fuel, rfl⟩ : ∃ k, fuel = k + 1 := ⟨fuel - 1, by omega⟩
  induction front generalizing fuel with
  | nil =>
    obtain ⟨fuel, rfl⟩ : ∃ k, fuel = k + 1 := ⟨fuel - 1, by omega⟩
    cases more with
    | nil =>
      simp only [List.nil_append, memberTexts, List.intercalate_singleton, List.append_assoc,
        List.cons_append]
      exact readMembers_of_error ((readValue_integer _ _ i (follows_mark (by simp) rest)).trans
        (if_pos h))
    | cons next more =>
      simp only [List.nil_append, memberTexts, List.intercalate_cons_cons, List.append_assoc,
        List.cons_append]
      exact readMembers_of_error ((readValue_integer _ _ i (follows_mark (by simp) _)).trans
        (if_pos h))
  | cons m front ih =>
    obtain ⟨first, value⟩ := m
    have hvalue : Reads nesting value := hfront (first, value) (by simp)
    obtain ⟨last, lasts, hcons⟩ : ∃ last lasts,
        memberTexts (front ++ (name, .integer i) :: more) = last :: lasts := by
      cases front <;> exact ⟨_, _, rfl⟩
    simp only [List.cons_append, memberTexts, hcons, List.intercalate_cons_cons, List.append_assoc,
      List.length_append, List.length_cons] at hfuel ih ⊢
    rw [readMembers_more (hvalue fuel _ (by omega) (follows_mark (by simp) _))]
    obtain ⟨fuel, rfl⟩ : ∃ k, fuel = k + 1 := ⟨fuel - 1, by omega⟩
    rw [List.nil_append, ih (fun m hm => hfront m (by simp [hm])) fuel (by omega)]
    rfl

/-! ## Values -/

theorem readValue_array (nesting fuel : Nat) {c : Char} (more : Text) (hspace : isSpace c = false)
    (hclose : c ≠ ']') : readValue (nesting + 1) (fuel + 1) ('[' :: c :: more) =
      (readItems nesting fuel (c :: more)).map fun p => (.array p.1, p.2) := by
  have hskip : skipSpace (c :: more) = c :: more := List.dropWhile_cons_of_neg (by simp [hspace])
  have hopen : skipSpace ('[' :: c :: more) = '[' :: c :: more := rfl
  rw [readValue.eq_def]
  simp only [hopen, hskip]
  split
  · exact absurd ‹_› (by simp)
  · rename_i heq _
    exact absurd (List.cons.inj heq).1 hclose
  · rename_i heq _
    obtain rfl := Nat.succ.inj heq
    cases readItems nesting fuel (c :: more) <;> rfl

theorem readValue_object (nesting fuel : Nat) {c : Char} (more : Text) (hspace : isSpace c = false)
    (hclose : c ≠ '}') : readValue (nesting + 1) (fuel + 1) ('{' :: c :: more) =
      (readMembers nesting fuel (c :: more)).map fun p => (.object p.1, p.2) := by
  have hskip : skipSpace (c :: more) = c :: more := List.dropWhile_cons_of_neg (by simp [hspace])
  have hopen : skipSpace ('{' :: c :: more) = '{' :: c :: more := rfl
  rw [readValue.eq_def]
  simp only [hopen, hskip]
  split
  · exact absurd ‹_› (by simp)
  · rename_i heq _
    exact absurd (List.cons.inj heq).1 hclose
  · rename_i heq _
    obtain rfl := Nat.succ.inj heq
    cases readMembers nesting fuel (c :: more) <;> rfl

/-- An object with members begins with the name of the first. -/
theorem exists_members_text {members : List (Text × Json)} (h : members ≠ []) (rest : Text) :
    ∃ more, List.intercalate [','] (memberTexts members) ++ '}' :: rest = '"' :: more := by
  obtain ⟨⟨name, value⟩, members, rfl⟩ := List.exists_cons_of_ne_nil h
  cases members <;> simp [memberTexts, writtenString]

/-- An array with items begins as the first of them does. -/
theorem exists_items_text {nesting : Nat} {item : Json} (items : List Json)
    (h : Exact nesting item) (rest : Text) :
    ∃ c more, List.intercalate [','] (itemTexts (item :: items)) ++ ']' :: rest = c :: more ∧
      isSpace c = false ∧ c ≠ ']' := by
  obtain ⟨c, w, hhead, hspace, hclose, -⟩ := exists_head_text h
  cases items <;> simp [itemTexts, hhead, hspace, hclose]

theorem text_array (items : List Json) (rest : Text) : (array items).text ++ rest =
    '[' :: (List.intercalate [','] (itemTexts items) ++ ']' :: rest) := by
  simp [text]

theorem text_object (members : List (Text × Json)) (rest : Text) : (object members).text ++ rest =
    '{' :: (List.intercalate [','] (memberTexts members) ++ '}' :: rest) := by
  simp [text]

/-- What is read with enough fuel has some. -/
theorem Reads.of_succ {nesting : Nat} {v : Json}
    (h : ∀ fuel rest, v.text.length ≤ fuel → Follows rest →
      readValue nesting (fuel + 1) (v.text ++ rest) = .ok (v, rest)) : Reads nesting v := by
  intro fuel rest hfuel hrest
  obtain ⟨fuel, rfl⟩ : ∃ k, fuel = k + 1 := ⟨fuel - 1, by omega⟩
  exact h fuel rest (by omega) hrest

theorem reads_array {nesting : Nat} {items : List Json}
    (hexact : ∀ item ∈ items, Exact nesting item) (hitems : ∀ item ∈ items, Reads nesting item) :
    Reads (nesting + 1) (.array items) := by
  refine .of_succ fun fuel rest hfuel _ => ?_
  cases items with
  | nil => rfl
  | cons item items =>
    simp only [text, List.length_append, List.length_cons, List.length_nil] at hfuel
    have hread : readItems nesting fuel _ = _ :=
      readItems_text (List.cons_ne_nil item items) hitems (by omega) rest
    obtain ⟨c, more, hmore, hspace, hclose⟩ := exists_items_text items (hexact item (by simp)) rest
    rw [hmore] at hread
    rw [text_array, hmore, readValue_array _ _ _ hspace hclose, hread]
    rfl

theorem reads_object {nesting : Nat} {members : List (Text × Json)}
    (hmembers : ∀ m ∈ members, Reads nesting m.2) : Reads (nesting + 1) (.object members) := by
  refine .of_succ fun fuel rest hfuel _ => ?_
  cases members with
  | nil => rfl
  | cons m members =>
    simp only [text, List.length_append, List.length_cons, List.length_nil] at hfuel
    have hread : readMembers nesting fuel _ = _ :=
      readMembers_text (List.cons_ne_nil m members) hmembers (by omega) rest
    obtain ⟨more, hmore⟩ := exists_members_text (List.cons_ne_nil m members) rest
    rw [hmore] at hread
    rw [text_object, hmore, readValue_object _ _ _ (by decide) (by decide), hread]
    rfl

/-- A value is read off the front of its text. -/
theorem readValue_text {nesting : Nat} {v : Json} (h : Exact nesting v) : Reads nesting v := by
  induction h with
  | null => exact .of_succ fun _ _ _ _ => rfl
  | bool value => cases value <;> exact .of_succ fun _ _ _ _ => rfl
  | integer limit =>
    exact .of_succ fun fuel rest _ hrest =>
      (readValue_integer _ fuel _ hrest).trans (if_neg (by omega))
  | string value => exact .of_succ fun fuel rest _ _ => readValue_string _ fuel value rest
  | array items_exact ih => exact reads_array items_exact ih
  | object _ ih => exact reads_object ih

/-- The text of a value holds that value and nothing else. -/
theorem read_text {v : Json} (h : Exact nestingLimit v) : read v.text = .ok v := by
  have hvalue := readValue_text h (v.text.length + 1) [] (by omega) (by simp [Follows])
  rw [List.append_nil] at hvalue
  rw [read, hvalue]
  rfl

/-- No object is read with an integer of too many digits behind members that are read. -/
theorem read_of_long {front more : List (Text × Json)} {name : Text} {i : Int}
    (hfront : ∀ m ∈ front, Exact (nestingLimit - 1) m.2) (h : digitLimit < (ofNat i.natAbs).length) :
    read (object (front ++ (name, .integer i) :: more)).text = .error .tooManyDigits := by
  generalize hobject : front ++ (name, .integer i) :: more = members
  have hne : members ≠ [] := by simp [← hobject]
  have hmembers : readMembers (nestingLimit - 1) (object members).text.length
      (List.intercalate [','] (memberTexts members) ++ '}' :: []) = .error .tooManyDigits := by
    rw [← hobject]
    refine readMembers_of_long (fun m hm => readValue_text (hfront m hm)) h ?_ []
    simp [text]
  obtain ⟨rest, hrest⟩ := exists_members_text hne []
  have htext := text_object members []
  rw [List.append_nil, hrest] at htext
  rw [hrest] at hmembers
  rw [read]
  generalize (object members).text.length = fuel at hmembers ⊢
  rw [htext]
  change (do
    let (value, rest) ← readValue (nestingLimit - 1 + 1) (fuel + 1) ('{' :: '"' :: rest)
    if (skipSpace rest).isEmpty then return value else .error .malformed) = _
  rw [readValue_object _ _ _ (by decide) (by decide), hmembers]
  rfl

/-! ## Bytes -/

/-- No NUL among the first two bytes tells UTF-8. -/
theorem encoding_of_nonzero {a b : UInt8} (ha : a ≠ 0) (hb : b ≠ 0) (rest : List UInt8) :
    Encoding.of (a :: b :: rest) = .utf8 := by
  rw [Encoding.of.eq_def]
  split
  · simp_all
  · simp_all
  · rfl

/-- The bytes of an object are read as its text. -/
theorem readBytes_object (members : List (Text × Json)) :
    readBytes (Utf8.encode (object members).text) = read (object members).text := by
  have hfront : ∃ b more, (object members).text = '{' :: b :: more ∧ (b = '"' ∨ b = '}') := by
    match members with
    | [] => exact ⟨_, _, rfl, .inr rfl⟩
    | [(name, value)] => exact ⟨'"', _, by simp [text, memberTexts, writtenString]; rfl, .inl rfl⟩
    | (name, value) :: m :: members =>
      exact ⟨'"', _, by simp [text, memberTexts, writtenString]; rfl, .inl rfl⟩
  obtain ⟨b, more, htext, hb⟩ := hfront
  have hencoding : Encoding.of (Utf8.encode (object members).text) = .utf8 := by
    have hbytes : Utf8.encode (object members).text =
        0x7B :: (String.utf8EncodeChar b ++ Utf8.encode more) := by rw [htext]; rfl
    rw [hbytes]
    rcases hb with rfl | rfl <;> exact encoding_of_nonzero (by decide) (by decide) _
  have hdecode : Encoding.utf8.decode? (Utf8.encode (object members).text) =
      some (object members).text := by
    rw [Encoding.decode?, Utf8.decode_encode, htext]
    rfl
  rw [readBytes, hencoding, hdecode]

/-- The bytes of an object hold that object. -/
theorem readBytes_text {members : List (Text × Json)} (h : Exact nestingLimit (.object members)) :
    readBytes (Utf8.encode (object members).text) = .ok (.object members) :=
  (readBytes_object members).trans (read_text h)

end DocScaffold.Json
