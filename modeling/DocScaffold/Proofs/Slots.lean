import DocScaffold.Proofs.Agreement
import DocScaffold.Proofs.Drafting

/-!
# The slots of a template

A declaration without a dollar sign puts none into its template, so every slot of the text is one that
was handed out. Each is used once, and on a line behind the slots before it: from left to right the
numbers are 1, 2, … up to the number of slots (`slots_of_document`).
-/

namespace DocScaffold

open Text

namespace Text

/-! ## Slots in a text -/

/-- The number of the slot that a text opens behind its dollar sign. -/
def slotNumber? : Text → Option Nat
  | '\x7b' :: rest =>
    let digits := rest.takeWhile isAsciiDigit
    if digits ≠ [] ∧ (rest.dropWhile isAsciiDigit).head? = some ':' then
      some (Nat.ofDigitChars 10 digits 0)
    else none
  | _ => none

/-- The numbers of all slots from left to right. -/
def slots : Text → List Nat
  | [] => []
  | c :: rest => if c = '$' then (slotNumber? rest).toList ++ slots rest else slots rest

theorem slots_append_of_plain {a : Text} (ha : '$' ∉ a) (b : Text) : slots (a ++ b) = slots b := by
  induction a with
  | nil => rfl
  | cons c a ih =>
    rw [List.mem_cons, not_or] at ha
    rw [List.cons_append, slots, if_neg (Ne.symm ha.1), ih ha.2]

theorem slots_of_plain {a : Text} (ha : '$' ∉ a) : slots a = [] := by
  have h := slots_append_of_plain ha []
  rwa [List.append_nil] at h

/-- A slot is read back. -/
theorem slots_slotText {n : Nat} {shown : Text} (h : '$' ∉ shown) (rest : Text) :
    slots (Draft.slotText n shown ++ rest) = n :: slots rest := by
  have hdigits : ∀ c ∈ Text.ofNat n, isAsciiDigit c = true := fun _ => isAsciiDigit_of_mem_ofNat
  have hcolon : ∀ c ∈ (':' :: (shown ++ '\x7d' :: rest)).head?, isAsciiDigit c = false := by simp; decide
  have hnumber : slotNumber? ('\x7b' :: (Text.ofNat n ++ ':' :: (shown ++ '\x7d' :: rest))) =
      some n := by
    rw [slotNumber?, takeWhile_append_of_head hdigits hcolon, dropWhile_append_of_head hdigits hcolon]
    simp [Text.ofNat]
  have htext : Draft.slotText n shown ++ rest =
      '$' :: '\x7b' :: (Text.ofNat n ++ ':' :: (shown ++ '\x7d' :: rest)) := by
    have hint : Text.ofInt n = Text.ofNat n := by
      rw [Text.ofInt, if_neg (by omega), Int.natAbs_natCast]
    rw [Draft.slotText, hint]
    simp
  have hrest : slots ('\x7b' :: (Text.ofNat n ++ ':' :: (shown ++ '\x7d' :: rest))) = slots rest := by
    have hplain : '$' ∉ ('\x7b' :: (Text.ofNat n ++ ':' :: (shown ++ ['\x7d']))) := by
      have hnat : '$' ∉ Text.ofNat n := fun hmem => absurd (hdigits _ hmem) (by decide)
      simp [hnat, h]
    have happ := slots_append_of_plain hplain rest
    simpa using happ
  rw [htext, slots, if_pos rfl, hnumber, hrest]
  rfl

/-! ## Slots in lines -/

theorem isAsciiDigit_of_isLineBreak {c : Char} (h : isLineBreak c = true) :
    isAsciiDigit c = false := by
  cases hdigit : isAsciiDigit c with
  | false => rfl
  | true =>
    have hword := isBlank_of_isWord (isWord_of_isAsciiDigit hdigit)
    rw [isBlank_of_isLineBreak c h] at hword
    exact absurd hword (by decide)

theorem takeWhile_stop {p : Char → Bool} {c : Char} (hc : p c = false) (a b : Text) :
    (a ++ c :: b).takeWhile p = a.takeWhile p ∧
      (a ++ c :: b).dropWhile p = a.dropWhile p ++ c :: b := by
  induction a with
  | nil => simp [hc]
  | cons d a ih => cases hd : p d <;> simp [hd, ih]

/-- A slot does not run over the end of a line. -/
theorem slotNumber?_break {c : Char} (hc : isLineBreak c = true) (a b : Text) :
    slotNumber? (a ++ c :: b) = slotNumber? a := by
  have hne : ∀ d, isLineBreak d = false → c ≠ d := by
    rintro d hd rfl
    rw [hc] at hd
    exact absurd hd (by decide)
  by_cases hopen : ∃ rest, a = '\x7b' :: rest
  · obtain ⟨rest, rfl⟩ := hopen
    obtain ⟨htake, hdrop⟩ := takeWhile_stop (isAsciiDigit_of_isLineBreak hc) rest b
    have hhead : (rest.dropWhile isAsciiDigit ++ c :: b).head? = some ':' ↔
        (rest.dropWhile isAsciiDigit).head? = some ':' := by
      cases rest.dropWhile isAsciiDigit with
      | nil => simp [hne ':' (by decide)]
      | cons d ds => simp
    rw [List.cons_append, slotNumber?, slotNumber?, htake, hdrop]
    simp only [hhead]
  · have hnone : ∀ t : Text, t.head? ≠ some '\x7b' → slotNumber? t = none := by
      intro t ht
      unfold slotNumber?
      split
      · simp at ht
      · rfl
    cases a with
    | nil => rw [hnone _ (by simp [hne '\x7b' (by decide)]), hnone _ (by simp)]
    | cons d a =>
      have hd : d ≠ '\x7b' := by
        rintro rfl
        exact hopen ⟨a, rfl⟩
      rw [hnone _ (by simpa using hd), hnone _ (by simpa using hd)]

theorem slots_break {c : Char} (hc : isLineBreak c = true) (a b : Text) :
    slots (a ++ c :: b) = slots a ++ slots b := by
  have hdollar : c ≠ '$' := by
    rintro rfl
    exact absurd hc (by decide)
  induction a with
  | nil =>
    rw [List.nil_append, slots.eq_2, if_neg hdollar]
    rfl
  | cons d a ih =>
    rw [List.cons_append, slots, slots, slotNumber?_break hc, ih]
    split
    · rw [List.append_assoc]
    · rfl

theorem slots_intercalate (ls : List Text) :
    slots (List.intercalate ['\n'] ls) = ls.flatMap slots := by
  induction ls with
  | nil => rfl
  | cons l ls ih =>
    cases ls with
    | nil => simp
    | cons m ls =>
      rw [List.intercalate_cons_cons, List.append_assoc, List.singleton_append,
        slots_break (by decide), ih]
      rfl

theorem eq_nil_of_lines {s : Text} (h : lines s = []) : s = [] := by
  fun_cases lines s with
  | case1 => rfl
  | case2 rest => simp [lines] at h
  | case3 c rest _ hc => simp_all [lines]
  | case4 c rest _ _ hnil => simp_all [lines]
  | case5 c rest _ _ first more hlines => simp_all [lines]

/-- The first line ends with the text or at a line break. -/
theorem of_lines_eq_cons {s l : Text} {ls : List Text} (h : lines s = l :: ls) :
    s = l ∨ ∃ c b, isLineBreak c = true ∧ s = l ++ c :: b := by
  fun_induction lines s generalizing l ls with
  | case1 => simp at h
  | case2 rest ih =>
    obtain ⟨rfl, -⟩ := List.cons.inj h
    exact .inr ⟨'\r', '\n' :: rest, by decide, rfl⟩
  | case3 c rest _ hc ih =>
    obtain ⟨rfl, -⟩ := List.cons.inj h
    exact .inr ⟨c, rest, hc, rfl⟩
  | case4 c rest _ _ hnil ih =>
    obtain ⟨rfl, -⟩ := List.cons.inj h
    rw [eq_nil_of_lines hnil]
    exact .inl rfl
  | case5 c rest _ _ first more hlines ih =>
    obtain ⟨rfl, -⟩ := List.cons.inj h
    rcases ih hlines with rfl | ⟨d, b, hd, rfl⟩
    · exact .inl rfl
    · exact .inr ⟨d, b, hd, rfl⟩

theorem flatMap_slots_lines (s : Text) : (lines s).flatMap slots = slots s := by
  fun_induction lines s with
  | case1 => rfl
  | case2 rest ih =>
    rw [List.flatMap_cons, ih]
    rfl
  | case3 c rest _ hc ih =>
    have hbreak := slots_break hc [] rest
    rw [List.flatMap_cons, ih, ← hbreak]
    rfl
  | case4 c rest _ _ hnil ih =>
    rw [eq_nil_of_lines hnil]
    simp
  | case5 c rest _ _ first more hlines ih =>
    have hnumber : slotNumber? rest = slotNumber? first := by
      rcases of_lines_eq_cons hlines with rfl | ⟨d, b, hd, rfl⟩
      · rfl
      · exact slotNumber?_break hd first b
    rw [hlines, List.flatMap_cons] at ih
    rw [List.flatMap_cons, slots, slots, hnumber]
    split
    · rw [List.append_assoc, ih]
    · exact ih

end Text

theorem admits_plain : Admits (· ≠ '$') := by
  refine ⟨fun c hc => ?_⟩
  rintro rfl
  exact absurd hc (by decide)

namespace Draft

/-! ## Slots in a draft -/

theorem slots_render (d : Draft) : slots d.render = d.lines.flatMap slots := by
  have hslashes : ∀ l : Text, slots ("/// ".toList ++ l) = slots l := fun l =>
    slots_append_of_plain (by decide) l
  rw [render, slots_intercalate, List.flatMap_cons, List.flatMap_map, lines, List.flatMap_cons]
  simp only [hslashes]

theorem not_mem_of_over {s : Text} (h : Over (· ≠ '$') s) : '$' ∉ s := fun hmem => h _ hmem rfl

/-- The slots that a draft has handed out stand in its lines in order. -/
theorem Composed.slots_eq {d : Draft} {n : Nat} (hd : d.Composed (· ≠ '$') n) :
    d.lines.flatMap slots = List.range' 1 n := by
  induction hd with
  | new h =>
    have hslot := slots_slotText (n := 1) (not_mem_of_over h) []
    rw [List.append_nil] at hslot
    rw [lines, List.flatMap_cons, headLine, slots_append_of_plain (by decide)]
    exact congrArg (· ++ []) hslot
  | add hd h ih =>
    have hplain := List.flatMap_eq_nil_iff.2 fun l hl => slots_of_plain (not_mem_of_over (h l hl).chars)
    rw [lines_add, List.flatMap_append, ih, hplain, List.append_nil]
  | @slot d n front shown hd hfront hhead hshown ih =>
    have hslot : slots (slotText (n + 1 : Nat) shown ++ []) = [n + 1] :=
      slots_slotText (not_mem_of_over hshown) []
    have hplaced : (d.placeholder shown).1 = slotText (n + 1 : Nat) shown := by
      rw [← hd.nextSlot_eq]
      rfl
    have hlines : (d.placeholder shown).2.lines = d.lines := rfl
    rw [List.append_nil] at hslot
    rw [lines_add, List.flatMap_append, hlines, ih, hplaced, List.flatMap_singleton,
      slots_append_of_plain (not_mem_of_over hfront), hslot, List.range'_1_concat, Nat.add_comm 1 n]

/-- The module is the only slot of an example. -/
theorem slots_example {x : Example} {n : Nat} (hx : x.Sound (· ≠ '$')) :
    (x.lines (slotText n "...".toList)).flatMap slots = [n] := by
  have hcode : x.codeLines.flatMap slots = [] :=
    List.flatMap_eq_nil_iff.2 fun l hl => slots_of_plain (not_mem_of_over (hx.codeLine admits_plain hl).1)
  have hopening : slots x.openingFence = [] := by
    apply slots_of_plain
    unfold Example.openingFence
    split
    · split <;> decide
    · decide
  have hmodule : slots ("use crate::".toList ++ slotText n "...".toList ++ ";".toList) = [n] := by
    rw [List.append_assoc, slots_append_of_plain (by decide), slots_slotText (by decide)]
    rfl
  rw [Example.lines, flatMap_slots_lines, Example.text_eq, slots_intercalate, Example.blockLines]
  simp only [List.flatMap_append, List.flatMap_cons, List.flatMap_nil, hcode, hopening, hmodule]
  rfl

/-- An example takes one more slot, behind all others. -/
theorem Composed.slots_render {d : Draft} {n : Nat} {e : Option Example}
    (hd : d.Composed (· ≠ '$') n) (he : ∀ x ∈ e, x.Sound (· ≠ '$')) :
    slots (d.finish e).render = List.range' 1 (n + e.isSome.toNat) := by
  cases e with
  | none =>
    rw [finish, Draft.slots_render, hd.slots_eq]
    rfl
  | some x =>
    have hheading : (heading "Examples".toList).flatMap slots = [] := by decide
    rw [finish, Draft.slots_render, lines_addExample, List.flatMap_append, List.flatMap_append,
      hd.slots_eq, hheading, hd.nextSlot_eq, slots_example (he x rfl), List.nil_append,
      Option.isSome_some, Bool.toNat_true, List.range'_1_concat, Nat.add_comm 1 n]

end Draft

namespace Generator

/-- From left to right the slots of a template are numbered without a gap, and there are as many as the
parts of the declaration ask for. -/
theorem slots_of_document {g : Generator} {s text : Text} {o : Options} {kind : Item.Kind}
    (hs : '$' ∉ s) (h : g.document s o = .template kind text) :
    ∃ n, Item.slotCount? kind s o = some n ∧ slots text = List.range' 1 n := by
  obtain ⟨-, -, htext⟩ := document_eq_template.1 h
  have hover : Over (· ≠ '$') s := fun c hc heq => hs (heq ▸ hc)
  have huncommented : Over (· ≠ '$') (Item.Enum.uncommented s) := by
    intro c hc
    rcases List.mem_cons.1 (Item.Enum.uncommented_subset s hc) with rfl | hc
    · decide
    · exact hover c hc
  obtain ⟨d, n, e, hd, he, hcount, rfl⟩ := Item.exists_composed admits_plain hover huncommented htext
  exact ⟨n + e.isSome.toNat, hcount, hd.slots_render he⟩

def fetchSignature : Text := "pub unsafe fn fetch(url: &str, tries: u8) -> Result<u8, E>"

/-- The description, two parameters, the return value, the unsafe behaviour, the errors and the module
of the example. -/
theorem slots_of_document_fetch : '$' ∉ fetchSignature ∧ ∃ text,
    full.document fetchSignature {} = .template .function text ∧
    Item.slotCount? .function fetchSignature {} = some 7 ∧ slots text = [1, 2, 3, 4, 5, 6, 7] := by
  have hplain : '$' ∉ fetchSignature := by decide
  have hclass : Item.Class.of fetchSignature = .documented .function := by
    decide +kernel
  have hsome : (Item.template? .function fetchSignature {}).isSome = true := by
    decide +kernel
  have hcount : Item.slotCount? .function fetchSignature {} = some 7 := by
    decide +kernel
  obtain ⟨text, htext⟩ := Option.isSome_iff_exists.1 hsome
  have htemplate : full.document fetchSignature {} = .template .function text :=
    document_eq_template.2 ⟨hclass, rfl, htext⟩
  obtain ⟨n, hn, hslots⟩ := slots_of_document hplain htemplate
  obtain rfl : 7 = n := Option.some.inj (hcount.symm.trans hn)
  exact ⟨hplain, text, htemplate, hcount, hslots⟩

end Generator

end DocScaffold
