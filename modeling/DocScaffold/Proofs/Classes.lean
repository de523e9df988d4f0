import DocScaffold.Proofs.Commenting
import DocScaffold.Proofs.Finding
import DocScaffold.Proofs.Segments

/-!
# Declarations by their classes

A class is told by the tokens of a declaration, and a reader of enums sees the same tokens behind the
comments that it takes out of a line (`shapes_uncommented`). So whatever is read of a declaration that no
trait and no union leads, the declaration has a class under which it is read
(`kindOf?_complete`).
-/

namespace DocScaffold

open Text

namespace Token

theorem findKeyword_outline (word : Text) (ts : List Token) :
    findKeyword word (ts.map outline) = findKeyword word ts := by
  fun_induction findKeyword word ts with
  | case1 t u rest hfirst =>
    rw [List.map_cons, List.map_cons, findKeyword, outline_isIdent, outline_kind, if_pos hfirst]
  | case2 t u rest hfirst ih =>
    rw [List.map_cons] at ih
    rw [List.map_cons, List.map_cons, findKeyword, outline_isIdent, outline_kind, if_neg hfirst, ih]
  | case3 ts hnot =>
    cases ts with
    | nil => rfl
    | cons t rest =>
      cases rest with
      | nil => rfl
      | cons u rest => exact absurd rfl (hnot t u rest)

end Token

namespace Item

variable {s : Text}

/-! ## The comments of one line -/

/-- The tokens of a line without its comments are the same, at other places. -/
theorem Enum.shapes_uncommented (h : Over Inline s) :
    (uncommented s).tokens.map Token.shape = s.tokens.map Token.shape := by
  have hfeed : '\n' ∉ s := fun hmem => absurd (h _ hmem) (by decide)
  rw [uncommented_of_one h, shapes_trim, tokens_beforeLineComment hfeed]

theorem Enum.findKeyword_uncommented (h : Over Inline s) (word : Text) :
    Token.findKeyword word (uncommented s).tokens = Token.findKeyword word s.tokens := by
  rw [← Token.findKeyword_outline, Token.outlines_of_shape_eq (shapes_uncommented h),
    Token.findKeyword_outline]

/-! ## What is found of an item that is read -/

theorem Function.isSome_locate? {f : Function} (h : parse? s = some f) :
    (locate? s.tokens).isSome = true := by
  simp only [parse?, Option.bind_eq_bind, Option.bind_eq_some_iff] at h
  obtain ⟨p, hp, -⟩ := h
  rw [hp, Option.isSome_some]

theorem Struct.isSome_findKeyword {t : Struct} (h : parse? s = some t) :
    (Token.findKeyword Keyword.struct.text s.tokens).isSome = true := by
  simp only [parse?, Option.bind_eq_bind, Option.bind_eq_some_iff] at h
  obtain ⟨i, hi, -⟩ := h
  rw [hi, Option.isSome_some]

theorem Enum.isSome_findKeyword {e : Enum} (hline : Over Inline s) (h : parse? s = some e) :
    (Token.findKeyword Keyword.enum.text s.tokens).isSome = true := by
  simp only [parse?, Option.bind_eq_bind, Option.bind_eq_some_iff] at h
  obtain ⟨i, hi, -⟩ := h
  rw [← findKeyword_uncommented hline, hi, Option.isSome_some]

/-- A function is located exactly where a `fn` has a name, and a parenthesis behind its generic list. -/
theorem Function.isSome_locate?_iff (ts : List Token) :
    (locate? ts).isSome = true ↔ ∃ i, Leads .function ts i := by
  constructor
  · intro h
    obtain ⟨⟨i, opened⟩, hp⟩ := Option.isSome_iff_exists.1 h
    obtain ⟨hbegins, hskip, opener, hopener, hround⟩ := spec_of_locate? hp
    exact ⟨i, hbegins, opened, opener, hskip, hopener, hround⟩
  · rintro ⟨i, hbegins, opened, opener, hskip, hopener, hround⟩
    rw [beginsAt] at hbegins
    split at hbegins
    · rename_i keyword name hkeyword hname
      have hi : locateAt? ts i = some (i, opened) :=
        locateAt?_eq_some_iff.2
          ⟨rfl, keyword, name, opener, hkeyword, hname, hopener, hbegins, hskip, hround⟩
      have hmem : i ∈ List.range (ts.length - 2) := by
        have hle := Token.le_of_skipAngles hskip
        have hlt := (List.getElem?_eq_some_iff.1 hopener).1
        rw [List.mem_range]
        omega
      have hlocate : locate? ts = (List.range (ts.length - 2)).findSome? (locateAt? ts) := rfl
      rw [hlocate, List.findSome?_isSome_iff]
      exact ⟨i, hmem, by rw [hi, Option.isSome_some]⟩
    · exact absurd hbegins (by decide)

/-! ## Leading keywords -/

/-- A keyword leads a declaration when it is the first item keyword, with modifiers and nothing else in
front. -/
def IsLedBy (s : Text) (k : Keyword) : Prop :=
  ∃ m lead t rest, s.tokens = lead ++ t :: rest ∧
    (∀ u ∈ lead, ∀ other : Keyword, u.isIdent other.text = false) ∧ t.isIdent k.text = true ∧
    Modifiers.Writes s m lead

theorem leadingKeyword?_eq_some_iff {k : Keyword} : leadingKeyword? s = some k ↔ IsLedBy s k := by
  constructor
  · intro h
    have hleading := h
    rw [leadingKeyword?] at h
    simp only [Option.bind_eq_bind, Option.bind_eq_some_iff] at h
    obtain ⟨i, hi, -⟩ := h
    obtain ⟨t, rest, hsplit, -, hsome, hnone⟩ := Keyword.split_findIdx? hi
    obtain ⟨other, hother⟩ := Option.isSome_iff_exists.1 hsome
    generalize s.tokens.take i = lead at hsplit hnone
    rw [leadingKeyword?_eq hsplit hnone hother, Option.ite_none_right_eq_some] at hleading
    obtain ⟨hbefore, hk⟩ := hleading
    obtain rfl := Option.some.inj hk
    obtain ⟨m, hm⟩ : ∃ m, Modifiers.before s s.tokens lead.length = (m, 0) :=
      ⟨_, Prod.ext rfl hbefore⟩
    rw [Modifiers.before_eq_iff, hsplit, List.take_left] at hm
    exact ⟨m, lead, t, rest, hsplit, fun u hu => not_isIdent_of_ofToken? (hnone u hu),
      isIdent_of_ofToken? hother, hm⟩
  · rintro ⟨m, lead, t, rest, hsplit, hnone, ht, hm⟩
    have hbefore : Modifiers.before s s.tokens lead.length = (m, 0) := by
      rw [Modifiers.before_eq_iff, hsplit, List.take_left]
      exact hm
    rw [leadingKeyword?_eq hsplit (fun u hu => Keyword.ofToken?_eq_none (hnone u hu))
      (Keyword.ofToken?_of_isIdent ht), hbefore, if_pos rfl]

/-! ## Classes -/

/-- Unless a trait or a union leads, a class is the first kind that is found. -/
theorem kindOf?_eq (h : ∀ k, IsLedBy s k → k.isUnsupported = false) :
    kindOf? s =
      if (Function.locate? s.tokens).isSome then some .function
      else if (Token.findKeyword Keyword.struct.text s.tokens).isSome then some .struct
      else if (Token.findKeyword Keyword.enum.text s.tokens).isSome then some .enum
      else none := by
  have hclass : Class.of s =
      if (Function.locate? s.tokens).isSome then .documented .function
      else if (Token.findKeyword Keyword.struct.text s.tokens).isSome then .documented .struct
      else if (Token.findKeyword Keyword.enum.text s.tokens).isSome then .documented .enum
      else .unsupported none := by
    rw [Class.of]
    split
    · rename_i htrait
      exact absurd (h _ (leadingKeyword?_eq_some_iff.1 htrait)) (by decide)
    · rename_i hunion
      exact absurd (h _ (leadingKeyword?_eq_some_iff.1 hunion)) (by decide)
    · rfl
  rw [kindOf?, hclass]
  split_ifs <;> rfl

/-- Whatever is read of a declaration on one line that no trait and no union leads, the declaration has a
class: a function is classed as one, and nothing but a function stands in the way of a struct. Functions
are the declarations in which one begins, wherever that is. -/
theorem kindOf?_complete (hline : Over Inline s) (hlead : ∀ k, IsLedBy s k → k.isUnsupported = false) :
    (∀ f, Function.parse? s = some f → kindOf? s = some .function) ∧
      (∀ t, Struct.parse? s = some t → kindOf? s = some .function ∨ kindOf? s = some .struct) ∧
      (∀ e, Enum.parse? s = some e → kindOf? s ≠ none) ∧
      (kindOf? s = some .function ↔ (Function.locate? s.tokens).isSome = true) ∧
      ((Function.locate? s.tokens).isSome = true ↔ ∃ i, Leads .function s.tokens i) := by
  rw [kindOf?_eq hlead]
  refine ⟨fun f hf => ?_, fun t ht => ?_, fun e he => ?_, ?_, Function.isSome_locate?_iff s.tokens⟩
  · rw [if_pos (Function.isSome_locate? hf)]
  · rw [if_pos (Struct.isSome_findKeyword ht)]
    split
    · exact .inl rfl
    · exact .inr rfl
  · rw [if_pos (Enum.isSome_findKeyword hline he)]
    split_ifs <;> simp
  · split_ifs with hlocate <;> simp [hlocate]

/-- An enum, a struct and a function on one line, and a trait in the comment behind them. -/
def mixedLine : Text :=
  "  pub enum Sign \x7b Plus, Minus \x7d struct Pair(u8, u8); fn go<T>(at: [u8; 2]) // trait"

theorem kindOf?_complete_mixed :
    (∃ f, Function.parse? mixedLine = some f) ∧ (∃ t, Struct.parse? mixedLine = some t) ∧
      (∃ e, Enum.parse? mixedLine = some e) ∧ kindOf? mixedLine = some .function ∧
      ∃ i, Leads .function mixedLine.tokens i := by
  have hline : Over Inline mixedLine := by
    apply over_inline
    -- The characters of the literal, which the kernel is slow to decode.
    unfold mixedLine
    rw [String.toList_ofList]
    decide +kernel
  have hparts : leadingKeyword? mixedLine = some .enum ∧ (Function.parse? mixedLine).isSome = true ∧
      (Struct.parse? mixedLine).isSome = true ∧ (Enum.parse? mixedLine).isSome = true := by
    unfold mixedLine
    rw [String.toList_ofList]
    decide +kernel
  obtain ⟨hleading, hfunction, hstruct, henum⟩ := hparts
  have hlead : ∀ k, IsLedBy mixedLine k → k.isUnsupported = false := by
    intro k hk
    rw [← leadingKeyword?_eq_some_iff, hleading] at hk
    obtain rfl := Option.some.inj hk
    rfl
  obtain ⟨hread, -, -, hlocate, hplace⟩ := kindOf?_complete hline hlead
  obtain ⟨f, hf⟩ := Option.isSome_iff_exists.1 hfunction
  have hkind := hread f hf
  exact ⟨⟨f, hf⟩, Option.isSome_iff_exists.1 hstruct, Option.isSome_iff_exists.1 henum, hkind,
    hplace.1 (hlocate.1 hkind)⟩

end Item

end DocScaffold
