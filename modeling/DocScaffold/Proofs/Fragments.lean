import DocScaffold.Item.Enum
import DocScaffold.Item.Function
import DocScaffold.Proofs.Joining
import DocScaffold.Text.Digit

/-!
# What a declaration is read into

Every text that is read from a declaration is put together from its characters: what does not stand in
the declaration stands in no name, no type and no payload (`Function.texts_subset`,
`Struct.mem_of_mem_texts`, `Enum.texts_subset`). Besides them only the places of tuple fields and the
single spaces of variants are written.
-/

namespace DocScaffold

open Text

/-! ## Parts of a text -/

namespace Text

theorem slice_subset (s : Text) (start stop : Nat) : slice s start stop ⊆ s :=
  List.Subset.trans (List.take_subset _ _) (List.drop_subset _ _)

theorem trimStart_subset (s : Text) : trimStart s ⊆ s := List.dropWhile_subset _

theorem trimEnd_subset (s : Text) : trimEnd s ⊆ s := by
  intro c hc
  rw [trimEnd, List.mem_reverse] at hc
  exact List.mem_reverse.1 (List.dropWhile_subset _ hc)

theorem trim_subset (s : Text) : trim s ⊆ s :=
  List.Subset.trans (trimEnd_subset _) (trimStart_subset s)

theorem word_subset {s w : Text} (h : w ∈ words s) : w ⊆ s := by
  induction s generalizing w with
  | nil => simp [words] at h
  | cons c rest ih =>
    have hrest : ∀ v ∈ words rest, v ⊆ c :: rest := fun v hv =>
      List.subset_cons_of_subset c (ih hv)
    cases hc : isBlank c with
    | true =>
      rw [words_blank hc] at h
      exact hrest w h
    | false =>
      by_cases hnext : ∀ d ∈ rest.head?, isBlank d = true
      · rw [words_alone hc hnext] at h
        rcases List.mem_cons.1 h with rfl | h
        · simp
        · exact hrest w h
      · obtain ⟨d, more, rfl⟩ : ∃ d more, rest = d :: more := by
          cases rest with
          | nil => simp at hnext
          | cons d more => exact ⟨d, more, rfl⟩
        have hd : isBlank d = false := by simpa using hnext
        obtain ⟨v, vs, hwords⟩ := List.exists_cons_of_ne_nil (words_ne_nil hd (s := more))
        rw [words_longer hc hd hwords] at h
        rw [hwords] at hrest
        rcases List.mem_cons.1 h with rfl | h
        · exact List.cons_subset.2 ⟨by simp, hrest v (by simp)⟩
        · exact hrest w (by simp [h])

theorem collapse_subset (s : Text) : collapse s ⊆ ' ' :: s := by
  intro c hc
  rcases mem_intercalate hc with hc | ⟨w, hw, hc⟩
  · exact List.mem_cons.2 (.inl (List.mem_singleton.1 hc))
  · exact List.mem_cons_of_mem _ (word_subset hw hc)

theorem line_subset {s l : Text} (h : l ∈ lines s) : l ⊆ s := by
  fun_induction lines s generalizing l with
  | case1 => simp at h
  | case2 rest ih =>
    rcases List.mem_cons.1 h with rfl | h
    · simp
    · exact List.subset_cons_of_subset _ (List.subset_cons_of_subset _ (ih h))
  | case3 c rest _ _ ih =>
    rcases List.mem_cons.1 h with rfl | h
    · simp
    · exact List.subset_cons_of_subset _ (ih h)
  | case4 c rest _ _ hnil ih =>
    obtain rfl : l = [c] := by simpa using h
    simp
  | case5 c rest _ _ first more hlines ih =>
    rw [hlines] at ih
    rcases List.mem_cons.1 h with rfl | h
    · exact List.cons_subset.2 ⟨by simp, List.subset_cons_of_subset _ (ih (by simp))⟩
    · exact List.subset_cons_of_subset _ (ih (by simp [h]))

/-! ## Numbers -/

theorem isAsciiDigit_of_mem_ofNat {n : Nat} {c : Char} (h : c ∈ Text.ofNat n) :
    isAsciiDigit c = true := by
  have hdigit : c.isDigit = true := Nat.isDigit_of_mem_toDigits (by decide) (by decide) h
  exact hdigit

theorem isWord_of_isAsciiDigit {c : Char} (h : isAsciiDigit c = true) : isWord c = true := by
  have hlt : c.toNat < 128 := by
    rw [isAsciiDigit, Bool.and_eq_true, decide_eq_true_eq, decide_eq_true_eq] at h
    exact Nat.lt_of_le_of_lt (UInt32.le_iff_toNat_le.1 h.2) (by decide)
  rw [isAsciiDigit] at h
  rw [isWord, if_pos hlt, h, Bool.or_true]

theorem isWord_ofNat {n : Nat} {c : Char} (h : c ∈ Text.ofNat n) : isWord c = true :=
  isWord_of_isAsciiDigit (isAsciiDigit_of_mem_ofNat h)

/-! ## Lexemes and tokens -/

theorem lexeme_subset {s : Text} {l : Lexeme} (h : l ∈ lexemes s) : l.text ⊆ s := by
  intro c hc
  rw [← flatMap_text_lexemes s]
  exact List.mem_flatMap.2 ⟨l, h, hc⟩

theorem exists_lexeme_of_mem_tokensFrom {offset : Nat} {ls : List Lexeme} {t : Token}
    (h : t ∈ Lexeme.tokensFrom offset ls) : ∃ l ∈ ls, l.text = t.value := by
  induction ls generalizing offset with
  | nil => simp [Lexeme.tokensFrom] at h
  | cons l ls ih =>
    have hrest : ∀ n, t ∈ Lexeme.tokensFrom n ls → ∃ m ∈ l :: ls, m.text = t.value := by
      intro n hmem
      obtain ⟨m, hm, htext⟩ := ih hmem
      exact ⟨m, by simp [hm], htext⟩
    unfold Lexeme.tokensFrom at h
    dsimp only at h
    split at h
    · rcases List.mem_cons.1 h with rfl | h
      · exact ⟨l, by simp, rfl⟩
      · exact hrest _ h
    · exact hrest _ h

theorem value_subset {s : Text} {t : Token} (h : t ∈ tokens s) : t.value ⊆ s := by
  obtain ⟨l, hl, hvalue⟩ := exists_lexeme_of_mem_tokensFrom h
  rw [← hvalue]
  exact lexeme_subset hl

theorem beforeLineComment_subset (s : Text) : s.beforeLineComment ⊆ s := by
  intro c hc
  obtain ⟨l, hl, hc⟩ := List.mem_flatMap.1 hc
  exact lexeme_subset (List.takeWhile_subset _ hl) hc

theorem bodyText_subset {s body : Text} {ts : List Token} {i : Nat}
    (h : Token.bodyText s ts i = some body) : body ⊆ s := by
  rw [Token.bodyText] at h
  simp only [Option.bind_eq_bind, Option.bind_eq_some_iff, Option.pure_def, Option.some.injEq] at h
  obtain ⟨opener, -, close, -, closer, -, rfl⟩ := h
  exact slice_subset _ _ _

/-! ## Entries -/

theorem piece_subset {s p : Text} {depth : Int} {start : Nat} {ts : List Token}
    (h : p ∈ piecesFrom s depth start ts) : p ⊆ s := by
  induction ts generalizing depth start with
  | nil =>
    obtain rfl : p = s.drop start := by simpa [piecesFrom] using h
    exact List.drop_subset _ _
  | cons t ts ih =>
    rw [piecesFrom] at h
    split at h
    · exact ih h
    · split at h
      · exact ih h
      · split at h
        · rcases List.mem_cons.1 h with rfl | h
          · exact slice_subset _ _ _
          · exact ih h
        · exact ih h

theorem entry_subset {s p : Text} (h : p ∈ entries s) : p ⊆ s := by
  rw [entries, List.mem_filter, List.mem_map] at h
  obtain ⟨⟨piece, hpiece, rfl⟩, -⟩ := h
  exact List.Subset.trans (trim_subset _) (piece_subset hpiece)

theorem withoutAttributes_subset (s : Text) : s.withoutAttributes ⊆ s := by
  fun_induction withoutAttributes s with
  | case1 s h => exact trim_subset s
  | case2 s n h _ ih => exact List.Subset.trans ih (List.drop_subset _ _)

theorem withoutVisibility_subset (s : Text) : s.withoutVisibility ⊆ s := by
  rw [withoutVisibility]
  split
  · exact List.Subset.trans (trim_subset _) (List.drop_subset _ _)
  · exact trim_subset s

end Text

namespace Item

/-! ## Members -/

/-- The texts that a template shows of a member. -/
def Member.texts (m : Member) : List Text := [m.name, m.type]

theorem Member.texts_subset {entry u : Text} (h : u ∈ (Member.ofEntry entry).texts) : u ⊆ entry := by
  have hname : (Member.ofEntry entry).name ⊆ entry :=
    List.Subset.trans (trim_subset _) (List.takeWhile_subset _)
  have htype : (Member.ofEntry entry).type ⊆ entry :=
    List.Subset.trans (trim_subset _)
      (List.Subset.trans (List.drop_subset _ _) (List.dropWhile_subset _))
  simp only [Member.texts, List.mem_cons, List.not_mem_nil, or_false] at h
  rcases h with rfl | rfl
  · exact hname
  · exact htype

/-! ## Functions -/

/-- The texts that a template shows of a function. -/
def Function.texts (f : Function) : List Text :=
  f.name :: (f.parameters.flatMap Member.texts ++ f.returnType.toList)

theorem Function.parameter_subset {arguments u : Text} {m : Member}
    (hm : m ∈ Function.parametersOf arguments) (hu : u ∈ m.texts) : u ⊆ arguments := by
  obtain ⟨entry, hentry, rfl⟩ := List.mem_map.1 hm
  obtain ⟨piece, hpiece, rfl⟩ := List.mem_map.1 (List.mem_filter.1 hentry).1
  exact List.Subset.trans (Member.texts_subset hu)
    (List.Subset.trans (withoutAttributes_subset _) (entry_subset hpiece))

theorem Function.returnType_subset {s type : Text} {ts : List Token}
    (h : Function.returnTypeOf s ts = some type) : type ⊆ s := by
  cases ts with
  | nil => simp [Function.returnTypeOf] at h
  | cons t rest =>
    rw [Function.returnTypeOf] at h
    split at h
    · dsimp only at h
      split at h
      · simp at h
      · rw [← Option.some.inj h]
        exact List.Subset.trans (trim_subset _) (slice_subset _ _ _)
    · simp at h

theorem Function.texts_subset {s u : Text} {f : Function} (h : Function.parse? s = some f)
    (hu : u ∈ f.texts) : u ⊆ s := by
  rw [Function.parse?] at h
  simp only [Option.bind_eq_bind, Option.bind_eq_some_iff, Option.pure_def, Option.some.injEq] at h
  obtain ⟨⟨keyword, opened⟩, -, name, hname, close, -, arguments, harguments, rfl⟩ := h
  rw [Function.texts, List.mem_cons, List.mem_append, List.mem_flatMap, Option.mem_toList] at hu
  rcases hu with rfl | ⟨m, hm, hu⟩ | hu
  · exact value_subset (List.mem_of_getElem? hname)
  · exact List.Subset.trans (Function.parameter_subset hm hu) (bodyText_subset harguments)
  · exact Function.returnType_subset hu

/-! ## Structs -/

/-- The texts that a template shows of a struct. -/
def Struct.texts (t : Struct) : List Text := t.name :: t.fields.flatMap Member.texts

theorem Struct.namedField_subset {body u : Text} {m : Member} (hm : m ∈ Struct.namedFields body)
    (hu : u ∈ m.texts) : u ⊆ body := by
  obtain ⟨entry, hentry, rfl⟩ := List.mem_map.1 (List.mem_filter.1 hm).1
  exact List.Subset.trans (Member.texts_subset hu) (List.Subset.trans (withoutVisibility_subset _)
    (List.Subset.trans (withoutAttributes_subset _) (entry_subset hentry)))

theorem Struct.mem_of_mem_tupleField {body u : Text} {m : Member} {c : Char}
    (hm : m ∈ Struct.tupleFields body) (hu : u ∈ m.texts) (hc : c ∈ u) :
    c ∈ body ∨ isWord c = true := by
  obtain ⟨i, hi, rfl⟩ := List.mem_mapIdx.1 hm
  simp only [Member.texts, List.mem_cons, List.not_mem_nil, or_false] at hu
  rcases hu with rfl | rfl
  · right
    rcases List.mem_append.1 hc with hc | hc
    · exact List.all_eq_true.1 (by decide : "field_".toList.all isWord = true) c hc
    · exact isWord_ofNat hc
  · left
    have htype := List.getElem_mem hi
    obtain ⟨entry, hentry, hsame⟩ := List.mem_map.1 (List.mem_filter.1 htype).1
    rw [← hsame] at hc
    exact entry_subset hentry (withoutAttributes_subset _ (withoutVisibility_subset _ hc))

theorem Struct.mem_of_mem_texts {s u : Text} {t : Struct} {c : Char} (h : Struct.parse? s = some t)
    (hu : u ∈ t.texts) (hc : c ∈ u) : c ∈ s ∨ isWord c = true := by
  rw [Struct.parse?] at h
  simp only [Option.bind_eq_bind, Option.bind_eq_some_iff, Option.pure_def] at h
  obtain ⟨keyword, -, name, hname, i, -, opener, -, h⟩ := h
  have hvalue : name.value ⊆ s := value_subset (List.mem_of_getElem? hname)
  split at h
  · obtain ⟨body, hbody, h⟩ := Option.bind_eq_some_iff.1 h
    rw [← Option.some.inj h, Struct.texts, List.mem_cons, List.mem_flatMap] at hu
    rcases hu with rfl | ⟨m, hm, hu⟩
    · exact .inl (hvalue hc)
    · exact (Struct.mem_of_mem_tupleField hm hu hc).imp_left fun hmem => bodyText_subset hbody hmem
  · split at h
    · obtain ⟨body, hbody, h⟩ := Option.bind_eq_some_iff.1 h
      split at h
      · simp at h
      · rw [← Option.some.inj h, Struct.texts, List.mem_cons, List.mem_flatMap] at hu
        rcases hu with rfl | ⟨m, hm, hu⟩
        · exact .inl (hvalue hc)
        · exact .inl (bodyText_subset hbody (Struct.namedField_subset hm hu hc))
    · simp at h

/-! ## Enums -/

/-- The texts that a payload holds. -/
def Payload.texts : Payload → List Text
  | .unit | .unknown => []
  | .tuple types => types
  | .struct fields => fields

/-- The texts that a template shows of a variant. -/
def Variant.texts (v : Variant) : List Text := v.name :: v.raw :: v.payload.texts

/-- The texts that a template shows of an enum. -/
def Enum.texts (e : Enum) : List Text := e.name :: e.variants.flatMap Variant.texts

theorem Variant.enclosed?_subset {opener closer : Char} {s inner : Text}
    (h : Variant.enclosed? opener closer s = some inner) : inner ⊆ s := by
  cases s with
  | nil => simp [Variant.enclosed?] at h
  | cons c rest =>
    rw [Variant.enclosed?] at h
    split at h
    · rw [← Option.some.inj h]
      exact List.subset_cons_of_subset _ (List.dropLast_subset _)
    · simp at h

theorem Variant.texts_subset {entry u : Text} (hu : u ∈ (Variant.ofEntry entry).texts) :
    u ⊆ ' ' :: entry := by
  have hraw : entry.withoutAttributes.collapse ⊆ ' ' :: entry :=
    List.Subset.trans (collapse_subset _)
      (List.cons_subset_cons _ (withoutAttributes_subset entry))
  have hname : entry.withoutAttributes.collapse.takeWhile isWord ⊆ ' ' :: entry :=
    List.Subset.trans (List.takeWhile_subset _) hraw
  have hpayload : trimStart (entry.withoutAttributes.collapse.dropWhile isWord) ⊆ ' ' :: entry :=
    List.Subset.trans (trimStart_subset _) (List.Subset.trans (List.dropWhile_subset _) hraw)
  rw [Variant.ofEntry] at hu
  generalize entry.withoutAttributes.collapse = raw at hu hraw hname hpayload
  dsimp only at hu
  split at hu
  · rcases List.mem_cons.1 hu with rfl | hu
    · exact hraw
    · obtain rfl : u = raw := by simpa [Payload.texts] using hu
      exact hraw
  · split at hu
    · rcases List.mem_cons.1 hu with rfl | hu
      · exact hname
      · obtain rfl : u = raw := by simpa [Payload.texts] using hu
        exact hraw
    · split at hu
      · rename_i types htypes
        simp only [Variant.texts, Payload.texts, List.mem_cons, List.mem_map] at hu
        rcases hu with rfl | rfl | ⟨part, hpart, rfl⟩
        · exact hname
        · exact hraw
        · exact List.Subset.trans (withoutVisibility_subset _) (List.Subset.trans (entry_subset hpart)
            (List.Subset.trans (Variant.enclosed?_subset htypes) hpayload))
      · rename_i fields _ hfields
        simp only [Variant.texts, Payload.texts, List.mem_cons, List.mem_map] at hu
        rcases hu with rfl | rfl | ⟨part, hpart, rfl⟩
        · exact hname
        · exact hraw
        · have hfield : Variant.fieldOf part ⊆ part :=
            List.Subset.trans (Member.texts_subset (by simp [Member.texts, Variant.fieldOf]))
              (List.Subset.trans (withoutVisibility_subset _) (withoutAttributes_subset _))
          exact List.Subset.trans hfield (List.Subset.trans (entry_subset hpart)
            (List.Subset.trans (Variant.enclosed?_subset hfields) hpayload))
      · rcases List.mem_cons.1 hu with rfl | hu
        · exact hraw
        · obtain rfl : u = raw := by simpa [Payload.texts] using hu
          exact hraw

theorem Enum.texts_subset {s u : Text} {e : Enum} (h : Enum.parse? s = some e) (hu : u ∈ e.texts) :
    u ⊆ ' ' :: Enum.uncommented s := by
  rw [Enum.parse?] at h
  simp only [Option.bind_eq_bind, Option.bind_eq_some_iff, Option.pure_def] at h
  obtain ⟨keyword, -, name, hname, i, -, body, hbody, h⟩ := h
  split at h
  · simp at h
  · rw [← Option.some.inj h, Enum.texts, List.mem_cons, List.mem_flatMap] at hu
    rcases hu with rfl | ⟨v, hv, hu⟩
    · exact List.subset_cons_of_subset _ (value_subset (List.mem_of_getElem? hname))
    · obtain ⟨entry, hentry, rfl⟩ := List.mem_map.1 (List.mem_filter.1 hv).1
      exact List.Subset.trans (Variant.texts_subset hu) (List.cons_subset_cons _
        (List.Subset.trans (entry_subset hentry) (bodyText_subset hbody)))

theorem Enum.exists_of_mem_defaultVariant {e : Enum} {c : Char} (h : c ∈ e.defaultVariant) :
    ∃ u ∈ e.texts, c ∈ u := by
  rw [Enum.defaultVariant] at h
  split at h
  · rename_i v rest hvariants
    refine ⟨v.raw, ?_, List.takeWhile_subset _ (trim_subset _ h)⟩
    simp [Enum.texts, Variant.texts, hvariants]
  · simp at h

/-- Lines are joined by line feeds when their comments are taken out. -/
theorem Enum.uncommented_subset (s : Text) : Enum.uncommented s ⊆ '\n' :: s := by
  intro c hc
  rcases mem_intercalate (trim_subset _ hc) with hc | ⟨l, hl, hc⟩
  · exact List.mem_cons.2 (.inl (List.mem_singleton.1 hc))
  · obtain ⟨line, hline, rfl⟩ := List.mem_map.1 hl
    exact List.mem_cons_of_mem _ (line_subset hline (beforeLineComment_subset _ hc))

end Item

end DocScaffold
