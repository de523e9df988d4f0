import Mathlib.Data.List.Induction
import DocScaffold.Item.Enum
import DocScaffold.Proofs.Reflowing
import DocScaffold.Proofs.Respacing

/-!
# Variants with other blanks between their lexemes

The shape of a variant is read off its characters: a word, and what stands between the first bracket and
the last one. Reflows of each other have the same shape, name and count of types or fields exactly as far
as `ofEntry_reflowed` says: `isHollow` and `isAdrift` name the two texts that a blank changes.
-/

namespace DocScaffold

open Text Lexeme

namespace Lexeme

/-! ## Words at the front of a lexeme -/

/-- The characters that end the word in front of a literal or a raw name. -/
def IsQuoting (s : Text) : Prop := ∃ c ∈ (s.dropWhile isWord).head?, c ∈ (['"', '\x27', '#'] : Text)

theorem isQuoting_cons {c : Char} (hword : isWord c = false) (hc : c ∈ (['"', '\x27', '#'] : Text))
    (s : Text) : IsQuoting (c :: s) :=
  ⟨c, by rw [List.dropWhile_cons_of_neg (by simp [hword])]; rfl, hc⟩

theorem IsQuoting.cons {c : Char} {s : Text} (hword : isWord c = true) (h : IsQuoting s) :
    IsQuoting (c :: s) := by
  rw [IsQuoting, List.dropWhile_cons_of_pos hword]
  exact h

theorem isQuoting_cutRawString {s a b : Text} (h : cutRawString s = some (a, b)) : IsQuoting a := by
  obtain ⟨hashes, rest, body, hhashes, -, -, rfl⟩ := cutRawString_eq_some h
  refine IsQuoting.cons (by decide) ?_
  cases hashes with
  | nil => exact isQuoting_cons (by decide) (by simp) _
  | cons c hashes =>
    obtain rfl : c = '#' := hhashes c (by simp)
    exact isQuoting_cons (by decide) (by simp) _

theorem isQuoting_cutString {s a b : Text} (h : cutString s = some (a, b)) : IsQuoting a := by
  obtain ⟨rest, body, -, -, rfl⟩ := cutString_eq_some h
  exact isQuoting_cons (by decide) (by simp) body

theorem isQuoting_cutChar {s a b : Text} (h : cutChar s = some (a, b)) : IsQuoting a := by
  obtain ⟨-, ⟨c, rfl⟩ | ⟨c, -, -, rfl⟩⟩ := cutChar_eq_some h
  · exact isQuoting_cons (by decide) (by simp) _
  · exact isQuoting_cons (by decide) (by simp) _

theorem isQuoting_cutLifetime {s a b : Text} (h : cutLifetime s = some (a, b)) : IsQuoting a := by
  obtain ⟨rest, name, -, -, rfl⟩ := cutLifetime_eq_some h
  exact isQuoting_cons (by decide) (by simp) name

theorem all_isWord_of_cutName {s a b : Text} (h : cutName s = some (a, b)) :
    a.all isWord = true := by
  obtain ⟨⟨c, w, rfl, hc, hw⟩, -⟩ := cutRun_eq_some h
  rw [List.all_cons, isWord_of_isNameStart c hc, Bool.true_and, List.all_eq_true]
  exact hw

/-- A name consists of word characters, but for the sign in a raw one. -/
theorem word_of_cutIdent {s a b : Text} (h : cutIdent s = some (a, b)) :
    a.all isWord = true ∨ IsQuoting a := by
  rcases cutIdent_eq_some h with ⟨rest, name, -, -, rfl⟩ | hname
  · exact .inr ((isQuoting_cons (by decide) (by simp) name).cons (by decide))
  · exact .inl (all_isWord_of_cutName hname)

theorem head_of_cutPunct {s a b : Text} (h : cutPunct s = some (a, b)) :
    ∀ c ∈ a.head?, isWord c = false := by
  obtain ⟨-, hsign | ⟨c, -, hc, rfl⟩⟩ := cutPunct_eq_some h
  · simp only [List.mem_cons, List.not_mem_nil, or_false] at hsign
    rcases hsign with rfl | rfl | rfl | rfl | rfl <;> simp <;> decide
  · simpa using hc

/-- What a lexeme begins with: no word, a word that is all of it and with which no other word runs
together, unless it is stray, or a word that a quote or a hash ends. -/
theorem word_cases {s rest : Text} {l : Lexeme} (h : first? s = some (l, rest)) :
    (∀ c ∈ l.text.head?, isWord c = false) ∨
      (l.text.all isWord = true ∧ (l.kind ≠ .stray → ∀ c ∈ rest.head?, isWord c = false)) ∨
        IsQuoting l.text := by
  have hslash : isWord '/' = false := by decide
  cases isFirst_of_first? h with
  | blank hcut =>
    obtain ⟨⟨c, w, rfl, hc, -⟩, -⟩ := cutRun_eq_some hcut
    exact .inl (by simpa using isWord_of_isBlank hc)
  | lineComment hcut =>
    obtain ⟨more, -, rfl, -⟩ := cutLineComment_eq_some hcut
    exact .inl (by simp [hslash])
  | blockComment hcut =>
    obtain ⟨more, body, -, -, rfl⟩ := cutBlockComment_eq_some hcut
    exact .inl (by simp [hslash])
  | rawString hcut =>
    exact .inr (.inr (of_cutByte (fun _ ha => ha.cons (by decide)) (fun _ _ _ => isQuoting_cutRawString) hcut))
  | string hcut =>
    exact .inr (.inr (of_cutByte (fun _ ha => ha.cons (by decide)) (fun _ _ _ => isQuoting_cutString) hcut))
  | char hcut =>
    exact .inr (.inr (of_cutByte (fun _ ha => ha.cons (by decide)) (fun _ _ _ => isQuoting_cutChar) hcut))
  | lifetime hcut => exact .inr (.inr (isQuoting_cutLifetime hcut))
  | ident hcut =>
    exact .inr ((word_of_cutIdent hcut).imp_left fun hword => ⟨hword, fun _ => (isWord_of_cutIdent hcut).2⟩)
  | number hcut =>
    obtain ⟨⟨c, w, rfl, -, hw⟩, hstop⟩ := cutRun_eq_some hcut
    cases hc : isWord c with
    | false => exact .inl (by simpa using hc)
    | true => exact .inr (.inl ⟨by simpa [hc] using hw, fun _ => hstop⟩)
  | punct hcut => exact .inl (head_of_cutPunct hcut)
  | stray _ =>
    obtain ⟨hword, -⟩ := spec_of_stray h rfl _ rfl
    exact .inr (.inl ⟨by simpa using hword, fun hkind => absurd rfl hkind⟩)

end Lexeme

namespace Text

/-! ## Single spaces -/

/-- Single spaces change no word in front, and leave behind it what they make of the rest. -/
theorem word_squeeze (s : Text) : s.squeeze.takeWhile isWord = s.takeWhile isWord ∧
    s.squeeze.dropWhile isWord = squeeze (s.dropWhile isWord) := by
  induction s with
  | nil => exact ⟨rfl, rfl⟩
  | cons c s ih =>
    cases hword : isWord c with
    | true =>
      rw [squeeze_cons (isBlank_of_isWord hword), List.takeWhile_cons_of_pos hword,
        List.takeWhile_cons_of_pos hword, List.dropWhile_cons_of_pos hword,
        List.dropWhile_cons_of_pos hword, ih.1]
      exact ⟨rfl, ih.2⟩
    | false =>
      obtain ⟨d, u, hd, hu⟩ : ∃ d u, isWord d = false ∧ squeeze (c :: s) = d :: u := by
        have hhead := head?_squeeze (c :: s)
        rw [List.head?_cons, Option.map_some, List.head?_eq_some_iff] at hhead
        obtain ⟨u, hu⟩ := hhead
        refine ⟨_, u, ?_, hu⟩
        split
        · decide
        · exact hword
      rw [List.takeWhile_cons_of_neg (a := c) (by simp [hword]),
        List.dropWhile_cons_of_neg (a := c) (by simp [hword]), hu,
        List.takeWhile_cons_of_neg (by simp [hd]), List.dropWhile_cons_of_neg (by simp [hd])]
      exact ⟨rfl, rfl⟩

theorem trimStart_squeeze (s : Text) : trimStart s.squeeze = squeeze (trimStart s) := by
  induction s with
  | nil => rfl
  | cons c s ih =>
    cases hc : isBlank c with
    | false =>
      rw [squeeze_cons hc, trimStart, trimStart, List.dropWhile_cons_of_neg (by simp [hc]),
        List.dropWhile_cons_of_neg (by simp [hc]), squeeze_cons hc]
    | true =>
      have hdrop : trimStart (c :: s) = trimStart s := List.dropWhile_cons_of_pos hc
      rw [hdrop, ← ih]
      cases hs : s.head?.any isBlank with
      | true => rw [squeeze_blank_blank hc hs]
      | false =>
        rw [squeeze_blank hc hs]
        exact List.dropWhile_cons_of_pos isBlank_space

theorem squeeze_concat {q : Text} {c : Char} (hc : isBlank c = false) :
    squeeze (q ++ [c]) = squeeze q ++ [c] := by
  rw [squeeze_append fun _ _ _ y hy => ?_, squeeze_cons hc, squeeze]
  obtain rfl : c = y := by simpa using hy
  exact hc

theorem isEmpty_squeeze (s : Text) : s.squeeze.isEmpty = s.isEmpty := by
  rw [Bool.eq_iff_iff, List.isEmpty_iff, List.isEmpty_iff, ← List.head?_eq_none_iff, head?_squeeze,
    Option.map_eq_none_iff, List.head?_eq_none_iff]

theorem Solid.behind_word {a rest : Text} (h : Solid (a ++ rest))
    (hrest : ∃ c ∈ rest.head?, isWord c = true) : Solid rest := by
  obtain ⟨c, hc, hword⟩ := hrest
  obtain ⟨v, rfl⟩ := List.head?_eq_some_iff.1 hc
  refine ⟨by simp, by simpa using isBlank_of_isWord hword, fun d hd => h.last d ?_⟩
  rwa [List.getLast?_append_of_ne_nil _ (by simp)]

end Text

namespace Item

/-! ## What a variant is read with -/

inductive Shape
  | unit
  | tuple
  | struct
  | unknown
  deriving DecidableEq

namespace Payload

def shape : Payload → Shape
  | .unit => .unit
  | .tuple _ => .tuple
  | .struct _ => .struct
  | .unknown => .unknown

/-- How many types or fields there are. -/
def count : Payload → Nat
  | .tuple types => types.length
  | .struct fields => fields.length
  | .unit | .unknown => 0

end Payload

namespace Variant

theorem enclosed?_eq_some_iff {o c : Char} {p q : Text} :
    enclosed? o c p = some q ↔ p = o :: (q ++ [c]) ∧ q ≠ [] := by
  cases p with
  | nil => simp [enclosed?]
  | cons d rest =>
    cases rest using List.reverseRecOn with
    | nil => simp [enclosed?]
    | append_singleton r e =>
      rw [enclosed?, List.getLast?_concat, List.dropLast_concat, Option.ite_none_right_eq_some]
      simp only [Bool.and_eq_true, beq_iff_eq, Option.some.injEq, Bool.not_eq_true', List.cons.injEq,
        List.isEmpty_eq_false_iff]
      constructor
      · rintro ⟨⟨⟨rfl, rfl⟩, hne⟩, rfl⟩
        exact ⟨⟨rfl, rfl⟩, hne⟩
      · rintro ⟨⟨rfl, hrest⟩, hne⟩
        obtain ⟨rfl, hlast⟩ := List.append_inj' hrest rfl
        exact ⟨⟨⟨rfl, (List.cons.inj hlast).1⟩, hne⟩, rfl⟩

/-- What a solid text encloses under single spaces. -/
theorem enclosed?_squeeze {o c : Char} {p : Text} (hp : Solid p) :
    enclosed? o c p.squeeze = (enclosed? o c p).map squeeze := by
  obtain ⟨d, rest, rfl⟩ := List.exists_cons_of_ne_nil hp.nonempty
  have hd := hp.head d rfl
  cases rest using List.reverseRecOn with
  | nil =>
    have hone : squeeze [d] = [d] := squeeze_cons hd
    rw [hone]
    simp [enclosed?]
  | append_singleton q e =>
    have he : isBlank e = false := hp.last e (by rw [← List.cons_append, List.getLast?_concat]; rfl)
    rw [squeeze_cons hd, squeeze_concat he]
    simp only [enclosed?, List.getLast?_concat, List.dropLast_concat, isEmpty_squeeze]
    split <;> rfl

/-- What stands behind the word in front, without blanks in front of it. -/
def payloadText (w : Text) : Text := trimStart (w.dropWhile isWord)

/-- The shape that a payload has, and what stands in its brackets. -/
def payloadReading (p : Text) : Shape × Text :=
  if p.isEmpty then (.unit, [])
  else
    match enclosed? '(' ')' p, enclosed? '\x7b' '\x7d' p with
    | some types, _ => (.tuple, types)
    | none, some fields => (.struct, fields)
    | none, none => (.unknown, [])

/-- The shape that a text is read with, and what stands in its brackets. -/
def reading (w : Text) : Shape × Text :=
  if (w.takeWhile isWord).isEmpty then (.unknown, []) else payloadReading (payloadText w)

theorem payloadText_cases {w : Text} (hw : w = [] ∨ Solid w) :
    (w.dropWhile isWord = [] ∧ payloadText w = []) ∨
      (w.dropWhile isWord ≠ [] ∧ Solid (payloadText w)) := by
  by_cases hne : w.dropWhile isWord = []
  · exact .inl ⟨hne, by rw [payloadText, hne]; rfl⟩
  · refine .inr ⟨hne, ?_⟩
    have hsolid : Solid w := hw.resolve_left (by rintro rfl; exact hne rfl)
    have hrest : ∀ c ∈ (w.dropWhile isWord).getLast?, isBlank c = false := fun c hc => by
      rw [← List.getLast?_append_of_ne_nil (w.takeWhile isWord) hne,
        List.takeWhile_append_dropWhile] at hc
      exact hsolid.last c hc
    have hpayload : payloadText w ≠ [] := fun hnil => by
      have hblank := List.dropWhile_eq_nil_iff.1 hnil _ (List.getLast_mem hne)
      rw [hrest _ (List.getLast?_eq_some_getLast hne)] at hblank
      exact absurd hblank (by decide)
    refine ⟨hpayload, fun c hc => head?_dropWhile isBlank hc, fun c hc => hrest c ?_⟩
    rw [payloadText, trimStart] at hc hpayload
    rwa [← List.getLast?_append_of_ne_nil ((w.dropWhile isWord).takeWhile isBlank) hpayload,
      List.takeWhile_append_dropWhile] at hc

/-- An entry is read as its text is, but for the runs of blanks in its types or fields. -/
theorem ofEntry_reading {s w : Text} (hs : s.withoutAttributes = w) (hw : w = [] ∨ Solid w) :
    (ofEntry s).payload.shape = (reading w).1 ∧
      (ofEntry s).payload.count = (reading w).2.squeeze.entries.length ∧
      ((ofEntry s).payload.shape ≠ .unknown → (ofEntry s).name = w.takeWhile isWord) := by
  have hcollapse : w.collapse = w.squeeze := by
    rcases hw with rfl | hw
    · rfl
    · exact hw.collapse_eq
  have hnone : (squeeze []).entries.length = 0 := by decide +kernel
  unfold ofEntry reading payloadReading
  rw [hs, hcollapse]
  dsimp only
  rw [(word_squeeze w).1, (word_squeeze w).2, isEmpty_squeeze]
  split
  · exact ⟨rfl, hnone.symm, fun h => absurd rfl h⟩
  · rcases payloadText_cases hw with ⟨hrest, hpayload⟩ | ⟨hrest, hp⟩
    · rw [hrest, hpayload]
      exact ⟨rfl, hnone.symm, fun _ => rfl⟩
    · have hpayload : trimStart (squeeze (w.dropWhile isWord)) = squeeze (payloadText w) :=
        trimStart_squeeze _
      rw [if_neg (by simpa using hrest), if_neg (by simpa using hp.nonempty), hpayload,
        enclosed?_squeeze hp, enclosed?_squeeze hp]
      cases enclosed? '(' ')' (payloadText w) with
      | some types => exact ⟨rfl, List.length_map .., fun _ => rfl⟩
      | none =>
        cases enclosed? '\x7b' '\x7d' (payloadText w) with
        | some fields => exact ⟨rfl, List.length_map .., fun _ => rfl⟩
        | none => exact ⟨rfl, hnone.symm, fun h => absurd rfl h⟩

theorem withoutAttributes_solid (s : Text) :
    s.withoutAttributes = [] ∨ Solid s.withoutAttributes := by
  by_cases hnil : s.withoutAttributes = []
  · exact .inl hnil
  · rw [← withoutAttributes_trim] at hnil ⊢
    exact .inr (solid_trim hnil)

/-! ## Payloads in brackets -/

/-- An empty pair of brackets, with nothing between these. -/
def isEmptyPair (p : Text) : Bool := p == ['(', ')'] || p == ['\x7b', '\x7d']

/-- A text in the brackets of a shape. -/
def IsBracketed (shape : Shape) (p q : Text) : Prop :=
  match shape with
  | .tuple => p = '(' :: (q ++ [')'])
  | .struct => p = '\x7b' :: (q ++ ['\x7d'])
  | .unit | .unknown => False

theorem IsBracketed.reading {shape : Shape} {p q : Text} (h : IsBracketed shape p q) :
    payloadReading p = (if q = [] then (.unknown, []) else (shape, q)) ∧
      isEmptyPair p = q.isEmpty ∧ shape ≠ .unknown := by
  have hother : ∀ {o o' c c' : Char}, o' ≠ o → enclosed? o' c' (o :: (q ++ [c])) = none := by
    intro o o' c c' hne
    refine Option.eq_none_iff_forall_ne_some.2 fun r hr => hne ?_
    exact (List.cons.inj (enclosed?_eq_some_iff.1 hr).1).1.symm
  have hself : ∀ o c : Char, enclosed? o c (o :: (q ++ [c])) = if q = [] then none else some q := by
    intro o c
    split <;> rename_i hq
    · subst hq
      simp [enclosed?]
    · exact enclosed?_eq_some_iff.2 ⟨rfl, hq⟩
  cases shape with
  | unit => exact h.elim
  | unknown => exact h.elim
  | tuple =>
    obtain rfl : p = '(' :: (q ++ [')']) := h
    refine ⟨?_, by cases q <;> simp [isEmptyPair], by decide⟩
    rw [payloadReading, hself, hother (by decide)]
    by_cases hq : q = [] <;> simp [hq]
  | struct =>
    obtain rfl : p = '\x7b' :: (q ++ ['\x7d']) := h
    refine ⟨?_, by cases q <;> simp [isEmptyPair], by decide⟩
    rw [payloadReading, hself, hother (by decide)]
    by_cases hq : q = [] <;> simp [hq]

theorem reading_of_unbracketed {p : Text} (hne : p ≠ [])
    (h : ∀ shape q, ¬ IsBracketed shape p q) :
    payloadReading p = (.unknown, []) ∧ isEmptyPair p = false := by
  have htuple : enclosed? '(' ')' p = none :=
    Option.eq_none_iff_forall_ne_some.2 fun q hq => h .tuple q (enclosed?_eq_some_iff.1 hq).1
  have hstruct : enclosed? '\x7b' '\x7d' p = none :=
    Option.eq_none_iff_forall_ne_some.2 fun q hq => h .struct q (enclosed?_eq_some_iff.1 hq).1
  refine ⟨by rw [payloadReading, if_neg (by simpa using hne), htuple, hstruct], ?_⟩
  rw [isEmptyPair, Bool.or_eq_false_iff, beq_eq_false_iff_ne, beq_eq_false_iff_ne]
  exact ⟨h .tuple [], h .struct []⟩

theorem IsBracketed.reflowed {shape : Shape} {p p' q : Text} (h : IsBracketed shape p q)
    (hp : Reflows p p') (hp' : Solid p') :
    ∃ q', IsBracketed shape p' q' ∧ Reflows q q' := by
  cases shape with
  | unit => exact h.elim
  | unknown => exact h.elim
  | tuple => exact hp.exists_brackets hp' (by decide) (by decide) h
  | struct => exact hp.exists_brackets hp' (by decide) (by decide) h

theorem IsBracketed.subset {shape : Shape} {p q : Text} (h : IsBracketed shape p q)
    (hplain : ∀ l ∈ lexemes p, l.kind ≠ .lineComment) : lexemes q ⊆ lexemes p := by
  cases shape with
  | unit => exact h.elim
  | unknown => exact h.elim
  | tuple =>
    obtain rfl : p = _ := h
    rw [lexemes_brackets (by decide) (by decide) hplain]
    exact fun l hl => by simp [hl]
  | struct =>
    obtain rfl : p = _ := h
    rw [lexemes_brackets (by decide) (by decide) hplain]
    exact fun l hl => by simp [hl]

/-- What stands in the brackets stands in the payload. -/
theorem unspaced_payloadReading {p : Text} (hplain : ∀ l ∈ lexemes p, l.kind ≠ .lineComment) :
    unspaced (lexemes (payloadReading p).2) ⊆ unspaced (lexemes p) := by
  by_cases hbracketed : ∃ shape q, IsBracketed shape p q
  · obtain ⟨shape, q, hq⟩ := hbracketed
    rw [hq.reading.1]
    split
    · simp [unspaced]
    · exact List.filter_subset _ (hq.subset hplain)
  · by_cases hne : p = []
    · subst hne
      exact List.Subset.refl _
    · rw [(reading_of_unbracketed hne fun shape q hq => hbracketed ⟨shape, q, hq⟩).1]
      simp [unspaced]

theorem payload_reflowed {p p' : Text} (h : Reflows p p') (hp : p = [] ∨ Solid p)
    (hp' : p' = [] ∨ Solid p') :
    ((payloadReading p).1 = (payloadReading p').1 ↔ isEmptyPair p = isEmptyPair p') ∧
      ((payloadReading p).1 = (payloadReading p').1 →
        Reflows (payloadReading p).2 (payloadReading p').2) := by
  rcases hp with rfl | hp
  · obtain rfl := h.eq_nil hp'
    exact ⟨⟨fun _ => rfl, fun _ => rfl⟩, fun _ => .nil⟩
  · have hsolid := h.solid hp hp'
    by_cases hbracketed : ∃ shape q, IsBracketed shape p q
    · obtain ⟨shape, q, hq⟩ := hbracketed
      obtain ⟨q', hq', hinner⟩ := hq.reflowed h hsolid
      obtain ⟨hreading, hpair, hshape⟩ := hq.reading
      obtain ⟨hreading', hpair', -⟩ := hq'.reading
      rw [hreading, hreading', hpair, hpair']
      cases q <;> cases q' <;> simp [hinner, hshape, hshape.symm]
    · have hnone : ∀ shape q, ¬ IsBracketed shape p q := fun shape q hq => hbracketed ⟨shape, q, hq⟩
      have hnone' : ∀ shape q, ¬ IsBracketed shape p' q := fun shape q hq => by
        obtain ⟨q', hq', -⟩ := hq.reflowed h.symm hp
        exact hnone shape q' hq'
      obtain ⟨hreading, hpair⟩ := reading_of_unbracketed hp.nonempty hnone
      obtain ⟨hreading', hpair'⟩ := reading_of_unbracketed hsolid.nonempty hnone'
      rw [hreading, hreading', hpair, hpair']
      exact ⟨⟨fun _ => rfl, fun _ => rfl⟩, fun _ => .nil⟩

/-! ## What decides the shape -/

/-- A stray word character in front of another word: a space between them ends the name. -/
def isAdrift (w : Text) : Bool :=
  match unspaced (lexemes w) with
  | l :: m :: _ => l.kind == .stray && m.text.head?.any isWord
  | _ => false

/-- A name with an empty pair of brackets, and nothing between these. -/
def isHollow (w : Text) : Bool := !(w.takeWhile isWord).isEmpty && isEmptyPair (payloadText w)

/-- A text has no shape when a quote or a hash ends the word in front. -/
theorem reading_of_quoting {a rest : Text} (h : IsQuoting a) :
    a.all isWord = false ∧ (a ++ rest).takeWhile isWord = a.takeWhile isWord ∧
      reading (a ++ rest) = (.unknown, []) ∧ isHollow (a ++ rest) = false := by
  obtain ⟨c, hc, hmark⟩ := h
  obtain ⟨v, hv⟩ := List.head?_eq_some_iff.1 hc
  have hword : isWord c = false := head?_dropWhile isWord hc
  have hblank : isBlank c = false := by
    simp only [List.mem_cons, List.not_mem_nil, or_false] at hmark
    rcases hmark with rfl | rfl | rfl <;> decide
  have hwhole : a ++ rest = a.takeWhile isWord ++ c :: (v ++ rest) := by
    rw [← List.cons_append, ← hv, ← List.append_assoc, List.takeWhile_append_dropWhile]
  have hfront : ∀ d ∈ a.takeWhile isWord, isWord d = true := fun d hd => of_mem_takeWhile isWord hd
  have hpayload : payloadText (a ++ rest) = c :: (v ++ rest) := by
    rw [payloadText, hwhole, dropWhile_append_of_head hfront (by simpa using hword)]
    exact List.dropWhile_cons_of_neg (by simp [hblank])
  obtain ⟨hreading, hpair⟩ := reading_of_unbracketed (p := payloadText (a ++ rest)) (by simp [hpayload]) (by
    intro shape q hq
    rw [hpayload] at hq
    cases shape <;> simp only [IsBracketed, List.cons.injEq] at hq <;> simp [hq.1] at hmark)
  refine ⟨?_, ?_, by rw [reading, hreading, ite_self], by rw [isHollow, hpair, Bool.and_false]⟩
  · rw [List.all_eq_false]
    exact ⟨c, (List.dropWhile_sublist isWord).subset (by simp [hv]), by simp [hword]⟩
  · rw [hwhole, takeWhile_append_of_head hfront (by simpa using hword)]

/-- A word that is a lexeme of its own is the name, and a text that begins otherwise has no shape; only
a stray character can run together with the word behind it. -/
theorem front_cases {w : Text} (hw : Solid w) {l : Lexeme} {ls : List Lexeme}
    (h : unspaced (lexemes w) = l :: ls) :
    (l.text.all isWord = true ∧ w.takeWhile isWord = l.text ∧
        unspaced (lexemes (w.dropWhile isWord)) = ls) ∨
      (l.text.all isWord = false ∧ w.takeWhile isWord = l.text.takeWhile isWord ∧
        reading w = (.unknown, []) ∧ isHollow w = false) ∨
      (l.kind = .stray ∧ ∃ rest, w = l.text ++ rest ∧ l.text.all isWord = true ∧
        (∃ c ∈ rest.head?, isWord c = true) ∧ unspaced (lexemes rest) = ls) := by
  obtain ⟨m, ms, hls, -⟩ := exists_first_lexeme hw.nonempty
  rw [hls, unspaced_cons (hw.not_blank (.inl hls)), List.cons.injEq] at h
  obtain ⟨rfl, rfl⟩ := h
  obtain ⟨rest, hfirst, rfl⟩ := first?_of_lexemes hls
  obtain ⟨hne, rfl⟩ := first?_eq_some hfirst
  rcases word_cases hfirst with hhead | ⟨hword, hbehind⟩ | hquoting
  · obtain ⟨d, u, hd⟩ := List.exists_cons_of_ne_nil hne
    have hstop : isWord d = false := hhead d (by rw [hd]; rfl)
    have hnone : (m.text ++ rest).takeWhile isWord = [] := by
      rw [hd, List.cons_append, List.takeWhile_cons_of_neg (by simp [hstop])]
    refine .inr (.inl ⟨by simp [hd, hstop], ?_, by rw [reading, hnone]; rfl, by rw [isHollow, hnone]; rfl⟩)
    rw [hnone, hd, List.takeWhile_cons_of_neg (by simp [hstop])]
  · have hall := List.all_eq_true.1 hword
    by_cases hstop : ∀ c ∈ rest.head?, isWord c = false
    · exact .inl ⟨hword, takeWhile_append_of_head hall hstop, by rw [dropWhile_append_of_head hall hstop]⟩
    · exact .inr (.inr ⟨by_contra fun hkind => hstop (hbehind hkind), rest, rfl, hword,
        by simpa using hstop, rfl⟩)
  · exact .inr (.inl (reading_of_quoting hquoting))

theorem isAdrift_of_front {w rest : Text} {l : Lexeme} (hkind : l.kind = .stray)
    (hrest : ∃ c ∈ rest.head?, isWord c = true)
    (h : unspaced (lexemes w) = l :: unspaced (lexemes rest)) : isAdrift w = true := by
  obtain ⟨c, hc, hword⟩ := hrest
  obtain ⟨v, rfl⟩ := List.head?_eq_some_iff.1 hc
  obtain ⟨m, ms, hms, hhead⟩ := exists_first_lexeme (s := c :: v) (by simp)
  obtain ⟨u, hu⟩ := List.head?_eq_some_iff.1 hhead
  have hblank : m.kind ≠ .blank := by
    intro hblank
    have hproper := proper_of_mem (l := m) (s := c :: v) (by simp [hms])
    obtain ⟨kind, text⟩ := m
    obtain rfl : kind = .blank := hblank
    rw [isWord_of_isBlank (hproper c (by simp_all))] at hword
    exact absurd hword (by decide)
  rw [isAdrift, h, hms, unspaced_cons hblank]
  simp [hkind, hu, hword]

/-- Where no stray character stands in front of a word, spaces do not change the word in front. -/
theorem front_reflowed {w w' : Text} (h : Reflows w w') (hw : w = [] ∨ Solid w)
    (hw' : w' = [] ∨ Solid w') (hfirm : isAdrift w = false) :
    w.takeWhile isWord = w'.takeWhile isWord := by
  rcases hw with rfl | hw
  · rw [h.eq_nil hw']
  · have hsolid := h.solid hw hw'
    obtain ⟨l, ls, hls⟩ := hw.exists_unspaced
    have hls' := h.unspaced ▸ hls
    have hfirm' : isAdrift w' = false := by rwa [isAdrift, ← h.unspaced]
    rcases front_cases hw hls with ⟨hall, hname, -⟩ | ⟨hall, hname, -⟩ | ⟨hkind, rest, -, -, hword, rfl⟩
    · rcases front_cases hsolid hls' with ⟨-, hname', -⟩ | ⟨hnot, -⟩ | ⟨hkind, rest, -, -, hword, rfl⟩
      · rw [hname, hname']
      · simp [hall] at hnot
      · simp [isAdrift_of_front hkind hword hls'] at hfirm'
    · rcases front_cases hsolid hls' with ⟨hnot, -⟩ | ⟨-, hname', -⟩ | ⟨hkind, rest, -, hnot, -⟩
      · simp [hall] at hnot
      · rw [hname, hname']
      · simp [hall] at hnot
    · simp [isAdrift_of_front hkind hword hls] at hfirm

/-- Word characters in front of a word are part of it. -/
theorem reading_append {a rest : Text} (ha : a.all isWord = true)
    (hrest : ∃ c ∈ rest.head?, isWord c = true) :
    reading (a ++ rest) = reading rest ∧ isHollow (a ++ rest) = isHollow rest := by
  obtain ⟨c, hc, hword⟩ := hrest
  obtain ⟨v, rfl⟩ := List.head?_eq_some_iff.1 hc
  rw [List.all_eq_true] at ha
  have hpayload : payloadText (a ++ c :: v) = payloadText (c :: v) := by
    rw [payloadText, List.dropWhile_append_of_pos ha, payloadText]
  have hname : ((a ++ c :: v).takeWhile isWord).isEmpty = ((c :: v).takeWhile isWord).isEmpty := by
    rw [List.takeWhile_append_of_pos ha, List.takeWhile_cons_of_pos hword]
    simp
  rw [reading, isHollow, hpayload, hname]
  exact ⟨rfl, rfl⟩

/-- Two reflows with the same word in front begin alike. -/
theorem fronts_cases {w w' : Text} (h : Reflows w w') (hw : Solid w) (hw' : Solid w')
    (hword : w.takeWhile isWord = w'.takeWhile isWord) {l : Lexeme} {ls : List Lexeme}
    (hls : unspaced (lexemes w) = l :: ls) :
    (Reflows (payloadText w) (payloadText w') ∧
        unspaced (lexemes (payloadText w)) ⊆ unspaced (lexemes w)) ∨
      (reading w = (.unknown, []) ∧ isHollow w = false ∧
        reading w' = (.unknown, []) ∧ isHollow w' = false) ∨
      (∃ rest rest', w = l.text ++ rest ∧ w' = l.text ++ rest' ∧ l.text.all isWord = true ∧
        (∃ c ∈ rest.head?, isWord c = true) ∧ (∃ c ∈ rest'.head?, isWord c = true) ∧
          unspaced (lexemes rest) = ls ∧ unspaced (lexemes rest') = ls) := by
  have hls' := h.unspaced ▸ hls
  -- A word cannot end with the lexeme in one of the texts and go on behind it in the other one.
  have hends : ∀ rest : Text, (∃ c ∈ rest.head?, isWord c = true) → l.text.all isWord = true →
      (l.text ++ rest).takeWhile isWord ≠ l.text := by
    rintro rest ⟨c, hc, hc'⟩ hall heq
    obtain ⟨v, rfl⟩ := List.head?_eq_some_iff.1 hc
    rw [List.takeWhile_append_of_pos (List.all_eq_true.1 hall), List.takeWhile_cons_of_pos hc'] at heq
    simp at heq
  rcases front_cases hw hls with ⟨hall, hname, hrest⟩ | ⟨hall, -, hreading, hhollow⟩ |
    ⟨-, rest, rfl, hall, hhead, hrest⟩
  · rcases front_cases hw' hls' with ⟨-, -, hrest'⟩ | ⟨hnot, -⟩ | ⟨-, rest', rfl, -, hhead', -⟩
    · have hsub : unspaced (lexemes (payloadText w)) ⊆ unspaced (lexemes w) := by
        rw [payloadText, unspaced_trimStart, hrest, hls]
        exact List.subset_cons_self l ls
      refine .inl ⟨h.of_subset hsub ?_, hsub⟩
      rw [payloadText, payloadText, unspaced_trimStart, unspaced_trimStart, hrest, hrest']
    · simp [hall] at hnot
    · exact absurd (hword.symm.trans hname) (hends rest' hhead' hall)
  · rcases front_cases hw' hls' with ⟨hnot, -⟩ | ⟨-, -, hreading', hhollow'⟩ | ⟨-, rest, -, hnot, -⟩
    · simp [hall] at hnot
    · exact .inr (.inl ⟨hreading, hhollow, hreading', hhollow'⟩)
    · simp [hall] at hnot
  · rcases front_cases hw' hls' with ⟨-, hname', -⟩ | ⟨hnot, -⟩ | ⟨-, rest', rfl, -, hhead', hrest'⟩
    · exact absurd (hword.trans hname') (hends rest hhead hall)
    · simp [hall] at hnot
    · exact .inr (.inr ⟨rest, rest', rfl, rfl, hall, hhead, hhead', hrest, hrest'⟩)

/-- Reflows of each other with the same word in front are read with one shape unless one of them has an
empty pair of brackets and the other one blanks in it. -/
theorem reading_reflowed {w w' : Text} (h : Reflows w w') (hw : w = [] ∨ Solid w)
    (hw' : w' = [] ∨ Solid w') (hword : w.takeWhile isWord = w'.takeWhile isWord) :
    ((reading w).1 = (reading w').1 ↔ isHollow w = isHollow w') ∧
      ((reading w).1 = (reading w').1 → Reflows (reading w).2 (reading w').2) ∧
        unspaced (lexemes (reading w).2) ⊆ unspaced (lexemes w) := by
  induction hls : unspaced (lexemes w) generalizing w w' with
  | nil =>
    obtain rfl : w = [] := hw.resolve_right fun hw => by
      obtain ⟨l, ls, hcons⟩ := hw.exists_unspaced
      exact List.cons_ne_nil _ _ (hcons.symm.trans hls)
    obtain rfl := h.eq_nil hw'
    exact ⟨⟨fun _ => rfl, fun _ => rfl⟩, fun _ => .nil, hls ▸ List.Subset.refl _⟩
  | cons l ls ih =>
    have hsolid : Solid w := hw.resolve_left (by rintro rfl; rw [lexemes_nil] at hls; cases hls)
    have hsolid' := h.solid hsolid hw'
    have hnone : unspaced (lexemes []) ⊆ l :: ls := by simp [unspaced]
    rcases fronts_cases h hsolid hsolid' hword hls with ⟨hpayload, hsub⟩ |
      ⟨hreading, hhollow, hreading', hhollow'⟩ | ⟨rest, rest', rfl, rfl, hall, hhead, hhead', hrest, hrest'⟩
    · obtain ⟨hiff, hinner⟩ := payload_reflowed hpayload
        ((payloadText_cases hw).imp And.right And.right) ((payloadText_cases hw').imp And.right And.right)
      rw [reading, reading, isHollow, isHollow, ← hword]
      cases (w.takeWhile isWord).isEmpty with
      | true => exact ⟨⟨fun _ => rfl, fun _ => rfl⟩, fun _ => .nil, hnone⟩
      | false =>
        exact ⟨hiff, hinner, hls ▸ List.Subset.trans (unspaced_payloadReading hpayload.plain) hsub⟩
    · rw [hreading, hreading', hhollow, hhollow']
      exact ⟨⟨fun _ => rfl, fun _ => rfl⟩, fun _ => .nil, hnone⟩
    · have hsub : unspaced (lexemes rest) ⊆ l :: ls := hrest ▸ List.subset_cons_self l ls
      rw [(reading_append hall hhead).1, (reading_append hall hhead).2, (reading_append hall hhead').1,
        (reading_append hall hhead').2]
      rw [List.all_eq_true] at hall
      rw [List.takeWhile_append_of_pos hall, List.takeWhile_append_of_pos hall,
        List.append_cancel_left_eq] at hword
      obtain ⟨hiff, hinner, hread⟩ := ih (h.of_subset (hls ▸ hsub) (hrest.trans hrest'.symm))
        (.inr (hsolid.behind_word hhead)) (.inr (hsolid'.behind_word hhead')) hword hrest
      exact ⟨hiff, hinner, List.subset_cons_of_subset l hread⟩

/-- Spaces between its tokens do not change what shape an entry has, nor its name and how many types or
fields there are, but for three things: an empty pair of brackets has a shape only with blanks in it, a
stray character in front of a word is part of the name only without blanks behind it, and single spaces
make a character of two lone apostrophes. -/
theorem ofEntry_reflowed {s t : Text} (h : Reflows s t)
    (hword : isAdrift s.withoutAttributes = true →
      s.withoutAttributes.takeWhile isWord = t.withoutAttributes.takeWhile isWord) :
    ((ofEntry s).payload.shape = (ofEntry t).payload.shape ∧
        ((ofEntry s).payload.shape ≠ .unknown → (ofEntry s).name = (ofEntry t).name) ↔
      isHollow s.withoutAttributes = isHollow t.withoutAttributes) ∧
    ((ofEntry s).payload.shape = (ofEntry t).payload.shape →
      (∀ l ∈ lexemes s.withoutAttributes, l.isSign '\x27' = false) →
        (ofEntry s).payload.count = (ofEntry t).payload.count) := by
  have hw := withoutAttributes_solid s
  have hw' := withoutAttributes_solid t
  have hwithout := h.withoutAttributes
  have hfront : s.withoutAttributes.takeWhile isWord = t.withoutAttributes.takeWhile isWord := by
    cases hadrift : isAdrift s.withoutAttributes with
    | true => exact hword hadrift
    | false => exact front_reflowed hwithout hw hw' hadrift
  obtain ⟨hiff, hinner, hsub⟩ := reading_reflowed hwithout hw hw' hfront
  obtain ⟨hshape, hcount, hname⟩ := ofEntry_reading rfl hw
  obtain ⟨hshape', hcount', hname'⟩ := ofEntry_reading rfl hw'
  constructor
  · rw [← hiff, ← hshape, ← hshape']
    refine and_iff_left_of_imp fun heq hne => ?_
    rw [hname hne, hname' (heq ▸ hne), hfront]
  · intro heq hquote
    rw [hcount, hcount']
    refine (hinner (by rw [← hshape, ← hshape', heq])).length_entries_squeeze ?_
    have hblank : ∀ l : Lexeme, l.kind = .blank → l.isSign '\x27' = false :=
      fun l hl => by simp [isSign, hl]
    exact (forall_unspaced hblank).1 fun l hl => hquote l (mem_unspaced.1 (hsub hl)).1

def pairEntry : Text := "#[a] Pair( (u8,\n  i8), [u8; 2] )".toList

def pairReflowed : Text := "#[ a ]Pair ((u8,i8),[u8;2])".toList

theorem ofEntry_reflowed_pair : Reflows pairEntry pairReflowed ∧
    isAdrift pairEntry.withoutAttributes = false ∧
    (ofEntry pairEntry).payload.shape = .tuple ∧ (ofEntry pairReflowed).payload.shape = .tuple ∧
      (ofEntry pairEntry).name = (ofEntry pairReflowed).name ∧
      (ofEntry pairEntry).payload.count = (ofEntry pairReflowed).payload.count := by
  have hreflows : Reflows pairEntry pairReflowed := ⟨by decide +kernel, by decide +kernel⟩
  have hadrift : isAdrift pairEntry.withoutAttributes = false := by decide +kernel
  have hshape : (ofEntry pairEntry).payload.shape = .tuple := by decide +kernel
  have hhollow : isHollow pairEntry.withoutAttributes = isHollow pairReflowed.withoutAttributes := by
    decide +kernel
  obtain ⟨hiff, hcount⟩ := ofEntry_reflowed hreflows (by simp [hadrift])
  obtain ⟨heq, hname⟩ := hiff.2 hhollow
  exact ⟨hreflows, hadrift, hshape, heq ▸ hshape, hname (by simp [hshape]),
    hcount heq (by decide +kernel)⟩

end Variant

end Item

end DocScaffold
