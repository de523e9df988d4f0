import DocScaffold.Proofs.Copies
import DocScaffold.Proofs.Precedence

/-!
# The spelling of switches

Which of its two spellings a switch has, and whether the entries stand under `rustdocstring`, changes
nothing of what is loaded (`load_respelled`). The values have to be the same: where a mapping is the value
of its own switch, the message shows how that is spelled (`load_itself`).
-/

namespace DocScaffold

open Yaml

namespace Settings

variable {y : Reader} {R : Nat → Nat → Prop} {document document' : Document} {m m' : Mapping} {s : Switch}

/-! ## Spellings -/

/-- A key that names a switch. -/
def IsSpelling (s : Switch) (k : Value) : Prop := k = .text s.key ∨ k = .text s.camelKey

instance (s : Switch) (k : Value) : Decidable (IsSpelling s k) :=
  inferInstanceAs (Decidable (_ ∨ _))

theorem eq_of_isSpelling {t : Switch} {k : Value} (hs : IsSpelling s k) (ht : IsSpelling t k) :
    s = t := by
  have hkeys : ∀ a b : Switch, a.key = b.key ∨ a.key = b.camelKey ∨ a.camelKey = b.key ∨
      a.camelKey = b.camelKey → a = b := by
    intro a b
    cases a <;> cases b <;> decide
  refine hkeys s t ?_
  rcases hs with rfl | rfl <;> rcases ht with heq | heq <;> simp [Value.text.inj heq]

theorem not_isSpelling_analyzers (s : Switch) : ¬ IsSpelling s (.text "analyzers".toList) := by
  cases s <;> decide

theorem not_isSpelling_rustdocstring (s : Switch) : ¬ IsSpelling s (.text "rustdocstring".toList) := by
  rintro (h | h)
  · exact key_ne_rustdocstring s (Value.text.inj h).symm
  · exact camelKey_ne_rustdocstring s (Value.text.inj h).symm

/-- An entry in another spelling. Its key is the same or names the same switch, and its value is the same if
it is read. -/
structure Respells (R : Nat → Nat → Prop) (e e' : Value × Value) : Prop where
  key : e'.1 = e.1 ∨ ∃ s, IsSpelling s e.1 ∧ IsSpelling s e'.1
  value : (e.1 = .text "analyzers".toList ∨ ∃ s, IsSpelling s e.1) → Value.Same R e.2 e'.2

theorem Respells.isSpelling_iff {e e' : Value × Value} (h : Respells R e e') (s : Switch) :
    IsSpelling s e.1 ↔ IsSpelling s e'.1 := by
  rcases h.key with heq | ⟨t, ht, ht'⟩
  · rw [heq]
  · constructor
    · intro hs
      rwa [eq_of_isSpelling hs ht]
    · intro hs
      rwa [eq_of_isSpelling hs ht']

theorem Respells.eq_text_iff {e e' : Value × Value} (h : Respells R e e') {name : Text}
    (hname : ∀ s, ¬ IsSpelling s (.text name)) : e.1 = .text name ↔ e'.1 = .text name := by
  rcases h.key with heq | ⟨t, ht, ht'⟩
  · rw [heq]
  · constructor
    · intro hk
      exact absurd (hk ▸ ht) (hname t)
    · intro hk
      exact absurd (hk ▸ ht') (hname t)

/-! ## What is found -/

/-- Where the entries of two mappings agree on a name, what is found under it is related. -/
theorem rel_get? {Q : Value → Value → Prop} {name : Text}
    (h : List.Forall₂ (fun e e' => (e.1 = .text name ↔ e'.1 = .text name) ∧
      (e.1 = .text name → Q e.2 e'.2)) m m') :
    Option.Rel Q (Value.get? name m) (Value.get? name m') := by
  induction h with
  | nil => exact .none
  | @cons e e' _ _ hfirst _ ih =>
    obtain ⟨k, v⟩ := e
    obtain ⟨k', v'⟩ := e'
    rw [Value.get?_cons, Value.get?_cons]
    by_cases hk : k = .text name
    · rw [if_pos hk, if_pos (hfirst.1.1 hk)]
      exact .some (hfirst.2 hk)
    · rw [if_neg hk, if_neg fun hk' => hk (hfirst.1.2 hk')]
      exact ih

theorem found?_eq_none_iff : found? m s = none ↔ ∀ e ∈ m, ¬ IsSpelling s e.1 := by
  have hnone : ∀ name, Value.get? name m = none ↔ ∀ e ∈ m, e.1 ≠ .text name := by
    intro name
    rw [Value.get?, Option.map_eq_none_iff, List.find?_eq_none]
    exact forall₂_congr fun e _ => not_congr Value.sameKey_text
  rw [found?_eq, Option.or_eq_none_iff, hnone, hnone]
  constructor
  · rintro ⟨hkey, hcamel⟩ e he (hk | hk)
    · exact hkey e he hk
    · exact hcamel e he hk
  · intro hall
    exact ⟨fun e he hk => hall e he (.inl hk), fun e he hk => hall e he (.inr hk)⟩

theorem found?_cons_of_isSpelling {k v : Value} (hk : IsSpelling s k) (hnone : found? m s = none) :
    found? ((k, v) :: m) s = some v := by
  rw [found?_eq, Option.or_eq_none_iff] at hnone
  rw [found?_eq, Value.get?_cons, Value.get?_cons, hnone.1, hnone.2]
  rcases hk with hk | hk
  · rw [if_pos hk, Option.some_or]
  · by_cases hkey : k = .text s.key
    · rw [if_pos hkey, Option.some_or]
    · rw [if_neg hkey, if_pos hk, Option.none_or]

theorem found?_cons_of_not {k v : Value} (hk : ¬ IsSpelling s k) :
    found? ((k, v) :: m) s = found? m s := by
  rw [found?_eq, found?_eq, Value.get?_cons, Value.get?_cons, if_neg fun h => hk (.inl h),
    if_neg fun h => hk (.inr h)]

/-- A switch is mentioned in at most one of its spellings. -/
def MentionsOnce (m : Mapping) (s : Switch) : Prop :=
  Value.get? s.key m = none ∨ Value.get? s.camelKey m = none

instance (m : Mapping) (s : Switch) : Decidable (MentionsOnce m s) :=
  inferInstanceAs (Decidable (_ ∨ _))

theorem key_ne_camelKey (s : Switch) : s.key ≠ s.camelKey := by cases s <;> decide

theorem found?_of_mentionsOnce {k v : Value} (hapart : Value.KeysApart ((k, v) :: m))
    (honce : MentionsOnce ((k, v) :: m) s) (hk : IsSpelling s k) : found? m s = none := by
  rw [found?_eq, Option.or_eq_none_iff]
  rw [MentionsOnce, Value.get?_cons, Value.get?_cons] at honce
  rcases hk with hk | hk
  · have hne : k ≠ .text s.camelKey := fun h => key_ne_camelKey s (Value.text.inj (hk.symm.trans h))
    rw [if_pos hk, if_neg hne] at honce
    exact ⟨Value.get?_of_keysApart hapart hk, honce.resolve_left (by simp)⟩
  · have hne : k ≠ .text s.key := fun h => key_ne_camelKey s (Value.text.inj (h.symm.trans hk))
    rw [if_neg hne, if_pos hk] at honce
    exact ⟨honce.resolve_right (by simp), Value.get?_of_keysApart hapart hk⟩

theorem MentionsOnce.tail {k v : Value} (h : MentionsOnce ((k, v) :: m) s) (hk : ¬ IsSpelling s k) :
    MentionsOnce m s := by
  rw [MentionsOnce, Value.get?_cons, Value.get?_cons, if_neg fun heq => hk (.inl heq),
    if_neg fun heq => hk (.inr heq)] at h
  exact h

theorem found?_eq_none_of_respells (h : List.Forall₂ (Respells R) m m') (hnone : found? m s = none) :
    found? m' s = none := by
  rw [found?_eq_none_iff] at hnone ⊢
  induction h with
  | nil => exact hnone
  | cons hfirst _ ih =>
    obtain ⟨hhead, htail⟩ := List.forall_mem_cons.1 hnone
    exact List.forall_mem_cons.2 ⟨fun hk => hhead ((hfirst.isSpelling_iff s).2 hk), ih htail⟩

/-- The value of a switch is found in either spelling. -/
theorem rel_found? (h : List.Forall₂ (Respells R) m m') (hapart : Value.KeysApart m)
    (honce : MentionsOnce m s) : Option.Rel (Value.Same R) (found? m s) (found? m' s) := by
  induction h with
  | nil => exact .none
  | @cons e e' m m' hfirst hrest ih =>
    obtain ⟨k, v⟩ := e
    obtain ⟨k', v'⟩ := e'
    by_cases hk : IsSpelling s k
    · have hnone := found?_of_mentionsOnce hapart honce hk
      rw [found?_cons_of_isSpelling hk hnone,
        found?_cons_of_isSpelling ((hfirst.isSpelling_iff s).1 hk)
          (found?_eq_none_of_respells hrest hnone)]
      exact .some (hfirst.value (.inr ⟨s, hk⟩))
    · have hk' : ¬ IsSpelling s k' := fun hk' => hk ((hfirst.isSpelling_iff s).2 hk')
      rw [found?_cons_of_not hk, found?_cons_of_not hk']
      exact ih (List.pairwise_cons.1 hapart).2 (honce.tail hk)

/-! ## What is loaded -/

/-- Switches are set alike by the same values. -/
theorem setSwitches_eq (h : document.Corresponds document' R)
    (hfound : ∀ s, Option.Rel (Value.Same R) (found? m s) (found? m' s)) (o : Options)
    (switches : List Switch) :
    setSwitches document m o switches = setSwitches document' m' o switches := by
  induction switches generalizing o with
  | nil => rfl
  | cons s rest ih =>
    rw [setSwitches, setSwitches]
    rcases cases_of_rel (hfound s) with ⟨hv, hv'⟩ | ⟨v, v', hv, hv', hsame⟩
    · rw [hv, hv']
      exact ih o
    · rw [hv, hv']
      have hrefuse : refuse document s v = refuse document' s v' := by
        rw [refuse, refuse, Document.shown_eq h hsame]
      cases hsame with
      | collection => exact congrArg Except.error hrefuse
      | scalar hkey =>
        split
        · exact ih o
        · exact ih o
        · rename_i hfirst
          obtain rfl := Option.some.inj hfirst
          rw [hrefuse]
          split
          · exact ih _
          · rfl

/-- The names of the kinds are read alike where the same values stand under `analyzers`. -/
theorem namesIn_group_eq (h : document.Corresponds document' R) {name : Text}
    (hname : Option.Rel (Value.Same R) (Value.get? name m) (Value.get? name m')) :
    namesIn document (group document m name) = namesIn document' (group document' m' name) := by
  rw [group, group]
  rcases cases_of_rel hname with ⟨hv, hv'⟩ | ⟨v, v', hv, hv', hsame⟩
  · rw [hv, hv']
    rfl
  · rw [hv, hv', Option.bind_some, Option.bind_some]
    rcases cases_of_rel (Document.rel_mapping? h hsame) with
      ⟨hm, hm'⟩ | ⟨entries, entries', hm, hm', hentries⟩
    · rw [hm, hm']
      rfl
    · have henabled : Option.Rel (Value.Same R) (Value.get? "enabled".toList entries)
          (Value.get? "enabled".toList entries') :=
        rel_get? (hentries.imp fun e e' he => ⟨he.1.eq_text_iff _, fun _ => he.2⟩)
      rw [hm, hm', Option.getD_some, Option.getD_some, namesIn, namesIn]
      rcases cases_of_rel henabled with ⟨hw, hw'⟩ | ⟨w, w', hw, hw', hvalue⟩
      · rw [hw, hw']
      · rw [hw, hw']
        dsimp only
        rw [Document.names_eq h hvalue]

/-- Entries that stand at the root of a document, or under `rustdocstring` with nothing around them. -/
def Stands (document : Document) (root m : Mapping) : Prop :=
  root = m ∨ ∃ v, root = [(.text "rustdocstring".toList, v)] ∧ document.mapping? v = some m

/-- What counts are the entries themselves, wherever they stand. -/
theorem get?_of_stands {text : Text} {root : Mapping} (hy : y.KeepsKeysApart)
    (hholds : Holds y text document root) (hstands : Stands document root m)
    (hnone : Value.get? "rustdocstring".toList m = none) {name : Text}
    (hname : name ≠ "rustdocstring".toList) :
    Value.get? name (Value.overlay root (group document root "rustdocstring".toList)) =
      Value.get? name m := by
  rcases hstands with rfl | ⟨v, rfl, hv⟩
  · rw [group, hnone]
    rfl
  · have hne : Value.text "rustdocstring".toList ≠ .text name := fun h => hname (Value.text.inj h).symm
    rw [group, Value.get?_cons, if_pos rfl, Option.bind_some, hv, Option.getD_some,
      Value.get?_overlay (hy _ _ hholds.reads _ _ hv), Value.get?_cons, if_neg hne,
      Value.get?_nil, Option.or_none]

theorem found?_of_stands {text : Text} {root : Mapping} (hy : y.KeepsKeysApart)
    (hholds : Holds y text document root) (hstands : Stands document root m)
    (hnone : Value.get? "rustdocstring".toList m = none) (s : Switch) :
    found? (Value.overlay root (group document root "rustdocstring".toList)) s = found? m s := by
  rw [found?_eq, found?_eq, get?_of_stands hy hholds hstands hnone (key_ne_rustdocstring s),
    get?_of_stands hy hholds hstands hnone (camelKey_ne_rustdocstring s)]

/-- With a reader that keeps keys apart, the same values load alike, in whichever spelling the switches are
mentioned, and at the root as well as under `rustdocstring`. -/
theorem load_respelled {d d' : Disk} {p p' : Path} {directory : List Text} {text text' : Text}
    {root' : Mapping} (hy : y.KeepsKeysApart) (hgoverns : Governs d p directory text)
    (hholds : Holds y text document m) (hnone : Value.get? "rustdocstring".toList m = none)
    (honce : ∀ s, MentionsOnce m s) (hgoverns' : Governs d' p' directory text')
    (hholds' : Holds y text' document' root') (hstands : Stands document' root' m') (hcorresponds : document.Corresponds document' R)
    (hrespells : List.Forall₂ (Respells R) m m') : load y d p = load y d' p' := by
  have hanalyzers : Option.Rel (Value.Same R) (Value.get? "analyzers".toList m)
      (Value.get? "analyzers".toList m') :=
    rel_get? (hrespells.imp fun e e' he =>
      ⟨he.eq_text_iff not_isSpelling_analyzers, fun hk => he.value (.inl hk)⟩)
  have hnone' : Value.get? "rustdocstring".toList m' = none := by
    have hrel : Option.Rel (fun _ _ => True) (Value.get? "rustdocstring".toList m)
        (Value.get? "rustdocstring".toList m') :=
      rel_get? (hrespells.imp fun e e' he =>
        ⟨he.eq_text_iff not_isSpelling_rustdocstring, fun _ => trivial⟩)
    rcases cases_of_rel hrel with ⟨-, hnone'⟩ | ⟨v, -, hsome, -⟩
    · exact hnone'
    · rw [hnone] at hsome
      cases hsome
  have hfound : ∀ s, Option.Rel (Value.Same R)
      (found? (Value.overlay m (group document m "rustdocstring".toList)) s)
      (found? (Value.overlay root' (group document' root' "rustdocstring".toList)) s) := by
    intro s
    rw [found?_of_stands hy hholds (.inl rfl) hnone, found?_of_stands hy hholds' hstands hnone']
    exact rel_found? hrespells (hholds.keysApart hy) (honce s)
  rw [← get?_of_stands hy hholds (.inl rfl) hnone (by decide),
    ← get?_of_stands hy hholds' hstands hnone' (by decide)] at hanalyzers
  rw [hgoverns.load_eq_read, hgoverns'.load_eq_read, hholds.read_eq_ofMapping,
    hholds'.read_eq_ofMapping, ofMapping, ofMapping, setSwitches_eq hcorresponds hfound,
    namesIn_group_eq hcorresponds hanalyzers]

/-- The message of a load that fails. -/
def fault? (loaded : Except Error Settings) : Option Text :=
  match loaded with
  | .ok _ => none
  | .error e => some e.message

def plainText : Text := "includeExamples: [no]\nanalyzers:\n  enabled: fn\n".toList

def plainMapping : Mapping :=
  [(.text "includeExamples".toList, .collection 2), (.text "analyzers".toList, .collection 5)]

def plainDocument : Document where
  root := .collection 0
  collections := [(5, .mapping [(.text "enabled".toList, .text "fn".toList)]),
    (2, .sequence [.bool false]), (0, .mapping plainMapping)]

/-- The same entries under `rustdocstring`, with underscores. -/
def movedText : Text :=
  "rustdocstring:\n  include_examples: [no]\n  analyzers:\n    enabled: fn\n".toList

def movedMapping : Mapping :=
  [(.text "include_examples".toList, .collection 4), (.text "analyzers".toList, .collection 7)]

def movedDocument : Document where
  root := .collection 0
  collections := [(7, .mapping [(.text "enabled".toList, .text "fn".toList)]),
    (4, .sequence [.bool false]), (2, .mapping movedMapping),
    (0, .mapping [(.text "rustdocstring".toList, .collection 2)])]

theorem load_respelled_moved :
    load .ofProgram (soleDisk plainText) (.ofText ".".toList) =
        load .ofProgram (soleDisk movedText) (.ofText ".".toList) ∧
      fault? (load .ofProgram (soleDisk movedText) (.ofText ".".toList)) =
        some "'include_examples' must be a boolean, got [False]".toList := by
  have hgoverns : Governs (soleDisk plainText) (.ofText ".".toList) [] plainText :=
    governs_soleDisk (by decide)
  have hgoverns' : Governs (soleDisk movedText) (.ofText ".".toList) [] movedText :=
    governs_soleDisk (by decide)
  have hholds : Holds .ofProgram plainText plainDocument plainMapping :=
    ⟨by decide, eq_ok_of_toOption (by unfold plainText; rw [String.toList_ofList]; decide +kernel), rfl⟩
  have hholds' :
      Holds .ofProgram movedText movedDocument [(.text "rustdocstring".toList, .collection 2)] :=
    ⟨by decide, eq_ok_of_toOption (by unfold movedText; rw [String.toList_ofList]; decide +kernel), rfl⟩
  -- The sequence and the mapping with the names have moved.
  have hplaces : ∀ {place place' : Nat}, (place, place') ∈ [(2, 4), (5, 7)] →
      place = 2 ∧ place' = 4 ∨ place = 5 ∧ place' = 7 := by simp
  have hcorresponds : plainDocument.Corresponds movedDocument
      fun place place' => (place, place') ∈ [(2, 4), (5, 7)] := by
    constructor
    · intro place place' other other' hplace hother
      rcases hplaces hplace with ⟨rfl, rfl⟩ | ⟨rfl, rfl⟩ <;>
        rcases hplaces hother with ⟨rfl, rfl⟩ | ⟨rfl, rfl⟩ <;> decide
    · intro place place' hplace
      rcases hplaces hplace with ⟨rfl, rfl⟩ | ⟨rfl, rfl⟩
      · exact .some (.sequence (.cons (.scalar rfl) .nil))
      · exact .some (.mapping (.cons ⟨.scalar rfl, .scalar rfl⟩ .nil))
  have honce : ∀ s, MentionsOnce plainMapping s := fun s => by cases s <;> decide
  have hload := load_respelled Reader.keepsKeysApart_ofProgram hgoverns hholds (by decide) honce
    hgoverns' hholds' (.inr ⟨_, rfl, rfl⟩) hcorresponds
    (.cons ⟨.inr ⟨.includeExamples, by decide, by decide⟩, fun _ => .collection (by simp)⟩
      (.cons ⟨.inl rfl, fun _ => .collection (by simp)⟩ .nil))
  refine ⟨hload, ?_⟩
  rw [hgoverns'.load_eq_read, hholds'.read_eq_ofMapping]
  decide +kernel

/-- A mapping that is the value of its own switch, in the given spelling. -/
def itselfText (key : Text) : Text := "&a\n".toList ++ key ++ ": *a\n".toList

def itselfMapping (key : Text) : Mapping := [(.text key, .collection 0)]

def itselfDocument (key : Text) : Document := ⟨.collection 0, [(0, .mapping (itselfMapping key))]⟩

theorem holds_itself :
    ∀ key ∈ [Switch.includeExamples.key, Switch.includeExamples.camelKey],
      Holds .ofProgram (itselfText key) (itselfDocument key) (itselfMapping key) := by
  have hreads : ∀ key ∈ [Switch.includeExamples.key, Switch.includeExamples.camelKey],
      (itselfText key).trim.isEmpty = false ∧
        (Reader.ofProgram.read (itselfText key)).toOption = some (itselfDocument key) := by decide +kernel
  intro key hkey
  exact ⟨(hreads key hkey).1, eq_ok_of_toOption (hreads key hkey).2, rfl⟩

/-- The message shows such a mapping as it is spelled. -/
theorem load_itself :
    Holds .ofProgram (itselfText Switch.includeExamples.key)
      (itselfDocument Switch.includeExamples.key) [(.text Switch.includeExamples.key, .collection 0)] ∧
    Holds .ofProgram (itselfText Switch.includeExamples.camelKey)
      (itselfDocument Switch.includeExamples.camelKey)
      [(.text Switch.includeExamples.camelKey, .collection 0)] ∧
    fault? (load .ofProgram (soleDisk (itselfText Switch.includeExamples.key)) (.ofText ".".toList)) =
      some ("'include_examples' must be a boolean, got ".toList ++
        "\x7b'include_examples': \x7b...\x7d\x7d".toList) ∧
    fault? (load .ofProgram (soleDisk (itselfText Switch.includeExamples.camelKey)) (.ofText ".".toList)) =
      some ("'include_examples' must be a boolean, got ".toList ++
        "\x7b'includeExamples': \x7b...\x7d\x7d".toList) := by
  have hholds := holds_itself _ (List.mem_cons_self ..)
  have hholds' := holds_itself Switch.includeExamples.camelKey (by simp)
  refine ⟨hholds, hholds', ?_, ?_⟩
  · rw [(governs_soleDisk (by decide)).load_eq_read, hholds.read_eq_ofMapping]
    decide +kernel
  · rw [(governs_soleDisk (by decide)).load_eq_read, hholds'.read_eq_ofMapping]
    decide +kernel

end Settings

end DocScaffold
