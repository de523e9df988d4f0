import Mathlib.Data.List.Sort
import DocScaffold.Host.Yaml.Document
import DocScaffold.Setup

/-!
# Generators for some kinds

A list of names selects kinds by the set of its names in lower case. Names that no kind has are told in
ascending order, each of them once. A generator for some kinds makes of a declaration what the one for
all kinds makes of it, or nothing (`select_names`).
-/

namespace DocScaffold.Generator

open Text

/-! ## Names in ascending order -/

theorem mem_insertName {name n : Text} {names : List Text} :
    n ∈ insertName name names ↔ n = name ∨ n ∈ names := by
  induction names with
  | nil => simp [insertName]
  | cons m names ih =>
    rw [insertName]
    by_cases heq : name = m
    · rw [if_pos heq, heq, List.mem_cons, or_self_left]
    · rw [if_neg heq]
      split
      · exact List.mem_cons
      · rw [List.mem_cons, ih, List.mem_cons, or_left_comm]

theorem ascending_insertName {name : Text} {names : List Text} (h : names.Pairwise (· < ·)) :
    (insertName name names).Pairwise (· < ·) := by
  induction names with
  | nil => exact List.pairwise_singleton _ _
  | cons m names ih =>
    obtain ⟨hm, hnames⟩ := List.pairwise_cons.1 h
    rw [insertName]
    by_cases heq : name = m
    · rwa [if_pos heq]
    · rw [if_neg heq]
      by_cases hlt : name < m
      · rw [if_pos hlt, List.pairwise_cons]
        refine ⟨fun n hn => ?_, h⟩
        rcases List.mem_cons.1 hn with rfl | hn
        · exact hlt
        · exact List.lt_trans hlt (hm n hn)
      · rw [if_neg hlt, List.pairwise_cons]
        refine ⟨fun n hn => ?_, ih hnames⟩
        rcases mem_insertName.1 hn with rfl | hn
        · by_contra hnot
          exact heq (List.le_antisymm (List.not_lt.1 hnot) (List.not_lt.1 hlt))
        · exact hm n hn

/-- The names of a list that no kind has, each of them once and in ascending order. -/
structure AreUnknown (names unknown : List Text) : Prop where
  ascending : unknown.Pairwise (· < ·)
  mem_iff : ∀ n, n ∈ unknown ↔ n ∈ names ∧ ∀ kind : Item.Kind, n ≠ kind.name

/-- Names are unknown or not as a set. -/
theorem AreUnknown.unique {names names' unknown unknown' : List Text} (h : AreUnknown names unknown)
    (h' : AreUnknown names' unknown') (hset : ∀ n, n ∈ names ↔ n ∈ names') : unknown = unknown' := by
  apply h.ascending.eq_of_mem_iff h'.ascending
  intro n
  rw [h.mem_iff, h'.mem_iff, hset]

def unknownNames (names : List Text) : List Text :=
  (names.filter fun n => !(Item.Kind.all.map (·.name)).contains n).foldr insertName []

theorem not_known_iff (n : Text) :
    (!(Item.Kind.all.map (·.name)).contains n) = true ↔ ∀ kind : Item.Kind, n ≠ kind.name := by
  simp only [Bool.not_eq_true', List.contains_eq_mem, decide_eq_false_iff_not, List.mem_map, not_exists,
    not_and]
  exact ⟨fun h kind heq => h kind kind.mem_all heq.symm, fun h kind _ heq => h kind heq.symm⟩

theorem areUnknown_unknownNames (names : List Text) : AreUnknown names (unknownNames names) := by
  suffices h : ∀ ns : List Text, (ns.foldr insertName []).Pairwise (· < ·) ∧
      ∀ n, n ∈ ns.foldr insertName [] ↔ n ∈ ns by
    refine ⟨(h _).1, fun n => ?_⟩
    rw [unknownNames, (h _).2, List.mem_filter, not_known_iff]
  intro ns
  induction ns with
  | nil => exact ⟨.nil, fun n => Iff.rfl⟩
  | cons m ns ih =>
    refine ⟨ascending_insertName ih.1, fun n => ?_⟩
    rw [List.foldr_cons, mem_insertName, ih.2, List.mem_cons]

/-! ## Kinds by their names -/

theorem select_eq (names : List Text) : select (some names) =
    if unknownNames (names.map lower) = [] then
      .ok ⟨Item.Kind.all.filter fun kind => (names.map lower).contains kind.name⟩
    else .error ⟨unknownNames (names.map lower)⟩ := by
  cases hunknown : unknownNames (names.map lower) with
  | nil =>
    rw [unknownNames] at hunknown
    simp only [select, hunknown, if_true]
  | cons n ns =>
    rw [unknownNames] at hunknown
    simp only [select, hunknown, List.cons_ne_nil, if_false]

section

variable {names : List Text}

/-- Only the set of the names in lower case counts. -/
theorem select_congr {others : List Text} (hset : ∀ n, n ∈ names.map lower ↔ n ∈ others.map lower) :
    select (some others) = select (some names) := by
  have hunknown := (areUnknown_unknownNames (names.map lower)).unique
    (areUnknown_unknownNames (others.map lower)) hset
  have hcontains : ∀ kind : Item.Kind, (others.map lower).contains kind.name =
      (names.map lower).contains kind.name := by
    intro kind
    rw [Bool.eq_iff_iff, List.contains_iff_mem, List.contains_iff_mem, hset]
  simp only [select_eq, hunknown, hcontains]

theorem unknownNames_eq_nil_iff : unknownNames (names.map lower) = [] ↔
    ¬ ∃ n ∈ names, ∀ kind : Item.Kind, n.lower ≠ kind.name := by
  simp only [List.eq_nil_iff_forall_not_mem, (areUnknown_unknownNames _).mem_iff, List.mem_map]
  constructor
  · rintro h ⟨n, hn, hkind⟩
    exact h n.lower ⟨⟨n, hn, rfl⟩, hkind⟩
  · rintro h _ ⟨⟨n, hn, rfl⟩, hkind⟩
    exact h ⟨n, hn, hkind⟩

theorem exists_error_iff : (∃ e, select (some names) = .error e) ↔
    ∃ n ∈ names, ∀ kind : Item.Kind, n.lower ≠ kind.name := by
  rw [select_eq]
  by_cases hnone : unknownNames (names.map lower) = []
  · simp [hnone, unknownNames_eq_nil_iff.1 hnone]
  · simp [hnone, not_not.1 (unknownNames_eq_nil_iff.not.1 hnone)]

theorem names_of_select {e : UnknownNames} (h : select (some names) = .error e) :
    e.names = unknownNames (names.map lower) := by
  rw [select_eq] at h
  split at h
  · simp at h
  · rw [← Except.error.inj h]

theorem kinds_of_select {g : Generator} (h : select (some names) = .ok g) :
    g.kinds = Item.Kind.all.filter fun kind => kind.name ∈ names.map lower := by
  rw [select_eq] at h
  split at h
  · rw [← Except.ok.inj h]
    simp only [List.contains_eq_mem]
  · simp at h

theorem contains_kinds_of_select {g : Generator} (h : select (some names) = .ok g) (kind : Item.Kind) :
    g.kinds.contains kind = decide (kind.name ∈ names.map lower) := by
  rw [kinds_of_select h, Bool.eq_iff_iff, List.contains_iff_mem, List.mem_filter,
    decide_eq_true_iff]
  exact and_iff_right kind.mem_all

end

/-! ## Generators of selected kinds -/

/-- A generator for some kinds makes what the one for all kinds makes, or nothing. -/
theorem template?_document (g : Generator) (s : Text) (o : Options) :
    (g.document s o).template? =
      if (Item.kindOf? s).any (g.kinds.contains ·) then (full.document s o).template? else none := by
  have hfull : ∀ kind : Item.Kind, full.kinds.contains kind = true := fun kind =>
    List.contains_iff_mem.2 kind.mem_all
  rw [Item.kindOf?, document, document]
  cases Item.Class.of s with
  | unsupported keyword => rfl
  | documented kind =>
    dsimp only
    rw [Option.any_some, if_pos (hfull kind)]
    split <;> rfl

theorem setUp_of_load {y : Yaml.Reader} {d : Disk} {p : Path} {settings : Settings}
    (h : Settings.load y d p = .ok settings) :
    setUp y d p = (named settings.names?).map fun g => (g, settings.options) := by
  rw [setUp, h]
  change (named settings.names? >>= fun g => Except.ok (g, settings.options)) = _
  cases named settings.names? with
  | error e => rfl
  | ok g => rfl

/-- Lists with the same names in lower case select the same. A list is refused exactly when it holds a
name that no kind has, and all such names are told. Otherwise the kinds that it names are selected in
their order, and what is made of a declaration of such a kind is what the generator for all kinds makes
of it. Settings that name no kind set up the generator for all kinds. -/
theorem select_names (names : List Text) :
    (∀ others : List Text, (∀ n, n ∈ names.map lower ↔ n ∈ others.map lower) →
      select (some others) = select (some names)) ∧
    ((∃ e, select (some names) = .error e) ↔ ∃ n ∈ names, ∀ kind : Item.Kind, n.lower ≠ kind.name) ∧
    (∀ e, select (some names) = .error e → AreUnknown (names.map lower) e.names ∧
      e.message = "Unknown analyzers requested: ".toList ++ listed e.names) ∧
    (∀ g, select (some names) = .ok g →
      g.kinds = [.function, .struct, .enum].filter (fun kind => kind.name ∈ names.map lower) ∧
        ∀ s o, (g.document s o).template? =
          if (Item.kindOf? s).any fun kind => kind.name ∈ names.map lower then
            (full.document s o).template?
          else none) ∧
    ∀ settings : Settings, settings.enabled = [] → named settings.names? = .ok full ∧
      ∀ y d p, Settings.load y d p = .ok settings → setUp y d p = .ok (full, settings.options) := by
  refine ⟨fun others => select_congr, exists_error_iff, fun e he => ?_, fun g hg => ?_, ?_⟩
  · refine ⟨?_, rfl⟩
    rw [names_of_select he]
    exact areUnknown_unknownNames (names.map lower)
  · refine ⟨kinds_of_select hg, fun s o => ?_⟩
    rw [template?_document]
    simp only [contains_kinds_of_select hg]
  · intro settings henabled
    have hnamed : named settings.names? = .ok full := by
      rw [Settings.names?, henabled]
      rfl
    refine ⟨hnamed, fun y d p hload => ?_⟩
    rw [setUp_of_load hload, hnamed]
    rfl

def mixedNames : List Text := ["Enum", "FUNCTION", "enum"].map (·.toList)

def strangeNames : List Text := ["union", "Trait", "struct", "trait"].map (·.toList)

def plainOptions : Options := { includeExamples := false }

def emptyDisk : Disk where
  tree := .directory []
  here := []
  home _ := none

theorem select_names_mixed :
    select (some ["function".toList, "enum".toList]) = select (some mixedNames) ∧
      select (some mixedNames) = .ok ⟨[.function, .enum]⟩ ∧
      ((⟨[.function, .enum]⟩ : Generator).document "fn tick() \x7b" plainOptions).template? =
        some " $\x7b1:Describe this function.\x7d".toList ∧
      ((⟨[.function, .enum]⟩ : Generator).document "struct Pair(u8);" plainOptions).template? = none ∧
      (∃ e, select (some strangeNames) = .error e ∧ AreUnknown (strangeNames.map lower) e.names ∧
        e.names = ["trait".toList, "union".toList]) ∧
      setUp .ofProgram emptyDisk (.ofText "lib.rs") = .ok (full, {}) := by
  have hmixed := select_names mixedNames
  have hselect : select (some mixedNames) = .ok ⟨[.function, .enum]⟩ := rfl
  have hsame : ∀ n, n ∈ mixedNames.map lower ↔ n ∈ ["function".toList, "enum".toList].map lower := by
    have hlower : mixedNames.map lower = ["enum".toList, "function".toList, "enum".toList] := rfl
    have hlower' : ["function".toList, "enum".toList].map lower = ["function".toList, "enum".toList] := rfl
    intro n
    rw [hlower, hlower']
    simp only [List.mem_cons, List.not_mem_nil]
    tauto
  have hstrange := select_names strangeNames
  obtain ⟨e, he⟩ := hstrange.2.1.2 ⟨"Trait".toList, by decide, fun kind => by cases kind <;> decide⟩
  have hdocument := (hmixed.2.2.2.1 _ hselect).2
  refine ⟨hmixed.1 _ hsame, hselect, ?_, ?_, ⟨e, he, (hstrange.2.2.1 e he).1, ?_⟩, ?_⟩
  · have hkind : Item.kindOf? "fn tick() \x7b" = some .function := by decide +kernel
    rw [hdocument, hkind, Option.any_some, if_pos (by decide)]
    decide +kernel
  · have hkind : Item.kindOf? "struct Pair(u8);" = some .struct := by decide +kernel
    rw [hdocument, hkind]
    rfl
  · obtain rfl := Except.error.inj he
    rfl
  · have hload : Settings.load .ofProgram emptyDisk (.ofText "lib.rs") = .ok {} := rfl
    exact (hmixed.2.2.2.2 {} rfl).2 _ _ _ hload

end DocScaffold.Generator
