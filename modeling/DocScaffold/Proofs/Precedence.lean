import DocScaffold.Proofs.Building
import DocScaffold.Proofs.Decoding
import DocScaffold.Proofs.Mappings
import DocScaffold.Proofs.Nearest

/-!
# Which entry sets a switch

The entries under `rustdocstring` are laid over those around them key by key, before the spellings are
looked up. So an entry there with underscores always counts, but one with capitals only where no entry
around it has underscores (`load_precedence`).
-/

namespace DocScaffold

open Yaml

theorem eq_ok_of_toOption {ε α : Type} {x : Except ε α} {a : α} (h : x.toOption = some a) :
    x = .ok a := by
  cases x with
  | error e => cases h
  | ok b => exact congrArg Except.ok (Option.some.inj h)

theorem Switch.get_set (s t : Switch) (b : Bool) (o : Options) :
    s.get (t.set b o) = if s = t then b else s.get o := by
  cases s <;> cases t <;> rfl

namespace Settings

variable {y : Reader} {d : Disk} {p : Path} {directory : List Text} {text : Text} {document : Document}
  {m : Mapping}

/-! ## The text that governs a path -/

/-- The text in the settings file that is found for a path. -/
structure Governs (d : Disk) (p : Path) (directory : List Text) (text : Text) : Prop where
  exists_place : ∃ place, d.placeOf? p = some place ∧ d.isTooLong place = false ∧
    d.isTooLong (firstFile d place) = false ∧ directoryFor d place = directory
  is_file : d.isFile (fileIn directory) = true
  reads : d.readText ⟨['/'], fileIn directory⟩ = .ok text

/-- A disk with a settings file in its root and nothing else. -/
def soleDisk (text : Text) : Disk where
  tree := .directory [(fileName, .file (Utf8.encode text))]
  here := []
  home _ := none

theorem governs_soleDisk {text : Text} (h : text.plainBreaks = text) :
    Governs (soleDisk text) (.ofText ".".toList) [] text := by
  refine ⟨⟨[], rfl, rfl, rfl, rfl⟩, rfl, ?_⟩
  have hbytes : (soleDisk text).readBytes ⟨['/'], fileIn []⟩ = .ok (Utf8.encode text) := rfl
  rw [Disk.readText, hbytes]
  dsimp only
  rw [Utf8.decode_encode]
  exact congrArg Except.ok h

theorem Governs.load_eq_read (h : Governs d p directory text) : load y d p = read y directory text := by
  obtain ⟨⟨place, hplace, hshort, hshort', rfl⟩, hfile, hreads⟩ := h
  have hsome : (d.get? (fileIn (directoryFor d place))).isNone = false := by
    obtain ⟨bytes, hlook⟩ := Disk.isFile_iff.1 hfile
    rw [Disk.isNone_get?, hlook]
    rfl
  rw [(load_eq y d p).1 place hplace, loadAt, hshort, hshort', if_neg (by decide), loadFrom, hsome,
    if_neg (by decide), hreads]

/-- A text of which a reader makes a document with a mapping as its root. -/
structure Holds (y : Reader) (text : Text) (document : Document) (m : Mapping) : Prop where
  not_blank : text.trim.isEmpty = false
  reads : y.read text = .ok document
  root : document.mapping? document.root = some m

theorem Holds.read_eq_ofMapping (h : Holds y text document m) (directory : List Text) :
    read y directory text = ofMapping directory document m := by
  have hroot : document.root ≠ .null := by
    intro hnull
    have hm := h.root
    rw [hnull] at hm
    cases hm
  rw [read, h.not_blank, if_neg (by decide), h.reads]
  dsimp only
  rw [h.root]
  split
  · exact absurd ‹_› hroot
  · rename_i hm _
    rw [Option.some.inj hm]
  · rename_i hm _
    cases hm

theorem Holds.keysApart (h : Holds y text document m) (hy : y.KeepsKeysApart) : Value.KeysApart m :=
  hy _ _ h.reads _ _ h.root

theorem Holds.keysApart_group (h : Holds y text document m) (hy : y.KeepsKeysApart) (name : Text) :
    Value.KeysApart (group document m name) := by
  rw [group]
  cases hfound : (Value.get? name m).bind document.mapping? with
  | none => exact List.Pairwise.nil
  | some nested =>
    obtain ⟨v, -, hv⟩ := Option.bind_eq_some_iff.1 hfound
    exact hy _ _ h.reads _ _ hv

/-! ## What sets a switch -/

/-- The position that a switch has by what is found for it. Without a value and with a null it is the
usual one. -/
def positionOf? (s : Switch) : Option Value → Option Bool
  | none | some .null => some (s.get {})
  | some v => asBool? v

theorem positionOf?_of_ne {s : Switch} {v : Value} (hv : v ≠ .null) :
    positionOf? s (some v) = asBool? v := by
  cases v with
  | null => exact absurd rfl hv
  | _ => rfl

/-- The first switch gets the position of what is found for it, and the others stay as they are. -/
theorem exists_of_setSwitches_cons {o o' : Options} {t : Switch} {rest : List Switch}
    (h : setSwitches document m o (t :: rest) = .ok o') :
    ∃ o₁, setSwitches document m o₁ rest = .ok o' ∧ (∀ s, s ≠ t → s.get o₁ = s.get o) ∧
      (t.get o = t.get {} → positionOf? t (found? m t) = some (t.get o₁)) := by
  rw [setSwitches] at h
  split at h
  · rename_i hfound
    exact ⟨o, h, fun _ _ => rfl, fun hdefault => by rw [hfound, positionOf?, hdefault]⟩
  · rename_i hfound
    exact ⟨o, h, fun _ _ => rfl, fun hdefault => by rw [hfound, positionOf?, hdefault]⟩
  · rename_i v hnull hfound
    split at h
    · rename_i b hb
      refine ⟨t.set b o, h, fun s hs => ?_, fun _ => ?_⟩
      · rw [Switch.get_set, if_neg hs]
      · rw [hfound, positionOf?_of_ne hnull, hb, Switch.get_set, if_pos rfl]
    · exact absurd h (by simp)

theorem get_of_setSwitches {o o' : Options} {switches : List Switch} (hnodup : switches.Nodup)
    (h : setSwitches document m o switches = .ok o') :
    (∀ s ∈ switches, s.get o = s.get {} → positionOf? s (found? m s) = some (s.get o')) ∧
      ∀ s, s ∉ switches → s.get o' = s.get o := by
  induction switches generalizing o with
  | nil =>
    obtain rfl := Except.ok.inj h
    exact ⟨fun s hs => absurd hs (by simp), fun _ _ => rfl⟩
  | cons t rest ih =>
    obtain ⟨hnew, hrest⟩ := List.nodup_cons.1 hnodup
    obtain ⟨o₁, hrun, hsame, hfirst⟩ := exists_of_setSwitches_cons h
    obtain ⟨hin, hout⟩ := ih hrest hrun
    refine ⟨fun s hs hdefault => ?_, fun s hs => ?_⟩
    · rcases List.mem_cons.1 hs with rfl | hs
      · rw [hout s hnew]
        exact hfirst hdefault
      · have hne : s ≠ t := fun heq => hnew (heq ▸ hs)
        exact hin s hs ((hsame s hne).trans hdefault)
    · rw [hout s fun hmem => hs (by simp [hmem])]
      exact hsame s fun heq => hs (by simp [heq])

theorem found?_eq (m : Mapping) (s : Switch) :
    found? m s = (Value.get? s.key m).or (Value.get? s.camelKey m) := by
  rw [found?]
  cases Value.get? s.key m <;> rfl

/-- Underscores prevail over capitals, and of two entries with one spelling the one on top. -/
theorem found?_overlay {top : Mapping} (h : Value.KeysApart top) (base : Mapping) (s : Switch) :
    found? (Value.overlay base top) s =
      (Value.get? s.key top).or ((Value.get? s.key base).or
        ((Value.get? s.camelKey top).or (Value.get? s.camelKey base))) := by
  rw [found?_eq, Value.get?_overlay h, Value.get?_overlay h, Option.or_assoc]

theorem options_of_ofMapping {settings : Settings} (h : ofMapping directory document m = .ok settings)
    (s : Switch) :
    positionOf? s (found? (Value.overlay m (group document m "rustdocstring".toList)) s) =
      some (s.get settings.options) := by
  rw [ofMapping] at h
  simp only [bind, Except.bind] at h
  split at h
  · exact absurd h (by simp)
  · rename_i o ho
    split at h
    · exact absurd h (by simp)
    · rw [← Except.ok.inj h]
      exact (get_of_setSwitches (by decide) ho).1 s (by cases s <;> decide) rfl

/-- The entries but those under a name. -/
def without (name : Text) (m : Mapping) : Mapping := m.filter fun (k, _) => !k.sameKey (.text name)

theorem get?_without (name other : Text) (m : Mapping) :
    Value.get? other (without name m) = if other = name then none else Value.get? other m := by
  induction m with
  | nil => cases decEq other name <;> simp_all [without, Value.get?_nil]
  | cons entry rest ih =>
    obtain ⟨k, v⟩ := entry
    rw [without, List.filter_cons, Value.get?_cons]
    change Value.get? other (if (!k.sameKey (.text name)) = true then (k, v) :: without name rest
      else without name rest) = _
    split
    · rename_i hother
      rw [Value.get?_cons, ih]
      by_cases hk : k = .text other
      · have hne : other ≠ name := by
          rintro rfl
          rw [Value.sameKey_text.2 hk] at hother
          exact absurd hother (by decide)
        rw [if_pos hk, if_pos hk, if_neg hne]
      · rw [if_neg hk, if_neg hk]
    · rename_i hname
      have hk : k = .text name := Value.sameKey_text.1 (by simpa using hname)
      rw [ih]
      by_cases heq : other = name
      · rw [if_pos heq, if_pos heq]
      · rw [if_neg heq, if_neg heq, if_neg fun hk' => heq (Value.text.inj (hk'.symm.trans hk))]

/-- Under a name that is left out nothing is found. -/
theorem group_without (document : Document) (name : Text) (m : Mapping) :
    group document (without name m) name = [] := by
  rw [group, get?_without, if_pos rfl]
  rfl

theorem key_ne_rustdocstring (s : Switch) : s.key ≠ "rustdocstring".toList := by
  cases s <;> decide

theorem camelKey_ne_rustdocstring (s : Switch) : s.camelKey ≠ "rustdocstring".toList := by
  cases s <;> decide

theorem found?_without (m : Mapping) (s : Switch) :
    found? (without "rustdocstring".toList m) s = found? m s := by
  rw [found?_eq, found?_eq, get?_without, get?_without, if_neg (key_ne_rustdocstring s),
    if_neg (camelKey_ne_rustdocstring s)]

/-- Which entry a switch is set by where settings load, with any reader that keeps keys apart. An entry
with underscores under `rustdocstring` counts, and one with capitals there counts if no entry there or
around it has underscores. An entry around it with underscores counts if none there has. A switch that is
not mentioned there is set as by the entries around it alone. -/
theorem load_precedence {nested : Mapping} {settings : Settings} (hy : y.KeepsKeysApart)
    (hgoverns : Governs d p directory text) (hholds : Holds y text document m)
    (hnested : group document m "rustdocstring".toList = nested) (hload : load y d p = .ok settings)
    (s : Switch) :
    (∀ v, Value.get? s.key nested = some v → positionOf? s (some v) = some (s.get settings.options)) ∧
      (Value.get? s.key nested = none →
        (∀ v, Value.get? s.key m = some v → positionOf? s (some v) = some (s.get settings.options)) ∧
        (Value.get? s.key m = none → ∀ v, Value.get? s.camelKey nested = some v →
          positionOf? s (some v) = some (s.get settings.options)) ∧
        (Value.get? s.camelKey nested = none →
          positionOf? s (found? m s) = some (s.get settings.options) ∧
          ∀ alone, ofMapping directory document (without "rustdocstring".toList m) = .ok alone →
            s.get alone.options = s.get settings.options)) := by
  subst hnested
  rw [hgoverns.load_eq_read, hholds.read_eq_ofMapping] at hload
  have hposition := options_of_ofMapping hload s
  rw [found?_overlay (hholds.keysApart_group hy _)] at hposition
  refine ⟨fun v hv => ?_, fun hnone => ⟨fun v hv => ?_, fun hnone' v hv => ?_, fun hcamel => ?_⟩⟩
  · rwa [hv, Option.some_or] at hposition
  · rwa [hnone, hv, Option.none_or, Option.some_or] at hposition
  · rwa [hnone, hnone', hv, Option.none_or, Option.none_or, Option.some_or] at hposition
  · rw [hnone, hcamel, Option.none_or, Option.none_or, ← found?_eq] at hposition
    refine ⟨hposition, fun alone halone => ?_⟩
    have hposition' := options_of_ofMapping halone s
    rw [group_without] at hposition'
    change positionOf? s (found? (without "rustdocstring".toList m) s) = _ at hposition'
    rw [found?_without, hposition] at hposition'
    exact (Option.some.inj hposition').symm

/-- A switch that is mentioned twice, and another one. -/
def shadowedText : Text :=
  "include_examples: true\nrustdocstring:\n  includeExamples: false\n  gateStructExamples: yes\n".toList

def shadowedMapping : Mapping :=
  [(.text "include_examples".toList, .bool true), (.text "rustdocstring".toList, .collection 4)]

def shadowedDocument : Document where
  root := .collection 0
  collections := [(4, .mapping [(.text "includeExamples".toList, .bool false),
    (.text "gateStructExamples".toList, .bool true)]), (0, .mapping shadowedMapping)]

theorem load_precedence_shadowed :
    Holds .ofProgram shadowedText shadowedDocument shadowedMapping ∧
      Value.get? "includeExamples".toList
        (group shadowedDocument shadowedMapping "rustdocstring".toList) = some (.bool false) ∧
      ∃ settings, load .ofProgram (soleDisk shadowedText) (.ofText ".".toList) = .ok settings ∧
        Switch.includeExamples.get settings.options = true ∧
        Switch.gateStructExamples.get settings.options = true := by
  have hgoverns : Governs (soleDisk shadowedText) (.ofText ".".toList) [] shadowedText :=
    governs_soleDisk (by decide)
  have hholds : Holds .ofProgram shadowedText shadowedDocument shadowedMapping :=
    ⟨by decide, eq_ok_of_toOption (by unfold shadowedText; rw [String.toList_ofList]; decide +kernel), rfl⟩
  have hload : load .ofProgram (soleDisk shadowedText) (.ofText ".".toList) =
      .ok { options := { gateStructExamples := true } } := by
    rw [hgoverns.load_eq_read, hholds.read_eq_ofMapping]
    rfl
  refine ⟨hholds, by decide, _, hload, ?_, ?_⟩
  · have hexamples := load_precedence Reader.keepsKeysApart_ofProgram hgoverns hholds rfl hload
      .includeExamples
    exact (Option.some.inj ((hexamples.2 (by decide)).1 (.bool true) (by decide))).symm
  · have hgate := load_precedence Reader.keepsKeysApart_ofProgram hgoverns hholds rfl hload
      .gateStructExamples
    exact (Option.some.inj ((hgate.2 (by decide)).2.1 (by decide) (.bool true) (by decide))).symm

end Settings

end DocScaffold
