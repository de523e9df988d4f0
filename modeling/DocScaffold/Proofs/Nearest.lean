import Mathlib.Data.List.Flatten
import DocScaffold.Host.Yaml.Document
import DocScaffold.Proofs.Elsewhere

/-!
# The nearest settings file

The search for settings goes up from where it starts, and the first directory with a settings file ends
it (`nearest?_cases`). What is loaded are the settings that the bytes of this file hold for this
directory, whatever lies elsewhere (`load_nearest`).
-/

namespace DocScaffold

/-! ## Ways to places -/

/-- Whether a place is reached by going down, and its names are names of files. -/
def IsPlain (place : List Text) : Prop := ∀ part ∈ place, part ≠ ['.', '.'] ∧ '\x00' ∉ part

theorem isPlain_resolveFrom {place parts : List Text} (hplace : IsPlain place)
    (hparts : ∀ part ∈ parts, '\x00' ∉ part) : IsPlain (Path.resolveFrom place parts) := by
  induction parts generalizing place with
  | nil =>
    intro part hpart
    exact hplace part (List.mem_reverse.1 hpart)
  | cons part rest ih =>
    have hrest : ∀ p ∈ rest, '\x00' ∉ p := fun p hp => hparts p (by simp [hp])
    rw [Path.resolveFrom]
    split
    · exact ih (fun p hp => hplace p (List.mem_of_mem_tail hp)) hrest
    · rename_i hdown
      refine ih (fun p hp => ?_) hrest
      rcases List.mem_cons.1 hp with rfl | hp
      · exact ⟨hdown, hparts p (by simp)⟩
      · exact hplace p hp

theorem resolveFrom_of_isPlain {place parts : List Text} (h : IsPlain parts) :
    Path.resolveFrom place parts = place.reverse ++ parts := by
  induction parts generalizing place with
  | nil => rw [Path.resolveFrom, List.append_nil]
  | cons part rest ih =>
    rw [Path.resolveFrom, if_neg (h part (by simp)).1, ih fun p hp => h p (by simp [hp])]
    simp

namespace Disk

variable {d : Disk}

theorem walk_append (d : Disk) (place front rest : List Text) :
    d.walk place (front ++ rest) = (d.walk place front).bind fun found => d.walk found.reverse rest := by
  induction front generalizing place with
  | nil =>
    rw [List.nil_append, walk]
    simp only [Except.bind, List.reverse_reverse]
  | cons part front ih =>
    rw [List.cons_append, walk_cons, walk_cons]
    split
    · rfl
    · rfl
    · split
      · rfl
      · split
        · exact ih place.tail
        · exact ih (part :: place)

/-- The way to something leads there, unless a name on it is too long. -/
theorem walk_eq {start parts : List Text} (hplain : ∀ part ∈ parts, part ≠ ['.', '.'])
    (hlook : d.look (start.reverse ++ parts) ≠ none) :
    d.walk start parts = .ok (start.reverse ++ parts) ∨ d.walk start parts = .error .nameTooLong := by
  induction parts generalizing start with
  | nil => exact .inl (by rw [walk, List.append_nil])
  | cons part rest ih =>
    have hdirectory : d.look start.reverse = some none := Tree.look_of_append (by simp) hlook
    have hnext : (part :: start).reverse ++ rest = start.reverse ++ part :: rest := by simp
    rw [walk_cons, hdirectory]
    dsimp only
    split
    · exact .inr rfl
    · rw [if_neg (hplain part (by simp)), ← hnext]
      exact ih (fun p hp => hplain p (by simp [hp])) (by rwa [hnext])

theorem hasNul_of_isPlain {place : List Text} (h : IsPlain place) :
    Path.hasNul ⟨['/'], place⟩ = false := by
  rw [Path.hasNul, List.any_eq_false]
  intro part hpart
  simpa using (h part hpart).2

/-- What lies at a plain place is found, if its name is not too long. -/
theorem find_eq {place : List Text} (hplain : IsPlain place) (hlong : d.isTooLong place = false)
    (hlook : d.look place ≠ none) : d.find ⟨['/'], place⟩ = .ok place := by
  have hlong' : d.find ⟨['/'], place⟩ ≠ .error .nameTooLong := by
    rw [Ne, ← isTooLong_iff, hlong]
    decide
  rw [find, hasNul_of_isPlain hplain] at hlong' ⊢
  rw [if_neg (by decide)] at hlong' ⊢
  split at hlong'
  · exact absurd rfl hlong'
  · rw [if_neg ‹_›]
    have hwalk : d.walk [] place = .ok place ∨ d.walk [] place = .error .nameTooLong :=
      walk_eq (fun part hpart => (hplain part hpart).1) hlook
    exact hwalk.resolve_right hlong'

/-- The place that a path names. A path with a NUL names none, and neither does one that leads through the
home of somebody unknown. -/
def placeOf? (d : Disk) (p : Path) : Option (List Text) :=
  if p.hasNul then none else (p.expand? d.home).map d.resolve

/-- The places that a disk knows by itself are plain. -/
structure IsProper (d : Disk) : Prop where
  here : IsPlain d.here
  home : ∀ user place, d.home user = some place → IsPlain place

theorem IsProper.isPlain (h : d.IsProper) {p : Path} {place : List Text}
    (hplace : d.placeOf? p = some place) : IsPlain place := by
  rw [placeOf?] at hplace
  split at hplace
  · exact absurd hplace (by simp)
  · rename_i hnul
    obtain ⟨q, hq, rfl⟩ := Option.map_eq_some_iff.1 hplace
    have hparts : ∀ part ∈ p.parts, '\x00' ∉ part := by
      intro part hpart hmem
      exact hnul (List.any_eq_true.2 ⟨part, hpart, by simpa using hmem⟩)
    have hstart : IsPlain (if q.isAbsolute then [] else d.here.reverse) := by
      split
      · exact fun part hpart => absurd hpart (by simp)
      · exact fun part hpart => h.here part (List.mem_reverse.1 hpart)
    refine isPlain_resolveFrom hstart ?_
    rw [Path.expand?] at hq
    split at hq
    · rename_i user rest _ hwritten
      obtain ⟨home, hhome, rfl⟩ := Option.map_eq_some_iff.1 hq
      intro part hpart
      rcases List.mem_append.1 hpart with hpart | hpart
      · exact (h.home user home hhome part hpart).2
      · exact hparts part (by simp [hwritten, hpart])
    · obtain rfl := Option.some.inj hq
      exact hparts

end Disk

/-! ## Names that are too long -/

namespace Text

theorem sublist_intercalate_last (separator last : Text) (ls : List Text) :
    last.Sublist (List.intercalate separator (ls ++ [last])) := by
  induction ls with
  | nil => simp
  | cons l ls ih =>
    rw [List.cons_append, List.intercalate_cons_of_ne_nil (by simp)]
    exact ih.trans (List.sublist_append_right _ _)

/-- Parts that are left out in front of the last one shorten a text. -/
theorem sublist_intercalate (separator last : Text) (front more : List Text) :
    (List.intercalate separator (front ++ [last])).Sublist
      (List.intercalate separator (front ++ more ++ [last])) := by
  induction front with
  | nil =>
    rw [List.nil_append, List.intercalate_singleton]
    exact sublist_intercalate_last separator last more
  | cons l front ih =>
    rw [List.cons_append, List.cons_append, List.cons_append, List.intercalate_cons_of_ne_nil (by simp),
      List.intercalate_cons_of_ne_nil (by simp)]
    exact (List.Sublist.refl (l ++ separator)).append ih

end Text

namespace Settings

open Disk

variable {y : Yaml.Reader} {d : Disk}

theorem isPlain_fileIn {directory : List Text} (h : IsPlain directory) :
    IsPlain (fileIn directory) := by
  intro part hpart
  rcases List.mem_append.1 hpart with hpart | hpart
  · exact h part hpart
  · rw [List.mem_singleton.1 hpart]
    decide

/-- The name of a settings file is short. -/
theorem walk_fileName_ne (d : Disk) (place : List Text) :
    d.walk place [fileName] ≠ .error .nameTooLong := by
  rw [walk_cons]
  split
  · simp
  · simp
  · rw [if_neg (by decide), if_neg (by decide), walk]
    simp

/-- The way to the settings file of a directory is not too long if the one from further down is not. -/
theorem isTooLong_of_prefix {directory start : List Text} (hway : directory <+: start)
    (h : d.isTooLong (fileIn start) = false) (hplain : IsPlain start) :
    d.isTooLong (fileIn directory) = false := by
  obtain ⟨more, rfl⟩ := hway
  have hfront : IsPlain directory := fun part hpart => hplain part (List.mem_append_left _ hpart)
  rw [Bool.eq_false_iff, Ne, isTooLong_iff, find, hasNul_of_isPlain (isPlain_fileIn hplain),
    if_neg (by decide)] at h
  rw [Bool.eq_false_iff, Ne, isTooLong_iff, find, hasNul_of_isPlain (isPlain_fileIn hfront),
    if_neg (by decide)]
  have hlength : (Utf8.encode (Path.text ⟨['/'], fileIn directory⟩)).length ≤
      (Utf8.encode (Path.text ⟨['/'], fileIn (directory ++ more)⟩)).length :=
    (((List.Sublist.refl ['/']).append
      (Text.sublist_intercalate ['/'] fileName directory more)).flatMap _).length_le
  split at h
  · exact absurd rfl h
  · rw [if_neg (by omega)]
    intro hwalk
    refine h ?_
    change d.walk [] (directory ++ more ++ [fileName]) = _
    change d.walk [] (directory ++ [fileName]) = _ at hwalk
    rw [walk_append] at hwalk
    rw [List.append_assoc, walk_append]
    cases hdirectory : d.walk [] directory with
    | error e =>
      rw [hdirectory] at hwalk
      exact hwalk
    | ok found =>
      rw [hdirectory] at hwalk
      exact absurd hwalk (walk_fileName_ne d _)

/-! ## The search -/

/-- The nearest directory with a settings file: it lies on the way to where the search starts, and no
directory further down that way has one. -/
structure IsNearest (d : Disk) (start directory : List Text) : Prop where
  on_way : directory <+: start
  has_file : d.isFile (fileIn directory) = true
  first : ∀ other, directory <+: other → other <+: start → d.isFile (fileIn other) = true →
    other = directory

/-- A search ends at the nearest directory with a settings file, or there is none. -/
theorem nearest?_cases (d : Disk) (around : List Text) :
    (∃ directory, nearest? d around = some directory ∧ IsNearest d around.reverse directory) ∨
      nearest? d around = none ∧
        ∀ directory, directory <+: around.reverse → d.isFile (fileIn directory) = false := by
  induction around with
  | nil =>
    rw [nearest?]
    split
    · rename_i hfile
      refine .inl ⟨[], rfl, List.nil_prefix, hfile, fun other _ hother _ => ?_⟩
      exact List.prefix_nil.1 hother
    · rename_i hfile
      refine .inr ⟨rfl, fun directory hdirectory => ?_⟩
      rw [List.prefix_nil.1 hdirectory]
      simpa using hfile
  | cons part around ih =>
    rw [nearest?]
    split
    · rename_i hfile
      exact .inl ⟨_, rfl, List.prefix_rfl, hfile, fun other hfront hback _ =>
        (hback.eq_of_length_le hfront.length_le)⟩
    · rename_i hfile
      have hlower : ∀ other, other <+: (part :: around).reverse → d.isFile (fileIn other) = true →
          other <+: around.reverse := by
        intro other hother hsome
        rw [List.reverse_cons] at hother hfile
        rcases List.prefix_concat_iff.1 hother with rfl | hother
        · exact absurd hsome hfile
        · exact hother
      rcases ih with ⟨directory, hfound, hnearest⟩ | ⟨hnone, hall⟩
      · refine .inl ⟨directory, hfound, ?_, hnearest.has_file, fun other hfront hback hsome =>
          hnearest.first other hfront (hlower other hback hsome) hsome⟩
        rw [List.reverse_cons]
        exact hnearest.on_way.trans (List.prefix_append _ _)
      · refine .inr ⟨hnone, fun other hother => ?_⟩
        rw [Bool.eq_false_iff]
        intro hsome
        rw [hall other (hlower other hother hsome)] at hsome
        exact absurd hsome (by decide)

/-! ## What a settings file holds -/

/-- The settings that the bytes of a file hold for a directory. -/
def ofBytes (y : Yaml.Reader) (directory : List Text) (bytes : List UInt8) : Except Error Settings :=
  match Utf8.decode bytes with
  | .error e => .error (.undecodable e)
  | .ok s => read y directory s.plainBreaks

theorem directory_of_ofMapping {directory : List Text} {document : Yaml.Document} {m : Yaml.Mapping}
    {s : Settings} (h : ofMapping directory document m = .ok s) : s.directory = directory := by
  rw [ofMapping] at h
  simp only [bind, Except.bind] at h
  split at h
  · exact absurd h (by simp)
  · split at h
    · exact absurd h (by simp)
    · rw [← Except.ok.inj h]

theorem directory_of_read {directory : List Text} {text : Text} {s : Settings}
    (h : read y directory text = .ok s) : s.directory = directory := by
  rw [read] at h
  split at h
  · rw [← Except.ok.inj h]
  · split at h
    · exact absurd h (by simp)
    · exact absurd h (by simp)
    · split at h
      · rw [← Except.ok.inj h]
      · exact directory_of_ofMapping h
      · exact absurd h (by simp)

theorem directory_of_ofBytes {directory : List Text} {bytes : List UInt8} {s : Settings}
    (h : ofBytes y directory bytes = .ok s) : s.directory = directory := by
  rw [ofBytes] at h
  split at h
  · exact absurd h (by simp)
  · exact directory_of_read h

/-- From a directory with a settings file, the settings are those that this file holds. -/
theorem loadFrom_of_file {directory : List Text} {bytes : List UInt8} (hplain : IsPlain directory)
    (hlong : d.isTooLong (fileIn directory) = false)
    (hfile : d.look (fileIn directory) = some (some bytes)) :
    loadFrom y d directory = ofBytes y directory bytes := by
  have hfind := find_eq (isPlain_fileIn hplain) hlong (by simp [hfile])
  rw [loadFrom, isNone_get?, hfile, if_neg (by simp), readText, readBytes_of_find hfind, hfile, ofBytes]
  dsimp only
  cases Utf8.decode bytes <;> rfl

/-- A directory in the place of a settings file cannot be read. -/
theorem loadFrom_of_directory {directory : List Text} (hplain : IsPlain directory)
    (hlong : d.isTooLong (fileIn directory) = false) (hlook : d.look (fileIn directory) = some none) :
    loadFrom y d directory = .error (.file .isDirectory) := by
  have hfind := find_eq (isPlain_fileIn hplain) hlong (by simp [hlook])
  rw [loadFrom, isNone_get?, hlook, if_neg (by simp), readText, readBytes_of_find hfind, hlook]

theorem loadFrom_of_none {directory : List Text} (hlook : d.look (fileIn directory) = none) :
    loadFrom y d directory = .ok { directory } := by
  rw [loadFrom, isNone_get?, hlook]
  rfl

/-! ## Loading -/

theorem load_eq (y : Yaml.Reader) (d : Disk) (p : Path) :
    (∀ place, d.placeOf? p = some place → load y d p = loadAt y d place) ∧
      (d.placeOf? p = none → ∃ e, load y d p = .error e) := by
  rw [load, placeOf?]
  split
  · exact ⟨fun place hplace => absurd hplace (by simp), fun _ => ⟨_, rfl⟩⟩
  · cases p.expand? d.home with
    | none => exact ⟨fun place hplace => absurd hplace (by simp), fun _ => ⟨_, rfl⟩⟩
    | some q =>
      refine ⟨fun place hplace => ?_, fun hnone => absurd hnone (by simp)⟩
      rw [← Option.some.inj hplace]

/-- A path that names the settings file of a directory. -/
theorem load_fileIn {directory : List Text} {bytes : List UInt8} (hplain : IsPlain directory)
    (hlong : d.isTooLong (fileIn directory) = false)
    (hfile : d.look (fileIn directory) = some (some bytes)) :
    load y d ⟨['/'], fileIn directory⟩ = ofBytes y directory bytes := by
  have hname : (fileIn directory).getLast? = some fileName := List.getLast?_concat
  have hplace : d.placeOf? ⟨['/'], fileIn directory⟩ = some (fileIn directory) := by
    rw [placeOf?, hasNul_of_isPlain (isPlain_fileIn hplain), if_neg (by decide)]
    have hresolve : Path.resolveFrom [] (fileIn directory) = fileIn directory :=
      resolveFrom_of_isPlain (isPlain_fileIn hplain)
    exact congrArg some hresolve
  rw [(load_eq y d _).1 _ hplace, loadAt, firstFile, if_pos hname, hlong, directoryFor, if_pos hname,
    fileIn, List.dropLast_concat]
  exact loadFrom_of_file hplain hlong hfile

/-- The settings that govern a path are those of the nearest settings file on the way up from where the
search starts, as if that file had been named, and nothing else lies in their way. Without one nothing is
set, unless a directory has the name of a settings file where the search starts. -/
theorem load_nearest (y : Yaml.Reader) {d : Disk} (hd : d.IsProper) (p : Path) :
    (d.placeOf? p = none → ∃ e, load y d p = .error e) ∧
      ∀ place, d.placeOf? p = some place → place.getLast? ≠ some fileName →
        let start := startFor d place
        ((d.isTooLong place || d.isTooLong (fileIn start)) = true →
          load y d p = .error (.file .nameTooLong)) ∧
        ((d.isTooLong place || d.isTooLong (fileIn start)) = false →
          (∀ other, other <+: start → d.isFile (fileIn other) = true →
            ∃ directory bytes, IsNearest d start directory ∧
              d.look (fileIn directory) = some (some bytes) ∧ load y d p = ofBytes y directory bytes ∧
              load y d ⟨['/'], fileIn directory⟩ = ofBytes y directory bytes ∧
              ∀ s, load y d p = .ok s → s.directory = directory) ∧
          ((∀ other, other <+: start → d.isFile (fileIn other) = false) →
            load y d p = if d.isDirectory (fileIn start) then .error (.file .isDirectory)
              else .ok { directory := start, options := {}, enabled := [] })) := by
  refine ⟨(load_eq y d p).2, fun place hplace hname => ?_⟩
  intro start
  have hload : load y d p = if d.isTooLong place || d.isTooLong (fileIn start) then
      .error (.file .nameTooLong) else loadFrom y d ((nearest? d start.reverse).getD start) := by
    rw [(load_eq y d p).1 place hplace, loadAt, firstFile, if_neg hname, directoryFor, if_neg hname]
  have hplain : IsPlain start := by
    have hwhole := hd.isPlain hplace
    change IsPlain (if d.isDirectory place then place else place.dropLast)
    split
    · exact hwhole
    · exact fun part hpart => hwhole part ((List.dropLast_prefix place).subset hpart)
  refine ⟨fun hlong => by rw [hload, if_pos hlong], fun hshort => ?_⟩
  rw [hshort, if_neg (by decide)] at hload
  have hshort' : d.isTooLong (fileIn start) = false := (Bool.or_eq_false_iff.1 hshort).2
  rcases nearest?_cases d start.reverse with ⟨directory, hfound, hnearest⟩ | ⟨hnone, hall⟩
  · rw [List.reverse_reverse] at hnearest
    refine ⟨fun _ _ _ => ?_, fun hall => ?_⟩
    · obtain ⟨bytes, hbytes⟩ := isFile_iff.1 hnearest.has_file
      have hfront : IsPlain directory := fun part hpart => hplain part (hnearest.on_way.subset hpart)
      have hway := isTooLong_of_prefix hnearest.on_way hshort' hplain
      rw [hfound, Option.getD_some, loadFrom_of_file hfront hway hbytes] at hload
      refine ⟨directory, bytes, hnearest, hbytes, hload, load_fileIn hfront hway hbytes, ?_⟩
      rw [hload]
      exact fun s hs => directory_of_ofBytes hs
    · exact absurd hnearest.has_file (by simp [hall directory hnearest.on_way])
  · rw [List.reverse_reverse] at hall
    refine ⟨fun other hother hfile => absurd hfile (by simp [hall other hother]), fun _ => ?_⟩
    rw [hnone, Option.getD_none] at hload
    rw [hload, isDirectory_eq]
    cases hlook : d.look (fileIn start) with
    | none => exact loadFrom_of_none hlook
    | some content =>
      cases content with
      | none => exact loadFrom_of_directory hplain hshort' hlook
      | some bytes => exact absurd (isFile_iff.2 ⟨bytes, hlook⟩) (by simp [hall start List.prefix_rfl])

/-- A crate with settings between a file that is no text, further up, and a directory with the name of
settings, further down. -/
def crateDisk : Disk where
  tree := .directory [
    (fileName, .file [0xFF]),
    ("core".toList, .directory [
      (fileName, .file (Utf8.encode "gateStructExamples: on".toList)),
      ("src".toList, .directory [(fileName, .emptyDirectory)])])]
  here := ["core".toList]
  home _ := none

/-- A directory with the name of settings and no settings around it. -/
def bareDisk : Disk where
  tree := .directory [("src".toList, .directory [(fileName, .emptyDirectory)])]
  here := []
  home _ := none

theorem load_nearest_crate :
    (∃ directory bytes, IsNearest crateDisk ["core".toList, "src".toList] directory ∧
      crateDisk.look (fileIn directory) = some (some bytes) ∧
      load .ofProgram crateDisk (.ofText "src/lib.rs") = ofBytes .ofProgram directory bytes) ∧
      load .ofProgram bareDisk (.ofText "src/lib.rs") = .error (.file .isDirectory) := by
  have hproper : ∀ d : Disk, d.here ⊆ ["core".toList] → d.home = (fun _ => none) → d.IsProper := by
    intro d hhere hhome
    refine ⟨fun part hpart => ?_, fun user place hplace => ?_⟩
    · rw [List.mem_singleton.1 (hhere hpart)]
      decide
    · rw [hhome] at hplace
      exact absurd hplace (by simp)
  have hcrate := ((load_nearest .ofProgram (hproper crateDisk (by decide) rfl) (.ofText "src/lib.rs")).2
    ["core".toList, "src".toList, "lib.rs".toList] (by decide +kernel) (by decide)).2 (by decide +kernel)
  have hbare := ((load_nearest .ofProgram (hproper bareDisk (by decide) rfl) (.ofText "src/lib.rs")).2
    ["src".toList, "lib.rs".toList] (by decide +kernel) (by decide)).2 (by decide +kernel)
  constructor
  · obtain ⟨directory, bytes, hnearest, hlook, hload, -⟩ :=
      hcrate.1 ["core".toList] (by decide +kernel) (by decide +kernel)
    exact ⟨directory, bytes, hnearest, hlook, hload⟩
  · rw [hbare.2 fun other hother => ?_]
    · rfl
    · rcases List.prefix_concat_iff.1 (show other <+: [] ++ ["src".toList] from hother) with rfl | hother
      · decide +kernel
      · rw [List.prefix_nil.1 hother]
        decide +kernel

end Settings

end DocScaffold
