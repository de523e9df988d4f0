import DocScaffold.Proofs.Disks
import DocScaffold.Setup

/-!
# Settings and files elsewhere

Where one file differs that is not named like a settings file, the same settings are loaded (`load_of_ok`),
and the same generator is set up (`Generator.setUp_of_ok`).
-/

namespace DocScaffold

/-! ## Settings -/

namespace Settings

open Disk

variable {y : Yaml.Reader} {d e : Disk} {place : List Text} (h : SameBut place d e)
  (hname : place.getLast? ≠ some fileName)

include h hname

theorem look_fileIn (directory : List Text) : e.look (fileIn directory) = d.look (fileIn directory) := by
  apply h.look
  rintro rfl
  exact hname (by simp [fileIn])

theorem nearest?_eq (around : List Text) : nearest? e around = nearest? d around := by
  induction around with
  | nil => rw [nearest?, nearest?, isFile_eq, isFile_eq, look_fileIn h hname]
  | cons part around ih =>
    rw [nearest?, nearest?, isFile_eq, isFile_eq, look_fileIn h hname, ih]

omit hname in
theorem isTooLong_same (other : List Text) : e.isTooLong other = d.isTooLong other := by
  rw [Bool.eq_iff_iff, isTooLong_iff, isTooLong_iff, h.find_eq_nameTooLong_iff]

omit hname in
theorem startFor_eq (other : List Text) : startFor e other = startFor d other := by
  rw [startFor, startFor, h.isDirectory]

theorem directoryFor_eq (other : List Text) : directoryFor e other = directoryFor d other := by
  simp only [directoryFor, startFor_eq h, nearest?_eq h hname]

theorem loadFrom_of_ok {directory : List Text} {s : Settings} (hload : loadFrom y d directory = .ok s) :
    loadFrom y e directory = .ok s := by
  rw [loadFrom, isNone_get?] at hload ⊢
  rw [look_fileIn h hname]
  split at hload
  · rw [if_pos ‹_›]
    exact hload
  · rw [if_neg ‹_›]
    have hne : d.find ⟨['/'], fileIn directory⟩ ≠ .ok place := fun hfind =>
      hname (getLast?_of_walk (walk_of_find hfind) (by simp [fileIn]) (by decide))
    cases hread : d.readText ⟨['/'], fileIn directory⟩ with
    | error e =>
      rw [hread] at hload
      cases e <;> exact absurd hload (by simp)
    | ok text =>
      rw [hread] at hload
      rw [h.readText hne hread]
      exact hload

theorem loadAt_of_ok {other : List Text} {s : Settings} (hload : loadAt y d other = .ok s) :
    loadAt y e other = .ok s := by
  rw [loadAt] at hload ⊢
  rw [firstFile, startFor_eq h, isTooLong_same h, isTooLong_same h, ← firstFile, directoryFor_eq h hname]
  split at hload
  · exact absurd hload (by simp)
  · rw [if_neg ‹_›]
    exact loadFrom_of_ok h hname hload

/-- Settings are loaded again if the file that differs is not named like theirs. -/
theorem load_of_ok {p : Path} {s : Settings} (hload : load y d p = .ok s) : load y e p = .ok s := by
  rw [load] at hload ⊢
  rw [h.home]
  split
  · rw [if_pos ‹_›] at hload
    exact hload
  · rw [if_neg ‹_›] at hload
    cases hexpand : p.expand? d.home with
    | none =>
      rw [hexpand] at hload
      exact hload
    | some p =>
      rw [hexpand] at hload
      have hplace : e.resolve p = d.resolve p := by rw [resolve, resolve, h.here]
      dsimp only
      rw [hplace]
      exact loadAt_of_ok h hname hload

end Settings

/-- A generator is set up again if the file that differs is not named like a settings file. -/
theorem Generator.setUp_of_ok {y : Yaml.Reader} {d e : Disk} {place : List Text} (h : d.SameBut place e)
    (hname : place.getLast? ≠ some Settings.fileName) {p : Path} {made : Generator × Options}
    (hmade : setUp y d p = .ok made) : setUp y e p = .ok made := by
  cases hload : Settings.load y d p with
  | error =>
    rw [setUp, hload] at hmade
    nomatch hmade
  | ok s =>
    rw [setUp, hload] at hmade
    rw [setUp, Settings.load_of_ok h hname hload]
    exact hmade

end DocScaffold
