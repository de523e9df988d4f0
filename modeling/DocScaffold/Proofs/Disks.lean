import DocScaffold.Files.Disk

/-!
# Files that are written

A file that is opened or written to leaves all other files and all directories as they are
(`openFile_of_some`, `sameBut_extend`). So the same files can be opened as before (`SameBut.filePlace?`),
and what has been read from another file is read again (`SameBut.readText`).
-/

namespace DocScaffold

/-! ## Trees -/

namespace Tree

/-- The bytes of a file. -/
def bytes? : Tree → Option (List UInt8)
  | file bytes => some bytes
  | directory _ => none

/-- What is seen at a place: the bytes of a file, or none of a directory, if there is either. -/
def look (t : Tree) (place : List Text) : Option (Option (List UInt8)) := (t.get? place).map bytes?

theorem look_cons (t : Tree) (part : Text) (rest : List Text) :
    t.look (part :: rest) = (t.child? part).bind fun u => u.look rest := by
  rw [look, get?, Option.map_bind]
  rfl

/-- Nothing lies in a file. -/
theorem look_file (bytes : List UInt8) {place : List Text} (h : place ≠ []) :
    (file bytes).look place = none := by
  obtain ⟨part, rest, rfl⟩ := List.exists_cons_of_ne_nil h
  rfl

theorem exists_file_of_bytes? {t : Tree} (h : t.bytes? ≠ none) : ∃ bytes, t = file bytes := by
  cases t with
  | file bytes => exact ⟨bytes, rfl⟩
  | directory => exact absurd rfl h

theorem find?_setEntry (part name : Text) (new : Tree) (es : List (Text × Tree)) :
    ((setEntry part new es).find? (·.1 == name)).map (·.2) =
      if name = part then some new else (es.find? (·.1 == name)).map (·.2) := by
  induction es with
  | nil =>
    by_cases h : name = part
    · simp [setEntry, h]
    · simp [setEntry, h, Ne.symm h]
  | cons entry es ih =>
    obtain ⟨n, u⟩ := entry
    rw [setEntry]
    by_cases hn : n = part
    · subst hn
      by_cases h : name = n
      · simp [h]
      · simp [h, Ne.symm h]
    · rw [if_neg hn]
      by_cases h : n = name
      · subst h
        simp [hn]
      · simpa [List.find?_cons, h] using ih

theorem child?_put (t new : Tree) (part name : Text) (rest : List Text) :
    (t.put new (part :: rest)).child? name =
      if name = part then some (put ((t.child? part).getD emptyDirectory) new rest)
      else t.child? name :=
  find?_setEntry part name _ t.entries

theorem look_put_self (t new : Tree) (place : List Text) :
    (t.put new place).look place = some new.bytes? := by
  induction place generalizing t with
  | nil => rfl
  | cons part rest ih => rw [look_cons, child?_put, if_pos rfl, Option.bind_some, ih]

/-- A file that is put where no directory lies, in a directory, changes nothing elsewhere. -/
theorem look_put_of_ne {t : Tree} (bytes : List UInt8) {place other : List Text}
    (hway : ∀ front, front <+: place → front ≠ place → t.look front = some none)
    (hplace : t.look place ≠ some none) (hne : other ≠ place) :
    (t.put (file bytes) place).look other = t.look other := by
  induction place generalizing t other with
  | nil =>
    obtain ⟨old, rfl⟩ := exists_file_of_bytes? fun h => hplace (congrArg some h)
    rw [put, look_file _ hne, look_file _ hne]
  | cons part rest ih =>
    have hroot : t.look [] = some none := hway [] (List.nil_prefix) (by simp)
    cases other with
    | nil => exact hroot.symm
    | cons name others =>
      rw [look_cons, look_cons, child?_put]
      split
      · rename_i hname
        subst hname
        have hothers : others ≠ rest := fun h => hne (by rw [h])
        rw [look_cons] at hplace
        cases hchild : t.child? name with
        | none =>
          cases rest with
          | nil => exact look_file bytes hothers
          | cons next more =>
            -- Nothing lies under the name, but a directory on the way has to.
            have hdirectory := hway [name] ⟨next :: more, rfl⟩ (by simp)
            rw [look_cons, hchild] at hdirectory
            exact absurd hdirectory (by simp)
        | some u =>
          rw [hchild] at hplace
          refine ih (fun front hfront hproper => ?_) hplace hothers
          have hlook := hway (name :: front) (by simpa using hfront) (by simpa using hproper)
          rw [look_cons, hchild] at hlook
          exact hlook
      · rfl

theorem get?_append (t : Tree) (front rest : List Text) :
    t.get? (front ++ rest) = (t.get? front).bind fun u => u.get? rest := by
  induction front generalizing t with
  | nil => rfl
  | cons part front ih =>
    rw [List.cons_append, get?, get?, Option.bind_assoc]
    exact Option.bind_congr fun u _ => ih u

/-- Nothing lies behind a file. -/
theorem look_of_append {t : Tree} {front rest : List Text} (hrest : rest ≠ [])
    (h : t.look (front ++ rest) ≠ none) : t.look front = some none := by
  rw [look, get?_append] at h
  rw [look]
  cases hfront : t.get? front with
  | none => simp [hfront] at h
  | some u =>
    rw [hfront] at h
    cases u with
    | directory => rfl
    | file bytes => exact absurd (look_file bytes hrest) h

end Tree

/-! ## Disks -/

namespace Disk

/-- What is seen at a place. -/
def look (d : Disk) (place : List Text) : Option (Option (List UInt8)) := d.tree.look place

theorem isFile_eq (d : Disk) (place : List Text) :
    d.isFile place = ((d.look place).map Option.isSome).getD false := by
  rw [isFile, look, Tree.look, get?]
  cases d.tree.get? place with
  | none => rfl
  | some t => cases t <;> rfl

theorem isFile_iff {d : Disk} {place : List Text} :
    d.isFile place = true ↔ ∃ bytes, d.look place = some (some bytes) := by
  rw [isFile_eq]
  cases d.look place with
  | none => simp
  | some content => cases content <;> simp

theorem isDirectory_eq (d : Disk) (place : List Text) :
    d.isDirectory place = ((d.look place).map Option.isNone).getD false := by
  rw [isDirectory, look, Tree.look, get?]
  cases d.tree.get? place with
  | none => rfl
  | some t => cases t <;> rfl

theorem isNone_get? (d : Disk) (place : List Text) :
    (d.get? place).isNone = (d.look place).isNone := by
  rw [look, Tree.look, Option.isNone_map]
  rfl

theorem walk_cons (d : Disk) (place : List Text) (part : Text) (rest : List Text) :
    d.walk place (part :: rest) =
      match d.look place.reverse with
      | none => .error .notFound
      | some (some _) => .error .notDirectory
      | some none =>
        if nameLimit < (Utf8.encode part).length then .error .nameTooLong
        else if part = ['.', '.'] then d.walk place.tail rest
        else d.walk (part :: place) rest := by
  rw [walk, look, Tree.look, get?]
  cases d.tree.get? place.reverse with
  | none => rfl
  | some t => cases t <;> rfl

theorem isTooLong_iff {d : Disk} {place : List Text} :
    d.isTooLong place = true ↔ d.find ⟨['/'], place⟩ = .error .nameTooLong := by
  rw [isTooLong]
  split
  · simp [*]
  · rename_i hfind
    simpa using hfind

theorem readBytes_of_find {d : Disk} {p : Path} {place : List Text} (h : d.find p = .ok place) :
    d.readBytes p =
      match d.look place with
      | some (some bytes) => .ok bytes
      | some none => .error .isDirectory
      | none => .error .notFound := by
  rw [readBytes, h, look, Tree.look]
  dsimp only [bind, Except.bind, get?]
  cases d.tree.get? place with
  | none => rfl
  | some t => cases t <;> rfl

/-! ## One other file -/

/-- Two disks that differ in nothing but what lies at one place, which is no directory in either. -/
structure SameBut (place : List Text) (d e : Disk) : Prop where
  here : e.here = d.here
  home : e.home = d.home
  look : ∀ other, other ≠ place → e.look other = d.look other
  before : d.look place ≠ some none
  after : e.look place ≠ some none

theorem SameBut.trans {d e f : Disk} {place : List Text} (h : SameBut place d e)
    (h' : SameBut place e f) : SameBut place d f :=
  ⟨h'.here.trans h.here, h'.home.trans h.home,
    fun other hne => (h'.look other hne).trans (h.look other hne), h.before, h'.after⟩

/-- Whether a way ends before its end, where no directory lies. -/
def Blocked (r : Except FileError (List Text)) : Prop :=
  r = .error .notFound ∨ r = .error .notDirectory

theorem blocked_walk {d : Disk} {place : List Text} (h : d.look place.reverse ≠ some none)
    (part : Text) (rest : List Text) : Blocked (d.walk place (part :: rest)) := by
  rw [walk_cons]
  split
  · exact .inl rfl
  · exact .inr rfl
  · exact absurd ‹_› h

namespace SameBut

variable {d e : Disk} {place : List Text} (h : SameBut place d e)

include h

/-- Ways are the same, or blocked on both disks. -/
theorem walk (start parts : List Text) : e.walk start parts = d.walk start parts ∨
    Blocked (e.walk start parts) ∧ Blocked (d.walk start parts) := by
  induction parts generalizing start with
  | nil => exact .inl rfl
  | cons part rest ih =>
    by_cases hplace : start.reverse = place
    · exact .inr ⟨blocked_walk (hplace ▸ h.after) part rest, blocked_walk (hplace ▸ h.before) part rest⟩
    · rw [walk_cons, walk_cons, h.look _ hplace]
      split
      · exact .inl rfl
      · exact .inl rfl
      · split
        · exact .inl rfl
        · split
          · exact ih start.tail
          · exact ih (part :: start)

theorem find (p : Path) : e.find p = d.find p ∨ Blocked (e.find p) ∧ Blocked (d.find p) := by
  simp only [Disk.find]
  rw [h.here]
  split
  · exact .inl rfl
  · split
    · exact .inl rfl
    · exact h.walk _ p.parts

theorem find_of_ok {p : Path} {found : List Text} (hfind : d.find p = .ok found) :
    e.find p = .ok found := by
  rcases h.find p with heq | ⟨-, hblocked⟩
  · rw [heq, hfind]
  · rw [hfind] at hblocked
    rcases hblocked with heq | heq <;> exact absurd heq (by simp)

theorem find_eq_nameTooLong_iff (p : Path) :
    e.find p = .error .nameTooLong ↔ d.find p = .error .nameTooLong := by
  rcases h.find p with heq | ⟨hafter, hbefore⟩
  · rw [heq]
  · constructor <;> intro heq
    · rcases hafter with hafter | hafter <;> simp [hafter] at heq
    · rcases hbefore with hbefore | hbefore <;> simp [hbefore] at heq

/-- What has been read from another file is read again. -/
theorem readBytes {p : Path} (hne : d.find p ≠ .ok place) {bytes : List UInt8}
    (hread : d.readBytes p = .ok bytes) : e.readBytes p = .ok bytes := by
  cases hfind : d.find p with
  | error =>
    rw [Disk.readBytes, hfind] at hread
    exact absurd hread (by simp [bind, Except.bind])
  | ok found =>
    have hother : found ≠ place := by
      rintro rfl
      exact hne hfind
    rw [readBytes_of_find (h.find_of_ok hfind), h.look _ hother, ← readBytes_of_find hfind, hread]

theorem readText {p : Path} (hne : d.find p ≠ .ok place) {s : Text} (hread : d.readText p = .ok s) :
    e.readText p = .ok s := by
  cases hbytes : d.readBytes p with
  | error =>
    rw [Disk.readText, hbytes] at hread
    exact absurd hread (by simp)
  | ok bytes =>
    rw [Disk.readText, hbytes] at hread
    rw [Disk.readText, h.readBytes hne hbytes]
    exact hread

theorem isDirectory (other : List Text) : e.isDirectory other = d.isDirectory other := by
  rw [isDirectory_eq, isDirectory_eq]
  by_cases hother : other = place
  · subst hother
    have hbefore := h.before
    have hafter := h.after
    match hd : d.look other, he : e.look other with
    | some none, _ => exact absurd hd hbefore
    | _, some none => exact absurd he hafter
    | none, none | none, some (some _) | some (some _), none | some (some _), some (some _) => rfl
  · rw [h.look _ hother]

end SameBut

/-! ## Ways -/

/-- The way to where a path ends leads through directories. -/
theorem look_of_walk {d : Disk} {start parts found : List Text} (h : d.walk start parts = .ok found)
    (hstart : ∀ front, front <+: start.reverse → front ≠ start.reverse → d.look front = some none) :
    ∀ front, front <+: found → front ≠ found → d.look front = some none := by
  induction parts generalizing start with
  | nil =>
    obtain rfl : start.reverse = found := Except.ok.inj h
    exact hstart
  | cons part rest ih =>
    rw [walk_cons] at h
    split at h
    · exact absurd h (by simp)
    · exact absurd h (by simp)
    · rename_i hdirectory
      split at h
      · exact absurd h (by simp)
      · split at h
        · refine ih h fun front hfront _ => ?_
          rw [← List.dropLast_reverse] at hfront
          have hprefix := hfront.trans (List.dropLast_prefix _)
          by_cases heq : front = start.reverse
          · rw [heq, hdirectory]
          · exact hstart front hprefix heq
        · refine ih h fun front hfront hproper => ?_
          rw [List.reverse_cons] at hfront hproper
          rcases List.prefix_concat_iff.1 hfront with heq | hprefix
          · exact absurd heq hproper
          · by_cases heq : front = start.reverse
            · rw [heq, hdirectory]
            · exact hstart front hprefix heq

/-- A path whose last part leads down ends in a place with that last part. -/
theorem getLast?_of_walk {d : Disk} {start parts found : List Text} {last : Text}
    (h : d.walk start parts = .ok found) (hlast : parts.getLast? = some last) (hdown : last ≠ ['.', '.']) :
    found.getLast? = some last := by
  induction parts generalizing start with
  | nil => exact absurd hlast (by simp)
  | cons part rest ih =>
    rw [walk_cons] at h
    split at h
    · exact absurd h (by simp)
    · exact absurd h (by simp)
    · split at h
      · exact absurd h (by simp)
      · cases rest with
        | nil =>
          obtain rfl : part = last := by simpa using hlast
          rw [if_neg hdown] at h
          obtain rfl := Except.ok.inj h
          simp
        | cons next rest =>
          rw [List.getLast?_cons_cons] at hlast
          split at h
          · exact ih h hlast
          · exact ih h hlast

theorem walk_of_find {d : Disk} {p : Path} {found : List Text} (h : d.find p = .ok found) :
    d.walk (if p.isAbsolute then [] else d.here.reverse) p.parts = .ok found := by
  rw [find] at h
  split at h
  · exact absurd h (by simp)
  · split at h
    · exact absurd h (by simp)
    · exact h

/-! ## Files to write to -/

/-- What the file at a place holds; nothing if there is none. -/
def content (d : Disk) (place : List Text) : List UInt8 := ((d.look place).getD none).getD []

/-- The place of the file that a path names by its letters alone, if it can be opened for writing. -/
def filePlace? (d : Disk) (p : Path) : Option (List Text) :=
  match d.find ⟨['/'], d.resolve p⟩ with
  | .ok place => if d.isDirectory place then none else some place
  | .error _ => none

/-- The same files can be opened, whatever has been written to one of them. -/
theorem SameBut.filePlace? {d e : Disk} {place : List Text} (h : SameBut place d e) (p : Path) :
    e.filePlace? p = d.filePlace? p := by
  rw [Disk.filePlace?, Disk.filePlace?, resolve, h.here, ← resolve]
  rcases h.find ⟨['/'], d.resolve p⟩ with heq | ⟨hafter, hbefore⟩
  · rw [heq]
    split
    · rw [h.isDirectory]
    · rfl
  · rcases hafter with hafter | hafter <;> rcases hbefore with hbefore | hbefore <;>
      rw [hafter, hbefore]

theorem sameBut_put {d : Disk} (bytes : List UInt8) {place : List Text}
    (hway : ∀ front, front <+: place → front ≠ place → d.look front = some none)
    (hplace : d.look place ≠ some none) :
    SameBut place d { d with tree := d.tree.put (.file bytes) place } where
  here := rfl
  home := rfl
  look other hne := Tree.look_put_of_ne bytes hway hplace hne
  before := hplace
  after h := by
    have hlook := Tree.look_put_self d.tree (.file bytes) place
    exact absurd (hlook.symm.trans h) (by simp [Tree.bytes?])

theorem look_put_self (d : Disk) (bytes : List UInt8) (place : List Text) :
    look { d with tree := d.tree.put (.file bytes) place } place = some (some bytes) :=
  Tree.look_put_self d.tree (.file bytes) place

theorem SameBut.content {d e : Disk} {place other : List Text} (h : SameBut place d e)
    (hne : other ≠ place) : e.content other = d.content other := by
  rw [Disk.content, h.look other hne, Disk.content]

theorem openFile_eq {d : Disk} {p : Path} {place : List Text} (hfind : d.find p = .ok place) :
    d.openFile p =
      match d.look place with
      | some none => .error .isDirectory
      | some (some _) => .ok (place, d)
      | none => .ok (place, { d with tree := d.tree.put (.file []) place }) := by
  rw [openFile, hfind, look, Tree.look]
  dsimp only [bind, Except.bind, get?]
  cases d.tree.get? place with
  | none => rfl
  | some t => cases t <;> rfl

theorem openFile_of_none {d : Disk} {p : Path} (h : d.filePlace? p = none) :
    ∃ e, d.openFile ⟨['/'], d.resolve p⟩ = .error e := by
  rw [filePlace?] at h
  split at h
  · rename_i place hfind
    split at h
    · rename_i hdirectory
      rw [isDirectory_eq] at hdirectory
      rw [openFile_eq hfind]
      split
      · exact ⟨_, rfl⟩
      · simp [*] at hdirectory
      · simp [*] at hdirectory
    · exact absurd h (by simp)
  · rename_i e hfind
    exact ⟨e, by rw [openFile, hfind]; rfl⟩

/-- Opening a file changes nothing elsewhere, and nothing in what it holds. -/
theorem openFile_of_some {d : Disk} {p : Path} {place : List Text} (h : d.filePlace? p = some place) :
    ∃ e, d.openFile ⟨['/'], d.resolve p⟩ = .ok (place, e) ∧ SameBut place d e ∧
      e.isFile place = true ∧ ∀ other, e.content other = d.content other := by
  rw [filePlace?] at h
  split at h
  case h_2 => exact absurd h (by simp)
  rename_i found hfind
  split at h
  · exact absurd h (by simp)
  rename_i hdirectory
  obtain rfl := Option.some.inj h
  rw [openFile_eq hfind]
  split
  · rename_i hlook
    exact absurd (by rw [isDirectory_eq, hlook]; rfl) hdirectory
  · rename_i bytes hlook
    refine ⟨d, rfl, ⟨rfl, rfl, fun _ _ => rfl, ?_, ?_⟩, isFile_iff.2 ⟨bytes, hlook⟩, fun _ => rfl⟩ <;>
      simp [hlook]
  · rename_i hlook
    have hway := look_of_walk (walk_of_find hfind) fun front hfront hproper =>
      absurd (List.prefix_nil.1 hfront) hproper
    have hsame := sameBut_put [] hway (by simp [hlook])
    refine ⟨_, rfl, hsame, isFile_iff.2 ⟨[], look_put_self d [] found⟩, fun other => ?_⟩
    by_cases hother : other = found
    · rw [hother, content, look_put_self, content, hlook]
      rfl
    · exact hsame.content hother

theorem get?_of_look {d : Disk} {place : List Text} {bytes : List UInt8}
    (h : d.look place = some (some bytes)) : d.get? place = some (.file bytes) := by
  obtain ⟨t, ht, hbytes⟩ := Option.map_eq_some_iff.1 h
  cases t with
  | file held => exact ht.trans (congrArg (some ∘ Tree.file) (Option.some.inj hbytes))
  | directory => exact absurd hbytes (by simp [Tree.bytes?])

section Extend

variable {d : Disk} {place : List Text} (h : d.isFile place = true) (bytes : List UInt8)

include h

theorem extend_eq : d.extend place bytes =
    { d with tree := d.tree.put (.file (d.content place ++ bytes)) place } := by
  obtain ⟨old, hlook⟩ := isFile_iff.1 h
  rw [extend, get?_of_look hlook, content, hlook]
  rfl

/-- Writing to an open file changes nothing elsewhere. -/
theorem sameBut_extend : SameBut place d (d.extend place bytes) := by
  obtain ⟨old, hlook⟩ := isFile_iff.1 h
  rw [extend_eq h]
  refine sameBut_put _ (fun front hfront hproper => ?_) (by simp [hlook])
  obtain ⟨rest, rfl⟩ := hfront
  have hrest : rest ≠ [] := fun hrest => hproper (by simp [hrest])
  have hsome : d.tree.look (front ++ rest) ≠ none := by
    rw [← look, hlook]
    simp
  exact Tree.look_of_append hrest hsome

theorem isFile_extend : (d.extend place bytes).isFile place = true := by
  rw [extend_eq h]
  exact isFile_iff.2 ⟨_, look_put_self d _ place⟩

theorem content_extend (other : List Text) :
    (d.extend place bytes).content other = d.content other ++ if other = place then bytes else [] := by
  split
  · rename_i hother
    rw [hother, extend_eq h, content, look_put_self]
    rfl
  · rename_i hother
    rw [(sameBut_extend h bytes).content hother, List.append_nil]

end Extend

end Disk

end DocScaffold
