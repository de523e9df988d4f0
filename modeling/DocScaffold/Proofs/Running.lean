import DocScaffold.CommandLine.Run
import DocScaffold.Proofs.Commenting
import DocScaffold.Proofs.Decoding
import DocScaffold.Proofs.Elsewhere
import DocScaffold.Proofs.Routing

/-!
# Runs that print a template

A run reads its source and its settings as they were before it began to log (`Session.Keeps`), and what
it prints is the template for the lines that its source was written from (`exists_run`).
-/

namespace DocScaffold

open Text

/-! ## Lines of a file -/

namespace Text

theorem plainBreaks_of_not_mem {s : Text} (h : '\r' ∉ s) : plainBreaks s = s := by
  induction s with
  | nil => rfl
  | cons c s ih =>
    rw [List.mem_cons, not_or] at h
    rw [plainBreaks.eq_4 _ _ (fun _ hc => absurd hc.symm h.1) fun hc => absurd hc.symm h.1, ih h.2]

/-- Lines joined are the same lines again, but for an empty line at the end. -/
theorem exists_lines_intercalate {ls : List Text} (h : ∀ l ∈ ls, Over Inline l) :
    ∃ blank, ls = lines (List.intercalate ['\n'] ls) ++ blank ∧ ∀ l ∈ blank, l = [] := by
  induction ls with
  | nil => exact ⟨[], rfl, by simp⟩
  | cons l ls ih =>
    cases ls with
    | nil =>
      rw [List.intercalate_singleton]
      by_cases hl : l = []
      · subst hl
        exact ⟨[[]], rfl, by simp⟩
      · exact ⟨[], by rw [lines_of_one hl (h l (by simp))]; rfl, by simp⟩
    | cons m ls =>
      obtain ⟨blank, hlines, hblank⟩ := ih fun l hl => h l (by simp [hl])
      refine ⟨blank, ?_, hblank⟩
      rw [List.intercalate_cons_cons, List.append_assoc, List.singleton_append,
        lines_break (h l (by simp)), List.cons_append, ← hlines]

end Text

/-! ## Blank lines at the end -/

namespace Declaration

theorem collect_blank (keyword : Keyword) (braces parens : Int) (last index : Nat)
    (lines : List Text) {blank : List Text} (h : ∀ l ∈ blank, l = []) :
    (collect keyword braces parens last index (lines ++ blank)).1 =
      (collect keyword braces parens last index lines).1 := by
  induction lines generalizing braces parens last index with
  | nil =>
    induction blank generalizing last index with
    | nil => rfl
    | cons l blank ih =>
      obtain rfl := h l (by simp)
      rw [List.nil_append, collect_cons_of_empty cleaned_nil]
      exact ih (fun l hl => h l (by simp [hl])) index (index + 1)
  | cons line rest ih =>
    rw [List.cons_append]
    rcases collect_cases keyword braces parens line with h | ⟨braces', parens', texts, h⟩
    · rw [h, h]
    · rw [h, h, ih braces' parens' index (index + 1)]

theorem searchFrom_blank (depth : Int) (index : Nat) (lines : List Text) {blank : List Text}
    (h : ∀ l ∈ blank, l = []) :
    (searchFrom depth index (lines ++ blank)).declaration?.map signature =
      (searchFrom depth index lines).declaration?.map signature := by
  induction lines generalizing depth index with
  | nil =>
    induction blank generalizing depth index with
    | nil => rfl
    | cons l blank ih =>
      obtain rfl := h l (by simp)
      have hsearch : searchFrom depth index ([] :: blank) =
          searchFrom (max depth 0) (index + 1) blank := by
        rw [searchFrom, step_nil]
      rw [List.nil_append, hsearch]
      exact ih (fun l hl => h l (by simp [hl])) (max depth 0) (index + 1)
  | cons line rest ih =>
    rw [List.cons_append, searchFrom, searchFrom]
    cases step depth line with
    | next depth => exact ih depth (index + 1)
    | stop => rfl
    | start keyword line =>
      have htexts := collect_blank keyword 0 0 index index (line :: rest) h
      exact congrArg (fun texts => some (unwords texts).collapse) htexts

/-- Blank lines at the end add nothing to what is found. -/
theorem search_blank (lines : List Text) (cursor : Nat) {blank : List Text}
    (h : ∀ l ∈ blank, l = []) : (search (lines ++ blank) cursor).declaration?.map signature =
      (search lines cursor).declaration?.map signature := by
  rw [search, search, List.drop_append, List.map_append]
  refine searchFrom_blank _ _ _ fun l hl => ?_
  obtain ⟨m, hm, rfl⟩ := List.mem_map.1 hl
  rw [h m (List.mem_of_mem_drop hm)]
  rfl

end Declaration

namespace Generator

theorem documentBehind_eq (g : Generator) (lines : List Text) (cursor : Nat) (o : Options) :
    g.documentBehind lines cursor o =
      ((Declaration.search lines cursor).declaration?.map Declaration.signature).map
        fun s => g.document s o := by
  rw [documentBehind, Option.map_map]
  rfl

theorem templateBehind_blank (g : Generator) (lines : List Text) (cursor : Int) (o : Options)
    {blank : List Text} (h : ∀ l ∈ blank, l = []) :
    g.templateBehind (lines ++ blank) cursor o = g.templateBehind lines cursor o := by
  rw [templateBehind, templateBehind]
  cases Declaration.cursorLine cursor with
  | error => rfl
  | ok cursor =>
    change Except.ok ((g.documentBehind (lines ++ blank) cursor o).bind _) = _
    rw [documentBehind_eq, Declaration.search_blank lines cursor h, ← documentBehind_eq]
    rfl

end Generator

/-! ## Sessions -/

namespace CommandLine

open Disk Log

/-- Whether a run can log to the file with a name, which is neither the source nor named like a
settings file. -/
def LogsApart (d : Disk) (source : Path) (name : Text) : Prop :=
  ∃ place, d.filePlace? (.ofText name) = some place ∧ d.find source ≠ .ok place ∧
    place.getLast? ≠ some Settings.fileName

/-- Whether a session has left a disk as it was, but for a log file apart from a source and from
settings files. -/
inductive Session.Keeps (d : Disk) (source : Path) (s : Session) : Prop
  | quiet {level : Level} (isSetUp : s.journal.IsSetUp d ⟨level, none⟩) (disk_eq : s.disk = d)
  | logging {level : Level} {place : List Text} (isSetUp : s.journal.IsSetUp d ⟨level, some place⟩)
    (same : SameBut place d s.disk) (source_ne : d.find source ≠ .ok place)
    (name_ne : place.getLast? ≠ some Settings.fileName)

theorem exists_open {d : Disk} {source : Path} (clock : Nat → Text) (isVerbose : Bool)
    {logFile : Option Text} (h : ∀ name ∈ logFile, LogsApart d source name) :
    ∃ s, Session.open? d clock isVerbose logFile = .ok s ∧ s.Keeps d source := by
  have hreconfigures := Journal.reconfigures (.new d) isVerbose (logFile.map Path.ofText)
  have hsetUp := hreconfigures.isSetUp (d := d) rfl
  rw [Setup.ofConfiguration] at hsetUp
  rw [Session.open?]
  rcases hstep : (Journal.new d).reconfigure isVerbose (logFile.map Path.ofText) with ⟨fault, journal⟩
  rw [hstep] at hreconfigures hsetUp
  cases logFile with
  | none =>
    cases hreconfigures with
    | console _ _ hfault =>
      rw [hfault.2 rfl]
      exact ⟨_, rfl, .quiet hsetUp rfl⟩
    | file hsink => exact absurd hsink (by simp)
  | some name =>
    obtain ⟨place, hplace, hsource, hname⟩ := h name rfl
    have hsink : (Option.map Path.ofText (some name)).bind d.filePlace? = some place := hplace
    rw [hsink] at hsetUp
    cases hreconfigures with
    | console _ hnone => exact absurd (hnone.symm.trans hsink) (by simp)
    | file hother hsame =>
      obtain rfl := Option.some.inj (hother.symm.trans hsink)
      exact ⟨_, rfl, .logging hsetUp hsame hsource hname⟩

namespace Session.Keeps

variable {d : Disk} {source : Path} {s : Session} (h : s.Keeps d source)

include h

/-- What a session logs goes to its log file alone. -/
theorem log (n : Note) : (s.log n).Keeps d source := by
  cases h with
  | quiet hsetUp hdisk =>
    refine .quiet (Journal.isSetUp_write hsetUp _) ?_
    rcases Journal.disk_write hsetUp (n (s.clock 0)) with ⟨-, hsame⟩ | ⟨place, hplace, -⟩
    · exact hsame.trans hdisk
    · exact absurd hplace.1 (by simp)
  | @logging level place hsetUp hsame hsource hname =>
    refine .logging (Journal.isSetUp_write hsetUp _) ?_ hsource hname
    change SameBut place d (s.journal.write (n (s.clock 0))).2.disk
    rcases Journal.disk_write hsetUp (n (s.clock 0)) with ⟨-, hdisk⟩ | ⟨other, hother, hdisk⟩
    · rw [hdisk]
      exact hsame
    · obtain rfl : place = other := by simpa using hother.1
      rw [hdisk]
      exact hsame.trans (sameBut_extend (hsetUp.is_file _ rfl) _)

theorem write (notes : List Note) : (s.write notes).Keeps d source := by
  induction notes generalizing s with
  | nil => exact h
  | cons n notes ih => exact ih (h.log n)

theorem readText {text : Text} (hread : d.readText source = .ok text) :
    s.disk.readText source = .ok text := by
  cases h with
  | quiet _ hdisk => rw [hdisk, hread]
  | logging _ hsame hsource _ => exact hsame.readText hsource hread

theorem setUp {y : Yaml.Reader} {p : Path} {made : Generator × Options}
    (hmade : Generator.setUp y d p = .ok made) : Generator.setUp y s.disk p = .ok made := by
  cases h with
  | quiet _ hdisk => rw [hdisk, hmade]
  | logging _ hsame _ hname => exact Generator.setUp_of_ok hsame hname hmade

end Session.Keeps

/-! ## Reports -/

/-- Whether a report says what becomes of the declaration behind a cursor: success with the template on
a line, or failure with nothing printed. -/
def Report.Tells (r : Report) : Except Declaration.CursorError (Option (Item.Kind × Text)) → Prop
  | .ok (some (_, text)) => r.code = 0 ∧ r.output = text ++ ['\n']
  | _ => r.code = 1 ∧ r.output = []

theorem tells_printTemplate (s : Session) (g : Generator) (o : Options) (lines : List Text)
    (cursor : Nat) : (printTemplate s g o lines cursor).Tells
      (.ok ((g.documentBehind lines cursor o).bind Generator.Outcome.found?)) := by
  rw [printTemplate, Generator.documentBehind]
  cases (Declaration.search lines cursor).declaration? with
  | none => exact ⟨rfl, rfl⟩
  | some d =>
    dsimp only
    rw [Option.map_some, Option.bind_some]
    cases g.document d.signature o <;> exact ⟨rfl, rfl⟩

theorem exists_withSource {s : Session} {path text : Text}
    (hread : s.disk.readText (.ofText path) = .ok text) (line : Int) (g : Generator) (o : Options) :
    ∃ r, withSource s path line (printTemplate s g o) = .ok r ∧
      r.Tells (g.templateBehind text.lines line o) := by
  rw [withSource, hread, Generator.templateBehind]
  dsimp only
  cases Declaration.cursorLine line with
  | error e => exact ⟨_, rfl, rfl, rfl⟩
  | ok cursor => exact ⟨_, rfl, tells_printTemplate s g o text.lines cursor⟩

/-- The path from which the settings for a source are looked up. -/
def settingsPath (path : Text) (config : Option Text) : Path :=
  match config with
  | some place => .ofText place
  | none => (Path.ofText path).parent

theorem readText_intercalate {d : Disk} {p : Path} {lines : List Text} (h : ∀ l ∈ lines, Over Inline l)
    (hread : d.readBytes p = .ok (Utf8.encode (List.intercalate ['\n'] lines))) :
    d.readText p = .ok (List.intercalate ['\n'] lines) := by
  have hreturn : '\r' ∉ List.intercalate ['\n'] lines := by
    intro hmem
    rcases mem_intercalate hmem with hfeed | ⟨l, hl, hmem⟩
    · exact absurd hfeed (by decide)
    · exact absurd (h l hl _ hmem) (by decide)
  rw [Disk.readText, hread]
  dsimp only
  rw [Utf8.decode_encode]
  dsimp only
  rw [plainBreaks_of_not_mem hreturn]

/-- Options with what flags set: examples are left out, and everything else is turned on. -/
def overridden (o : Options) (flags : List Flag) : Options where
  includeExamples := o.includeExamples && !flags.contains .noExamples
  examplesOnlyExposed := o.examplesOnlyExposed || flags.contains .examplesOnlyPublic
  safetyDetails := o.safetyDetails || flags.contains .safetyDetails
  gateStructExamples := o.gateStructExamples || flags.contains .gateStructExamples

theorem optionsWith_flags (o : Options) (flags : List Flag) :
    optionsWith o (flags.filterMap Flag.switch?) = overridden o flags := by
  induction flags generalizing o with
  | nil =>
    cases o
    simp [optionsWith, overridden]
  | cons f flags ih =>
    cases f <;> refine (ih _).trans ?_ <;> simp [overridden, Switch.set]

/-- With a generator at hand, a run goes on with its source. -/
theorem answer_generate {y : Yaml.Reader} {s : Session} {path : Text} {config : Option Text}
    {g : Generator} {o : Options}
    (hmade : Generator.setUp y s.disk (settingsPath path config) = .ok (g, o)) (line : Int)
    (switches : List (Switch × Bool)) :
    answer y s (.generate path line config switches) =
      withSource (s.write [Log.Trace.options (optionsWith o switches)]) path line
        (printTemplate (s.write [Log.Trace.options (optionsWith o switches)]) g
          (optionsWith o switches)) := by
  cases config <;> simp only [settingsPath] at hmade <;> simp only [answer.eq_def, hmade]

/-- A run for a template tells what becomes of the declaration behind the cursor in the lines that its
source was written from. -/
theorem exists_run {y : Yaml.Reader} {d : Disk} {path : Text} {lines : List Text}
    (hlines : ∀ l ∈ lines, Over Inline l)
    (hread : d.readBytes (.ofText path) = .ok (Utf8.encode (List.intercalate ['\n'] lines)))
    {config : Option Text} {g : Generator} {o : Options}
    (hmade : Generator.setUp y d (settingsPath path config) = .ok (g, o)) (clock : Nat → Text)
    (isVerbose : Bool) {logFile : Option Text} (hlog : ∀ name ∈ logFile, LogsApart d (.ofText path) name)
    (line : Int) (switches : List (Switch × Bool)) :
    ∃ r, run y clock d ⟨isVerbose, logFile, .generate path line config switches⟩ = .ok r ∧
      r.Tells (g.templateBehind lines line (optionsWith o switches)) := by
  obtain ⟨s, hopen, hkeeps⟩ := exists_open clock isVerbose hlog
  obtain ⟨blank, hblank, hempty⟩ := exists_lines_intercalate hlines
  have hread' := (hkeeps.write [Log.Trace.options (optionsWith o switches)]).readText
    (readText_intercalate hlines hread)
  obtain ⟨r, hr, htells⟩ := exists_withSource hread' line g (optionsWith o switches)
  refine ⟨r, ?_, ?_⟩
  · rw [run, hopen]
    exact (answer_generate (hkeeps.setUp hmade) line switches).trans hr
  · rw [hblank, Generator.templateBehind_blank _ _ _ _ hempty]
    exact htells

end CommandLine

end DocScaffold
