import DocScaffold.Log.Journal
import DocScaffold.Proofs.Disks

/-!
# Where records go

The last configuration alone decides where a record goes, and handlers never pile up. So a file holds the
lines of the records that were let through while it was in use (`routes`). Which files can be opened does
not change along a run, as a run makes no directories (`filePlace?_runAll`).
-/

namespace DocScaffold.Log

/-! ## Tags -/

namespace Record

/-- Whether a record is tagged so: with a kind that is given and not empty, else with what its logger is
named for, else with a dash. -/
inductive IsTagged (r : Record) : Text → Prop
  | given {kind : Text} (h : r.subject = some kind) (hne : kind ≠ []) : IsTagged r kind
  | named {kind : Text} (h : r.subject.getD [] = [])
    (hname : fullName r.logger = "rustdocstring.analyzers.".toList ++ kind) : IsTagged r kind
  | unnamed (h : r.subject.getD [] = [])
    (hname : ¬ "rustdocstring.analyzers.".toList <+: fullName r.logger) : IsTagged r "-".toList

theorem tag_of_empty {r : Record} (h : r.subject.getD [] = []) : r.tag =
    if kindPrefix.isPrefixOf r.logger then r.logger.drop kindPrefix.length else "-".toList := by
  rw [tag]
  split
  · rename_i hsubject
    simp [hsubject] at h
  · rfl

/-- The kinds are named below the analyzers. -/
theorem fullName_eq_iff {logger kind : Text} :
    fullName logger = "rustdocstring.analyzers.".toList ++ kind ↔ logger = kindPrefix ++ kind := by
  have hname : "rustdocstring.analyzers.".toList = programName ++ '.' :: kindPrefix := by decide
  rw [fullName, hname, List.append_assoc, List.cons_append]
  split
  · rename_i hempty
    have hkinds : kindPrefix ≠ [] := by decide
    rw [List.isEmpty_iff.1 hempty]
    refine iff_of_false (fun h => ?_) fun h => hkinds (List.append_eq_nil_iff.1 h.symm).1
    simpa using congrArg List.length h
  · rw [List.append_cancel_left_eq, List.cons.injEq]
    exact and_iff_right rfl

theorem isTagged_tag (r : Record) : r.IsTagged r.tag := by
  by_cases hempty : r.subject.getD [] = []
  · rw [tag_of_empty hempty]
    split
    · rename_i hkind
      obtain ⟨kind, hkind⟩ := List.isPrefixOf_iff_prefix.1 hkind
      rw [← hkind, List.drop_left]
      exact .named hempty (fullName_eq_iff.2 hkind.symm)
    · rename_i hkind
      refine .unnamed hempty fun ⟨kind, hname⟩ => hkind ?_
      rw [fullName_eq_iff.1 hname.symm]
      exact List.isPrefixOf_iff_prefix.2 (List.prefix_append _ _)
  · cases hsubject : r.subject with
    | none => simp [hsubject] at hempty
    | some kind =>
      have hne : kind ≠ [] := by simpa [hsubject] using hempty
      obtain ⟨c, rest, rfl⟩ := List.exists_cons_of_ne_nil hne
      have htag : r.tag = c :: rest := by rw [tag, hsubject]
      rw [htag]
      exact .given hsubject hne

/-- Tagging a record once more does not change its tag. -/
theorem tag_tagged (r : Record) : r.tagged.tag = r.tag := by
  cases htag : r.tag with
  | nil =>
    -- The tag is empty for a logger that is named for no kind at all.
    have hempty : r.subject.getD [] = [] := by
      cases hsubject : r.subject with
      | none => rfl
      | some kind =>
        cases kind with
        | nil => rfl
        | cons c rest => simp [tag, hsubject] at htag
    have htagged : r.tagged.subject.getD [] = [] := by
      rw [tagged, htag]
      rfl
    rw [tag_of_empty hempty] at htag
    rw [tag_of_empty htagged]
    exact htag
  | cons c rest => rw [tagged, tag, htag]

theorem fileLine_tagged (r : Record) : r.tagged.fileLine = r.fileLine := by
  rw [fileLine, tag_tagged, fileLine]
  rfl

end Record

/-! ## Setups -/

/-- What a configuration leads to: a level, and the place of the log file if one can be opened. -/
structure Setup where
  level : Level
  sink : Option (List Text)

namespace Setup

/-- The level is that of debugging in a verbose configuration, and that of information in any other. -/
def ofConfiguration (d : Disk) (verbose : Bool) (sink : Option Path) : Setup :=
  ⟨⟨if verbose then 10 else 20⟩, sink.bind d.filePlace?⟩

theorem level_ofConfiguration (d : Disk) (verbose : Bool) (sink : Option Path) :
    (ofConfiguration d verbose sink).level = .threshold verbose := by
  cases verbose <;> rfl

/-- The console, and the file that has been opened. -/
def handlers (s : Setup) : List Handler :=
  ⟨s.level, .console⟩ :: s.sink.toList.map fun place => ⟨s.level, .file place⟩

/-- What the last configuration among some events leads to; `s` is the one in front of them. -/
def after (d : Disk) (s : Setup) : List Event → Setup
  | [] => s
  | .configure verbose sink :: rest => after d (ofConfiguration d verbose sink) rest
  | .log _ :: rest => after d s rest

/-- The records that reach the level in force while the file at a place is in use. -/
def recordsFor (d : Disk) (place : List Text) (s : Setup) : List Event → List Record
  | [] => []
  | .configure verbose sink :: rest => recordsFor d place (ofConfiguration d verbose sink) rest
  | .log r :: rest =>
    if s.sink = some place ∧ s.level.rank ≤ r.level.rank then r :: recordsFor d place s rest
    else recordsFor d place s rest

end Setup

namespace Journal

/-- Whether the journal is as the setup asks for, on a disk that takes the same files as `d`. -/
structure IsSetUp (d : Disk) (j : Journal) (s : Setup) : Prop where
  threshold : j.threshold = s.level
  attached : j.attached = s.handlers
  is_file : ∀ place ∈ s.sink, j.disk.isFile place = true
  takes_same : j.disk.filePlace? = d.filePlace?

/-! ## Configurations -/

theorem foldl_removeHandler {j : Journal} {hs : List Handler} (h : j.attached = hs) :
    hs.foldl removeHandler j = { j with attached := [] } := by
  induction hs generalizing j with
  | nil => rw [List.foldl_nil, ← h]
  | cons handler hs ih =>
    have hrest : (j.removeHandler handler).attached = hs := by
      rw [removeHandler, h, List.erase_cons_head]
    rw [List.foldl_cons, ih hrest]
    rfl

/-- What a configuration can come to: the console alone, which is a fault if a file was asked for, or a
file that is open besides. -/
inductive Reconfigures (j : Journal) (verbose : Bool) (sink : Option Path) :
    Option FileError × Journal → Prop
  | console (fault : Option FileError) (h : sink.bind j.disk.filePlace? = none)
    (hfault : fault = none ↔ sink = none) : Reconfigures j verbose sink
      (fault, ⟨j.disk, .threshold verbose, [⟨.threshold verbose, .console⟩]⟩)
  | file {place : List Text} {d : Disk} (h : sink.bind j.disk.filePlace? = some place)
    (same : j.disk.SameBut place d) (is_file : d.isFile place = true)
    (content_eq : ∀ other, d.content other = j.disk.content other) : Reconfigures j verbose sink
      (none, ⟨d, .threshold verbose, [⟨.threshold verbose, .console⟩, ⟨.threshold verbose, .file place⟩]⟩)

theorem reconfigures (j : Journal) (verbose : Bool) (sink : Option Path) :
    j.Reconfigures verbose sink (j.reconfigure verbose sink) := by
  rw [reconfigure.eq_def, foldl_removeHandler rfl]
  cases sink with
  | none => exact .console none rfl (by simp)
  | some p =>
    cases hplace : j.disk.filePlace? p with
    | none =>
      obtain ⟨e, he⟩ := Disk.openFile_of_none hplace
      simp only [addHandler, addFile, he]
      exact .console (some e) hplace (by simp)
    | some place =>
      obtain ⟨d, hd, hsame, hfile, hcontent⟩ := Disk.openFile_of_some hplace
      simp only [addHandler, addFile, hd]
      exact .file hplace hsame hfile hcontent

section

variable {j : Journal} {verbose : Bool} {sink : Option Path} {r : Option FileError × Journal}
  (h : j.Reconfigures verbose sink r)

include h

/-- A configuration leaves none of the handlers before it. -/
theorem Reconfigures.isSetUp {d : Disk} (hd : j.disk.filePlace? = d.filePlace?) :
    r.2.IsSetUp d (.ofConfiguration d verbose sink) := by
  have hlevel := Setup.level_ofConfiguration d verbose sink
  have hsetUp : (Setup.ofConfiguration d verbose sink).sink = sink.bind j.disk.filePlace? := by
    rw [hd]
    rfl
  cases h with
  | console fault hsink =>
    rw [hsink] at hsetUp
    exact ⟨hlevel.symm, by rw [Setup.handlers, hlevel, hsetUp]; rfl, by simp [hsetUp], hd⟩
  | @file place e hsink hsame hfile =>
    rw [hsink] at hsetUp
    refine ⟨hlevel.symm, by rw [Setup.handlers, hlevel, hsetUp]; rfl, fun other hother => ?_,
      (funext hsame.filePlace?).trans hd⟩
    obtain rfl : place = other := by simpa [hsetUp] using hother
    exact hfile

/-- A configuration leaves what files hold. -/
theorem Reconfigures.content (place : List Text) : r.2.disk.content place = j.disk.content place := by
  cases h with
  | console => rfl
  | file _ _ _ hcontent => exact hcontent place

/-- A configuration raises a fault exactly when its file cannot be opened. -/
theorem Reconfigures.isSome_iff : r.1.isSome ↔ ∃ p, sink = some p ∧ j.disk.filePlace? p = none := by
  cases h with
  | console fault hsink hfault =>
    cases sink with
    | none => simp [hfault.2 rfl]
    | some p =>
      have hsome : fault ≠ none := fun hnone => by simpa using hfault.1 hnone
      simpa [Option.isSome_iff_ne_none, hsome] using hsink
  | file hsink =>
    obtain ⟨p, rfl, hplace⟩ := Option.bind_eq_some_iff.1 hsink
    simp [hplace]

end

/-! ## Records -/

/-- A record that reaches the level goes to the console and to the file in use, and no other goes
anywhere. -/
theorem write_eq {d : Disk} {j : Journal} {s : Setup} (h : j.IsSetUp d s) (r : Record) :
    j.write r = if s.level.rank ≤ r.level.rank then
      (r.consoleLine, { j with
        disk := s.sink.elim j.disk fun place => j.disk.extend place (Utf8.encode r.fileLine) })
    else ([], j) := by
  obtain ⟨level, sink⟩ := s
  rw [write, h.threshold, h.attached, Setup.handlers]
  by_cases hlevel : level.rank ≤ r.level.rank
  · have hpasses : r.passes level = true := decide_eq_true hlevel
    rw [if_pos hpasses, if_pos hlevel]
    cases sink with
    | none => simp [deliver, hpasses]
    | some place => simp [deliver, hpasses, Record.fileLine_tagged]
  · have hpasses : ¬ r.passes level = true := by
      simpa [Record.passes] using hlevel
    rw [if_neg hpasses, if_neg hlevel]

section

variable {d : Disk} {j : Journal} {s : Setup} (h : j.IsSetUp d s)

include h

/-- What a record does to the disk: nothing, or its line goes to the file in use. -/
theorem disk_write (r : Record) :
    (∀ place, ¬ (s.sink = some place ∧ s.level.rank ≤ r.level.rank)) ∧ (j.write r).2.disk = j.disk ∨
      ∃ place, (s.sink = some place ∧ s.level.rank ≤ r.level.rank) ∧
        (j.write r).2.disk = j.disk.extend place (Utf8.encode r.fileLine) := by
  rw [write_eq h]
  by_cases hlevel : s.level.rank ≤ r.level.rank
  · rw [if_pos hlevel]
    cases hsink : s.sink with
    | none => exact .inl ⟨by simp, rfl⟩
    | some place => exact .inr ⟨place, ⟨rfl, hlevel⟩, rfl⟩
  · rw [if_neg hlevel]
    exact .inl ⟨fun _ hplace => hlevel hplace.2, rfl⟩

theorem isSetUp_write (r : Record) : (j.write r).2.IsSetUp d s := by
  have hstays : (j.write r).2.threshold = j.threshold ∧ (j.write r).2.attached = j.attached := by
    rw [write_eq h]
    split <;> exact ⟨rfl, rfl⟩
  refine ⟨hstays.1.trans h.threshold, hstays.2.trans h.attached, ?_, ?_⟩ <;>
    rcases disk_write h r with ⟨-, hdisk⟩ | ⟨place, hplace, hdisk⟩ <;> rw [hdisk]
  · exact h.is_file
  · intro other hother
    obtain rfl : place = other := Option.some.inj (hplace.1.symm.trans hother)
    exact Disk.isFile_extend (h.is_file _ hplace.1) _
  · exact h.takes_same
  · exact (funext (Disk.sameBut_extend (h.is_file _ hplace.1) _).filePlace?).trans h.takes_same

theorem content_write (r : Record) (place : List Text) :
    (j.write r).2.disk.content place = j.disk.content place ++
      if s.sink = some place ∧ s.level.rank ≤ r.level.rank then Utf8.encode r.fileLine else [] := by
  rcases disk_write h r with ⟨hnone, hdisk⟩ | ⟨other, hother, hdisk⟩
  · rw [hdisk, if_neg (hnone place), List.append_nil]
  · rw [hdisk, Disk.content_extend (h.is_file _ hother.1), hother.1]
    by_cases hplace : place = other
    · rw [if_pos hplace, if_pos ⟨congrArg some hplace.symm, hother.2⟩]
    · rw [if_neg hplace, if_neg fun h => hplace (Option.some.inj h.1).symm]

end

/-! ## Runs -/

theorem step_log (j : Journal) (r : Record) : j.step (.log r) = (.ok (j.write r).1, (j.write r).2) :=
  rfl

theorem runAll_cons (j : Journal) (e : Event) (events : List Event) :
    j.runAll (e :: events) = (j.step e).2.runAll events := rfl

theorem step_configure (j : Journal) (verbose : Bool) (sink : Option Path) :
    (j.step (.configure verbose sink)).2 = (j.reconfigure verbose sink).2 ∧
      ((∃ e, (j.step (.configure verbose sink)).1 = .error e) ↔
        (j.reconfigure verbose sink).1.isSome) := by
  rw [step]
  rcases j.reconfigure verbose sink with ⟨fault, k⟩
  cases fault <;> simp

/-- Along a run the journal stays as the last configuration leads to. -/
theorem isSetUp_runAll {d : Disk} {j : Journal} {s : Setup} (h : j.IsSetUp d s) (events : List Event) :
    (j.runAll events).IsSetUp d (s.after d events) := by
  induction events generalizing j s with
  | nil => exact h
  | cons event events ih =>
    rw [runAll_cons]
    cases event with
    | configure verbose sink =>
      rw [(step_configure j verbose sink).1]
      exact ih ((reconfigures j verbose sink).isSetUp h.takes_same)
    | log r => exact ih (isSetUp_write h r)

/-- Along a run a file gets the lines of its records, whoever else is written to. -/
theorem content_runAll {d : Disk} {j : Journal} {s : Setup} (h : j.IsSetUp d s) (events : List Event)
    (place : List Text) : (j.runAll events).disk.content place = j.disk.content place ++
      Utf8.encode ((s.recordsFor d place events).flatMap Record.fileLine) := by
  induction events generalizing j s with
  | nil => exact (List.append_nil _).symm
  | cons event events ih =>
    rw [runAll_cons]
    cases event with
    | configure verbose sink =>
      have hreconfigures := reconfigures j verbose sink
      rw [(step_configure j verbose sink).1, ih (hreconfigures.isSetUp h.takes_same),
        hreconfigures.content, Setup.recordsFor]
    | log r =>
      rw [step_log, ih (isSetUp_write h r), content_write h, Setup.recordsFor, List.append_assoc]
      split
      · rw [List.flatMap_cons, Utf8.encode, Utf8.encode, Utf8.encode, List.flatMap_append]
      · rw [List.nil_append]

/-- Behind a configuration and any events, records go to the console and to the file of the last
configuration alone, from its level on; if this file cannot be opened, the configuration raises a fault and
leaves the console alone. Each file holds the lines of the records that went to it behind what it held
before, and no other, by whatever path it has been named. -/
theorem routes (j : Journal) (verbose : Bool) (sink : Option Path) (events : List Event) :
    let first := Setup.ofConfiguration j.disk verbose sink
    let k := j.runAll (.configure verbose sink :: events)
    let s := first.after j.disk events
    k.handlers = (if s.sink.isSome then 2 else 1) ∧
      (∀ verbose sink, (∃ e, (k.step (.configure verbose sink)).1 = .error e) ↔
        ∃ p, sink = some p ∧ j.disk.filePlace? p = none) ∧
      (∀ r : Record, (k.step (.log r)).1 = .ok (if s.level.rank ≤ r.level.rank then
        "[rustdocstring] ".toList ++ r.level.name ++ " ".toList ++ r.message ++ "\n".toList else [])) ∧
      (∀ place, k.disk.content place = j.disk.content place ++
        Utf8.encode ((first.recordsFor j.disk place events).flatMap Record.fileLine)) ∧
      ∀ r : Record, ∃ tag, r.IsTagged tag ∧ r.fileLine = r.time ++ " ".toList ++ r.level.name ++
        " [".toList ++ tag ++ "] ".toList ++ fullName r.logger ++ ": ".toList ++ r.message ++
        "\n".toList := by
  intro first k s
  have hfirst : (j.step (.configure verbose sink)).2.IsSetUp j.disk first := by
    rw [(step_configure j verbose sink).1]
    exact (reconfigures j verbose sink).isSetUp rfl
  have hlast : k.IsSetUp j.disk s := isSetUp_runAll hfirst events
  refine ⟨?_, fun verbose sink => ?_, fun r => ?_, fun place => ?_, fun r => ⟨r.tag, r.isTagged_tag, rfl⟩⟩
  · rw [handlers, hlast.attached, Setup.handlers]
    cases s.sink <;> rfl
  · rw [(step_configure k verbose sink).2, (reconfigures k verbose sink).isSome_iff, hlast.takes_same]
  · rw [step_log, write_eq hlast]
    split <;> rfl
  · refine (content_runAll hfirst events place).trans ?_
    rw [(step_configure j verbose sink).1, (reconfigures j verbose sink).content]

/-- A working directory that holds nothing. -/
def workDisk : Disk where
  tree := .directory [("work".toList, .emptyDirectory)]
  here := ["work".toList]
  home _ := none

/-- A log file in a directory that is not there leaves the console alone. -/
theorem handlers_missing :
    ((new workDisk).runAll [.configure false (some (.ofText "no/run.log".toList))]).handlers ≠ 2 ∧
      ((new workDisk).step (.configure false (some (.ofText "no/run.log".toList)))).1 =
        .error .notFound := by
  constructor
  · decide +kernel
  · rfl

def noon (level : Level) (logger : String) (message : String) : Record :=
  ⟨"12:00".toList, level, logger.toList, none, message.toList⟩

/-- Two names of one file, the second one for records from another level on, and a file that cannot be
opened. -/
def renamedEvents : List Event := [
  .log (noon .debug "scanner" "a"),
  .configure false (some (.ofText "sub/../run.log".toList)),
  .log (noon .debug "scanner" "b"),
  .log (noon .info "analyzers.enum" "c"),
  .configure true (some (.ofText "no/run.log".toList))]

theorem routes_renamed :
    let k := (new workDisk).runAll (.configure true (some (.ofText "run.log".toList)) :: renamedEvents)
    k.handlers = 1 ∧
      k.disk.content ["work".toList, "run.log".toList] =
        Utf8.encode ("12:00 DEBUG [-] rustdocstring.scanner: a\n".toList ++
          "12:00 INFO [enum] rustdocstring.analyzers.enum: c\n".toList) ∧
      (k.step (.log (noon .debug "scanner" "d"))).1 = .ok "[rustdocstring] DEBUG d\n".toList := by
  intro k
  obtain ⟨hhandlers, -, hconsole, hcontent, -⟩ :=
    routes (new workDisk) true (some (.ofText "run.log".toList)) renamedEvents
  refine ⟨hhandlers, ?_, hconsole (noon .debug "scanner" "d")⟩
  rw [hcontent]
  decide +kernel

end Journal

end DocScaffold.Log
