import DocScaffold.Host.Yaml.Document
import DocScaffold.Proofs.Invoking
import DocScaffold.Proofs.Requests
import DocScaffold.Proofs.Running
import DocScaffold.Proofs.Serving

/-!
# Front ends

The command line and the service tell the same about the declaration behind a cursor, namely what the
generator makes of the lines (`front_ends_agree`), whatever reads the settings and whatever framework serves
the requests. A cursor whose line has more digits than are read gets through to neither
(`front_ends_refuse`).
-/

namespace DocScaffold

open Text

/-! ## Agreement -/

section Agreement

variable {y : Yaml.Reader} {w : Service.Framework} {d : Disk} {path : Text} {lines : List Text}
  {config : Option Text} {g : Generator} {o : Options} {flags : List CommandLine.Flag} {line : Int}
  {logFile : Option Text}

/-- For a source written from lines, settings that give a generator, and flags that set switches, a run
of the command line and a request to the service tell what the generator makes of the lines; neither
verbosity nor a log file apart from source and settings matters. The run and the request can be written,
and it does not matter how the request is. -/
theorem front_ends_agree (hw : w.ServesTemplates) (hlines : ∀ l ∈ lines, Over Inline l)
    (hsource : d.readBytes (.ofText path) = .ok (Utf8.encode (List.intercalate ['\n'] lines)))
    (hconfig : config ≠ some [])
    (hmade : Generator.setUp y d (CommandLine.settingsPath path config) = .ok (g, o))
    (hflags : ∀ f ∈ flags, f.switch?.isSome) (hline : (ofNat line.natAbs).length ≤ digitLimit)
    (clock : Nat → Text) (isVerbose : Bool) (hname : logFile ≠ some [])
    (hlog : ∀ name ∈ logFile, CommandLine.LogsApart d (.ofText path) name) :
    let options := CommandLine.overridden o flags
    let invocation :=
      ⟨isVerbose, logFile, .generate path line config (flags.filterMap CommandLine.Flag.switch?)⟩
    let told := g.templateBehind lines line options
    (CommandLine.read (CommandLine.generateWords isVerbose logFile path line config flags) =
        .ok invocation ∧
      ∃ report, CommandLine.run y clock d invocation = .ok report ∧ report.Tells told) ∧
    (∃ fields, Json.readBytes (Service.requestBytes lines line options) = .ok (.object fields) ∧
      Service.Carries fields (.ofOptions lines line options)) ∧
    ∀ bytes fields, Json.readBytes bytes = .ok (.object fields) →
      Service.Carries fields (.ofOptions lines line options) →
      ∃ response, w.respond (.create (.ok g)) ⟨"POST".toList, "/generate".toList, bytes⟩ =
        .ok response ∧ response.Tells told := by
  intro options invocation told
  have hrun := CommandLine.exists_run hlines hsource hmade clock isVerbose hlog line
    (flags.filterMap CommandLine.Flag.switch?)
  rw [CommandLine.optionsWith_flags] at hrun
  refine ⟨⟨?_, hrun⟩,
    ⟨_, Service.readBytes_request lines hline options, Service.carries_request lines line options⟩,
    fun bytes fields hbytes hfields =>
      ⟨_, hw _ g bytes fields _ rfl hbytes hfields, Service.tells_template _ g lines line options⟩⟩
  rw [CommandLine.read_generateWords hname path line hconfig hflags, integer?_ofInt hline]

end Agreement

/-- A library of one function, and a working directory that holds nothing else. -/
def libraryLines : List Text := ["".toList, "pub fn area(side: f64) -> f64 \x7b".toList, "\x7d".toList]

def libraryDisk (lines : List Text) : Disk where
  tree := .directory [("lib.rs".toList, .file (Utf8.encode (List.intercalate ['\n'] lines)))]
  here := []
  home _ := none

/-- A clock that has stopped. -/
def noon (_ : Nat) : Text := "12:00".toList

theorem setUp_library (lines : List Text) :
    Generator.setUp .ofProgram (libraryDisk lines) (CommandLine.settingsPath "lib.rs".toList none) =
      .ok (Generator.full, {}) := rfl

theorem readBytes_library (lines : List Text) :
    (libraryDisk lines).readBytes (.ofText "lib.rs".toList) =
      .ok (Utf8.encode (List.intercalate ['\n'] lines)) := rfl

theorem logsApart_library (lines : List Text) :
    CommandLine.LogsApart (libraryDisk lines) (.ofText "lib.rs".toList) "run.log".toList := by
  have hsource : (libraryDisk lines).find (.ofText "lib.rs".toList) = .ok ["lib.rs".toList] := rfl
  refine ⟨["run.log".toList], rfl, ?_, by decide⟩
  rw [hsource]
  decide

theorem front_ends_agree_library :
    ∃ found, Generator.full.templateBehind libraryLines 0 { includeExamples := false } =
        .ok (some found) ∧
      (∃ i report, CommandLine.read (["--verbose", "--log-file=run.log", "generate", "--line", "0",
          "--no-examples", "lib.rs"].map (·.toList)) = .ok i ∧
        CommandLine.run .ofProgram noon (libraryDisk libraryLines) i = .ok report ∧ report.code = 0 ∧
        report.output = found.2 ++ ['\n']) ∧
      ∃ response, Service.Framework.ofProgram.respond (.create (.ok Generator.full))
          ⟨"POST".toList, "/generate".toList,
            Service.requestBytes libraryLines 0 { includeExamples := false }⟩ = .ok response ∧
        response.status = 200 ∧ response.body = Service.object [("status", .string "ok".toList),
          ("template", .string found.2), ("kind", .string found.1.name)] := by
  have hlines : ∀ l ∈ libraryLines, Over Inline l := by
    intro l hl
    simp only [libraryLines, List.mem_cons, List.not_mem_nil, or_false] at hl
    rcases hl with rfl | rfl | rfl <;> exact over_inline (by decide)
  have hlog : ∀ name ∈ some "run.log".toList,
      CommandLine.LogsApart (libraryDisk libraryLines) (.ofText "lib.rs".toList) name := by
    rintro name ⟨⟩
    exact logsApart_library libraryLines
  have hflags : ∀ f ∈ [CommandLine.Flag.noExamples], f.switch?.isSome := by
    rintro f hf
    rw [List.mem_singleton.1 hf]
    rfl
  have hline : (ofNat (0 : Int).natAbs).length ≤ digitLimit := by decide
  obtain ⟨⟨hread, report, hrun, hreport⟩, ⟨fields, hbytes, hfields⟩, hrespond⟩ :=
    front_ends_agree Service.Framework.servesTemplates_ofProgram hlines (readBytes_library libraryLines)
      (by simp) (setUp_library libraryLines) hflags hline noon true (by simp) hlog
  obtain ⟨response, hresponse, htells⟩ := hrespond _ _ hbytes hfields
  have hsome : ((Generator.full.templateBehind libraryLines 0
      { includeExamples := false }).toOption.join).isSome = true := by
    decide +kernel
  cases htold : Generator.full.templateBehind libraryLines 0 { includeExamples := false } with
  | error e =>
    rw [htold] at hsome
    exact absurd hsome (by simp [Except.toOption])
  | ok found =>
    cases found with
    | none =>
      rw [htold] at hsome
      exact absurd hsome (by simp [Except.toOption])
    | some found =>
      change report.Tells (Generator.full.templateBehind libraryLines 0 { includeExamples := false })
        at hreport
      change response.Tells (Generator.full.templateBehind libraryLines 0 { includeExamples := false })
        at htells
      rw [htold] at hreport htells
      exact ⟨found, rfl, ⟨_, report, hread, hrun, hreport.1, hreport.2⟩, response, hresponse, htells.1,
        htells.2⟩

/-! ## Digits -/

/-- A cursor whose line has too many digits gets through to neither front end: it is no argument of the
command line, and the body that asks the service is not read. -/
theorem front_ends_refuse {line : Int} (h : digitLimit < (ofNat line.natAbs).length)
    (isVerbose : Bool) {logFile : Option Text} (hname : logFile ≠ some []) (path : Text)
    {config : Option Text} (hconfig : config ≠ some []) {flags : List CommandLine.Flag}
    (hflags : ∀ f ∈ flags, f.switch?.isSome) (lines : List Text) (o : Options) :
    CommandLine.read (CommandLine.generateWords isVerbose logFile path line config flags) =
        .error ⟨some .generate, .fault (.notInteger .line (ofInt line))⟩ ∧
      Json.readBytes (Service.requestBytes lines line o) = .error .tooManyDigits := by
  refine ⟨?_, Service.readBytes_request_of_long lines h o⟩
  rw [CommandLine.read_generateWords hname path line hconfig hflags, integer?_ofInt_of_long h]

/-- The first line with too many digits. -/
def farLine : Int := (10 ^ digitLimit : Nat)

theorem digits_farLine : digitLimit < (ofNat farLine.natAbs).length :=
  lt_length_ofNat (Nat.le_of_eq (Int.natAbs_natCast _).symm)

theorem templateBehind_nil (g : Generator) (n : Nat) (o : Options) :
    g.templateBehind [] n o = .ok none := by
  have hcursor : Declaration.cursorLine n = .ok n := by
    rw [Declaration.cursorLine, if_neg (by omega)]
    rfl
  rw [Generator.templateBehind, hcursor]
  change Except.ok ((g.documentBehind [] n o).bind Generator.Outcome.found?) = _
  rw [Generator.documentBehind, Declaration.search, List.drop_nil]
  rfl

/-- Nothing follows so far a cursor, but the command line does not say so, and the body that asks the
service is not read. -/
theorem front_ends_fail_farLine :
    (libraryDisk []).readBytes (.ofText "lib.rs".toList) =
        .ok (Utf8.encode (List.intercalate ['\n'] [])) ∧
      Generator.setUp .ofProgram (libraryDisk [])
        (CommandLine.settingsPath "lib.rs".toList none) = .ok (Generator.full, {}) ∧
      Generator.full.templateBehind [] farLine {} = .ok none ∧
      (¬ ∃ i report, CommandLine.read (CommandLine.generateWords false none "lib.rs".toList farLine
          none []) = .ok i ∧ CommandLine.run .ofProgram noon (libraryDisk []) i = .ok report ∧
        report.Tells (.ok none)) ∧
      ¬ ∃ value, Json.readBytes (Service.requestBytes [] farLine {}) = .ok value := by
  obtain ⟨hread, hbytes⟩ := @front_ends_refuse farLine digits_farLine false none (by simp)
    "lib.rs".toList none (by simp) [] (by simp) [] {}
  refine ⟨readBytes_library [], setUp_library [], templateBehind_nil _ _ _, ?_, ?_⟩
  · rintro ⟨i, report, hi, -, -⟩
    rw [hread] at hi
    exact absurd hi (by simp)
  · rintro ⟨value, hvalue⟩
    rw [hbytes] at hvalue
    exact absurd hvalue (by simp)

end DocScaffold
