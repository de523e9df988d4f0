import DocScaffold.CommandLine.Invocation
import DocScaffold.Proofs.Numerals

/-!
# Command lines read back

A command line that asks for a template is written with the long spellings of its flags
(`generateWords`). It is read as the invocation that it was written for, unless the line of its cursor
is no number that is read (`read_generateWords`).
-/

namespace DocScaffold.CommandLine

open Text

/-! ## Spellings -/

namespace Flag

/-- The long spelling. -/
def spelling (f : Flag) : Text := (f.spellings.getLast?).getD []

theorem exists_of_mem_spellings {f : Flag} {s : Text} (h : s ∈ f.spellings) :
    ∃ c rest, s = '-' :: c :: rest ∧ isAsciiDigit c = false ∧ '=' ∉ s := by
  cases f <;> simp only [spellings, List.mem_cons, List.not_mem_nil, or_false] at h
  case help | verbose =>
    rcases h with rfl | rfl <;> exact ⟨_, _, rfl, by decide, by decide⟩
  all_goals
    subst h
    exact ⟨_, _, rfl, by decide, by decide⟩

end Flag

namespace Word

theorem mem_spellings_of_mem_spelled {flags : List Flag} {p : Text × Flag} (h : p ∈ spelled flags) :
    p.1 ∈ p.2.spellings := by
  simp only [spelled, List.mem_flatMap, List.mem_map] at h
  obtain ⟨f, -, s, hs, rfl⟩ := h
  exact hs

theorem ofSpelling?_eq_none (flags : List Flag) {s : Text} (h : ∀ f : Flag, s ∉ f.spellings) :
    ofSpelling? flags s = none := by
  rw [ofSpelling?, Option.map_eq_none_iff, List.find?_eq_none]
  rintro ⟨spelling, f⟩ hp heq
  obtain rfl : spelling = s := by simpa using heq
  exact h f (mem_spellings_of_mem_spelled hp)

theorem cutAt_append_of_head {mark : Char} {s rest : Text} (h : mark ∉ s)
    (hrest : ∀ c ∈ rest.head?, c = mark) : Text.cutAt mark (s ++ rest) = (s, rest.drop 1) := by
  have hrun : ∀ c ∈ s, (c != mark) = true := by
    intro c hc
    rw [bne_iff_ne]
    rintro rfl
    exact h hc
  have hstop : ∀ c ∈ rest.head?, (c != mark) = false := by
    intro c hc
    simp [hrest c hc]
  rw [Text.cutAt, takeWhile_append_of_head hrun hstop, dropWhile_append_of_head hrun hstop]

theorem cutAt_append {mark : Char} {s : Text} (h : mark ∉ s) (rest : Text) :
    Text.cutAt mark (s ++ mark :: rest) = (s, rest) :=
  cutAt_append_of_head h (by simp)

theorem cutAt_of_not_mem {mark : Char} {s : Text} (h : mark ∉ s) : Text.cutAt mark s = (s, []) := by
  have hcut : Text.cutAt mark (s ++ []) = (s, []) := cutAt_append_of_head h (by simp)
  rwa [List.append_nil] at hcut

/-! ## Roles -/

theorem startsWith_dash {s : Text} : s.startsWith ['-'] = true ↔ s.head? = some '-' := by
  cases s with
  | nil => simp [Text.startsWith]
  | cons c s =>
    simp only [Text.startsWith, List.isPrefixOf, Bool.and_true, beq_iff_eq, List.head?_cons,
      Option.some.injEq]
    exact eq_comm

/-- A word that begins with no dash stands for itself. -/
theorem roleOf_plain (flags : List Flag) {s : Text} (h : s.head? ≠ some '-') :
    roleOf flags s = .ok .operand := by
  have hstart : s.startsWith ['-'] = false := Bool.eq_false_iff.2 (mt startsWith_dash.1 h)
  rw [roleOf, hstart]
  rfl

section Assigned

variable {name : Text} (hname : '=' ∉ name) (hdash : name.head? = some '-')

include hname hdash

/-- A word with an equals sign names the flag in front of the sign, if it is known in full. -/
theorem roleOf_assigned (flags : List Flag) (value : Text) :
    roleOf flags (name ++ '=' :: value) =
      match ofSpelling? flags name with
      | some f => .ok (.flag f (some value))
      | none => shortened flags (name ++ '=' :: value) := by
  obtain ⟨more, rfl⟩ : ∃ more, name = '-' :: more := by
    cases name with
    | nil => exact absurd hdash (by simp)
    | cons c more => exact ⟨more, by rw [Option.some.inj hdash]⟩
  have hstart : Text.startsWith ('-' :: more ++ '=' :: value) ['-'] = true := startsWith_dash.2 rfl
  have hlength : (('-' :: more ++ '=' :: value).length == 1) = false := by simp
  have hnone : ofSpelling? flags ('-' :: more ++ '=' :: value) = none := by
    apply ofSpelling?_eq_none
    intro f hf
    obtain ⟨_, _, _, _, hmark⟩ := Flag.exists_of_mem_spellings hf
    exact hmark (by simp)
  rw [roleOf, hstart, hlength, hnone, cutAt_append hname]
  rfl

theorem exists_roleOf_assigned {flags : List Flag} (hlong : name.startsWith ['-', '-'] = true)
    (hnone : ofSpelling? flags name = none)
    (hforeign : (spelled flags).filter (·.1.startsWith name) = []) (value : Text) :
    ∃ role, roleOf flags (name ++ '=' :: value) = .ok role := by
  have hstart : (name ++ '=' :: value).startsWith ['-', '-'] = true := by
    rw [Text.startsWith, List.isPrefixOf_iff_prefix] at hlong ⊢
    exact hlong.trans (List.prefix_append ..)
  rw [roleOf_assigned hname hdash, hnone]
  simp only [shortened, cutAt_append hname, hstart, if_true, hforeign, List.map_nil]
  exact ⟨_, rfl⟩

end Assigned

theorem isDigit_of_isAsciiDigit {c : Char} (h : isAsciiDigit c = true) : isDigit c = true := by
  have hbounds := toNat_of_isAsciiDigit h
  rw [isDigit, digitValue?, if_pos (by omega), if_pos h]
  rfl

theorem isNegativeNumber_ofNat (n : Nat) : isNegativeNumber ('-' :: ofNat n) = true := by
  have hlast : (ofNat n).getLast? ≠ some '\n' := by
    intro hlast
    have hdigit := isAsciiDigit_of_mem_ofNat (List.mem_of_getLast? hlast)
    exact absurd hdigit (by decide)
  have hdigits : isDigits (ofNat n) = true := by
    rw [isDigits, Bool.and_eq_true, List.all_eq_true]
    exact ⟨by simp [ofNat_ne_nil], fun c hc => isDigit_of_isAsciiDigit (isAsciiDigit_of_mem_ofNat hc)⟩
  simp only [isNegativeNumber, hlast, if_false, hdigits, Bool.true_or]

/-- A negative number is no flag. -/
theorem roleOf_negative (flags : List Flag) (n : Nat) :
    roleOf flags ('-' :: ofNat n) = .ok .operand := by
  obtain ⟨c, w, hcons⟩ := List.exists_cons_of_ne_nil (ofNat_ne_nil n)
  have hc : isAsciiDigit c = true := isAsciiDigit_of_mem_ofNat (n := n) (by simp [hcons])
  have hequals : '=' ∉ '-' :: ofNat n := by
    rw [List.mem_cons, not_or]
    exact ⟨by decide, fun h => absurd (isAsciiDigit_of_mem_ofNat h) (by decide)⟩
  have hforeign : ∀ p ∈ spelled flags, ∀ s, p.1 ≠ '-' :: c :: s := by
    intro p hp s heq
    obtain ⟨d, rest, hd, hdigit, -⟩ :=
      Flag.exists_of_mem_spellings (mem_spellings_of_mem_spelled hp)
    rw [heq, List.cons.injEq, List.cons.injEq] at hd
    rw [← hd.2.1, hc] at hdigit
    exact absurd hdigit (by decide)
  have hnone : ofSpelling? flags ('-' :: ofNat n) = none := by
    rw [ofSpelling?, Option.map_eq_none_iff, List.find?_eq_none]
    intro p hp heq
    exact hforeign p hp w (by simpa [hcons] using heq)
  have hcut := cutAt_of_not_mem hequals
  have hstart : Text.startsWith ('-' :: ofNat n) ['-'] = true := startsWith_dash.2 rfl
  have hlength : (('-' :: ofNat n).length == 1) = false := by simp [ofNat_ne_nil]
  have hlong : Text.startsWith ('-' :: ofNat n) ['-', '-'] = false := by
    have hdash : '-' ≠ c := by
      rintro rfl
      exact absurd hc (by decide)
    simp [hcons, Text.startsWith, List.isPrefixOf, hdash]
  have hshort : (spelled flags).filter (·.1 == ('-' :: ofNat n).take 2) = [] := by
    rw [List.filter_eq_nil_iff]
    intro p hp heq
    exact hforeign p hp [] (by simpa [hcons] using heq)
  rw [roleOf, hstart, hlength, hnone, hcut]
  simp only [hnone, shortened, hcut, hlong, hshort, isNegativeNumber_ofNat]
  rfl

theorem roleOf_ofInt (flags : List Flag) (i : Int) : roleOf flags (ofInt i) = .ok .operand := by
  rw [ofInt]
  split
  · exact roleOf_negative flags _
  · apply roleOf_plain
    intro h
    have hdigit := isAsciiDigit_of_mem_ofNat (List.mem_of_head? h)
    exact absurd hdigit (by decide)

/-! ## Words in sequence -/

theorem classify_cons {flags : List Flag} {s : Text} {role : Role} (hs : s ≠ ['-', '-'])
    (hrole : roleOf flags s = .ok role) (rest : List Text) :
    classify flags (s :: rest) = (classify flags rest).map (⟨s, role⟩ :: ·) := by
  rw [classify, if_neg hs, hrole]
  cases classify flags rest <;> rfl

/-- Classified words keep their texts. -/
theorem map_text_of_classify {flags : List Flag} {args : List Text} {words : List Word}
    (h : classify flags args = .ok words) : words.map text = args := by
  induction args generalizing words with
  | nil =>
    obtain rfl : [] = words := Except.ok.inj h
    rfl
  | cons s rest ih =>
    by_cases hs : s = ['-', '-']
    · rw [classify, if_pos hs] at h
      obtain rfl := Except.ok.inj h
      simp [Function.comp_def]
    · cases hrole : roleOf flags s with
      | error e =>
        rw [classify, if_neg hs, hrole] at h
        exact absurd h (by simp [bind, Except.bind])
      | ok role =>
        rw [classify_cons hs hrole] at h
        cases hrest : classify flags rest with
        | error e =>
          rw [hrest] at h
          exact absurd h (by simp [Except.map])
        | ok words =>
          rw [hrest] at h
          obtain rfl := Except.ok.inj h
          rw [List.map_cons, ih hrest]

theorem exists_classify_append {flags : List Flag} {front rest : List Text}
    (hfront : ∀ s ∈ front, s ≠ ['-', '-'] ∧ ∃ role, roleOf flags s = .ok role)
    (hrest : ∃ words, classify flags rest = .ok words) :
    ∃ words, classify flags (front ++ rest) = .ok words := by
  induction front with
  | nil => exact hrest
  | cons s front ih =>
    obtain ⟨hs, role, hrole⟩ := hfront s (by simp)
    obtain ⟨words, hwords⟩ := ih fun s hs => hfront s (by simp [hs])
    rw [List.cons_append, classify_cons hs hrole, hwords]
    exact ⟨_, rfl⟩

end Word

/-! ## Written command lines -/

/-- A path among the words of a command line; a double dash keeps one that begins with a dash from
being a flag. -/
def pathWords (path : Text) : List Text :=
  if path.head? = some '-' then [['-', '-'], path] else [path]

/-- A flag with its value in one word. -/
def assignment (f : Flag) (value : Text) : Text := f.spelling ++ '=' :: value

/-- The words behind the name of the command. -/
def tailWords (path : Text) (line : Int) (config : Option Text) (flags : List Flag) : List Text :=
  Flag.line.spelling :: ofInt line :: ((config.map (assignment .config)).toList ++
    (flags.map Flag.spelling ++ pathWords path))

/-- The words in front of the name of the command. -/
def frontWords (isVerbose : Bool) (logFile : Option Text) : List Text :=
  (if isVerbose then [Flag.verbose.spelling] else []) ++ (logFile.map (assignment .logFile)).toList

/-- The words of a command line that asks for a template. -/
def generateWords (isVerbose : Bool) (logFile : Option Text) (path : Text) (line : Int)
    (config : Option Text) (flags : List Flag) : List Text :=
  frontWords isVerbose logFile ++ Command.generate.name :: tailWords path line config flags

namespace Word

/-- The words of a path with their roles. -/
def ofPath (path : Text) : List Word :=
  if path.head? = some '-' then [⟨['-', '-'], .separator⟩, ⟨path, .operand⟩] else [⟨path, .operand⟩]

theorem classify_pathWords (flags : List Flag) (path : Text) :
    classify flags (pathWords path) = .ok (ofPath path) := by
  rw [pathWords, ofPath]
  split
  · rfl
  · rename_i h
    have hdashes : path ≠ ['-', '-'] := by
      rintro rfl
      exact h rfl
    rw [classify_cons hdashes (roleOf_plain flags h)]
    rfl

theorem roleOf_switch {f : Flag} (h : f.switch?.isSome) :
    f.spelling ≠ ['-', '-'] ∧ roleOf Command.generate.flags f.spelling = .ok (.flag f none) ∧
      roleOf programFlags f.spelling = .ok .unknown := by
  cases f with
  | noExamples | examplesOnlyPublic | safetyDetails | gateStructExamples =>
    exact ⟨by decide, rfl, rfl⟩
  | _ => exact absurd h (by decide)

theorem classify_switches {flags : List Flag} (h : ∀ f ∈ flags, f.switch?.isSome)
    (rest : List Text) : classify Command.generate.flags (flags.map Flag.spelling ++ rest) =
      (classify Command.generate.flags rest).map
        ((flags.map fun f => ⟨f.spelling, .flag f none⟩) ++ ·) := by
  induction flags with
  | nil => cases h : classify Command.generate.flags rest <;> simp [h, Except.map]
  | cons f flags ih =>
    obtain ⟨hdashes, hrole, -⟩ := roleOf_switch (h f (by simp))
    rw [List.map_cons, List.cons_append, classify_cons hdashes hrole,
      ih fun f hf => h f (by simp [hf])]
    cases classify Command.generate.flags rest <;> rfl

/-- The words behind the name of the command with their roles. -/
def ofTail (path : Text) (line : Int) (config : Option Text) (flags : List Flag) : List Word :=
  ⟨Flag.line.spelling, .flag .line none⟩ :: ⟨ofInt line, .operand⟩ ::
    ((config.map fun place => ⟨assignment .config place, .flag .config (some place)⟩).toList ++
      ((flags.map fun f => ⟨f.spelling, .flag f none⟩) ++ ofPath path))

theorem ofInt_ne_dashes (i : Int) : ofInt i ≠ ['-', '-'] := by
  intro h
  rw [ofInt] at h
  split at h
  · have hdigits := (List.cons.inj h).2
    have hdash : '-' ∈ ofNat i.natAbs := by simp [hdigits]
    exact absurd (isAsciiDigit_of_mem_ofNat hdash) (by decide)
  · have hdash : '-' ∈ ofNat i.natAbs := by simp [h]
    exact absurd (isAsciiDigit_of_mem_ofNat hdash) (by decide)

theorem assignment_ne_dashes (f : Flag) (value : Text) : assignment f value ≠ ['-', '-'] := by
  intro h
  have hmark : '=' ∈ assignment f value := by simp [assignment]
  rw [h] at hmark
  exact absurd hmark (by decide)

theorem classify_tailWords (path : Text) (line : Int) (config : Option Text) {flags : List Flag}
    (h : ∀ f ∈ flags, f.switch?.isSome) :
    classify Command.generate.flags (tailWords path line config flags) =
      .ok (ofTail path line config flags) := by
  have hline : roleOf Command.generate.flags Flag.line.spelling = .ok (.flag .line none) := rfl
  have hend : classify Command.generate.flags (flags.map Flag.spelling ++ pathWords path) =
      .ok ((flags.map fun f => ⟨f.spelling, .flag f none⟩) ++ ofPath path) := by
    rw [classify_switches h, classify_pathWords]
    rfl
  rw [tailWords, classify_cons (by decide) hline, classify_cons (ofInt_ne_dashes line)
    (roleOf_ofInt _ line)]
  cases config with
  | none =>
    simp only [Option.map_none, Option.toList_none, List.nil_append, hend]
    rfl
  | some place =>
    have hconfig : roleOf Command.generate.flags (assignment .config place) =
        .ok (.flag .config (some place)) := roleOf_assigned (by decide) (by decide) _ place
    simp only [Option.map_some, Option.toList_some, List.singleton_append]
    rw [classify_cons (assignment_ne_dashes _ _) hconfig, hend]
    rfl

/-- The program by itself finds no fault with the words behind the name of a command. -/
theorem exists_classify_tailWords (path : Text) (line : Int) (config : Option Text)
    {flags : List Flag} (h : ∀ f ∈ flags, f.switch?.isSome) :
    ∃ words, classify programFlags (tailWords path line config flags) = .ok words := by
  have hfront : tailWords path line config flags = ([Flag.line.spelling, ofInt line] ++
      ((config.map (assignment .config)).toList ++ flags.map Flag.spelling)) ++ pathWords path := by
    simp [tailWords]
  rw [hfront]
  refine exists_classify_append (fun s hs => ?_) ⟨_, classify_pathWords _ path⟩
  simp only [List.mem_append, List.mem_cons, List.not_mem_nil, or_false, Option.mem_toList,
    Option.map_eq_some_iff, List.mem_map] at hs
  rcases hs with (rfl | rfl) | ⟨place, -, rfl⟩ | ⟨f, hf, rfl⟩
  · exact ⟨by decide, _, rfl⟩
  · exact ⟨ofInt_ne_dashes line, _, roleOf_ofInt _ line⟩
  · exact ⟨assignment_ne_dashes _ _, exists_roleOf_assigned (by decide) (by decide) (by decide) rfl rfl place⟩
  · obtain ⟨hdashes, -, hrole⟩ := roleOf_switch (h f hf)
    exact ⟨hdashes, _, hrole⟩

/-- The words in front of the name of the command with their roles. -/
def ofFront (isVerbose : Bool) (logFile : Option Text) : List Word :=
  (if isVerbose then [⟨Flag.verbose.spelling, .flag .verbose none⟩] else []) ++
    (logFile.map fun name => ⟨assignment .logFile name, .flag .logFile (some name)⟩).toList

theorem classify_frontWords (isVerbose : Bool) (logFile : Option Text) (rest : List Text) :
    classify programFlags (frontWords isVerbose logFile ++ rest) =
      (classify programFlags rest).map (ofFront isVerbose logFile ++ ·) := by
  have hverbose : roleOf programFlags Flag.verbose.spelling = .ok (.flag .verbose none) := rfl
  have hlog : classify programFlags ((logFile.map (assignment .logFile)).toList ++ rest) =
      (classify programFlags rest).map ((logFile.map fun name =>
        ⟨assignment .logFile name, .flag .logFile (some name)⟩).toList ++ ·) := by
    cases logFile with
    | none => cases h : classify programFlags rest <;> simp [h, Except.map]
    | some name =>
      have hrole : roleOf programFlags (assignment .logFile name) =
          .ok (.flag .logFile (some name)) := roleOf_assigned (by decide) (by decide) _ name
      exact classify_cons (assignment_ne_dashes _ _) hrole rest
  cases isVerbose with
  | false => exact hlog
  | true =>
    have htail := congrArg (Except.map (⟨Flag.verbose.spelling, .flag .verbose none⟩ :: ·)) hlog
    refine ((classify_cons (by decide) hverbose _).trans htail).trans ?_
    cases classify programFlags rest <;> rfl

end Word

/-! ## Reading -/

theorem splitAtCommand_front (isVerbose : Bool) (logFile : Option Text) (name : Text)
    (words : List Word) : splitAtCommand (Word.ofFront isVerbose logFile ++ ⟨name, .operand⟩ :: words) =
      (Word.ofFront isVerbose logFile, ⟨name, .operand⟩ :: words) := by
  cases isVerbose <;> cases logFile <;> rfl

theorem readWords_front {isVerbose : Bool} {logFile : Option Text} (h : logFile ≠ some []) :
    readWords false {} (Word.ofFront isVerbose logFile) = .ok ({ isVerbose, logFile }, []) := by
  have hname : ∀ name, logFile = some name → name.isEmpty = false := by
    rintro (_ | ⟨c, name⟩) hname
    · exact absurd hname h
    · rfl
  cases logFile with
  | none => cases isVerbose <;> rfl
  | some name =>
    have hassign : ∀ g : Given, g.assign .logFile name = .ok { g with logFile := some name } := by
      intro g
      rw [Given.assign, hname name rfl]
      rfl
    cases isVerbose with
    | false =>
      change (do readWords false (← Given.assign {} .logFile name) []) = _
      rw [hassign]
      rfl
    | true =>
      change (do readWords false (← Given.assign { isVerbose := true } .logFile name) []) = _
      rw [hassign]
      rfl

/-- A flag without a value is taken by itself. -/
theorem readWords_flag {f : Flag} (h : f.takesValue = false) (takesPath : Bool) (g : Given) (s : Text)
    (rest : List Word) : readWords takesPath g (⟨s, .flag f none⟩ :: rest) =
      (do readWords takesPath (← g.raise f) rest) := by
  rw [readWords.eq_def]
  simp [h]

theorem readWords_switches (g : Given) {flags : List Flag} (h : ∀ f ∈ flags, f.switch?.isSome)
    (rest : List Word) :
    readWords true g ((flags.map fun f => ⟨f.spelling, .flag f none⟩) ++ rest) =
      readWords true { g with switches := g.switches ++ flags.filterMap Flag.switch? } rest := by
  induction flags generalizing g with
  | nil => simp
  | cons f flags ih =>
    obtain ⟨switch, hswitch⟩ := Option.isSome_iff_exists.1 (h f (by simp))
    have hraise : g.raise f = .ok { g with switches := g.switches ++ [switch] } := by
      cases f <;> simp_all [Given.raise, Flag.switch?]
    have hvalue : f.takesValue = false := by
      cases f <;> first | rfl | exact absurd hswitch (by simp [Flag.switch?])
    rw [List.map_cons, List.cons_append, readWords_flag hvalue, hraise]
    refine (ih _ fun f hf => h f (by simp [hf])).trans ?_
    rw [List.filterMap_cons, hswitch]
    simp

theorem readWords_path {g : Given} (h : g.path = none) (path : Text) :
    readWords true g (Word.ofPath path) = .ok ({ g with path := some path }, []) := by
  rw [Word.ofPath]
  split <;> simp [readWords, h]

theorem readWords_config {config : Option Text} (h : config ≠ some []) (g : Given)
    (hg : g.config = none) (rest : List Word) :
    readWords true g ((config.map fun place =>
        ⟨assignment .config place, .flag .config (some place)⟩).toList ++ rest) =
      readWords true { g with config := config } rest := by
  cases config with
  | none =>
    obtain ⟨_, _, _, _, _, _, _, _⟩ := g
    obtain rfl := hg
    rfl
  | some place =>
    have hplace : place.isEmpty = false := by
      cases place with
      | nil => exact absurd rfl h
      | cons => rfl
    have hassign : g.assign .config place = .ok { g with config := some place } := by
      rw [Given.assign, hplace]
      rfl
    change (do readWords true (← g.assign .config place) rest) = _
    rw [hassign]
    rfl

/-- The words behind the name of the command are taken whole, unless the line is no number. -/
theorem readWords_tail (g : Given) (hpath : g.path = none) (hnone : g.config = none) (path : Text)
    (line : Int) {config : Option Text} (hconfig : config ≠ some []) {flags : List Flag}
    (h : ∀ f ∈ flags, f.switch?.isSome) :
    readWords true g (Word.ofTail path line config flags) = (do
      let i ← Given.number .line (ofInt line)
      return ({ g with
        path := some path, line := some i, config := config
        switches := g.switches ++ flags.filterMap Flag.switch? }, [])) := by
  change (do readWords true (← g.assign .line (ofInt line)) _) = _
  rw [Given.assign]
  cases Given.number .line (ofInt line) with
  | error e => rfl
  | ok i =>
    refine (readWords_config hconfig { g with line := some i } hnone _).trans ?_
    refine (readWords_switches _ h _).trans ?_
    apply readWords_path
    exact hpath

theorem mapError_ok {ε ε' α : Type} (f : ε → ε') (a : α) :
    (Except.ok a : Except ε α).mapError f = .ok a := rfl

/-- A command line that asks for a template is read as it was written, unless the line of the cursor
is no number that is read. -/
theorem read_generateWords {isVerbose : Bool} {logFile : Option Text} (hlog : logFile ≠ some [])
    (path : Text) (line : Int) {config : Option Text} (hconfig : config ≠ some []) {flags : List Flag}
    (h : ∀ f ∈ flags, f.switch?.isSome) :
    read (generateWords isVerbose logFile path line config flags) =
      match (ofInt line).integer? with
      | some i => .ok ⟨isVerbose, logFile, .generate path i config (flags.filterMap Flag.switch?)⟩
      | none => .error ⟨some .generate, .fault (.notInteger .line (ofInt line))⟩ := by
  obtain ⟨words, hwords⟩ := Word.exists_classify_tailWords path line config h
  have hname : Word.roleOf programFlags Command.generate.name = .ok .operand := rfl
  have hclassify : Word.classify programFlags (generateWords isVerbose logFile path line config flags) =
      .ok (Word.ofFront isVerbose logFile ++ ⟨Command.generate.name, .operand⟩ :: words) := by
    rw [generateWords, Word.classify_frontWords, Word.classify_cons (by decide) hname, hwords]
    rfl
  have htexts : words.map (·.text) = tailWords path line config flags := Word.map_text_of_classify hwords
  have hcommand : Command.ofName? Command.generate.name = some .generate := rfl
  rw [read, hclassify]
  simp only [mapError_ok, bind, Except.bind, splitAtCommand_front, readWords_front hlog, hcommand,
    htexts, Word.classify_tailWords path line config h]
  have htail := readWords_tail { isVerbose, logFile } rfl rfl path line hconfig h
  have hpath : Command.generate.takesPath = true := rfl
  rw [hpath, htail, Given.number]
  cases (ofInt line).integer? <;> rfl

end DocScaffold.CommandLine
