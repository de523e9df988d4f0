import DocScaffold.CommandLine.Flag
import DocScaffold.Text.Integer

/-!
# The words of a command line

Every word is classified by itself. A word that begins with a dash is a flag, several flags of one
letter each, or an unknown flag, unless it is the dash alone, a negative number, or unknown and holds
a space. A double dash turns all words behind it into operands.
-/

namespace DocScaffold.CommandLine

inductive Role
  | operand
  | separator
  | unknown
  /-- A flag with the value written behind an equals sign, if there is one. -/
  | flag (f : Flag) (value : Option Text)
  /-- A flag of one letter with more characters behind it. -/
  | letters (first : Flag) (rest : Text)
  deriving DecidableEq

structure Word where
  text : Text
  role : Role
  deriving DecidableEq

namespace Word

/-- The spellings of flags with their flags. -/
def spelled (flags : List Flag) : List (Text × Flag) :=
  flags.flatMap fun f => f.spellings.map fun spelling => (spelling, f)

/-- The flag with a spelling. -/
def ofSpelling? (flags : List Flag) (spelling : Text) : Option Flag :=
  ((spelled flags).find? (·.1 == spelling)).map (·.2)

/-- Digits of any decimal system, at least one. -/
def isDigits (s : Text) : Bool := !s.isEmpty && s.all Text.isDigit

/-- A negative number with or without a fraction; a line feed may end it. -/
def isNegativeNumber : Text → Bool
  | '-' :: s =>
    let s := if s.getLast? = some '\n' then s.dropLast else s
    let (whole, fraction) := Text.cutAt '.' s
    isDigits s || ((whole.isEmpty || isDigits whole) && isDigits fraction)
  | _ => false

/-- The role of a word that spells no flag in full. -/
def shortened (flags : List Flag) (s : Text) : Except Fault Role :=
  let (name, value) := Text.cutAt '=' s
  let value := if s.contains '=' then some value else none
  let known := spelled flags
  let found :=
    if s.startsWith ['-', '-'] then
      (known.filter (·.1.startsWith name)).map fun (spelling, f) => (spelling, Role.flag f value)
    else (known.filter (·.1 == s.take 2)).map fun (spelling, f) => (spelling, .letters f (s.drop 2))
  match found with
  | [] => .ok (if isNegativeNumber s || s.contains ' ' then .operand else .unknown)
  | [(_, role)] => .ok role
  | _ => .error (.ambiguous s (found.map (·.1)))

/-- The role of a word in front of a double dash. -/
def roleOf (flags : List Flag) (s : Text) : Except Fault Role :=
  if !(s.startsWith ['-']) || s.length == 1 then .ok .operand
  else match ofSpelling? flags s with
    | some f => .ok (.flag f none)
    | none =>
      let (name, value) := Text.cutAt '=' s
      match ofSpelling? flags name with
      | some f => .ok (.flag f (some value))
      | none => shortened flags s

/-- The words of a command that takes the given flags. -/
def classify (flags : List Flag) : List Text → Except Fault (List Word)
  | [] => .ok []
  | s :: rest =>
    if s = ['-', '-'] then .ok (⟨s, .separator⟩ :: rest.map fun s => ⟨s, .operand⟩)
    else do
      let role ← roleOf flags s
      return ⟨s, role⟩ :: (← classify flags rest)

end Word

end DocScaffold.CommandLine
