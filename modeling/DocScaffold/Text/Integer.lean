import DocScaffold.Text.Basic
import DocScaffold.Text.Digit

/-!
# Integers as text

Digits of any decimal system, single underscores between them, a sign in front and blanks around. A
base of 2, 8 or 16 may be named in front of the digits. A decimal number of more than 4300 digits is
refused.
-/

namespace DocScaffold.Text

/-- The most digits that are read or written in decimal notation. -/
def digitLimit : Nat := 4300

def valueOf (digits : List Nat) : Nat := digits.foldl (fun n d => 10 * n + d) 0

/-- The number that ASCII digits write. -/
def asciiNumber (digits : Text) : Nat := valueOf (digits.map fun c => c.toNat - 48)

/-! ## Numerals

A numeral is a number in ASCII. -/

/-- The blanks around a number; the separators `U+001C` to `U+001F` are none. -/
def isNumberSpace (c : Char) : Bool := isBlank c && !(0x1C ≤ c.toNat && c.toNat ≤ 0x1F)

/-- A character as it stands in a numeral. What no number holds is a question mark. -/
def numeralChar (c : Char) : Char :=
  if c.toNat < 127 then c
  else if isNumberSpace c then ' '
  else match digitValue? c with
    | some d => Nat.digitChar d
    | none => '?'

/-- The value of a digit or letter below a base of at most 16. -/
def digitIn? (base : Nat) (c : Char) : Option Nat :=
  let value :=
    if isAsciiDigit c then c.toNat - 48
    else if 'a' ≤ c && c ≤ 'f' then c.toNat - 87
    else if 'A' ≤ c && c ≤ 'F' then c.toNat - 55
    else base
  if value < base then some value else none

/-- The digits at the front, between which single underscores may stand, and what follows them. -/
def digitRun (base : Nat) : Text → List Nat × Text
  | [] => ([], [])
  | c :: rest =>
    match digitIn? base c with
    | none => ([], c :: rest)
    | some d =>
      match rest with
      | '_' :: e :: more =>
        if (digitIn? base e).isSome then
          let (digits, rest) := digitRun base (e :: more)
          (d :: digits, rest)
        else ([d], '_' :: e :: more)
      | rest =>
        let (digits, rest) := digitRun base rest
        (d :: digits, rest)

/-- The letter that names a base behind a zero. -/
def namesBase (base : Nat) (c : Char) : Bool :=
  (base = 2 && (c == 'b' || c == 'B')) || (base = 8 && (c == 'o' || c == 'O')) ||
    (base = 16 && (c == 'x' || c == 'X'))

/-- Without the name of the base. -/
def withoutBase (base : Nat) : Text → Text
  | '0' :: c :: rest => if namesBase base c then rest else '0' :: c :: rest
  | s => s

inductive IntegerFault
  | malformed
  | tooLong (digits : Nat)

/-- The integer that a numeral writes. -/
def readInteger (base : Nat) (numeral : Text) : Except IntegerFault Int :=
  let (isNegative, s) := match numeral.dropWhile isNumberSpace with
    | '-' :: rest => (true, rest)
    | '+' :: rest => (false, rest)
    | rest => (false, rest)
  let (digits, rest) := digitRun base (withoutBase base s)
  if base = 10 && digitLimit < digits.length then .error (.tooLong digits.length)
  else if digits.isEmpty || !rest.all isNumberSpace then .error .malformed
  else
    let n : Int := (digits.foldl (fun n d => base * n + d) 0 : Nat)
    .ok (if isNegative then -n else n)

/-- The integer that a text writes in decimal notation. -/
def integer? (s : Text) : Option Int := (readInteger 10 (s.map numeralChar)).toOption

end DocScaffold.Text
