import DocScaffold.Host.Web.Problem
import DocScaffold.Text.Integer

/-!
# Numbers and truth values in requests

An integer may also be given as a truth value, as a number without a fraction, or as a text; a truth
value also as zero or one, or as a word.
-/

namespace DocScaffold.Service

/-- Without the blanks around a number. -/
def trimmed (s : Text) : Text :=
  ((s.dropWhile Text.isNumberSpace).reverse.dropWhile Text.isNumberSpace).reverse

/-- Without zeros in front and the underscores among them. The last of them stays in front of a point
and at the end. -/
def withoutZeros : Text → Text
  | '0' :: rest =>
    let isFiller (c : Char) : Bool := c == '0' || c == '_'
    let last := ((rest.takeWhile isFiller).getLast?).getD '0'
    match rest.dropWhile isFiller with
    | [] => [last]
    | c :: more =>
      if c = '.' then last :: '.' :: more
      else if Text.isAsciiDigit c then c :: more
      else '0' :: rest
  | s => s

/-- Without a point and the zeros, at least one, that alone stand behind it. -/
def withoutFraction (s : Text) : Text :=
  let (whole, fraction) := Text.cutAt '.' s
  if !fraction.isEmpty && fraction.all (· == '0') then whole else s

/-- Without underscores, if they stand one by one inside the text. -/
def withoutUnderscores (s : Text) : Text :=
  if (Text.splitOn '_' s).all (!·.isEmpty) then s.filter (· != '_') else s

/-- The integer that a text in plain notation writes: digits, of which the first is zero only if it is
the only one, perhaps with a minus. Too many characters of it are a complaint whatever follows them. -/
def plainInteger (s : Text) : Except Complaint Int :=
  let (isNegative, rest) := match s with
    | '-' :: rest => (true, rest)
    | rest => (false, rest)
  match rest.takeWhile Text.isAsciiDigit with
  | [] => .error .intParsing
  | ['0'] => if rest = ['0'] then .ok 0 else .error .intParsing
  | '0' :: _ => .error .intParsing
  | digits =>
    let n : Int := Text.asciiNumber digits
    if Text.digitLimit < digits.length + (if isNegative then 1 else 0) then .error .intParsingSize
    else if digits.length < rest.length then .error .intParsing
    else .ok (if isNegative then -n else n)

/-- The integer that a text writes. A plus may stand in front of digits. -/
def integerOfText (s : Text) : Except Complaint Int :=
  match trimmed s with
  | '+' :: '-' :: _ => .error .intParsing
  | '+' :: rest => plainInteger (withoutUnderscores (withoutFraction (withoutZeros rest)))
  | rest => plainInteger (withoutUnderscores (withoutFraction (withoutZeros rest)))

/-- The integer that a number equals, if it is in the range of 64 bits. -/
def integerOfNumber (x : Double) : Except Complaint Int :=
  if !x.isFinite then .error .finiteNumber
  else match x.toInt? with
    | none => .error .intFromFloat
    | some i => if -0x8000000000000000 < i && i < 0x8000000000000000 then .ok i else .error .intParsingSize

def integer : Json → Except Complaint Int
  | .integer i => .ok i
  | .bool b => .ok (if b then 1 else 0)
  | .number x => integerOfNumber x
  | .string s => integerOfText s
  | .brokenString => .error .stringUnicode
  | _ => .error .intType

def affirmations : List Text := ["1".toList, "on".toList, "t".toList, "true".toList, "y".toList,
  "yes".toList]

def denials : List Text := ["0".toList, "off".toList, "f".toList, "false".toList, "n".toList,
  "no".toList]

/-- The truth value that a word names, in small or capital letters. -/
def truthOfText (s : Text) : Except Complaint Bool :=
  let word := s.map Char.toLower
  if affirmations.contains word then .ok true
  else if denials.contains word then .ok false
  else .error .boolParsing

def truthOfInteger (i : Int) : Except Complaint Bool :=
  if i = 0 then .ok false else if i = 1 then .ok true else .error .boolParsing

def truth : Json → Except Complaint Bool
  | .bool b => .ok b
  | .string s => truthOfText s
  | .brokenString => .error .stringUnicode
  | .integer i =>
    if -0x8000000000000000 ≤ i && i < 0x8000000000000000 then truthOfInteger i else .error .boolType
  | .number x =>
    match integerOfNumber x with
    | .ok i => truthOfInteger i
    | .error _ => .error .boolType
  | _ => .error .boolType

def string : Json → Except Complaint Text
  | .string s => .ok s
  | .brokenString => .error .stringUnicode
  | _ => .error .stringType

end DocScaffold.Service
