import DocScaffold.Host.Yaml.Error
import DocScaffold.Host.Yaml.Tag
import DocScaffold.Yaml.Value

/-!
# Scalars as values

A scalar is read by its tag. One that contradicts its tag has no value.
-/

namespace DocScaffold.Yaml.Value

def withoutUnderscores (cs : Codes) : Codes := cs.filter (· != .char '_')

/-- The sign of a number and what follows it. -/
def cutSign (cs : Codes) : Except Error (Bool × Codes) :=
  match cs with
  | [] => .error .emptyNumber
  | .char '-' :: rest => .ok (true, rest)
  | .char '+' :: rest => .ok (false, rest)
  | _ => .ok (false, cs)

/-- The parts between colons. -/
def sixtieths : Codes → List Codes
  | [] => [[]]
  | c :: rest =>
    if c = .char ':' then [] :: sixtieths rest
    else match sixtieths rest with
      | part :: parts => (c :: part) :: parts
      | [] => [[c]]

def signed (isNegative : Bool) (n : Int) : Value := integer (if isNegative then -n else n)

/-- Digits in a base. -/
def ofDigits (base : Nat) (cs : Codes) : Except Error Int :=
  match Text.readInteger base (Codes.numeral cs) with
  | .ok i => .ok i
  | .error .malformed => .error (.notInteger base cs)
  | .error (.tooLong digits) => .error (.tooManyDigits digits)

/-- Parts in base 60, the highest first. -/
def sexagesimal (parts : List Int) : Int := parts.foldl (fun n d => n * 60 + d) 0

/-- An integer; a zero in front makes it octal, unless a letter behind the zero names another base. -/
def ofInteger (cs : Codes) : Except Error Value := do
  let (isNegative, digits) ← cutSign (withoutUnderscores cs)
  match digits with
  | [] => .error .emptyNumber
  | [.char '0'] => return integer 0
  | .char '0' :: .char 'b' :: rest => return signed isNegative (← ofDigits 2 rest)
  | .char '0' :: .char 'x' :: rest => return signed isNegative (← ofDigits 16 rest)
  | .char '0' :: _ => return signed isNegative (← ofDigits 8 digits)
  | _ =>
    if digits.contains (.char ':') then
      return signed isNegative (sexagesimal (← (sixtieths digits).mapM (ofDigits 10)))
    else return signed isNegative (← ofDigits 10 digits)

def exponent? (s : Text) : Option Int :=
  let digits := Tag.unsigned s
  if digits.isEmpty || !digits.all Text.isAsciiDigit then none
  else
    let n : Int := Text.asciiNumber digits
    some (if s.head? == some '-' then -n else n)

/-- The number that a numeral without sign writes in lower case. -/
def unsignedFloat? (s : Text) : Option Double :=
  if s = "inf".toList || s = "infinity".toList then some (.infinite false)
  else if s = "nan".toList then some .nan
  else
    let mantissa := s.takeWhile (· != 'e')
    let exponent := (s.dropWhile (· != 'e')).drop 1
    let whole := mantissa.takeWhile Text.isAsciiDigit
    let fraction := match mantissa.dropWhile Text.isAsciiDigit with
      | [] => some []
      | '.' :: rest => if rest.all Text.isAsciiDigit then some rest else none
      | _ => none
    match fraction with
    | none => none
    | some fraction =>
      let digits := whole ++ fraction
      let scale := if s.contains 'e' then exponent? exponent else some 0
      match scale with
      | none => none
      | some scale =>
        if digits.isEmpty then none
        else some (.ofDecimal false (Text.asciiNumber digits) (scale - fraction.length))

/-- The number that a numeral writes in lower case. -/
def float? (numeral : Text) : Option Double :=
  let s := numeral.dropWhile Text.isNumberSpace
  match (s.reverse.dropWhile Text.isNumberSpace).reverse with
  | '-' :: rest => (unsignedFloat? rest).map .neg
  | '+' :: rest => unsignedFloat? rest
  | rest => unsignedFloat? rest

def ofFloatCodes (cs : Codes) : Except Error Double :=
  match float? (Codes.numeral cs) with
  | some x => .ok x
  | none => .error (.notFloat cs)

/-- Parts in base 60, the lowest first, added up from below. -/
def sexagesimalFloat (base : Nat) (sum : Double) : List Double → Except Error Double
  | [] => .ok sum
  | x :: rest =>
    if 1 <<< 1024 ≤ base then .error .hugeFloat
    else sexagesimalFloat (base * 60) (sum.add (x.mulNat base)) rest

def ofFloat (cs : Codes) : Except Error Value := do
  let (isNegative, digits) ← cutSign (Codes.lower (withoutUnderscores cs))
  let x ←
    if digits = Text.codes ".inf".toList then pure (.infinite false)
    else if digits = Text.codes ".nan".toList then pure .nan
    else if digits.contains (.char ':') then
      let parts ← (sixtieths digits).mapM ofFloatCodes
      sexagesimalFloat 1 (.ofRatio false 0 1) parts.reverse
    else ofFloatCodes digits
  return float (if isNegative then x.neg else x)

def ofBool (cs : Codes) : Except Error Value :=
  let word := Codes.lower cs
  if (Tag.truths.map Text.codes).contains word then .ok (bool true)
  else if (Tag.falsehoods.map Text.codes).contains word then .ok (bool false)
  else .error (.notBool word)

def ofTimestamp (cs : Codes) : Except Error Value :=
  match (Codes.text? cs).bind fun s => Moment.written? (Tag.withoutFinalBreak s) with
  | none => .error .notTimestamp
  | some m => match m.fault? with
    | some fault => .error (.noMoment fault)
    | none => .ok (moment (if m.time.isNone then { m with zone := none } else m))

/-- The value of a digit of base 64. -/
def base64Value? (c : Char) : Option Nat :=
  if 'A' ≤ c && c ≤ 'Z' then some (c.toNat - 65)
  else if 'a' ≤ c && c ≤ 'z' then some (c.toNat - 71)
  else if Text.isAsciiDigit c then some (c.toNat + 4)
  else if c == '+' then some 62
  else if c == '/' then some 63
  else none

/-- The bytes of groups of four digits, of which `taken` have been read; `left` are the bits of the
last one that make up no byte yet. Marks that fill up a group, of which there are `marks` behind the
last digit, end the text; other marks and characters are passed over. -/
def base64Bytes (taken left marks : Nat) : Text → Option (List UInt8)
  | [] => if taken = 0 then some [] else none
  | c :: rest =>
    if c = '=' then
      if taken < 2 then base64Bytes taken left marks rest
      else if 4 ≤ taken + marks + 1 then some []
      else base64Bytes taken left (marks + 1) rest
    else match base64Value? c with
      | none => base64Bytes taken left marks rest
      | some d =>
        match taken with
        | 0 => base64Bytes 1 d 0 rest
        | 1 => (base64Bytes 2 (d % 16) 0 rest).map (UInt8.ofNat (left * 4 + d / 16) :: ·)
        | 2 => (base64Bytes 3 (d % 4) 0 rest).map (UInt8.ofNat (left * 16 + d / 4) :: ·)
        | _ => (base64Bytes 0 0 0 rest).map (UInt8.ofNat (left * 64 + d) :: ·)

def ofBinary (cs : Codes) : Except Error Value :=
  match Codes.text? cs with
  | none => .error .malformed
  | some s =>
    if s.any fun c => 128 ≤ c.toNat then .error .malformed
    else match base64Bytes 0 0 0 s with
      | some bs => .ok (bytes bs)
      | none => .error .malformed

def ofText (cs : Codes) : Value :=
  match Codes.text? cs with
  | some s => text s
  | none => codes cs

/-- The value of a scalar. -/
def ofScalar (tag : Tag) (cs : Codes) : Except Error Value :=
  match tag with
  | .null => .ok null
  | .bool => ofBool cs
  | .integer => ofInteger cs
  | .float => ofFloat cs
  | .text => .ok (ofText cs)
  | .timestamp => ofTimestamp cs
  | .binary => ofBinary cs
  | _ => .error .malformed

end DocScaffold.Yaml.Value
