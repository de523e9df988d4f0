import DocScaffold.Json.Basic
import DocScaffold.Text.Integer

/-!
# Reading JSON

The grammar of JSON with the numbers `NaN`, `Infinity` and `-Infinity` in addition. Control characters
have to be escaped in strings. Of the members with one name the last counts.
-/

namespace DocScaffold.Json

inductive ReadError
  | malformed
  /-- An integer has more digits than are read. -/
  | tooManyDigits
  /-- Collections lie in one another deeper than is read. -/
  | tooDeep
  /-- The bytes are no text. -/
  | undecodable
  deriving DecidableEq

/-- The deepest nesting of collections that is read. -/
def nestingLimit : Nat := 940

abbrev Read (α : Type) := Except ReadError α

def isSpace (c : Char) : Bool := c == ' ' || c == '\t' || c == '\n' || c == '\r'

def skipSpace (s : Text) : Text := s.dropWhile isSpace

def hexValue? (c : Char) : Option Nat :=
  if Text.isAsciiDigit c then some (c.toNat - 48)
  else if 'a' ≤ c && c ≤ 'f' then some (c.toNat - 87)
  else if 'A' ≤ c && c ≤ 'F' then some (c.toNat - 55)
  else none

def escaped? : Char → Option Nat
  | '"' => some 0x22
  | '\\' => some 0x5C
  | '/' => some 0x2F
  | 'b' => some 0x08
  | 'f' => some 0x0C
  | 'n' => some 0x0A
  | 'r' => some 0x0D
  | 't' => some 0x09
  | _ => none

/-- The code units of a string behind its opening quote, surrogates not yet paired. -/
def readUnits : Text → Read (List Nat × Text)
  | [] => .error .malformed
  | '"' :: rest => .ok ([], rest)
  | '\\' :: 'u' :: a :: b :: c :: d :: rest => do
    match hexValue? a, hexValue? b, hexValue? c, hexValue? d with
    | some a, some b, some c, some d =>
      let (units, rest) ← readUnits rest
      return ((((a * 16 + b) * 16 + c) * 16 + d) :: units, rest)
    | _, _, _, _ => .error .malformed
  | '\\' :: c :: rest => do
    match escaped? c with
    | some unit =>
      let (units, rest) ← readUnits rest
      return (unit :: units, rest)
    | none => .error .malformed
  | c :: rest => do
    if c.toNat < 0x20 || c == '\\' then .error .malformed
    else
      let (units, rest) ← readUnits rest
      return (c.toNat :: units, rest)

def isHigh (unit : Nat) : Bool := 0xD800 ≤ unit && unit < 0xDC00

def isLow (unit : Nat) : Bool := 0xDC00 ≤ unit && unit < 0xE000

/-- The text of code units, if every surrogate is half of a pair. -/
def paired? : List Nat → Option Text
  | [] => some []
  | [u] => if isHigh u || isLow u then none else some [Char.ofNat u]
  | u :: v :: rest =>
    if isHigh u && isLow v then
      (paired? rest).map (Char.ofNat (0x10000 + (u - 0xD800) * 0x400 + (v - 0xDC00)) :: ·)
    else if isHigh u || isLow u then none
    else (paired? (v :: rest)).map (Char.ofNat u :: ·)

/-- The digits behind a point, when there are any. -/
def readFraction : Text → Text × Text
  | '.' :: rest =>
    match rest.takeWhile Text.isAsciiDigit with
    | [] => ([], '.' :: rest)
    | digits => (digits, rest.dropWhile Text.isAsciiDigit)
  | s => ([], s)

/-- An exponent, when there is one with digits. -/
def readExponent (s : Text) : Option Int × Text :=
  match s with
  | e :: rest =>
    if e == 'e' || e == 'E' then
      let (isNegative, digits) := match rest with
        | '-' :: r => (true, r)
        | '+' :: r => (false, r)
        | r => (false, r)
      match digits.takeWhile Text.isAsciiDigit with
      | [] => (none, s)
      | ds =>
        let n : Int := Text.asciiNumber ds
        (some (if isNegative then -n else n), digits.dropWhile Text.isAsciiDigit)
    else (none, s)
  | [] => (none, s)

/-- A number behind its sign. -/
def readNumber (isNegative : Bool) (s : Text) : Read (Json × Text) :=
  let whole := match s with
    | '0' :: _ => ['0']
    | _ => s.takeWhile Text.isAsciiDigit
  if whole.isEmpty then .error .malformed
  else
    let (fraction, rest) := readFraction (s.drop whole.length)
    let (exponent, rest) := readExponent rest
    if fraction.isEmpty && exponent.isNone then
      if Text.digitLimit < whole.length then .error .tooManyDigits
      else
        let n : Int := Text.asciiNumber whole
        .ok (.integer (if isNegative then -n else n), rest)
    else
      let scale := exponent.getD 0 - fraction.length
      .ok (.number (.ofDecimal isNegative (Text.asciiNumber (whole ++ fraction)) scale), rest)

/-- A literal at the front of a text. -/
def readWord (word : Text) (value : Json) (s : Text) : Option (Json × Text) :=
  if word.isPrefixOf s then some (value, s.drop word.length) else none

def literals : List (Text × Json) := [
  ("null".toList, .null), ("true".toList, .bool true), ("false".toList, .bool false),
  ("NaN".toList, .number .nan), ("Infinity".toList, .number (.infinite false)),
  ("-Infinity".toList, .number (.infinite true))]

mutual

/-- A value at the front of a text, blanks skipped, in which `nesting` collections may lie in one
another. The second argument bounds the steps. -/
def readValue (nesting : Nat) : Nat → Text → Read (Json × Text)
  | 0, _ => .error .malformed
  | fuel + 1, s =>
    match skipSpace s with
    | '"' :: rest => do
      let (units, rest) ← readUnits rest
      return (match paired? units with | some t => .string t | none => .brokenString, rest)
    | '[' :: rest =>
      match nesting, skipSpace rest with
      | 0, _ => .error .tooDeep
      | _, ']' :: rest => .ok (.array [], rest)
      | nesting + 1, _ => do
        let (items, rest) ← readItems nesting fuel rest
        return (.array items, rest)
    | '{' :: rest =>
      match nesting, skipSpace rest with
      | 0, _ => .error .tooDeep
      | _, '}' :: rest => .ok (.object [], rest)
      | nesting + 1, _ => do
        let (members, rest) ← readMembers nesting fuel rest
        return (.object members, rest)
    | s =>
      match literals.findSome? fun (word, value) => readWord word value s with
      | some result => .ok result
      | none =>
        match s with
        | '-' :: rest => readNumber true rest
        | s => readNumber false s

/-- The items up to the closing bracket. -/
def readItems (nesting : Nat) : Nat → Text → Read (List Json × Text)
  | 0, _ => .error .malformed
  | fuel + 1, s => do
    let (item, rest) ← readValue nesting fuel s
    match skipSpace rest with
    | ',' :: rest =>
      let (items, rest) ← readItems nesting fuel rest
      return (item :: items, rest)
    | ']' :: rest => return ([item], rest)
    | _ => .error .malformed

/-- The members up to the closing brace. One whose name is no text is left out. -/
def readMembers (nesting : Nat) : Nat → Text → Read (List (Text × Json) × Text)
  | 0, _ => .error .malformed
  | fuel + 1, s =>
    match skipSpace s with
    | '"' :: rest => do
      let (units, rest) ← readUnits rest
      match skipSpace rest with
      | ':' :: rest =>
        let (value, rest) ← readValue nesting fuel rest
        let member := match paired? units with
          | some name => [(name, value)]
          | none => []
        match skipSpace rest with
        | ',' :: rest =>
          let (members, rest) ← readMembers nesting fuel rest
          return (member ++ members, rest)
        | '}' :: rest => return (member, rest)
        | _ => .error .malformed
      | _ => .error .malformed
    | _ => .error .malformed

end

/-- The value that a text holds, and nothing else. -/
def read (s : Text) : Read Json := do
  let (value, rest) ← readValue nestingLimit (s.length + 1) s
  if (skipSpace rest).isEmpty then return value else .error .malformed

end DocScaffold.Json
