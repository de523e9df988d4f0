import DocScaffold.Text.Basic
import DocScaffold.Text.Digit

/-!
# Tags

The tag of a plain scalar follows from its form, after YAML 1.1: `yes` and `off` are booleans, a zero
in front makes an integer octal, and an exponent needs a point and a sign.
-/

namespace DocScaffold.Yaml

inductive Tag
  | null
  | bool
  | integer
  | float
  | text
  | timestamp
  | binary
  | merge
  | value
  | indicator
  | sequence
  | mapping
  | omap
  | pairs
  | set
  | unknown
  deriving DecidableEq

namespace Tag

/-- What all tags of the standard begin with. -/
def standard : Text := "tag:yaml.org,2002:".toList

def names : List (String × Tag) := [
  ("null", null), ("bool", bool), ("int", integer), ("float", float), ("str", text),
  ("timestamp", timestamp), ("binary", binary), ("merge", merge), ("value", value),
  ("seq", sequence), ("map", mapping), ("omap", omap), ("pairs", pairs), ("set", set)]

/-- The tag with a full name. -/
def ofName (name : Text) : Tag :=
  ((names.find? fun (n, _) => standard ++ n.toList == name).map (·.2)).getD unknown

/-! ## Forms of scalars

Outside quotes the form of a scalar tells its tag. -/

/-- Without a line feed at the end, which no form minds. -/
def withoutFinalBreak (s : Text) : Text := if s.getLast? = some '\n' then s.dropLast else s

/-- A digit or an underscore. -/
def isDigitPart (c : Char) : Bool := Text.isAsciiDigit c || c == '_'

def unsigned (s : Text) : Text :=
  match s with
  | c :: rest => if c == '+' || c == '-' then rest else s
  | [] => []

/-- A digit below 60, with or without a zero in front. -/
def isSixtieth : Text → Bool
  | [d] => Text.isAsciiDigit d
  | [c, d] => '0' ≤ c && c ≤ '5' && Text.isAsciiDigit d
  | _ => false

/-- A digit with digits and underscores behind it. -/
def isDecimal : Text → Bool
  | c :: rest => Text.isAsciiDigit c && rest.all isDigitPart
  | [] => false

def isHexPart (c : Char) : Bool :=
  isDigitPart c || ('a' ≤ c && c ≤ 'f') || ('A' ≤ c && c ≤ 'F')

/-- An integer without its sign. -/
def isUnsignedInteger (s : Text) : Bool :=
  match s with
  | ['0'] => true
  | '0' :: 'b' :: rest => !rest.isEmpty && rest.all fun c => c == '0' || c == '1' || c == '_'
  | '0' :: 'x' :: rest => !rest.isEmpty && rest.all isHexPart
  | '0' :: rest => !rest.isEmpty && rest.all fun c => ('0' ≤ c && c ≤ '7') || c == '_'
  | _ =>
    match Text.splitOn ':' s with
    | head :: tail => isDecimal head && tail.all isSixtieth
    | [] => false

/-- An exponent with its sign. -/
def isExponent : Text → Bool
  | c :: rest => (c == '+' || c == '-') && !rest.isEmpty && rest.all Text.isAsciiDigit
  | [] => false

/-- A mantissa with a point, and an exponent or none. A mantissa without digits in front of the point
is admitted when `mayLackWhole` says so. -/
def isPointed (mayLackWhole : Bool) (s : Text) : Bool :=
  let mantissa := s.takeWhile fun c => c != 'e' && c != 'E'
  let exponent := s.dropWhile fun c => c != 'e' && c != 'E'
  (exponent.isEmpty || isExponent (exponent.drop 1)) &&
    match Text.splitOn '.' mantissa with
    | [[], fraction] => mayLackWhole && isDecimal fraction
    | [whole, fraction] => isDecimal whole && fraction.all isDigitPart
    | _ => false

/-- Sixtieths with a fraction behind the last of them. -/
def isPointedSixtieths (s : Text) : Bool :=
  match Text.splitOn '.' s with
  | [whole, fraction] =>
    fraction.all isDigitPart && match Text.splitOn ':' whole with
      | head :: next :: rest => isDecimal head && (next :: rest).all isSixtieth
      | _ => false
  | _ => false

def infinities : List Text := [".inf".toList, ".Inf".toList, ".INF".toList]

def notNumbers : List Text := [".nan".toList, ".NaN".toList, ".NAN".toList]

def isFloat (s : Text) : Bool :=
  isPointed true s || isPointed false (unsigned s) || isPointedSixtieths (unsigned s) ||
    infinities.contains (unsigned s) || notNumbers.contains s

def truths : List Text := ["yes".toList, "true".toList, "on".toList]

def falsehoods : List Text := ["no".toList, "false".toList, "off".toList]

def upper (s : Text) : Text := s.map Char.toUpper

def capital : Text → Text
  | [] => []
  | c :: rest => c.toUpper :: rest

/-- A word in lower case, with a capital, or in upper case. -/
def isSpelling (word s : Text) : Bool := s == word || s == capital word || s == upper word

def isBool (s : Text) : Bool := (truths ++ falsehoods).any (isSpelling · s)

def isNull (s : Text) : Bool := s.isEmpty || s == ['~'] || isSpelling "null".toList s

/-- Whether a scalar is one of the signs that begin a tag, an anchor or an alias. -/
def isIndicator (s : Text) : Bool := s == ['!'] || s == ['&'] || s == ['*']

end Tag

end DocScaffold.Yaml
