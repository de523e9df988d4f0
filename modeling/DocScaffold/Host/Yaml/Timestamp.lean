import DocScaffold.Host.Yaml.Tag
import DocScaffold.Yaml.Moment

/-!
# Timestamps

A timestamp writes a day, or a day with a time and perhaps a zone, that need not be in any calendar.
-/

namespace DocScaffold.Yaml.Moment

/-- What a timestamp writes that no calendar holds. -/
inductive Fault
  | year (n : Nat)
  | month
  | day
  | hour
  | minute
  | second
  | offset (seconds : Int)
  deriving DecidableEq

def Fault.message : Fault → Text
  | .year n => "year ".toList ++ Text.ofNat n ++ " is out of range".toList
  | .month => "month must be in 1..12".toList
  | .day => "day is out of range for month".toList
  | .hour => "hour must be in 0..23".toList
  | .minute => "minute must be in 0..59".toList
  | .second => "second must be in 0..59".toList
  | .offset seconds =>
    ("offset must be a timedelta strictly between -timedelta(hours=24) and " ++
      "timedelta(hours=24), not ").toList ++ spanText seconds ++ ".".toList

/-- Between `least` and `most` digits, as many as there are. -/
def takeDigits (least most : Nat) (s : Text) : Option (Nat × Text) :=
  let digits := (s.take most).takeWhile Text.isAsciiDigit
  if digits.length < least then none else some (Text.asciiNumber digits, s.drop digits.length)

def takeMark (mark : Char) : Text → Option Text
  | c :: rest => if c == mark then some rest else none
  | [] => none

def isGapChar (c : Char) : Bool := c == ' ' || c == '\t'

/-- The six digits behind the point; those further behind are dropped. -/
def micros (digits : Text) : Nat :=
  let head := digits.take 6
  Text.asciiNumber head * Nat.pow 10 (6 - head.length)

/-- A zone at the end of a text, with blanks in front. -/
def zone? (s : Text) : Option (Option Int) := do
  if s.isEmpty then return none
  match s.dropWhile isGapChar with
  | ['Z'] => return some 0
  | sign :: rest =>
    if sign == '+' || sign == '-' then
      let (hours, rest) ← takeDigits 1 2 rest
      let minutes ← match rest with
        | [] => some 0
        | _ => do
          let (minutes, rest) ← takeDigits 2 2 (← takeMark ':' rest)
          if rest.isEmpty then some minutes else none
      let seconds : Int := hours * 3600 + minutes * 60
      return some (if sign == '-' then -seconds else seconds)
    else none
  | [] => none

/-- What a timestamp writes; it need not be in any calendar. -/
def written? (s : Text) : Option Moment := do
  let (year, rest) ← takeDigits 4 4 s
  let (month, rest) ← takeDigits 1 2 (← takeMark '-' rest)
  let (day, rest) ← takeDigits 1 2 (← takeMark '-' rest)
  match rest with
  | [] => return ⟨year, month, day, none, none⟩
  | c :: more =>
    let rest ← if c == 'T' || c == 't' then some more
      else if isGapChar c then some (more.dropWhile isGapChar) else none
    let (hour, rest) ← takeDigits 1 2 rest
    let (minute, rest) ← takeDigits 2 2 (← takeMark ':' rest)
    let (second, rest) ← takeDigits 2 2 (← takeMark ':' rest)
    let (micro, rest) := match rest with
      | '.' :: rest => (micros (rest.takeWhile Text.isAsciiDigit), rest.dropWhile Text.isAsciiDigit)
      | rest => (0, rest)
    let zone ← zone? rest
    return ⟨year, month, day, some (hour, minute, second, micro), zone⟩

/-- Whether a plain scalar is a timestamp: a day alone has its digits in full. -/
def isPlainTimestamp (s : Text) : Bool :=
  match written? s with
  | some m => m.time.isSome || s.length = 10
  | none => false

/-- What is wrong with a moment. The offset comes first. -/
def fault? (m : Moment) : Option Fault :=
  let (hour, minute, second, _) := m.time.getD (0, 0, 0, 0)
  let offset := m.zone.getD 0
  if 86400 ≤ offset.natAbs then some (.offset offset)
  else if m.year = 0 then some (.year 0)
  else if m.month = 0 || 12 < m.month then some .month
  else if m.day = 0 || monthLength m.year m.month < m.day then some .day
  else if 23 < hour then some .hour
  else if 59 < minute then some .minute
  else if 59 < second then some .second
  else none

end DocScaffold.Yaml.Moment
