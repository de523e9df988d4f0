import DocScaffold.Text.Integer

/-!
# Days and moments

A moment is a day, or a day with a time and perhaps a zone. One without a zone is local; an offset of
zero is the zone of UTC.
-/

namespace DocScaffold.Yaml

/-- A day, or a moment with the time in hours, minutes, seconds and millionths. -/
structure Moment where
  year : Nat
  month : Nat
  day : Nat
  time : Option (Nat × Nat × Nat × Nat)
  /-- The offset in seconds. -/
  zone : Option Int
  deriving DecidableEq

namespace Moment

/-- A span of time as days and seconds, of which the seconds are not negative. -/
def spanText (seconds : Int) : Text :=
  let days := Int.fdiv seconds 86400
  let rest := Int.fmod seconds 86400
  let parts := (if days = 0 then [] else ["days=".toList ++ Text.ofInt days]) ++
    (if rest = 0 then [] else ["seconds=".toList ++ Text.ofInt rest])
  "datetime.timedelta(".toList ++
    (if parts.isEmpty then "0".toList else Text.listed parts) ++ ")".toList

/-- How a message shows a moment. -/
def text (m : Moment) : Text :=
  let listed (ns : List Nat) : Text := Text.listed (ns.map Text.ofNat)
  let day := [m.year, m.month, m.day]
  match m.time with
  | none => "datetime.date(".toList ++ listed day ++ ")".toList
  | some (hour, minute, second, micro) =>
    let time := if micro ≠ 0 then [hour, minute, second, micro]
      else if second ≠ 0 then [hour, minute, second] else [hour, minute]
    let zone := match m.zone with
      | none => []
      | some 0 => ", tzinfo=datetime.timezone.utc".toList
      | some seconds => ", tzinfo=datetime.timezone(".toList ++ spanText seconds ++ ")".toList
    "datetime.datetime(".toList ++ listed (day ++ time) ++ zone ++ ")".toList

/-! ## Comparison -/

def isLeap (year : Nat) : Bool := year % 4 = 0 && (year % 100 ≠ 0 || year % 400 = 0)

def monthLength (year month : Nat) : Nat :=
  if month = 2 then if isLeap year then 29 else 28
  else if [4, 6, 9, 11].contains month then 30 else 31

/-- The number of a day, counted on. -/
def dayNumber (year month day : Nat) : Nat :=
  let years := year - 1
  (List.range (month - 1)).foldl (fun days i => days + monthLength year (i + 1))
    (365 * years + years / 4 - years / 100 + years / 400 + day)

/-- The seconds up to a moment in a zone, and its millionths. -/
def instant? (m : Moment) : Option (Int × Nat) :=
  match m.time, m.zone with
  | some (hour, minute, second, micro), some offset =>
    let seconds := dayNumber m.year m.month m.day * 86400 + hour * 3600 + minute * 60 + second
    some ((seconds : Int) - offset, micro)
  | _, _ => none

/-- Whether two moments are the same instant, or the same day or local time. -/
def isSame (m n : Moment) : Bool :=
  m == n || (m.instant?.isSome && m.instant? == n.instant?)

end Moment

end DocScaffold.Yaml
