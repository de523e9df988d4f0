import DocScaffold.Number.Double
import DocScaffold.Text.Basic

/-!
# The shortest decimal of a double

The digits are the fewest that read back as the same number, and of those the nearest to it. From
`10^-4` up to `10^16` they are written in positional notation, with at least one place behind the
point.
-/

namespace DocScaffold.Double

/-- The exponent `e` with `10^e ≤ num / den < 10^(e+1)`, searched from `e` upwards. -/
def exponent10From (num den : Nat) (e : Int) : Nat → Int
  | 0 => e
  | fuel + 1 =>
    if num * Nat.pow 10 (-(e + 1)).toNat < den * Nat.pow 10 (e + 1).toNat then e
    else exponent10From num den (e + 1) fuel

def exponent10 (num den : Nat) : Int :=
  if den ≤ num then ((Nat.toDigits 10 (num / den)).length : Int) - 1
  else exponent10From num den (-((Nat.toDigits 10 (den / num)).length : Int) - 1) 4

/-- The `count` digits, as a natural, and the exponent of the last of them, of the decimal that is
nearest to `num / den` among those that satisfy `admits`. -/
def nearestDigits? (admits : Nat → Int → Bool) (num den : Nat) (e : Int) (count : Nat) :
    Option (Nat × Int) :=
  let unit := e - count + 1
  let num := num * Nat.pow 10 (-unit).toNat
  let den := den * Nat.pow 10 unit.toNat
  let low := num / den
  let isLowNearer := 2 * (num % den) < den || (2 * (num % den) = den && low % 2 = 0)
  match admits low unit, admits (low + 1) unit with
  | true, true => some (if isLowNearer then low else low + 1, unit)
  | true, false => some (low, unit)
  | false, true => some (low + 1, unit)
  | false, false => none

/-- The digits of a positive number and the exponent of the last of them. -/
def shortest (m : Nat) (q : Int) : Nat × Int :=
  let (num, den) := ratio m q
  let e := exponent10 num den
  let admits := fun n unit => ofDecimal false n unit == ofRatio false num den
  ((List.range 17).findSome? fun i => nearestDigits? admits num den e (i + 1)).getD (m, q)

/-- Without zeros at the end; the exponent makes up for them. -/
def dropZeros (digits : Nat) (unit : Int) : Nat → Nat × Int
  | 0 => (digits, unit)
  | fuel + 1 =>
    if digits % 10 = 0 && digits ≠ 0 then dropZeros (digits / 10) (unit + 1) fuel else (digits, unit)

def exponentText (e : Int) : Text :=
  let digits := Text.ofNat e.natAbs
  'e' :: (if e < 0 then '-' else '+') ::
    (if digits.length < 2 then '0' :: digits else digits)

/-- The decimal of a number that is finite and not negative. -/
def unsignedText (m : Nat) (q : Int) : Text :=
  if m = 0 then "0.0".toList
  else
    let (n, unit) := shortest m q
    let (n, unit) := dropZeros n unit 20
    let digits := Text.ofNat n
    let e := unit + digits.length - 1
    if e < -4 || 16 ≤ e then
      let head := digits.take 1
      let rest := digits.drop 1
      (if rest.isEmpty then head else head ++ '.' :: rest) ++ exponentText e
    else if e < 0 then "0.".toList ++ List.replicate (-e - 1).toNat '0' ++ digits
    else if 0 ≤ unit then digits ++ List.replicate unit.toNat '0' ++ ".0".toList
    else digits.take (e + 1).toNat ++ '.' :: digits.drop (e + 1).toNat

def text : Double → Text
  | nan => "nan".toList
  | infinite s => if s then "-inf".toList else "inf".toList
  | finite s m q => if s then '-' :: unsignedText m q else unsignedText m q

end DocScaffold.Double
