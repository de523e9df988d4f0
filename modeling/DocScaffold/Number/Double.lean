/-!
# Double precision numbers

A finite number is `± m · 2^q` with `m < 2^53` and `q ≥ -1074`; what lies between two of them rounds to
the nearer, and a tie to the even `m`. All arithmetic is on naturals.
-/

namespace DocScaffold

inductive Double
  | nan
  | infinite (isNegative : Bool)
  | finite (isNegative : Bool) (m : Nat) (q : Int)
  deriving DecidableEq

namespace Double

/-- The quotient rounded to the nearest natural, a tie to the even one. -/
def divNearest (num den : Nat) : Nat :=
  let n := num / den
  let twice := 2 * (num % den)
  if twice < den || (twice = den && n % 2 = 0) then n else n + 1

/-- The exponent `e` with `2^e ≤ num / den < 2^(e+1)`. -/
def exponent2 (num den : Nat) : Int :=
  let e : Int := (num.log2 : Int) - (den.log2 : Int)
  if num <<< (-e).toNat < den <<< e.toNat then e - 1 else e

/-- The number nearest to a quotient of naturals. -/
def ofRatio (isNegative : Bool) (num den : Nat) : Double :=
  if num = 0 then finite isNegative 0 (-1074)
  else
    let q := max (exponent2 num den - 52) (-1074)
    let m := divNearest (num <<< (-q).toNat) (den <<< q.toNat)
    let (m, q) := if m = 1 <<< 53 then (1 <<< 52, q + 1) else (m, q)
    if 971 < q then infinite isNegative else finite isNegative m q

/-- The number nearest to `digits · 10^exponent`. Exponents far outside the range are not computed
with. -/
def ofDecimal (isNegative : Bool) (digits : Nat) (exponent : Int) : Double :=
  let size : Int := (Nat.toDigits 10 digits).length + exponent
  if digits = 0 || size < -400 then finite isNegative 0 (-1074)
  else if 400 < size then infinite isNegative
  else ofRatio isNegative (digits * Nat.pow 10 exponent.toNat) (Nat.pow 10 (-exponent).toNat)

/-- Numerator and denominator of the absolute value. -/
def ratio (m : Nat) (q : Int) : Nat × Nat := (m <<< q.toNat, 1 <<< (-q).toNat)

/-- The numbers that equal an integer, with that integer. -/
def toInt? : Double → Option Int
  | finite isNegative m q =>
    let (num, den) := ratio m q
    if num % den = 0 then some (if isNegative then -Int.ofNat (num / den) else Int.ofNat (num / den))
    else none
  | _ => none

def isFinite : Double → Bool
  | finite .. => true
  | _ => false

/-- Equality of values: zeros are equal, and nothing equals what is not a number. -/
def sameValue : Double → Double → Bool
  | finite s m q, finite s' m' q' =>
    let (a, b) := ratio m q
    let (c, d) := ratio m' q'
    a * d == c * b && (a == 0 || s == s')
  | infinite s, infinite s' => s == s'
  | _, _ => false

def neg : Double → Double
  | nan => nan
  | infinite s => infinite !s
  | finite s m q => finite (!s) m q

/-- The product with a positive natural, which is rounded first. -/
def mulNat (x : Double) (n : Nat) : Double :=
  match x, ofRatio false n 1 with
  | finite s m q, finite _ k r =>
    let (a, b) := ratio m q
    let (c, d) := ratio k r
    ofRatio s (a * c) (b * d)
  | finite s m q, y => if m = 0 then finite s m q else if s then y.neg else y
  | _, _ => x

def signed (isNegative : Bool) (n : Nat) : Int := if isNegative then -n else n

/-- The sum, rounded. A sum of zero is positive unless both numbers are negative zeros. -/
def add (x y : Double) : Double :=
  match x, y with
  | nan, _ | _, nan => nan
  | infinite s, infinite t => if s = t then infinite s else nan
  | infinite s, _ | _, infinite s => infinite s
  | finite s m q, finite t n r =>
    let (a, b) := ratio m q
    let (c, d) := ratio n r
    let sum := signed s (a * d) + signed t (c * b)
    if sum = 0 then finite (s && t) 0 (-1074)
    else ofRatio (sum < 0) sum.natAbs (b * d)

end Double

end DocScaffold
