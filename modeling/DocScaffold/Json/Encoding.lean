import DocScaffold.Json.Reader
import DocScaffold.Text.Utf8

/-!
# JSON in bytes

A JSON text begins with characters of ASCII, so the NULs among its first four bytes tell how it is
encoded. A byte order mark in front of UTF-8 is dropped.
-/

namespace DocScaffold.Json

inductive Encoding
  | utf8
  | utf16 (isBigEndian : Bool)
  | utf32 (isBigEndian : Bool)
  deriving DecidableEq

/-- The encoding that the first bytes tell. -/
def Encoding.of : List UInt8 → Encoding
  | [a, b] => if a = 0 then utf16 true else if b = 0 then utf16 false else utf8
  | a :: b :: c :: d :: _ =>
    if a = 0 then (if b = 0 then utf32 true else utf16 true)
    else if b = 0 then (if c = 0 && d = 0 then utf32 false else utf16 false)
    else utf8
  | _ => utf8

/-- Joins digits in a base by twos; no digit may be left over. -/
def joinPairs? (base : Nat) (isBigEndian : Bool) : List Nat → Option (List Nat)
  | [] => some []
  | [_] => none
  | a :: b :: rest =>
    (joinPairs? base isBigEndian rest).map
      ((if isBigEndian then a * base + b else b * base + a) :: ·)

def charOf? (n : Nat) : Option Char := if n.isValidChar then some (Char.ofNat n) else none

/-- The text that bytes hold in an encoding. -/
def Encoding.decode? (e : Encoding) (bytes : List UInt8) : Option Text :=
  let digits := bytes.map UInt8.toNat
  match e with
  | utf8 =>
    match Utf8.decode bytes with
    | .ok ('\ufeff' :: s) => some s
    | .ok s => some s
    | .error _ => none
  | utf16 isBigEndian => do paired? (← joinPairs? 256 isBigEndian digits)
  | utf32 isBigEndian => do
    let units ← joinPairs? 256 isBigEndian digits
    (← joinPairs? 65536 isBigEndian units).mapM charOf?

/-- The value that bytes hold, and nothing else. -/
def readBytes (bytes : List UInt8) : Read Json :=
  match (Encoding.of bytes).decode? bytes with
  | some s => read s
  | none => .error .undecodable

end DocScaffold.Json
