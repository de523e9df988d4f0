import DocScaffold.Text.Basic

/-!
# UTF-8

Strict decoding. An error names the bytes from the lead byte up to, not including, the first that
does not fit.
-/

namespace DocScaffold.Utf8

inductive Reason
  | invalidStart
  | invalidContinuation
  | endOfData
  deriving DecidableEq

/-- What cannot be decoded: `count` bytes from `position` on, of which `byte` is the first. -/
structure Error where
  reason : Reason
  position : Nat
  count : Nat
  byte : UInt8
  deriving DecidableEq

def Reason.text : Reason → Text
  | .invalidStart => "invalid start byte".toList
  | .invalidContinuation => "invalid continuation byte".toList
  | .endOfData => "unexpected end of data".toList

def hexDigit (n : Nat) : Char := Nat.digitChar n

def Error.message (e : Error) : Text :=
  let place :=
    if e.count = 1 then
      "byte 0x".toList ++ [hexDigit (e.byte.toNat / 16), hexDigit (e.byte.toNat % 16)] ++
        " in position ".toList ++ Text.ofNat e.position
    else
      "bytes in position ".toList ++ Text.ofNat e.position ++ "-".toList ++
        Text.ofNat (e.position + e.count - 1)
  "'utf-8' codec can't decode ".toList ++ place ++ ": ".toList ++ e.reason.text

/-- The number of bytes behind a lead byte, its payload, and the bounds of the byte behind it; the
bounds rule out long forms, surrogates and values beyond the last code point. -/
def lead? (b : UInt8) : Option (Nat × Nat × Nat × Nat) :=
  let n := b.toNat
  if n < 0x80 then some (0, n, 0, 0)
  else if n < 0xC2 then none
  else if n < 0xE0 then some (1, n - 0xC0, 0x80, 0xBF)
  else if n < 0xF0 then
    some (2, n - 0xE0, if n = 0xE0 then 0xA0 else 0x80, if n = 0xED then 0x9F else 0xBF)
  else if n < 0xF5 then
    some (3, n - 0xF0, if n = 0xF0 then 0x90 else 0x80, if n = 0xF4 then 0x8F else 0xBF)
  else none

/-- Takes `count` continuation bytes, the first of them within the bounds. On failure `taken` bytes
of the sequence have been read. -/
def continuation (taken : Nat) : (count value lo hi : Nat) → List UInt8 →
    Except (Reason × Nat) Nat
  | 0, value, _, _, _ => .ok value
  | _ + 1, _, _, _, [] => .error (.endOfData, taken)
  | count + 1, value, lo, hi, b :: rest =>
    if lo ≤ b.toNat && b.toNat ≤ hi then
      continuation (taken + 1) count (value * 64 + (b.toNat - 0x80)) 0x80 0xBF rest
    else .error (.invalidContinuation, taken)

/-- Decodes bytes, the first of which stands at `position`. The bytes of a sequence that has been
read are passed over by `skip`. -/
def decodeFrom (position skip : Nat) : List UInt8 → Except Error Text
  | [] => .ok []
  | b :: rest =>
    match skip with
    | skip + 1 => decodeFrom (position + 1) skip rest
    | 0 =>
      match lead? b with
      | none => .error ⟨.invalidStart, position, 1, b⟩
      | some (count, value, lo, hi) =>
        match continuation 1 count value lo hi rest with
        | .error (reason, taken) => .error ⟨reason, position, taken, b⟩
        | .ok code =>
          match decodeFrom (position + 1) count rest with
          | .error e => .error e
          | .ok s => .ok (Char.ofNat code :: s)

/-- The text that bytes hold. -/
def decode (bytes : List UInt8) : Except Error Text := decodeFrom 0 0 bytes

def encode (s : Text) : List UInt8 := s.flatMap String.utf8EncodeChar

end DocScaffold.Utf8
