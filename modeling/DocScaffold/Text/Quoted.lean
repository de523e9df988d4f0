import DocScaffold.Text.Basic
import DocScaffold.Text.Printable

/-!
# Quoted text

How messages show a text: in single quotes, or in double quotes when it holds single quotes and no
double ones. Characters that cannot be shown are written by their code points.
-/

namespace DocScaffold.Text

/-- Hexadecimal digits, filled up with zeros to `width`. -/
def hex (width n : Nat) : Text :=
  let digits := Nat.toDigits 16 n
  List.replicate (width - digits.length) '0' ++ digits

/-- A character inside the quotes `mark`. -/
def quotedChar (mark c : Char) : Text :=
  if c == mark || c == '\\' then ['\\', c]
  else if c == '\n' then ['\\', 'n']
  else if c == '\r' then ['\\', 'r']
  else if c == '\t' then ['\\', 't']
  else if isPrintable c then [c]
  else if c.toNat ≤ 0xFF then '\\' :: 'x' :: hex 2 c.toNat
  else if c.toNat ≤ 0xFFFF then '\\' :: 'u' :: hex 4 c.toNat
  else '\\' :: 'U' :: hex 8 c.toNat

def quoteMark (s : Text) : Char :=
  if s.contains '\x27' && !s.contains '"' then '"' else '\x27'

def quote (s : Text) : Text :=
  let mark := quoteMark s
  mark :: s.flatMap (quotedChar mark) ++ [mark]

end DocScaffold.Text
