import DocScaffold.Text.Case
import DocScaffold.Text.Integer
import DocScaffold.Text.Quoted

/-!
# Code points

Escapes may write code points that are no characters, such as halves of surrogate pairs. A list with
one of them is no text, but can be shown, and compared with what is one.
-/

namespace DocScaffold

inductive CodePoint
  | char (c : Char)
  | other (n : Nat)
  deriving DecidableEq

abbrev Codes := List CodePoint

namespace CodePoint

def ofNat (n : Nat) : CodePoint := if n.isValidChar then char (Char.ofNat n) else other n

def char? : CodePoint → Option Char
  | char c => some c
  | other _ => none

/-- A code point inside the quotes `mark`. -/
def quoted (mark : Char) : CodePoint → Text
  | char c => Text.quotedChar mark c
  | other n => '\\' :: 'u' :: Text.hex 4 n

end CodePoint

/-- The code points of a text. -/
def Text.codes (s : Text) : Codes := s.map .char

namespace Codes

/-- The text, when all code points are characters. -/
def text? (cs : Codes) : Option Text := cs.mapM CodePoint.char?

/-- The characters alone. -/
def chars (cs : Codes) : Text := cs.filterMap CodePoint.char?

/-- How messages show code points. -/
def quote (cs : Codes) : Text :=
  let mark := Text.quoteMark (chars cs)
  mark :: cs.flatMap (CodePoint.quoted mark) ++ [mark]

/-- Lower case. A code point that is no character ends the words around it. -/
def lower (cs : Codes) : Codes :=
  (cs.splitBy fun a b => a.char?.isSome && b.char?.isSome).flatMap fun run =>
    match text? run with
    | some s => s.lower.codes
    | none => run

/-- As they stand in a numeral. -/
def numeral (cs : Codes) : Text := cs.map fun c => (c.char?.map Text.numeralChar).getD '?'

end Codes

end DocScaffold
