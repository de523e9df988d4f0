import DocScaffold.Text.Basic

/-!
# Positions in a YAML text

What is left of the text, with the number of characters, line breaks and columns passed. A byte order
mark takes no column.
-/

namespace DocScaffold.Yaml

/-- The characters that a YAML text may hold. -/
def isAllowed (c : Char) : Bool :=
  let n := c.toNat
  n == 0x09 || n == 0x0A || n == 0x0D || (0x20 ≤ n && n ≤ 0x7E) || n == 0x85 ||
    (0xA0 ≤ n && n ≤ 0xD7FF) || (0xE000 ≤ n && n ≤ 0xFFFD) || 0x10000 ≤ n

def isBreak (c : Char) : Bool :=
  c == '\n' || c == '\r' || c == '\u0085' || c == '\u2028' || c == '\u2029'

def isSpaceOrTab (c : Char) : Bool := c == ' ' || c == '\t'

/-- Whether a line ends here; the text ends with a line. -/
def endsLine (c : Option Char) : Bool := c.all isBreak

/-- Whether a space or the end of a line stands here. -/
def endsWord (c : Option Char) : Bool := c.all fun c => c == ' ' || isBreak c

/-- Whether a space, a tab or the end of a line stands here. -/
def isGap (c : Option Char) : Bool := c.all fun c => isSpaceOrTab c || isBreak c

structure Position where
  rest : Text
  index : Nat
  line : Nat
  column : Nat

namespace Position

def start (s : Text) : Position := ⟨s, 0, 0, 0⟩

/-- The character at a distance. -/
def peek (p : Position) (n : Nat) : Option Char := p.rest[n]?

def current (p : Position) : Option Char := p.rest.head?

def holds (p : Position) (c : Char) : Bool := p.current == some c

/-- Passes one character. -/
def advance (p : Position) : Position :=
  match p.rest with
  | [] => p
  | c :: rest =>
    if isBreak c && !(c == '\r' && rest.head? == some '\n') then ⟨rest, p.index + 1, p.line + 1, 0⟩
    else if c == '\ufeff' then ⟨rest, p.index + 1, p.line, p.column⟩
    else ⟨rest, p.index + 1, p.line, p.column + 1⟩

def advanceBy (p : Position) : Nat → Position
  | 0 => p
  | n + 1 => p.advance.advanceBy n

/-- Takes characters as long as they satisfy `f`. -/
def takeWhile (f : Char → Bool) (p : Position) : Text × Position :=
  let taken := p.rest.takeWhile f
  (taken, p.advanceBy taken.length)

def dropWhile (f : Char → Bool) (p : Position) : Position := (p.takeWhile f).2

def skipSpaces (p : Position) : Position := p.dropWhile (· == ' ')

/-- Passes a comment up to the end of its line. -/
def skipComment (p : Position) : Position :=
  if p.holds '#' then p.dropWhile fun c => !isBreak c else p

/-- Passes a line break. All but the two Unicode separators stand for a line feed. -/
def lineBreak? (p : Position) : Option (Char × Position) :=
  match p.rest with
  | '\r' :: '\n' :: _ => some ('\n', p.advanceBy 2)
  | c :: _ =>
    if isBreak c then some (if c == '\u2028' || c == '\u2029' then c else '\n', p.advance) else none
  | [] => none

/-- Passes a line break if there is one. -/
def skipBreak (p : Position) : Position := (p.lineBreak?.map (·.2)).getD p

/-- Whether the three characters of a document mark stand here with a gap behind them. -/
def atMark (mark : Text) (p : Position) : Bool := mark.isPrefixOf p.rest && isGap (p.peek 3)

/-- Whether a line that begins here begins or ends a document. -/
def atDocumentMark (p : Position) : Bool := p.atMark "---".toList || p.atMark "...".toList

end Position

end DocScaffold.Yaml
