import DocScaffold.Text.Blank

/-!
# Text

A text is the list of its code points; every offset counts code points.
-/

namespace DocScaffold

abbrev Text := List Char

namespace Text

/-- The code points from `start` up to, not including, `stop`. -/
def slice (s : Text) (start stop : Nat) : Text := (s.drop start).take (stop - start)

def trimStart (s : Text) : Text := s.dropWhile isBlank

def trimEnd (s : Text) : Text := (s.reverse.dropWhile isBlank).reverse

/-- Without the blanks at both ends. -/
def trim (s : Text) : Text := trimEnd (trimStart s)

/-- The maximal runs of characters that are not blank. -/
def words : Text → List Text
  | [] => []
  | c :: rest =>
    if isBlank c then words rest
    else match rest with
      | [] => [[c]]
      | d :: _ =>
        if isBlank d then [c] :: words rest
        else match words rest with
          | [] => [[c]]
          | w :: ws => (c :: w) :: ws

def unwords (ws : List Text) : Text := List.intercalate [' '] ws

/-- Texts with commas between them. -/
def listed (parts : List Text) : Text := List.intercalate [',', ' '] parts

/-- The parts between the marks; one more than there are marks. -/
def splitOn (mark : Char) : Text → List Text
  | [] => [[]]
  | c :: rest =>
    if c == mark then [] :: splitOn mark rest
    else match splitOn mark rest with
      | part :: parts => (c :: part) :: parts
      | [] => [[c]]

/-- Every run of blanks becomes one space, and the ends are trimmed. -/
def collapse (s : Text) : Text := unwords (words s)

/-- The lines without their ends. A carriage return and a line feed end one line together, and the
last line end opens no further line. -/
def lines : Text → List Text
  | [] => []
  | '\r' :: '\n' :: rest => [] :: lines rest
  | c :: rest =>
    if isLineBreak c then [] :: lines rest
    else match lines rest with
      | [] => [[c]]
      | l :: ls => (c :: l) :: ls

/-- Lines that end in a carriage return, with or without a line feed, end in a line feed alone. -/
def plainBreaks : Text → Text
  | [] => []
  | '\r' :: '\n' :: rest => '\n' :: plainBreaks rest
  | '\r' :: rest => '\n' :: plainBreaks rest
  | c :: rest => c :: plainBreaks rest

/-- The text before the first `mark` and the text behind it; all and nothing when there is none. -/
def cutAt (mark : Char) (s : Text) : Text × Text :=
  (s.takeWhile (· != mark), (s.dropWhile (· != mark)).drop 1)

def startsWith (s start : Text) : Bool := start.isPrefixOf s

def endsWith (s finish : Text) : Bool := finish.isSuffixOf s

/-- Decimal notation. -/
def ofNat (n : Nat) : Text := Nat.toDigits 10 n

def ofInt (i : Int) : Text := if i < 0 then '-' :: ofNat i.natAbs else ofNat i.natAbs

end Text

end DocScaffold
