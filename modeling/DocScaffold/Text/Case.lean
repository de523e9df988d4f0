import DocScaffold.Text.Basic
import DocScaffold.Text.CaseTable

/-!
# Lower case and title case

A capital sigma becomes the final form when, case-ignorable characters left out, a cased letter stands
in front of it and none behind it.
-/

namespace DocScaffold.Text

def isCased (c : Char) : Bool := casedRanges.has c.toNat

def isCaseIgnorable (c : Char) : Bool := caseIgnorableRanges.has c.toNat

/-- Whether the first character that is not case-ignorable is cased. -/
def meetsCased (s : Text) : Bool := (s.dropWhile isCaseIgnorable).head?.any isCased

/-- The lower case of a character; `before` is what precedes it, the nearest first. -/
def lowerAt (before after : Text) (c : Char) : Text :=
  if c = 'Σ' then [if meetsCased before && !meetsCased after then 'ς' else 'σ']
  else if c = 'İ' then ['i', '\u0307']
  else [Char.ofNat (CaseRun.apply lowerRuns c.toNat)]

def lowerFrom (before : Text) : Text → Text
  | [] => []
  | c :: rest => lowerAt before rest c ++ lowerFrom (c :: before) rest

/-- Lower case. -/
def lower (s : Text) : Text := lowerFrom [] s

def titleOf (c : Char) : Text :=
  match titleSpecial.find? (·.1 == c.toNat) with
  | some (_, codes) => codes.map Char.ofNat
  | none => [Char.ofNat (CaseRun.apply titleRuns c.toNat)]

def titleFrom (before : Text) : Text → Text
  | [] => []
  | c :: rest =>
    (if before.head?.any isCased then lowerAt before rest c else titleOf c) ++
      titleFrom (c :: before) rest

/-- Title case: a letter behind a cased one is lowered, every other takes its title form. -/
def titleCase (s : Text) : Text := titleFrom [] s

end DocScaffold.Text
