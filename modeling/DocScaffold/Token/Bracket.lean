import DocScaffold.Token.Basic

/-!
# Brackets among tokens

The brackets are `()`, `[]` and `{}`. Depths are counted without regard to their kinds. The signs of a
generic list `<…>` are counted apart from them; arrows are signs of their own and close no list.
-/

namespace DocScaffold.Token

def opens (t : Token) : Bool := t.isPunct ['('] || t.isPunct ['['] || t.isPunct ['{']

def closes (t : Token) : Bool := t.isPunct [')'] || t.isPunct [']'] || t.isPunct ['}']

/-- How many more tokens are the sign `up` than are the sign `down`. -/
def netDepth (up down : Char) : List Token → Int
  | [] => 0
  | t :: rest =>
    (if t.isPunct [up] then 1 else if t.isPunct [down] then -1 else 0) + netDepth up down rest

/-- The place of the first closing bracket that brings the depth back to zero, from `depth` on. -/
def closingFrom (depth : Int) : List Token → Option Nat
  | [] => none
  | t :: rest =>
    if t.opens then (closingFrom (depth + 1) rest).map (· + 1)
    else if t.closes then
      if depth - 1 = 0 then some 0 else (closingFrom (depth - 1) rest).map (· + 1)
    else (closingFrom depth rest).map (· + 1)

/-- The index of the bracket that closes the one at index `i`. -/
def findClosing (ts : List Token) (i : Nat) : Option Nat :=
  (closingFrom 0 (ts.drop i)).map (· + i)

/-- The number of tokens up to the `>` that brings the depth back to zero. A brace or a semicolon
before it leaves the list without an end. -/
def angleLength (depth : Int) : List Token → Option Nat
  | [] => none
  | t :: rest =>
    if t.isPunct ['<'] then (angleLength (depth + 1) rest).map (· + 1)
    else if t.isPunct ['>'] then
      if depth - 1 = 0 then some 1 else (angleLength (depth - 1) rest).map (· + 1)
    else if t.isPunct ['{'] || t.isPunct [';'] then none
    else (angleLength depth rest).map (· + 1)

/-- The index behind the generic list at index `i`, which is `i` itself where no list begins; nothing
when the list does not end. -/
def skipAngles (ts : List Token) (i : Nat) : Option Nat :=
  match ts.drop i with
  | [] => some i
  | t :: rest =>
    if t.isPunct ['<'] then (angleLength 0 (t :: rest)).map (· + i) else some i

/-- The text inside the bracket group that opens at index `i`. -/
def bodyText (s : Text) (ts : List Token) (i : Nat) : Option Text := do
  let opener ← ts[i]?
  let close ← findClosing ts i
  let closer ← ts[close]?
  return s.slice opener.stop closer.start

end DocScaffold.Token
