import DocScaffold.Declaration.Start

/-!
# Finding the declaration behind the cursor

Blank lines, attributes and lines that start nothing are passed over. A closing brace or a line
comment in front of any declaration means that the cursor stands inside a body, and the search ends.
From the line that starts the declaration on, lines are collected without their comments up to one
that ends it: for a struct or an enum a line that ends in `}` or `;` with braces and parentheses
balanced, for all others one that ends in `{`, `;` or `=>`.
-/

namespace DocScaffold

/-- A declaration on one line, and the lines that it was collected from. -/
structure Declaration where
  signature : Text
  keyword : Keyword
  startLine : Nat
  endLine : Nat
  deriving DecidableEq

namespace Declaration

/-- How a search ends. -/
inductive Sought
  | found (declaration : Declaration)
  | stopped (line : Nat)
  | exhausted
  deriving DecidableEq

/-- A trimmed line without its comment. -/
def cleaned (line : Text) : Text := Text.trim line.beforeLineComment

/-- Whether a cleaned line ends the declaration, at the given depths of braces and parentheses behind
it. -/
def ends (keyword : Keyword) (braces parens : Int) (line : Text) : Bool :=
  if keyword.hasBody then
    braces == 0 && parens == 0 && (line.endsWith "\x7d" || line.endsWith ";")
  else line.endsWith "\x7b" || line.endsWith ";" || line.endsWith "=>"

/-- The cleaned lines of a declaration and the index of its last line. `index` is the index of the
first of the trimmed lines, the depths are those before it, and `last` is the line before it. -/
def collect (keyword : Keyword) (braces parens : Int) (last index : Nat) :
    List Text → List Text × Nat
  | [] => ([], last)
  | line :: rest =>
    let text := cleaned line
    if text.isEmpty then collect keyword braces parens index (index + 1) rest
    else
      let braces := braces + Token.netDepth '{' '}' text.tokens
      let parens := parens + Token.netDepth '(' ')' text.tokens
      if ends keyword braces parens text then ([text], index)
      else
        let (texts, last) := collect keyword braces parens index (index + 1) rest
        (text :: texts, last)

/-- The declaration that the first of the trimmed lines starts. -/
def gather (keyword : Keyword) (index : Nat) (lines : List Text) : Declaration :=
  let (texts, last) := collect keyword 0 0 index index lines
  ⟨(Text.unwords texts).collapse, keyword, index, last⟩

/-- What a line is to a search that has found nothing yet. `next` goes on with the given depth of
square brackets, `start` holds the line without its attributes. -/
inductive Step
  | next (depth : Int)
  | stop
  | start (keyword : Keyword) (line : Text)

/-- A line that is no attribute, or what follows the attributes of a line. -/
def stepPlain (line : Text) : Step :=
  if line.startsWith "\x7d" || line.startsWith "//" then .stop
  else match keyword? line with
    | some keyword => .start keyword line
    | none => .next 0

/-- The step of a trimmed line, with an attribute open at `depth` in front of it. -/
def step (depth : Int) (line : Text) : Step :=
  if 0 < depth then .next (max (depth + Token.netDepth '[' ']' line.tokens) 0)
  else if line.isEmpty then .next 0
  else if beginsAttribute line then
    let (depth, tail) := attributeTail line
    if tail.isEmpty || (keyword? tail).isNone then .next depth else stepPlain tail
  else stepPlain line

/-- Searches trimmed lines, the first of which has the given index. -/
def searchFrom (depth : Int) (index : Nat) : List Text → Sought
  | [] => .exhausted
  | line :: rest =>
    match step depth line with
    | .next depth => searchFrom depth (index + 1) rest
    | .stop => .stopped index
    | .start keyword line => .found (gather keyword index (line :: rest))

/-- Searches the lines behind the cursor. -/
def search (lines : List Text) (cursor : Nat) : Sought :=
  searchFrom 0 (cursor + 1) ((lines.drop (cursor + 1)).map Text.trim)

def Sought.declaration? : Sought → Option Declaration
  | .found declaration => some declaration
  | _ => none

/-- A cursor in front of the first line. -/
structure CursorError where
  cursor : Int

def CursorError.message (e : CursorError) : Text :=
  "cursor line must be >= 0, got ".toList ++ Text.ofInt e.cursor

/-- The line that a cursor names. -/
def cursorLine (cursor : Int) : Except CursorError Nat :=
  if cursor < 0 then .error ⟨cursor⟩ else .ok cursor.toNat

end Declaration

end DocScaffold
