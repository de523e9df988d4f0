import DocScaffold.Item.Entry

/-!
# Functions

A function is located by `fn`, a name, a generic list or none, and an opening parenthesis. Only its
header is read.
-/

namespace DocScaffold.Item

structure Function where
  name : Text
  modifiers : Modifiers
  parameters : List Member
  returnType : Option Text
  isExposed : Bool

namespace Function

/-- The indices of the first `fn` that begins a function and of its parenthesis. -/
def locate? (ts : List Token) : Option (Nat × Nat) :=
  (List.range (ts.length - 2)).findSome? fun i => do
    let keyword ← ts[i]?
    let name ← ts[i + 1]?
    if keyword.isIdent "fn" && name.kind == .ident then
      let opened ← Token.skipAngles ts (i + 2)
      let opener ← ts[opened]?
      if opener.isPunct ['('] then some (i, opened) else none
    else none

/-- The parameters but for receivers. -/
def parametersOf (arguments : Text) : List Member :=
  let written := (arguments.entries.map Text.withoutAttributes).filter fun entry =>
    !entry.isEmpty && !isReceiver entry
  written.map Member.ofEntry

/-- Where a return type ends: at a brace, a semicolon, a `=>` or a `where` outside brackets. Only
round and square brackets are counted. -/
def returnStop? (depth : Int) : List Token → Option Nat
  | [] => none
  | t :: rest =>
    if t.isPunct ['('] || t.isPunct ['['] then returnStop? (depth + 1) rest
    else if t.isPunct [')'] || t.isPunct [']'] then returnStop? (depth - 1) rest
    else if depth == 0 && (t.isPunct ['{'] || t.isPunct [';'] || t.isPunct ['=', '>'] ||
        t.isIdent "where") then some t.start
    else returnStop? depth rest

/-- The text behind an arrow that the tokens begin with. -/
def returnTypeOf (s : Text) : List Token → Option Text
  | [] => none
  | t :: rest =>
    if t.isPunct ['-', '>'] then
      let type := (s.slice t.stop ((returnStop? 0 rest).getD s.length)).trim
      if type.isEmpty then none else some type
    else none

/-- Reads the function that a declaration begins or contains. -/
def parse? (s : Text) : Option Function := do
  let ts := s.tokens
  let (keyword, opened) ← locate? ts
  let name ← ts[keyword + 1]?
  let close ← Token.findClosing ts opened
  let arguments ← Token.bodyText s ts opened
  return {
    name := name.value
    modifiers := (Modifiers.before s ts keyword).1
    parameters := parametersOf arguments
    returnType := returnTypeOf s (ts.drop (close + 1))
    isExposed := s.isExposed }

/-- What may stand behind `Result`: blanks, then `<`, and a `>` on the same line with something in
between. -/
def opensResult (s : Text) : Bool :=
  match s.trimStart with
  | '<' :: rest => ((rest.takeWhile (· != '\n')).drop 1).contains '>'
  | _ => false

/-- Whether a type mentions `Result<…>`. -/
def isResultType : Text → Bool
  | [] => false
  | c :: rest =>
    let s := c :: rest
    let word : Text := "Result"
    (word.isPrefixOf s && opensResult (s.drop word.length)) || isResultType rest

/-- Whether the function returns a `Result`. -/
def isFallible (f : Function) : Bool := f.returnType.any isResultType

end Function

end DocScaffold.Item
