import DocScaffold.Text.CodePoint
import DocScaffold.Text.Utf8
import DocScaffold.Host.Yaml.Position

/-!
# Scalars, names and tags of YAML

Each reader takes what it names from the front of a position, or nothing when it is malformed. Loops
are bounded by the characters left.
-/

namespace DocScaffold.Yaml

/-! ## Names and tags -/

def isAsciiAlnum (c : Char) : Bool :=
  Text.isAsciiDigit c || ('A' ≤ c && c ≤ 'Z') || ('a' ≤ c && c ≤ 'z')

def isNameChar (c : Char) : Bool := isAsciiAlnum c || c == '-' || c == '_'

def isHexDigit (c : Char) : Bool :=
  Text.isAsciiDigit c || ('A' ≤ c && c ≤ 'F') || ('a' ≤ c && c ≤ 'f')

def hexDigitValue (c : Char) : Nat :=
  if c ≤ '9' then c.toNat - 48 else if c ≤ 'F' then c.toNat - 55 else c.toNat - 87

def hexNumber (s : Text) : Nat := s.foldl (fun n c => 16 * n + hexDigitValue c) 0

/-- The name of an anchor or an alias, behind its sign. -/
def takeName (p : Position) : Option (Text × Position) :=
  let (name, p) := p.takeWhile isNameChar
  let ends := isGap p.current || p.current.any fun c => "?:,]\x7d%@`".toList.contains c
  if name.isEmpty || !ends then none else some (name, p)

def isTagChar (c : Char) : Bool := isAsciiAlnum c || "-;/?:@&=+$,_.!~*'()[]".toList.contains c

/-- The characters of a tag; bytes in percent notation make up UTF-8. -/
def takeTagChars : Nat → Position → Option (Text × Position)
  | 0, _ => none
  | fuel + 1, p =>
    let (plain, p) := p.takeWhile isTagChar
    if p.holds '%' then do
      let (bytes, p) ← takeEscapes (p.rest.length + 1) p
      let text ← (Utf8.decode bytes).toOption
      let (more, p) ← takeTagChars fuel p
      return (plain ++ text ++ more, p)
    else some (plain, p)
where
  /-- Bytes in percent notation. -/
  takeEscapes : Nat → Position → Option (List UInt8 × Position)
    | 0, _ => none
    | fuel + 1, p =>
      match p.rest with
      | '%' :: a :: b :: _ =>
        if isHexDigit a && isHexDigit b then do
          let (bytes, p) ← takeEscapes fuel (p.advanceBy 3)
          return (UInt8.ofNat (hexNumber [a, b]) :: bytes, p)
        else none
      | '%' :: _ => none
      | _ => some ([], p)

/-- A tag without its handle; it is not empty. -/
def takeSuffix (p : Position) : Option (Text × Position) := do
  let (text, p) ← takeTagChars (p.rest.length + 1) p
  if text.isEmpty then none else return (text, p)

/-- A handle: one sign, or a name between two. -/
def takeHandle (p : Position) : Option (Text × Position) :=
  if !p.holds '!' then none
  else if p.peek 1 == some ' ' then some (['!'], p.advance)
  else
    let (name, q) := p.advance.takeWhile isNameChar
    if q.holds '!' then some ('!' :: name ++ ['!'], q.advance) else none

/-- The handle, if there is one, and the rest of a tag. -/
def takeTag (p : Position) : Option ((Option Text × Text) × Position) := do
  let (tag, p) ←
    if p.peek 1 == some '<' then do
      let (suffix, p) ← takeSuffix (p.advanceBy 2)
      if p.holds '>' then pure ((none, suffix), p.advance) else none
    else if isGap (p.peek 1) then pure ((none, ['!']), p.advance)
    else do
      let word := p.advance.rest.takeWhile fun c => !(c == ' ' || isBreak c)
      let (handle, p) ← if word.contains '!' then takeHandle p else pure (['!'], p.advance)
      let (suffix, p) ← takeSuffix p
      pure ((some handle, suffix), p)
  if endsWord p.current then return (tag, p) else none

/-! ## Quoted scalars -/

/-- The line breaks and blanks in front of the next character of a quoted scalar. -/
def takeBreaks : Nat → Position → Option (Text × Position)
  | 0, _ => none
  | fuel + 1, p =>
    if p.atDocumentMark then none
    else
      let p := p.dropWhile isSpaceOrTab
      match p.lineBreak? with
      | none => some ([], p)
      | some (c, p) => do
        let (text, p) ← takeBreaks fuel p
        return (c :: text, p)

/-- A break inside a scalar: one alone is a space, of more the first is dropped. -/
def folded (first : Char) (breaks : Text) : Text :=
  (if first ≠ '\n' then [first] else if breaks.isEmpty then [' '] else []) ++ breaks

/-- The character that a letter behind a backslash stands for. -/
def escapedChar? : Char → Option Char
  | '0' => some '\x00'
  | 'a' => some '\x07'
  | 'b' => some '\x08'
  | 't' => some '\t'
  | '\t' => some '\t'
  | 'n' => some '\n'
  | 'v' => some '\x0b'
  | 'f' => some '\x0c'
  | 'r' => some '\r'
  | 'e' => some '\x1b'
  | ' ' => some ' '
  | '"' => some '"'
  | '\\' => some '\\'
  | '/' => some '/'
  | 'N' => some '\u0085'
  | '_' => some '\u00a0'
  | 'L' => some '\u2028'
  | 'P' => some '\u2029'
  | _ => none

/-- How many hexadecimal digits follow a letter behind a backslash. -/
def codeLength? : Char → Option Nat
  | 'x' => some 2
  | 'u' => some 4
  | 'U' => some 8
  | _ => none

/-- What a backslash and the characters behind it stand for. -/
def takeEscape (p : Position) : Option (Codes × Position) := do
  let c ← p.peek 1
  match escapedChar? c, codeLength? c with
  | some e, _ => return ([.char e], p.advanceBy 2)
  | none, some n =>
    let digits := (p.rest.drop 2).take n
    if digits.length = n && digits.all isHexDigit then
      return ([.ofNat (hexNumber digits)], p.advanceBy (n + 2))
    else none
  | none, none =>
    let (_, p) ← p.advance.lineBreak?
    let (breaks, p) ← takeBreaks (p.rest.length + 1) p
    return (breaks.codes, p)

/-- The rest of a quoted scalar behind its opening quote. -/
def takeQuoted (isDouble : Bool) : Nat → Position → Option (Codes × Position)
  | 0, _ => none
  | fuel + 1, p => do
    let c ← p.current
    let mark := if isDouble then '"' else '\x27'
    if c == mark then
      if !isDouble && p.peek 1 == some mark then
        let (text, p) ← takeQuoted isDouble fuel (p.advanceBy 2)
        return (.char mark :: text, p)
      else return ([], p.advance)
    else if isSpaceOrTab c || isBreak c then
      let (blanks, p) := p.takeWhile isSpaceOrTab
      let _ ← p.current
      match p.lineBreak? with
      | none =>
        let (text, p) ← takeQuoted isDouble fuel p
        return (blanks.codes ++ text, p)
      | some (first, p) =>
        let (breaks, p) ← takeBreaks (p.rest.length + 1) p
        let (text, p) ← takeQuoted isDouble fuel p
        return ((folded first breaks).codes ++ text, p)
    else if isDouble && c == '\\' then
      let (head, p) ← takeEscape p
      let (text, p) ← takeQuoted isDouble fuel p
      return (head ++ text, p)
    else
      let (text, p) ← takeQuoted isDouble fuel p.advance
      return (.char c :: text, p)

/-! ## Block scalars -/

/-- What becomes of the line breaks at the end. -/
inductive Chomping
  | clip
  | strip
  | keep
  deriving DecidableEq

def chomping? (c : Option Char) : Option Chomping :=
  if c == some '+' then some .keep else if c == some '-' then some .strip else none

/-- A digit of an indentation; zero is refused. -/
def takeIndent (p : Position) : Option (Option Nat × Position) :=
  match p.current with
  | some c =>
    if Text.isAsciiDigit c then
      if c == '0' then none else some (some (c.toNat - 48), p.advance)
    else some (none, p)
  | none => some (none, p)

/-- The indicators behind the sign of a block scalar, in either order, up to the next line. -/
def takeHeader (p : Position) : Option ((Chomping × Option Nat) × Position) := do
  let ((chomping, indent), p) ← (do
    match chomping? p.current with
    | some chomping =>
      let (indent, p) ← takeIndent p.advance
      pure ((chomping, indent), p)
    | none =>
      let (indent, p) ← takeIndent p
      match indent, chomping? p.current with
      | some _, some chomping => pure ((chomping, indent), p.advance)
      | _, _ => pure ((.clip, indent), p))
  if !endsWord p.current then none
  else
    let p := p.skipSpaces.skipComment
    if endsLine p.current then return ((chomping, indent), p.skipBreak) else none

/-- The breaks in front of the first line and the widest indentation among them. -/
def takeLeadingBreaks (widest : Nat) : Nat → Position → Text × Nat × Position
  | 0, p => ([], widest, p)
  | fuel + 1, p =>
    if p.holds ' ' then
      let p := p.advance
      takeLeadingBreaks (max widest p.column) fuel p
    else match p.lineBreak? with
      | some (c, p) =>
        let (text, widest, p) := takeLeadingBreaks widest fuel p
        (c :: text, widest, p)
      | none => ([], widest, p)

/-- Passes spaces up to a column. -/
def skipIndent (indent : Nat) (p : Position) : Position :=
  p.advanceBy ((p.rest.takeWhile (· == ' ')).length.min (indent - p.column))

/-- The breaks between two lines of a block scalar. -/
def takeBlockBreaks (indent : Nat) : Nat → Position → Text × Position
  | 0, p => ([], p)
  | fuel + 1, p =>
    let p := skipIndent indent p
    match p.lineBreak? with
    | some (c, p) =>
      let (text, p) := takeBlockBreaks indent fuel p
      (c :: text, p)
    | none => ([], p)

/-- The lines of a block scalar from `p` on, with the breaks in front of them, and what its end is made
of: the last line break, the breaks behind it, and the position. -/
def takeBlockLines (isFolded : Bool) (indent : Nat) (breaks : Text) :
    Nat → Position → Text × Text × Text × Position
  | 0, p => ([], [], breaks, p)
  | fuel + 1, p =>
    if p.column = indent && p.current.isSome then
      let isDense := !p.current.any isSpaceOrTab
      let (line, p) := p.takeWhile fun c => !isBreak c
      let (lineEnd, p) : Text × Position := match p.lineBreak? with
        | some (c, p) => ([c], p)
        | none => ([], p)
      let (next, p) := takeBlockBreaks indent (p.rest.length + 1) p
      if p.column = indent && p.current.isSome then
        let joint :=
          if isFolded && lineEnd == ['\n'] && isDense && !p.current.any isSpaceOrTab then
            if next.isEmpty then [' '] else []
          else lineEnd
        let (text, finish) := takeBlockLines isFolded indent next fuel p
        (breaks ++ line ++ joint ++ text, finish)
      else (breaks ++ line, lineEnd, next, p)
    else ([], [], breaks, p)

/-- A block scalar behind its sign; `outer` is the indentation of the block around it. -/
def takeBlock (isFolded : Bool) (outer : Int) (p : Position) : Option (Text × Position) := do
  let ((chomping, increment), p) ← takeHeader p
  let least := max (outer + 1) 1
  let (indent, breaks, p) := match increment with
    | some n =>
      let indent := (least + n - 1).toNat
      let (breaks, p) := takeBlockBreaks indent (p.rest.length + 1) p
      (indent, breaks, p)
    | none =>
      let (breaks, widest, p) := takeLeadingBreaks 0 (p.rest.length + 1) p
      (max least.toNat widest, breaks, p)
  let (text, lineEnd, breaks, p) := takeBlockLines isFolded indent breaks (p.rest.length + 1) p
  let finish := match chomping with
    | .strip => []
    | .clip => lineEnd
    | .keep => lineEnd ++ breaks
  return (text ++ finish, p)

/-! ## Plain scalars -/

/-- The characters of a plain scalar up to a gap or an indicator. -/
def plainChunk (inFlow : Bool) : Text → Text
  | [] => []
  | c :: rest =>
    let next := rest.head?
    if isGap (some c) then []
    else if c == ':' && (isGap next || (inFlow && next.any fun d => ",[]\x7b\x7d".toList.contains d))
      then []
    else if inFlow && ",?[]\x7b\x7d".toList.contains c then []
    else c :: plainChunk inFlow rest

/-- The breaks and spaces behind a line of a plain scalar; `none` for the text where a document mark
follows. -/
def takePlainBreaks : Nat → Position → Option Text × Position
  | 0, p => (none, p)
  | fuel + 1, p =>
    if p.holds ' ' then takePlainBreaks fuel p.advance
    else match p.lineBreak? with
      | none => (some [], p)
      | some (c, p) =>
        if p.atDocumentMark then (none, p)
        else
          let (text, p) := takePlainBreaks fuel p
          (text.map (c :: ·), p)

/-- What separates two chunks of a plain scalar, and whether a line ended in it. An empty text ends the
scalar. -/
def takePlainGap (p : Position) : Text × Bool × Position :=
  let (spaces, p) := p.takeWhile (· == ' ')
  match p.lineBreak? with
  | none => (spaces, false, p)
  | some (first, p) =>
    if p.atDocumentMark then ([], true, p)
    else
      let (breaks, p) := takePlainBreaks (p.rest.length + 1) p
      ((breaks.map (folded first)).getD [], true, p)

/-- The chunks of a plain scalar behind `gap`. The flag tells whether the last gap held a line end, and
is given as it was when nothing is taken. -/
def takePlainFrom (inFlow : Bool) (indent : Int) (gap : Text) (endedLine : Bool) :
    Nat → Position → Text × Bool × Position
  | 0, p => ([], endedLine, p)
  | fuel + 1, p =>
    let chunk := if p.holds '#' then [] else plainChunk inFlow p.rest
    if chunk.isEmpty then ([], endedLine, p)
    else
      let (next, endedLine, p) := takePlainGap (p.advanceBy chunk.length)
      if next.isEmpty || p.holds '#' || (!inFlow && (p.column : Int) < indent) then
        (gap ++ chunk, endedLine, p)
      else
        let (text, endedLine, p) := takePlainFrom inFlow indent next endedLine fuel p
        (gap ++ chunk ++ text, endedLine, p)

/-- A plain scalar, and whether the gap behind it held a line end. -/
def takePlain (inFlow : Bool) (outer : Int) (p : Position) : Text × Bool × Position :=
  takePlainFrom inFlow (outer + 1) [] false (p.rest.length + 1) p

end DocScaffold.Yaml
