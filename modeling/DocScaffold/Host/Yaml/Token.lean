import DocScaffold.Host.Yaml.Error
import DocScaffold.Host.Yaml.Scalar

/-!
# Tokens of YAML

Indentation and the colons behind keys become tokens of their own. Whether
a key began at some place shows only at its colon, on the same line and within 1024 characters; the
sign of the key is put in front of it then.
-/

namespace DocScaffold.Yaml

inductive Directive
  | version (major : Nat)
  /-- A version with a number of too many digits. -/
  | longVersion (digits : Nat)
  | tag (handle stem : Text)
  | other

inductive Token
  | directive (d : Directive)
  | documentStart
  | documentEnd
  | sequenceStart
  | mappingStart
  | blockEnd
  | openSequence
  | closeSequence
  | openMapping
  | closeMapping
  | comma
  | dash
  | key
  | value
  | alias (name : Text)
  | anchor (name : Text)
  | tag (handle : Option Text) (suffix : Text)
  | scalar (content : Codes) (isPlain : Bool)

/-- A place where a key may have begun. -/
structure PendingKey where
  flowLevel : Nat
  /-- The number of tokens in front of it. -/
  token : Nat
  /-- Whether nothing but a key may stand there. -/
  isRequired : Bool
  index : Nat
  line : Nat
  column : Nat

structure Layout where
  position : Position
  /-- The tokens so far, the last one first. -/
  tokens : List Token
  flowLevel : Nat
  /-- The indentation of the innermost block; -1 outside all blocks. -/
  indent : Int
  /-- The indentations of the blocks around it. -/
  outer : List Int
  mayBeginKey : Bool
  keys : List PendingKey

namespace Layout

def start (s : Text) : Layout := ⟨.start s, [], 0, -1, [], true, []⟩

def inFlow (l : Layout) : Bool := l.flowLevel ≠ 0

def push (l : Layout) (t : Token) : Layout := { l with tokens := t :: l.tokens }

/-- Puts a token behind the first `n`. -/
def insert (l : Layout) (n : Nat) (t : Token) : Layout :=
  let behind := l.tokens.length - n
  { l with tokens := l.tokens.take behind ++ t :: l.tokens.drop behind }

/-- Passes `n` characters. -/
def pass (l : Layout) (n : Nat) : Layout := { l with position := l.position.advanceBy n }

/-- Passes spaces, comments and line breaks. A key may begin a line outside flow collections. -/
def skipGap : Nat → Layout → Layout
  | 0, l => l
  | fuel + 1, l =>
    let p := l.position.skipSpaces.skipComment
    match p.lineBreak? with
    | none => { l with position := p }
    | some (_, p) =>
      skipGap fuel { l with position := p, mayBeginKey := l.mayBeginKey || !l.inFlow }

/-- Passes what stands between two tokens, and a byte order mark in front of all. -/
def toNextToken (l : Layout) : Layout :=
  let l := if l.position.index = 0 && l.position.holds '\ufeff' then l.pass 1 else l
  skipGap (l.position.rest.length + 1) l

/-- Forgets the keys that satisfy `f`; a required one among them is an error. -/
def forget (f : PendingKey → Bool) (l : Layout) : Option Layout :=
  if l.keys.any fun k => f k && k.isRequired then none
  else some { l with keys := l.keys.filter fun k => !f k }

def isStale (p : Position) (k : PendingKey) : Bool := k.line ≠ p.line || k.index + 1024 < p.index

def forgetStale (l : Layout) : Option Layout := l.forget (isStale l.position)

def forgetHere (l : Layout) : Option Layout := l.forget (·.flowLevel == l.flowLevel)

/-- Notes that a key may begin here. -/
def noteKey (l : Layout) : Option Layout :=
  if l.mayBeginKey then do
    let p := l.position
    let k : PendingKey := ⟨l.flowLevel, l.tokens.length, !l.inFlow && l.indent == p.column, p.index,
      p.line, p.column⟩
    let l ← l.forgetHere
    return { l with keys := k :: l.keys }
  else some l

/-- How many blocks end at a column, and the indentations that are left. -/
def endedBlocks (column indent : Int) : List Int → Nat × Int × List Int
  | [] => (0, indent, [])
  | i :: rest =>
    if column < indent then
      let (n, indent, outer) := endedBlocks column i rest
      (n + 1, indent, outer)
    else (0, indent, i :: rest)

/-- Ends the blocks that are indented further than a column. -/
def unwind (column : Int) (l : Layout) : Layout :=
  if l.inFlow then l
  else
    let (n, indent, outer) := endedBlocks column l.indent l.outer
    { l with indent, outer, tokens := List.replicate n .blockEnd ++ l.tokens }

/-- Begins a block at a column that is indented further than the innermost one. -/
def indentTo (column : Int) (l : Layout) : Option Layout :=
  if l.indent < column then some { l with indent := column, outer := l.indent :: l.outer } else none

/-! ## Reading one token -/

/-- The digits of a number. -/
def takeNumber (p : Position) : Option (Text × Position) :=
  let (digits, p) := p.takeWhile Text.isAsciiDigit
  if digits.isEmpty then none else some (digits, p)

/-- The version that the digits of two numbers write. -/
def versionOf (major minor : Text) : Directive :=
  match [major, minor].find? fun digits => Text.digitLimit < digits.length with
  | some digits => .longVersion digits.length
  | none => .version (Text.asciiNumber major)

/-- A directive behind its sign, without the rest of its line. -/
def takeDirective (p : Position) : Option (Directive × Position) := do
  let (name, p) := p.takeWhile isNameChar
  if name.isEmpty || !endsWord p.current then none
  else if name = "YAML".toList then
    let (major, p) ← takeNumber p.skipSpaces
    if !p.holds '.' then none
    else
      let (minor, p) ← takeNumber p.advance
      if endsWord p.current then return (versionOf major minor, p) else none
  else if name = "TAG".toList then
    let (handle, p) ← takeHandle p.skipSpaces
    if !p.holds ' ' then none
    else
      let (stem, p) ← takeSuffix p.skipSpaces
      if endsWord p.current then return (.tag handle stem, p) else none
  else return (.other, p.dropWhile fun c => !isBreak c)

/-- Leaves all blocks, as marks and directives do. -/
def leaveBlocks (l : Layout) : Option Layout := do
  let l ← (l.unwind (-1)).forgetHere
  return { l with mayBeginKey := false }

def readDirective (l : Layout) : Option Layout := do
  let l ← l.leaveBlocks
  let (d, p) ← takeDirective l.position.advance
  let p := p.skipSpaces.skipComment
  if endsLine p.current then return { l.push (.directive d) with position := p.skipBreak } else none

def readMark (t : Token) (l : Layout) : Option Layout := do
  let l ← l.leaveBlocks
  return (l.push t).pass 3

def readOpening (t : Token) (l : Layout) : Option Layout := do
  let l ← l.noteKey
  return { (l.push t).pass 1 with flowLevel := l.flowLevel + 1, mayBeginKey := true }

/-- A closing bracket; outside all flow collections it is an error. -/
def readClosing (t : Token) (l : Layout) : Option Layout := do
  let l ← l.forgetHere
  if l.flowLevel = 0 then none
  else return { (l.push t).pass 1 with flowLevel := l.flowLevel - 1, mayBeginKey := false }

def readComma (l : Layout) : Option Layout := do
  let l ← l.forgetHere
  return { (l.push .comma).pass 1 with mayBeginKey := true }

/-- Begins a block here, where one may begin. -/
def beginBlock (t : Token) (l : Layout) : Option Layout :=
  if l.inFlow then some l
  else if !l.mayBeginKey then none
  else match l.indentTo l.position.column with
    | some l => some (l.push t)
    | none => some l

def readDash (l : Layout) : Option Layout := do
  let l ← l.beginBlock .sequenceStart
  let l ← l.forgetHere
  return { (l.push .dash).pass 1 with mayBeginKey := true }

def readKey (l : Layout) : Option Layout := do
  let l ← l.beginBlock .mappingStart
  let l ← l.forgetHere
  return { (l.push .key).pass 1 with mayBeginKey := !l.inFlow }

/-- Puts the signs of a key, and of the block that it begins, where the key began. -/
def settleKey (k : PendingKey) (l : Layout) : Layout :=
  let l := l.insert k.token .key
  let l := if l.inFlow then l else match l.indentTo k.column with
    | some l => l.insert k.token .mappingStart
    | none => l
  { l with keys := l.keys.filter (·.flowLevel ≠ l.flowLevel), mayBeginKey := false }

/-- A value without a key in front of it on its line. -/
def beginValue (l : Layout) : Option Layout := do
  let l ← l.beginBlock .mappingStart
  let l ← l.forgetHere
  return { l with mayBeginKey := !l.inFlow }

def readValue (l : Layout) : Option Layout := do
  let l ← match l.keys.find? (·.flowLevel == l.flowLevel) with
    | some k => some (l.settleKey k)
    | none => l.beginValue
  return (l.push .value).pass 1

/-- A token that may begin a key. -/
def readPart (take : Position → Option (Token × Position)) (l : Layout) : Option Layout := do
  let l ← l.noteKey
  let (t, p) ← take l.position
  return { l.push t with position := p, mayBeginKey := false }

def readQuoted (isDouble : Bool) (l : Layout) : Option Layout :=
  l.readPart fun p => do
    let (content, p) ← takeQuoted isDouble (p.rest.length + 1) p.advance
    return (.scalar content false, p)

def readBlock (isFolded : Bool) (l : Layout) : Option Layout := do
  let l ← l.forgetHere
  let (text, p) ← takeBlock isFolded l.indent l.position.advance
  return { l.push (.scalar text.codes false) with position := p, mayBeginKey := true }

def readPlain (l : Layout) : Option Layout := do
  let l ← l.noteKey
  let (text, endedLine, p) := takePlain l.inFlow l.indent l.position
  return { l.push (.scalar text.codes true) with position := p, mayBeginKey := endedLine }

/-- Whether a plain scalar may begin with a character before `next`. -/
def beginsPlain (inFlow : Bool) (c : Char) (next : Option Char) : Bool :=
  !(isGap (some c) || "-?:,[]\x7b\x7d#&*!|>'\"%@`".toList.contains c) ||
    (!isGap next && (c == '-' || (!inFlow && (c == '?' || c == ':'))))

/-- Reads the token that begins with `c`. -/
def readToken (l : Layout) (c : Char) : Option Layout :=
  let p := l.position
  let next := p.peek 1
  let atLineStart := p.column = 0
  if c == '%' && atLineStart then l.readDirective
  else if atLineStart && p.atMark "---".toList then l.readMark .documentStart
  else if atLineStart && p.atMark "...".toList then l.readMark .documentEnd
  else if c == '[' then l.readOpening .openSequence
  else if c == '{' then l.readOpening .openMapping
  else if c == ']' then l.readClosing .closeSequence
  else if c == '}' then l.readClosing .closeMapping
  else if c == ',' then l.readComma
  else if c == '-' && isGap next then l.readDash
  else if c == '?' && (l.inFlow || isGap next) then l.readKey
  else if c == ':' && (l.inFlow || isGap next) then l.readValue
  else if c == '*' then l.readPart fun p => do
    let (name, p) ← takeName p.advance
    return (.alias name, p)
  else if c == '&' then l.readPart fun p => do
    let (name, p) ← takeName p.advance
    return (.anchor name, p)
  else if c == '!' then l.readPart fun p => do
    let ((handle, suffix), p) ← takeTag p
    return (.tag handle suffix, p)
  else if c == '|' && !l.inFlow then l.readBlock false
  else if c == '>' && !l.inFlow then l.readBlock true
  else if c == '\x27' then l.readQuoted false
  else if c == '"' then l.readQuoted true
  else if beginsPlain l.inFlow c next then l.readPlain
  else none

/-- Goes on to the place where the next token begins. -/
def toToken (l : Layout) : Option Layout := do
  let l ← l.toNextToken.forgetStale
  return l.unwind l.position.column

/-- Reads all tokens, and tells whether the text ends behind them; every token takes a character. -/
def readAll : Nat → Layout → List Token × Bool
  | 0, l => (l.tokens.reverse, false)
  | fuel + 1, l =>
    match l.toToken with
    | none => (l.tokens.reverse, false)
    | some l =>
      match l.position.current with
      | none =>
        match l.leaveBlocks with
        | none => (l.tokens.reverse, false)
        | some l => (l.tokens.reverse, true)
      | some c =>
        match l.readToken c with
        | none => (l.tokens.reverse, false)
        | some l => readAll fuel l

end Layout

namespace Token

/-- What is wrong with a code point that stands behind the last one. -/
def faultOf? : CodePoint → Option Error
  | .char _ => none
  | .other n =>
    if n < 0x110000 then none else if n < 0x80000000 then some .noCodePoint else some .hugeCodePoint

/-- A number out of bounds in a token. -/
def fault? : Token → Option Error
  | .scalar content _ => content.findSome? faultOf?
  | .directive (.longVersion digits) => some (.tooManyDigits digits)
  | _ => none

end Token

/-- The tokens of a text, unless it is malformed. A number out of bounds is found before what is
malformed behind it. -/
def tokens (s : Text) : Except Error (List Token) :=
  if !s.all isAllowed then .error .malformed
  else
    let (tokens, isWhole) := Layout.readAll (s.length + 1) (.start s)
    match tokens.findSome? Token.fault? with
    | some e => .error e
    | none => if isWhole then .ok tokens else .error .malformed

end DocScaffold.Yaml
