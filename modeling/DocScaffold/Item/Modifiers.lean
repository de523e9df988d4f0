import DocScaffold.Item.Keyword
import DocScaffold.Token.Lexeme

/-!
# Modifiers in front of an item keyword

From left to right: a visibility, `const`, `async`, `unsafe` and `extern` with or without the name of
an ABI. They are read backwards from the keyword, so what precedes them does not matter.
-/

namespace DocScaffold

inductive Visibility
  | inherited
  | everywhere
  | within (scope : Text)
  deriving DecidableEq

/-- Whether an item is `extern`, and the ABI that it names. -/
inductive Linkage
  | native
  | foreign (abi : Option Text)
  deriving DecidableEq

structure Modifiers where
  visibility : Visibility
  isConst : Bool
  isAsync : Bool
  isUnsafe : Bool
  linkage : Linkage
  deriving DecidableEq

namespace Modifiers

def isForeign (m : Modifiers) : Bool :=
  match m.linkage with
  | .native => false
  | .foreign _ => true

/-- The words that may begin the scope of a visibility. -/
def scopeHeads : List Text := ["crate", "self", "super", "in"]

def isScopeHead (t : Token) : Bool := scopeHeads.any t.isIdent

/-- Takes the word off the front if it stands there. -/
def takeWord (word : Text) : List Token → Bool × List Token
  | [] => (false, [])
  | t :: rest => if t.isIdent word then (true, rest) else (false, t :: rest)

/-- Without the quotes at both ends. -/
def unquoted (s : Text) : Text :=
  ((s.dropWhile (· == '"')).reverse.dropWhile (· == '"')).reverse

def takeLinkage : List Token → Linkage × List Token
  | t :: u :: rest =>
    if t.kind == .string && u.isIdent "extern" then (.foreign (some (unquoted t.value)), rest)
    else if t.isIdent "extern" then (.foreign none, u :: rest)
    else (.native, t :: u :: rest)
  | [t] => if t.isIdent "extern" then (.foreign none, []) else (.native, [t])
  | [] => (.native, [])

/-- Splits tokens in reverse order behind the parenthesis that opens the group they begin with. -/
def splitGroup (depth : Int) : List Token → Option (List Token × List Token)
  | [] => none
  | t :: rest =>
    if t.isPunct [')'] then (splitGroup (depth + 1) rest).map fun (a, b) => (t :: a, b)
    else if t.isPunct ['('] then
      if depth - 1 = 0 then some ([t], rest)
      else (splitGroup (depth - 1) rest).map fun (a, b) => (t :: a, b)
    else (splitGroup depth rest).map fun (a, b) => (t :: a, b)

/-- The scope inside a group of tokens in reverse order, as it is written. -/
def scopeText? (s : Text) (group : List Token) : Option Text := do
  let inner := group.tail.dropLast
  let first ← inner.getLast?
  let last ← inner.head?
  if isScopeHead first then some (s.slice first.start last.stop) else none

def takeVisibility (s : Text) (ts : List Token) : Visibility × List Token :=
  match ts with
  | [] => (.inherited, [])
  | t :: rest =>
    if t.isPunct [')'] then
      match splitGroup 0 ts with
      | some (group, p :: before) =>
        match scopeText? s group with
        | some scope => if p.isIdent "pub" then (.within scope, before) else (.inherited, ts)
        | none => (.inherited, ts)
      | _ => (.inherited, ts)
    else if t.isIdent "pub" then (.everywhere, rest)
    else (.inherited, ts)

/-- Reads tokens in reverse order; what is left precedes the modifiers. -/
def takeAll (s : Text) (ts : List Token) : Modifiers × List Token :=
  let (linkage, ts) := takeLinkage ts
  let (isUnsafe, ts) := takeWord "unsafe" ts
  let (isAsync, ts) := takeWord "async" ts
  let (isConst, ts) := takeWord "const" ts
  let (visibility, ts) := takeVisibility s ts
  (⟨visibility, isConst, isAsync, isUnsafe, linkage⟩, ts)

/-- The modifiers in front of the token at index `i`, and the index of their first token. -/
def before (s : Text) (ts : List Token) (i : Nat) : Modifiers × Nat :=
  let (modifiers, rest) := takeAll s (ts.take i).reverse
  (modifiers, rest.length)

end Modifiers

/-- Whether a declaration mentions a visibility or `extern` anywhere. -/
def Text.isExposed (s : Text) : Bool :=
  s.tokens.any fun t => t.isIdent "pub" || t.isIdent "extern"

end DocScaffold
