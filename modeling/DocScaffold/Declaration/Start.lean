import DocScaffold.Item.Modifiers

/-!
# Where a declaration starts

A line starts a declaration when its first item keyword has only modifiers in front of it and a blank
behind it. Attributes in front of it are taken off first.
-/

namespace DocScaffold.Declaration

/-- The item keyword of a line that starts a declaration. -/
def keyword? (line : Text) : Option Keyword := do
  let text := line.beforeLineComment
  let ts := text.tokens
  let i ← ts.findIdx? fun t => (Keyword.ofToken? t).isSome
  let t ← ts[i]?
  let next ← text[t.stop]?
  if (Modifiers.before text ts i).2 = 0 && Text.isBlank next then Keyword.ofToken? t else none

/-- The signs that an attribute begins with. -/
def beginsAttribute (line : Text) : Bool := line.startsWith "#[" || line.startsWith "#!["

/-- The depth of square brackets at the end of the attributes that the tokens begin with, and the end
of the last one that is closed; `stop` is the end of those before. -/
def attributesEnd (depth : Int) (stop : Nat) : List Token → Int × Nat
  | [] => (depth, stop)
  | t :: rest =>
    if t.isPunct ['['] then attributesEnd (depth + 1) stop rest
    else if t.isPunct [']'] then
      attributesEnd (depth - 1) (if depth - 1 = 0 then t.stop else stop) rest
    else if depth == 0 && !(t.isPunct ['#'] || t.isPunct ['!']) then (depth, stop)
    else attributesEnd depth stop rest

/-- The depth at which the attributes of a line leave off, and what follows the last of them. Nothing
follows one that is still open. -/
def attributeTail (line : Text) : Int × Text :=
  let (depth, stop) := attributesEnd 0 0 line.tokens
  if 0 < depth then (depth, []) else (0, Text.trim (line.drop stop))

end DocScaffold.Declaration
