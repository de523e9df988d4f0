import DocScaffold.Text.Basic

/-!
# Tokens of a declaration
-/

namespace DocScaffold

/-- What a token is. `char` is a character literal, `punct` one of the compound signs or a single
character that is no word character. -/
inductive Token.Kind
  | ident
  | string
  | char
  | lifetime
  | number
  | punct
  deriving DecidableEq

/-- A token with its span in the text that it was read from. -/
structure Token where
  kind : Token.Kind
  value : Text
  start : Nat
  stop : Nat
  deriving DecidableEq

namespace Token

def isIdent (t : Token) (word : Text) : Bool := t.kind == .ident && t.value == word

def isPunct (t : Token) (sign : Text) : Bool := t.kind == .punct && t.value == sign

end Token

end DocScaffold
