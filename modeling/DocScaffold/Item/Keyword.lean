import DocScaffold.Token.Bracket

/-!
# Item keywords
-/

namespace DocScaffold

/-- String literals stand for texts. -/
instance : Coe String Text where
  coe := String.toList

/-- The words that begin an item of interest. -/
inductive Keyword
  | fn
  | struct
  | enum
  | trait
  | union
  deriving DecidableEq

namespace Keyword

def text : Keyword → Text
  | fn => "fn"
  | struct => "struct"
  | enum => "enum"
  | trait => "trait"
  | union => "union"

def all : List Keyword := [fn, struct, enum, trait, union]

/-- The keyword that a token is. -/
def ofToken? (t : Token) : Option Keyword := all.find? fun k => t.isIdent k.text

/-- Traits and unions are recognised, and never documented. -/
def isUnsupported : Keyword → Bool
  | trait | union => true
  | _ => false

/-- The body of a struct or an enum belongs to its declaration. -/
def hasBody : Keyword → Bool
  | struct | enum => true
  | _ => false

theorem mem_all (k : Keyword) : k ∈ all := by cases k <;> simp [all]

end Keyword

/-- The index of the first `word` with an identifier behind it. -/
def Token.findKeyword (word : Text) : List Token → Option Nat
  | t :: u :: rest =>
    if t.isIdent word && u.kind == .ident then some 0
    else (findKeyword word (u :: rest)).map (· + 1)
  | _ => none

namespace Item

/-- The items that can be documented. -/
inductive Kind
  | function
  | struct
  | enum
  deriving DecidableEq

namespace Kind

def name : Kind → Text
  | function => "function"
  | struct => "struct"
  | enum => "enum"

/-- All kinds, in the order in which they are listed. -/
def all : List Kind := [function, struct, enum]

theorem mem_all (kind : Kind) : kind ∈ all := by cases kind <;> simp [all]

end Kind

end Item

end DocScaffold
