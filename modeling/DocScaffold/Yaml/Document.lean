import DocScaffold.Yaml.Value

/-!
# Documents

A document is a value together with the collections that it is made of, which may lie in themselves.
-/

namespace DocScaffold.Yaml

/-- Something that is raised while values are built or shown. -/
structure Raised where
  /-- The name of its kind. -/
  kind : Text
  message : Text
  /-- Whether a value is wrong, and not its type or the like. -/
  isWrongValue : Bool

namespace Raised

/-- What follows when a number has too many digits. -/
def limitText (count : Text) : Text :=
  "Exceeds the limit (4300 digits) for integer string conversion".toList ++ count ++
    "; use sys.set_int_max_str_digits() to increase the limit".toList

/-- A value is wrong. -/
def wrongValue (message : Text) : Raised := ⟨"ValueError".toList, message, true⟩

/-- An integer is too long to be shown. -/
def longInteger : Raised := wrongValue (limitText [])

end Raised

inductive Collection
  | sequence (items : List Value)
  | mapping (entries : Mapping)
  /-- A sequence of pairs. -/
  | pairs (entries : List (Value × Value))
  /-- A set, in the order in which its members are gone through. -/
  | set (members : List Value)
  deriving DecidableEq

structure Document where
  root : Value
  /-- The collections by their places. -/
  collections : List (Nat × Collection)
  deriving DecidableEq

namespace Document

def collection? (d : Document) : Value → Option Collection
  | .collection place => (d.collections.find? (·.1 == place)).map (·.2)
  | _ => none

/-- The entries of a mapping. -/
def mapping? (d : Document) (v : Value) : Option Mapping :=
  match d.collection? v with
  | some (.mapping entries) => some entries
  | _ => none

/-! ## How messages show a value -/

def byteText (mark : Char) (b : UInt8) : Text :=
  let c := Char.ofNat b.toNat
  if c == mark || c == '\\' then ['\\', c]
  else if c == '\t' then ['\\', 't']
  else if c == '\n' then ['\\', 'n']
  else if c == '\r' then ['\\', 'r']
  else if b < 0x20 || 0x7F ≤ b then '\\' :: 'x' :: Text.hex 2 b.toNat
  else [c]

def bytesText (bs : List UInt8) : Text :=
  let mark := Text.quoteMark (bs.map fun b => Char.ofNat b.toNat)
  'b' :: mark :: bs.flatMap (byteText mark) ++ [mark]

/-- An integer in decimal notation, which is limited. -/
def integerText (i : Int) : Except Raised Text :=
  if Nat.pow 10 Text.digitLimit ≤ i.natAbs then .error .longInteger else .ok (Text.ofInt i)

/-- What stands for a collection inside itself. -/
def ellipsis : Collection → Text
  | .mapping _ => "\x7b...\x7d".toList
  | .set _ => "set(...)".toList
  | _ => "[...]".toList

/-- A value inside the collections at the places `around`. The last number bounds the depth. -/
def shownIn (d : Document) (around : List Nat) : Nat → Value → Except Raised Text
  | _, .null => .ok "None".toList
  | _, .bool b => .ok (if b then "True".toList else "False".toList)
  | _, .integer i => integerText i
  | _, .float x => .ok x.text
  | _, .text s => .ok s.quote
  | _, .codes cs => .ok (Codes.quote cs)
  | _, .bytes bs => .ok (bytesText bs)
  | _, .moment m => .ok m.text
  | 0, .collection _ => .ok []
  | fuel + 1, .collection place =>
    match d.collection? (.collection place) with
    | none => .ok []
    | some collection =>
      if around.contains place then .ok (ellipsis collection)
      else
        let shown := d.shownIn (place :: around) fuel
        match collection with
        | .sequence items => do return '[' :: Text.listed (← items.mapM shown) ++ [']']
        | .mapping entries => do
          let parts ← entries.mapM fun (k, v) => do
            return (← shown k) ++ ": ".toList ++ (← shown v)
          return '{' :: Text.listed parts ++ ['}']
        | .pairs entries => do
          let parts ← entries.mapM fun (k, v) => do
            return '(' :: (← shown k) ++ ", ".toList ++ (← shown v) ++ [')']
          return '[' :: Text.listed parts ++ [']']
        | .set [] => .ok "set()".toList
        | .set members => do return '{' :: Text.listed (← members.mapM shown) ++ ['}']

def shown (d : Document) (v : Value) : Except Raised Text :=
  d.shownIn [] (d.collections.length + 1) v

/-- A scalar as an item of a list of names; a value of another kind is none. -/
def nameOf : Value → Except Raised (Option Text)
  | .text s => .ok (some s)
  | .codes cs => .ok (some (cs.map fun c => c.char?.getD '\ufffd'))
  | .integer i => some <$> integerText i
  | .float x => .ok (some x.text)
  | .bool b => .ok (some (if b then "True".toList else "False".toList))
  | _ => .ok none

/-- The names that a value lists: one text, or the scalars of a sequence. -/
def names (d : Document) (v : Value) : Except Raised (List Text) :=
  match v, d.collection? v with
  | .text _, _ | .codes _, _ => do return (← nameOf v).toList
  | .bytes bs, _ => .ok (bs.map fun b => Text.ofNat b.toNat)
  | _, some (.sequence items) => do return (← items.mapM nameOf).filterMap id
  | _, _ => .ok []

end Document

end DocScaffold.Yaml
