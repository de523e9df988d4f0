import DocScaffold.Json.Basic
import DocScaffold.Number.Shortest
import DocScaffold.Text.Quoted

/-!
# Writing JSON
-/

namespace DocScaffold.Json

def writtenChar (c : Char) : Text :=
  if c == '"' || c == '\\' then ['\\', c]
  else if c.toNat < 0x20 then '\\' :: 'u' :: Text.hex 4 c.toNat
  else [c]

def writtenString (s : Text) : Text := '"' :: s.flatMap writtenChar ++ ['"']

mutual

/-- The text of a value. -/
def text : Json → Text
  | null => "null".toList
  | bool value => if value then "true".toList else "false".toList
  | integer value => Text.ofInt value
  | number value => value.text
  | string value => writtenString value
  | brokenString => writtenString ['\ufffd']
  | array items => '[' :: List.intercalate [','] (itemTexts items) ++ [']']
  | object members => '{' :: List.intercalate [','] (memberTexts members) ++ ['}']

def itemTexts : List Json → List Text
  | [] => []
  | item :: rest => text item :: itemTexts rest

def memberTexts : List (Text × Json) → List Text
  | [] => []
  | (name, value) :: rest => (writtenString name ++ ':' :: text value) :: memberTexts rest

end

end DocScaffold.Json
