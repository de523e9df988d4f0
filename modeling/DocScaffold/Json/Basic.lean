import DocScaffold.Number.Double
import DocScaffold.Text.Basic

/-!
# JSON values
-/

namespace DocScaffold

/-- A JSON value. Numbers without fraction and exponent are integers of any size. A string with half
of a surrogate pair is no text; it is kept apart as `brokenString`. -/
inductive Json
  | null
  | bool (value : Bool)
  | integer (value : Int)
  | number (value : Double)
  | string (value : Text)
  | brokenString
  | array (items : List Json)
  | object (members : List (Text × Json))

namespace Json

/-- The value of the last member with the given name. -/
def member? (name : Text) (members : List (Text × Json)) : Option Json :=
  (members.reverse.find? (·.1 == name)).map (·.2)

end Json

end DocScaffold
