import CodeAtlas.Members
import CodeAtlas.Number.Binary64

/-!
# JSON values

Integers keep all their digits and are told from numbers with a fraction or an exponent. The members
of an object stay in the order in which their names first came.
-/

namespace CodeAtlas

/-- A JSON value. -/
inductive Json where
  | null
  | bool (b : Bool)
  | int (n : Int)
  | real (x : Binary64)
  | text (t : Text)
  | list (xs : List Json)
  | object (members : List (Text × Json))
  deriving Inhabited

namespace Json

/-- A text value made from a string. -/
def str (s : String) : Json := .text (Text.ofString s)

/-- An object made from names and values. -/
def record (ms : List (String × Json)) : Json := .object (ms.map fun m ↦ (Text.ofString m.1, m.2))

/-- The value or null. -/
def ofOption : Option Json → Json
  | some v => v
  | none => .null

/-- The value of a member of an object. -/
def member? (name : String) : Json → Option Json
  | .object ms => Members.get? (Text.ofString name) ms
  | _ => none

/-- A list of texts. -/
def texts (ts : List Text) : Json := .list (ts.map .text)

end Json

end CodeAtlas
