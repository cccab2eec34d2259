import Wayfinder.NameMap
import Wayfinder.Number.Binary64

/-!
JSON values. Whole numbers that fit into 64 bits are kept apart from the others, and the members of
an object stand in the order of their names.
-/

set_option autoImplicit false
set_option relaxedAutoImplicit false

namespace Wayfinder

/-- A JSON value. -/
inductive Json
  | null
  | bool (b : Bool)
  | int (n : Int)
  | float (x : Binary64)
  | string (s : String)
  | array (items : List Json)
  | object (members : List (String × Json))
  deriving Repr

namespace Json

/-- The object with the given members, a later one replacing an earlier one of its name. -/
def ofMembers (members : List (String × Json)) : Json :=
  .object (members.foldl (fun done m => NameMap.place m.1 m.2 done) [])

/-- The member of an object under a name. -/
def member? : Json → String → Option Json
  | .object members, name => NameMap.lookup name members
  | _, _ => none

/-- The text of a string. -/
def text? : Json → Option String
  | .string s => some s
  | _ => none

/-- The items of an array. -/
def items? : Json → Option (List Json)
  | .array items => some items
  | _ => none

end Json

end Wayfinder
