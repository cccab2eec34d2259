import Wayfinder.Json.Parser
import Wayfinder.Text.Utf8

/-!
Reading JSON as records. A record is an object, or an array of the values of its fields in order.
Other members of an object are passed over; two members for one field can not be read.
-/

set_option autoImplicit false
set_option relaxedAutoImplicit false

namespace Wayfinder.Json

variable {α : Type}

/-- The value that octets spell, with all members of objects as they are written. -/
def writtenBytes? (bytes : List UInt8) : Option Json :=
  (Text.decode ⟨bytes.toArray⟩).bind written?

/-- The values of the fields that a record has. -/
structure Fields where
  values : List (String × Json)

/-- Reads a record with the given fields, in order. In an array the first `needed` of them are
there. -/
def fields? (names : List String) (needed : Nat) : Json → Option Fields
  | .object members =>
    let known := members.filter fun m => names.contains m.1
    if names.any fun name => 1 < (known.filter (·.1 == name)).length then none
    else some ⟨known⟩
  | .array items =>
    if items.length < needed || names.length < items.length then none
    else some ⟨names.zip items⟩
  | _ => none

namespace Fields

/-- The field of a name, read; `absent` when the record does not have it. -/
def read? (f : Fields) (name : String) (absent : Option α) (read : Json → Option α) : Option α :=
  match f.values.lookup name with
  | none => absent
  | some json => read json

end Fields

/-- Reads a value that may be null. -/
def nullable (read : Json → Option α) : Json → Option (Option α)
  | .null => some none
  | json => (read json).map some

/-- Reads an array. -/
def list? (read : Json → Option α) (json : Json) : Option (List α) :=
  json.items?.bind fun items => items.mapM read

/-- Reads an object whose members are all of one kind. -/
def table? (read : Json → Option α) : Json → Option (NameMap α)
  | .object members =>
    (members.mapM fun m => (read m.2).map fun value => (m.1, value)).map NameMap.ofList
  | _ => none

end Wayfinder.Json
