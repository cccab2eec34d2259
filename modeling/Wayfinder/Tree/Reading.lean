import Wayfinder.Tree.Plain
import Wayfinder.Tree.Basic
import Wayfinder.Text.Pieces

/-!
Reading a tree as what the reader wants: a text, a truth value, a list, a table, or any value at
all. Each reader answers `none` for a tree of another kind.
-/

set_option autoImplicit false
set_option relaxedAutoImplicit false

namespace Wayfinder.Tree

variable {α : Type}

/-- The text of a scalar. A text is wanted, so it does not matter what else an unquoted scalar
could stand for. -/
def text? : Tree → Option String
  | .leaf _ (.plain s) => some s
  | .leaf _ (.quoted s) => some s
  | _ => none

/-- The truth value of an unquoted scalar. -/
def bool? : Tree → Option Bool
  | .leaf _ (.plain s) => Plain.bool? s
  | .leaf _ (.bool b) => some b
  | _ => none

/-- The tag of the absent value. -/
def nullTag : String := "tag:yaml.org,2002:null"

/-- Whether a tree is there at all; none for something else under the tag of the absent value. An
absent value under a tag that its author made up is there. -/
def present? : Tree → Option Bool
  | .leaf tag .null => some (tag.any (· ≠ nullTag))
  | .leaf none (.plain s) => some !(s.isEmpty || Plain.isNull s)
  | .leaf (some tag) (.plain s) =>
    if tag = nullTag then (if Plain.isNull s then some false else none) else some true
  | _ => some true

/-- What a reader makes of a tree that may stand for nothing. -/
def optional (read : Tree → Option α) (t : Tree) : Option (Option α) :=
  match present? t with
  | none => none
  | some false => some none
  | some true => (read t).map some

/-- The items of a list; an empty unquoted text is the empty list. -/
def items? : Tree → Option (List Tree)
  | .list _ items => some items
  | .leaf _ (.plain s) => if s.isEmpty then some [] else none
  | _ => none

/-- The items of a list, each read. -/
def list? (read : Tree → Option α) (t : Tree) : Option (List α) :=
  (items? t).bind fun items => items.mapM read

/-- The entries of a table; an empty unquoted text is the empty table. -/
def entries? : Tree → Option (List (Tree × Tree))
  | .table _ entries => some entries
  | .leaf _ (.plain s) => if s.isEmpty then some [] else none
  | _ => none

/-- The entries of a table by the texts of their keys. -/
def members? (t : Tree) : Option (List (String × Tree)) :=
  (entries? t).bind fun entries => entries.mapM fun e => (text? e.1).map fun name => (name, e.2)

/-- The tag of a kind of scalar that every reader knows. -/
def coreTag (kind : String) : String := "tag:yaml.org,2002:" ++ kind

/-- Whether a tag is one of those that the author of a text makes up. -/
def isLocalTag (tag : String) : Bool := Text.startsWith tag "!"

/-- The value of a scalar under a tag of a known kind, whatever its quotes; any other scalar under
a tag is a text. -/
def taggedScalar? (tag text : String) : Option Value :=
  if tag = coreTag "bool" then (Plain.bool? text).map .bool
  else if tag = coreTag "int" then ((Plain.int? text).filter Plain.fits).map .int
  else if tag = coreTag "float" then (Plain.float? text).map .float
  else if tag = nullTag then (if Plain.isNull text then some .null else none)
  else some (.string text)

/-- A value under the tag that its tree carries. Only tags that the author makes up are kept, and
where they are not allowed there is no value. -/
def underTag (localTags : Bool) (tag : Option String) (value : Value) : Option Value :=
  match tag with
  | none => some value
  | some tag =>
    if isLocalTag tag then (if localTags && tag ≠ "!" then some (.tagged tag value) else none)
    else some value

/-- The value of a scalar. -/
def scalar? (localTags : Bool) (tag : Option String) : Leaf → Option Value
  | .plain s =>
    match tag with
    | none => Plain.resolve? s
    | some name =>
      if isLocalTag name then (Plain.resolve? s).bind (underTag localTags tag)
      else taggedScalar? name s
  | .quoted s =>
    match tag with
    | none => some (.string s)
    | some name =>
      if isLocalTag name then underTag localTags tag (.string s)
      else taggedScalar? name s
  | .null => underTag localTags tag .null
  | .bool b => underTag localTags tag (.bool b)
  | .int n => if Plain.fits n then underTag localTags tag (.int n) else none
  | .float x => underTag localTags tag (.float x)

/-- Whether no two keys are equal. -/
def distinctKeys : List (Value × Value) → Bool
  | [] => true
  | e :: rest => !rest.any (fun f => e.1.same f.1) && distinctKeys rest

mutual

/-- The value of a tree. Two equal keys in a table make it unreadable. -/
def value? (localTags : Bool) : Tree → Option Value
  | .leaf tag content => scalar? localTags tag content
  | .list tag items =>
    match values? localTags items with
    | none => none
    | some items => underTag localTags tag (.sequence items)
  | .table tag entries =>
    match entryValues? localTags entries with
    | none => none
    | some entries =>
      if distinctKeys entries then underTag localTags tag (.mapping entries) else none
  | .unreadable => none

/-- The values of the items of a list. -/
def values? (localTags : Bool) : List Tree → Option (List Value)
  | [] => some []
  | item :: rest =>
    match value? localTags item, values? localTags rest with
    | some item, some rest => some (item :: rest)
    | _, _ => none

/-- The keys and values of the entries of a table. -/
def entryValues? (localTags : Bool) : List (Tree × Tree) → Option (List (Value × Value))
  | [] => some []
  | (key, value) :: rest =>
    match value? localTags key, value? localTags value, entryValues? localTags rest with
    | some key, some value, some rest => some ((key, value) :: rest)
    | _, _, _ => none

end

end Wayfinder.Tree
