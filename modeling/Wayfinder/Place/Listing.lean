import Wayfinder.Place.Api

/-!
What is shown at a place: a row that leads up, and the children in the order of their names. Main
statement: sorting keeps the rows (`perm_sortRows`).
-/

set_option autoImplicit false
set_option relaxedAutoImplicit false

namespace Wayfinder

/-- A row of a listing. -/
structure Item where
  text : String
  /-- The place that the row leads to. -/
  target : Option Node
  /-- Whether the row only says that there is nothing. -/
  isPlaceholder : Bool
  /-- Whether the row leads up. -/
  isUp : Bool

namespace Item

/-- The row of a child. -/
def child (text : String) (node : Node) : Item :=
  { text, target := some node, isPlaceholder := false, isUp := false }

/-- The row that leads up. -/
def up (node : Node) : Item :=
  { text := "..", target := some node, isPlaceholder := false, isUp := true }

/-- The row that says that there is nothing. -/
def placeholder (text : String) : Item :=
  { text, target := none, isPlaceholder := true, isUp := false }

end Item

/-- Rows in the order of their texts; rows of one text stay in their order. -/
def sortRows (rows : List Item) : List Item :=
  rows.mergeSort fun a b => !decide (b.text < a.text)

theorem perm_sortRows (rows : List Item) : (sortRows rows).Perm rows := List.mergeSort_perm _ _

namespace Node

variable {m : Type → Type} [Monad m]

/-- The rows of the children of a place, in the order of the answer. -/
def children (api : Api m) : Node → ExceptT Failure m (List Item)
  | .root => do
    let organizations ← api.organizations
    pure (organizations.map fun o => .child o.name (.organization o))
  | .organization o => do
    let spaces ← api.spaces o
    pure (spaces.map fun s => .child s.name (.space s))
  | .space s => do
    let groups ← api.groups s
    pure (groups.map fun name => .child name (.group { space := s, name }))
  | .group g => do
    let controlPlanes ← api.controlPlanes g
    pure (controlPlanes.map fun name => .child name (.controlPlane { group := g, name }))
  | .controlPlane _ => pure []

/-- What is said of a place without children. -/
def emptyText? : Node → Option String
  | .root => some "No organizations found"
  | .organization _ => some "No spaces found"
  | .space _ => some "No groups found"
  | .group _ => some "No control planes found"
  | .controlPlane _ => none

/-- The rows at a place, given the rows of its children. -/
def listing (node : Node) (children : List Item) : List Item :=
  let up := match node.parent? with
    | none => []
    | some parent => [Item.up parent]
  let nothing := match node.emptyText? with
    | none => []
    | some text => if children.isEmpty then [Item.placeholder text] else []
  up ++ nothing ++ sortRows children

/-- The rows at a place. -/
def items (api : Api m) (node : Node) : ExceptT Failure m (List Item) := do
  let children ← node.children api
  pure (node.listing children)

end Node

end Wayfinder
