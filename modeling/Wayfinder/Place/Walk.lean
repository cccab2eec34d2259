import Wayfinder.Place.Listing
import Wayfinder.Text.Pieces

/-!
Going along a path of names. A path from the top of the hierarchy begins with a slash; `.` and an
empty name stay, `..` goes up, and any other name enters the child of that name.
-/

set_option autoImplicit false
set_option relaxedAutoImplicit false

namespace Wayfinder.Node

variable {m : Type → Type} [Monad m]

/-- The names of a path that lead anywhere. -/
def steps (path : String) : List String :=
  (Text.split path '/').filter fun s => !(s == "" || s == ".")

/-- Whether a path begins at the top. -/
def isAbsolute (path : String) : Bool := path.toList.head? == some '/'

/-- The child of a name among the rows of a listing. -/
def childNamed? (name : String) (items : List Item) : Option Node :=
  (items.find? fun item => !item.isUp && !item.isPlaceholder && item.text == name).bind (·.target)

/-- A failure on the way along a path. -/
def astray (what path : String) : Failure :=
  .navigation (what ++ " (path " ++ Text.quoted path ++ ")")

/-- Takes one step of a path. -/
def step (api : Api m) (path : String) (node : Node) (name : String) : ExceptT Failure m Node :=
  if name = ".." then
    match node.parent? with
    | none => throw (astray ("cannot move up from " ++ node.breadcrumbs) path)
    | some parent => pure parent
  else do
    let items ← node.items api
    match childNamed? name items with
    | none => throw (astray (Text.quoted name ++ " not found in " ++ node.breadcrumbs) path)
    | some child => pure child

/-- Takes the steps of a path, one after the other. -/
def follow (api : Api m) (path : String) (node : Node) : List String → ExceptT Failure m Node
  | [] => pure node
  | name :: rest => do
    let next ← node.step api path name
    next.follow api path rest

/-- Where a path from the top begins, and the steps that are left of it. The name of a disconnected
space, which is the top of its hierarchy, is the first step. -/
def fromTop (path : String) (start : Node) (names : List String) :
    Except Failure (Node × List String) :=
  match start.top with
  | .space s =>
    match names with
    | [] => .ok (.space s, [])
    | name :: rest =>
      if name = s.name then .ok (.space s, rest)
      else if name = ".." then .error (astray "cannot move up from /" path)
      else .error (astray (Text.quoted name ++ " not found in /") path)
  | _ => .ok (.root, names)

/-- The place that a path leads to from a start. -/
def walk (api : Api m) (start : Node) (path : String) : ExceptT Failure m Node :=
  if isAbsolute path then
    match fromTop path start (steps path) with
    | .error failure => throw failure
    | .ok (node, names) => node.follow api path names
  else start.follow api path (steps path)

end Wayfinder.Node
