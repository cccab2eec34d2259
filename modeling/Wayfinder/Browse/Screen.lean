import Wayfinder.Place.Listing

/-!
What an operator is shown while browsing, and what can be chosen from it.
-/

set_option autoImplicit false
set_option relaxedAutoImplicit false

namespace Wayfinder.Browse

/-- What the operator chooses. -/
inductive Selection
  /-- The row at a position. -/
  | enter (position : Nat)
  | back
  /-- The place itself, as the current target. -/
  | accept
  | quit
  deriving DecidableEq, Repr

/-- A listing with its title, whether its place can become the current target, and what went wrong
just before. -/
structure Screen where
  title : String
  items : List Item
  canAccept : Bool
  status : Option String

end Wayfinder.Browse
