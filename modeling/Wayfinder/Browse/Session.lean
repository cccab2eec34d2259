import Wayfinder.Browse.Screen
import Wayfinder.Place.Accept

/-!
Browsing from place to place until the operator makes one the current target, or leaves. A listing
that fails, or a place that can not be accepted, keeps the operator where they are, and is shown as
the status of the next screen.
-/

set_option autoImplicit false
set_option relaxedAutoImplicit false

namespace Wayfinder.Browse

variable {m : Type → Type} [Monad m]

/-- The place that became the current target, and what is said about it. -/
structure Switched where
  node : Node
  message : String

/-- Where the operator is, with the rows shown there. -/
structure Session where
  node : Node
  items : List Item
  status : Option String := none

/-- What the operator sees of a session: that something is on its way, and screens. -/
structure Display (m : Type → Type) where
  /-- Shows that a place is on its way. -/
  busy : String → ExceptT Failure m Unit
  /-- Shows a screen, from which the operator will choose. -/
  present : Screen → ExceptT Failure m Unit

namespace Session

/-- The screen of a session. -/
def screen (s : Session) : Screen :=
  { title := s.node.breadcrumbs, items := s.items, canAccept := s.node.isAcceptable,
    status := s.status }

/-- Where a choice leads. -/
def target? (s : Session) : Selection → Option Node
  | .enter position => (s.items[position]?).bind (·.target)
  | .back => s.node.parent?
  | .accept => none
  | .quit => none

/-- The session at a place, the listing of which has to succeed. -/
def start (api : Api m) (display : Display m) (node : Node) : ExceptT Failure m Session := do
  display.busy node.breadcrumbs
  let items ← node.items api
  pure { node, items }

/-- Goes to a place if its listing succeeds. -/
def goTo (api : Api m) (display : Display m) (s : Session) (node : Node) :
    ExceptT Failure m Session := do
  display.busy node.breadcrumbs
  match ← ExceptT.lift (node.items api).run with
  | .ok items => pure { node, items }
  | .error failure =>
    pure { s with status := some (node.breadcrumbs ++ ": " ++ failure.message) }

/-- Makes the place the current target, if it can be. -/
def accept (writer : Writer m) (display : Display m) (s : Session) :
    ExceptT Failure m (Session ⊕ Switched) := do
  display.busy s.node.breadcrumbs
  match ← ExceptT.lift (s.node.accept writer).run with
  | .ok message => pure (.inr { node := s.node, message })
  | .error failure => pure (.inl { s with status := some failure.message })

/-- What becomes of a session with a choice: another session, or its end. -/
def choose (api : Api m) (writer : Writer m) (display : Display m) (s : Session)
    (selection : Selection) : ExceptT Failure m (Session ⊕ Option Switched) :=
  match selection with
  | .quit => pure (.inr none)
  | .accept => do
    match ← s.accept writer display with
    | .inl next => pure (.inl next)
    | .inr switched => pure (.inr (some switched))
  | selection => do
    match s.target? selection with
    | none => pure (.inl { s with status := none })
    | some node => do
      let next ← s.goTo api display node
      pure (.inl next)

/-- Goes on with a session over what the operator chooses in turn, each choice possibly a failure
of the display; the operator leaves when there is nothing more. -/
def proceed (api : Api m) (writer : Writer m) (display : Display m) (s : Session) :
    List (Except Failure Selection) → ExceptT Failure m (Option Switched)
  | [] => do
    display.present s.screen
    pure none
  | .error failure :: _ => do
    display.present s.screen
    throw failure
  | .ok selection :: rest => do
    display.present s.screen
    match ← s.choose api writer display selection with
    | .inl next => next.proceed api writer display rest
    | .inr ended => pure ended

end Session

/-- Browses from a place. -/
def run (api : Api m) (writer : Writer m) (display : Display m) (start : Node)
    (script : List (Except Failure Selection)) : ExceptT Failure m (Option Switched) := do
  let session ← Session.start api display start
  session.proceed api writer display script

end Wayfinder.Browse
