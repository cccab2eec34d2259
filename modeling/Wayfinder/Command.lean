import Wayfinder.CommandLine.Options
import Wayfinder.Place.Derive
import Wayfinder.Place.Walk
import Wayfinder.Remote.Cloud
import Wayfinder.Switch.Commit

/-!
What the command does: it goes from the place of the current context along a path and makes the
place it gets to the current target, or prints a kubeconfig for it; or it switches back.
-/

set_option autoImplicit false
set_option relaxedAutoImplicit false

namespace Wayfinder.Command

open CommandLine Files

/-- What is printed. -/
structure Printed where
  output : String := ""
  errors : String := ""
  deriving DecidableEq, Repr

/-- How the command ends. -/
structure Result where
  exitCode : Nat
  printed : Printed
  deriving DecidableEq, Repr

variable {m : Type → Type} [Monad m]

/-- The kubeconfig file of an invocation. -/
def storeOf (i : Invocation) (env : String → Option String) : Store :=
  match i.file with
  | none => { path := Store.usualPath env }
  | some path => { path := if i.toOutput then Store.usualPath env else path }

/-- The source of answers about places of an invocation. -/
def sourceOf (outside : Remote.Outside m) (disk : Disk) (i : Invocation) : Api m :=
  Remote.source outside disk { token := i.token, domain := i.domain } i.skipsVerification

/-- The kubeconfig file of an invocation, with what is needed to switch it. -/
def committerOf (outside : Remote.Outside m) (i : Invocation) (env : String → Option String) :
    Switch.Committer m where
  store := storeOf i env
  pointer := Switch.PointerFile.pointer (Switch.PointerFile.usualPath env)
  verify := Remote.verify outside
  preferred := i.context

/-- The place that the current context leads to, among the files as they are. -/
def place (outside : Remote.Outside m) (i : Invocation) (config : Kubeconfig) :
    AtDesk m Node := do
  let disk ← AtDesk.disk
  AtDesk.elsewhere (derive (sourceOf outside disk i) config)

/-- The place that the path of an invocation leads to. There is no terminal to browse on, so a path
is needed. -/
def destination (outside : Remote.Outside m) (i : Invocation) (start : Node) : AtDesk m Node :=
  match i.path with
  | none =>
    throw (.terminal
      "interactive mode requires a terminal on stdin and stderr; pass a path instead")
  | some path => do
    let disk ← AtDesk.disk
    AtDesk.elsewhere (start.walk (sourceOf outside disk i) path)

/-- What is said about a switch. -/
def report (i : Invocation) (node : Node) (message : String) : String :=
  (if i.short then node.breadcrumbs else message) ++ "\n"

/-- The kubeconfig of a place, as it is printed. -/
def print (i : Invocation) (node : Node) : Except Failure Printed :=
  match (node.accept (Switch.outlet i.context)).run.run none with
  | (.error failure, _) => .error failure
  | (.ok message, text) => .ok { output := text.getD "", errors := report i node message }

/-- Goes to another place. -/
def go (outside : Remote.Outside m) (env : String → Option String) (i : Invocation) :
    AtDesk m Printed := do
  let config ← (storeOf i env).loadAtDesk
  let start ← place outside i config
  let node ← destination outside i start
  if i.toOutput then AtDesk.ofExcept (print i node)
  else do
    let message ← node.accept (committerOf outside i env).writer
    pure { output := report i node message }

/-- The names of the place that a kubeconfig leads to, or of its current context when that can not
be found out. -/
def location (outside : Remote.Outside m) (i : Invocation) (config : Kubeconfig) :
    AtDesk m String :=
  ExceptT.mk do
    match ← (place outside i config).run with
    | .ok node => pure (.ok node.breadcrumbs)
    | .error _ => pure (.ok config.current)

/-- Switches back to the previous target. -/
def back (outside : Remote.Outside m) (env : String → Option String) (i : Invocation) :
    AtDesk m Printed :=
  if i.toOutput then
    throw (.navigation "cannot swap to the previous context when printing to stdout")
  else do
    let config ← (committerOf outside i env).swap
    let location ← location outside i config
    pure
      { output :=
          (if i.short then location else "Switched kubeconfig context to: " ++ location) ++ "\n" }

/-- Does what an invocation asks for. -/
def run (outside : Remote.Outside m) (env : String → Option String) (i : Invocation) :
    AtDesk m Printed :=
  if i.toPrevious then back outside env i else go outside env i

/-- How the command ends, after what it has come to. -/
def ending : Except Failure Printed → Result
  | .ok printed => { exitCode := 0, printed }
  | .error failure =>
    { exitCode := 1, printed := { errors := "Error: " ++ failure.message ++ "\n" } }

end Wayfinder.Command
