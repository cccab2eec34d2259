import Wayfinder.Place.Node

/-!
Making a place the current target of a kubeconfig.
-/

set_option autoImplicit false
set_option relaxedAutoImplicit false

namespace Wayfinder

/-- Where kubeconfigs of places go, and the name that their entries get there. -/
structure Writer (m : Type → Type) where
  name : String
  write : Kubeconfig → ExceptT Failure m Unit

/-- Makes a place the current target; answers what is said about it. -/
def Node.accept {m : Type → Type} [Monad m] (writer : Writer m) (node : Node) :
    ExceptT Failure m String :=
  match (if node.isAcceptable then node.kubeconfig? writer.name else none) with
  | none => throw (.navigation ("cannot switch context to " ++ node.breadcrumbs))
  | some config => do
    writer.write config
    pure ("Kubeconfig context " ++ Text.quoted writer.name ++ " switched to: " ++ node.breadcrumbs)

end Wayfinder
