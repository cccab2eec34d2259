import Wayfinder.Place.Node

/-!
What can be asked about places. The answers come out of a monad, so that they may change or fail
from one question to the next; `Api.recorded` keeps a list of the questions.
-/

set_option autoImplicit false
set_option relaxedAutoImplicit false

namespace Wayfinder

/-- Where a disconnected space can be reached, and what it is trusted by. -/
structure Ingress where
  host : String
  /-- The certificate authority, as base64 text. -/
  authorityData : Option String
  deriving DecidableEq, Repr

/-- A source of answers about places. -/
structure Api (m : Type → Type) where
  /-- Whether all endpoints are trusted without verification. -/
  skipsVerification : Bool
  organizations : ExceptT Failure m (List Organization)
  spaces : Organization → ExceptT Failure m (List Space)
  groups : Space → ExceptT Failure m (List String)
  controlPlanes : Group → ExceptT Failure m (List String)
  /-- Asks an endpoint whether it is a disconnected space. -/
  ingress : Cluster → Option User → ExceptT Failure m Ingress

/-- A question about places. -/
inductive Question
  | organizations
  | spaces (organization : Organization)
  | groups (space : Space)
  | controlPlanes (group : Group)
  | ingress (cluster : Cluster) (user : Option User)

namespace Api

variable {m : Type → Type} [Monad m]

/-- Asks after noting the question. -/
def noted {α : Type} (question : Question) (ask : ExceptT Failure m α) :
    ExceptT Failure (StateT (List Question) m) α :=
  ExceptT.mk fun questions => do
    let reply ← ask.run
    pure (reply, questions ++ [question])

/-- The same source, with a list of the questions it has been asked. -/
def recorded (api : Api m) : Api (StateT (List Question) m) where
  skipsVerification := api.skipsVerification
  organizations := noted .organizations api.organizations
  spaces organization := noted (.spaces organization) (api.spaces organization)
  groups space := noted (.groups space) (api.groups space)
  controlPlanes group := noted (.controlPlanes group) (api.controlPlanes group)
  ingress cluster user := noted (.ingress cluster user) (api.ingress cluster user)

end Api

end Wayfinder
