import Wayfinder.Place.Api
import Wayfinder.Place.Server
import Wayfinder.Credential.Claims

/-!
The place that the current context of a kubeconfig leads to. The endpoint of the context says
itself whether it is a disconnected space; elsewhere the credentials name the organization.
-/

set_option autoImplicit false
set_option relaxedAutoImplicit false

namespace Wayfinder

variable {m : Type → Type} [Monad m]

/-- The name of the space of an organization that is known by an ingress, or the ingress itself when
there is none, or no listing. -/
def cloudSpaceName (api : Api m) (organization : Organization) (ingress : String) : m String := do
  match ← (api.spaces organization).run with
  | .error _ => pure ingress
  | .ok spaces =>
    match spaces.find? fun s => dropSlashes s.ingress == ingress with
    | none => pure ingress
    | some space => pure space.name

/-- The place within a space that a context leads to. The address of the server goes before the
namespace of the context. -/
def placeWithin (space : Space) (server : ServerPath) (context : Context) : Node :=
  match server.group.or context.chosenNamespace, server.controlPlane with
  | some group, some controlPlane =>
    .controlPlane { group := { space, name := group }, name := controlPlane }
  | some group, none => .group { space, name := group }
  | none, _ => .space space

/-- A disconnected space that makes itself known. -/
def disconnectedSpace (ingress : Ingress) (cluster : Cluster) (insecure : Bool) (user : User) :
    Space where
  organization := none
  name := dropSlashes (dropScheme ingress.host)
  ingress := ingress.host
  authorityData := ingress.authorityData.or cluster.authorityData
  insecure
  user

/-- The place that the current context leads to. -/
def derive (api : Api m) (config : Kubeconfig) : ExceptT Failure m Node := do
  let target ← liftExcept config.resolveCurrent
  let server ← liftExcept (ServerPath.parse target.cluster.server)
  let user := target.user.getD {}
  let insecure := api.skipsVerification || target.cluster.skipVerification == some true
  match ← ExceptT.lift
      (api.ingress { target.cluster with server := server.base } target.user).run with
  | .ok ingress =>
    pure (placeWithin (disconnectedSpace ingress target.cluster insecure user) server
      target.context)
  | .error failure =>
    if failure.isNotFound || failure.isUnauthorized then
      match target.user.bind Credential.organizationOf with
      | none => pure .root
      | some name => do
        let organization : Organization := { name }
        let spaceName ← ExceptT.lift (cloudSpaceName api organization server.ingress)
        pure (placeWithin
          { organization := some organization
            name := spaceName
            ingress := server.ingress
            authorityData := target.cluster.authorityData
            insecure
            user } server target.context)
    else throw failure
where
  /-- An answer that needs no questions. -/
  liftExcept {α : Type} (r : Except Failure α) : ExceptT Failure m α := ExceptT.mk (pure r)

end Wayfinder
