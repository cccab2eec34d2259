import Wayfinder.Kubeconfig.Basic

/-!
The places an operator can be at: organizations, their spaces, the groups of a space and the
control planes of a group. A space that belongs to no organization is the top of its own hierarchy.
-/

set_option autoImplicit false
set_option relaxedAutoImplicit false

namespace Wayfinder

/-- An organization. -/
structure Organization where
  name : String
  deriving DecidableEq, Repr

/-- A space: an endpoint that serves groups and control planes. One that belongs to no organization
is disconnected. -/
structure Space where
  organization : Option Organization
  name : String
  /-- The host, with or without a scheme and a port. -/
  ingress : String
  /-- The certificate authority, as base64 text. -/
  authorityData : Option String
  /-- Whether the endpoint is trusted without verification. -/
  insecure : Bool
  user : User

/-- A group of a space. -/
structure Group where
  space : Space
  name : String

/-- A control plane of a group. -/
structure ControlPlane where
  group : Group
  name : String

/-- A place. -/
inductive Node
  | root
  | organization (organization : Organization)
  | space (space : Space)
  | group (group : Group)
  | controlPlane (controlPlane : ControlPlane)

/-- A text without slashes at its end. -/
def dropSlashes (s : String) : String :=
  String.ofList ((s.toList.reverse.dropWhile (· == '/')).reverse)

namespace Space

/-- Whether a space belongs to an organization. -/
def isCloud (s : Space) : Bool := s.organization.isSome

/-- The address of the endpoint of a space. -/
def serverUrl (s : Space) : String :=
  let ingress := dropSlashes s.ingress
  if "https://".toList.isPrefixOf ingress.toList || "http://".toList.isPrefixOf ingress.toList then
    ingress
  else "https://" ++ ingress

/-- The cluster at an address behind the endpoint of a space, with the trust that the space has. A
certificate authority is of no use without verification. -/
def cluster (s : Space) (server : String) : Cluster where
  server
  authorityData := if s.insecure then none else s.authorityData
  skipVerification := if s.insecure then some true else none

/-- The names on the way to a space. -/
def breadcrumbs (s : Space) : String :=
  match s.organization with
  | some organization => "/" ++ organization.name ++ "/" ++ s.name
  | none => "/" ++ s.name

end Space

/-- The names on the way to a group. -/
def Group.breadcrumbs (g : Group) : String := g.space.breadcrumbs ++ "/" ++ g.name

/-- The part of an address that leads to the resources of a space. -/
def spacesPath : String := "apis/spaces.upbound.io/v1beta1"

namespace ControlPlane

/-- The address of a control plane, behind the endpoint of its space. -/
def serverUrl (c : ControlPlane) : String :=
  c.group.space.serverUrl ++ "/" ++ spacesPath ++ "/namespaces/" ++ c.group.name ++
    "/controlplanes/" ++ c.name ++ "/k8s"

/-- The names on the way to a control plane. -/
def breadcrumbs (c : ControlPlane) : String := c.group.breadcrumbs ++ "/" ++ c.name

end ControlPlane

namespace Node

/-- The names on the way to a place. -/
def breadcrumbs : Node → String
  | .root => "/"
  | .organization o => "/" ++ o.name
  | .space s => s.breadcrumbs
  | .group g => g.breadcrumbs
  | .controlPlane c => c.breadcrumbs

/-- The place above a place; none at the top. -/
def parent? : Node → Option Node
  | .root => none
  | .organization _ => some .root
  | .space s => s.organization.map .organization
  | .group g => some (.space g.space)
  | .controlPlane c => some (.group c.group)

/-- The place at the top of the hierarchy of a place. -/
def top : Node → Node
  | .root => .root
  | .organization _ => .root
  | .space s => if s.isCloud then .root else .space s
  | .group g => if g.space.isCloud then .root else .space g.space
  | .controlPlane c => if c.group.space.isCloud then .root else .space c.group.space

/-- The address that a place has. -/
def serverUrl? : Node → Option String
  | .root => none
  | .organization _ => none
  | .space s => some s.serverUrl
  | .group g => some g.space.serverUrl
  | .controlPlane c => some c.serverUrl

/-- The namespace set for control planes. -/
def controlPlaneNamespace : String := "default"

/-- The kubeconfig that leads to a place, its entries under one name. -/
def kubeconfig? (name : String) : Node → Option Kubeconfig
  | .root => none
  | .organization _ => none
  | .space s => some (.single name (s.cluster s.serverUrl) s.user none)
  | .group g =>
    some (.single name (g.space.cluster g.space.serverUrl) g.space.user (some g.name))
  | .controlPlane c =>
    some (.single name (c.group.space.cluster c.serverUrl) c.group.space.user
      (some controlPlaneNamespace))

/-- Whether a place can become the current target. A disconnected space can not. -/
def isAcceptable : Node → Bool
  | .root => false
  | .organization _ => false
  | .space s => s.isCloud
  | .group _ => true
  | .controlPlane _ => true

end Node

end Wayfinder
