import Wayfinder.Remote.Endpoint

/-!
The organizations of a cloud and their spaces; and the source of answers about places that is made
of the cloud and the endpoints of the spaces.
-/

set_option autoImplicit false
set_option relaxedAutoImplicit false

namespace Wayfinder.Remote

/-- A cloud. -/
structure Cloud where
  token : Option String
  domain : String
  deriving DecidableEq, Repr

/-- An organization, as a cloud lists it. -/
structure ListedOrganization where
  id : Json
  name : String
  displayName : Option String

/-- Reads a listed organization. -/
def ListedOrganization.ofJson? (json : Json) : Option ListedOrganization := do
  let fields ← json.fields? ["id", "name", "displayName"] 2
  let id ← fields.read? "id" (some .null) some
  let name ← fields.read? "name" none Json.text?
  let displayName ← fields.read? "displayName" (some none) (Json.nullable Json.text?)
  some { id, name, displayName }

/-- A space, as a cloud lists it. -/
structure ListedSpace where
  name : String
  ingress : String
  /-- The certificate authority, as base64 text. -/
  authorityData : Option String
  deriving DecidableEq, Repr

/-- Reads a listed space. -/
def ListedSpace.ofJson? (json : Json) : Option ListedSpace := do
  let fields ← json.fields? ["name", "ingress", "ca"] 2
  let name ← fields.read? "name" none Json.text?
  let ingress ← fields.read? "ingress" none Json.text?
  let authorityData ← fields.read? "ca" (some none) (Json.nullable Json.text?)
  some { name, ingress, authorityData }

variable {m : Type → Type} [Monad m]

namespace Cloud

/-- The address that all others of a cloud begin with. -/
def baseAddress (c : Cloud) : String := "https://api." ++ c.domain ++ "/v1"

/-- The address of the organizations. -/
def organizationsAddress (c : Cloud) : String := c.baseAddress ++ "/organizations"

/-- The address of the spaces of an organization. -/
def spacesAddress (c : Cloud) (organization : String) : String :=
  c.organizationsAddress ++ "/" ++ Url.Percent.segment organization ++ "/spaces"

/-- Asks a cloud, which takes a token. -/
def ask {α : Type} (outside : Outside m) (c : Cloud) (address what : String)
    (read : Json → Option α) : ExceptT Failure m α :=
  match c.token with
  | none =>
    throw (.token ("no Upbound token available to list " ++ what ++ "; set --token or UP_TOKEN"))
  | some token => Request.ask outside (Request.build address (some token) {}) what read

/-- The organizations. -/
def organizations (outside : Outside m) (c : Cloud) :
    ExceptT Failure m (List ListedOrganization) :=
  c.ask outside c.organizationsAddress "organizations" (Json.list? ListedOrganization.ofJson?)

/-- The spaces of an organization. -/
def spaces (outside : Outside m) (c : Cloud) (organization : String) :
    ExceptT Failure m (List ListedSpace) :=
  c.ask outside (c.spacesAddress organization)
    ("spaces for organization '" ++ organization ++ "'") (Json.list? ListedSpace.ofJson?)

end Cloud

/-- The endpoint of a space, with the trust that its kubeconfig will have. -/
def connectSpace (outside : Outside m) (disk : Files.Disk) (space : Space) :
    ExceptT Failure m Endpoint :=
  Endpoint.connect outside disk (space.cluster space.serverUrl) (some space.user) false

/-- Answers about places, from a cloud and from the endpoints of its spaces. -/
def source (outside : Outside m) (disk : Files.Disk) (cloud : Cloud) (insecure : Bool) :
    Api m where
  skipsVerification := insecure
  organizations := do
    let listed ← cloud.organizations outside
    pure (listed.map fun o => { name := o.name })
  spaces organization := do
    let listed ← cloud.spaces outside organization.name
    pure (listed.map fun s =>
      { organization := some organization
        name := s.name
        ingress := s.ingress
        authorityData := s.authorityData
        insecure
        user := { token := cloud.token } })
  groups space := do
    let endpoint ← connectSpace outside disk space
    endpoint.groups outside
  controlPlanes group := do
    let endpoint ← connectSpace outside disk group.space
    endpoint.controlPlanes outside group.name
  ingress cluster user := do
    let endpoint ← Endpoint.connect outside disk cluster user insecure
    endpoint.ingress outside

end Wayfinder.Remote
