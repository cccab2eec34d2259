import Wayfinder.Place.Api
import Wayfinder.Remote.Request

/-!
The Kubernetes API behind a cluster entry, asked with the credentials of a user entry: groups,
control planes, the ingress of a disconnected space, and whether it answers at all.
-/

set_option autoImplicit false
set_option relaxedAutoImplicit false

namespace Wayfinder.Remote

/-- An API with what it is trusted by and what it is shown. -/
structure Endpoint where
  server : String
  token : Option String
  trust : Trust
  deriving DecidableEq, Repr

/-- The octets of base64 text in a kubeconfig, which may have white space around it. -/
def encodedOctets (key text : String) : Except Failure (List UInt8) :=
  match Base64.standard.decode (Text.encode (Text.trim text)).toList with
  | .error fault => .error (.config ("invalid " ++ key ++ ": " ++ fault.message))
  | .ok bytes => .ok bytes

/-- A certificate or a key: as base64 text in a kubeconfig, or as a plugin gives it. -/
inductive Material
  | encoded (text : String)
  | plain (text : String)
  deriving DecidableEq, Repr

/-- The octets of a certificate or a key. -/
def Material.octets (key : String) : Material → Except Failure (List UInt8)
  | .encoded text => encodedOctets key text
  | .plain text => .ok (Text.encode text).toList

/-- What a user shows to an API. -/
structure Credentials where
  token : Option String := none
  certificate : Option Material := none
  key : Option Material := none
  deriving DecidableEq, Repr

namespace Credentials

/-- What the entry of a user holds. -/
def ofUser (user : User) : Credentials where
  token := user.token
  certificate := user.certificateData.map .encoded
  key := user.keyData.map .encoded

/-- Puts what a plugin gives before what is there. A certificate comes with its own key. -/
def withGiven (c : Credentials) (given : Credential.Given) : Credentials :=
  let c := { c with token := given.token.or c.token }
  match given.certificate with
  | none => c
  | some certificate =>
    { c with certificate := some (.plain certificate), key := given.key.map .plain }

/-- The identity, when there are both a certificate and a key. -/
def identity (c : Credentials) : Except Failure (Option Identity) :=
  match c.certificate, c.key with
  | some certificate, some key => do
    let certificate ← certificate.octets "client-certificate-data"
    let key ← key.octets "client-key-data"
    match Identity.ofPem? (certificate ++ 0x0a :: key) with
    | none => .error (.http (.unbuildable none))
    | some identity => .ok (some identity)
  | _, _ => .ok none

end Credentials

/-- The certificates that a cluster is trusted by besides the usual ones. -/
def rootsOf (disk : Files.Disk) (cluster : Cluster) : Except Failure (List (List UInt8)) := do
  let text ← match cluster.authorityData, cluster.authorityFile with
    | some text, _ => encodedOctets "certificate-authority-data" text
    | none, some path =>
      match disk.read path with
      | .error fault =>
        .error (.config ("Failed to read certificate authority " ++ path ++ ": " ++ fault.message))
      | .ok bytes => .ok bytes.toList
    | none, none => .ok []
  match Pem.sections? text with
  | none => .error (.http (.unbuildable none))
  | some sections => .ok ((sections.filter (·.kind == .certificate)).map (·.content))

variable {m : Type → Type} [Monad m]

/-- The credentials of a user. A plugin is run for them. -/
def credentialsOf (outside : Outside m) (disk : Files.Disk) (user : Option User) :
    ExceptT Failure m Credentials :=
  match user with
  | none => pure {}
  | some user =>
    match user.plugin with
    | none => pure (.ofUser user)
    | some plugin => do
      let given ← Credential.ofPlugin (outside.start disk) plugin
      pure ((Credentials.ofUser user).withGiven given)

namespace Endpoint

/-- The API of a cluster, for a user. -/
def connect (outside : Outside m) (disk : Files.Disk) (cluster : Cluster) (user : Option User)
    (insecure : Bool) : ExceptT Failure m Endpoint := do
  let roots ← ExceptT.mk (pure (rootsOf disk cluster))
  let credentials ← credentialsOf outside disk user
  let identity ← ExceptT.mk (pure credentials.identity)
  let trust : Trust :=
    { roots
      identity
      skipsVerification := insecure || cluster.skipVerification == some true }
  if trust.isUsable then
    pure { server := dropSlashes cluster.server, token := credentials.token, trust }
  else throw (.http (.unbuildable none))

/-- The request for a path behind an API. -/
def request (e : Endpoint) (path : String) : Except RequestFault Request :=
  Request.build (e.server ++ "/" ++ path) e.token e.trust

/-- The label of the namespaces that are groups. -/
def groupLabel : String := "spaces.upbound.io/group=true"

/-- The path of the groups. -/
def groupsPath : String := "api/v1/namespaces?labelSelector=" ++ Url.Percent.segment groupLabel

/-- The path of the control planes of a group. -/
def controlPlanesPath (group : String) : String :=
  spacesPath ++ "/namespaces/" ++ Url.Percent.segment group ++ "/controlplanes"

/-- The name of what a disconnected space publishes about itself. -/
def ingressMap : String := "ingress-public"

/-- The path of what a disconnected space publishes about itself. -/
def ingressPath : String := "api/v1/namespaces/upbound-system/configmaps/" ++ ingressMap

/-- Reads the name of an object. -/
def objectName? (json : Json) : Option String := do
  let fields ← json.fields? ["metadata"] 0
  fields.read? "metadata" (some "") fun metadata => do
    let fields ← metadata.fields? ["name"] 0
    fields.read? "name" (some "") Json.text?

/-- Reads the names of the objects in a list; an object without a name is left out. -/
def objectNames? (json : Json) : Option (List String) := do
  let fields ← json.fields? ["items"] 0
  let names ← fields.read? "items" (some []) (Json.list? objectName?)
  some (names.filter (!·.isEmpty))

/-- Reads the entries of a map of texts. -/
def entries? (json : Json) : Option (NameMap String) := do
  let fields ← json.fields? ["data"] 0
  fields.read? "data" (some ∅) (Json.table? Json.text?)

/-- The entry of a name that is not empty. -/
def filled? (entries : NameMap String) (name : String) : Option String :=
  (entries.get? name).filter (!·.isEmpty)

/-- The ingress in what a disconnected space publishes. -/
def ingressOf (entries : NameMap String) : Except Failure Ingress :=
  match filled? entries "ingress-host" with
  | none => .error (.config ("config map " ++ ingressMap ++ " has no ingress-host"))
  | some host =>
    let encoded (text : String) : String :=
      String.ofList ((Base64.standard.encode (Text.encode text).toList).map
        fun b => Char.ofNat b.toNat)
    .ok { host, authorityData := (filled? entries "ingress-ca").map encoded }

/-- The names of the groups. -/
def groups (outside : Outside m) (e : Endpoint) : ExceptT Failure m (List String) :=
  Request.ask outside (e.request groupsPath) "groups" objectNames?

/-- The names of the control planes of a group. -/
def controlPlanes (outside : Outside m) (e : Endpoint) (group : String) :
    ExceptT Failure m (List String) :=
  Request.ask outside (e.request (controlPlanesPath group))
    ("control planes in group '" ++ group ++ "'") objectNames?

/-- The ingress of a disconnected space. -/
def ingress (outside : Outside m) (e : Endpoint) : ExceptT Failure m Ingress := do
  let entries ← Request.ask outside (e.request ingressPath) ("config map " ++ ingressMap) entries?
  ExceptT.mk (pure (ingressOf entries))

/-- Whether the API answers. -/
def probe (outside : Outside m) (e : Endpoint) : ExceptT Failure m Unit :=
  Request.ask outside (e.request "version") "server version" fun _ => some ()

end Endpoint

/-- Probes the current context of a kubeconfig, with the trust and the credentials that it holds. -/
def verify (outside : Outside m) (disk : Files.Disk) (config : Kubeconfig) :
    ExceptT Failure m Unit := do
  let target ← ExceptT.mk (pure config.resolveCurrent)
  let endpoint ← verifying "" (Endpoint.connect outside disk target.cluster target.user false)
  verifying (target.cluster.server ++ ": ") (endpoint.probe outside)
where
  /-- Any failure is one of the probe. -/
  verifying {α : Type} (start : String) (x : ExceptT Failure m α) : ExceptT Failure m α :=
    ExceptT.mk do
      match ← x.run with
      | .ok value => pure (.ok value)
      | .error failure => pure (.error (.verify (start ++ failure.message)))

end Wayfinder.Remote
