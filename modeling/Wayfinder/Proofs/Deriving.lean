import Wayfinder.Place.Derive
import Wayfinder.Proofs.Asking
import Wayfinder.Proofs.Endpoints

/-!
Places that are derived from a kubeconfig: all that a derivation can come to (`Derives`,
`derives_of_reply`). Main statements: a space of an organization has the address of the endpoint it
was derived from exactly when that has the scheme `https` (`derive_keeps_endpoint_iff`, with
`derive_changes_scheme` for an endpoint that has not), and a derived space is trusted as the target
is, but for a certificate authority that is only in a file (`derive_trusts_iff`, with
`derive_drops_authority`).
-/

set_option autoImplicit false
set_option relaxedAutoImplicit false

namespace Wayfinder

/-! ### Places in a space -/

theorem ControlPlane.serverUrl_eq (c : ControlPlane) :
    c.serverUrl = c.group.space.serverUrl ++ Url.trail (ServerPath.route c.group.name c.name) := by
  refine String.toList_inj.1 ?_
  rw [String.toList_append, Url.toList_trail]
  simp [serverUrl, spacesPath, Url.behind, ServerPath.route]

namespace Node

/-- The namespace that is set for a place. -/
def namespace? : Node → Option String
  | .group g => some g.name
  | .controlPlane _ => some controlPlaneNamespace
  | _ => none

/-- The part of the address of a place that leads to it from its space. -/
def way : Node → String
  | .controlPlane c => Url.trail (ServerPath.route c.group.name c.name)
  | _ => ""

variable {node : Node} {space : Space}

theorem serverUrl?_way (hspace : node.space? = some space) :
    node.serverUrl? = some (space.serverUrl ++ node.way) := by
  cases node with
  | root => cases hspace
  | organization o => cases hspace
  | space s =>
    obtain rfl := Option.some.inj hspace
    exact congrArg some String.append_empty.symm
  | group g =>
    obtain rfl := Option.some.inj hspace
    exact congrArg some String.append_empty.symm
  | controlPlane c =>
    obtain rfl := Option.some.inj hspace
    exact congrArg some c.serverUrl_eq

/-- The address in the kubeconfig of a place begins with that of its space. -/
theorem kubeconfig?_way (hspace : node.space? = some space) (name : String) :
    node.kubeconfig? name =
      some (.single name (space.cluster (space.serverUrl ++ node.way)) space.user
        node.namespace?) := by
  have hway := serverUrl?_way hspace
  cases node with
  | root => cases hspace
  | organization o => cases hspace
  | space s =>
    obtain rfl := Option.some.inj hspace
    rw [← Option.some.inj hway]
    rfl
  | group g =>
    obtain rfl := Option.some.inj hspace
    rw [← Option.some.inj hway]
    rfl
  | controlPlane c =>
    obtain rfl := Option.some.inj hspace
    rw [← Option.some.inj hway]
    rfl

theorem space?_placeWithin (space : Space) (path : ServerPath) (context : Context) :
    (placeWithin space path context).space? = some space := by
  unfold placeWithin
  split
  · rfl
  · rfl
  · rfl

end Node

/-! ### Names from a listing -/

/-- The name that a space at an endpoint gets from a listing. -/
def listedName (spaces : List Space) (path : ServerPath) : String :=
  match spaces.find? fun s ↦ dropSlashes s.ingress == path.ingress with
  | none => path.ingress
  | some space => space.name

theorem reply_cloudSpaceName {σ : Type} {api : Api (StateM σ)} {organization : Organization}
    {spaces : List Space} {s last : σ}
    (h : reply (api.spaces organization) s = (.ok spaces, last)) (path : ServerPath) :
    reply (ExceptT.lift (cloudSpaceName api organization path.ingress)) s =
      (.ok (listedName spaces path), last) := by
  have hrun : (cloudSpaceName api organization path.ingress).run s =
      (listedName spaces path, last) := by
    have hasked : (api.spaces organization).run.run s = (.ok spaces, last) := h
    rw [cloudSpaceName, StateT.run_bind, hasked]
    simp only [bind, listedName]
    cases spaces.find? fun s ↦ dropSlashes s.ingress == path.ingress with
    | none => rfl
    | some space => rfl
  have hlift : reply (ExceptT.lift (cloudSpaceName api organization path.ingress)) s =
      (.ok ((cloudSpaceName api organization path.ingress).run s).1,
        ((cloudSpaceName api organization path.ingress).run s).2) := rfl
  rw [hlift, hrun]

/-! ### What a derivation comes to -/

/-- Whether the endpoint of a target is trusted without verification. -/
def Api.trusts {m : Type → Type} (api : Api m) (target : Target) : Bool :=
  api.skipsVerification || target.cluster.skipVerification == some true

/-- The space of an organization that is behind the endpoint of a target. -/
def cloudSpace (organization : Organization) (name : String) (path : ServerPath) (target : Target)
    (insecure : Bool) : Space where
  organization := some organization
  name
  ingress := path.ingress
  authorityData := target.cluster.authorityData
  insecure
  user := target.user.getD {}

/-- What is derived from a target: a place in the disconnected space that answers at its endpoint,
a place in a space of the organization that its credentials name, or the place of all organizations
when they name none. -/
inductive Derives {m : Type → Type} (api : Api m) (target : Target) (path : ServerPath) :
    Except Failure Ingress → Node → Prop
  | disconnected (ingress : Ingress) :
      Derives api target path (.ok ingress)
        (placeWithin (disconnectedSpace ingress target.cluster (api.trusts target)
          (target.user.getD {})) path target.context)
  | cloud {failure : Failure} {organization name : String}
      (refused : (failure.isNotFound || failure.isUnauthorized) = true)
      (named : target.user.bind Credential.organizationOf = some organization) :
      Derives api target path (.error failure)
        (placeWithin (cloudSpace { name := organization } name path target (api.trusts target)) path
          target.context)
  | nowhere {failure : Failure} (refused : (failure.isNotFound || failure.isUnauthorized) = true)
      (unnamed : target.user.bind Credential.organizationOf = none) :
      Derives api target path (.error failure) .root

/-- The space of a derived place, and what the endpoint answered. -/
theorem Derives.space_cases {m : Type → Type} {api : Api m} {target : Target} {path : ServerPath}
    {answer : Except Failure Ingress} {node : Node} {space : Space}
    (h : Derives api target path answer node) (hspace : node.space? = some space) :
    (∃ ingress, answer = .ok ingress ∧
      space = disconnectedSpace ingress target.cluster (api.trusts target)
        (target.user.getD {})) ∨
      ∃ failure organization name, answer = .error failure ∧
        space = cloudSpace organization name path target (api.trusts target) := by
  cases h with
  | disconnected ingress =>
    rw [Node.space?_placeWithin] at hspace
    exact Or.inl ⟨ingress, rfl, (Option.some.inj hspace).symm⟩
  | cloud refused named =>
    rw [Node.space?_placeWithin] at hspace
    exact Or.inr ⟨_, _, _, rfl, (Option.some.inj hspace).symm⟩
  | nowhere refused unnamed => cases hspace

section Derive

variable {σ : Type} {api : Api (StateM σ)} {config : Kubeconfig} {node : Node} {s last : σ}

theorem reply_liftExcept {α : Type} {r : Except Failure α} {a : α} (h : r = .ok a) (s : σ) :
    reply (derive.liftExcept r : ExceptT Failure (StateM σ) α) s = (.ok a, s) := by
  rw [h]
  rfl

theorem reply_derive_of_ok {target : Target} {path : ServerPath} {ingress : Ingress} {next : σ}
    (htarget : config.resolveCurrent = .ok target)
    (hpath : ServerPath.parse target.cluster.server = .ok path)
    (hanswer : reply (api.ingress { target.cluster with server := path.base } target.user) s =
      (.ok ingress, next)) :
    reply (derive api config) s =
      (.ok (placeWithin (disconnectedSpace ingress target.cluster (api.trusts target)
        (target.user.getD {})) path target.context), next) := by
  rw [derive, reply_bind_of_ok _ (reply_liftExcept htarget s),
    reply_bind_of_ok _ (reply_liftExcept hpath s), reply_bind_of_ok _ (reply_lift_run hanswer)]
  rfl

theorem reply_derive_of_error {target : Target} {path : ServerPath} {failure : Failure}
    {organization name : String} {next : σ} (htarget : config.resolveCurrent = .ok target)
    (hpath : ServerPath.parse target.cluster.server = .ok path)
    (hanswer : reply (api.ingress { target.cluster with server := path.base } target.user) s =
      (.error failure, next)) (hfailure : (failure.isNotFound || failure.isUnauthorized) = true)
    (hnamed : target.user.bind Credential.organizationOf = some organization)
    (hname : reply (ExceptT.lift (cloudSpaceName api { name := organization } path.ingress)) next =
      (.ok name, last)) :
    reply (derive api config) s =
      (.ok (placeWithin (cloudSpace { name := organization } name path target (api.trusts target))
        path target.context), last) := by
  rw [derive, reply_bind_of_ok _ (reply_liftExcept htarget s),
    reply_bind_of_ok _ (reply_liftExcept hpath s), reply_bind_of_ok _ (reply_lift_run hanswer)]
  simp only [hfailure, if_true, hnamed]
  rw [reply_bind_of_ok _ hname]
  rfl

theorem reply_liftExcept_eq_ok {α : Type} {r : Except Failure α} {a : α} {s next : σ}
    (h : reply (derive.liftExcept r : ExceptT Failure (StateM σ) α) s = (.ok a, next)) :
    r = .ok a ∧ next = s := by
  cases h
  exact ⟨rfl, rfl⟩

theorem derives_of_reply (h : reply (derive api config) s = (.ok node, last)) :
    ∃ target path, config.resolveCurrent = .ok target ∧
      ServerPath.parse target.cluster.server = .ok path ∧
      Derives api target path
        (reply (api.ingress { target.cluster with server := path.base } target.user) s).1 node := by
  rw [derive] at h
  obtain ⟨target, resolved, htarget, hserver⟩ := reply_bind_eq_ok_iff.1 h
  obtain ⟨hresolve, rfl⟩ := reply_liftExcept_eq_ok htarget
  obtain ⟨path, parsed, hpath, hplace⟩ := reply_bind_eq_ok_iff.1 hserver
  obtain ⟨hparse, rfl⟩ := reply_liftExcept_eq_ok hpath
  refine ⟨target, path, hresolve, hparse, ?_⟩
  rcases hanswer : reply (api.ingress { target.cluster with server := path.base } target.user)
    parsed with ⟨failure | ingress, next⟩
  · rw [reply_bind_of_ok _ (reply_lift_run hanswer)] at hplace
    dsimp only at hplace
    split at hplace
    · next hrefused =>
      split at hplace
      · next hunnamed =>
        cases hplace
        exact .nowhere hrefused hunnamed
      · next organization hnamed =>
        obtain ⟨name, last', -, hpure⟩ := reply_bind_eq_ok_iff.1 hplace
        cases hpure
        exact .cloud hrefused hnamed
    · cases hplace
  · rw [reply_bind_of_ok _ (reply_lift_run hanswer)] at hplace
    cases hplace
    exact .disconnected ingress

end Derive

/-! ### The endpoint of a derived space -/

/-- A source of answers that lists spaces for every organization, and knows no disconnected one. -/
def listing (spaces : List Space) : Api (StateM Unit) where
  skipsVerification := false
  organizations := pure []
  spaces _ := pure spaces
  groups _ := pure []
  controlPlanes _ := pure []
  ingress _ _ := throw (.api 404 "not found")

/-- A user whose credentials name an organization. -/
def resident : User := { plugin := some { command := "up", args := ["--organization=o"] } }

/-- The target of the user at a cluster. -/
def residentTarget (cluster : Cluster) : Target where
  name := "p"
  context := { cluster := "p", user := "p" }
  cluster
  user := some resident

theorem resolveCurrent_single_resident (cluster : Cluster) :
    (Kubeconfig.single "p" cluster resident none).resolveCurrent =
      .ok (residentTarget cluster) := by
  have hname : "p" ≠ "" := by decide
  exact Kubeconfig.resolveCurrent_single hname _ _ _

/-- What is derived for the user. -/
theorem reply_derive_resident (cluster : Cluster) {path : ServerPath}
    (hpath : ServerPath.parse cluster.server = .ok path)
    (hskip : cluster.skipVerification = none) (spaces : List Space) :
    reply (derive (listing spaces) (.single "p" cluster resident none)) () =
      (.ok (placeWithin (cloudSpace { name := "o" } (listedName spaces path) path
        (residentTarget cluster) false) path (residentTarget cluster).context), ()) := by
  have hanswer : reply ((listing spaces).ingress { cluster with server := path.base } resident) () =
      (.error (.api 404 "not found"), ()) := rfl
  have hlisting : reply ((listing spaces).spaces { name := "o" }) () = (.ok spaces, ()) := rfl
  rw [reply_derive_of_error (resolveCurrent_single_resident cluster) hpath hanswer rfl rfl
    (reply_cloudSpaceName hlisting path), Api.trusts, residentTarget, hskip]
  rfl

section Spaces

variable {σ : Type}

/-- A derived space of an organization has the address of the endpoint it was derived from if that
is one of `https`, and else another one. The kubeconfig of every place in that space leads to the
address of the space. -/
theorem derive_keeps_endpoint_iff (api : Api (StateM σ)) (config : Kubeconfig) (node : Node)
    (space : Space) (s last : σ) (hderived : reply (derive api config) s = (.ok node, last))
    (hspace : node.space? = some space) (hcloud : space.isCloud = true) :
    ∃ target path, config.resolveCurrent = .ok target ∧
      ServerPath.parse target.cluster.server = .ok path ∧
      space.serverUrl = "https" ++ "://" ++ path.ingress ∧
      (space.serverUrl = path.base ↔ ∃ rest, path.base = "https" ++ "://" ++ rest) ∧
      ∀ (other : Node) (name : String), other.space? = some space →
        other.kubeconfig? name =
          some (.single name (space.cluster (space.serverUrl ++ other.way)) space.user
            other.namespace?) := by
  obtain ⟨target, path, htarget, hpath, hderives⟩ := derives_of_reply hderived
  have hingress : space.ingress = path.ingress := by
    rcases hderives.space_cases hspace with ⟨ingress, -, rfl⟩ | ⟨failure, owner, name, -, rfl⟩
    · cases hcloud
    · rfl
  have hurl := Space.serverUrl_of_parse hpath hingress
  refine ⟨target, path, htarget, hpath, hurl, ?_, fun other name hother ↦
    Node.kubeconfig?_way hother name⟩
  rw [hurl]
  exact ServerPath.https_ingress_eq_base_iff

/-- An endpoint with a port and a path, which is kept. -/
theorem derive_keeps_endpoint_iff_https :
    let config := Kubeconfig.single "p" { server := "https://H:8080/x/" } resident none
    ∃ node space, reply (derive (listing []) config) () = (.ok node, ()) ∧
      node.space? = some space ∧ space.isCloud = true ∧ space.serverUrl = "https://h:8080/x" := by
  intro config
  have hpath : ServerPath.parse "https://H:8080/x/" =
      .ok { base := "https://h:8080/x", group := none, controlPlane := none } := rfl
  have hderived :=
    reply_derive_resident { server := "https://H:8080/x/" } hpath rfl []
  have hspace := Node.space?_placeWithin
  refine ⟨_, _, hderived, hspace _ _ _, rfl, ?_⟩
  obtain ⟨target, path, htarget, hparse, -, hkept, -⟩ :=
    derive_keeps_endpoint_iff (listing []) config _ _ () () hderived (hspace _ _ _) rfl
  obtain rfl := Except.ok.inj ((resolveCurrent_single_resident _).symm.trans htarget)
  obtain rfl := Except.ok.inj (hpath.symm.trans hparse)
  exact hkept.2 ⟨"h:8080/x", rfl⟩

/-- An endpoint without encryption becomes one of `https`. -/
theorem derive_changes_scheme :
    let config := Kubeconfig.single "p" { server := "http://h" } resident none
    ∃ node space target path, reply (derive (listing []) config) () = (.ok node, ()) ∧
      node.space? = some space ∧ space.isCloud = true ∧ config.resolveCurrent = .ok target ∧
      ServerPath.parse target.cluster.server = .ok path ∧ path.base = "http://h" ∧
      space.serverUrl = "https://h" := by
  intro config
  have hpath : ServerPath.parse "http://h" =
      .ok { base := "http://h", group := none, controlPlane := none } := rfl
  have hderived := reply_derive_resident { server := "http://h" } hpath rfl []
  exact ⟨_, _, _, _, hderived, Node.space?_placeWithin _ _ _, rfl,
    resolveCurrent_single_resident _, hpath, rfl, Space.serverUrl_of_parse hpath rfl⟩

/-! ### The trust in a derived space -/

/-- What the trust in a cluster rests on: a certificate authority, in the entry itself or in a
file. -/
inductive Anchor
  | data (text : String)
  | file (name : String)
  deriving DecidableEq

/-- What the trust in a cluster rests on. The certificate authority in a file counts if there is
none in the entry. -/
def Cluster.anchor? (c : Cluster) : Option Anchor :=
  (c.authorityData.map .data).or (c.authorityFile.map .file)

/-- The certificate authority that an endpoint makes known. -/
def published : Except Failure Ingress → Option String
  | .ok ingress => ingress.authorityData
  | .error _ => none

/-- What the trust in the endpoint of a cluster can rest on: the certificate authority that it makes
known itself, or else that of the cluster. -/
def knownAnchor (answer : Except Failure Ingress) (cluster : Cluster) : Option Anchor :=
  ((published answer).map .data).or cluster.anchor?

/-- A certificate authority is only in a file. -/
def OnlyInFile (answer : Except Failure Ingress) (cluster : Cluster) : Prop :=
  published answer = none ∧ cluster.authorityData = none ∧ cluster.authorityFile ≠ none

theorem map_data_eq_knownAnchor_iff (answer : Except Failure Ingress) (cluster : Cluster) :
    ((published answer).or cluster.authorityData).map Anchor.data =
      knownAnchor answer cluster ↔ ¬ OnlyInFile answer cluster := by
  unfold knownAnchor OnlyInFile Cluster.anchor?
  cases published answer with
  | some data => simp
  | none =>
    cases cluster.authorityData with
    | some data => simp
    | none => cases cluster.authorityFile <;> simp

theorem Derives.trust {m : Type → Type} {api : Api m} {target : Target} {path : ServerPath}
    {answer : Except Failure Ingress} {node : Node} {space : Space}
    (h : Derives api target path answer node) (hspace : node.space? = some space) :
    space.insecure = api.trusts target ∧
      space.authorityData = (published answer).or target.cluster.authorityData := by
  rcases h.space_cases hspace with ⟨ingress, rfl, rfl⟩ | ⟨failure, organization, name, rfl, rfl⟩
  · exact ⟨rfl, rfl⟩
  · exact ⟨rfl, rfl⟩

/-- A derived space is trusted without verification if the target is. Else it is trusted by the
certificate authority that is known, unless that is only in a file. -/
theorem derive_trusts_iff (api : Api (StateM σ)) (config : Kubeconfig) (node : Node)
    (space : Space) (s last : σ) (hderived : reply (derive api config) s = (.ok node, last))
    (hspace : node.space? = some space) :
    ∃ target path answer, config.resolveCurrent = .ok target ∧
      ServerPath.parse target.cluster.server = .ok path ∧
      answer = (reply (api.ingress { target.cluster with server := path.base } target.user) s).1 ∧
      ∀ server,
        ((space.cluster server).skipVerification = some true ∧
            (space.cluster server).anchor? = none ↔
          api.skipsVerification = true ∨ target.cluster.skipVerification = some true) ∧
        (¬ (api.skipsVerification = true ∨ target.cluster.skipVerification = some true) →
          (space.cluster server).skipVerification = none ∧
          ((space.cluster server).anchor? = knownAnchor answer target.cluster ↔
            ¬ OnlyInFile answer target.cluster)) := by
  obtain ⟨target, path, htarget, hpath, hderives⟩ := derives_of_reply hderived
  refine ⟨target, path, _, htarget, hpath, rfl, fun server ↦ ?_⟩
  obtain ⟨hinsecure, hauthority⟩ := hderives.trust hspace
  have htrusts : space.insecure = true ↔
      api.skipsVerification = true ∨ target.cluster.skipVerification = some true := by
    rw [hinsecure, Api.trusts, Bool.or_eq_true, beq_iff_eq]
  rw [← htrusts]
  cases hskips : space.insecure with
  | true => simp [Space.cluster, Cluster.anchor?, hskips]
  | false =>
    have hwritten : (space.cluster server).anchor? = space.authorityData.map .data := by
      simp [Space.cluster, Cluster.anchor?, hskips]
    refine ⟨by simp [Space.cluster, hskips], fun _ ↦ ⟨by simp [Space.cluster, hskips], ?_⟩⟩
    rw [hwritten, hauthority]
    exact map_data_eq_knownAnchor_iff _ _

/-- A cluster with its certificate authority in the entry. -/
def certified : Cluster := { server := "https://h", authorityData := some "Q0E=" }

/-- A cluster with its certificate authority in a file. -/
def certifiedByFile : Cluster := { server := "https://h", authorityFile := some "/ca.pem" }

/-- A certificate authority in the entry is kept. -/
theorem derive_trusts_iff_data :
    let config := Kubeconfig.single "p" certified resident none
    ∃ node space, reply (derive (listing []) config) () = (.ok node, ()) ∧
      node.space? = some space ∧
      ∀ server, (space.cluster server).anchor? = some (.data "Q0E=") := by
  intro config
  have hpath : ServerPath.parse "https://h" =
      .ok { base := "https://h", group := none, controlPlane := none } := rfl
  have hderived := reply_derive_resident certified hpath rfl []
  have hspace := Node.space?_placeWithin
  refine ⟨_, _, hderived, hspace _ _ _, fun server ↦ ?_⟩
  obtain ⟨target, path, answer, htarget, -, hanswer, htrusts⟩ :=
    derive_trusts_iff (listing []) config _ _ () () hderived (hspace _ _ _)
  obtain rfl := Except.ok.inj ((resolveCurrent_single_resident _).symm.trans htarget)
  obtain rfl : answer = .error (.api 404 "not found") := hanswer
  have hverified : ¬ ((listing []).skipsVerification = true ∨
      (residentTarget certified).cluster.skipVerification = some true) := by decide
  have hkept : ¬ OnlyInFile (.error (.api 404 "not found")) certified := by
    rintro ⟨-, hnone, -⟩
    cases hnone
  exact ((htrusts server).2 hverified).2.2 hkept

/-- A certificate authority that is only in a file is lost. -/
theorem derive_drops_authority :
    let config := Kubeconfig.single "p" certifiedByFile resident none
    ∃ node space target, reply (derive (listing []) config) () = (.ok node, ()) ∧
      node.space? = some space ∧ (listing []).skipsVerification = false ∧
      config.resolveCurrent = .ok target ∧ target.cluster.skipVerification = none ∧
      target.cluster.anchor? = some (.file "/ca.pem") ∧
      ∀ server, (space.cluster server).anchor? = none ∧
        (space.cluster server).skipVerification = none := by
  intro config
  have hpath : ServerPath.parse "https://h" =
      .ok { base := "https://h", group := none, controlPlane := none } := rfl
  have hderived := reply_derive_resident certifiedByFile hpath rfl []
  exact ⟨_, _, _, hderived, Node.space?_placeWithin _ _ _, rfl,
    resolveCurrent_single_resident _, rfl, rfl, fun _ ↦ ⟨rfl, rfl⟩⟩

end Spaces

end Wayfinder
