import Wayfinder.Value
import Wayfinder.Failure

/-!
A kubeconfig: clusters, users and contexts under their names, and which context is current. Keys
that nothing here gives a meaning to are carried along. Main statement: a kubeconfig is the same as
itself (`Kubeconfig.same_refl`), in the equality that passes over the order of mappings.
-/

set_option autoImplicit false
set_option relaxedAutoImplicit false

namespace Wayfinder

/-- Keys without a meaning here, and their values. -/
abbrev Extra : Type := NameMap Value

/-- The endpoint of a Kubernetes API, and how far it is trusted. -/
structure Cluster where
  server : String := ""
  /-- The certificate authority, as base64 text. -/
  authorityData : Option String := none
  /-- A file that holds the certificate authority. -/
  authorityFile : Option String := none
  skipVerification : Option Bool := none
  tlsServerName : Option String := none
  extra : Extra := ∅
  deriving DecidableEq

/-- A variable in the environment of a credential plugin. -/
structure Variable where
  name : String
  value : String
  deriving DecidableEq, Repr

/-- A credential plugin: the command that prints a credential. -/
structure Plugin where
  apiVersion : String := ""
  command : String
  args : List String := []
  env : List Variable := []
  extra : Extra := ∅
  deriving DecidableEq

/-- What a user shows to a cluster. -/
structure User where
  token : Option String := none
  plugin : Option Plugin := none
  /-- The certificate of the client, as base64 text. -/
  certificateData : Option String := none
  /-- The key of the client, as base64 text. -/
  keyData : Option String := none
  extra : Extra := ∅
  deriving DecidableEq

/-- A cluster and a user, by their names, with the namespace to work in. -/
structure Context where
  cluster : String := ""
  user : String := ""
  namespaceName : Option String := none
  extensions : Option Value := none
  extra : Extra := ∅
  deriving DecidableEq

/-- A kubeconfig. -/
structure Kubeconfig where
  apiVersion : Option String := some "v1"
  kind : Option String := some "Config"
  preferences : Option Value := none
  clusters : NameMap Cluster := ∅
  users : NameMap User := ∅
  contexts : NameMap Context := ∅
  /-- The name of the current context, empty when none is. -/
  current : String := ""
  extensions : Option Value := none
  extra : Extra := ∅
  deriving DecidableEq

/-- Whether two optional values are equal, by a given equality of values. -/
def sameOption {α : Type} (same : α → α → Bool) : Option α → Option α → Bool
  | none, none => true
  | some a, some b => same a b
  | _, _ => false

theorem sameOption_refl {α : Type} {same : α → α → Bool} (h : ∀ a, same a a = true)
    (o : Option α) : sameOption same o o = true := by
  cases o <;> simp [sameOption, h]

/-- Equality of keys without a meaning and their values. -/
def Extra.same (a b : Extra) : Bool := NameMap.sameBy Value.same a b

theorem Extra.same_refl (a : Extra) : a.same a = true := NameMap.sameBy_refl Value.same_refl a

/-- Equality of clusters. -/
def Cluster.same (a b : Cluster) : Bool :=
  a.server == b.server && a.authorityData == b.authorityData &&
    a.authorityFile == b.authorityFile && a.skipVerification == b.skipVerification &&
    a.tlsServerName == b.tlsServerName && a.extra.same b.extra

theorem Cluster.same_refl (a : Cluster) : a.same a = true := by
  simp [Cluster.same, Extra.same_refl]

/-- Equality of credential plugins. -/
def Plugin.same (a b : Plugin) : Bool :=
  a.apiVersion == b.apiVersion && a.command == b.command && a.args == b.args && a.env == b.env &&
    a.extra.same b.extra

theorem Plugin.same_refl (a : Plugin) : a.same a = true := by
  simp [Plugin.same, Extra.same_refl]

/-- Equality of users. -/
def User.same (a b : User) : Bool :=
  a.token == b.token && sameOption Plugin.same a.plugin b.plugin &&
    a.certificateData == b.certificateData && a.keyData == b.keyData && a.extra.same b.extra

theorem User.same_refl (a : User) : a.same a = true := by
  simp [User.same, Extra.same_refl, sameOption_refl Plugin.same_refl]

namespace Context

/-- The namespace to work in; an empty one counts as none. -/
def chosenNamespace (c : Context) : Option String :=
  c.namespaceName.filter fun name => !name.isEmpty

/-- Equality of contexts. -/
def same (a b : Context) : Bool :=
  a.cluster == b.cluster && a.user == b.user && a.namespaceName == b.namespaceName &&
    sameOption Value.same a.extensions b.extensions && a.extra.same b.extra

theorem same_refl (a : Context) : a.same a = true := by
  simp [same, Extra.same_refl, sameOption_refl Value.same_refl]

end Context

/-- A context with the entries it refers to. A context may do without a user. -/
structure Target where
  name : String
  context : Context
  cluster : Cluster
  user : Option User

namespace Kubeconfig

/-- The kubeconfig with one context, which is current, and one cluster and one user of its name. -/
def single (name : String) (cluster : Cluster) (user : User) (namespaceName : Option String) :
    Kubeconfig where
  clusters := NameMap.empty.insert name cluster
  users := NameMap.empty.insert name user
  contexts := NameMap.empty.insert name { cluster := name, user := name, namespaceName }
  current := name

/-- The user that a context refers to. -/
def userOf (config : Kubeconfig) (name : String) : Except Failure (Option User) :=
  if name.isEmpty then .ok none
  else
    match config.users.get? name with
    | none => .error (.notFound .user name)
    | some user => .ok (some user)

/-- The context of a name, with the entries it refers to. -/
def resolve (config : Kubeconfig) (name : String) : Except Failure Target :=
  match config.contexts.get? name with
  | none => .error (.notFound .context name)
  | some context =>
    match config.clusters.get? context.cluster with
    | none => .error (.notFound .cluster context.cluster)
    | some cluster =>
      match config.userOf context.user with
      | .error failure => .error failure
      | .ok user => .ok { name, context, cluster, user }

/-- The current context, with the entries it refers to. -/
def resolveCurrent (config : Kubeconfig) : Except Failure Target :=
  if config.current.isEmpty then .error (.config "kubeconfig has no current context set")
  else config.resolve config.current

section Single

variable {name : String} (hname : name ≠ "") (cluster : Cluster) (user : User)
  (namespaceName : Option String)

include hname

theorem resolve_single : (single name cluster user namespaceName).resolve name =
    .ok { name, context := { cluster := name, user := name, namespaceName }, cluster,
          user := some user } := by
  have hnonempty : name.isEmpty = false := by simpa using hname
  simp [resolve, single, userOf, NameMap.get?_insert, hnonempty]

/-- A kubeconfig with one context under a name leads to what it holds. -/
theorem resolveCurrent_single : (single name cluster user namespaceName).resolveCurrent =
    .ok { name, context := { cluster := name, user := name, namespaceName }, cluster,
          user := some user } := by
  have hcurrent : (single name cluster user namespaceName).current = name := rfl
  have hnonempty : name.isEmpty = false := by simpa using hname
  rw [resolveCurrent, hcurrent, hnonempty, if_neg Bool.false_ne_true, resolve_single hname]

end Single

/-- Equality of kubeconfigs. -/
def same (a b : Kubeconfig) : Bool :=
  a.apiVersion == b.apiVersion && a.kind == b.kind &&
    sameOption Value.same a.preferences b.preferences &&
    NameMap.sameBy Cluster.same a.clusters b.clusters &&
    NameMap.sameBy User.same a.users b.users &&
    NameMap.sameBy Context.same a.contexts b.contexts && a.current == b.current &&
    sameOption Value.same a.extensions b.extensions && a.extra.same b.extra

theorem same_refl (a : Kubeconfig) : a.same a = true := by
  simp [same, Extra.same_refl, sameOption_refl Value.same_refl,
    NameMap.sameBy_refl Cluster.same_refl, NameMap.sameBy_refl User.same_refl,
    NameMap.sameBy_refl Context.same_refl]

end Kubeconfig

end Wayfinder
