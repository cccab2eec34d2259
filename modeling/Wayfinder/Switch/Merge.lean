import Wayfinder.Switch.Activate

/-!
Taking a target of one kubeconfig into another, as its current target under the canonical name.
-/

set_option autoImplicit false
set_option relaxedAutoImplicit false

namespace Wayfinder.Switch

/-- Moves the cluster of a name aside, and what contexts refer to by the name with it. -/
def clearCluster (name : String) (config : Kubeconfig) : Kubeconfig :=
  match config.clusters.moveAside? name with
  | none => config
  | some (clusters, free) => referAll .cluster (rename name free) { config with clusters }

/-- Moves the user of a name aside, and what contexts refer to by the name with it. -/
def clearUser (name : String) (config : Kubeconfig) : Kubeconfig :=
  match config.users.moveAside? name with
  | none => config
  | some (users, free) => referAll .user (rename name free) { config with users }

/-- Moves the context of a name aside; it stays current if it was. -/
def clearContext (name : String) (config : Kubeconfig) : Kubeconfig :=
  match config.contexts.moveAside? name with
  | none => config
  | some (contexts, free) =>
    { config with contexts, current := rename name free config.current }

/-- Adds a target, all of whose entries get the one name. -/
def addTarget (name : String) (target : Target) (config : Kubeconfig) : Kubeconfig :=
  let users := match target.user with
    | none => config.users
    | some user => config.users.insert name user
  let context : Context :=
    { target.context with
      cluster := name
      user := if target.user.isSome then name else "" }
  { config with
    clusters := config.clusters.insert name target.cluster
    users
    contexts := config.contexts.insert name context }

/-- Takes the context `name` of `source` into `dest` under the name of the previous target, after
moving aside what stands there, and then makes it current. -/
def merge (dest source : Kubeconfig) (name preferred : String) : Except Failure Outcome := do
  let target ← source.resolve name
  let previous := previousName preferred
  let cleared := clearContext previous (clearUser previous (clearCluster previous dest))
  activate (addTarget previous target cleared) previous preferred

/-- Whether two contexts are there and have equal bodies, clusters and users, whatever the names by
which they refer to these. -/
def sameTarget (a : Kubeconfig) (nameInA : String) (b : Kubeconfig) (nameInB : String) : Bool :=
  match a.resolve nameInA, b.resolve nameInB with
  | .ok x, .ok y =>
    ({ x.context with cluster := "", user := "" } : Context).same
        { y.context with cluster := "", user := "" } &&
      x.cluster.same y.cluster && sameOption User.same x.user y.user
  | _, _ => false

end Wayfinder.Switch
