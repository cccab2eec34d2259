import Wayfinder.Switch.Names
import Wayfinder.Kubeconfig.Basic

/-!
Making a context current. The canonical name always carries the active target: going to the
context that holds the previous target exchanges the two, and the clusters and users that are named
after them.
-/

set_option autoImplicit false
set_option relaxedAutoImplicit false

namespace Wayfinder

/-- What a context refers to by name. -/
inductive Reference
  | cluster
  | user
  deriving DecidableEq, Repr

/-- Changes the name that a context refers to. -/
def Context.refer (r : Reference) (f : String → String) (c : Context) : Context :=
  match r with
  | .cluster => { c with cluster := f c.cluster }
  | .user => { c with user := f c.user }

namespace Switch

/-- One name for another. -/
def rename (a b name : String) : String := if name = a then b else name

/-- Two names for each other. -/
def swapNames (a b name : String) : String :=
  if name = a then b else if name = b then a else name

/-- Changes the names that all contexts of a kubeconfig refer to. -/
def referAll (r : Reference) (f : String → String) (config : Kubeconfig) : Kubeconfig :=
  { config with contexts := config.contexts.map (Context.refer r f) }

/-- A kubeconfig, and the name that leads back to what was current before. -/
structure Outcome where
  config : Kubeconfig
  last : String

/-- Exchanges the clusters of two names, and what contexts refer to by those names. -/
def exchangeClusters (a b : String) (config : Kubeconfig) : Except Failure Kubeconfig :=
  match config.clusters.exchange? a b with
  | none => .error (.notFound .cluster b)
  | some clusters => .ok (referAll .cluster (swapNames a b) { config with clusters })

/-- Exchanges the users of two names, and what contexts refer to by those names. -/
def exchangeUsers (a b : String) (config : Kubeconfig) : Except Failure Kubeconfig :=
  match config.users.exchange? a b with
  | none => .error (.notFound .user b)
  | some users => .ok (referAll .user (swapNames a b) { config with users })

/-- Exchanges the contexts of two names, and with them the clusters and users of the two names
that the context now called `a` refers to by `b`. -/
def exchangeTargets (a b : String) (config : Kubeconfig) : Except Failure Kubeconfig :=
  match config.contexts.exchange? a b with
  | none => .error (.notFound .context a)
  | some contexts =>
    match contexts.get? a with
    | none => .error (.notFound .context a)
    | some context => do
      let config := { config with contexts, current := a }
      let config ← if context.cluster = b then exchangeClusters a b config else .ok config
      if context.user = b then exchangeUsers a b config else .ok config

/-- Makes `source` current. Any context but the one that holds the previous target is only made
current; that one is exchanged with the context called `preferred`. -/
def activate (config : Kubeconfig) (source preferred : String) : Except Failure Outcome :=
  if !config.contexts.contains source then .error (.notFound .context source)
  else if !config.current.isEmpty && !config.contexts.contains config.current then
    .error (.notFound .context config.current)
  else
    let previous := previousName preferred
    if source ≠ previous then
      .ok { config := { config with current := source }, last := config.current }
    else if config.current = source then .ok { config, last := config.current }
    else
      let last := if config.current = preferred then previous else config.current
      (exchangeTargets preferred previous config).map fun config => { config, last }

end Switch

end Wayfinder
