import Wayfinder.Kubeconfig.Basic
import Wayfinder.Tree.Reading

/-!
How a kubeconfig is laid out: clusters, users and contexts are lists of entries that carry their
name, and a key without a meaning stands beside the keys that have one. `ofTree?` reads the layout
and `toValue` writes it.
-/

set_option autoImplicit false
set_option relaxedAutoImplicit false

namespace Wayfinder

/-- The members of a table, by the texts of their keys. -/
abbrev Members : Type := List (String × Tree)

namespace Members

variable {α : Type}

/-- What `read` makes of the member of a name, or `absent` when there is no such member. Nothing
can be made of a member that stands there twice. -/
def read? (members : Members) (name : String) (absent : Option α) (read : Tree → Option α) :
    Option α :=
  match members.filter (fun m => m.1 == name) with
  | [] => absent
  | [m] => read m.2
  | _ => none

/-- The member of a name that may be absent, or null. -/
def optional? (members : Members) (name : String) (read : Tree → Option α) :
    Option (Option α) :=
  members.read? name (some none) (Tree.optional read)

/-- The members whose names are not among the known ones, a later one replacing an earlier one of
its name. -/
def others? (members : Members) (known : List String) : Option Extra :=
  ((members.filter fun m => !known.contains m.1).mapM fun m =>
    (Tree.value? false m.2).map fun value => (m.1, value)).map NameMap.ofList

end Members

/-- A member of a mapping. -/
def member (name : String) (value : Value) : List (Value × Value) := [(.string name, value)]

/-- A member of a mapping, if there is a value for it. -/
def memberIf (name : String) (value : Option Value) : List (Value × Value) :=
  match value with
  | none => []
  | some value => member name value

/-- The keys without a meaning, as members of a mapping. -/
def Extra.members (extra : Extra) : List (Value × Value) :=
  extra.entries.map fun e => (.string e.1, e.2)

namespace Cluster

/-- The keys of a cluster that have a meaning. -/
def keys : List String :=
  ["server", "certificate-authority-data", "certificate-authority", "insecure-skip-tls-verify",
    "tls-server-name"]

/-- Reads a cluster. -/
def ofTree? (t : Tree) : Option Cluster := do
  let members : Members ← t.members?
  let server ← members.read? "server" (some "") Tree.text?
  let authorityData ← members.optional? "certificate-authority-data" Tree.text?
  let authorityFile ← members.optional? "certificate-authority" Tree.text?
  let skipVerification ← members.optional? "insecure-skip-tls-verify" Tree.bool?
  let tlsServerName ← members.optional? "tls-server-name" Tree.text?
  let extra ← members.others? keys
  some { server, authorityData, authorityFile, skipVerification, tlsServerName, extra }

/-- Lays out a cluster. -/
def toValue (c : Cluster) : Value :=
  .mapping (member "server" (.string c.server) ++
    memberIf "certificate-authority-data" (c.authorityData.map .string) ++
    memberIf "certificate-authority" (c.authorityFile.map .string) ++
    memberIf "insecure-skip-tls-verify" (c.skipVerification.map .bool) ++
    memberIf "tls-server-name" (c.tlsServerName.map .string) ++
    c.extra.members)

end Cluster

namespace Variable

/-- Reads a variable. -/
def ofTree? (t : Tree) : Option Variable := do
  let members : Members ← t.members?
  let name ← members.read? "name" none Tree.text?
  let value ← members.read? "value" none Tree.text?
  some { name, value }

/-- Lays out a variable. -/
def toValue (v : Variable) : Value :=
  .mapping (member "name" (.string v.name) ++ member "value" (.string v.value))

end Variable

namespace Plugin

/-- The keys of a credential plugin that have a meaning. -/
def keys : List String := ["apiVersion", "command", "args", "env"]

/-- Reads a credential plugin. -/
def ofTree? (t : Tree) : Option Plugin := do
  let members : Members ← t.members?
  let apiVersion ← members.read? "apiVersion" (some "") Tree.text?
  let command ← members.read? "command" none Tree.text?
  let args ← members.read? "args" (some []) (Tree.list? Tree.text?)
  let env ← members.read? "env" (some []) (Tree.list? Variable.ofTree?)
  let extra ← members.others? keys
  some { apiVersion, command, args, env, extra }

/-- A list as a value, unless it is empty. -/
def listIf (items : List Value) : Option Value :=
  if items.isEmpty then none else some (.sequence items)

/-- Lays out a credential plugin. -/
def toValue (p : Plugin) : Value :=
  .mapping (member "apiVersion" (.string p.apiVersion) ++
    member "command" (.string p.command) ++
    memberIf "args" (listIf (p.args.map .string)) ++
    memberIf "env" (listIf (p.env.map Variable.toValue)) ++
    p.extra.members)

end Plugin

namespace User

/-- The keys of a user that have a meaning. -/
def keys : List String := ["token", "exec", "client-certificate-data", "client-key-data"]

/-- Reads a user. -/
def ofTree? (t : Tree) : Option User := do
  let members : Members ← t.members?
  let token ← members.optional? "token" Tree.text?
  let plugin ← members.optional? "exec" Plugin.ofTree?
  let certificateData ← members.optional? "client-certificate-data" Tree.text?
  let keyData ← members.optional? "client-key-data" Tree.text?
  let extra ← members.others? keys
  some { token, plugin, certificateData, keyData, extra }

/-- Lays out a user. -/
def toValue (u : User) : Value :=
  .mapping (memberIf "token" (u.token.map .string) ++
    memberIf "exec" (u.plugin.map Plugin.toValue) ++
    memberIf "client-certificate-data" (u.certificateData.map .string) ++
    memberIf "client-key-data" (u.keyData.map .string) ++
    u.extra.members)

end User

namespace Context

/-- The keys of a context that have a meaning. -/
def keys : List String := ["cluster", "user", "namespace", "extensions"]

/-- Reads a context. -/
def ofTree? (t : Tree) : Option Context := do
  let members : Members ← t.members?
  let cluster ← members.read? "cluster" (some "") Tree.text?
  let user ← members.read? "user" (some "") Tree.text?
  let namespaceName ← members.optional? "namespace" Tree.text?
  let extensions ← members.optional? "extensions" (Tree.value? true)
  let extra ← members.others? keys
  some { cluster, user, namespaceName, extensions, extra }

/-- Lays out a context. -/
def toValue (c : Context) : Value :=
  .mapping (member "cluster" (.string c.cluster) ++
    member "user" (.string c.user) ++
    memberIf "namespace" (c.namespaceName.map .string) ++
    memberIf "extensions" c.extensions ++
    c.extra.members)

end Context

namespace Kubeconfig

variable {α : Type}

/-- Reads an entry: its name, and under `body` what it is; an absent body is the empty one. -/
def entryOfTree? (body : String) (absent : α) (read : Tree → Option α) (t : Tree) :
    Option (String × α) := do
  let members : Members ← t.members?
  let name ← members.read? "name" none Tree.text?
  let value ← members.read? body (some absent) read
  some (name, value)

/-- Reads a list of entries. The list may be absent, or null. -/
def entriesOf? (members : Members) (list body : String) (absent : α) (read : Tree → Option α) :
    Option (NameMap α) := do
  let entries ← members.optional? list (Tree.list? (entryOfTree? body absent read))
  some (NameMap.ofList (entries.getD []))

/-- Lays out a list of entries. -/
def entriesValue (body : String) (toValue : α → Value) (m : NameMap α) : Value :=
  .sequence (m.entries.map fun e =>
    .mapping (member "name" (.string e.1) ++ member body (toValue e.2)))

/-- The keys of a kubeconfig that have a meaning. -/
def keys : List String :=
  ["apiVersion", "kind", "preferences", "clusters", "users", "contexts", "current-context",
    "extensions"]

/-- Reads a kubeconfig. -/
def ofTree? (t : Tree) : Option Kubeconfig := do
  let members : Members ← t.members?
  let apiVersion ← members.optional? "apiVersion" Tree.text?
  let kind ← members.optional? "kind" Tree.text?
  let preferences ← members.optional? "preferences" (Tree.value? true)
  let clusters ← entriesOf? members "clusters" "cluster" {} Cluster.ofTree?
  let users ← entriesOf? members "users" "user" {} User.ofTree?
  let contexts ← entriesOf? members "contexts" "context" {} Context.ofTree?
  let current ← members.read? "current-context" (some "") Tree.text?
  let extensions ← members.optional? "extensions" (Tree.value? true)
  let extra ← members.others? keys
  some { apiVersion, kind, preferences, clusters, users, contexts, current, extensions, extra }

/-- Lays out a kubeconfig. The three lists are always there, and the current context. -/
def toValue (c : Kubeconfig) : Value :=
  .mapping (memberIf "apiVersion" (c.apiVersion.map .string) ++
    memberIf "kind" (c.kind.map .string) ++
    memberIf "preferences" c.preferences ++
    member "clusters" (entriesValue "cluster" Cluster.toValue c.clusters) ++
    member "users" (entriesValue "user" User.toValue c.users) ++
    member "contexts" (entriesValue "context" Context.toValue c.contexts) ++
    member "current-context" (.string c.current) ++
    memberIf "extensions" c.extensions ++
    c.extra.members)

end Kubeconfig

end Wayfinder
