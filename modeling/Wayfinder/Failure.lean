import Wayfinder.Text.Quoted

/-!
What can go wrong on the way to a place or to a kubeconfig, and the one wording of each cause.
-/

set_option autoImplicit false
set_option relaxedAutoImplicit false

namespace Wayfinder

/-- The three kinds of named entries of a kubeconfig. -/
inductive EntryKind
  | context
  | cluster
  | user
  deriving DecidableEq, Repr

/-- The word for a kind of entry. -/
def EntryKind.word : EntryKind → String
  | .context => "context"
  | .cluster => "cluster"
  | .user => "user"

/-- Why a request has no usable answer. -/
inductive RequestFault
  /-- The request can not be built, of an address when the address itself is at fault. -/
  | unbuildable (url : Option String)
  /-- Nothing answers at the address. -/
  | unreachable (url : String)
  /-- The body of the answer is not what the request asks for. -/
  | undecodable (url : String)
  deriving DecidableEq, Repr

/-- The wording of a request's fault. -/
def RequestFault.message : RequestFault → String
  | .unbuildable none => "builder error"
  | .unbuildable (some url) => "builder error for url (" ++ url ++ ")"
  | .unreachable url => "error sending request for url (" ++ url ++ ")"
  | .undecodable url => "error decoding response body for url (" ++ url ++ ")"

/-- The causes for which an operation fails. -/
inductive Failure
  /-- A referenced entry of a kubeconfig does not exist. -/
  | notFound (kind : EntryKind) (name : String)
  /-- A step of a path, or a switch, can not be taken from where the operator is. -/
  | navigation (detail : String)
  /-- A request has no usable answer. -/
  | http (fault : RequestFault)
  /-- A server answers with a status other than success. -/
  | api (status : Nat) (detail : String)
  /-- The probe turns a prospective kubeconfig down. -/
  | verify (detail : String)
  /-- No usable credentials. -/
  | token (detail : String)
  /-- A file can not be read, understood or written. -/
  | config (detail : String)
  /-- A text is not JSON, or not the JSON that is asked for. -/
  | json (detail : String)
  /-- The terminal can not be used. -/
  | terminal (detail : String)
  deriving DecidableEq, Repr

namespace Failure

/-- The wording of a failure. -/
def message : Failure → String
  | .notFound kind name => "no " ++ kind.word ++ " " ++ Text.quoted name ++ " found"
  | .navigation detail => detail
  | .http fault => "HTTP request failed: " ++ fault.message
  | .api status detail => "API error (status " ++ toString status ++ "): " ++ detail
  | .verify detail => "kubeconfig verification failed: " ++ detail
  | .token detail => detail
  | .config detail => "Configuration error: " ++ detail
  | .json detail => "JSON error: " ++ detail
  | .terminal detail => "terminal error: " ++ detail

/-- Whether a server says that what was asked for does not exist. -/
def isNotFound : Failure → Bool
  | .api status _ => status == 404
  | _ => false

/-- Whether a server says that the credentials do not allow the request. -/
def isUnauthorized : Failure → Bool
  | .api status _ => status == 401 || status == 403
  | _ => false

/-- Whether another fault underlies this one. -/
def hasSource : Failure → Bool
  | .http _ => true
  | _ => false

end Failure

theorem toOption_eq_some_iff {α : Type} {r : Except Failure α} {a : α} :
    r.toOption = some a ↔ r = .ok a := by
  cases r <;> simp [Except.toOption]

end Wayfinder
